import MortgageAgent.Provider.Types

/-!
# The finding contract

`validateProviderFinding`, the gate behind every adapter's `normalize`, and
`filterToPermittedFields`, which cuts a finding down to the fields the grant permits. A schema
is the strict object schema of a capability: every field is there and well typed, no other
field is, and the cross-field refinement holds.
-/

namespace MortgageAgent.Provider

/-- The checks a schema makes on one field. -/
inductive FieldSchema where
  | bool
  /-- `z.number().int().min(lo).max(hi)` -/
  | int (lo : Int) (hi : Option Int)
  /-- `z.number().min(lo).max(hi)`; zod's numbers are finite -/
  | number (lo : Int) (hi : Option Int)
  | oneOf (values : List String)
  /-- `z.array(z.string().min(1))` -/
  | nonemptyStrings

def FieldSchema.accepts : FieldSchema → Json → Bool
  | .bool, .bool _ => true
  | .int lo hi, .num n => n.isSafeInteger && n.geInt lo && hi.all (n.leInt ·)
  | .number lo hi, .num n => n.geInt lo && hi.all (n.leInt ·)
  | .oneOf values, .str s => values.contains s
  | .nonemptyStrings, .arr items => items.all fun
    | .str s => s ≠ ""
    | _ => false
  | _, _ => false

def incomeSchema : List (String × FieldSchema) :=
  [("monthlyIncome", .number 0 none),
   ("employmentStatus", .oneOf ["FULL_TIME", "PART_TIME", "SELF_EMPLOYED", "UNEMPLOYED"]),
   ("bankAccountAge", .int 0 none),
   ("incomeStability", .number 0 (some 100))]

def creditSchema : List (String × FieldSchema) :=
  [("creditScore", .int 300 (some 850)),
   ("debtToIncomeRatio", .number 0 (some 10)),
   ("paymentHistory", .oneOf ["EXCELLENT", "GOOD", "FAIR", "POOR"]),
   ("openAccounts", .int 0 none),
   ("derogatoryMarks", .int 0 none)]

def documentSchema : List (String × FieldSchema) :=
  [("w2Valid", .bool), ("payStubValid", .bool), ("bankStatementValid", .bool),
   ("taxReturnValid", .bool), ("allDocumentsValid", .bool),
   ("failedDocuments", .nonemptyStrings)]

def assetSchema : List (String × FieldSchema) :=
  [("liquidAssets", .number 0 none), ("investmentAssets", .number 0 none),
   ("accountCount", .int 0 none), ("reserveMonths", .number 0 none)]

def identitySchema : List (String × FieldSchema) :=
  [("nameMatch", .bool), ("dateOfBirthMatch", .bool), ("ssnValid", .bool),
   ("addressMatch", .bool), ("fraudAlertPresent", .bool), ("identityVerified", .bool)]

def schemas : ProviderCapability → List (String × FieldSchema)
  | .INCOME => incomeSchema
  | .CREDIT => creditSchema
  | .DOCUMENT => documentSchema
  | .ASSET => assetSchema
  | .IDENTITY => identitySchema

/-- A boolean field of an object that has it. -/
def flag (fields : List (String × Json)) (key : String) : Bool :=
  match Json.get? fields key with
  | some (.bool b) => b
  | _ => false

/-- The `superRefine` of the document and the identity schema. -/
def refines (capability : ProviderCapability) (fields : List (String × Json)) : Bool :=
  match capability with
  | .DOCUMENT =>
    let checksAllPass := flag fields "w2Valid" && flag fields "payStubValid"
      && flag fields "bankStatementValid" && flag fields "taxReturnValid"
    let noneFailed := match Json.get? fields "failedDocuments" with
      | some (.arr items) => items.isEmpty
      | _ => false
    flag fields "allDocumentsValid" == checksAllPass
      && flag fields "allDocumentsValid" == noneFailed
  | .IDENTITY =>
    flag fields "identityVerified"
      == (flag fields "nameMatch" && flag fields "dateOfBirthMatch" && flag fields "ssnValid"
        && flag fields "addressMatch" && !flag fields "fraudAlertPresent")
  | _ => true

/-- `schemas[capability].safeParse(finding).success`. -/
def satisfiesSchema (capability : ProviderCapability) (finding : Json) : Bool :=
  match finding with
  | .obj fields =>
    let schema := schemas capability
    (schema.all fun (key, field) => (Json.get? fields key).any field.accepts)
      && (fields.all fun (key, _) => (schema.lookup key).isSome)
      && refines capability fields
  | _ => false

def maxClockSkewMs : Int := 30000

def maxTransportAgeMs : Int := 5 * 60000

/-- The receipt's completion time is known, at most 30 seconds ahead of this process's clock
and at most five minutes behind it. -/
def freshObservedAt (observedAt : Option Instant) (now : Instant) : Bool :=
  observedAt.any fun t => t ≤ now + maxClockSkewMs && now - t ≤ maxTransportAgeMs

/-- A finding that passes comes back as it is: the schemas are strict and transform nothing. -/
def validateProviderFinding (capability : ProviderCapability) (finding : Json)
    (observedAt : Option Instant) (now : Instant) : Except ProviderError Json :=
  if !freshObservedAt observedAt now then
    .error (.other ("provider " ++ capability.text
      ++ " receipt has an invalid or stale observedAt timestamp"))
  else if !satisfiesSchema capability finding then
    .error (.other ("provider " ++ capability.text ++ " finding violates the canonical contract"))
  else .ok finding

/-- Section 11.5's field-bound authorization: only the granted top-level keys survive. -/
def filterToPermittedFields (finding : Json) (permittedFields : Option (List String)) : Json :=
  match finding, permittedFields with
  | .obj fields, some allowed => .obj (fields.filter fun (key, _) => allowed.contains key)
  | _, _ => finding

/-- What a dispatch makes of a receipt: `normalize`, then the contract. -/
def acceptReceipt (adapter : ProviderAdapter) (params : DispatchProviderRequestParams)
    (receipt : SynchronousProviderReceipt) (now : Instant) : Except ProviderError Json := do
  let finding ← adapter.normalize receipt.payload params.tenantId params.caseId
  validateProviderFinding params.capability finding receipt.observedAt now

end MortgageAgent.Provider
