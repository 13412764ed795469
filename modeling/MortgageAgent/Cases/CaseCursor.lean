import MortgageAgent.Database.Listing
import MortgageAgent.Lib.Bytes
import MortgageAgent.Lib.JsonText

/-!
# The cursor of the case listing

The cursor of a case is the base64 form of its creation time and its id, joined by a bar. A cursor
that is read is cut at the last bar.

* **`encodeCaseCursor`** / **`decodeCaseCursor`** — as `case-cursor.ts` has them.
* **`decodeCaseCursor_encodeCaseCursor`** — the cursor of a case is read as its `Date` and its id.
-/

namespace MortgageAgent.Cases

/-- A cursor as it is read: the id is any text. -/
structure CaseCursor where
  createdAt : Instant
  id : String
  deriving DecidableEq

def encodeCaseCursor (cursor : Cursor) : String :=
  Bytes.base64 (Bytes.utf8 (toISOString cursor.createdAt ++ "|" ++ toString cursor.id))

/-- The text before the last bar and the text after it. -/
def splitAtLastBar : List Char → Option (List Char × List Char)
  | [] => none
  | c :: cs =>
    match splitAtLastBar cs with
    | some (before, after) => some (c :: before, after)
    | none => if c = '|' then some ([], cs) else none

/-- `dateParse` is `new Date(text)`, `none` for an invalid one. The error is the message of a
`BadRequestException`. -/
def decodeCaseCursor (dateParse : String → Option Instant) (cursor : String) :
    Except String CaseCursor :=
  let decoded := Bytes.utf8Text (Bytes.ofBase64 cursor)
  let (isoTimestamp, id) := (splitAtLastBar decoded.toList).getD ([], [])
  match dateParse (String.ofList isoTimestamp) with
  | none => .error ("Malformed \"after\" cursor: " ++ cursor)
  | some createdAt =>
    if id = [] then .error ("Malformed \"after\" cursor: " ++ cursor)
    else .ok { createdAt, id := String.ofList id }

/-- The uuid that a text is; what is none fails the query. -/
def uuid? (text : String) : Option Uuid :=
  if text.toList ≠ [] ∧ text.toList.all Char.isDigit then some (Nat.ofDigitChars 10 text.toList 0)
  else none

theorem splitAtLastBar_eq_none {after : List Char} (h : '|' ∉ after) :
    splitAtLastBar after = none := by
  induction after with
  | nil => rfl
  | cons c after ih =>
    rw [List.mem_cons, not_or] at h
    rw [splitAtLastBar, ih h.2]
    exact if_neg (Ne.symm h.1)

theorem splitAtLastBar_append (before : List Char) {after : List Char} (h : '|' ∉ after) :
    splitAtLastBar (before ++ '|' :: after) = some (before, after) := by
  induction before with
  | nil =>
    rw [List.nil_append, splitAtLastBar, splitAtLastBar_eq_none h]
    rfl
  | cons c before ih => rw [List.cons_append, splitAtLastBar, ih]

theorem uuid?_toString (id : Uuid) : uuid? (toString id) = some id := by
  have hdigits : (toString id).toList.all Char.isDigit = true :=
    List.all_eq_true.mpr fun _ => Json.isDigit_of_mem_toString
  rw [uuid?, if_pos ⟨Json.digits_ne_nil id, hdigits⟩, Json.digits_eq, Nat.ofDigitChars_ten_toDigits]

/-- What is written is read, where the time is a text that `Date` reads back. -/
theorem decodeCaseCursor_encodeCaseCursor {dateParse : String → Option Instant} {cursor : Cursor}
    (hdate : dateParse (toISOString cursor.createdAt) = some cursor.createdAt) :
    decodeCaseCursor dateParse (encodeCaseCursor cursor)
      = .ok { createdAt := cursor.createdAt, id := toString cursor.id } := by
  have hbar : '|' ∉ (toString cursor.id).toList :=
    Json.not_mem_toString (by decide) cursor.id
  have hsplit : splitAtLastBar (toISOString cursor.createdAt ++ "|" ++ toString cursor.id).toList
      = some ((toISOString cursor.createdAt).toList, (toString cursor.id).toList) := by
    rw [String.toList_append, String.toList_append, List.append_assoc]
    exact splitAtLastBar_append _ hbar
  rw [decodeCaseCursor, encodeCaseCursor, Bytes.ofBase64_base64, Bytes.utf8Text_utf8, hsplit]
  simp only [Option.getD_some, String.ofList_toList, hdate, Json.digits_ne_nil, if_false]

/-- The cursor of a case is no empty text, which is read as none at all. -/
theorem encodeCaseCursor_ne_empty (cursor : Cursor) : encodeCaseCursor cursor ≠ "" := by
  intro hempty
  have hbytes := congrArg (fun text => Bytes.utf8Text (Bytes.ofBase64 text)) hempty
  simp only [encodeCaseCursor, Bytes.ofBase64_base64, Bytes.utf8Text_utf8] at hbytes
  have hbar : '|' ∈ (toISOString cursor.createdAt ++ "|" ++ toString cursor.id).toList := by
    simp
  rw [hbytes] at hbar
  revert hbar
  decide +kernel

end MortgageAgent.Cases
