import MortgageAgent.Lib.Bytes
import MortgageAgent.Lib.JsonObject

/-!
# Canonical texts, digests and signatures

Three places write a JSON value so that the order of its keys does not matter: the fingerprint of
a provider request concatenates the text with sorted keys itself (`Json.canonical`), the policy
digest and the outbox signer rebuild every object from its sorted entries and leave the writing to
`JSON.stringify`. The engine then lists keys that are array indices by number and before all
others, so the two kinds of text differ; neither depends on the order of the keys.

* **`canonical_texts`** — for each of the three, two values have one text exactly when they are
  equal up to the order of their keys; so a signature survives the reordering of `jsonb` and
  verifies for nothing else.
-/

namespace MortgageAgent

open Json Bytes

/-! ## `policy-digest.ts` -/

namespace PolicyDigest

/-- Sorts the entries of every object and rebuilds it. The values are canonicalized before the
sort, which only looks at the keys. -/
def canonicalize (value : Json) : Json :=
  normalize (fun entries => fromEntries (sortByKey entries)) value

/-- The string that is hashed. -/
def digestedText (value : Json) : String := stringify (canonicalize value)

def computeDigest (sha256 : String → List UInt8) (value : Json) : String :=
  String.ofList (hex (sha256 (digestedText value)))

end PolicyDigest

/-! ## `outbox-signer.ts` -/

namespace OutboxSigner

/-- The signer's own copy of the policy digest's function. -/
def canonicalize (value : Json) : Json :=
  normalize (fun entries => fromEntries (sortByKey entries)) value

/-- The string that is signed. -/
def signedText (payload : Json) : String := stringify (canonicalize payload)

section
variable (hmacSha256 : (secret text : String) → List UInt8)

def signOutboxPayload (payload : Json) (secret : String) : String :=
  String.ofList (hex (hmacSha256 secret (signedText payload)))

/-- `timingSafeEqual` throws on buffers of different lengths, so these are compared first. -/
def verifyOutboxSignature (payload : Json) (signature secret : String) : Bool :=
  let expectedBuf := ofHex (signOutboxPayload hmacSha256 payload secret).toList
  let actualBuf := ofHex signature.toList
  expectedBuf.length == actualBuf.length && expectedBuf == actualBuf

/-- A signature verifies exactly when the two texts have one authentication code. -/
theorem verify_sign (a b : Json) (secret : String) :
    verifyOutboxSignature hmacSha256 b (signOutboxPayload hmacSha256 a secret) secret = true
      ↔ hmacSha256 secret (signedText b) = hmacSha256 secret (signedText a) := by
  simp only [verifyOutboxSignature, signOutboxPayload, String.toList_ofList, ofHex_hex,
    Bool.and_eq_true, beq_iff_eq]
  constructor
  · exact fun h => h.2
  · intro h
    exact ⟨by rw [h], h⟩

end

end OutboxSigner

open PolicyDigest OutboxSigner

/-- **Canonical texts forget the order of keys and nothing else.** For all JSON values, the
fingerprinted, the digested and the signed text each agree exactly on values that are equal up to
the order of object keys at every depth. So a signature verifies for every such value, and for no
other as long as the two signed texts do not collide. -/
theorem canonical_texts (a b : JsonValue) :
    (a.val.canonical = b.val.canonical ↔ SameUpToKeyOrder a.val b.val)
      ∧ (digestedText a.val = digestedText b.val ↔ SameUpToKeyOrder a.val b.val)
      ∧ (signedText a.val = signedText b.val ↔ SameUpToKeyOrder a.val b.val)
      ∧ ∀ (hmacSha256 : (secret text : String) → List UInt8) (secret : String),
        (SameUpToKeyOrder a.val b.val →
          verifyOutboxSignature hmacSha256 b.val (signOutboxPayload hmacSha256 a.val secret) secret
            = true)
        ∧ (¬ SameUpToKeyOrder a.val b.val →
          (hmacSha256 secret (signedText b.val) = hmacSha256 secret (signedText a.val) →
            signedText b.val = signedText a.val) →
          verifyOutboxSignature hmacSha256 b.val (signOutboxPayload hmacSha256 a.val secret) secret
            = false) := by
  have hsigned : signedText a.val = signedText b.val ↔ SameUpToKeyOrder a.val b.val :=
    stringify_normalize_eq_iff fromSorted_normalizer a b
  refine ⟨?_, stringify_normalize_eq_iff fromSorted_normalizer a b, hsigned, ?_⟩
  · rw [canonical_eq_stringify, canonical_eq_stringify]
    exact stringify_normalize_eq_iff sortByKey_normalizer a b
  · intro hmacSha256 secret
    constructor
    · intro hsame
      rw [verify_sign, hsigned.mpr hsame]
    · intro hother hcollision
      rw [← Bool.not_eq_true, verify_sign]
      intro hcode
      exact hother (hsigned.mp (hcollision hcode).symm)

/-! ### A condition event -/

/-- An event payload with keys of both kinds. -/
def openedEvent (conditionId : JsDecimal) : Json :=
  .obj [("condition", .obj [("open", .bool true), ("id", .num conditionId)]),
    ("10", .null), ("caseId", .str "case-1"), ("2", .str "OPEN")]

def seven : JsDecimal := ⟨7, 0, by decide⟩

def eight : JsDecimal := ⟨8, 0, by decide⟩

-- The signer lists the array indices first, by number; the fingerprint sorts them as texts.
example : signedText (openedEvent seven)
      = "\x7b\"2\":\"OPEN\",\"10\":null,\"caseId\":\"case-1\",\"condition\":\x7b\"id\":7,\"open\":true\x7d\x7d"
    ∧ (openedEvent seven).canonical
      = "\x7b\"10\":null,\"2\":\"OPEN\",\"caseId\":\"case-1\",\"condition\":\x7b\"id\":7,\"open\":true\x7d\x7d" := by
  decide +kernel

/-- HMAC-SHA-256 under the secret `outbox-secret`, at the texts of two events. -/
def sampleHmac (_secret text : String) : List UInt8 :=
  if text = signedText (openedEvent seven) then
    [248, 10, 187, 53, 103, 219, 14, 149, 3, 219, 210, 209, 230, 81, 180, 226, 247, 84, 164, 28,
      109, 33, 203, 63, 183, 2, 39, 162, 65, 105, 145, 7]
  else if text = signedText (openedEvent eight) then
    [17, 174, 15, 61, 4, 148, 147, 118, 255, 0, 160, 91, 157, 144, 217, 233, 28, 153, 200, 140,
      238, 8, 132, 6, 140, 104, 88, 27, 140, 224, 80, 238]
  else []

/-- The signature of one event does not verify for the other. -/
theorem canonical_texts_events :
    verifyOutboxSignature sampleHmac (openedEvent eight)
      (signOutboxPayload sampleHmac (openedEvent seven) "outbox-secret") "outbox-secret" = false := by
  have htexts : signedText (openedEvent seven) ≠ signedText (openedEvent eight) := by
    decide +kernel
  obtain ⟨-, -, hsigned, hverify⟩ := canonical_texts ⟨openedEvent seven, by decide +kernel⟩
    ⟨openedEvent eight, by decide +kernel⟩
  refine (hverify sampleHmac "outbox-secret").2 (fun hsame => htexts (hsigned.mpr hsame)) ?_
  intro hcode
  have hcodes : sampleHmac "outbox-secret" (signedText (openedEvent eight))
      ≠ sampleHmac "outbox-secret" (signedText (openedEvent seven)) := by
    rw [sampleHmac, sampleHmac, if_neg htexts.symm, if_pos rfl, if_pos rfl]
    decide
  exact absurd hcode hcodes

end MortgageAgent
