import MortgageAgent.Provider.Cipher

/-!
# The token bundle of a session

The provider's tokens are stored as one AES-256-GCM text of five parts, with the hash of the
session token as associated data. `v1` texts have four parts and no key id: they open under the
key `legacy`.

* **`encrypt`** / **`decrypt`** — between a bundle and its text, under the keys of a ring.
-/

namespace MortgageAgent.Auth

open Json Bytes
open Provider (Gcm)

structure TokenBundle where
  accessToken : String
  refreshToken : Option String
  idToken : Option String
  deriving DecidableEq, Repr

/-- The bundle as `JSON.stringify` sees it: what is undefined is left out. -/
def TokenBundle.json (bundle : TokenBundle) : Json :=
  .obj ([("accessToken", .str bundle.accessToken)]
    ++ (bundle.refreshToken.map fun token => ("refreshToken", Json.str token)).toList
    ++ (bundle.idToken.map fun token => ("idToken", Json.str token)).toList)

def stringField? (fields : List (String × Json)) (key : String) : Option String :=
  match get? fields key with
  | some (.str s) => some s
  | _ => none

/-- A value with a string `accessToken`. -/
def tokenBundle? : Json → Option TokenBundle
  | .obj fields =>
    (stringField? fields "accessToken").map fun accessToken =>
      { accessToken
        refreshToken := stringField? fields "refreshToken"
        idToken := stringField? fields "idToken" }
  | _ => none

/-- The ring of a process; `encryptionKeys` lists the entries of the map in the order they were
set. -/
structure SessionKeys where
  currentEncryptionKeyId : String
  encryptionKeys : List (String × List UInt8)
  deriving DecidableEq, Repr

/-- `this.encryptionKeys.get(id)`. -/
def SessionKeys.key (keys : SessionKeys) (id : String) : Option (List UInt8) :=
  keys.encryptionKeys.reverse.lookup id

/-- `iv` is what `randomBytes(12)` drew; `none` is the `Error` of a missing key. -/
def encrypt (gcm : Gcm) (keys : SessionKeys) (iv : List UInt8) (bundle : TokenBundle)
    (aad : String) : Option String :=
  (keys.key keys.currentEncryptionKeyId).map fun key =>
    let sealedText := gcm.encipher key iv (utf8 aad) (utf8 (stringify bundle.json))
    ".".intercalate ["v2", keys.currentEncryptionKeyId, base64url iv, base64url sealedText.2,
      base64url sealedText.1]

/-- The part of the text, unless it is missing or empty. -/
def part? (parts : List String) (n : Nat) : Option String := parts[n]?.filter (· ≠ "")

/-- `none` is the `UnauthorizedException` that the `catch` throws. -/
def decrypt (gcm : Gcm) (keys : SessionKeys) (value aad : String) : Option TokenBundle := do
  let parts := (value.toList.splitOn '.').map String.ofList
  let v1 := parts[0]? = some "v1"
  let effectiveKeyId ← if v1 then some "legacy" else part? parts 1
  let effectiveIv ← if v1 then part? parts 1 else part? parts 2
  let effectiveTag ← if v1 then part? parts 2 else part? parts 3
  let effectiveCiphertext ← if v1 then part? parts 3 else part? parts 4
  let key ← keys.key effectiveKeyId
  let plaintext ← gcm.decipher key (ofBase64url effectiveIv) (utf8 aad)
    (ofBase64url effectiveCiphertext) (ofBase64url effectiveTag)
  tokenBundle? (← Json.parse (utf8Text plaintext))

end MortgageAgent.Auth
