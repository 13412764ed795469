import MortgageAgent.Lib.Bytes
import MortgageAgent.Lib.JsonObject
import MortgageAgent.Provider.Intent

/-!
# The payload cipher

`SensitiveJsonCipher` seals the payload columns of an intent with AES-256-GCM under the first key
of a ring and opens them under whichever key the envelope names. A value that is no envelope is
legacy plaintext: outside staging and production it is read as it is. The administrative rotation
seals every payload of the table anew under the first key.

AES-GCM is a parameter. What is taken from it is in `Gcm.Ideal`: a sealed text opens under the
same key, iv and associated data, and under no other associated data.

* **`sensitive_payloads`** — every ring with distinct ids opens what it sealed, with the associated
  data it was sealed under and no other; a key put in front of the ring keeps every envelope
  readable; the rotation keeps every plaintext and leaves it to the first key alone.
-/

namespace MortgageAgent.Provider

open Json Bytes

/-! ## AES-256-GCM -/

/-- `createCipheriv('aes-256-gcm', …)` run to its end, and its counterpart: the ciphertext with
its tag, and the plaintext unless the authentication fails. -/
structure Gcm where
  encipher : (key iv aad plaintext : List UInt8) → List UInt8 × List UInt8
  decipher : (key iv aad ciphertext tag : List UInt8) → Option (List UInt8)

structure Gcm.Ideal (gcm : Gcm) : Prop where
  opens : ∀ {key iv : List UInt8} (aad plaintext : List UInt8),
    key.length = 32 → iv.length = 12 →
    gcm.decipher key iv aad (gcm.encipher key iv aad plaintext).1 (gcm.encipher key iv aad plaintext).2
      = some plaintext
  authenticates : ∀ {key iv aad aad' : List UInt8} (plaintext : List UInt8),
    key.length = 32 → iv.length = 12 → aad' ≠ aad →
    gcm.decipher key iv aad' (gcm.encipher key iv aad plaintext).1 (gcm.encipher key iv aad plaintext).2
      = none

/-! ## The key ring -/

/-- An `Error`, or the `SensitiveJsonDecryptionError` of a payload that does not open. -/
inductive CipherError where
  | error (message : String)
  | decryption (message : String)
  deriving DecidableEq, Repr

def CipherError.message : CipherError → String
  | .error message => message
  | .decryption message => message

/-- SHA-256 of `meridian-local-provider-payload-key`. -/
def DEV_KEY : String := "130a6ee777691fd4997fcca2d5874dd82be23c3bb940612d14827ff9bf0800d8"

/-- `entry.slice(0, entry.indexOf(':'))`. Without a colon the index is -1, and the slice ends
before the last character. -/
def entryId (entry : List Char) : List Char :=
  if ':' ∈ entry then entry.takeWhile (· ≠ ':') else entry.dropLast

/-- `entry.slice(entry.indexOf(':') + 1)`. -/
def entryHex (entry : List Char) : List Char :=
  if ':' ∈ entry then (entry.dropWhile (· ≠ ':')).drop 1 else entry

/-- `/^[a-zA-Z0-9._-]{1,64}$/`. -/
def isKeyId (id : List Char) : Bool :=
  1 ≤ id.length && id.length ≤ 64 && id.all fun c =>
    ('a' ≤ c && c ≤ 'z') || ('A' ≤ c && c ≤ 'Z') || ('0' ≤ c && c ≤ '9') || c = '.' || c = '_'
      || c = '-'

/-- `/^[0-9a-fA-F]{64}$/`. -/
def isKeyHex (hex : List Char) : Bool :=
  hex.length = 64 && hex.all fun c =>
    ('0' ≤ c && c ≤ '9') || ('a' ≤ c && c ≤ 'f') || ('A' ≤ c && c ≤ 'F')

def keyOfEntry (entry : List Char) : Except CipherError (String × List UInt8) :=
  if !isKeyId (entryId entry) || !isKeyHex (entryHex entry) then
    .error (.error "invalid PROVIDER_DATA_ENCRYPTION_KEYS entry")
  else .ok (String.ofList (entryId entry), ofHex (entryHex entry))

/-- `(keyRing ?? …).split(',')`. -/
def ringEntries (keyRing : Option String) : List (List Char) :=
  (keyRing.getD ("local-v1:" ++ DEV_KEY)).toList.splitOn ','

/-- `keys` lists the entries of the map in the order they were set. -/
structure SensitiveJsonCipher where
  currentKeyId : String
  keys : List (String × List UInt8)
  rejectLegacyPlaintext : Bool
  deriving DecidableEq, Repr

namespace SensitiveJsonCipher

/-- The constructor. -/
def new (keyRing nodeEnv : Option String) : Except CipherError SensitiveJsonCipher := do
  let entries := ringEntries keyRing
  let keys ← entries.mapM keyOfEntry
  return {
    currentKeyId := String.ofList (entryId (entries.headD []))
    keys
    rejectLegacyPlaintext :=
      nodeEnv.getD "development" = "production" || nodeEnv.getD "development" = "staging" }

/-- `this.keys.get(id)`: the last entry that was set under the id. -/
def key (cipher : SensitiveJsonCipher) (id : String) : Option (List UInt8) :=
  cipher.keys.reverse.lookup id

end SensitiveJsonCipher

/-! ## Envelopes -/

structure EncryptedJsonEnvelope where
  kid : String
  iv : String
  tag : String
  ciphertext : String
  deriving DecidableEq, Repr

def versionOne : JsDecimal := .scaled 1 0

/-- The envelope as an object. -/
def EncryptedJsonEnvelope.json (e : EncryptedJsonEnvelope) : Json :=
  .obj [("v", .num versionOne), ("alg", .str "A256GCM"), ("kid", .str e.kid), ("iv", .str e.iv),
    ("tag", .str e.tag), ("ciphertext", .str e.ciphertext)]

/-- The value as an envelope, whatever the order of its fields. -/
def envelope? : Json → Option EncryptedJsonEnvelope
  | .obj fields =>
    match get? fields "v", get? fields "alg", get? fields "kid", get? fields "iv",
      get? fields "tag", get? fields "ciphertext" with
    | some (.num v), some (.str alg), some (.str kid), some (.str iv), some (.str tag),
        some (.str ciphertext) =>
      if v = versionOne ∧ alg = "A256GCM" then some { kid, iv, tag, ciphertext } else none
    | _, _, _, _, _, _ => none
  | _ => none

def isEnvelope (value : Json) : Bool := (envelope? value).isSome

theorem envelope?_json (e : EncryptedJsonEnvelope) : envelope? e.json = some e := rfl

/-! ## `encrypt` and `decrypt` -/

section
variable (gcm : Gcm)

/-- The envelope of a value under a key of its own. -/
def sealedWith (kid : String) (key iv : List UInt8) (value : Json) (aad : String) :
    EncryptedJsonEnvelope :=
  let sealedText := gcm.encipher key iv (utf8 aad) (utf8 (stringify value))
  { kid
    iv := base64url iv
    tag := base64url sealedText.2
    ciphertext := base64url sealedText.1 }

namespace SensitiveJsonCipher

/-- `iv` is what `randomBytes(12)` drew. -/
def encrypt (cipher : SensitiveJsonCipher) (iv : List UInt8) (value : Json) (aad : String) :
    Except CipherError EncryptedJsonEnvelope :=
  match cipher.key cipher.currentKeyId with
  | none => .error (.error "current provider encryption key is unavailable")
  | some key => .ok (sealedWith gcm cipher.currentKeyId key iv value aad)

/-- The `try` block: a missing key, a failed authentication and a text that is no JSON end it
alike. -/
def opened (cipher : SensitiveJsonCipher) (e : EncryptedJsonEnvelope) (aad : String) :
    Option Json := do
  let key ← cipher.key e.kid
  let plaintext ← gcm.decipher key (ofBase64url e.iv) (utf8 aad) (ofBase64url e.ciphertext)
    (ofBase64url e.tag)
  Json.parse (utf8Text plaintext)

def authenticationFailed : CipherError :=
  .decryption "sensitive payload authentication or decryption failed"

def decrypt (cipher : SensitiveJsonCipher) (value : Json) (aad : String) :
    Except CipherError Json :=
  match envelope? value with
  | none =>
    if cipher.rejectLegacyPlaintext then
      .error (.decryption "legacy plaintext sensitive payload is forbidden in staging/production")
    else .ok value
  | some e =>
    match cipher.opened gcm e aad with
    | none => .error authenticationFailed
    | some plaintext => .ok plaintext

/-- The services read the payload columns with this cipher. -/
def deps (cipher : SensitiveJsonCipher) (base : Deps) : Deps :=
  { base with
    decrypt := fun value aad =>
      (cipher.decrypt gcm value aad).mapError fun e => .decryption e.message }

/-! ## The rotation -/

/-- The plaintext of a payload column: what `decrypt` returns for an envelope, and the value itself
otherwise, in every environment. It is sealed anew under the current key. -/
def rotateValue (cipher : SensitiveJsonCipher) (iv : List UInt8) (aad : String) (stored : Json) :
    Except CipherError Json := do
  let plaintext ← if isEnvelope stored then cipher.decrypt gcm stored aad else pure stored
  let envelope ← cipher.encrypt gcm iv plaintext aad
  return envelope.json

/-- The columns to set, with the `k`-th row's two draws. -/
def rotateRow (cipher : SensitiveJsonCipher) (randomBytes : Nat → List UInt8) (k : Nat)
    (row : ProviderOperationIntent) : Except CipherError PayloadValues := do
  let providerReceipt ← row.providerReceipt.mapM
    (cipher.rotateValue gcm (randomBytes (2 * k)) (receiptAad row.tenantId row.id))
  let normalizedFinding ← row.normalizedFinding.mapM
    (cipher.rotateValue gcm (randomBytes (2 * k + 1)) (findingAad row.tenantId row.id))
  return { providerReceipt, normalizedFinding }

end SensitiveJsonCipher

end

/-- The columns a payload update sets; the others stay. -/
def ProviderOperationIntent.withPayloads (i : ProviderOperationIntent) (values : PayloadValues)
    (now : Instant) : ProviderOperationIntent :=
  { i with
    providerReceipt := values.providerReceipt <|> i.providerReceipt
    normalizedFinding := values.normalizedFinding <|> i.normalizedFinding
    updatedAt := now }

/-- `repo.update({ id }, values)`. -/
def updatePayloads (intents : Table ProviderOperationIntent ProviderOperationIntent.id) (id : Uuid)
    (values : PayloadValues) (now : Instant) : Table ProviderOperationIntent ProviderOperationIntent.id :=
  match intents.find id with
  | none => intents
  | some row => intents.put (row.withPayloads values now)

structure RotationCount where
  scanned : Nat
  rewritten : Nat
  deriving DecidableEq, Repr

namespace SensitiveJsonCipher

section
variable (gcm : Gcm) (cipher : SensitiveJsonCipher) (randomBytes : Nat → List UInt8) (now : Instant)

/-- The loop over the rows that were read; `k` counts the rows that are done. -/
def rotateRows : List ProviderOperationIntent → (k : Nat) →
    Table ProviderOperationIntent ProviderOperationIntent.id → (rewritten : Nat) →
    Except CipherError (Table ProviderOperationIntent ProviderOperationIntent.id × Nat)
  | [], _, intents, rewritten => .ok (intents, rewritten)
  | row :: rows, k, intents, rewritten => do
    let values ← cipher.rotateRow gcm randomBytes k row
    if values.providerReceipt.isSome || values.normalizedFinding.isSome then
      rotateRows rows (k + 1) (updatePayloads intents row.id values now) (rewritten + 1)
    else rotateRows rows (k + 1) intents rewritten

/-- One transaction: a payload that does not open leaves the table as it was. -/
def rotateSensitivePayloadEncryption (db : Db) : Except CipherError (Db × RotationCount) := do
  let (intents, rewritten) ←
    cipher.rotateRows gcm randomBytes now db.intents.rows 0 db.intents 0
  return ({ db with intents }, { scanned := db.intents.rows.length, rewritten })

end

end SensitiveJsonCipher

/-! ## Accepted rings -/

/-- The key an entry stands for. -/
def entryKey (entry : List Char) : String × List UInt8 :=
  (String.ofList (entryId entry), ofHex (entryHex entry))

theorem keyOfEntry_eq_ok {entry : List Char} {k : String × List UInt8} :
    keyOfEntry entry = .ok k
      ↔ (isKeyId (entryId entry) = true ∧ isKeyHex (entryHex entry) = true) ∧ k = entryKey entry := by
  unfold keyOfEntry entryKey
  split
  · rename_i h
    simp only [Bool.or_eq_true, Bool.not_eq_true'] at h
    constructor
    · intro hk
      cases hk
    · rintro ⟨⟨hid, hhex⟩, -⟩
      rw [hid, hhex] at h
      cases h <;> contradiction
  · rename_i h
    simp only [Bool.or_eq_true, Bool.not_eq_true', not_or, Bool.not_eq_false] at h
    constructor
    · intro hk
      cases hk
      exact ⟨h, rfl⟩
    · rintro ⟨-, rfl⟩
      rfl

theorem mapM_keyOfEntry {entries : List (List Char)} {keys : List (String × List UInt8)} :
    entries.mapM keyOfEntry = .ok keys
      ↔ (∀ e ∈ entries, isKeyId (entryId e) = true ∧ isKeyHex (entryHex e) = true)
        ∧ keys = entries.map entryKey := by
  induction entries generalizing keys with
  | nil =>
    rw [List.mapM_nil]
    constructor
    · intro h
      cases h
      exact ⟨nofun, rfl⟩
    · rintro ⟨-, rfl⟩
      rfl
  | cons e es ih =>
    rw [List.mapM_cons]
    cases hkey : keyOfEntry e with
    | error err =>
      constructor
      · intro h
        cases h
      · rintro ⟨haccepted, -⟩
        rw [keyOfEntry_eq_ok.mpr ⟨haccepted e (by simp), rfl⟩] at hkey
        cases hkey
    | ok k =>
      obtain ⟨haccepted, rfl⟩ := keyOfEntry_eq_ok.mp hkey
      cases hrest : es.mapM keyOfEntry with
      | error err =>
        constructor
        · intro h
          cases h
        · rintro ⟨hall, -⟩
          rw [ih.mpr ⟨fun x hx => hall x (by simp [hx]), rfl⟩] at hrest
          cases hrest
      | ok ks =>
        obtain ⟨hall, rfl⟩ := ih.mp hrest
        constructor
        · intro h
          cases h
          refine ⟨?_, rfl⟩
          rw [List.forall_mem_cons]
          exact ⟨haccepted, hall⟩
        · rintro ⟨-, rfl⟩
          rfl

/-- The entries of an accepted ring, one by one. -/
def AcceptedRing (keyRing : Option String) : Prop :=
  ∀ e ∈ ringEntries keyRing, isKeyId (entryId e) = true ∧ isKeyHex (entryHex e) = true

/-- The ids of a ring. -/
def ringIds (keyRing : Option String) : List (List Char) := (ringEntries keyRing).map entryId

/-- What the constructor builds from an accepted ring. -/
def ringCipher (keyRing nodeEnv : Option String) : SensitiveJsonCipher where
  currentKeyId := String.ofList (entryId ((ringEntries keyRing).headD []))
  keys := (ringEntries keyRing).map entryKey
  rejectLegacyPlaintext :=
    nodeEnv.getD "development" = "production" || nodeEnv.getD "development" = "staging"

theorem new_eq_ok {keyRing nodeEnv : Option String} {cipher : SensitiveJsonCipher} :
    SensitiveJsonCipher.new keyRing nodeEnv = .ok cipher
      ↔ AcceptedRing keyRing ∧ cipher = ringCipher keyRing nodeEnv := by
  simp only [SensitiveJsonCipher.new]
  cases hkeys : (ringEntries keyRing).mapM keyOfEntry with
  | error err =>
    constructor
    · intro h
      cases h
    · rintro ⟨haccepted, -⟩
      rw [mapM_keyOfEntry.mpr ⟨haccepted, rfl⟩] at hkeys
      cases hkeys
  | ok keys =>
    obtain ⟨haccepted, rfl⟩ := mapM_keyOfEntry.mp hkeys
    constructor
    · intro h
      cases h
      exact ⟨haccepted, rfl⟩
    · rintro ⟨-, rfl⟩
      rfl

theorem keyHex_digit {c : Char} (h : (('0' ≤ c && c ≤ '9') || ('a' ≤ c && c ≤ 'f')
    || ('A' ≤ c && c ≤ 'F')) = true) : (hexDigitValue? c).isSome = true := by
  simp only [Bool.or_eq_true, Bool.and_eq_true, decide_eq_true_eq] at h
  unfold hexDigitValue?
  split
  · rfl
  · split
    · rfl
    · split
      · rfl
      · tauto

/-- An accepted entry holds 32 bytes. -/
theorem entryKey_length {entry : List Char} (h : isKeyHex (entryHex entry) = true) :
    (entryKey entry).2.length = 32 := by
  simp only [isKeyHex, Bool.and_eq_true, decide_eq_true_eq, List.all_eq_true] at h
  obtain ⟨hlength, hdigits⟩ := h
  exact ofHex_length hlength fun c hc => keyHex_digit (hdigits c hc)

/-- An accepted entry has no comma: neither its id nor its digits have one. -/
theorem comma_not_mem {entry : List Char} (hid : isKeyId (entryId entry) = true)
    (hhex : isKeyHex (entryHex entry) = true) : ',' ∉ entry := by
  have hno_id : ',' ∉ entryId entry := by
    intro hc
    simp only [isKeyId, Bool.and_eq_true, List.all_eq_true] at hid
    exact absurd (hid.2 ',' hc) (by decide)
  have hno_hex : ',' ∉ entryHex entry := by
    intro hc
    simp only [isKeyHex, Bool.and_eq_true, List.all_eq_true] at hhex
    exact absurd (hhex.2 ',' hc) (by decide)
  unfold entryId at hno_id
  unfold entryHex at hno_hex
  split at hno_hex
  · rename_i hcolon
    rw [if_pos hcolon] at hno_id
    rw [← List.takeWhile_append_dropWhile (p := (· ≠ ':')) (l := entry), List.mem_append, not_or]
    refine ⟨hno_id, ?_⟩
    intro hc
    -- the rest starts with the colon
    cases hrest : entry.dropWhile (· ≠ ':') with
    | nil =>
      rw [hrest] at hc
      cases hc
    | cons c rest =>
      have hhead : c = ':' := by
        have := List.head?_dropWhile_not (fun x => decide (x ≠ ':')) entry
        rw [hrest] at this
        simpa using this
      rw [hrest, hhead] at hc
      rw [hrest] at hno_hex
      simp only [List.mem_cons] at hc
      rcases hc with hc | hc
      · exact absurd hc (by decide)
      · exact hno_hex hc
  · exact hno_hex

/-- A key in front of a ring is one more entry. -/
theorem ringEntries_cons {entry : List Char} (keyRing : Option String) (h : ',' ∉ entry) :
    ringEntries (some (String.ofList entry ++ "," ++ keyRing.getD ("local-v1:" ++ DEV_KEY)))
      = entry :: ringEntries keyRing := by
  have htext : (String.ofList entry ++ "," ++ keyRing.getD ("local-v1:" ++ DEV_KEY)).toList
      = entry ++ ',' :: (keyRing.getD ("local-v1:" ++ DEV_KEY)).toList := by
    simp [String.toList_append]
  rw [ringEntries, Option.getD_some, htext, List.splitOn_append_cons_self_of_not_mem h]
  rfl

/-- The entry that encrypts. -/
def firstEntry (keyRing : Option String) : List Char := (ringEntries keyRing).headD []

theorem ringEntries_eq_cons (keyRing : Option String) :
    ∃ rest, ringEntries keyRing = firstEntry keyRing :: rest := by
  obtain ⟨entry, rest, h⟩ := List.exists_cons_of_ne_nil
    (List.splitOn_ne_nil ',' (keyRing.getD ("local-v1:" ++ DEV_KEY)).toList)
  refine ⟨rest, ?_⟩
  have hentries : ringEntries keyRing = entry :: rest := h
  rw [firstEntry, hentries, List.headD_cons]

/-- The ring of the first entry alone. -/
theorem ringEntries_first {keyRing : Option String} (h : AcceptedRing keyRing) :
    ringEntries (some (String.ofList (firstEntry keyRing))) = [firstEntry keyRing] := by
  obtain ⟨rest, hentries⟩ := ringEntries_eq_cons keyRing
  have hfirst := h (firstEntry keyRing) (by rw [hentries]; exact List.mem_cons_self)
  rw [ringEntries, Option.getD_some, String.toList_ofList,
    List.splitOn_eq_singleton (comma_not_mem hfirst.1 hfirst.2)]

/-! ## Keys by id -/

/-- What the constructor makes of an accepted ring with distinct ids. -/
structure WellKeyed (cipher : SensitiveJsonCipher) : Prop where
  distinct : (cipher.keys.map Prod.fst).Nodup
  length : ∀ id key, (id, key) ∈ cipher.keys → key.length = 32
  current : ∃ key rest, cipher.keys = (cipher.currentKeyId, key) :: rest

theorem ringCipher_wellKeyed {keyRing : Option String} (haccepted : AcceptedRing keyRing)
    (hids : (ringIds keyRing).Nodup) (nodeEnv : Option String) :
    WellKeyed (ringCipher keyRing nodeEnv) where
  distinct := by
    have hkeys : (ringCipher keyRing nodeEnv).keys.map Prod.fst
        = (ringIds keyRing).map String.ofList := by
      simp only [ringCipher, ringIds, List.map_map]
      rfl
    rw [hkeys]
    exact hids.map fun _ _ h => String.ofList_injective h
  length := by
    intro id key hkey
    obtain ⟨entry, hentry, heq⟩ := List.mem_map.mp hkey
    have hlength := entryKey_length (haccepted entry hentry).2
    rw [heq] at hlength
    exact hlength
  current := by
    obtain ⟨rest, hentries⟩ := ringEntries_eq_cons keyRing
    refine ⟨ofHex (entryHex (firstEntry keyRing)), rest.map entryKey, ?_⟩
    simp only [ringCipher, hentries, List.map_cons, List.headD_cons, entryKey]

/-- The ring of the first entry alone has the first key. -/
theorem ringCipher_first_keys {keyRing : Option String} (haccepted : AcceptedRing keyRing)
    (nodeEnv nodeEnv' : Option String) :
    (ringCipher (some (String.ofList (firstEntry keyRing))) nodeEnv').keys
      = (ringCipher keyRing nodeEnv).keys.take 1 := by
  obtain ⟨rest, hentries⟩ := ringEntries_eq_cons keyRing
  simp only [ringCipher, ringEntries_first haccepted, hentries, List.map_cons, List.map_nil,
    List.take_succ_cons, List.take_zero]

/-- The map holds exactly the entries. -/
theorem WellKeyed.key_eq {cipher : SensitiveJsonCipher} (hring : WellKeyed cipher)
    {id : String} {key : List UInt8} (h : (id, key) ∈ cipher.keys) : cipher.key id = some key := by
  obtain ⟨before, after, hsplit⟩ := List.append_of_mem (List.mem_reverse.mpr h)
  rw [SensitiveJsonCipher.key, List.lookup_eq_some_iff]
  refine ⟨before, after, hsplit, ?_⟩
  intro p hp
  have hnodup : (cipher.keys.reverse.map Prod.fst).Nodup := by
    rw [List.map_reverse, List.nodup_reverse]
    exact hring.distinct
  rw [hsplit, List.map_append, List.map_cons, List.nodup_append] at hnodup
  have hne := hnodup.2.2 p.1 (List.mem_map_of_mem hp) id (by simp)
  exact bne_iff_ne.mpr hne.symm

/-! ## Opening what was sealed -/

/-- The stored value is an envelope of `v` under one of the keys. The fields may stand in any
order, as `jsonb` returns them. -/
def SealedUnder (gcm : Gcm) (keys : List (String × List UInt8)) (aad : String) (stored : Json)
    (v : JsValue) : Prop :=
  ∃ kid key iv, (kid, key) ∈ keys ∧ iv.length = 12
    ∧ envelope? stored = some (sealedWith gcm kid key iv v.val aad)

/-- A payload column holds `v`: as legacy plaintext that is not shaped like an envelope, or
sealed. -/
inductive Holds (gcm : Gcm) (keys : List (String × List UInt8)) (aad : String) :
    Json → JsValue → Prop
  | legacy (v : JsValue) : isEnvelope v.val = false → Holds gcm keys aad v.val v
  | sealed {stored : Json} {v : JsValue} :
      SealedUnder gcm keys aad stored v → Holds gcm keys aad stored v

theorem SealedUnder.mono {gcm : Gcm} {keys keys' : List (String × List UInt8)} {aad : String}
    {stored : Json} {v : JsValue} (hsub : keys ⊆ keys') (h : SealedUnder gcm keys aad stored v) :
    SealedUnder gcm keys' aad stored v := by
  obtain ⟨kid, key, iv, hkey, hiv, hstored⟩ := h
  exact ⟨kid, key, iv, hsub hkey, hiv, hstored⟩

section
variable {gcm : Gcm} {cipher : SensitiveJsonCipher}

theorem WellKeyed.decrypt_sealed (hgcm : gcm.Ideal) (hring : WellKeyed cipher) {aad : String}
    {stored : Json} {v : JsValue} (h : SealedUnder gcm cipher.keys aad stored v) :
    cipher.decrypt gcm stored aad = .ok v.val := by
  obtain ⟨kid, key, iv, hkey, hiv, hstored⟩ := h
  have hopened : cipher.opened gcm (sealedWith gcm kid key iv v.val aad) aad = some v.val := by
    simp only [SensitiveJsonCipher.opened, sealedWith, hring.key_eq hkey, ofBase64url_base64url,
      hgcm.opens _ _ (hring.length kid key hkey) hiv, Option.bind_eq_bind, Option.bind_some,
      utf8Text_utf8, v.parse_stringify]
  simp only [SensitiveJsonCipher.decrypt, hstored, hopened]

theorem WellKeyed.decrypt_other_aad (hgcm : gcm.Ideal) (hring : WellKeyed cipher)
    {aad aad' : String} (hne : aad' ≠ aad) {stored : Json} {v : JsValue}
    (h : SealedUnder gcm cipher.keys aad stored v) :
    cipher.decrypt gcm stored aad' = .error SensitiveJsonCipher.authenticationFailed := by
  obtain ⟨kid, key, iv, hkey, hiv, hstored⟩ := h
  have hbytes : utf8 aad' ≠ utf8 aad := fun heq => hne (utf8_injective heq)
  have hopened : cipher.opened gcm (sealedWith gcm kid key iv v.val aad) aad' = none := by
    simp only [SensitiveJsonCipher.opened, sealedWith, hring.key_eq hkey, ofBase64url_base64url,
      hgcm.authenticates _ (hring.length kid key hkey) hiv hbytes, Option.bind_eq_bind,
      Option.bind_some, Option.bind_none]
  simp only [SensitiveJsonCipher.decrypt, hstored, hopened]

variable (gcm) in
/-- `encrypt` seals under the first key. -/
theorem WellKeyed.encrypt_seals (hring : WellKeyed cipher) {iv : List UInt8}
    (hiv : iv.length = 12) (v : JsValue) (aad : String) :
    ∃ e, cipher.encrypt gcm iv v.val aad = .ok e
      ∧ SealedUnder gcm (cipher.keys.take 1) aad e.json v := by
  obtain ⟨key, rest, hkeys⟩ := hring.current
  have hmem : (cipher.currentKeyId, key) ∈ cipher.keys := by
    rw [hkeys]
    exact List.mem_cons_self
  refine ⟨sealedWith gcm cipher.currentKeyId key iv v.val aad, ?_, ?_⟩
  · simp only [SensitiveJsonCipher.encrypt, hring.key_eq hmem]
  · refine ⟨cipher.currentKeyId, key, iv, ?_, hiv, envelope?_json _⟩
    rw [hkeys]
    exact List.mem_cons_self

/-! ## Rotating what is held -/

theorem WellKeyed.rotateValue_seals (hgcm : gcm.Ideal) (hring : WellKeyed cipher)
    {iv : List UInt8} (hiv : iv.length = 12) {aad : String} {stored : Json} {v : JsValue}
    (h : Holds gcm cipher.keys aad stored v) :
    ∃ stored', cipher.rotateValue gcm iv aad stored = .ok stored'
      ∧ SealedUnder gcm (cipher.keys.take 1) aad stored' v := by
  obtain ⟨e, hencrypt, hsealed⟩ := hring.encrypt_seals gcm hiv v aad
  refine ⟨e.json, ?_, hsealed⟩
  cases h with
  | legacy _ hplain =>
    simp only [SensitiveJsonCipher.rotateValue, hplain, Bool.false_eq_true, if_false]
    exact congrArg (Except.map EncryptedJsonEnvelope.json) hencrypt
  | sealed h =>
    have hshape : isEnvelope stored = true := by
      obtain ⟨kid, key, iv', -, -, hstored⟩ := h
      simp only [isEnvelope, hstored, Option.isSome_some]
    simp only [SensitiveJsonCipher.rotateValue, hshape, if_true, hring.decrypt_sealed hgcm h]
    exact congrArg (Except.map EncryptedJsonEnvelope.json) hencrypt

/-- The same for a column that may be null. -/
theorem WellKeyed.rotateColumn_seals (hgcm : gcm.Ideal) (hring : WellKeyed cipher)
    {iv : List UInt8} (hiv : iv.length = 12) {aad : String} {column : Option Json}
    {v : Option JsValue} (h : Option.Rel (Holds gcm cipher.keys aad) column v) :
    ∃ column', column.mapM (cipher.rotateValue gcm iv aad) = .ok column'
      ∧ Option.Rel (SealedUnder gcm (cipher.keys.take 1) aad) column' v := by
  cases h with
  | none => exact ⟨none, rfl, .none⟩
  | some h =>
    obtain ⟨stored', hrotate, hsealed⟩ := hring.rotateValue_seals hgcm hiv h
    refine ⟨some stored', ?_, .some hsealed⟩
    rw [Option.mapM_some, hrotate]
    rfl

/-- What the payload columns of a row hold, under the associated data of each. -/
structure Payloads (R : String → Json → JsValue → Prop) (row : ProviderOperationIntent)
    (receipt finding : Option JsValue) : Prop where
  receipt : Option.Rel (R (receiptAad row.tenantId row.id)) row.providerReceipt receipt
  finding : Option.Rel (R (findingAad row.tenantId row.id)) row.normalizedFinding finding

/-- Every other column is the same. -/
def SameButPayloads (row row' : ProviderOperationIntent) : Prop :=
  row' = { row with
    providerReceipt := row'.providerReceipt
    normalizedFinding := row'.normalizedFinding
    updatedAt := row'.updatedAt }

/-- A row before and after the rotation: the plaintexts it held are sealed under the first key. -/
structure Rotated (gcm : Gcm) (keys : List (String × List UInt8))
    (receipt finding : Uuid → Option JsValue) (row row' : ProviderOperationIntent) : Prop where
  same : SameButPayloads row row'
  payloads : Payloads (SealedUnder gcm (keys.take 1)) row' (receipt row.id) (finding row.id)

section
variable {R R' : Json → JsValue → Prop} {column column' : Option Json} {v : Option JsValue}

/-- Two columns that hold one value are null together. -/
theorem orElse_of_rel (h : Option.Rel R column v) (h' : Option.Rel R' column' v) :
    (column' <|> column) = column' := by
  cases h' with
  | none => cases h; rfl
  | some => rfl

theorem rel_of_isSome_eq_false (h : Option.Rel R column v) (h' : Option.Rel R' column' v)
    (hnone : column'.isSome = false) : Option.Rel R' column v := by
  cases h' with
  | none => cases h; exact .none
  | some => cases hnone

end

theorem WellKeyed.rotateRow_seals (hgcm : gcm.Ideal) (hring : WellKeyed cipher)
    {randomBytes : Nat → List UInt8} (hdraws : ∀ k, (randomBytes k).length = 12) (k : Nat)
    (now : Instant) {row : ProviderOperationIntent} {r f : Option JsValue}
    (h : Payloads (Holds gcm cipher.keys) row r f) :
    ∃ values, cipher.rotateRow gcm randomBytes k row = .ok values
      ∧ Payloads (SealedUnder gcm (cipher.keys.take 1)) (row.withPayloads values now) r f
      ∧ ((values.providerReceipt.isSome || values.normalizedFinding.isSome) = false →
        Payloads (SealedUnder gcm (cipher.keys.take 1)) row r f) := by
  obtain ⟨receipt', hreceipt, hreceiptSealed⟩ :=
    hring.rotateColumn_seals hgcm (hdraws (2 * k)) h.receipt
  obtain ⟨finding', hfinding, hfindingSealed⟩ :=
    hring.rotateColumn_seals hgcm (hdraws (2 * k + 1)) h.finding
  refine ⟨{ providerReceipt := receipt', normalizedFinding := finding' }, ?_, ?_, ?_⟩
  · simp only [SensitiveJsonCipher.rotateRow, hreceipt, hfinding]
    rfl
  · constructor
    · show Option.Rel _ (receipt' <|> row.providerReceipt) r
      rw [orElse_of_rel h.receipt hreceiptSealed]
      exact hreceiptSealed
    · show Option.Rel _ (finding' <|> row.normalizedFinding) f
      rw [orElse_of_rel h.finding hfindingSealed]
      exact hfindingSealed
  · intro hnone
    obtain ⟨hnoReceipt, hnoFinding⟩ := Bool.or_eq_false_iff.mp hnone
    exact ⟨rel_of_isSome_eq_false h.receipt hreceiptSealed hnoReceipt,
      rel_of_isSome_eq_false h.finding hfindingSealed hnoFinding⟩

/-- The loop: the rows that are done stay as they are, and each of the others is rotated in its
place. -/
theorem WellKeyed.rotateRows_rotated (hgcm : gcm.Ideal) (hring : WellKeyed cipher)
    {randomBytes : Nat → List UInt8} (hdraws : ∀ k, (randomBytes k).length = 12) (now : Instant)
    {receipt finding : Uuid → Option JsValue} (todo done : List ProviderOperationIntent)
    (htodo : ∀ row ∈ todo,
      Payloads (Holds gcm cipher.keys) row (receipt row.id) (finding row.id))
    (k : Nat) (intents : Table ProviderOperationIntent ProviderOperationIntent.id)
    (hrows : intents.rows = done ++ todo) (rewritten : Nat) :
    ∃ intents' rewritten' todo',
      cipher.rotateRows gcm randomBytes now todo k intents rewritten = .ok (intents', rewritten')
        ∧ intents'.rows = done ++ todo'
        ∧ List.Forall₂ (Rotated gcm cipher.keys receipt finding) todo todo' := by
  induction todo generalizing done k intents rewritten with
  | nil => exact ⟨intents, rewritten, [], rfl, hrows, .nil⟩
  | cons row rest ih =>
    obtain ⟨values, hvalues, hsealed, hstays⟩ :=
      hring.rotateRow_seals hgcm hdraws k now (htodo row List.mem_cons_self)
    have hrest : ∀ x ∈ rest,
        Payloads (Holds gcm cipher.keys) x (receipt x.id) (finding x.id) :=
      fun x hx => htodo x (List.mem_cons_of_mem row hx)
    have hfind : intents.find row.id = some row := by
      rw [intents.find_eq_some_iff, hrows]
      exact ⟨by simp, rfl⟩
    rw [SensitiveJsonCipher.rotateRows, hvalues]
    cases hany : (values.providerReceipt.isSome || values.normalizedFinding.isSome) with
    | true =>
      have hput : (updatePayloads intents row.id values now).rows
          = (done ++ [row.withPayloads values now]) ++ rest := by
        rw [updatePayloads, hfind, List.append_assoc]
        exact intents.rows_put hrows rfl
      obtain ⟨intents', rewritten', rest', hloop, hrows', hrotated⟩ :=
        ih (done ++ [row.withPayloads values now]) hrest (k + 1) _ hput (rewritten + 1)
      refine ⟨intents', rewritten', row.withPayloads values now :: rest', ?_, ?_, ?_⟩
      · show (if (values.providerReceipt.isSome || values.normalizedFinding.isSome) = true
          then _ else _) = _
        rw [hany, if_pos rfl, hloop]
      · rw [hrows', List.append_assoc]
        rfl
      · exact .cons ⟨rfl, hsealed⟩ hrotated
    | false =>
      obtain ⟨intents', rewritten', rest', hloop, hrows', hrotated⟩ :=
        ih (done ++ [row]) hrest (k + 1) intents (by simp [hrows]) rewritten
      refine ⟨intents', rewritten', row :: rest', ?_, ?_, ?_⟩
      · show (if (values.providerReceipt.isSome || values.normalizedFinding.isSome) = true
          then _ else _) = _
        rw [hany, if_neg (by decide), hloop]
      · rw [hrows', List.append_assoc]
        rfl
      · exact .cons ⟨rfl, hstays hany⟩ hrotated

end

/-! ## Reading the rows -/

section
variable {gcm : Gcm} {cipher : SensitiveJsonCipher}

/-- The services, deployed with the ring, read the payloads of the row as these. -/
def Reads (gcm : Gcm) (base : Deps) (keyRing nodeEnv : Option String)
    (row : ProviderOperationIntent) (receipt finding : Option JsValue) : Prop :=
  ∃ reader, SensitiveJsonCipher.new keyRing nodeEnv = .ok reader
    ∧ toIntentValue (reader.deps gcm base) row = .ok { row with
        providerReceipt := receipt.map (·.val)
        normalizedFinding := finding.map (·.val) }

theorem mapM_decrypt {deps : Deps} {R : Json → JsValue → Prop} {aad : String}
    (hopen : ∀ stored v, R stored v → deps.decrypt stored aad = .ok v.val)
    {column : Option Json} {v : Option JsValue} (h : Option.Rel R column v) :
    (column.mapM fun stored => deps.decrypt stored aad) = .ok (v.map (·.val)) := by
  cases h with
  | none => rfl
  | some h =>
    rw [Option.mapM_some, hopen _ _ h]
    rfl

/-- A row whose columns open one by one is read as a whole. -/
theorem toIntentValue_of_payloads {deps : Deps} {R : String → Json → JsValue → Prop}
    (hopen : ∀ aad stored v, R aad stored v → deps.decrypt stored aad = .ok v.val)
    {row : ProviderOperationIntent} {r f : Option JsValue} (h : Payloads R row r f) :
    toIntentValue deps row = .ok { row with
      providerReceipt := r.map (·.val)
      normalizedFinding := f.map (·.val) } := by
  rw [toIntentValue, mapM_decrypt (hopen _) h.receipt, mapM_decrypt (hopen _) h.finding]
  rfl

theorem WellKeyed.deps_decrypt (hgcm : gcm.Ideal) (hring : WellKeyed cipher) (base : Deps)
    {aad : String} {stored : Json} {v : JsValue} (h : SealedUnder gcm cipher.keys aad stored v) :
    (cipher.deps gcm base).decrypt stored aad = .ok v.val := by
  show (cipher.decrypt gcm stored aad).mapError _ = _
  rw [hring.decrypt_sealed hgcm h]
  rfl

theorem WellKeyed.deps_decrypt_held (hgcm : gcm.Ideal) (hring : WellKeyed cipher)
    (hlegacy : cipher.rejectLegacyPlaintext = false) (base : Deps)
    {aad : String} {stored : Json} {v : JsValue} (h : Holds gcm cipher.keys aad stored v) :
    (cipher.deps gcm base).decrypt stored aad = .ok v.val := by
  cases h with
  | legacy _ hplain =>
    have hnone : envelope? v.val = none := by
      rwa [isEnvelope, Option.isSome_eq_false_iff, Option.isNone_iff_eq_none] at hplain
    show (cipher.decrypt gcm v.val aad).mapError _ = _
    rw [SensitiveJsonCipher.decrypt, hnone, hlegacy]
    rfl
  | sealed h => exact hring.deps_decrypt hgcm base h

/-- A sealed row is read by every ring that has the keys. -/
theorem reads_of_sealed (hgcm : gcm.Ideal) {keyRing : Option String}
    (haccepted : AcceptedRing keyRing) (hids : (ringIds keyRing).Nodup) (base : Deps)
    (nodeEnv : Option String) {keys : List (String × List UInt8)}
    (hkeys : keys ⊆ (ringCipher keyRing nodeEnv).keys) {row : ProviderOperationIntent}
    {r f : Option JsValue} (h : Payloads (SealedUnder gcm keys) row r f) :
    Reads gcm base keyRing nodeEnv row r f := by
  refine ⟨ringCipher keyRing nodeEnv, new_eq_ok.mpr ⟨haccepted, rfl⟩, ?_⟩
  apply toIntentValue_of_payloads _ h
  intro aad stored v hsealed
  exact (ringCipher_wellKeyed haccepted hids nodeEnv).deps_decrypt hgcm base (hsealed.mono hkeys)

/-- Where legacy plaintext is accepted, a row is read whatever it holds. -/
theorem reads_of_held (hgcm : gcm.Ideal) {keyRing : Option String}
    (haccepted : AcceptedRing keyRing) (hids : (ringIds keyRing).Nodup) (base : Deps)
    {nodeEnv nodeEnv' : Option String} (hproduction : nodeEnv' ≠ some "production")
    (hstaging : nodeEnv' ≠ some "staging") {row : ProviderOperationIntent}
    {r f : Option JsValue}
    (h : Payloads (Holds gcm (ringCipher keyRing nodeEnv).keys) row r f) :
    Reads gcm base keyRing nodeEnv' row r f := by
  have hlegacy : (ringCipher keyRing nodeEnv').rejectLegacyPlaintext = false := by
    cases nodeEnv' with
    | none =>
      show (decide ("development" = "production") || decide ("development" = "staging")) = false
      decide
    | some env =>
      have henv : env ≠ "production" ∧ env ≠ "staging" :=
        ⟨fun h => hproduction (congrArg some h), fun h => hstaging (congrArg some h)⟩
      simp [ringCipher, henv]
  refine ⟨ringCipher keyRing nodeEnv', new_eq_ok.mpr ⟨haccepted, rfl⟩, ?_⟩
  apply toIntentValue_of_payloads _ h
  intro aad stored v hheld
  exact (ringCipher_wellKeyed haccepted hids nodeEnv').deps_decrypt_held hgcm hlegacy base hheld

theorem acceptedRing_first {keyRing : Option String} (haccepted : AcceptedRing keyRing) :
    AcceptedRing (some (String.ofList (firstEntry keyRing)))
      ∧ (ringIds (some (String.ofList (firstEntry keyRing)))).Nodup := by
  obtain ⟨rest, hentries⟩ := ringEntries_eq_cons keyRing
  rw [AcceptedRing, ringIds, ringEntries_first haccepted, List.map_singleton]
  refine ⟨?_, List.nodup_singleton _⟩
  intro e he
  rw [List.mem_singleton.mp he]
  exact haccepted (firstEntry keyRing) (by rw [hentries]; exact List.mem_cons_self)

theorem acceptedRing_cons {keyRing : Option String} (haccepted : AcceptedRing keyRing)
    (hids : (ringIds keyRing).Nodup) {entry : List Char}
    (hentry : isKeyId (entryId entry) = true ∧ isKeyHex (entryHex entry) = true)
    (hnew : entryId entry ∉ ringIds keyRing) {grown : Option String}
    (hgrown : ringEntries grown = entry :: ringEntries keyRing) :
    AcceptedRing grown ∧ (ringIds grown).Nodup := by
  constructor
  · rw [AcceptedRing, hgrown, List.forall_mem_cons]
    exact ⟨hentry, haccepted⟩
  · rw [ringIds, hgrown, List.map_cons, List.nodup_cons]
    exact ⟨hnew, hids⟩

end

/-- **Payloads outlive their keys.** Over an ideal AES-GCM and a ring with distinct ids that the
constructor accepts: a value is read back with the associated data it was sealed under, and with
no other; a key with a new id in front of the ring keeps every envelope readable; and the rotation
of a table that holds legacy plaintext or envelopes of the ring succeeds, changes nothing but the
payload columns, and leaves every payload to be read as before, in every environment and by the
first key alone. -/
theorem sensitive_payloads (gcm : Gcm) (hgcm : gcm.Ideal) (keyRing nodeEnv : Option String)
    (cipher : SensitiveJsonCipher)
    (haccepted : SensitiveJsonCipher.new keyRing nodeEnv = .ok cipher)
    (hdistinct : (ringIds keyRing).Nodup) :
    (∀ (v : JsValue) (aad : String) (iv : List UInt8), iv.length = 12 →
        ∃ e, cipher.encrypt gcm iv v.val aad = .ok e
          ∧ cipher.decrypt gcm e.json aad = .ok v.val
          ∧ ∀ aad' ≠ aad,
            cipher.decrypt gcm e.json aad' = .error SensitiveJsonCipher.authenticationFailed)
      ∧ (∀ (entry : List Char) (added : String × List UInt8) (nodeEnv' : Option String),
        keyOfEntry entry = .ok added → entryId entry ∉ ringIds keyRing →
        ∃ grown, SensitiveJsonCipher.new
            (some (String.ofList entry ++ "," ++ keyRing.getD ("local-v1:" ++ DEV_KEY))) nodeEnv'
            = .ok grown
          ∧ ∀ (aad : String) (stored : Json) (v : JsValue),
            SealedUnder gcm cipher.keys aad stored v → grown.decrypt gcm stored aad = .ok v.val)
      ∧ ∀ (randomBytes : Nat → List UInt8) (now : Instant) (db : Db)
          (receipt finding : Uuid → Option JsValue) (base : Deps),
        (∀ k, (randomBytes k).length = 12) →
        (∀ row ∈ db.intents.rows,
          Payloads (Holds gcm cipher.keys) row (receipt row.id) (finding row.id)) →
        (∀ row ∈ db.intents.rows, ∀ nodeEnv' : Option String,
          nodeEnv' ≠ some "production" → nodeEnv' ≠ some "staging" →
          Reads gcm base keyRing nodeEnv' row (receipt row.id) (finding row.id))
        ∧ ∃ intents count,
          cipher.rotateSensitivePayloadEncryption gcm randomBytes now db
              = .ok ({ db with intents }, count)
            ∧ List.Forall₂ (fun row row' => SameButPayloads row row'
                ∧ ∀ nodeEnv' : Option String,
                  Reads gcm base keyRing nodeEnv' row' (receipt row.id) (finding row.id)
                  ∧ Reads gcm base (some (String.ofList (firstEntry keyRing))) nodeEnv' row'
                      (receipt row.id) (finding row.id))
              db.intents.rows intents.rows := by
  obtain ⟨hring, rfl⟩ := new_eq_ok.mp haccepted
  have hkeyed := ringCipher_wellKeyed hring hdistinct nodeEnv
  refine ⟨?_, ?_, ?_⟩
  · intro v aad iv hiv
    obtain ⟨e, hencrypt, hfirst⟩ := hkeyed.encrypt_seals gcm hiv v aad
    have hsealed := hfirst.mono (List.take_subset 1 _)
    exact ⟨e, hencrypt, hkeyed.decrypt_sealed hgcm hsealed,
      fun aad' hne => hkeyed.decrypt_other_aad hgcm hne hsealed⟩
  · intro entry added nodeEnv' hadded hnew
    obtain ⟨hentry, -⟩ := keyOfEntry_eq_ok.mp hadded
    have hentries := ringEntries_cons keyRing (comma_not_mem hentry.1 hentry.2)
    obtain ⟨hgrown, hids⟩ := acceptedRing_cons hring hdistinct hentry hnew hentries
    refine ⟨_, new_eq_ok.mpr ⟨hgrown, rfl⟩, ?_⟩
    intro aad stored v hsealed
    apply (ringCipher_wellKeyed hgrown hids nodeEnv').decrypt_sealed hgcm
    apply hsealed.mono
    simp only [ringCipher, hentries, List.map_cons]
    exact List.subset_cons_self _ _
  · intro randomBytes now db receipt finding base hdraws hheld
    refine ⟨fun row hrow nodeEnv' hproduction hstaging =>
      reads_of_held hgcm hring hdistinct base hproduction hstaging (hheld row hrow), ?_⟩
    obtain ⟨intents, rewritten, rows, hloop, hrows, hrotated⟩ :=
      hkeyed.rotateRows_rotated hgcm hdraws now db.intents.rows [] hheld 0 db.intents rfl 0
    refine ⟨intents, { scanned := db.intents.rows.length, rewritten }, ?_, ?_⟩
    · rw [SensitiveJsonCipher.rotateSensitivePayloadEncryption, hloop]
      rfl
    · rw [hrows, List.nil_append]
      obtain ⟨hfirst, hfirstIds⟩ := acceptedRing_first hring
      refine hrotated.imp fun row row' h => ⟨h.same, fun nodeEnv' => ⟨?_, ?_⟩⟩
      · exact reads_of_sealed hgcm hring hdistinct base nodeEnv' (List.take_subset 1 _) h.payloads
      · apply reads_of_sealed hgcm hfirst hfirstIds base nodeEnv' _ h.payloads
        rw [ringCipher_first_keys hring nodeEnv nodeEnv']
        exact List.Subset.refl _

/-! ### A rotation -/

/-- One call of AES-256-GCM. -/
structure GcmCall where
  key : List UInt8
  iv : List UInt8
  aad : List UInt8
  plaintext : List UInt8
  ciphertext : List UInt8
  tag : List UInt8
  deriving DecidableEq

/-- AES-256-GCM at the calls of the list, and elsewhere a scheme with longer tags. -/
def gcmOf (calls : List GcmCall) : Gcm where
  encipher key iv aad plaintext :=
    match calls.find? fun c => (c.key, c.iv, c.aad, c.plaintext) = (key, iv, aad, plaintext) with
    | some c => (c.ciphertext, c.tag)
    | none => (plaintext, List.replicate 17 0 ++ aad)
  decipher key iv aad ciphertext tag :=
    match calls.find? fun c =>
      (c.key, c.iv, c.aad, c.ciphertext, c.tag) = (key, iv, aad, ciphertext, tag) with
    | some c => some c.plaintext
    | none => if tag = List.replicate 17 0 ++ aad then some ciphertext else none

/-- No two calls of the list have one ciphertext and tag under one key and iv. -/
def CallsApart (calls : List GcmCall) : Prop :=
  ∀ c ∈ calls, c.tag.length = 16 ∧ ∀ d ∈ calls,
    (c.key, c.iv, c.ciphertext, c.tag) = (d.key, d.iv, d.ciphertext, d.tag) → c = d

instance (calls : List GcmCall) : Decidable (CallsApart calls) :=
  inferInstanceAs (Decidable (∀ c ∈ calls, _))

/-- A call of the list opens under its own associated data. -/
theorem gcmOf_decipher_call {calls : List GcmCall} (hapart : CallsApart calls) {c : GcmCall}
    (hc : c ∈ calls) (aad : List UInt8) :
    (gcmOf calls).decipher c.key c.iv aad c.ciphertext c.tag
      = if aad = c.aad then some c.plaintext else none := by
  have htag : c.tag ≠ List.replicate 17 0 ++ aad := by
    intro h
    have hlength := (hapart c hc).1
    rw [h, List.length_append, List.length_replicate] at hlength
    omega
  simp only [gcmOf]
  split
  · rename_i d hd
    have hsame := List.find?_some hd
    simp only [Prod.mk.injEq, decide_eq_true_eq] at hsame
    obtain ⟨hkey, hiv, haad, hciphertext, hd'⟩ := hsame
    have hcd : c = d := (hapart c hc).2 d (List.mem_of_find?_eq_some hd)
      (by rw [hkey, hiv, hciphertext, hd'])
    rw [if_pos (by rw [hcd, haad]), hcd]
  · rename_i hnone
    have hother : aad ≠ c.aad := by
      intro h
      have := List.find?_eq_none.mp hnone c hc
      simp [h] at this
    rw [if_neg htag, if_neg hother]

theorem gcmOf_decipher_long {calls : List GcmCall} (hapart : CallsApart calls)
    (key iv aad aad' plaintext : List UInt8) :
    (gcmOf calls).decipher key iv aad' plaintext (List.replicate 17 0 ++ aad)
      = if aad = aad' then some plaintext else none := by
  have hnone : (calls.find? fun c => (c.key, c.iv, c.aad, c.ciphertext, c.tag)
      = (key, iv, aad', plaintext, List.replicate 17 0 ++ aad)) = none := by
    rw [List.find?_eq_none]
    intro c hc h
    simp only [Prod.mk.injEq, decide_eq_true_eq] at h
    have hlength := (hapart c hc).1
    rw [h.2.2.2.2, List.length_append, List.length_replicate] at hlength
    omega
  simp only [gcmOf, hnone, List.append_cancel_left_eq]

theorem gcmOf_ideal {calls : List GcmCall} (hapart : CallsApart calls) : (gcmOf calls).Ideal := by
  have hopen (key iv aad aad' plaintext : List UInt8) :
      (gcmOf calls).decipher key iv aad' ((gcmOf calls).encipher key iv aad plaintext).1
          ((gcmOf calls).encipher key iv aad plaintext).2
        = if aad' = aad then some plaintext else none := by
    cases hcall : calls.find? fun c =>
        (c.key, c.iv, c.aad, c.plaintext) = (key, iv, aad, plaintext) with
    | some c =>
      have hsame := List.find?_some hcall
      simp only [Prod.mk.injEq, decide_eq_true_eq] at hsame
      obtain ⟨rfl, rfl, rfl, rfl⟩ := hsame
      have hsealed : (gcmOf calls).encipher c.key c.iv c.aad c.plaintext
          = (c.ciphertext, c.tag) := by
        simp only [gcmOf, hcall]
      rw [hsealed]
      exact gcmOf_decipher_call hapart (List.mem_of_find?_eq_some hcall) aad'
    | none =>
      have hsealed : (gcmOf calls).encipher key iv aad plaintext
          = (plaintext, List.replicate 17 0 ++ aad) := by
        simp only [gcmOf, hcall]
      rw [hsealed, gcmOf_decipher_long hapart]
      simp only [eq_comm]
  constructor
  · intro key iv aad plaintext _ _
    rw [hopen, if_pos rfl]
  · intro key iv aad aad' plaintext _ _ hne
    rw [hopen, if_neg hne]

def keyOne : List UInt8 := List.replicate 32 0x11

def keyTwo : List UInt8 := List.replicate 32 0x22

/-- A ring that has grown once: `k1` is the older key. -/
def grownRing : Option String :=
  some ("k2:" ++ String.ofList (List.replicate 64 '2') ++ ",k1:"
    ++ String.ofList (List.replicate 64 '1'))

def receiptPayload : JsValue := ⟨.obj [("income", .num (.scaled 5 3))], by decide +kernel⟩

def findingPayload : JsValue := ⟨.obj [("verified", .bool true)], by decide +kernel⟩

/-- What AES-256-GCM computes for the finding under `k1`, and for both payloads under `k2`. -/
def sampleCalls : List GcmCall :=
  [{ key := keyOne
     iv := List.replicate 12 9
     aad := utf8 (findingAad 1 7)
     plaintext := utf8 (stringify findingPayload.val)
     ciphertext := [237, 53, 188, 23, 102, 163, 167, 27, 40, 178, 113, 80, 248, 66, 238, 18, 6]
     tag := [180, 61, 192, 127, 90, 213, 156, 244, 47, 226, 91, 187, 148, 56, 1, 193] },
   { key := keyTwo
     iv := List.replicate 12 0
     aad := utf8 (receiptAad 1 7)
     plaintext := utf8 (stringify receiptPayload.val)
     ciphertext := [179, 210, 189, 122, 204, 6, 242, 110, 130, 79, 96, 166, 114, 238, 173]
     tag := [165, 222, 41, 20, 186, 130, 179, 167, 133, 202, 202, 115, 190, 94, 32, 17] },
   { key := keyTwo
     iv := List.replicate 12 1
     aad := utf8 (findingAad 1 7)
     plaintext := utf8 (stringify findingPayload.val)
     ciphertext := [163, 30, 173, 230, 61, 222, 135, 241, 178, 205, 143, 187, 105, 187, 59, 89, 226]
     tag := [231, 209, 134, 131, 113, 17, 128, 47, 253, 31, 249, 122, 167, 131, 15, 145] }]

/-- An intent with a legacy receipt and a finding that the older key sealed. -/
def mixedIntent : ProviderOperationIntent where
  id := 7
  tenantId := 1
  caseId := 3
  providerId := "synthetic-income"
  capability := .INCOME
  effectClass := .READ_ONLY
  requestFingerprint := "fingerprint"
  idempotencyKey := 9
  logicalOperationKey := "income-1"
  authorizationGrantId := 4
  providerReceipt := some receiptPayload.val
  normalizedFinding := some
    (sealedWith (gcmOf sampleCalls) "k1" keyOne (List.replicate 12 9) findingPayload.val
      (findingAad 1 7)).json
  state := .SUCCEEDED
  updatedAt := 0

def mixedDb : Db where
  intents := ⟨[mixedIntent], by simp⟩
  grants := .empty
  consents := .empty
  decisions := .empty
  adapterStatus := .empty
  activations := .empty
  holds := .empty
  evidence := .empty
  tasks := .empty

def cipherDeps : Deps where
  registry _ _ := none
  sha256 text := text
  encrypt _ v _ := v
  decrypt v _ := .ok v
  receiptJson r := r.payload

/-- The row is rotated, and `k2` alone reads it in production. -/
theorem sensitive_payloads_mixed :
    ∃ cipher intents count row, SensitiveJsonCipher.new grownRing none = .ok cipher
      ∧ cipher.rotateSensitivePayloadEncryption (gcmOf sampleCalls)
          (fun k => List.replicate 12 (UInt8.ofNat k)) 5 mixedDb
        = .ok ({ mixedDb with intents }, count)
      ∧ intents.rows = [row]
      ∧ Reads (gcmOf sampleCalls) cipherDeps (some ("k2:" ++ String.ofList (List.replicate 64 '2')))
          (some "production") row (some receiptPayload) (some findingPayload) := by
  have hnew : SensitiveJsonCipher.new grownRing none
      = .ok { currentKeyId := "k2", keys := [("k2", keyTwo), ("k1", keyOne)],
              rejectLegacyPlaintext := false } := by
    decide +kernel
  have hgcm : (gcmOf sampleCalls).Ideal := gcmOf_ideal (by decide +kernel)
  obtain ⟨-, -, hrotation⟩ :=
    sensitive_payloads (gcmOf sampleCalls) hgcm grownRing none _ hnew (by decide +kernel)
  obtain ⟨-, intents, count, hrotate, hrows⟩ :=
    hrotation (fun k => List.replicate 12 (UInt8.ofNat k)) 5 mixedDb (fun _ => some receiptPayload)
      (fun _ => some findingPayload) cipherDeps (fun k => by simp) (by
        intro row hrow
        rw [List.mem_singleton.mp hrow]
        constructor
        · exact .some (.legacy receiptPayload (by decide +kernel))
        · exact .some (.sealed ⟨"k1", keyOne, List.replicate 12 9, by decide +kernel,
            by decide, envelope?_json _⟩))
  have hone : mixedDb.intents.rows = [mixedIntent] := rfl
  rw [hone, List.forall₂_cons_left_iff] at hrows
  obtain ⟨row, rest, hrow, hrest, hintents⟩ := hrows
  rw [List.forall₂_nil_left_iff] at hrest
  rw [hrest] at hintents
  have hfirst : String.ofList (firstEntry grownRing)
      = "k2:" ++ String.ofList (List.replicate 64 '2') := by
    decide +kernel
  have hreads := (hrow.2 (some "production")).2
  rw [hfirst] at hreads
  exact ⟨_, intents, count, row, hnew, hrotate, hintents, hreads⟩

end MortgageAgent.Provider
