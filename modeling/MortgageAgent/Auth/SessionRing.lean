import Mathlib.Data.Fintype.Pigeonhole
import Mathlib.Data.Set.Finite.List
import MortgageAgent.Auth.SessionCipher

/-!
# The key ring of the sessions

The constructor of `OidcSessionService` reads a ring of keys, of which the first encrypts. A token
text joins five parts with points and is split at the points again; the id of a key may have points
itself.

* **`SessionKeys.new`** — the ring as the constructor reads it.
* **`SessionConfig.withFirst`** — the settings after more keys are put first.
* **`RoundTrips`** — what is encrypted under a ring is decrypted under it and under any later one.
* **`roundTrips_iff`** — so it is exactly if the id of the first key has no point.
-/

namespace MortgageAgent.Auth

open Json Bytes
open Provider (Gcm entryId entryHex isKeyId isKeyHex)

/-- SHA-256 of `meridian-local-oidc-session-key`. -/
def DEV_ENCRYPTION_KEY : String :=
  "2f6346e66fd95720edd1d29bb1a8b577a4b40150a1e3f46e79f72c3045e9bc89"

/-- `OIDC_SESSION_ENCRYPTION_KEYS` and `OIDC_SESSION_ENCRYPTION_KEY`. -/
structure SessionConfig where
  keyRing : Option String
  legacyKey : Option String

/-- The ids with their keys in hexadecimal. A ring that is not set, or empty, is one key. -/
def SessionConfig.entries (config : SessionConfig) : List (List Char × List Char) :=
  match config.keyRing.filter (· ≠ "") with
  | some keyRing => (keyRing.toList.splitOn ',').map fun entry => (entryId entry, entryHex entry)
  | none => [("legacy".toList, (config.legacyKey.getD DEV_ENCRYPTION_KEY).toList)]

/-- The constructor. -/
def SessionKeys.new (config : SessionConfig) : Except String SessionKeys :=
  if config.entries.any fun e => !isKeyId e.1 || !isKeyHex e.2 then
    .error "invalid OIDC session encryption key ring"
  else .ok {
    currentEncryptionKeyId := String.ofList (config.entries.headD ([], [])).1
    encryptionKeys := config.entries.map fun e => (String.ofList e.1, ofHex e.2) }

/-- The ring as a text, also where it is not set. -/
def SessionConfig.ringText (config : SessionConfig) : String :=
  (config.keyRing.filter (· ≠ "")).getD
    ("legacy:" ++ config.legacyKey.getD DEV_ENCRYPTION_KEY)

/-- The settings with an entry, or several, put first in the ring. -/
def SessionConfig.withFirst (config : SessionConfig) (entry : String) : SessionConfig :=
  { config with keyRing := some (entry ++ "," ++ config.ringText) }

/-- What AES-256-GCM guarantees when no text is tampered with: a sealed text opens, it is as long
as the plaintext, and its tag has 16 bytes. -/
structure GcmOpens (gcm : Gcm) : Prop where
  opens : ∀ {key iv : List UInt8} (aad plaintext : List UInt8),
    key.length = 32 → iv.length = 12 →
    gcm.decipher key iv aad (gcm.encipher key iv aad plaintext).1
      (gcm.encipher key iv aad plaintext).2 = some plaintext
  ciphertext_length : ∀ key iv aad plaintext : List UInt8,
    (gcm.encipher key iv aad plaintext).1.length = plaintext.length
  tag_length : ∀ key iv aad plaintext : List UInt8,
    (gcm.encipher key iv aad plaintext).2.length = 16

/-- What is encrypted under the ring of the settings is decrypted under it, and under the ring of
any settings made of them by putting keys first, one after another. -/
def RoundTrips (gcm : Gcm) (config : SessionConfig) (keys : SessionKeys) : Prop :=
  ∀ (iv : List UInt8) (bundle : TokenBundle) (aad : String), iv.length = 12 →
    ∃ text, encrypt gcm keys iv bundle aad = some text ∧
      ∀ (newer : List String) (keys' : SessionKeys),
        SessionKeys.new (newer.foldl SessionConfig.withFirst config) = .ok keys' →
        decrypt gcm keys' text aad = some bundle

/-! ## The ring -/

variable {config : SessionConfig} {keys keys' : SessionKeys}

theorem new_eq_ok :
    SessionKeys.new config = .ok keys ↔
      (∀ e ∈ config.entries, isKeyId e.1 = true ∧ isKeyHex e.2 = true)
        ∧ keys = {
          currentEncryptionKeyId := String.ofList (config.entries.headD ([], [])).1
          encryptionKeys := config.entries.map fun e => (String.ofList e.1, ofHex e.2) } := by
  rw [SessionKeys.new]
  split
  · rename_i h
    refine iff_of_false (fun hok => by cases hok) (fun ⟨hvalid, _⟩ => ?_)
    obtain ⟨e, he, hbad⟩ := List.any_eq_true.mp h
    obtain ⟨hid, hkey⟩ := hvalid e he
    simp [hid, hkey] at hbad
  · rename_i h
    have hvalid : ∀ e ∈ config.entries, isKeyId e.1 = true ∧ isKeyHex e.2 = true := by
      intro e he
      have hgood := List.any_eq_false.mp (eq_false_of_ne_true h) e he
      simpa using hgood
    constructor
    · intro hok
      cases hok
      exact ⟨hvalid, rfl⟩
    · rintro ⟨-, rfl⟩
      rfl

theorem entries_ne_nil (config : SessionConfig) : config.entries ≠ [] := by
  rw [SessionConfig.entries]
  split
  · exact fun h => List.splitOn_ne_nil ',' _ (List.map_eq_nil_iff.mp h)
  · nofun

theorem entryId_legacy (key : String) : entryId ("legacy:" ++ key).toList = "legacy".toList := by
  simp [entryId]

theorem entryHex_legacy (key : String) : entryHex ("legacy:" ++ key).toList = key.toList := by
  simp [entryHex]

/-- Where the ring is not set, the one key has no comma. -/
def SessionConfig.Uncut (config : SessionConfig) : Prop :=
  config.keyRing.filter (· ≠ "") = none →
    ',' ∉ (config.legacyKey.getD DEV_ENCRYPTION_KEY).toList

/-- The text of a ring, read as one, has its entries. -/
theorem entries_ringText (huncut : config.Uncut) :
    (config.ringText.toList.splitOn ',').map (fun entry => (entryId entry, entryHex entry))
      = config.entries := by
  rw [SessionConfig.entries, SessionConfig.ringText]
  cases hring : config.keyRing.filter (· ≠ "") with
  | some keyRing => rfl
  | none =>
    have hcomma : ',' ∉ ("legacy:" ++ config.legacyKey.getD DEV_ENCRYPTION_KEY).toList := by
      simpa using huncut hring
    rw [Option.getD_none, List.splitOn_eq_singleton hcomma, List.map_singleton, entryId_legacy,
      entryHex_legacy]

theorem keyRing_withFirst (config : SessionConfig) (entry : String) :
    (config.withFirst entry).keyRing.filter (· ≠ "")
      = some (entry ++ "," ++ config.ringText) := by
  have hne : entry ++ "," ++ config.ringText ≠ "" := by
    intro h
    have htext := congrArg String.toList h
    simp at htext
  exact Option.filter_some_pos (decide_eq_true hne)

theorem uncut_withFirst (config : SessionConfig) (entry : String) :
    (config.withFirst entry).Uncut := by
  intro hnone
  rw [keyRing_withFirst] at hnone
  cases hnone

theorem entries_withFirst (huncut : config.Uncut) (entry : String) :
    ∃ newer, (config.withFirst entry).entries = newer ++ config.entries := by
  have hlist : (entry ++ "," ++ config.ringText).toList
      = entry.toList ++ ',' :: config.ringText.toList := by
    simp [String.toList_append]
  refine ⟨(entry.toList.splitOn ',').map fun entry => (entryId entry, entryHex entry), ?_⟩
  rw [← entries_ringText huncut, ← List.map_append, ← List.splitOn_append_cons_self, ← hlist]
  rw [SessionConfig.entries, keyRing_withFirst]

/-- Keys put first leave the entries behind them as they are. -/
theorem entries_foldl_withFirst (newer : List String) (huncut : config.Uncut) :
    ∃ more, (newer.foldl SessionConfig.withFirst config).entries = more ++ config.entries := by
  induction newer generalizing config with
  | nil => exact ⟨[], rfl⟩
  | cons entry newer ih =>
    obtain ⟨more, hmore⟩ := ih (uncut_withFirst config entry)
    obtain ⟨first, hfirst⟩ := entries_withFirst huncut entry
    exact ⟨more ++ first, by rw [List.foldl_cons, hmore, hfirst, List.append_assoc]⟩

theorem uncut_of_new (h : SessionKeys.new config = .ok keys) : config.Uncut := by
  intro hnone hcomma
  have hentries : config.entries
      = [("legacy".toList, (config.legacyKey.getD DEV_ENCRYPTION_KEY).toList)] := by
    rw [SessionConfig.entries, hnone]
  have hvalid := ((new_eq_ok.mp h).1 _ (hentries ▸ List.mem_singleton_self _)).2
  simp only [isKeyHex, Bool.and_eq_true, List.all_eq_true] at hvalid
  exact absurd (hvalid.2 ',' hcomma) (by decide)

/-- The keys of a later ring are found where the first one had them. -/
theorem key_of_newer (h : SessionKeys.new config = .ok keys) (newer : List String)
    (h' : SessionKeys.new (newer.foldl SessionConfig.withFirst config) = .ok keys') {id : String}
    {key : List UInt8} (hkey : keys.key id = some key) : keys'.key id = some key := by
  obtain ⟨more, hmore⟩ := entries_foldl_withFirst newer (uncut_of_new h)
  obtain ⟨-, rfl⟩ := new_eq_ok.mp h
  obtain ⟨-, rfl⟩ := new_eq_ok.mp h'
  rw [SessionKeys.key] at hkey ⊢
  rw [hmore, List.map_append, List.reverse_append, List.lookup_append, hkey, Option.some_or]

theorem current_mem (h : SessionKeys.new config = .ok keys) :
    ∃ key, (keys.currentEncryptionKeyId, key) ∈ keys.encryptionKeys := by
  obtain ⟨-, rfl⟩ := new_eq_ok.mp h
  obtain ⟨first, rest, hentries⟩ := List.exists_cons_of_ne_nil (entries_ne_nil config)
  refine ⟨ofHex first.2, ?_⟩
  rw [hentries]
  exact List.mem_cons_self ..

theorem key_length (h : SessionKeys.new config = .ok keys) {id : String} {key : List UInt8}
    (hmem : (id, key) ∈ keys.encryptionKeys) : key.length = 32 := by
  obtain ⟨hvalid, rfl⟩ := new_eq_ok.mp h
  obtain ⟨e, he, heq⟩ := List.mem_map.mp hmem
  have hhex := (hvalid e he).2
  simp only [isKeyHex, Bool.and_eq_true, decide_eq_true_eq, List.all_eq_true] at hhex
  have hkey : ofHex e.2 = key := congrArg Prod.snd heq
  rw [← hkey]
  exact ofHex_length hhex.1 fun c hc => Provider.keyHex_digit (hhex.2 c hc)

/-- The first key is in the ring, with 32 bytes. -/
theorem current_key (h : SessionKeys.new config = .ok keys) :
    ∃ key, keys.key keys.currentEncryptionKeyId = some key ∧ key.length = 32 := by
  obtain ⟨first, hfirst⟩ := current_mem h
  have hsome : (keys.key keys.currentEncryptionKeyId).isSome = true :=
    List.lookup_isSome_iff.mpr ⟨_, List.mem_reverse.mpr hfirst, beq_self_eq_true _⟩
  obtain ⟨key, hkey⟩ := Option.isSome_iff_exists.mp hsome
  obtain ⟨before, after, hsplit, -⟩ := List.lookup_eq_some_iff.mp hkey
  have hmem : (keys.currentEncryptionKeyId, key) ∈ keys.encryptionKeys.reverse :=
    hsplit ▸ List.mem_append_right _ (List.mem_cons_self ..)
  exact ⟨key, hkey, key_length h (List.mem_reverse.mp hmem)⟩

theorem current_id_ne_empty (h : SessionKeys.new config = .ok keys) :
    keys.currentEncryptionKeyId ≠ "" := by
  obtain ⟨hvalid, rfl⟩ := new_eq_ok.mp h
  obtain ⟨first, rest, hentries⟩ := List.exists_cons_of_ne_nil (entries_ne_nil config)
  have hid := (hvalid first (hentries ▸ List.mem_cons_self ..)).1
  simp only [isKeyId, Bool.and_eq_true, decide_eq_true_eq] at hid
  intro hempty
  have hnil := congrArg String.toList hempty
  simp only [hentries, List.headD_cons, String.toList_ofList, String.toList_empty] at hnil
  rw [hnil] at hid
  exact absurd hid.1.1 (by decide)

/-! ## The text -/

theorem point_not_mem_base64url (bytes : List UInt8) : '.' ∉ (base64url bytes).toList := by
  rw [base64url, String.toList_ofList]
  intro h
  obtain ⟨n, hn, hpoint⟩ := List.mem_map.mp h
  have hdigit : ∀ n < 64, sextetChar n ≠ '.' := by decide +kernel
  exact hdigit n (sextets_lt bytes n hn) hpoint

/-- The parts of the text that are split off: those of the id, and three more. -/
theorem splitOn_text (id : String) (iv ciphertext tag : List UInt8) :
    (".".intercalate ["v2", id, base64url iv, base64url tag, base64url ciphertext]).toList.splitOn
        '.'
      = "v2".toList :: id.toList.splitOn '.'
        ++ [(base64url iv).toList, (base64url tag).toList, (base64url ciphertext).toList] := by
  have htext : (".".intercalate
      ["v2", id, base64url iv, base64url tag, base64url ciphertext]).toList
      = "v2".toList ++ '.' :: (id.toList ++ '.' :: ((base64url iv).toList
        ++ '.' :: ((base64url tag).toList ++ '.' :: (base64url ciphertext).toList))) := by
    simp
  rw [htext, List.splitOn_append_cons_self_of_not_mem (by decide), List.splitOn_append_cons_self,
    List.splitOn_append_cons_self_of_not_mem (point_not_mem_base64url iv),
    List.splitOn_append_cons_self_of_not_mem (point_not_mem_base64url tag),
    List.splitOn_eq_singleton (point_not_mem_base64url ciphertext)]
  rfl

theorem encrypt_eq (gcm : Gcm) {key : List UInt8}
    (hkey : keys.key keys.currentEncryptionKeyId = some key) (iv : List UInt8)
    (bundle : TokenBundle) (aad : String) :
    encrypt gcm keys iv bundle aad = some (".".intercalate ["v2", keys.currentEncryptionKeyId,
      base64url iv, base64url (gcm.encipher key iv (utf8 aad) (utf8 (stringify bundle.json))).2,
      base64url (gcm.encipher key iv (utf8 aad) (utf8 (stringify bundle.json))).1]) := by
  rw [encrypt, hkey]
  rfl

theorem base64url_ne_empty {bytes : List UInt8} (h : bytes ≠ []) : base64url bytes ≠ "" := by
  intro hempty
  refine h ?_
  rw [← ofBase64url_base64url bytes, hempty]
  rfl

theorem TokenBundle.json_ownOrdered (bundle : TokenBundle) : bundle.json.ownOrdered = true := by
  have haccess : arrayIndex? "accessToken" = none := by decide +kernel
  have hrefresh : arrayIndex? "refreshToken" = none := by decide +kernel
  have hid : arrayIndex? "idToken" = none := by decide +kernel
  obtain ⟨accessToken, refreshToken, idToken⟩ := bundle
  cases refreshToken <;> cases idToken <;>
    simp [TokenBundle.json, Json.ownOrdered, allObjects, allObjectsFields, DistinctKeys, OwnBefore,
      haccess, hrefresh, hid]

theorem tokenBundle?_json (bundle : TokenBundle) : tokenBundle? bundle.json = some bundle := by
  obtain ⟨accessToken, refreshToken, idToken⟩ := bundle
  cases refreshToken <;> cases idToken <;> rfl

/-- The bundle is read from its JSON text. -/
theorem read_stringify (bundle : TokenBundle) :
    (Json.parse (utf8Text (utf8 (stringify bundle.json)))).bind tokenBundle? = some bundle := by
  have hparse : Json.parse (stringify bundle.json) = some bundle.json :=
    JsValue.parse_stringify ⟨bundle.json, bundle.json_ownOrdered⟩
  rw [utf8Text_utf8, hparse]
  exact tokenBundle?_json bundle

/-! ## The round trip -/

variable {gcm : Gcm}

theorem filter_given {text : String} (h : text ≠ "") :
    (some text).filter (fun x => decide (x ≠ "")) = some text := by
  simp [h]

/-- What `decrypt` makes of a `v2` text of five parts. -/
theorem decrypt_parts {value aad keyId iv tag ciphertext : String}
    (hparts : (value.toList.splitOn '.').map String.ofList
      = ["v2", keyId, iv, tag, ciphertext])
    (hkeyId : keyId ≠ "") (hiv : iv ≠ "") (htag : tag ≠ "") (hciphertext : ciphertext ≠ "") :
    decrypt gcm keys value aad
      = ((keys.key keyId).bind fun key => gcm.decipher key (ofBase64url iv) (utf8 aad)
          (ofBase64url ciphertext) (ofBase64url tag)).bind fun plaintext =>
            (Json.parse (utf8Text plaintext)).bind tokenBundle? := by
  have hversion : ¬ some "v2" = some "v1" := by decide
  rw [decrypt, hparts]
  simp only [part?, List.getElem?_cons_zero, List.getElem?_cons_succ, hversion, if_false,
    filter_given hkeyId, filter_given hiv, filter_given htag, filter_given hciphertext,
    Option.bind_eq_bind, Option.bind_some]
  cases keys.key keyId <;> rfl

/-- Where the id has no point, the parts are the five that were joined. -/
theorem decrypt_text (hgcm : GcmOpens gcm) {id : String} (hid : id ≠ "")
    (hpoint : '.' ∉ id.toList) {key iv : List UInt8} (hkey : keys.key id = some key)
    (hlength : key.length = 32) (hiv : iv.length = 12) (bundle : TokenBundle) (aad : String) :
    decrypt gcm keys (".".intercalate ["v2", id, base64url iv,
      base64url (gcm.encipher key iv (utf8 aad) (utf8 (stringify bundle.json))).2,
      base64url (gcm.encipher key iv (utf8 aad) (utf8 (stringify bundle.json))).1]) aad
      = some bundle := by
  have hread := read_stringify bundle
  have hopens := hgcm.opens (utf8 aad) (utf8 (stringify bundle.json)) hlength hiv
  have htag := hgcm.tag_length key iv (utf8 aad) (utf8 (stringify bundle.json))
  have hciphertext := hgcm.ciphertext_length key iv (utf8 aad) (utf8 (stringify bundle.json))
  generalize gcm.encipher key iv (utf8 aad) (utf8 (stringify bundle.json)) = sealedText at *
  have hplaintext : utf8 (stringify bundle.json) ≠ [] := by
    intro hnil
    rw [hnil] at hread
    cases hread
  have hparts : ((".".intercalate ["v2", id, base64url iv, base64url sealedText.2,
      base64url sealedText.1]).toList.splitOn '.').map String.ofList
      = ["v2", id, base64url iv, base64url sealedText.2, base64url sealedText.1] := by
    rw [splitOn_text, List.splitOn_eq_singleton hpoint]
    simp [String.ofList_toList]
  have hiv' : iv ≠ [] := List.ne_nil_of_length_pos (by omega)
  have htag' : sealedText.2 ≠ [] := List.ne_nil_of_length_pos (by omega)
  have hciphertext' : sealedText.1 ≠ [] := by
    rw [← List.length_pos_iff, hciphertext, List.length_pos_iff]
    exact hplaintext
  rw [decrypt_parts hparts hid (base64url_ne_empty hiv') (base64url_ne_empty htag')
    (base64url_ne_empty hciphertext'), hkey, ofBase64url_base64url, ofBase64url_base64url,
    ofBase64url_base64url, Option.bind_some, hopens, Option.bind_some, hread]

/-- Only the first five parts are read. -/
theorem decrypt_congr {value value' : String}
    (h : ∀ n < 5, (value.toList.splitOn '.')[n]? = (value'.toList.splitOn '.')[n]?) (aad : String) :
    decrypt gcm keys value aad = decrypt gcm keys value' aad := by
  simp only [decrypt, part?, List.getElem?_map, h 0 (by decide), h 1 (by decide), h 2 (by decide),
    h 3 (by decide), h 4 (by decide)]

/-- Where the id has a point, the ciphertext is not among the five parts that are read. -/
theorem two_le_length_splitOn {id : List Char} (hpoint : '.' ∈ id) :
    2 ≤ (id.splitOn '.').length := by
  obtain ⟨before, after, rfl⟩ := List.append_of_mem hpoint
  have hbefore := List.length_pos_iff.mpr (List.splitOn_ne_nil '.' before)
  have hafter := List.length_pos_iff.mpr (List.splitOn_ne_nil '.' after)
  rw [List.splitOn_append_cons_self, List.length_append]
  omega

theorem decrypt_text_congr {id : String} (hpoint : '.' ∈ id.toList)
    (iv tag ciphertext ciphertext' : List UInt8) (aad : String) :
    decrypt gcm keys (".".intercalate
        ["v2", id, base64url iv, base64url tag, base64url ciphertext]) aad
      = decrypt gcm keys (".".intercalate
        ["v2", id, base64url iv, base64url tag, base64url ciphertext']) aad := by
  have htwo := two_le_length_splitOn hpoint
  refine decrypt_congr (fun n hn => ?_) aad
  have hprefix (bytes : List UInt8) :
      ("v2".toList :: id.toList.splitOn '.'
          ++ [(base64url iv).toList, (base64url tag).toList, (base64url bytes).toList])[n]?
        = ("v2".toList :: id.toList.splitOn '.'
          ++ [(base64url iv).toList, (base64url tag).toList])[n]? := by
    have hsplit : "v2".toList :: id.toList.splitOn '.'
          ++ [(base64url iv).toList, (base64url tag).toList, (base64url bytes).toList]
        = ("v2".toList :: id.toList.splitOn '.'
          ++ [(base64url iv).toList, (base64url tag).toList]) ++ [(base64url bytes).toList] := by
      rw [List.append_assoc]
      rfl
    refine hsplit ▸ List.getElem?_append_left ?_
    simp only [List.length_append, List.length_cons, List.length_nil]
    omega
  rw [splitOn_text, splitOn_text, hprefix, hprefix]

instance : Infinite TokenBundle :=
  Infinite.of_injective (fun l : List Char =>
    { accessToken := String.ofList l, refreshToken := none, idToken := none })
    fun l l' h => by
      have htoken := congrArg (fun b : TokenBundle => b.accessToken.toList) h
      simpa using htoken

/-- Two bundles whose tags are the same: there are only so many tags. -/
theorem exists_same_tag (hgcm : GcmOpens gcm) (key iv aad : List UInt8) :
    ∃ b b' : TokenBundle, b ≠ b' ∧
      (gcm.encipher key iv aad (utf8 (stringify b.json))).2
        = (gcm.encipher key iv aad (utf8 (stringify b'.json))).2 := by
  have hbytes : Finite UInt8 := Finite.of_injective UInt8.toFin fun _ _ h => UInt8.toFin_inj.mp h
  have hfinite : Finite {l : List UInt8 // l.length = 16} :=
    (List.finite_length_eq UInt8 16).to_subtype
  obtain ⟨b, b', hne, htag⟩ := Finite.exists_ne_map_eq_of_infinite fun b : TokenBundle =>
    (⟨_, hgcm.tag_length key iv aad (utf8 (stringify b.json))⟩ :
      {l : List UInt8 // l.length = 16})
  exact ⟨b, b', hne, congrArg Subtype.val htag⟩

theorem roundTrips_of_no_point (hgcm : GcmOpens gcm) (h : SessionKeys.new config = .ok keys)
    (hpoint : '.' ∉ keys.currentEncryptionKeyId.toList) : RoundTrips gcm config keys := by
  obtain ⟨key, hkey, hlength⟩ := current_key h
  intro iv bundle aad hiv
  refine ⟨_, encrypt_eq gcm hkey iv bundle aad, fun newer keys' h' => ?_⟩
  exact decrypt_text hgcm (current_id_ne_empty h) hpoint (key_of_newer h newer h' hkey) hlength hiv
    bundle aad

/-- Two bundles with one tag have texts that are read alike. -/
theorem not_roundTrips_of_point (hgcm : GcmOpens gcm) (h : SessionKeys.new config = .ok keys)
    (hpoint : '.' ∈ keys.currentEncryptionKeyId.toList) : ¬ RoundTrips gcm config keys := by
  obtain ⟨key, hkey, -⟩ := current_key h
  intro hround
  obtain ⟨b, b', hne, htag⟩ := exists_same_tag hgcm key (List.replicate 12 0) (utf8 "")
  obtain ⟨text, htext, hopen⟩ := hround (List.replicate 12 0) b "" (List.length_replicate ..)
  obtain ⟨text', htext', hopen'⟩ := hround (List.replicate 12 0) b' "" (List.length_replicate ..)
  rw [encrypt_eq gcm hkey] at htext htext'
  cases htext
  cases htext'
  have hread := hopen [] keys h
  rw [htag, decrypt_text_congr hpoint, hopen' [] keys h] at hread
  exact hne (Option.some.inj hread).symm

/-- **What is encrypted is decrypted, also after keys are put first in the ring,** exactly if the
id of the key that encrypts has no point. -/
theorem roundTrips_iff (hgcm : GcmOpens gcm) (h : SessionKeys.new config = .ok keys) :
    RoundTrips gcm config keys ↔ '.' ∉ keys.currentEncryptionKeyId.toList :=
  ⟨fun hround hpoint => not_roundTrips_of_point hgcm h hpoint hround,
    roundTrips_of_no_point hgcm h⟩

/-! ## Two rings -/

/-- AES-256-GCM at one call, and elsewhere a scheme with a constant tag. -/
def gcmAt (c : Provider.GcmCall) : Gcm where
  encipher key iv aad plaintext :=
    if (key, iv, aad, plaintext) = (c.key, c.iv, c.aad, c.plaintext) then (c.ciphertext, c.tag)
    else (plaintext, List.replicate 16 0)
  decipher key iv aad ciphertext tag :=
    if (key, iv, aad, ciphertext, tag) = (c.key, c.iv, c.aad, c.ciphertext, c.tag) then
      some c.plaintext
    else if tag = List.replicate 16 0 then some ciphertext else none

theorem gcmAt_encipher (c : Provider.GcmCall) (key iv aad plaintext : List UInt8) :
    (key, iv, aad, plaintext) = (c.key, c.iv, c.aad, c.plaintext)
        ∧ (gcmAt c).encipher key iv aad plaintext = (c.ciphertext, c.tag)
      ∨ (gcmAt c).encipher key iv aad plaintext = (plaintext, List.replicate 16 0) := by
  by_cases hcall : (key, iv, aad, plaintext) = (c.key, c.iv, c.aad, c.plaintext)
  · exact Or.inl ⟨hcall, if_pos hcall⟩
  · exact Or.inr (if_neg hcall)

theorem gcmAt_opens {c : Provider.GcmCall} (hciphertext : c.ciphertext.length = c.plaintext.length)
    (htag : c.tag.length = 16) (hne : c.tag ≠ List.replicate 16 0) : GcmOpens (gcmAt c) where
  opens {key iv} aad plaintext _ _ := by
    rcases gcmAt_encipher c key iv aad plaintext with ⟨hcall, hsealed⟩ | hsealed
    · cases hcall
      rw [hsealed]
      exact if_pos rfl
    · rw [hsealed]
      have hother : ¬ (key, iv, aad, plaintext, List.replicate 16 0)
          = (c.key, c.iv, c.aad, c.ciphertext, c.tag) :=
        fun h => hne (congrArg (·.2.2.2.2) h).symm
      exact (if_neg hother).trans (if_pos rfl)
  ciphertext_length key iv aad plaintext := by
    rcases gcmAt_encipher c key iv aad plaintext with ⟨hcall, hsealed⟩ | hsealed
    · cases hcall
      rw [hsealed, hciphertext]
    · rw [hsealed]
  tag_length key iv aad plaintext := by
    rcases gcmAt_encipher c key iv aad plaintext with ⟨-, hsealed⟩ | hsealed
    · rw [hsealed, htag]
    · rw [hsealed, List.length_replicate]

/-- What AES-256-GCM computes for a bundle with the access token `at`. -/
def bundleCall : Provider.GcmCall where
  key := Provider.keyOne
  iv := List.replicate 12 9
  aad := utf8 "session-hash"
  plaintext := utf8 (stringify
    ({ accessToken := "at", refreshToken := none, idToken := none } : TokenBundle).json)
  ciphertext := [237, 53, 171, 17, 119, 175, 178, 1, 25, 185, 56, 15, 226, 18, 161, 85, 26, 199,
    163, 33]
  tag := [91, 86, 169, 242, 148, 26, 255, 42, 237, 43, 84, 245, 162, 196, 244, 110]

theorem bundleCall_opens : GcmOpens (gcmAt bundleCall) :=
  gcmAt_opens (by decide +kernel) (by decide) (by decide)

/-- A ring of one key, under an id. -/
def ringOf (id : String) : SessionConfig where
  keyRing := some (id ++ ":1111111111111111111111111111111111111111111111111111111111111111")
  legacyKey := none

def keysOf (id : String) : SessionKeys where
  currentEncryptionKeyId := id
  encryptionKeys := [(id, Provider.keyOne)]

theorem roundTrips_k1 : RoundTrips (gcmAt bundleCall) (ringOf "k1") (keysOf "k1") :=
  (roundTrips_iff bundleCall_opens (new_eq_ok.mpr ⟨by decide +kernel, by decide +kernel⟩)).mpr
    (by decide)

/-- **A key id with a point** is accepted, and its bundles are lost. -/
theorem pointed_id_lost : ¬ ∀ (config : SessionConfig) (keys : SessionKeys),
    SessionKeys.new config = .ok keys → RoundTrips (gcmAt bundleCall) config keys := by
  intro hround
  have haccepted : SessionKeys.new (ringOf "2026.08") = .ok (keysOf "2026.08") :=
    new_eq_ok.mpr ⟨by decide +kernel, by decide +kernel⟩
  exact not_roundTrips_of_point bundleCall_opens haccepted (by decide) (hround _ _ haccepted)

end MortgageAgent.Auth
