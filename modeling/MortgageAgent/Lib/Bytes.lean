import MortgageAgent.Lib.JsonParse

/-!
# Bytes as text

The encodings between bytes and text that Node's `Buffer` offers: UTF-8, hexadecimal and
unpadded base64url. Each writer is followed by its reader and by the theorem that the reader
undoes it; the readers take any text, as `Buffer.from` does, and stop or skip where it does.
-/

namespace Bytes

/-! ## UTF-8 -/

/-- `Buffer.from(s)`. -/
def utf8 (s : String) : List UInt8 := s.toUTF8.data.toList

/-- The text of well-formed UTF-8. -/
def utf8Text? (bytes : List UInt8) : Option String := String.fromUTF8? ⟨bytes.toArray⟩

theorem utf8Text?_utf8 (s : String) : utf8Text? (utf8 s) = some s := by
  have hbytes : (⟨(utf8 s).toArray⟩ : ByteArray) = s.toByteArray := rfl
  have hvalid : s.toByteArray.IsValidUTF8 := s.isValidUTF8
  rw [utf8Text?, hbytes, String.fromUTF8?, dif_pos hvalid]
  rfl

/-- A sequence that is being read: how many bytes are missing, the code point so far, and the
range the next byte must be in. -/
structure Utf8State where
  needed : Nat := 0
  codePoint : Nat := 0
  lower : UInt8 := 0x80
  upper : UInt8 := 0xBF

/-- The byte that starts a sequence: a character of its own, or the state after it. -/
def utf8Start (b : UInt8) : List Char × Utf8State :=
  if b ≤ 0x7F then ([Char.ofNat b.toNat], {})
  else if 0xC2 ≤ b ∧ b ≤ 0xDF then ([], { needed := 1, codePoint := b.toNat - 0xC0 })
  else if 0xE0 ≤ b ∧ b ≤ 0xEF then
    ([], { needed := 2
           codePoint := b.toNat - 0xE0
           lower := if b = 0xE0 then 0xA0 else 0x80
           upper := if b = 0xED then 0x9F else 0xBF })
  else if 0xF0 ≤ b ∧ b ≤ 0xF4 then
    ([], { needed := 3
           codePoint := b.toNat - 0xF0
           lower := if b = 0xF0 then 0x90 else 0x80
           upper := if b = 0xF4 then 0x8F else 0xBF })
  else (['\uFFFD'], {})

/-- Reads bytes one by one; a byte that breaks a sequence gives U+FFFD and starts anew. -/
def utf8Lossy (s : Utf8State) : List UInt8 → List Char
  | [] => if s.needed = 0 then [] else ['\uFFFD']
  | b :: bs =>
    if s.needed ≠ 0 ∧ s.lower ≤ b ∧ b ≤ s.upper then
      let codePoint := s.codePoint * 64 + (b.toNat - 0x80)
      if s.needed = 1 then Char.ofNat codePoint :: utf8Lossy {} bs
      else utf8Lossy { needed := s.needed - 1, codePoint } bs
    else
      (if s.needed = 0 then [] else ['\uFFFD']) ++ (utf8Start b).1 ++ utf8Lossy (utf8Start b).2 bs

/-- `buffer.toString('utf8')`: what is no UTF-8 is replaced. -/
def utf8Text (bytes : List UInt8) : String :=
  (utf8Text? bytes).getD (String.ofList (utf8Lossy {} bytes))

-- A truncated sequence, and a byte that starts none.
example : utf8Text [0x61, 0xE2, 0x82, 0x62, 0xFF] = "a\uFFFDb\uFFFD" := by decide +kernel

theorem utf8Text_utf8 (s : String) : utf8Text (utf8 s) = s := by
  rw [utf8Text, utf8Text?_utf8, Option.getD_some]

theorem utf8_injective : Function.Injective utf8 := by
  intro s t h
  have htext : utf8Text? (utf8 s) = utf8Text? (utf8 t) := by rw [h]
  rw [utf8Text?_utf8, utf8Text?_utf8] at htext
  exact Option.some.inj htext

/-! ## Hexadecimal -/

/-- `buffer.toString('hex')`. -/
def hex (bytes : List UInt8) : List Char :=
  bytes.flatMap fun b => [Json.hexDigit (b.toNat / 16), Json.hexDigit (b.toNat % 16)]

/-- `Buffer.from(text, 'hex')`: pairs of digits, up to the first that is none. -/
def ofHex : List Char → List UInt8
  | a :: b :: rest =>
    match Json.hexDigitValue? a, Json.hexDigitValue? b with
    | some x, some y => UInt8.ofNat (16 * x + y) :: ofHex rest
    | _, _ => []
  | _ => []

/-- A pair of digits is a byte. -/
theorem ofHex_length {n : Nat} {text : List Char} (hlength : text.length = 2 * n)
    (hdigits : ∀ c ∈ text, (Json.hexDigitValue? c).isSome) : (ofHex text).length = n := by
  induction n generalizing text with
  | zero =>
    rw [List.eq_nil_of_length_eq_zero hlength]
    rfl
  | succ n ih =>
    match text, hlength, hdigits with
    | a :: b :: rest, hlength, hdigits =>
      obtain ⟨x, hx⟩ := Option.isSome_iff_exists.mp (hdigits a (by simp))
      obtain ⟨y, hy⟩ := Option.isSome_iff_exists.mp (hdigits b (by simp))
      have hrest : (ofHex rest).length = n := by
        apply ih
        · simp only [List.length_cons] at hlength
          omega
        · intro c hc
          exact hdigits c (by simp [hc])
      simp only [ofHex, hx, hy, List.length_cons, hrest]

theorem ofHex_hex (bytes : List UInt8) : ofHex (hex bytes) = bytes := by
  induction bytes with
  | nil => rfl
  | cons b bs ih =>
    have hb : b.toNat < 256 := b.toNat_lt
    have hvalue : 16 * (b.toNat / 16) + b.toNat % 16 = b.toNat := by omega
    show ofHex (Json.hexDigit (b.toNat / 16) :: Json.hexDigit (b.toNat % 16) :: hex bs) = b :: bs
    rw [ofHex, Json.hexDigitValue?_hexDigit _ (by omega), Json.hexDigitValue?_hexDigit _ (by omega)]
    simp only [hvalue, UInt8.ofNat_toNat, ih]

/-! ## base64url -/

/-- The digit of a sextet. -/
def sextetChar (n : Nat) : Char :=
  "ABCDEFGHIJKLMNOPQRSTUVWXYZabcdefghijklmnopqrstuvwxyz0123456789-_".toList.getD n 'A'

/-- The sextet of a digit, in either of the two alphabets. -/
def sextet? (c : Char) : Option Nat :=
  if 'A' ≤ c ∧ c ≤ 'Z' then some (c.toNat - 65)
  else if 'a' ≤ c ∧ c ≤ 'z' then some (c.toNat - 71)
  else if '0' ≤ c ∧ c ≤ '9' then some (c.toNat + 4)
  else if c = '-' ∨ c = '+' then some 62
  else if c = '_' ∨ c = '/' then some 63
  else none

theorem sextet?_sextetChar : ∀ n < 64, sextet? (sextetChar n) = some n := by decide +kernel

/-- The sextets of three bytes are four, of two bytes three, of one byte two. -/
def sextets : List UInt8 → List Nat
  | [] => []
  | [a] => [a.toNat / 4, a.toNat % 4 * 16]
  | [a, b] => [a.toNat / 4, a.toNat % 4 * 16 + b.toNat / 16, b.toNat % 16 * 4]
  | a :: b :: c :: rest =>
    a.toNat / 4 :: (a.toNat % 4 * 16 + b.toNat / 16) :: (b.toNat % 16 * 4 + c.toNat / 64)
      :: c.toNat % 64 :: sextets rest

/-- The bytes that sextets hold; bits left over at the end are dropped. -/
def ofSextets : List Nat → List UInt8
  | w :: x :: y :: z :: rest =>
    UInt8.ofNat (w * 4 + x / 16) :: UInt8.ofNat (x % 16 * 16 + y / 4)
      :: UInt8.ofNat (y % 4 * 64 + z) :: ofSextets rest
  | [w, x, y] => [UInt8.ofNat (w * 4 + x / 16), UInt8.ofNat (x % 16 * 16 + y / 4)]
  | [w, x] => [UInt8.ofNat (w * 4 + x / 16)]
  | _ => []

/-- `buffer.toString('base64url')`. -/
def base64url (bytes : List UInt8) : String := String.ofList ((sextets bytes).map sextetChar)

/-- `Buffer.from(text, 'base64url')`: up to the padding, what is no digit is skipped. -/
def ofBase64url (text : String) : List UInt8 :=
  ofSextets ((text.toList.takeWhile (· ≠ '=')).filterMap sextet?)

theorem sextets_lt (bytes : List UInt8) : ∀ n ∈ sextets bytes, n < 64 := by
  fun_induction sextets bytes with
  | case1 => simp
  | case2 a =>
    have ha := a.toNat_lt
    simp only [List.mem_cons, List.not_mem_nil, or_false]
    rintro n (rfl | rfl) <;> omega
  | case3 a b =>
    have ha := a.toNat_lt
    have hb := b.toNat_lt
    simp only [List.mem_cons, List.not_mem_nil, or_false]
    rintro n (rfl | rfl | rfl) <;> omega
  | case4 a b c rest ih =>
    have ha := a.toNat_lt
    have hb := b.toNat_lt
    have hc := c.toNat_lt
    simp only [List.mem_cons]
    rintro n (rfl | rfl | rfl | rfl | hn)
    · omega
    · omega
    · omega
    · omega
    · exact ih n hn

theorem ofSextets_sextets (bytes : List UInt8) : ofSextets (sextets bytes) = bytes := by
  have hbyte {b : UInt8} {n : Nat} (h : n = b.toNat) : UInt8.ofNat n = b := by
    rw [h, UInt8.ofNat_toNat]
  fun_induction sextets bytes with
  | case1 => rfl
  | case2 a =>
    rw [ofSextets, hbyte (b := a) (by omega)]
  | case3 a b =>
    have hb := b.toNat_lt
    rw [ofSextets, hbyte (b := a) (by omega), hbyte (b := b) (by omega)]
  | case4 a b c rest ih =>
    have hb := b.toNat_lt
    have hc := c.toNat_lt
    rw [ofSextets, ih, hbyte (b := a) (by omega), hbyte (b := b) (by omega),
      hbyte (b := c) (by omega)]

/-- Digits of either alphabet are read up to the padding. -/
theorem ofBase64url_digits {digit : Nat → Char} (hdigit : ∀ n < 64, sextet? (digit n) = some n)
    (bytes : List UInt8) (padding : Nat) :
    ofBase64url (String.ofList ((sextets bytes).map digit ++ List.replicate padding '=')) = bytes := by
  have hlt := sextets_lt bytes
  have hdigits : ∀ c ∈ (sextets bytes).map digit, decide (c ≠ '=') = true := by
    intro c hc
    obtain ⟨n, hn, rfl⟩ := List.mem_map.mp hc
    refine decide_eq_true (fun hpad => ?_)
    have hnone := hdigit n (hlt n hn)
    rw [hpad] at hnone
    cases hnone
  have hpadding : (List.replicate padding '=').takeWhile (· ≠ '=') = [] := by
    cases padding with
    | zero => rfl
    | succ k => rfl
  have hread : ((sextets bytes).map digit).filterMap sextet? = sextets bytes := by
    rw [List.filterMap_map]
    refine (List.filterMap_congr fun n hn => ?_).trans List.filterMap_some
    exact hdigit n (hlt n hn)
  rw [ofBase64url, String.toList_ofList, List.takeWhile_append_of_pos hdigits, hpadding,
    List.append_nil, hread, ofSextets_sextets]

theorem ofBase64url_base64url (bytes : List UInt8) : ofBase64url (base64url bytes) = bytes := by
  have hread := ofBase64url_digits sextet?_sextetChar bytes 0
  rwa [List.replicate_zero, List.append_nil] at hread

/-! ## base64 -/

/-- The digit of a sextet in the alphabet of RFC 4648. -/
def base64Char (n : Nat) : Char :=
  "ABCDEFGHIJKLMNOPQRSTUVWXYZabcdefghijklmnopqrstuvwxyz0123456789+/".toList.getD n 'A'

/-- `buffer.toString('base64')`, padded to a multiple of four digits. -/
def base64 (bytes : List UInt8) : String :=
  String.ofList ((sextets bytes).map base64Char
    ++ List.replicate ((3 - bytes.length % 3) % 3) '=')

/-- `Buffer.from(text, 'base64')`, which reads both alphabets. -/
def ofBase64 (text : String) : List UInt8 := ofBase64url text

example : base64 [0x6D, 0xFF, 0xFE, 0x7C] = "bf/+fA==" := by decide

theorem sextet?_base64Char : ∀ n < 64, sextet? (base64Char n) = some n := by decide +kernel

theorem ofBase64_base64 (bytes : List UInt8) : ofBase64 (base64 bytes) = bytes :=
  ofBase64url_digits sextet?_base64Char bytes _

end Bytes
