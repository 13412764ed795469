import Mathlib.Algebra.Group.Nat.Defs
import MortgageAgent.Lib.JsonText

/-!
# Writing and reading JSON text

`stringify` writes a value with its keys in the order it has them, `parse` reads any JSON text
(RFC 8259: whitespace, every escape, surrogate pairs) back into a value.

* **`readNumber_text`** — a number reads back as the number it was written from.
* **`parseUnits_quoteBody`** — a string literal reads back as its code units, and
  **`decode16_utf16`** — those as the string.
* **`parse_stringify`** — a value reads back as it was written.
* **`stringify_injective`** — hence two values with one text are one value.

The reader takes fuel: every nested call is on a shorter text, so the length of the text is
enough.
-/

/-! ## Numbers -/

namespace JsDecimal

/-- Removes the trailing zeros of a mantissa, at most `fuel` of them. -/
def stripZeros : (fuel : Nat) → Nat → Int → Nat × Int
  | 0, m, e => (m, e)
  | fuel + 1, m, e => if m % 10 = 0 then stripZeros fuel (m / 10) (e + 1) else (m, e)

theorem stripZeros_eq {m : Nat} (hm : m % 10 ≠ 0) (k : Nat) :
    ∀ {fuel : Nat} (e : Int), k ≤ fuel → stripZeros fuel (10 ^ k * m) e = (m, e + k) := by
  induction k with
  | zero =>
    intro fuel e _
    cases fuel with
    | zero => simp [stripZeros]
    | succ fuel => simp [stripZeros, hm]
  | succ k ih =>
    intro fuel e hfuel
    obtain ⟨fuel, rfl⟩ : ∃ f, fuel = f + 1 := ⟨fuel - 1, by omega⟩
    have hdiv : 10 ^ (k + 1) * m = 10 * (10 ^ k * m) := by
      rw [Nat.pow_succ, Nat.mul_comm (10 ^ k) 10, Nat.mul_assoc]
    rw [stripZeros, hdiv, if_pos (by omega), Nat.mul_div_cancel_left _ (by decide),
      ih (e + 1) (by omega)]
    rw [Prod.mk.injEq]
    exact ⟨rfl, by omega⟩

/-- The number `m * 10 ^ e`, negated if `neg`. -/
def ofScaled (neg : Bool) (fuel m : Nat) (e : Int) : Option JsDecimal :=
  if m = 0 then some zero
  else
    let (m, e) := stripZeros fuel m e
    let mantissa : Int := if neg then -m else m
    if h : mantissa % 10 ≠ 0 then some ⟨mantissa, e, Or.inl h⟩ else none

end JsDecimal

namespace Json

open JsDecimal

/-- One or more digits. -/
def isDigits (cs : List Char) : Bool := !cs.isEmpty && cs.all Char.isDigit

/-- The integer part: no leading zero, except in zero itself. -/
def isInt (cs : List Char) : Bool := isDigits cs && (cs.head? ≠ some '0' || cs = ['0'])

/-- The fraction after the integer part: absent, or a point and digits. -/
def readFraction : List Char → Option (List Char)
  | [] => some []
  | c :: ds => if c = '.' ∧ isDigits ds = true then some ds else none

/-- The exponent at the end: absent, or `e`, a sign or none, and digits. -/
def readExponent : List Char → Option Int
  | [] => some 0
  | c :: cs =>
    if c ≠ 'e' ∧ c ≠ 'E' then none
    else
      match cs with
      | [] => none
      | sign :: ds =>
        if sign = '-' then
          if isDigits ds then some (-(Nat.ofDigitChars 10 ds 0 : Int)) else none
        else
          let ds := if sign = '+' then ds else sign :: ds
          if isDigits ds then some (Nat.ofDigitChars 10 ds 0 : Int) else none

/-- A number without its sign. -/
def readUnsigned (neg : Bool) (cs : List Char) : Option JsDecimal :=
  let mantissa := cs.takeWhile fun c => c ≠ 'e' && c ≠ 'E'
  let exponent := cs.dropWhile fun c => c ≠ 'e' && c ≠ 'E'
  let int := mantissa.takeWhile (· ≠ '.')
  match readFraction (mantissa.dropWhile (· ≠ '.')), readExponent exponent with
  | some ds, some e =>
    if isInt int then
      ofScaled neg (int ++ ds).length (Nat.ofDigitChars 10 (int ++ ds) 0) (e - ds.length)
    else none
  | _, _ => none

def readNumber : List Char → Option JsDecimal
  | '-' :: cs => readUnsigned true cs
  | cs => readUnsigned false cs

/-- A run of characters ends where the next one does not belong to it. -/
theorem while_append {p : Char → Bool} {cs : List Char} (rest : List Char)
    (hcs : ∀ c ∈ cs, p c = true) (hrest : ∀ c r, rest = c :: r → p c = false) :
    (cs ++ rest).takeWhile p = cs ∧ (cs ++ rest).dropWhile p = rest := by
  have hstop : rest.takeWhile p = [] ∧ rest.dropWhile p = rest := by
    cases rest with
    | nil => exact ⟨rfl, rfl⟩
    | cons c r => simp [hrest c r rfl]
  rw [List.takeWhile_append_of_pos hcs, List.dropWhile_append_of_pos hcs, hstop.1, hstop.2,
    List.append_nil]
  exact ⟨rfl, rfl⟩

theorem isDigit_of_mem {n : Nat} {c : Char} (h : c ∈ Nat.toDigits 10 n) : c.isDigit = true :=
  Nat.isDigit_of_mem_toDigits (by decide) (by decide) h

theorem isDigits_toDigits (n : Nat) : isDigits (Nat.toDigits 10 n) = true := by
  simp only [isDigits, Bool.and_eq_true, Bool.not_eq_true', List.isEmpty_eq_false_iff,
    List.all_eq_true]
  exact ⟨Nat.toDigits_ne_nil, fun c hc => isDigit_of_mem hc⟩

/-- The digits of a positive number do not begin with a zero. -/
theorem head_toDigits {n : Nat} (hn : 0 < n) : (Nat.toDigits 10 n).head? ≠ some '0' := by
  induction n using Nat.strongRecOn with
  | _ n ih =>
    by_cases hlt : n < 10
    · rw [Nat.toDigits_of_lt_base hlt]
      have hsmall : ∀ d < 10, 0 < d → [d.digitChar].head? ≠ some '0' := by decide
      exact hsmall n hlt hn
    · rw [Nat.toDigits_of_base_le (by decide) (by omega)]
      have hhead := ih (n / 10) (by omega) (by omega)
      have hne : Nat.toDigits 10 (n / 10) ≠ [] := Nat.toDigits_ne_nil
      rwa [List.head?_append_of_ne_nil _ hne]

theorem isDigits_iff {cs : List Char} :
    isDigits cs = true ↔ cs ≠ [] ∧ ∀ c ∈ cs, c.isDigit = true := by
  simp [isDigits]

theorem isDigit_ne {c d : Char} (h : c.isDigit = true) (hd : d.isDigit = false) : c ≠ d := by
  rintro rfl
  rw [h] at hd
  cases hd

/-- A fraction as it is written: nothing, or a point and digits. -/
def fractionText (ds : List Char) : List Char :=
  if ds = [] then [] else '.' :: ds

theorem readFraction_text {ds : List Char} (h : ∀ c ∈ ds, c.isDigit = true) :
    readFraction (fractionText ds) = some ds := by
  unfold fractionText
  split
  · next hnil => rw [hnil]; rfl
  · next hne => rw [readFraction, if_pos ⟨rfl, isDigits_iff.mpr ⟨hne, h⟩⟩]

/-- An integer part, a fraction and an exponent are read as they are put together. -/
theorem readUnsigned_parts (neg : Bool) (int ds exponent : List Char) {e : Int}
    (hint : isInt int = true) (hds : ∀ c ∈ ds, c.isDigit = true)
    (hexp : readExponent exponent = some e) (hlead : ∀ c r, exponent = c :: r → c = 'e') :
    readUnsigned neg (int ++ fractionText ds ++ exponent)
      = ofScaled neg (int ++ ds).length (Nat.ofDigitChars 10 (int ++ ds) 0) (e - ds.length) := by
  have hdigits : ∀ c ∈ int, c.isDigit = true :=
    (isDigits_iff.mp (Bool.and_eq_true_iff.mp hint).1).2
  have hnot_e : ∀ c ∈ int ++ fractionText ds, (c ≠ 'e' && c ≠ 'E') = true := by
    intro c hc
    have hcases : c.isDigit = true ∨ c = '.' := by
      rcases List.mem_append.mp hc with hc | hc
      · exact Or.inl (hdigits c hc)
      · unfold fractionText at hc
        split at hc
        · cases hc
        · rcases List.mem_cons.mp hc with rfl | hc
          · exact Or.inr rfl
          · exact Or.inl (hds c hc)
    rcases hcases with hdigit | rfl
    · simp [isDigit_ne hdigit (by decide : 'e'.isDigit = false),
        isDigit_ne hdigit (by decide : 'E'.isDigit = false)]
    · decide
  have hnot_dot : ∀ c ∈ int, (decide (c ≠ '.')) = true := by
    intro c hc
    simp [isDigit_ne (hdigits c hc) (by decide : '.'.isDigit = false)]
  obtain ⟨htake, hdrop⟩ := while_append exponent hnot_e
    (fun c r h => by rw [hlead c r h]; decide)
  obtain ⟨hint', hfraction⟩ := while_append (fractionText ds) hnot_dot (by
    intro c r h
    unfold fractionText at h
    split at h
    · cases h
    · cases h; decide)
  simp only [readUnsigned, htake, hdrop, hint', hfraction, readFraction_text hds, hexp, hint,
    if_true]

theorem ofScaled_eq {neg : Bool} {fuel m : Nat} (hm : m % 10 ≠ 0) (k : Nat) (hk : k ≤ fuel)
    (e : Int) {n : JsDecimal} (hmantissa : n.mantissa = if neg then -(m : Int) else m)
    (hexponent : n.exponent = e + k) : ofScaled neg fuel (10 ^ k * m) e = some n := by
  have hne : 10 ^ k * m ≠ 0 := by
    have hpos : 0 < 10 ^ k := Nat.pow_pos (by decide)
    intro h
    rcases Nat.mul_eq_zero.mp h with h | h <;> omega
  have hmod : (if neg then -(m : Int) else (m : Int)) % 10 ≠ 0 := by
    split <;> omega
  rw [ofScaled, if_neg hne, stripZeros_eq hm k e hk]
  dsimp only
  rw [dif_pos hmod]
  obtain ⟨mantissa, exponent, shortest⟩ := n
  dsimp only at hmantissa hexponent
  subst hmantissa hexponent
  rfl

/-- A mantissa without trailing zeros stays as it is. -/
theorem ofScaled_self {neg : Bool} {fuel m : Nat} (hm : m % 10 ≠ 0) {e : Int} {n : JsDecimal}
    (hmantissa : n.mantissa = if neg then -(m : Int) else m) (hexponent : n.exponent = e) :
    ofScaled neg fuel m e = some n := by
  have hscaled : ofScaled neg fuel (10 ^ 0 * m) e = some n :=
    ofScaled_eq hm 0 (Nat.zero_le _) e hmantissa (by simpa using hexponent)
  rwa [Nat.pow_zero, Nat.one_mul] at hscaled

theorem readExponent_text (e : Int) :
    readExponent ('e' :: (if 0 ≤ e then '+' else '-') :: Nat.toDigits 10 e.natAbs) = some e := by
  have hdigits := isDigits_toDigits e.natAbs
  by_cases he : 0 ≤ e
  · have habs : (e.natAbs : Int) = e := by omega
    simp only [readExponent, if_pos he, hdigits, if_true, Nat.ofDigitChars_ten_toDigits, habs]
    rw [if_neg (by decide), if_neg (by decide)]
  · have habs : -(e.natAbs : Int) = e := by omega
    simp only [readExponent, if_neg he, hdigits, if_true, Nat.ofDigitChars_ten_toDigits, habs]
    rw [if_neg (by decide)]

theorem isInt_of_digits {cs : List Char} (hdigits : isDigits cs = true)
    (hhead : cs.head? ≠ some '0') : isInt cs = true := by
  simp [isInt, hdigits, hhead]

/-- **The text of a positive mantissa**, read with either sign. -/
theorem readUnsigned_textOfDigits {m : Nat} (hm : m % 10 ≠ 0) (neg : Bool) (n : JsDecimal)
    (hmantissa : n.mantissa = if neg then -(m : Int) else m) :
    readUnsigned neg (JsDecimal.textOfDigits (Nat.toDigits 10 m)
      (n.exponent + (Nat.toDigits 10 m).length)) = some n := by
  have hpos : 0 < m := by omega
  have hall : ∀ c ∈ Nat.toDigits 10 m, c.isDigit = true := fun c hc => isDigit_of_mem hc
  have hhead := head_toDigits hpos
  have hvalue : Nat.ofDigitChars 10 (Nat.toDigits 10 m) 0 = m := Nat.ofDigitChars_ten_toDigits
  have hlength : 0 < (Nat.toDigits 10 m).length := Nat.length_toDigits_pos
  generalize Nat.toDigits 10 m = s at hall hhead hvalue hlength ⊢
  have hzeros (c : Char) (k : Nat) (hc : c ∈ List.replicate k '0') : c.isDigit = true := by
    rw [(List.mem_replicate.mp hc).2]
    decide
  unfold JsDecimal.textOfDigits
  dsimp only
  split
  · -- an integer, with the zeros written out
    next hrange =>
    obtain ⟨z, hz⟩ : ∃ z : Nat, n.exponent = z := ⟨n.exponent.toNat, by omega⟩
    have hcount : (n.exponent + s.length - s.length).toNat = z := by omega
    rw [hcount]
    have hread := readUnsigned_parts neg (s ++ List.replicate z '0') [] [] ?_ nofun rfl nofun
    · rw [fractionText, if_pos rfl] at hread
      simp only [List.append_nil] at hread
      rw [hread, Nat.ofDigitChars_append, hvalue, Nat.ofDigitChars_replicate_zero]
      exact ofScaled_eq hm z (by simp) _ hmantissa (by simpa using hz)
    · refine isInt_of_digits (isDigits_iff.mpr ⟨?_, fun c hc => ?_⟩) ?_
      · exact List.append_ne_nil_of_left_ne_nil (List.ne_nil_of_length_pos hlength) _
      · rcases List.mem_append.mp hc with hc | hc
        · exact hall c hc
        · exact hzeros c z hc
      · rwa [List.head?_append_of_ne_nil _ (List.ne_nil_of_length_pos hlength)]
  split
  · -- a point among the digits
    next hshort hrange =>
    obtain ⟨i, hi⟩ : ∃ i : Nat, n.exponent + s.length = i :=
      ⟨(n.exponent + s.length).toNat, by omega⟩
    have hi0 : 0 < i := by omega
    have hilt : i < s.length := by omega
    rw [hi, Int.toNat_natCast]
    have hdrop : s.drop i ≠ [] := by simpa using hilt
    have hread := readUnsigned_parts neg (s.take i) (s.drop i) [] ?_
      (fun c hc => hall c (List.mem_of_mem_drop hc)) rfl nofun
    · rw [fractionText, if_neg hdrop, List.append_nil] at hread
      rw [hread, List.take_append_drop, hvalue]
      refine ofScaled_self hm hmantissa ?_
      rw [List.length_drop]
      omega
    · refine isInt_of_digits (isDigits_iff.mpr ⟨?_, fun c hc => hall c (List.mem_of_mem_take hc)⟩) ?_
      · intro hnil
        rw [List.take_eq_nil_iff] at hnil
        rcases hnil with hnil | hnil
        · omega
        · rw [hnil] at hlength
          cases hlength
      · rwa [List.head?_take, if_neg (by omega)]
  split
  · -- a fraction of one
    next _ _ hrange =>
    obtain ⟨z, hz⟩ : ∃ z : Nat, n.exponent + s.length = -z :=
      ⟨(-(n.exponent + s.length)).toNat, by omega⟩
    have hcount : (-(n.exponent + s.length)).toNat = z := by omega
    rw [hcount]
    have hne : List.replicate z '0' ++ s ≠ [] :=
      List.append_ne_nil_of_right_ne_nil _ (List.ne_nil_of_length_pos hlength)
    have hread := readUnsigned_parts neg ['0'] (List.replicate z '0' ++ s) [] (by decide) ?_ rfl
      nofun
    · rw [fractionText, if_neg hne, List.append_nil] at hread
      rw [show '0' :: '.' :: (List.replicate z '0' ++ s)
        = ['0'] ++ '.' :: (List.replicate z '0' ++ s) from rfl, hread]
      have hdigits : Nat.ofDigitChars 10 (['0'] ++ (List.replicate z '0' ++ s)) 0 = m := by
        rw [Nat.ofDigitChars_append, Nat.ofDigitChars_append, Nat.ofDigitChars_replicate_zero]
        simpa [Nat.ofDigitChars_cons] using hvalue
      rw [hdigits]
      refine ofScaled_self hm hmantissa ?_
      rw [List.length_append, List.length_replicate]
      omega
    · intro c hc
      rcases List.mem_append.mp hc with hc | hc
      · exact hzeros c z hc
      · exact hall c hc
  · -- one digit before the point, and an exponent
    have hexponent := readExponent_text (n.exponent + s.length - 1)
    rw [digits_eq]
    cases s with
    | nil => cases hlength
    | cons d rest =>
      have hint : isInt [d] = true :=
        isInt_of_digits (isDigits_iff.mpr ⟨by simp, by simpa using hall d (by simp)⟩) hhead
      have hread := readUnsigned_parts neg [d] rest _ hint
        (fun c hc => hall c (List.mem_cons_of_mem d hc)) hexponent
        (fun c r h => (List.cons.inj h).1.symm)
      have hscaled : ofScaled neg (d :: rest).length (Nat.ofDigitChars 10 (d :: rest) 0)
          (n.exponent + (d :: rest).length - 1 - rest.length) = some n := by
        rw [hvalue]
        refine ofScaled_self hm hmantissa ?_
        rw [List.length_cons]
        omega
      have hboth := hread.trans hscaled
      cases rest with
      | nil => exact hboth
      | cons d' rest =>
        rw [fractionText, if_neg (by simp), List.append_assoc] at hboth
        exact hboth

/-- A sign is no part of an unsigned number. -/
theorem readUnsigned_sign (neg : Bool) (cs : List Char) : readUnsigned neg ('-' :: cs) = none := by
  simp only [readUnsigned, List.takeWhile_cons]
  split
  · simp [isInt, isDigits]
  · rfl

/-- **A number reads back as the number it was written from.** -/
theorem readNumber_text (n : JsDecimal) : readNumber n.text.toList = some n := by
  unfold JsDecimal.text
  split
  · next hzero =>
    obtain ⟨mantissa, exponent, shortest⟩ := n
    dsimp only at hzero
    subst hzero
    rcases shortest with h | ⟨-, rfl⟩
    · exact absurd rfl h
    · rfl
  next hne =>
  have hmod : n.mantissa.natAbs % 10 ≠ 0 := by
    rcases n.shortest with h | ⟨h, -⟩
    · omega
    · exact absurd h hne
  simp only [String.toList_ofList, digits_eq]
  by_cases hneg : n.mantissa < 0
  · rw [if_pos hneg]
    have habs : n.mantissa = -(n.mantissa.natAbs : Int) := by omega
    exact readUnsigned_textOfDigits hmod true n habs
  · rw [if_neg hneg]
    have habs : n.mantissa = (n.mantissa.natAbs : Int) := by omega
    have hread := readUnsigned_textOfDigits hmod false n habs
    generalize JsDecimal.textOfDigits _ _ = cs at hread ⊢
    unfold readNumber
    split
    · rw [readUnsigned_sign] at hread
      cases hread
    · exact hread

/-! ## Strings -/

/-- The code units of one character. -/
def utf16Char (c : Char) : List Nat :=
  if c.toNat < 0x10000 then [c.toNat]
  else [0xD800 + (c.toNat - 0x10000) / 0x400, 0xDC00 + (c.toNat - 0x10000) % 0x400]

/-- The characters that code units denote; a lone surrogate denotes none. -/
def decode16 : List Nat → Option (List Char)
  | [] => some []
  | u :: rest =>
    if u < 0xD800 ∨ 0xE000 ≤ u then (decode16 rest).map (Char.ofNat u :: ·)
    else
      match rest with
      | [] => none
      | l :: rest =>
        if u < 0xDC00 ∧ 0xDC00 ≤ l ∧ l < 0xE000 then
          (decode16 rest).map (Char.ofNat (0x10000 + (u - 0xD800) * 0x400 + (l - 0xDC00)) :: ·)
        else none

theorem decode16_utf16Char (c : Char) (rest : List Nat) :
    decode16 (utf16Char c ++ rest) = (decode16 rest).map (c :: ·) := by
  have hvalid : c.toNat < 0xD800 ∨ (0xDFFF < c.toNat ∧ c.toNat < 0x110000) := c.valid
  unfold utf16Char
  split
  · -- one unit, outside the surrogates
    have hunit : c.toNat < 0xD800 ∨ 0xE000 ≤ c.toNat := by omega
    rw [List.singleton_append, decode16.eq_def]
    simp only [if_pos hunit, Char.ofNat_toNat]
  · have hhigh : ¬ (0xD800 + (c.toNat - 0x10000) / 0x400 < 0xD800
        ∨ 0xE000 ≤ 0xD800 + (c.toNat - 0x10000) / 0x400) := by omega
    have hpair : 0xD800 + (c.toNat - 0x10000) / 0x400 < 0xDC00
        ∧ 0xDC00 ≤ 0xDC00 + (c.toNat - 0x10000) % 0x400
        ∧ 0xDC00 + (c.toNat - 0x10000) % 0x400 < 0xE000 := by omega
    have hvalue : 0x10000 + (0xD800 + (c.toNat - 0x10000) / 0x400 - 0xD800) * 0x400
        + (0xDC00 + (c.toNat - 0x10000) % 0x400 - 0xDC00) = c.toNat := by omega
    simp only [List.cons_append, List.nil_append]
    rw [decode16.eq_def]
    simp only [if_neg hhigh, if_pos hpair, hvalue, Char.ofNat_toNat]

theorem decode16_flatMap (cs : List Char) : decode16 (cs.flatMap utf16Char) = some cs := by
  induction cs with
  | nil => rfl
  | cons c cs ih => rw [List.flatMap_cons, decode16_utf16Char, ih, Option.map_some]

/-- **Code units determine the string.** -/
theorem utf16_injective : Function.Injective utf16 := by
  intro s t h
  have hdecode : decode16 (utf16 s) = decode16 (utf16 t) := by rw [h]
  rw [show utf16 s = s.toList.flatMap utf16Char from rfl,
    show utf16 t = t.toList.flatMap utf16Char from rfl, decode16_flatMap, decode16_flatMap] at hdecode
  exact String.toList_inj.mp (Option.some.inj hdecode)

def hexDigitValue? (c : Char) : Option Nat :=
  if '0' ≤ c ∧ c ≤ '9' then some (c.toNat - 48)
  else if 'a' ≤ c ∧ c ≤ 'f' then some (c.toNat - 87)
  else if 'A' ≤ c ∧ c ≤ 'F' then some (c.toNat - 55)
  else none

theorem hexDigitValue?_hexDigit : ∀ n < 16, hexDigitValue? (hexDigit n) = some n := by decide

def hex4 (a b c d : Char) : Option Nat :=
  match hexDigitValue? a, hexDigitValue? b, hexDigitValue? c, hexDigitValue? d with
  | some a, some b, some c, some d => some (a * 4096 + b * 256 + c * 16 + d)
  | _, _, _, _ => none

/-- The escapes of one letter. -/
def unescape (e : Char) : Option Char :=
  if e = '"' ∨ e = '\\' ∨ e = '/' then some e
  else if e = 'b' then some '\x08'
  else if e = 'f' then some '\x0c'
  else if e = 'n' then some '\n'
  else if e = 'r' then some '\r'
  else if e = 't' then some '\t'
  else none

/-- The code units of a literal up to its closing quote, and what follows it. -/
def parseUnits : List Char → Option (List Nat × List Char)
  | [] => none
  | c :: rest =>
    if c = '"' then some ([], rest)
    else if c = '\\' then
      match rest with
      | [] => none
      | e :: rest =>
        if e = 'u' then
          match rest with
          | h₁ :: h₂ :: h₃ :: h₄ :: rest =>
            match hex4 h₁ h₂ h₃ h₄, parseUnits rest with
            | some u, some (units, rest) => some (u :: units, rest)
            | _, _ => none
          | _ => none
        else
          match unescape e, parseUnits rest with
          | some c, some (units, rest) => some (c.toNat :: units, rest)
          | _, _ => none
    else if c.toNat < 0x20 then none
    else
      match parseUnits rest with
      | some (units, rest) => some (utf16Char c ++ units, rest)
      | none => none

def parseString (cs : List Char) : Option (String × List Char) :=
  match parseUnits cs with
  | some (units, rest) => (decode16 units).map fun s => (String.ofList s, rest)
  | none => none

theorem utf16Char_small {c : Char} (h : c.toNat < 0x10000) : utf16Char c = [c.toNat] := if_pos h

/-- One character of a literal reads back as its code units. -/
theorem parseUnits_quoteChar (c : Char) {rest rest' : List Char} {units : List Nat}
    (h : parseUnits rest = some (units, rest')) :
    parseUnits (quoteChar c ++ rest) = some (utf16Char c ++ units, rest') := by
  have hescape {e : Char} (he : e ≠ 'u') (hc : unescape e = some c) (hsmall : c.toNat < 0x10000) :
      parseUnits ('\\' :: e :: rest) = some (utf16Char c ++ units, rest') := by
    rw [parseUnits.eq_def]
    simp only [show ('\\' = '"') = False from by decide, if_false, if_true, if_neg he, hc, h,
      utf16Char_small hsmall, List.singleton_append]
  unfold quoteChar
  split
  · next hc => subst hc; exact hescape (by decide) rfl (by decide)
  split
  · next hc => subst hc; exact hescape (by decide) rfl (by decide)
  split
  · next hc => subst hc; exact hescape (by decide) rfl (by decide)
  split
  · next hc => subst hc; exact hescape (by decide) rfl (by decide)
  split
  · next hc => subst hc; exact hescape (by decide) rfl (by decide)
  split
  · next hc => subst hc; exact hescape (by decide) rfl (by decide)
  split
  · next hc => subst hc; exact hescape (by decide) rfl (by decide)
  split
  · next hcontrol =>
    have hhex : hex4 '0' '0' (hexDigit (c.toNat / 16)) (hexDigit (c.toNat % 16)) = some c.toNat := by
      rw [hex4, hexDigitValue?_hexDigit _ (by omega), hexDigitValue?_hexDigit _ (by omega)]
      simp only [show hexDigitValue? '0' = some 0 from rfl, Option.some.injEq]
      omega
    simp only [List.cons_append, List.nil_append]
    rw [parseUnits.eq_def]
    simp only [show ('\\' = '"') = False from by decide, if_false, if_true, hhex, h,
      utf16Char_small (by omega : c.toNat < 0x10000), List.singleton_append]
  · next hquote hslash _ _ _ _ _ hcontrol =>
    rw [List.singleton_append, parseUnits.eq_def]
    simp only [if_neg hquote, if_neg hslash, if_neg hcontrol, h]

/-- **A literal reads back as the code units of its string.** -/
theorem parseUnits_quoteBody (cs rest : List Char) :
    parseUnits (quoteBody cs ++ rest) = some (cs.flatMap utf16Char, rest) := by
  induction cs with
  | nil =>
    rw [parseUnits.eq_def]
    rfl
  | cons c cs ih =>
    have hbody : quoteBody (c :: cs) ++ rest = quoteChar c ++ (quoteBody cs ++ rest) := by
      simp [quoteBody]
    rw [hbody, parseUnits_quoteChar c ih, List.flatMap_cons]

theorem parseString_quoteBody (s : String) (rest : List Char) :
    parseString (quoteBody s.toList ++ rest) = some (s, rest) := by
  rw [parseString, parseUnits_quoteBody]
  simp only [decode16_flatMap, Option.map_some, String.ofList_toList]

/-! ## Writing -/

mutual

/-- The text of a value, its keys in the order it has them. -/
def chars : Json → List Char
  | .null => ['n', 'u', 'l', 'l']
  | .bool true => ['t', 'r', 'u', 'e']
  | .bool false => ['f', 'a', 'l', 's', 'e']
  | .num n => n.text.toList
  | .str s => '"' :: quoteBody s.toList
  | .arr [] => ['[', ']']
  | .arr (x :: xs) => '[' :: (chars x ++ itemsChars xs)
  | .obj [] => ['\x7b', '\x7d']
  | .obj (p :: ps) => '\x7b' :: (fieldChars p ++ fieldsChars ps)

/-- The items after the first, and the bracket. -/
def itemsChars : List Json → List Char
  | [] => [']']
  | x :: xs => ',' :: (chars x ++ itemsChars xs)

def fieldChars : String × Json → List Char
  | (k, v) => '"' :: (quoteBody k.toList ++ ':' :: chars v)

/-- The fields after the first, and the brace. -/
def fieldsChars : List (String × Json) → List Char
  | [] => ['\x7d']
  | p :: ps => ',' :: (fieldChars p ++ fieldsChars ps)

end

/-- `JSON.stringify`. -/
def stringify (a : Json) : String := String.ofList (chars a)

/-! ## Reading -/

def isSpace (c : Char) : Bool := c = ' ' || c = '\t' || c = '\n' || c = '\r'

def skipSpace (cs : List Char) : List Char := cs.dropWhile isSpace

/-- The rest of a literal word. -/
def readWord (word : List Char) (value : Json) (cs : List Char) : Option (Json × List Char) :=
  if cs.take word.length = word then some (value, cs.drop word.length) else none

/-- The characters a number may have, in either case of its exponent. -/
def isNumberText (c : Char) : Bool := isNumberChar c || c = 'E'

/-- A key and its colon. -/
def parseKey (cs : List Char) : Option (String × List Char) :=
  match skipSpace cs with
  | '"' :: rest =>
    match parseString rest with
    | some (k, rest) =>
      match skipSpace rest with
      | ':' :: rest => some (k, rest)
      | _ => none
    | none => none
  | _ => none

mutual

def parseValue : (fuel : Nat) → List Char → Option (Json × List Char)
  | 0, _ => none
  | fuel + 1, cs =>
    match skipSpace cs with
    | [] => none
    | c :: rest =>
      if c = 'n' then readWord ['u', 'l', 'l'] .null rest
      else if c = 't' then readWord ['r', 'u', 'e'] (.bool true) rest
      else if c = 'f' then readWord ['a', 'l', 's', 'e'] (.bool false) rest
      else if c = '"' then (parseString rest).map fun (s, rest) => (.str s, rest)
      else if c = '[' then
        match skipSpace rest with
        | [] => none
        | d :: rest =>
          if d = ']' then some (.arr [], rest)
          else (parseItems fuel (d :: rest)).map fun (items, rest) => (.arr items, rest)
      else if c = '\x7b' then
        match skipSpace rest with
        | [] => none
        | d :: rest =>
          if d = '\x7d' then some (.obj [], rest)
          else (parseFields fuel (d :: rest)).map fun (fields, rest) => (.obj fields, rest)
      else
        let number := (c :: rest).takeWhile isNumberText
        (readNumber number).map fun n => (.num n, (c :: rest).dropWhile isNumberText)

/-- One or more items, up to the bracket. -/
def parseItems : (fuel : Nat) → List Char → Option (List Json × List Char)
  | 0, _ => none
  | fuel + 1, cs =>
    match parseValue fuel cs with
    | none => none
    | some (x, rest) =>
      match skipSpace rest with
      | ',' :: rest => (parseItems fuel rest).map fun (xs, rest) => (x :: xs, rest)
      | ']' :: rest => some ([x], rest)
      | _ => none

/-- One or more fields, up to the brace. -/
def parseFields : (fuel : Nat) → List Char → Option (List (String × Json) × List Char)
  | 0, _ => none
  | fuel + 1, cs =>
    match parseKey cs with
    | none => none
    | some (k, rest) =>
      match parseValue fuel rest with
      | none => none
      | some (v, rest) =>
        match skipSpace rest with
        | ',' :: rest => (parseFields fuel rest).map fun (ps, rest) => ((k, v) :: ps, rest)
        | '\x7d' :: rest => some ([(k, v)], rest)
        | _ => none

end

/-- The value of a whole text, its fields in the order of the text. -/
def parseText (s : String) : Option Json :=
  match parseValue (s.toList.length + 1) s.toList with
  | some (a, rest) => if skipSpace rest = [] then some a else none
  | none => none

/-! ## The round trip -/

/-- What follows a value in a text: nothing, a comma or a closing bracket. -/
def Ends (rest : List Char) : Prop :=
  ∀ c r, rest = c :: r → c = ',' ∨ c = ']' ∨ c = '\x7d'

theorem ends_nil : Ends [] := nofun

theorem ends_itemsChars (xs : List Json) (rest : List Char) : Ends (itemsChars xs ++ rest) := by
  cases xs with
  | nil => rintro c r ⟨⟩; exact Or.inr (Or.inl rfl)
  | cons x xs => rintro c r ⟨⟩; exact Or.inl rfl

theorem ends_fieldsChars (ps : List (String × Json)) (rest : List Char) :
    Ends (fieldsChars ps ++ rest) := by
  cases ps with
  | nil => rintro c r ⟨⟩; exact Or.inr (Or.inr rfl)
  | cons p ps => rintro c r ⟨⟩; exact Or.inl rfl

theorem skipSpace_of_head {c : Char} {cs : List Char} (h : isSpace c = false) :
    skipSpace (c :: cs) = c :: cs := by
  simp [skipSpace, h]

theorem skipSpace_of_ends {rest : List Char} (h : Ends rest) : skipSpace rest = rest := by
  cases rest with
  | nil => rfl
  | cons c r =>
    apply skipSpace_of_head
    rcases h c r rfl with rfl | rfl | rfl <;> decide

/-- The first character of a value says what it is. -/
theorem chars_head (a : Json) : ∃ c cs, chars a = c :: cs ∧ isSpace c = false
    ∧ c ≠ ']' ∧ c ≠ '\x7d' := by
  cases a with
  | null => exact ⟨'n', _, rfl, by decide⟩
  | bool b => cases b <;> exact ⟨_, _, rfl, by decide⟩
  | num n =>
    cases htext : n.text.toList with
    | nil => exact absurd htext (number_ne_nil n)
    | cons c cs =>
      have hc : isNumberChar c = true := number_numberChar n c (by simp [htext])
      refine ⟨c, cs, htext, ?_, ?_, ?_⟩
      · simp only [isSpace, Bool.or_eq_false_iff, decide_eq_false_iff_not]
        refine ⟨⟨⟨?_, ?_⟩, ?_⟩, ?_⟩ <;> · rintro rfl; exact absurd hc (by decide)
      · rintro rfl; exact absurd hc (by decide)
      · rintro rfl; exact absurd hc (by decide)
  | str s => exact ⟨'"', _, rfl, by decide⟩
  | arr items => cases items <;> exact ⟨'[', _, rfl, by decide⟩
  | obj fields => cases fields <;> exact ⟨'\x7b', _, rfl, by decide⟩

theorem skipSpace_chars (a : Json) (rest : List Char) :
    skipSpace (chars a ++ rest) = chars a ++ rest := by
  obtain ⟨c, cs, hchars, hspace, -⟩ := chars_head a
  rw [hchars]
  exact skipSpace_of_head hspace

/-- The value is read off its text, whatever follows, with fuel for the length of the text. -/
def ReadsBack (a : Json) : Prop :=
  ∀ (rest : List Char) (fuel : Nat), Ends rest → (chars a).length < fuel →
    parseValue fuel (chars a ++ rest) = some (a, rest)

theorem num_readsBack (n : JsDecimal) : ReadsBack (.num n) := by
  intro rest fuel hrest hfuel
  obtain ⟨fuel, rfl⟩ : ∃ f, fuel = f + 1 := ⟨fuel - 1, by omega⟩
  obtain ⟨c, cs, hchars, hspace, -⟩ := chars_head (.num n)
  have htext : n.text.toList = c :: cs := hchars
  have hc : isNumberChar c = true := number_numberChar n c (by simp [htext])
  have hne {d : Char} (hd : isNumberChar d = false) : c ≠ d := by
    rintro rfl
    rw [hc] at hd
    cases hd
  have hnumber : ∀ d ∈ n.text.toList, isNumberText d = true := by
    intro d hd
    simp [isNumberText, number_numberChar n d hd]
  obtain ⟨htake, hdrop⟩ := while_append rest hnumber
    (fun d r h => by rcases hrest d r h with rfl | rfl | rfl <;> decide)
  rw [htext] at htake hdrop
  rw [hchars, parseValue, List.cons_append, skipSpace_of_head hspace]
  simp only [if_neg (hne (show isNumberChar 'n' = false by decide)),
    if_neg (hne (show isNumberChar 't' = false by decide)),
    if_neg (hne (show isNumberChar 'f' = false by decide)),
    if_neg (hne (show isNumberChar '"' = false by decide)),
    if_neg (hne (show isNumberChar '[' = false by decide)),
    if_neg (hne (show isNumberChar '\x7b' = false by decide))]
  rw [← List.cons_append, htake, hdrop, ← htext, readNumber_text, Option.map_some]

theorem parseItems_chars {xs : List Json} : ∀ {x : Json}, ReadsBack x → (∀ y ∈ xs, ReadsBack y) →
    ∀ (rest : List Char) (fuel : Nat), (chars x ++ itemsChars xs).length < fuel →
      parseItems fuel (chars x ++ itemsChars xs ++ rest) = some (x :: xs, rest) := by
  induction xs with
  | nil =>
    intro x hx _ rest fuel hfuel
    obtain ⟨fuel, rfl⟩ : ∃ f, fuel = f + 1 := ⟨fuel - 1, by omega⟩
    rw [List.length_append] at hfuel
    have hread := hx (itemsChars [] ++ rest) fuel (ends_itemsChars [] rest)
      (by simp only [itemsChars, List.length_singleton] at hfuel; omega)
    rw [List.append_assoc, parseItems, hread]
    rfl
  | cons y ys ih =>
    intro x hx hxs rest fuel hfuel
    obtain ⟨fuel, rfl⟩ : ∃ f, fuel = f + 1 := ⟨fuel - 1, by omega⟩
    obtain ⟨c, cs, hchars, -⟩ := chars_head x
    simp only [List.length_append, itemsChars, List.length_cons] at hfuel
    have hpos : 0 < (chars x).length := by rw [hchars]; simp
    have hread := hx (itemsChars (y :: ys) ++ rest) fuel (ends_itemsChars _ rest) (by omega)
    have htail := ih (hxs y (by simp)) (fun z hz => hxs z (by simp [hz])) rest fuel
      (by rw [List.length_append]; omega)
    rw [List.append_assoc, parseItems, hread]
    simp only [skipSpace_of_ends (ends_itemsChars (y :: ys) rest)]
    simp only [itemsChars, List.cons_append, htail, Option.map_some]

theorem parseKey_fieldChars (p : String × Json) (rest : List Char) :
    parseKey (fieldChars p ++ rest) = some (p.1, chars p.2 ++ rest) := by
  obtain ⟨k, v⟩ := p
  have hfield : fieldChars (k, v) ++ rest
      = '"' :: (quoteBody k.toList ++ ':' :: (chars v ++ rest)) := by
    simp [fieldChars]
  rw [hfield, parseKey, skipSpace_of_head (by decide)]
  simp only [parseString_quoteBody]
  rw [skipSpace_of_head (by decide)]
  rfl

theorem parseFields_chars {ps : List (String × Json)} : ∀ {p : String × Json}, ReadsBack p.2 →
    (∀ q ∈ ps, ReadsBack q.2) → ∀ (rest : List Char) (fuel : Nat),
      (fieldChars p ++ fieldsChars ps).length < fuel →
      parseFields fuel (fieldChars p ++ fieldsChars ps ++ rest) = some (p :: ps, rest) := by
  have hlength (p : String × Json) : (chars p.2).length < (fieldChars p).length := by
    obtain ⟨k, v⟩ := p
    simp only [fieldChars, List.length_cons, List.length_append]
    omega
  induction ps with
  | nil =>
    intro p hp _ rest fuel hfuel
    obtain ⟨fuel, rfl⟩ : ∃ f, fuel = f + 1 := ⟨fuel - 1, by omega⟩
    have hshort := hlength p
    simp only [List.length_append, fieldsChars, List.length_singleton] at hfuel
    have hread := hp (fieldsChars [] ++ rest) fuel (ends_fieldsChars [] rest) (by omega)
    rw [List.append_assoc, parseFields, parseKey_fieldChars]
    simp only [hread]
    rfl
  | cons q qs ih =>
    intro p hp hps rest fuel hfuel
    obtain ⟨fuel, rfl⟩ : ∃ f, fuel = f + 1 := ⟨fuel - 1, by omega⟩
    have hshort := hlength p
    simp only [List.length_append, fieldsChars, List.length_cons] at hfuel
    have hread := hp (fieldsChars (q :: qs) ++ rest) fuel (ends_fieldsChars _ rest) (by omega)
    have htail := ih (hps q (by simp)) (fun z hz => hps z (by simp [hz])) rest fuel
      (by rw [List.length_append]; omega)
    rw [List.append_assoc, parseFields, parseKey_fieldChars]
    simp only [hread, skipSpace_of_ends (ends_fieldsChars (q :: qs) rest)]
    simp only [fieldsChars, List.cons_append, htail, Option.map_some]

/-- **A value is read off its text.** -/
theorem readsBack (a : Json) : ReadsBack a := by
  induction a using Json.induction with
  | num n => exact num_readsBack n
  | null =>
    intro rest fuel hrest hfuel
    obtain ⟨fuel, rfl⟩ : ∃ f, fuel = f + 1 := ⟨fuel - 1, by omega⟩
    rfl
  | bool b =>
    intro rest fuel hrest hfuel
    obtain ⟨fuel, rfl⟩ : ∃ f, fuel = f + 1 := ⟨fuel - 1, by omega⟩
    cases b <;> rfl
  | str s =>
    intro rest fuel hrest hfuel
    obtain ⟨fuel, rfl⟩ : ∃ f, fuel = f + 1 := ⟨fuel - 1, by omega⟩
    rw [parseValue, skipSpace_chars]
    simp only [chars, List.cons_append, parseString_quoteBody]
    rfl
  | arr items ih =>
    intro rest fuel hrest hfuel
    obtain ⟨fuel, rfl⟩ : ∃ f, fuel = f + 1 := ⟨fuel - 1, by omega⟩
    cases items with
    | nil => rfl
    | cons x xs =>
      have hitems : ∀ y ∈ xs, ReadsBack y := fun y hy => ih y (List.mem_cons_of_mem x hy)
      have hread := parseItems_chars (ih x (by simp)) hitems rest fuel
        (by simp only [chars, List.length_cons] at hfuel; omega)
      obtain ⟨c, cs, hchars, hspace, hclose, -⟩ := chars_head x
      rw [parseValue, skipSpace_chars]
      rw [hchars] at hread
      simp only [chars, hchars, List.cons_append] at hread ⊢
      simp only [skipSpace_of_head hspace, if_neg hclose, hread]
      rfl
  | obj fields ih =>
    intro rest fuel hrest hfuel
    obtain ⟨fuel, rfl⟩ : ∃ f, fuel = f + 1 := ⟨fuel - 1, by omega⟩
    cases fields with
    | nil => rfl
    | cons p ps =>
      have hfields : ∀ q ∈ ps, ReadsBack q.2 := fun q hq => ih q (List.mem_cons_of_mem p hq)
      have hread := parseFields_chars (ih p (by simp)) hfields rest fuel
        (by simp only [chars, List.length_cons] at hfuel; omega)
      obtain ⟨k, v⟩ := p
      rw [parseValue, skipSpace_chars]
      simp only [chars, fieldChars, List.cons_append] at hread ⊢
      simp only [skipSpace_of_head (show isSpace '"' = false by decide), hread]
      rfl

/-- **A value reads back as it was written.** -/
theorem parseText_stringify (a : Json) : parseText (stringify a) = some a := by
  have hread := readsBack a [] ((chars a).length + 1) ends_nil (Nat.lt_succ_self _)
  rw [List.append_nil] at hread
  rw [parseText, stringify, String.toList_ofList, hread]
  rfl

/-- An object ends at its brace, whatever follows. -/
theorem parseValue_obj (fields : List (String × Json)) (rest : List Char) {fuel : Nat}
    (hfuel : (chars (.obj fields)).length < fuel) :
    parseValue fuel (chars (.obj fields) ++ rest) = some (.obj fields, rest) := by
  obtain ⟨fuel, rfl⟩ : ∃ f, fuel = f + 1 := ⟨fuel - 1, by omega⟩
  cases fields with
  | nil => rfl
  | cons p ps =>
    have hfields : ∀ q ∈ ps, ReadsBack q.2 := fun q _ => readsBack q.2
    have hread := parseFields_chars (readsBack p.2) hfields rest fuel
      (by simp only [chars, List.length_cons] at hfuel; omega)
    obtain ⟨k, v⟩ := p
    rw [parseValue, skipSpace_chars]
    simp only [chars, fieldChars, List.cons_append] at hread ⊢
    simp only [skipSpace_of_head (show isSpace '"' = false by decide), hread]
    rfl

/-- A text that goes on after an object is none, but for space. -/
theorem parseText_obj_append (fields : List (String × Json)) (rest : List Char) :
    parseText (String.ofList (chars (.obj fields) ++ rest))
      = if skipSpace rest = [] then some (.obj fields) else none := by
  rw [parseText, String.toList_ofList, parseValue_obj fields rest]
  rw [List.length_append]
  omega

/-- **Two values with one text are one value.** -/
theorem stringify_injective : Function.Injective stringify := by
  intro a b h
  have hparse : parseText (stringify a) = parseText (stringify b) := by rw [h]
  rw [parseText_stringify, parseText_stringify] at hparse
  exact Option.some.inj hparse

end Json
