import MortgageAgent.Lib.JsonParse
import Mathlib.Data.List.Induction
import Mathlib.Data.Nat.Digits.Defs

/-!
# The addresses that texts stand for

What an address text means, said without a parser. An IPv4 text is four octets in decimal. An IPv6
text is eight groups of hexadecimal digits, where one `::` may stand for groups of zeros and an
IPv4 text for the last two groups.

* **`Quad`** — four octets, with their text and their value.
* **`Groups`**, **`V6`** — what the groups of an IPv6 text are, and the number they make.
* **`Denotes`** — the address a text stands for.
* **`Block`** — the addresses with a given prefix, as an interval.
-/

namespace IpText

/-! ## Decimal texts -/

theorem digit_eq_digitChar {c : Char} (hc : c.isDigit = true) :
    c.toNat - 48 < 10 ∧ (c.toNat - 48).digitChar = c := by
  rw [Char.isDigit_iff_toNat] at hc
  have hlt : c.toNat - 48 < 10 := by simp at hc; omega
  refine ⟨hlt, Char.toNat_inj.mp ?_⟩
  rw [Nat.toNat_digitChar_of_lt_ten hlt]
  simp at hc
  omega

/-- A text with no leading zero is the text of its value. -/
theorem toDigits_of_isInt {cs : List Char} (h : Json.isInt cs = true) :
    Nat.toDigits 10 (Nat.ofDigitChars 10 cs 0) = cs := by
  induction cs using List.reverseRecOn with
  | nil => cases h
  | append_singleton ds c ih =>
    simp only [Json.isInt, Json.isDigits, Bool.and_eq_true, List.all_append, List.all_cons,
      List.all_nil, Bool.and_true] at h
    obtain ⟨⟨-, hds, hc⟩, hhead⟩ := h
    obtain ⟨hlt, hchar⟩ := digit_eq_digitChar hc
    rw [Nat.ofDigitChars_append, Nat.ofDigitChars_cons, Nat.ofDigitChars_nil,
      show '0'.toNat = 48 from rfl]
    cases ds with
    | nil => simpa [Nat.toDigits_of_lt_base hlt] using hchar
    | cons d ds =>
      have hzero : d ≠ '0' := by simpa using hhead
      have hint : Json.isInt (d :: ds) = true := by simp [Json.isInt, Json.isDigits, hds, hzero]
      have hpos : 0 < Nat.ofDigitChars 10 (d :: ds) 0 := by
        by_contra hnot
        have hds' := ih hint
        rw [Nat.eq_zero_of_not_pos hnot, Nat.toDigits_zero] at hds'
        exact hzero (List.cons.inj hds').1.symm
      rw [← Nat.toDigits_append_toDigits (by decide) hpos hlt, ih hint,
        Nat.toDigits_of_lt_base hlt, hchar]

theorem not_mem_toDigits {c : Char} (hc : c.isDigit = false) (n : Nat) :
    c ∉ Nat.toDigits 10 n := by
  intro hmem
  rw [Json.isDigit_of_mem hmem] at hc
  cases hc

/-! ## IPv4 -/

instance octet_neZero : NeZero 256 := ⟨by decide⟩

/-- The four octets of an IPv4 address. -/
structure Quad where
  a : Fin 256
  b : Fin 256
  c : Fin 256
  d : Fin 256

def Quad.octets (q : Quad) : List (List Char) :=
  [q.a, q.b, q.c, q.d].map fun octet : Fin 256 => Nat.toDigits 10 octet

theorem Quad.octets_eq (q : Quad) :
    q.octets = [Nat.toDigits 10 q.a, Nat.toDigits 10 q.b, Nat.toDigits 10 q.c,
      Nat.toDigits 10 q.d] := rfl

def Quad.text (q : Quad) : List Char := ['.'].intercalate q.octets

/-- The first two octets, and the last two. -/
def Quad.high (q : Quad) : Nat := q.a * 2 ^ 8 + q.b

def Quad.low (q : Quad) : Nat := q.c * 2 ^ 8 + q.d

def Quad.value (q : Quad) : Nat := q.high * 2 ^ 16 + q.low

def Quad.ofNat (n : Nat) : Quad where
  a := Fin.ofNat 256 (n / 2 ^ 24)
  b := Fin.ofNat 256 (n / 2 ^ 16)
  c := Fin.ofNat 256 (n / 2 ^ 8)
  d := Fin.ofNat 256 n

theorem Quad.high_lt (q : Quad) : q.high < 2 ^ 16 := by
  have ha := q.a.isLt
  have hb := q.b.isLt
  unfold Quad.high
  omega

theorem Quad.low_lt (q : Quad) : q.low < 2 ^ 16 := by
  have hc := q.c.isLt
  have hd := q.d.isLt
  unfold Quad.low
  omega

theorem Quad.value_ofNat (n : Nat) : (Quad.ofNat n).value = n % 2 ^ 32 := by
  simp only [Quad.value, Quad.high, Quad.low, Quad.ofNat, Fin.val_ofNat]
  omega

theorem Quad.not_mem_octets {q : Quad} {x : Char} (hx : x.isDigit = false) :
    ∀ octet ∈ q.octets, x ∉ octet := by
  intro octet hmem
  obtain ⟨n, -, rfl⟩ := List.mem_map.mp hmem
  exact not_mem_toDigits hx n

theorem Quad.splitOn_text (q : Quad) : q.text.splitOn '.' = q.octets :=
  List.splitOn_intercalate '.' (Quad.not_mem_octets rfl) (List.cons_ne_nil _ _)

theorem mem_intercalate {α : Type} {x sep : α} {ls : List (List α)}
    (h : x ∈ [sep].intercalate ls) : x = sep ∨ ∃ l ∈ ls, x ∈ l := by
  induction ls with
  | nil => cases h
  | cons l ls ih =>
    cases ls with
    | nil => exact .inr ⟨l, List.mem_singleton_self l, by simpa using h⟩
    | cons l' ls =>
      rw [List.intercalate_cons_cons, List.mem_append, List.mem_append, List.mem_singleton] at h
      rcases h with (hl | hsep) | hrest
      · exact .inr ⟨l, List.mem_cons_self, hl⟩
      · exact .inl hsep
      · rcases ih hrest with hsep | ⟨m, hm, hx⟩
        · exact .inl hsep
        · exact .inr ⟨m, List.mem_cons_of_mem l hm, hx⟩

theorem Quad.colon_not_mem (q : Quad) : ':' ∉ q.text := by
  intro h
  rcases mem_intercalate h with hsep | ⟨octet, hmem, hcolon⟩
  · cases hsep
  · exact Quad.not_mem_octets rfl octet hmem hcolon

/-! ## IPv6 -/

/-- The number that hexadecimal digits stand for, after `acc`. -/
def ofHex (acc : Nat) : List Char → Option Nat
  | [] => some acc
  | c :: cs => (Json.hexDigitValue? c).bind fun digit => ofHex (acc * 16 + digit) cs

/-- One to four hexadecimal digits. -/
structure IsGroup (cs : List Char) (group : Nat) : Prop where
  ne_nil : cs ≠ []
  length_le : cs.length ≤ 4
  value : ofHex 0 cs = some group

/-- The groups of a text with colons between them. Its end may be an IPv4 text if `quadLast`. -/
inductive Groups (quadLast : Bool) : List Char → List Nat → Prop where
  | one {cs : List Char} {group : Nat} (h : IsGroup cs group) : Groups quadLast cs [group]
  | quad (q : Quad) (h : quadLast = true) : Groups quadLast q.text [q.high, q.low]
  | cons {cs rest : List Char} {group : Nat} {groups : List Nat} (h : IsGroup cs group)
      (hrest : Groups quadLast rest groups) :
      Groups quadLast (cs ++ ':' :: rest) (group :: groups)

/-- What stands on one side of a `::`. -/
inductive Side (quadLast : Bool) : List Char → List Nat → Prop where
  | empty : Side quadLast [] []
  | groups {cs : List Char} {groups : List Nat} (h : Groups quadLast cs groups) :
      Side quadLast cs groups

/-- The number with these groups. -/
def groupsValue (groups : List Nat) : Nat := groups.foldl (fun acc group => acc * 2 ^ 16 + group) 0

inductive V6 (cs : List Char) : Nat → Prop where
  | full {groups : List Nat} (h : Groups true cs groups) (hlength : groups.length = 8) :
      V6 cs (groupsValue groups)
  | gap {before after : List Char} {heads tails : List Nat}
      (hcs : cs = before ++ ':' :: ':' :: after) (hbefore : Side false before heads)
      (hafter : Side true after tails) (hlength : heads.length + tails.length ≤ 7) :
      V6 cs (groupsValue (heads ++ List.replicate (8 - heads.length - tails.length) 0 ++ tails))

inductive Address where
  | v4 (value : Nat)
  | v6 (value : Nat)
  deriving DecidableEq, Repr

inductive Denotes (text : String) : Address → Prop where
  | v4 (q : Quad) (h : text.toList = q.text) : Denotes text (.v4 q.value)
  | v6 {value : Nat} (h : V6 text.toList value) : Denotes text (.v6 value)

theorem hexDigit_bounds {c : Char} {digit : Nat} (h : Json.hexDigitValue? c = some digit) :
    digit < 16 ∧ 48 ≤ c.toNat ∧ c.toNat ≤ 102 := by
  unfold Json.hexDigitValue? at h
  simp only [Char.le_def, UInt32.le_iff_toNat_le] at h
  change (if 48 ≤ c.toNat ∧ c.toNat ≤ 57 then _ else if 97 ≤ c.toNat ∧ c.toNat ≤ 102 then _
    else if 65 ≤ c.toNat ∧ c.toNat ≤ 70 then _ else _) = _ at h
  split at h
  · cases h
    omega
  · split at h
    · cases h
      omega
    · split at h
      · cases h
        omega
      · cases h

theorem ofHex_lt {cs : List Char} {acc n : Nat} (h : ofHex acc cs = some n) :
    n < (acc + 1) * 16 ^ cs.length := by
  induction cs generalizing acc with
  | nil =>
    cases h
    simp
  | cons c cs ih =>
    obtain ⟨digit, hdigit, hrest⟩ := Option.bind_eq_some_iff.mp h
    have hlt := (hexDigit_bounds hdigit).1
    calc n < (acc * 16 + digit + 1) * 16 ^ cs.length := ih hrest
      _ ≤ ((acc + 1) * 16) * 16 ^ cs.length := Nat.mul_le_mul_right _ (by omega)
      _ = (acc + 1) * 16 ^ (c :: cs).length := by
        rw [List.length_cons, Nat.pow_succ', Nat.mul_assoc]

theorem IsGroup.lt {cs : List Char} {group : Nat} (h : IsGroup cs group) : group < 2 ^ 16 := by
  calc group < (0 + 1) * 16 ^ cs.length := ofHex_lt h.value
    _ ≤ (0 + 1) * 16 ^ 4 := Nat.mul_le_mul_left _ (Nat.pow_le_pow_right (by decide) h.length_le)
    _ = 2 ^ 16 := by decide

theorem IsGroup.isHex {cs : List Char} {group : Nat} (h : IsGroup cs group) :
    ∀ c ∈ cs, (Json.hexDigitValue? c).isSome := by
  have hall : ∀ (cs : List Char) (acc : Nat), (ofHex acc cs).isSome →
      ∀ c ∈ cs, (Json.hexDigitValue? c).isSome := by
    intro cs
    induction cs with
    | nil => simp
    | cons c cs ih =>
      intro acc hsome
      rw [ofHex] at hsome
      cases hdigit : Json.hexDigitValue? c with
      | none => simp [hdigit] at hsome
      | some digit =>
        rw [hdigit] at hsome
        exact List.forall_mem_cons.mpr ⟨by rw [hdigit]; rfl, ih _ hsome⟩
  exact hall cs 0 (by rw [h.value]; rfl)

theorem IsGroup.not_mem {cs : List Char} {group : Nat} (h : IsGroup cs group) {x : Char}
    (hx : Json.hexDigitValue? x = none) : x ∉ cs := by
  intro hmem
  have hsome := h.isHex x hmem
  rw [hx] at hsome
  cases hsome

theorem Groups.lt {quadLast : Bool} {cs : List Char} {groups : List Nat}
    (h : Groups quadLast cs groups) : ∀ group ∈ groups, group < 2 ^ 16 := by
  induction h with
  | one h => simpa using h.lt
  | quad q => simpa using ⟨q.high_lt, q.low_lt⟩
  | cons h _ ih => exact List.forall_mem_cons.mpr ⟨h.lt, ih⟩

theorem Side.lt {quadLast : Bool} {cs : List Char} {groups : List Nat}
    (h : Side quadLast cs groups) : ∀ group ∈ groups, group < 2 ^ 16 := by
  cases h with
  | empty => simp
  | groups h => exact h.lt

theorem Groups.ne_nil {quadLast : Bool} {cs : List Char} {groups : List Nat}
    (h : Groups quadLast cs groups) : cs ≠ [] := by
  cases h with
  | one h => exact h.ne_nil
  | quad q =>
    intro hnil
    have hsplit := q.splitOn_text
    rw [hnil, List.splitOn_nil] at hsplit
    exact absurd (congrArg List.length hsplit) (by simp [Quad.octets])
  | cons => simp

/-- The groups are the digits of the number in base `2 ^ 16`, the most significant first. -/
theorem groupsValue_eq_ofDigits (groups : List Nat) :
    groupsValue groups = Nat.ofDigits (2 ^ 16) groups.reverse := by
  rw [Nat.ofDigits_eq_foldr, List.foldr_reverse, groupsValue]
  simp only [Nat.cast_id, Nat.add_comm, Nat.mul_comm]

theorem groupsValue_lt {groups : List Nat} (h : ∀ group ∈ groups, group < 2 ^ 16) :
    groupsValue groups < 2 ^ (16 * groups.length) := by
  rw [groupsValue_eq_ofDigits, Nat.pow_mul, ← List.length_reverse]
  exact Nat.ofDigits_lt_base_pow_length (by decide) fun group hmem =>
    h group (List.mem_reverse.mp hmem)

theorem V6.lt {cs : List Char} {value : Nat} (h : V6 cs value) : value < 2 ^ 128 := by
  cases h with
  | @full groups hgroups hlength =>
    have hvalue := groupsValue_lt hgroups.lt
    rwa [hlength] at hvalue
  | @gap before after heads tails _ hbefore hafter hlength =>
    have hlt : ∀ group ∈ heads ++ List.replicate (8 - heads.length - tails.length) 0 ++ tails,
        group < 2 ^ 16 := by
      intro group hmem
      rw [List.append_assoc, List.mem_append, List.mem_append] at hmem
      rcases hmem with hhead | hzero | htail
      · exact hbefore.lt group hhead
      · rw [List.eq_of_mem_replicate hzero]
        decide
      · exact hafter.lt group htail
    have hvalue := groupsValue_lt hlt
    rwa [List.length_append, List.length_append, List.length_replicate,
      show heads.length + (8 - heads.length - tails.length) + tails.length = 8 by omega] at hvalue

/-- An IPv6 text has a colon, which an IPv4 text does not have. -/
theorem V6.colon_mem {cs : List Char} {value : Nat} (h : V6 cs value) : ':' ∈ cs := by
  cases h with
  | full hgroups hlength =>
    cases hgroups with
    | one => cases hlength
    | quad => cases hlength
    | cons => simp
  | gap hcs => simp [hcs]

/-! ## Blocks of addresses -/

/-- The addresses of `bits` bits that begin as `base` does, for `prefixLength` bits. -/
structure Block where
  bits : Nat
  base : Nat
  prefixLength : Nat

def Block.Mem (b : Block) (value : Nat) : Prop :=
  b.base ≤ value ∧ value < b.base + 2 ^ (b.bits - b.prefixLength)

instance (b : Block) (value : Nat) : Decidable (b.Mem value) :=
  inferInstanceAs (Decidable (_ ∧ _))

/-- No bit of the base stands behind the prefix. -/
def Block.Aligned (b : Block) : Prop := b.base % 2 ^ (b.bits - b.prefixLength) = 0

instance (b : Block) : Decidable b.Aligned := inferInstanceAs (Decidable (_ = _))

/-- A block is the addresses that agree with its base on the prefix. -/
theorem Block.mem_iff {b : Block} (hb : b.Aligned) (value : Nat) :
    b.Mem value
      ↔ value / 2 ^ (b.bits - b.prefixLength) = b.base / 2 ^ (b.bits - b.prefixLength) := by
  unfold Block.Mem
  obtain ⟨m, hm⟩ := Nat.dvd_of_mod_eq_zero hb
  have hpos : 0 < 2 ^ (b.bits - b.prefixLength) := Nat.pow_pos (by decide)
  generalize 2 ^ (b.bits - b.prefixLength) = size at hm hpos ⊢
  rw [hm, Nat.mul_div_cancel_left m hpos, Nat.div_eq_iff hpos, Nat.mul_comm size m]
  omega

end IpText
