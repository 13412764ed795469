import MortgageAgent.Webhook.UrlGuard
import MortgageAgent.Lib.IpText

/-!
# What the target guard reads from an address

The guard compares the numbers that it reads from address texts. An address has many spellings:
groups with and without leading zeros, in both cases of letters, a `::` at any place, an IPv4 tail.
All of them are read as the one number that the text stands for.

* **`isIPv4Chars_iff`**, **`exists_v6`** — the texts the guard takes for addresses stand for some.
* **`ipv4ToInt_emod`** — the octets, shifted in on signed 32-bit integers, are the value.
* **`Front.normalize_groups`** — an IPv4 tail becomes two groups, and no group changes.
* **`ipv6Value`** — the value of an IPv6 text.
-/

namespace MortgageAgent.Webhook

open IpText

/-! ## IPv4 texts -/

theorem isV4Seg_iff {cs : List Char} :
    isV4Seg cs = true ↔ ∃ octet : Fin 256, cs = Nat.toDigits 10 octet := by
  rw [isV4Seg, Bool.and_eq_true, decide_eq_true_iff]
  constructor
  · rintro ⟨hint, hle⟩
    exact ⟨⟨_, Nat.lt_succ_of_le hle⟩, (toDigits_of_isInt hint).symm⟩
  · rintro ⟨octet, rfl⟩
    refine ⟨?_, ?_⟩
    · rw [Json.isInt, Json.isDigits_toDigits, Bool.true_and, Bool.or_eq_true, decide_eq_true_iff,
        decide_eq_true_iff]
      rcases Nat.eq_zero_or_pos octet with hzero | hpos
      · exact .inr (by rw [hzero, Nat.toDigits_zero])
      · exact .inl (Json.head_toDigits hpos)
    · rw [Nat.ofDigitChars_ten_toDigits]
      exact Nat.le_of_lt_succ octet.isLt

theorem isIPv4Chars_iff {cs : List Char} : isIPv4Chars cs = true ↔ ∃ q : Quad, cs = q.text := by
  rw [isIPv4Chars, Bool.and_eq_true, decide_eq_true_iff, List.all_eq_true]
  constructor
  · rintro ⟨hlength, hall⟩
    obtain ⟨s, t, u, v, hsegs⟩ := List.length_eq_four.mp hlength
    rw [hsegs] at hall
    obtain ⟨a, ha⟩ := isV4Seg_iff.mp (hall s (by simp))
    obtain ⟨b, hb⟩ := isV4Seg_iff.mp (hall t (by simp))
    obtain ⟨c, hc⟩ := isV4Seg_iff.mp (hall u (by simp))
    obtain ⟨d, hd⟩ := isV4Seg_iff.mp (hall v (by simp))
    refine ⟨⟨a, b, c, d⟩, ?_⟩
    have hjoin : ['.'].intercalate (cs.splitOn '.') = cs := List.intercalate_splitOn '.'
    rw [← hjoin, hsegs, ha, hb, hc, hd]
    rfl
  · rintro ⟨q, rfl⟩
    rw [q.splitOn_text]
    refine ⟨rfl, fun seg hseg => ?_⟩
    obtain ⟨octet, -, rfl⟩ := List.mem_map.mp hseg
    exact isV4Seg_iff.mpr ⟨octet, rfl⟩

theorem toInt32_emod (n : Int) : toInt32 n % 2 ^ 32 = n % 2 ^ 32 := Int.bmod_emod

/-- One more octet, while the number has 32 bits. -/
theorem shiftIn_emod {acc : Int} {n octet : Nat} (hacc : acc % 2 ^ 32 = n)
    (hlt : n * 2 ^ 8 + octet < 2 ^ 32) :
    (toInt32 (acc * 2 ^ 8) + (Nat.ofDigitChars 10 (Nat.toDigits 10 octet) 0 : Int)) % 2 ^ 32
      = (n * 2 ^ 8 + octet : Nat) := by
  have hmod := toInt32_emod (acc * 2 ^ 8)
  rw [Nat.ofDigitChars_ten_toDigits]
  omega

/-- **The number of an IPv4 text**, on 32 bits. -/
theorem ipv4ToInt_emod {address : String} {q : Quad} (h : address.toList = q.text) :
    ipv4ToInt address % 2 ^ 32 = (q.value : Int) := by
  rw [ipv4ToInt, h, q.splitOn_text, q.octets_eq, List.foldl_cons, List.foldl_cons,
    List.foldl_cons, List.foldl_cons, List.foldl_nil]
  obtain ⟨⟨a, ha⟩, ⟨b, hb⟩, ⟨c, hc⟩, ⟨d, hd⟩⟩ := q
  obtain ⟨hltTwo, hltThree, hltFour⟩ : a * 2 ^ 8 + b < 2 ^ 32
      ∧ (a * 2 ^ 8 + b) * 2 ^ 8 + c < 2 ^ 32
      ∧ ((a * 2 ^ 8 + b) * 2 ^ 8 + c) * 2 ^ 8 + d < 2 ^ 32 := by omega
  have hone : (toInt32 (0 * 2 ^ 8) + (Nat.ofDigitChars 10 (Nat.toDigits 10 a) 0 : Int)) % 2 ^ 32
      = (a : Nat) := by
    rw [Int.zero_mul, show toInt32 0 = 0 from rfl, Nat.ofDigitChars_ten_toDigits]
    omega
  have htwo := shiftIn_emod hone hltTwo
  have hthree := shiftIn_emod htwo hltThree
  have hvalue : (Quad.mk ⟨a, ha⟩ ⟨b, hb⟩ ⟨c, hc⟩ ⟨d, hd⟩).value
      = ((a * 2 ^ 8 + b) * 2 ^ 8 + c) * 2 ^ 8 + d := by
    unfold Quad.value Quad.high Quad.low
    dsimp only
    omega
  rw [hvalue]
  exact shiftIn_emod hthree hltFour

/-! ## The parts of an IPv6 text -/

theorem breakDoubleColon_cons {c : Char} (hc : c ≠ ':') (cs : List Char) :
    breakDoubleColon (c :: cs)
      = (breakDoubleColon cs).map fun sides => (c :: sides.1, sides.2) := by
  rw [breakDoubleColon]
  intro after hcolon
  exact absurd hcolon hc

theorem breakDoubleColon_colon {cs : List Char} (h : cs.head? ≠ some ':') :
    breakDoubleColon (':' :: cs)
      = (breakDoubleColon cs).map fun sides => (':' :: sides.1, sides.2) := by
  rw [breakDoubleColon]
  rintro after - rfl
  exact h rfl

theorem breakDoubleColon_append {seg : List Char} (h : ':' ∉ seg) (rest : List Char) :
    breakDoubleColon (seg ++ rest)
      = (breakDoubleColon rest).map fun sides => (seg ++ sides.1, sides.2) := by
  induction seg with
  | nil => simp
  | cons c seg ih =>
    obtain ⟨hc, hseg⟩ := List.ne_and_not_mem_of_not_mem_cons h
    rw [List.cons_append, breakDoubleColon_cons hc.symm, ih hseg, Option.map_map]
    rfl

theorem head_ne_colon {seg rest : List Char} (hne : seg ≠ []) (h : ':' ∉ seg) :
    (seg ++ rest).head? ≠ some ':' := by
  cases seg with
  | nil => exact absurd rfl hne
  | cons c seg =>
    rintro ⟨⟩
    exact h List.mem_cons_self

theorem head_groups_ne {quadLast : Bool} {cs : List Char} {groups : List Nat}
    (h : Groups quadLast cs groups) : cs.head? ≠ some ':' := by
  cases h with
  | one h => simpa using @head_ne_colon _ [] h.ne_nil (h.not_mem rfl)
  | quad q => simpa using @head_ne_colon _ [] (Groups.quad q rfl).ne_nil q.colon_not_mem
  | cons h => exact head_ne_colon h.ne_nil (h.not_mem rfl)

/-- Groups have no `::` among them, and none begins where they end. -/
theorem breakDoubleColon_groups {quadLast : Bool} {cs : List Char} {groups : List Nat}
    (h : Groups quadLast cs groups) (rest : List Char) :
    breakDoubleColon (cs ++ rest)
      = (breakDoubleColon rest).map fun sides => (cs ++ sides.1, sides.2) := by
  induction h with
  | one h => exact breakDoubleColon_append (h.not_mem rfl) rest
  | quad q => exact breakDoubleColon_append q.colon_not_mem rest
  | @cons cs rest' group groups h hrest ih =>
    have hhead : (rest' ++ rest).head? ≠ some ':' := by
      rw [List.head?_append_of_ne_nil _ hrest.ne_nil]
      exact head_groups_ne hrest
    rw [List.append_assoc, List.cons_append, breakDoubleColon_append (h.not_mem rfl),
      breakDoubleColon_colon hhead, ih, Option.map_map, Option.map_map]
    simp [Function.comp_def]

theorem breakDoubleColon_side {quadLast : Bool} {cs : List Char} {groups : List Nat}
    (h : Side quadLast cs groups) (rest : List Char) :
    breakDoubleColon (cs ++ rest)
      = (breakDoubleColon rest).map fun sides => (cs ++ sides.1, sides.2) := by
  cases h with
  | empty => simp
  | groups h => exact breakDoubleColon_groups h rest

/-! ## The groups of an IPv6 text -/

theorem not_whitespace_of_hex {c : Char} (h : isHexDigit c = true) : isJsWhitespace c = false := by
  obtain ⟨digit, hdigit⟩ := Option.isSome_iff_exists.mp h
  obtain ⟨-, hlow, hhigh⟩ := hexDigit_bounds hdigit
  simp [isJsWhitespace, ← UInt32.toNat_inj, UInt32.le_iff_toNat_le]
  omega

theorem ofHexChars_eq {cs : List Char} {n : Nat} (h : ofHex 0 cs = some n) :
    ofHexChars cs = n := by
  have hfold : ∀ (cs : List Char) (acc : Nat), ofHex acc cs = some n →
      cs.foldl (fun acc c => acc * 16 + (Json.hexDigitValue? c).getD 0) acc = n := by
    intro cs
    induction cs with
    | nil =>
      rintro acc ⟨⟩
      rfl
    | cons c cs ih =>
      intro acc hcs
      obtain ⟨digit, hdigit, hrest⟩ := Option.bind_eq_some_iff.mp hcs
      rw [List.foldl_cons, hdigit]
      exact ih _ hrest
  exact hfold cs 0 h

theorem parseInt16_of_isGroup {cs : List Char} {group : Nat} (h : IsGroup cs group) :
    parseInt16 cs = some (group : Int) := by
  have hhex : ∀ c ∈ cs, isHexDigit c = true := h.isHex
  have hspace : cs.dropWhile isJsWhitespace = cs := by
    cases cs with
    | nil => rfl
    | cons c cs =>
      rw [List.dropWhile_cons_of_neg]
      rw [not_whitespace_of_hex (hhex c List.mem_cons_self)]
      decide
  have hsign : ∀ c, isHexDigit c = false → cs.head? ≠ some c := by
    intro c hc hhead
    rw [hhex c (List.mem_of_head? hhead)] at hc
    cases hc
  have hx : ∀ c d, isHexDigit d = false → cs.take 2 ≠ [c, d] := by
    intro c d hd htake
    have hmem : d ∈ cs.take 2 := by simp [htake]
    rw [hhex d (List.mem_of_mem_take hmem)] at hd
    cases hd
  have hdigits : cs.takeWhile isHexDigit = cs := by
    simpa using (Json.while_append [] hhex (by simp)).1
  have hne : cs.isEmpty = false := by simpa using h.ne_nil
  simp [parseInt16, hspace, hsign '-' rfl, hsign '+' rfl, hx '0' 'x' rfl, hx '0' 'X' rfl, hdigits,
    hne, ofHexChars_eq h.value]

theorem groupsOf_of_groups {cs : List Char} {groups : List Nat} (h : Groups false cs groups) :
    List.Forall₂ IsGroup (groupsOf cs) groups := by
  induction h with
  | one h =>
    rw [groupsOf, List.splitOn_eq_singleton (h.not_mem rfl)]
    simpa [h.ne_nil] using h
  | quad _ h => cases h
  | cons h _ ih =>
    rw [groupsOf, List.splitOn_append_cons_self_of_not_mem (h.not_mem rfl), List.filter_cons_of_pos]
    · exact .cons h ih
    · simpa using h.ne_nil

theorem groupsOf_of_side {cs : List Char} {groups : List Nat} (h : Side false cs groups) :
    List.Forall₂ IsGroup (groupsOf cs) groups := by
  cases h with
  | empty => exact .nil
  | groups h => exact groupsOf_of_groups h

theorem foldlM_groups {segs : List (List Char)} {groups : List Nat}
    (h : List.Forall₂ IsGroup segs groups) (acc : Nat) :
    segs.foldlM (fun (acc : Int) seg => (parseInt16 seg).map fun value => acc * 2 ^ 16 + value) acc
      = some ((groups.foldl (fun acc group => acc * 2 ^ 16 + group) acc : Nat) : Int) := by
  induction h generalizing acc with
  | nil => rfl
  | @cons seg group segs groups hseg _ ih =>
    rw [List.foldlM_cons, parseInt16_of_isGroup hseg, List.foldl_cons, ← ih]
    rfl

/-! ## The IPv4 tail -/

theorem hexDigitValue?_digitChar : ∀ n < 16, Json.hexDigitValue? n.digitChar = some n := by decide

/-- Two hexadecimal digits for each octet. -/
theorem hexOctet_eq (octet : Fin 256) :
    hexOctet (Nat.toDigits 10 octet)
      = [(octet.val / 16).digitChar, (octet.val % 16).digitChar] := by
  have hlt := octet.isLt
  rw [hexOctet, Nat.ofDigitChars_ten_toDigits]
  rcases Nat.lt_or_ge octet.val 16 with hsmall | hlarge
  · rw [Nat.toDigits_of_lt_base hsmall, Nat.div_eq_of_lt hsmall, Nat.mod_eq_of_lt hsmall]
    rfl
  · rw [Nat.toDigits_of_base_le (by decide) hlarge,
      Nat.toDigits_of_lt_base (show octet.val / 16 < 16 by omega)]
    rfl

theorem isGroup_octets (a b : Fin 256) :
    IsGroup (hexOctet (Nat.toDigits 10 a) ++ hexOctet (Nat.toDigits 10 b))
      (a.val * 2 ^ 8 + b.val) := by
  have ha := a.isLt
  have hb := b.isLt
  rw [hexOctet_eq, hexOctet_eq]
  refine ⟨by simp, by simp, ?_⟩
  simp only [ofHex, List.cons_append, List.nil_append,
    hexDigitValue?_digitChar _ (show a.val / 16 < 16 by omega),
    hexDigitValue?_digitChar _ (show a.val % 16 < 16 by omega),
    hexDigitValue?_digitChar _ (show b.val / 16 < 16 by omega),
    hexDigitValue?_digitChar _ (show b.val % 16 < 16 by omega), Option.bind_some,
    Option.some.injEq]
  omega

/-- What the IPv4 tail is rewritten to. -/
def quadGroups (q : Quad) : List Char :=
  hexOctet (Nat.toDigits 10 q.a) ++ hexOctet (Nat.toDigits 10 q.b)
    ++ ':' :: (hexOctet (Nat.toDigits 10 q.c) ++ hexOctet (Nat.toDigits 10 q.d))

theorem groups_quadGroups (q : Quad) : Groups false (quadGroups q) [q.high, q.low] :=
  .cons (isGroup_octets q.a q.b) (.one (isGroup_octets q.c q.d))

theorem ipv4Tail_of_no_point {cs : List Char} (h : '.' ∉ cs) : ipv4Tail cs = none := by
  induction cs with
  | nil => rfl
  | cons c cs ih =>
    rw [ipv4Tail, List.splitOn_eq_singleton h]
    simpa using ih (List.not_mem_of_not_mem_cons h)

theorem ipv4Tail_text (q : Quad) : ipv4Tail q.text = some q.text := by
  have hsplit := q.splitOn_text
  have hne := (Groups.quad q rfl).ne_nil
  have hdigits : q.octets.all Json.isDigits = true := by
    rw [List.all_eq_true]
    intro octet hmem
    obtain ⟨n, -, rfl⟩ := List.mem_map.mp hmem
    exact Json.isDigits_toDigits n
  generalize q.text = cs at hsplit hne ⊢
  cases cs with
  | nil => exact absurd rfl hne
  | cons c cs =>
    rw [ipv4Tail, hsplit, hdigits]
    rfl

/-- The tail begins behind the last colon: no text with a colon is four numbers. -/
theorem ipv4Tail_append (front : List Char) (q : Quad) :
    ipv4Tail (front ++ ':' :: q.text) = some q.text := by
  have hcolon : ∀ cs : List Char, ':' ∈ cs → (cs.splitOn '.').all Json.isDigits = false := by
    intro cs hmem
    have hjoin : ['.'].intercalate (cs.splitOn '.') = cs := List.intercalate_splitOn '.'
    rw [← hjoin] at hmem
    rw [List.all_eq_false]
    rcases mem_intercalate hmem with hsep | ⟨seg, hseg, hmem⟩
    · cases hsep
    · refine ⟨seg, hseg, fun hdigits => ?_⟩
      rw [Json.isDigits, Bool.and_eq_true, List.all_eq_true] at hdigits
      have hdigit := hdigits.2 ':' hmem
      cases hdigit
  induction front with
  | nil =>
    rw [List.nil_append, ipv4Tail, hcolon _ List.mem_cons_self, Bool.and_false]
    exact ipv4Tail_text q
  | cons c front ih =>
    rw [List.cons_append, ipv4Tail, hcolon _ (by simp), Bool.and_false]
    exact ih

/-- Where the groups of an address may stand in its text: at its start, or behind a colon. -/
def Front (front : List Char) : Prop := '.' ∉ front ∧ (front = [] ∨ ∃ cs, front = cs ++ [':'])

theorem Front.normalize_text {front : List Char} (h : Front front) (q : Quad) :
    normalizeIpv4Tail (front ++ q.text) = front ++ quadGroups q := by
  have htail : ipv4Tail (front ++ q.text) = some q.text := by
    rcases h.2 with rfl | ⟨cs, rfl⟩
    · exact ipv4Tail_text q
    · rw [List.append_assoc]
      exact ipv4Tail_append cs q
  have htake : (front ++ q.text).take ((front ++ q.text).length - q.text.length) = front := by
    rw [List.length_append, Nat.add_sub_cancel, List.take_left]
  rw [normalizeIpv4Tail, htail]
  dsimp only
  rw [htake, q.splitOn_text, q.octets_eq]
  simp [quadGroups]

theorem Front.normalize_self {front cs : List Char} (h : Front front) (hcs : '.' ∉ cs) :
    normalizeIpv4Tail (front ++ cs) = front ++ cs := by
  have hpoint : '.' ∉ front ++ cs := by simp [h.1, hcs]
  rw [normalizeIpv4Tail, ipv4Tail_of_no_point hpoint]

/-- **The IPv4 tail becomes two groups**, and the groups stay what they are. -/
theorem Front.normalize_groups {front cs : List Char} {groups : List Nat} (hfront : Front front)
    (h : Groups true cs groups) :
    ∃ cs', normalizeIpv4Tail (front ++ cs) = front ++ cs' ∧ Groups false cs' groups := by
  induction h generalizing front with
  | one h => exact ⟨_, hfront.normalize_self (h.not_mem rfl), .one h⟩
  | quad q => exact ⟨quadGroups q, hfront.normalize_text q, groups_quadGroups q⟩
  | @cons cs rest group groups h _ ih =>
    have hnext : Front (front ++ cs ++ [':']) := by
      refine ⟨?_, .inr ⟨front ++ cs, rfl⟩⟩
      simp [hfront.1, h.not_mem (x := '.') rfl]
    obtain ⟨rest', hnormalize, hgroups⟩ := ih hnext
    refine ⟨cs ++ ':' :: rest', ?_, .cons h hgroups⟩
    simpa using hnormalize

theorem Front.normalize_side {front cs : List Char} {groups : List Nat} (hfront : Front front)
    (h : Side true cs groups) :
    ∃ cs', normalizeIpv4Tail (front ++ cs) = front ++ cs' ∧ Side false cs' groups := by
  cases h with
  | empty => exact ⟨[], hfront.normalize_self (by simp), .empty⟩
  | groups h =>
    obtain ⟨cs', hnormalize, hgroups⟩ := hfront.normalize_groups h
    exact ⟨cs', hnormalize, .groups hgroups⟩

/-! ## The number of an IPv6 text -/

theorem point_not_mem {cs : List Char} {groups : List Nat} (h : Groups false cs groups) :
    '.' ∉ cs := by
  induction h with
  | one h => exact h.not_mem rfl
  | quad _ h => cases h
  | cons h _ ih => simp [h.not_mem (x := '.') rfl, ih]

theorem point_not_mem_side {cs : List Char} {groups : List Nat} (h : Side false cs groups) :
    '.' ∉ cs := by
  cases h with
  | empty => simp
  | groups h => exact point_not_mem h

theorem isGroup_zero : IsGroup ['0'] 0 := ⟨by simp, by simp, rfl⟩

theorem forall₂_zeros (n : Nat) :
    List.Forall₂ IsGroup (List.replicate n ['0']) (List.replicate n 0) := by
  induction n with
  | zero => exact .nil
  | succ n ih => exact .cons isGroup_zero ih

theorem ipv6Groups_full {cs : List Char} {groups : List Nat} (h : Groups false cs groups)
    (hlength : groups.length = 8) : List.Forall₂ IsGroup (ipv6Groups cs) groups := by
  have hgroups := groupsOf_of_groups h
  have hbreak : breakDoubleColon cs = none := by
    simpa [breakDoubleColon] using breakDoubleColon_groups h []
  have height : (groupsOf cs).length = 8 := hgroups.length_eq.trans hlength
  simpa [ipv6Groups, hbreak, height, show groupsOf [] = [] from rfl] using hgroups

theorem ipv6Groups_gap {before after : List Char} {heads tails : List Nat}
    (hbefore : Side false before heads) (hafter : Side false after tails) :
    List.Forall₂ IsGroup (ipv6Groups (before ++ ':' :: ':' :: after))
      (heads ++ List.replicate (8 - heads.length - tails.length) 0 ++ tails) := by
  have hheads := groupsOf_of_side hbefore
  have htails := groupsOf_of_side hafter
  have hbreak : breakDoubleColon (before ++ ':' :: ':' :: after) = some (before, after) := by
    rw [breakDoubleColon_side hbefore]
    simp [breakDoubleColon]
  have hlast : breakDoubleColon after = none := by
    simpa [breakDoubleColon] using breakDoubleColon_side hafter []
  rw [ipv6Groups, hbreak]
  dsimp only
  rw [hlast]
  dsimp only
  rw [hheads.length_eq, htails.length_eq]
  exact List.rel_append (List.rel_append hheads (forall₂_zeros _)) htails

/-- **The number of an IPv6 text**, whichever way it is spelled. -/
theorem ipv6Value {address : String} {value : Nat} (h : V6 address.toList value) :
    ipv6ToBigInt address = some (value : Int) := by
  have hfold : ∀ {segs : List (List Char)} {groups : List Nat},
      List.Forall₂ IsGroup segs groups →
      segs.foldlM (fun (acc : Int) seg => (parseInt16 seg).map fun value => acc * 2 ^ 16 + value) 0
        = some ((groupsValue groups : Nat) : Int) := fun hsegs => foldlM_groups hsegs 0
  rw [ipv6ToBigInt]
  cases h with
  | full hgroups hlength =>
    have hfront : Front [] := ⟨by simp, .inl rfl⟩
    obtain ⟨cs', hnormalize, hgroups'⟩ := hfront.normalize_groups hgroups
    rw [List.nil_append, List.nil_append] at hnormalize
    rw [hnormalize]
    exact hfold (ipv6Groups_full hgroups' hlength)
  | @gap before after heads tails hcs hbefore hafter hlength =>
    have hfront : Front (before ++ [':', ':']) := by
      refine ⟨by simp [point_not_mem_side hbefore], .inr ⟨before ++ [':'], ?_⟩⟩
      simp
    obtain ⟨after', hnormalize, hafter'⟩ := hfront.normalize_side hafter
    simp only [List.append_assoc, List.cons_append, List.nil_append] at hnormalize
    rw [hcs, hnormalize]
    exact hfold (ipv6Groups_gap hbefore hafter')

/-! ## The texts the guard takes for addresses -/

theorem exists_isGroup {cs : List Char} (h : isV6Seg cs = true) : ∃ group, IsGroup cs group := by
  rw [isV6Seg, Bool.and_eq_true, Bool.and_eq_true, decide_eq_true_iff, List.all_eq_true] at h
  obtain ⟨⟨hne, hlength⟩, hhex⟩ := h
  have hvalue : ∀ (cs : List Char) (acc : Nat), (∀ c ∈ cs, isHexDigit c = true) →
      ∃ n, ofHex acc cs = some n := by
    intro cs
    induction cs with
    | nil => exact fun acc _ => ⟨acc, rfl⟩
    | cons c cs ih =>
      intro acc hall
      obtain ⟨hc, hcs⟩ := List.forall_mem_cons.mp hall
      obtain ⟨digit, hdigit⟩ := Option.isSome_iff_exists.mp hc
      rw [ofHex, hdigit]
      exact ih _ hcs
  obtain ⟨group, hgroup⟩ := hvalue cs 0 hhex
  exact ⟨group, by simpa using hne, hlength, hgroup⟩

theorem exists_groups {quadLast : Bool} {segs : List (List Char)} {n : Nat} (hne : segs ≠ [])
    (h : v6GroupCount quadLast segs = some n) :
    ∃ groups, Groups quadLast ([':'].intercalate segs) groups ∧ groups.length = n := by
  induction segs generalizing n with
  | nil => exact absurd rfl hne
  | cons seg segs ih =>
    cases segs with
    | nil =>
      rw [List.intercalate_singleton]
      rw [v6GroupCount] at h
      split at h
      · next hseg =>
        cases h
        obtain ⟨group, hgroup⟩ := exists_isGroup hseg
        exact ⟨[group], .one hgroup, rfl⟩
      · split at h
        · next hquad =>
          cases h
          obtain ⟨hlast, hseg⟩ := Bool.and_eq_true_iff.mp hquad
          obtain ⟨q, rfl⟩ := isIPv4Chars_iff.mp hseg
          exact ⟨[q.high, q.low], .quad q hlast, rfl⟩
        · cases h
    | cons next segs =>
      rw [v6GroupCount] at h
      · split at h
        · next hseg =>
          obtain ⟨m, hm, rfl⟩ := Option.map_eq_some_iff.mp h
          obtain ⟨group, hgroup⟩ := exists_isGroup hseg
          obtain ⟨groups, hgroups, hlength⟩ := ih (List.cons_ne_nil _ _) hm
          refine ⟨group :: groups, ?_, by rw [List.length_cons, hlength]⟩
          rw [List.intercalate_cons_cons, List.append_assoc]
          exact .cons hgroup hgroups
        · cases h
      · rintro ⟨⟩

theorem exists_side {quadLast : Bool} {cs : List Char} {n : Nat}
    (h : v6SideCount quadLast cs = some n) :
    ∃ groups, Side quadLast cs groups ∧ groups.length = n := by
  rw [v6SideCount] at h
  split at h
  · next hempty =>
    cases h
    rw [List.isEmpty_iff.mp hempty]
    exact ⟨[], .empty, rfl⟩
  · obtain ⟨groups, hgroups, hlength⟩ := exists_groups (List.splitOn_ne_nil ':' cs) h
    rw [List.intercalate_splitOn] at hgroups
    exact ⟨groups, .groups hgroups, hlength⟩

theorem eq_of_breakDoubleColon {cs before after : List Char}
    (h : breakDoubleColon cs = some (before, after)) : cs = before ++ ':' :: ':' :: after := by
  induction cs using breakDoubleColon.induct generalizing before with
  | case1 after' =>
    cases h
    rfl
  | case2 c cs hne ih =>
    rw [breakDoubleColon] at h
    · obtain ⟨⟨before', after'⟩, hrest, heq⟩ := Option.map_eq_some_iff.mp h
      cases heq
      rw [ih hrest, List.cons_append]
    · exact hne
  | case3 => cases h

/-- **A text the guard takes for an IPv6 address** stands for one. -/
theorem exists_v6 {cs : List Char} (h : isV6Chars cs = true) : ∃ value, V6 cs value := by
  rw [isV6Chars] at h
  split at h
  · obtain ⟨groups, hgroups, hlength⟩ :=
      exists_groups (List.splitOn_ne_nil ':' cs) (of_decide_eq_true h)
    rw [List.intercalate_splitOn] at hgroups
    exact ⟨_, .full hgroups hlength⟩
  · next before after hbreak =>
    split at h
    · next m n hm hn =>
      obtain ⟨heads, hheads, rfl⟩ := exists_side hm
      obtain ⟨tails, htails, rfl⟩ := exists_side hn
      exact ⟨_, .gap (eq_of_breakDoubleColon hbreak) hheads htails (of_decide_eq_true h)⟩
    · cases h

/-- A text without a `%` is taken for an address without a zone. -/
theorem isV6Chars_of_isIPv6 {address : String} (hzone : '%' ∉ address.toList)
    (h : isIPv6 address = true) : isV6Chars address.toList = true := by
  have htake : address.toList.takeWhile (· ≠ '%') = address.toList := by
    have hall : ∀ c ∈ address.toList, decide (c ≠ '%') = true := by
      intro c hc
      refine decide_eq_true fun heq => hzone ?_
      rwa [heq] at hc
    simpa using (Json.while_append [] hall (by simp)).1
  rw [isIPv6, Bool.and_eq_true, htake] at h
  exact h.1

/-- An IPv6 text stands for one number: the one that is read from it. -/
theorem v6_unique {cs : List Char} {value value' : Nat} (h : V6 cs value) (h' : V6 cs value') :
    value = value' := by
  have hread {n : Nat} (h : V6 cs n) : ipv6ToBigInt (String.ofList cs) = some (n : Int) :=
    ipv6Value (by rwa [String.toList_ofList])
  exact Int.ofNat_inj.mp (Option.some.inj ((hread h).symm.trans (hread h')))

/-- **Every IPv6 text is read as the address it stands for**, a number of 128 bits. -/
theorem ipv6ToBigInt_eq_iff {address : String} (hzone : '%' ∉ address.toList)
    (h : isIPv6 address = true) :
    ∃ value : Nat, value < 2 ^ 128 ∧ ipv6ToBigInt address = some (value : Int)
      ∧ ∀ n, V6 address.toList n ↔ n = value := by
  obtain ⟨value, hvalue⟩ := exists_v6 (isV6Chars_of_isIPv6 hzone h)
  refine ⟨value, hvalue.lt, ipv6Value hvalue, fun n => ⟨fun hn => v6_unique hn hvalue, ?_⟩⟩
  rintro rfl
  exact hvalue

/-- With a `::`, letters of both cases and an IPv4 tail. -/
theorem v6_mixed_text : V6 "64:fF9B::192.0.2.33".toList 0x64ff9b0000000000000000c0000221 := by
  obtain ⟨value, -, hread, hiff⟩ :=
    @ipv6ToBigInt_eq_iff "64:fF9B::192.0.2.33" (by decide) (by decide +kernel)
  have hvalue : ipv6ToBigInt "64:fF9B::192.0.2.33"
      = some ((0x64ff9b0000000000000000c0000221 : Nat) : Int) := by decide +kernel
  rw [hiff]
  exact Int.ofNat_inj.mp (Option.some.inj (hvalue.symm.trans hread))

end MortgageAgent.Webhook
