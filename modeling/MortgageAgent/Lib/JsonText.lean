import MortgageAgent.Lib.Json

/-!
# The canonical text can be cut in one way

The text of a JSON value ends where it ends whatever follows it, so the text of an array
determines the texts of its items, and the text of an object the text under each of its keys.

* **`Json.induction`** — induction with one hypothesis for all items, one for all fields.
* **`canonical_cut`** — two texts followed by anything that cannot continue a number agree as
  soon as the whole does.
* **`canonical_str_inj`**, **`canonical_arr_inj`**, **`canonical_obj_field`** — what equal texts
  say about the values.
-/

namespace Json

@[elab_as_elim]
theorem induction {P : Json → Prop} (null : P .null) (bool : ∀ b, P (.bool b))
    (num : ∀ n, P (.num n)) (str : ∀ s, P (.str s))
    (arr : ∀ items, (∀ x ∈ items, P x) → P (.arr items))
    (obj : ∀ fields, (∀ p ∈ fields, P p.2) → P (.obj fields)) (a : Json) : P a :=
  @Json.rec P (fun items => ∀ x ∈ items, P x) (fun fields => ∀ p ∈ fields, P p.2)
    (fun p => P p.2) null bool num str arr obj (by simp)
    (fun _ _ hx hxs => List.forall_mem_cons.mpr ⟨hx, hxs⟩) (by simp)
    (fun _ _ hp hps => List.forall_mem_cons.mpr ⟨hp, hps⟩) (fun _ _ h => h) a

/-! ## Numbers -/

theorem digits_eq (n : Nat) : (toString n).toList = Nat.toDigits 10 n := by
  simp [Nat.toString_eq_repr, Nat.repr_eq_ofList_toDigits]

theorem isDigit_of_mem_toString {n : Nat} {c : Char} (h : c ∈ (toString n).toList) :
    c.isDigit = true := by
  rw [digits_eq] at h
  exact Nat.isDigit_of_mem_toDigits (by decide) (by decide) h

theorem not_mem_toString {c : Char} (hc : c.isDigit = false) (n : Nat) :
    c ∉ (toString n).toList := by
  intro hmem
  rw [isDigit_of_mem_toString hmem] at hc
  cases hc

theorem toString_inj {m n : Nat} (h : toString m = toString n) : m = n := by
  have hdigits := congrArg String.toList h
  rw [digits_eq, digits_eq] at hdigits
  rw [← Nat.ofDigitChars_ten_toDigits (n := m), hdigits, Nat.ofDigitChars_ten_toDigits]

/-- The characters of a number. -/
def isNumberChar (c : Char) : Bool :=
  c.isDigit || c == '-' || c == '+' || c == '.' || c == 'e'

/-- Nothing here continues a number. -/
def Stops (rest : List Char) : Prop :=
  ∀ c r, rest = c :: r → isNumberChar c = false

theorem stops_cons {c : Char} (h : isNumberChar c = false) (r : List Char) : Stops (c :: r) := by
  rintro c' r' ⟨⟩
  exact h

theorem digits_numberChar (n : Nat) : ∀ c ∈ (toString n).toList, isNumberChar c = true := by
  intro c hc
  simp [isNumberChar, isDigit_of_mem_toString hc]

theorem digits_ne_nil (n : Nat) : (toString n).toList ≠ [] := by
  rw [digits_eq]
  exact Nat.toDigits_ne_nil

/-- The text of a number is not empty and has only characters of numbers. -/
theorem textOfDigits_numberChar {s : List Char} (hs : ∀ c ∈ s, isNumberChar c = true) (n : Int) :
    ∀ c ∈ JsDecimal.textOfDigits s n, isNumberChar c = true := by
  intro c hc
  have hdot : isNumberChar '.' = true := by decide
  have hzero : isNumberChar '0' = true := by decide
  have hexponent (e : Int) : ∀ c ∈ 'e' :: (if 0 ≤ e then '+' else '-') :: (toString e.natAbs).toList,
      isNumberChar c = true := by
    intro c hc
    rcases List.mem_cons.mp hc with rfl | hc
    · decide
    rcases List.mem_cons.mp hc with rfl | hc
    · split <;> decide
    · exact digits_numberChar _ c hc
  unfold JsDecimal.textOfDigits at hc
  dsimp only at hc
  split at hc
  · rcases List.mem_append.mp hc with hc | hc
    · exact hs c hc
    · rw [(List.mem_replicate.mp hc).2]; exact hzero
  split at hc
  · rcases List.mem_append.mp hc with hc | hc
    · exact hs c (List.mem_of_mem_take hc)
    · rcases List.mem_cons.mp hc with rfl | hc
      · exact hdot
      · exact hs c (List.mem_of_mem_drop hc)
  split at hc
  · rcases List.mem_cons.mp hc with rfl | hc
    · exact hzero
    rcases List.mem_cons.mp hc with rfl | hc
    · exact hdot
    rcases List.mem_append.mp hc with hc | hc
    · rw [(List.mem_replicate.mp hc).2]; exact hzero
    · exact hs c hc
  · split at hc
    · exact hexponent _ c hc
    · rcases List.mem_cons.mp hc with rfl | hc
      · exact hs c (by simp)
      · exact hexponent _ c hc
    · rcases List.mem_cons.mp hc with rfl | hc
      · exact hs c (by simp)
      rcases List.mem_cons.mp hc with rfl | hc
      · exact hdot
      rcases List.mem_append.mp hc with hc | hc
      · exact hs c (by simp [hc])
      · exact hexponent _ c hc

theorem number_numberChar (n : JsDecimal) : ∀ c ∈ n.text.toList, isNumberChar c = true := by
  intro c hc
  have hdigits := textOfDigits_numberChar (digits_numberChar n.mantissa.natAbs)
    (n.exponent + (toString n.mantissa.natAbs).toList.length)
  unfold JsDecimal.text at hc
  split at hc
  · obtain rfl : c = '0' := by simpa using hc
    decide
  · rw [String.toList_ofList] at hc
    split at hc
    · rcases List.mem_cons.mp hc with rfl | hc
      · decide
      · exact hdigits c hc
    · exact hdigits c hc

/-- Two numbers followed by something that stops them end at the same place. -/
theorem numberChars_cut {t u r r' : List Char} (ht : ∀ c ∈ t, isNumberChar c = true)
    (hu : ∀ c ∈ u, isNumberChar c = true) (hr : Stops r) (hr' : Stops r')
    (h : t ++ r = u ++ r') : t = u ∧ r = r' := by
  induction t generalizing u with
  | nil =>
    cases u with
    | nil => exact ⟨rfl, h⟩
    | cons c u => exact absurd (hu c (by simp)) (by simp [hr c (u ++ r') h])
  | cons c t ih =>
    cases u with
    | nil => exact absurd (ht c (by simp)) (by simp [hr' c (t ++ r) h.symm])
    | cons d u =>
      rw [List.cons_append, List.cons_append, List.cons.injEq] at h
      obtain ⟨rfl, h⟩ := h
      obtain ⟨rfl, rfl⟩ := ih (fun x hx => ht x (by simp [hx])) (fun x hx => hu x (by simp [hx])) h
      exact ⟨rfl, rfl⟩

/-! ## Strings -/

/-- The value of a hexadecimal digit, as `hexDigit` writes it. -/
def hexValue (c : Char) : Nat := "0123456789abcdef".toList.idxOf c

theorem hexValue_hexDigit : ∀ n < 16, hexValue (hexDigit n) = n := by decide

/-- Reads one character of a string literal. -/
def unquoteChar : List Char → Option (Char × List Char)
  | '\\' :: 'u' :: '0' :: '0' :: a :: b :: rest =>
    some (Char.ofNat (16 * hexValue a + hexValue b), rest)
  | '\\' :: 'b' :: rest => some ('\x08', rest)
  | '\\' :: 'f' :: rest => some ('\x0c', rest)
  | '\\' :: 'n' :: rest => some ('\n', rest)
  | '\\' :: 'r' :: rest => some ('\r', rest)
  | '\\' :: 't' :: rest => some ('\t', rest)
  | '\\' :: c :: rest => some (c, rest)
  | c :: rest => some (c, rest)
  | [] => none

theorem unquoteChar_quoteChar (c : Char) (rest : List Char) :
    unquoteChar (quoteChar c ++ rest) = some (c, rest) := by
  unfold quoteChar
  split
  · next h => subst h; rfl
  split
  · next h => subst h; rfl
  split
  · next h => subst h; rfl
  split
  · next h => subst h; rfl
  split
  · next h => subst h; rfl
  split
  · next h => subst h; rfl
  split
  · next h => subst h; rfl
  split
  · next h =>
    have hc : 16 * hexValue (hexDigit (c.toNat / 16)) + hexValue (hexDigit (c.toNat % 16))
        = c.toNat := by
      rw [hexValue_hexDigit _ (by omega), hexValue_hexDigit _ (by omega)]
      omega
    simp only [List.cons_append, List.nil_append, unquoteChar, hc, Char.ofNat_toNat]
  · next hslash _ _ _ _ _ _ =>
    simp only [List.cons_append, List.nil_append]
    rw [unquoteChar.eq_def]
    split <;> simp_all

/-- A character of a literal never reads as its end. -/
theorem quoteChar_ne_quote (c : Char) (rest rest' : List Char) :
    quoteChar c ++ rest ≠ '"' :: rest' := by
  intro h
  unfold quoteChar at h
  grind

/-- The rest of a literal after its opening quote. -/
def quoteBody (cs : List Char) : List Char := cs.flatMap quoteChar ++ ['"']

theorem quote_toList (s : String) : (quote s).toList = '"' :: quoteBody s.toList := by
  simp [quote, quoteBody]

theorem quoteBody_cut {cs ds r r' : List Char} (h : quoteBody cs ++ r = quoteBody ds ++ r') :
    cs = ds ∧ r = r' := by
  induction cs generalizing ds with
  | nil =>
    cases ds with
    | nil => exact ⟨rfl, by simpa [quoteBody] using h⟩
    | cons d ds =>
      simp only [quoteBody, List.flatMap_nil, List.nil_append, List.flatMap_cons,
        List.append_assoc] at h
      exact absurd h.symm (quoteChar_ne_quote d _ _)
  | cons c cs ih =>
    cases ds with
    | nil =>
      simp only [quoteBody, List.flatMap_nil, List.nil_append, List.flatMap_cons,
        List.append_assoc] at h
      exact absurd h (quoteChar_ne_quote c _ _)
    | cons d ds =>
      simp only [quoteBody, List.flatMap_cons, List.append_assoc] at h
      -- reading one character off both sides
      have hread := congrArg unquoteChar h
      rw [unquoteChar_quoteChar, unquoteChar_quoteChar, Option.some.injEq, Prod.mk.injEq] at hread
      obtain ⟨rfl, hrest⟩ := hread
      obtain ⟨rfl, rfl⟩ := ih (by simpa [quoteBody] using hrest)
      exact ⟨rfl, rfl⟩

theorem quote_cut {s t : String} {r r' : List Char}
    (h : (quote s).toList ++ r = (quote t).toList ++ r') : s = t ∧ r = r' := by
  rw [quote_toList, quote_toList, List.cons_append, List.cons_append, List.cons.injEq] at h
  obtain ⟨hst, rfl⟩ := quoteBody_cut h.2
  exact ⟨String.toList_inj.mp hst, rfl⟩

/-! ## Lists of texts -/

/-- The texts of a list, separated by commas. -/
theorem intercalate_eq_flatMap (t : List Char) (ts : List (List Char)) :
    [','].intercalate (t :: ts) = t ++ ts.flatMap (',' :: ·) := by
  induction ts generalizing t with
  | nil => simp
  | cons u us ih => rw [List.intercalate_cons_cons, ih]; simp

/-- No two texts of the lists can be cut in different ways. -/
def CutApart (ts us : List (List Char)) : Prop :=
  ∀ t ∈ ts, ∀ u ∈ us, ∀ r r', Stops r → Stops r' → t ++ r = u ++ r' → t = u ∧ r = r'

/-- What follows an item: a comma or the closing bracket. -/
theorem stops_items {close : Char} (hstop : isNumberChar close = false) (vs : List (List Char))
    (r : List Char) : Stops (vs.flatMap (',' :: ·) ++ close :: r) := by
  cases vs with
  | nil => exact stops_cons hstop r
  | cons v vs => exact stops_cons (by decide) _

theorem CutApart.tail {t u : List Char} {ts us : List (List Char)}
    (h : CutApart (t :: ts) (u :: us)) : CutApart ts us :=
  fun t' ht u' hu => h t' (List.mem_cons_of_mem _ ht) u' (List.mem_cons_of_mem _ hu)

theorem flatMap_cut {close : Char} (hclose : close ≠ ',') (hstop : isNumberChar close = false)
    {ts us : List (List Char)} (hcut : CutApart ts us) {r r' : List Char}
    (h : ts.flatMap (',' :: ·) ++ close :: r = us.flatMap (',' :: ·) ++ close :: r') :
    ts = us ∧ r = r' := by
  induction ts generalizing us with
  | nil =>
    cases us with
    | nil => exact ⟨rfl, by simpa using h⟩
    | cons u us => exact absurd (List.cons.inj h).1 hclose
  | cons t ts ih =>
    cases us with
    | nil => exact absurd (List.cons.inj h).1.symm hclose
    | cons u us =>
      simp only [List.flatMap_cons, List.cons_append, List.cons.injEq, true_and,
        List.append_assoc] at h
      obtain ⟨rfl, htail⟩ := hcut t (by simp) u (by simp) _ _ (stops_items hstop ts r)
        (stops_items hstop us r') h
      obtain ⟨rfl, rfl⟩ := ih hcut.tail htail
      exact ⟨rfl, rfl⟩

/-- Bracketed lists of texts that do not begin with the bracket. -/
theorem intercalate_cut {close : Char} (hclose : close ≠ ',')
    (hstop : isNumberChar close = false) {ts us : List (List Char)} (hcut : CutApart ts us)
    (hts : ∀ t ∈ ts, ∀ x y, t ++ x ≠ close :: y) (hus : ∀ u ∈ us, ∀ x y, u ++ x ≠ close :: y)
    {r r' : List Char}
    (h : [','].intercalate ts ++ close :: r = [','].intercalate us ++ close :: r') :
    ts = us ∧ r = r' := by
  cases ts with
  | nil =>
    cases us with
    | nil => exact ⟨rfl, by simpa using h⟩
    | cons u us =>
      rw [intercalate_eq_flatMap, List.append_assoc] at h
      exact absurd h.symm (hus u (by simp) _ _)
  | cons t ts =>
    cases us with
    | nil =>
      rw [intercalate_eq_flatMap, List.append_assoc] at h
      exact absurd h (hts t (by simp) _ _)
    | cons u us =>
      rw [intercalate_eq_flatMap, intercalate_eq_flatMap, List.append_assoc,
        List.append_assoc] at h
      obtain ⟨rfl, htail⟩ := hcut t (by simp) u (by simp) _ _ (stops_items hstop ts r)
        (stops_items hstop us r') h
      obtain ⟨rfl, rfl⟩ := flatMap_cut hclose hstop hcut.tail htail
      exact ⟨rfl, rfl⟩

/-! ## Values -/

theorem canonicalItems_eq_map (items : List Json) : canonicalItems items = items.map canonical := by
  induction items with
  | nil => rfl
  | cons x xs ih => rw [canonicalItems, ih, List.map_cons]

theorem canonicalFields_eq_map (fields : List (String × Json)) :
    canonicalFields fields = fields.map fun p => (p.1, p.2.canonical) := by
  induction fields with
  | nil => rfl
  | cons p ps ih => obtain ⟨k, v⟩ := p; rw [canonicalFields, ih, List.map_cons]

/-- The text of one field. -/
def fieldText (p : String × String) : List Char := (quote p.1).toList ++ ':' :: p.2.toList

theorem canonical_arr_toList (items : List Json) :
    (canonical (.arr items)).toList
      = '[' :: ([','].intercalate (items.map fun x => x.canonical.toList) ++ [']']) := by
  simp [canonical, canonicalItems_eq_map, Function.comp_def]

theorem canonical_obj_toList (fields : List (String × Json)) :
    (canonical (.obj fields)).toList
      = '\x7b' :: ([','].intercalate ((sortByKey (canonicalFields fields)).map fieldText)
        ++ ['\x7d']) := by
  simp [canonical, Function.comp_def]
  rfl

theorem textOfDigits_ne_nil {s : List Char} (hs : s ≠ []) (n : Int) :
    JsDecimal.textOfDigits s n ≠ [] := by
  unfold JsDecimal.textOfDigits
  dsimp only
  split
  · simp [hs]
  split
  · simp
  split
  · simp
  · split <;> simp

theorem number_ne_nil (n : JsDecimal) : n.text.toList ≠ [] := by
  unfold JsDecimal.text
  split
  · simp
  · simp only [String.toList_ofList]
    split
    · simp
    · exact textOfDigits_ne_nil (digits_ne_nil _) _

/-- A number begins like a number. -/
theorem number_ne_cons (n : JsDecimal) {c : Char} (hc : isNumberChar c = false)
    (x y : List Char) : n.text.toList ++ x ≠ c :: y := by
  have hchars := number_numberChar n
  cases htext : n.text.toList with
  | nil => exact absurd htext (number_ne_nil n)
  | cons d t =>
    intro h
    have hd := hchars d (by simp [htext])
    rw [(List.cons.inj h).1, hc] at hd
    cases hd

/-- No value begins with a closing bracket. -/
theorem canonical_ne_close (a : Json) {c : Char} (hc : c = ']' ∨ c = '\x7d') (x y : List Char) :
    a.canonical.toList ++ x ≠ c :: y := by
  have hnumber : isNumberChar c = false := by rcases hc with rfl | rfl <;> decide
  cases a with
  | num n => exact number_ne_cons n hnumber x y
  | bool b => rcases hc with rfl | rfl <;> cases b <;> simp [canonical]
  | arr items => rcases hc with rfl | rfl <;> simp [canonical_arr_toList]
  | obj fields => rcases hc with rfl | rfl <;> simp [canonical_obj_toList]
  | str s => rcases hc with rfl | rfl <;> simp [canonical, quote_toList]
  | null => rcases hc with rfl | rfl <;> simp [canonical]

theorem fieldText_ne_close (p : String × String) (x y : List Char) :
    fieldText p ++ x ≠ '\x7d' :: y := by
  simp [fieldText, quote_toList]

/-- The fields of two objects can be cut apart when their values can. -/
theorem fieldText_cut {k k' v v' : String} {r r' : List Char}
    (hcut : ∀ r r', Stops r → Stops r' → v.toList ++ r = v'.toList ++ r' → v = v' ∧ r = r')
    (hr : Stops r) (hr' : Stops r') (h : fieldText (k, v) ++ r = fieldText (k', v') ++ r') :
    (k, v) = (k', v') ∧ r = r' := by
  simp only [fieldText, List.append_assoc, List.cons_append] at h
  obtain ⟨rfl, htail⟩ := quote_cut h
  obtain ⟨rfl, rfl⟩ := hcut r r' hr hr' (List.cons.inj htail).2
  exact ⟨rfl, rfl⟩

theorem mem_canonicalFields {fields : List (String × Json)} {p : String × String} :
    p ∈ sortByKey (canonicalFields fields) ↔ ∃ v, (p.1, v) ∈ fields ∧ v.canonical = p.2 := by
  rw [sortByKey, (List.perm_insertionSort _ _).mem_iff, canonicalFields_eq_map, List.mem_map]
  constructor
  · rintro ⟨q, hq, rfl⟩
    exact ⟨q.2, hq, rfl⟩
  · rintro ⟨v, hv, hp⟩
    exact ⟨(p.1, v), hv, by rw [hp]⟩

/-- The first character of a text that is not a number's. -/
def lead : Json → Option Char
  | .null => some 'n'
  | .bool b => some (if b then 't' else 'f')
  | .num _ => none
  | .str _ => some '"'
  | .arr _ => some '['
  | .obj _ => some '\x7b'

theorem canonical_of_lead {a : Json} {c : Char} (h : a.lead = some c) :
    isNumberChar c = false ∧ ∃ t, a.canonical.toList = c :: t := by
  cases a with
  | null => cases h; exact ⟨by decide, _, rfl⟩
  | bool b => cases b <;> cases h <;> exact ⟨by decide, _, rfl⟩
  | num n => cases h
  | str s => cases h; exact ⟨by decide, _, by rw [canonical, quote_toList]⟩
  | arr items => cases h; exact ⟨by decide, _, canonical_arr_toList items⟩
  | obj fields => cases h; exact ⟨by decide, _, canonical_obj_toList fields⟩

/-- Equal texts belong to values of one kind. -/
theorem lead_eq {a b : Json} {r r' : List Char}
    (h : a.canonical.toList ++ r = b.canonical.toList ++ r') : a.lead = b.lead := by
  cases ha : a.lead with
  | none =>
    cases a with
    | num n =>
      cases hb : b.lead with
      | none => rfl
      | some c =>
        obtain ⟨hc, t, ht⟩ := canonical_of_lead hb
        rw [ht] at h
        exact absurd h (number_ne_cons n hc r _)
    | _ => cases ha
  | some c =>
    obtain ⟨hc, t, ht⟩ := canonical_of_lead ha
    rw [ht] at h
    cases hb : b.lead with
    | none =>
      cases b with
      | num n => exact absurd h.symm (number_ne_cons n hc r' _)
      | _ => cases hb
    | some d =>
      obtain ⟨-, u, hu⟩ := canonical_of_lead hb
      rw [hu] at h
      rw [(List.cons.inj h).1]

/-- The value can be cut off whatever follows. -/
def Cut (a : Json) : Prop :=
  ∀ (b : Json) (r r' : List Char), Stops r → Stops r' →
    a.canonical.toList ++ r = b.canonical.toList ++ r' → a.canonical = b.canonical ∧ r = r'

/-- If the items can be cut off, so can the array, and its text determines theirs. -/
theorem arr_cut {items items' : List Json} (hitems : ∀ x ∈ items, Cut x) {r r' : List Char}
    (h : (Json.arr items).canonical.toList ++ r = (Json.arr items').canonical.toList ++ r') :
    items.map canonical = items'.map canonical ∧ r = r' := by
  rw [canonical_arr_toList, canonical_arr_toList] at h
  simp only [List.cons_append, List.append_assoc, List.nil_append, List.cons.injEq,
    true_and] at h
  have hcut : CutApart (items.map fun x => x.canonical.toList)
      (items'.map fun x => x.canonical.toList) := by
    intro t ht u hu r r' hr hr' h
    obtain ⟨x, hx, rfl⟩ := List.mem_map.mp ht
    obtain ⟨y, -, rfl⟩ := List.mem_map.mp hu
    obtain ⟨htext, rfl⟩ := hitems x hx y r r' hr hr' h
    exact ⟨by rw [htext], rfl⟩
  obtain ⟨htexts, rfl⟩ := intercalate_cut (by decide) (by decide) hcut
    (List.forall_mem_map.mpr fun x _ => canonical_ne_close x (Or.inl rfl))
    (List.forall_mem_map.mpr fun x _ => canonical_ne_close x (Or.inl rfl)) h
  have hinj : Function.Injective String.toList := fun _ _ => String.toList_inj.mp
  refine ⟨List.map_injective_iff.mpr hinj ?_, rfl⟩
  simpa [Function.comp_def] using htexts

theorem fieldText_injective : Function.Injective fieldText := by
  rintro ⟨k, v⟩ ⟨k', v'⟩ h
  obtain ⟨hkey, hvalue⟩ := quote_cut h
  exact Prod.ext hkey (String.toList_inj.mp (List.cons.inj hvalue).2)

/-- If the values can be cut off, so can the object, and its text determines its fields. -/
theorem obj_cut {fields fields' : List (String × Json)} (hfields : ∀ p ∈ fields, Cut p.2)
    {r r' : List Char}
    (h : (Json.obj fields).canonical.toList ++ r = (Json.obj fields').canonical.toList ++ r') :
    sortByKey (canonicalFields fields) = sortByKey (canonicalFields fields') ∧ r = r' := by
  rw [canonical_obj_toList, canonical_obj_toList] at h
  simp only [List.cons_append, List.append_assoc, List.nil_append, List.cons.injEq,
    true_and] at h
  have hcut : CutApart ((sortByKey (canonicalFields fields)).map fieldText)
      ((sortByKey (canonicalFields fields')).map fieldText) := by
    intro t ht u hu r r' hr hr' h
    obtain ⟨⟨k, v⟩, hp, rfl⟩ := List.mem_map.mp ht
    obtain ⟨⟨k', v'⟩, hq, rfl⟩ := List.mem_map.mp hu
    obtain ⟨x, hx, rfl⟩ := mem_canonicalFields.mp hp
    obtain ⟨y, -, rfl⟩ := mem_canonicalFields.mp hq
    obtain ⟨hfield, rfl⟩ := fieldText_cut (hfields (k, x) hx y) hr hr' h
    exact ⟨by rw [hfield], rfl⟩
  obtain ⟨htexts, rfl⟩ := intercalate_cut (by decide) (by decide) hcut
    (List.forall_mem_map.mpr fun p _ => fieldText_ne_close p)
    (List.forall_mem_map.mpr fun p _ => fieldText_ne_close p) h
  exact ⟨List.map_injective_iff.mpr fieldText_injective htexts, rfl⟩

/-- **The text of a value ends where it ends.** -/
theorem canonical_cut (a : Json) : Cut a := by
  induction a using Json.induction with
  | null =>
    intro b r r' hr hr' h
    have hlead := lead_eq h
    cases b with
    | null => exact ⟨rfl, by simpa using h⟩
    | bool v => cases v <;> cases hlead
    | _ => cases hlead
  | bool v =>
    intro b r r' hr hr' h
    have hlead := lead_eq h
    cases b with
    | bool w =>
      obtain rfl : v = w := by cases v <;> cases w <;> first | rfl | cases hlead
      exact ⟨rfl, by simpa using h⟩
    | _ => cases v <;> cases hlead
  | num n =>
    intro b r r' hr hr' h
    have hlead := lead_eq h
    cases b with
    | num m =>
      obtain ⟨htext, rfl⟩ :=
        numberChars_cut (number_numberChar n) (number_numberChar m) hr hr' h
      exact ⟨String.toList_inj.mp htext, rfl⟩
    | _ => cases hlead
  | str s =>
    intro b r r' hr hr' h
    have hlead := lead_eq h
    cases b with
    | str t =>
      obtain ⟨rfl, rfl⟩ := quote_cut h
      exact ⟨rfl, rfl⟩
    | bool v => cases v <;> cases hlead
    | _ => cases hlead
  | arr items ih =>
    intro b r r' hr hr' h
    have hlead := lead_eq h
    cases b with
    | arr items' =>
      obtain ⟨htexts, rfl⟩ := arr_cut ih h
      exact ⟨by rw [canonical, canonical, canonicalItems_eq_map, canonicalItems_eq_map, htexts],
        rfl⟩
    | bool v => cases v <;> cases hlead
    | _ => cases hlead
  | obj fields ih =>
    intro b r r' hr hr' h
    have hlead := lead_eq h
    cases b with
    | obj fields' =>
      obtain ⟨hsorted, rfl⟩ := obj_cut ih h
      exact ⟨by rw [canonical, canonical, hsorted], rfl⟩
    | bool v => cases v <;> cases hlead
    | _ => cases hlead

/-! ## What equal texts say -/

theorem canonical_str_inj {s t : String} (h : (Json.str s).canonical = (Json.str t).canonical) :
    s = t := by
  have hquote : (quote s).toList ++ [] = (quote t).toList ++ [] := by
    simpa [canonical] using congrArg String.toList h
  exact (quote_cut hquote).1

/-- Arrays with equal texts have items with equal texts. -/
theorem canonical_arr_inj {items items' : List Json}
    (h : (Json.arr items).canonical = (Json.arr items').canonical) :
    items.map canonical = items'.map canonical :=
  (arr_cut (fun x _ => canonical_cut x) (congrArg (fun t => t.toList ++ []) h)).1

/-- Objects with equal texts have, under each key, values with equal texts. -/
theorem canonical_obj_field {fields fields' : List (String × Json)}
    (h : (Json.obj fields).canonical = (Json.obj fields').canonical) {k : String} {v : Json}
    (hv : (k, v) ∈ fields) : ∃ v', (k, v') ∈ fields' ∧ v'.canonical = v.canonical := by
  have hsorted : sortByKey (canonicalFields fields) = sortByKey (canonicalFields fields') :=
    (obj_cut (fun p _ => canonical_cut p.2) (congrArg (fun t => t.toList ++ []) h)).1
  have hmem : (k, v.canonical) ∈ sortByKey (canonicalFields fields') := by
    rw [← hsorted]
    exact mem_canonicalFields.mpr ⟨v, hv, rfl⟩
  exact mem_canonicalFields.mp hmem

end Json
