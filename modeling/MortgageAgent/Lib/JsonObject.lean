import MortgageAgent.Lib.JsonParse

/-!
# Objects, and equality up to the order of their keys

An object of the engine lists its own properties in an order of its own: keys that are array
indices first, by their number, then the others as they were added. `fromEntries` builds one from
entries, as `Object.fromEntries` and the reviver-free `JSON.parse` do.

* **`SameUpToKeyOrder`** — the least equivalence under which the fields of any object, at any
  depth, may be reordered.
* **`normalize`** — rewrites the fields of every object, innermost first.
* **`KeyNormalizer`** — what makes such a rewriting a normal form: it reorders fields, and forgets
  the order they came in.
* **`normalize_eq_iff`** — two values have one normal form exactly when they are equal up to the
  order of their keys; and so for their texts.
* **`sortByKey_normalizer`**, **`fromSorted_normalizer`** — sorting the keys is one, and so is
  rebuilding the object from its sorted entries.
-/

namespace Json

/-! ## Objects -/

/-- Adds a property, or overwrites it in place. -/
def setField (fields : List (String × Json)) (p : String × Json) : List (String × Json) :=
  if p.1 ∈ fields.map Prod.fst then fields.map fun q => if q.1 = p.1 then p else q
  else fields ++ [p]

/-- A key that is an array index, and which: a decimal numeral without leading zeros, below
`2 ^ 32 - 1`. -/
def arrayIndex? (k : String) : Option Nat :=
  if isInt k.toList ∧ Nat.ofDigitChars 10 k.toList 0 < 4294967295 then
    some (Nat.ofDigitChars 10 k.toList 0)
  else none

/-- The order of an object's own properties. -/
def ownOrder (fields : List (String × Json)) : List (String × Json) :=
  (fields.filter fun p => (arrayIndex? p.1).isSome).insertionSort
      (fun p q => (arrayIndex? p.1).getD 0 ≤ (arrayIndex? q.1).getD 0)
    ++ fields.filter fun p => (arrayIndex? p.1).isNone

/-- `Object.fromEntries`. -/
def fromEntries (entries : List (String × Json)) : List (String × Json) :=
  ownOrder (entries.foldl setField [])

/-- No two fields have one key. -/
def DistinctKeys (fields : List (String × Json)) : Prop := (fields.map Prod.fst).Nodup

instance (fields : List (String × Json)) : Decidable (DistinctKeys fields) :=
  inferInstanceAs (Decidable (List.Nodup _))

theorem DistinctKeys.perm {fields fields' : List (String × Json)} (h : fields.Perm fields') :
    DistinctKeys fields ↔ DistinctKeys fields' :=
  (h.map Prod.fst).nodup_iff

theorem foldl_setField {fields entries : List (String × Json)}
    (h : DistinctKeys (fields ++ entries)) : entries.foldl setField fields = fields ++ entries := by
  induction entries generalizing fields with
  | nil => rw [List.foldl_nil, List.append_nil]
  | cons p ps ih =>
    have hfresh : p.1 ∉ fields.map Prod.fst := by
      rw [DistinctKeys, List.map_append, List.map_cons] at h
      intro hmem
      exact (List.nodup_append.mp h).2.2 _ hmem _ (List.mem_cons_self ..) rfl
    have hsplit : fields ++ p :: ps = (fields ++ [p]) ++ ps := by simp
    rw [List.foldl_cons, setField, if_neg hfresh, ih (by rwa [← hsplit]), ← hsplit]

theorem ownOrder_perm (fields : List (String × Json)) : (ownOrder fields).Perm fields := by
  have hsorted := List.perm_insertionSort
    (fun p q : String × Json => (arrayIndex? p.1).getD 0 ≤ (arrayIndex? q.1).getD 0)
    (fields.filter fun p => (arrayIndex? p.1).isSome)
  refine (hsorted.append_right _).trans ?_
  have hnone : (fun p : String × Json => (arrayIndex? p.1).isNone)
      = fun p => !(arrayIndex? p.1).isSome := by
    funext p
    cases arrayIndex? p.1 <;> rfl
  rw [hnone]
  exact List.filter_append_perm _ fields

/-- Entries with distinct keys become fields, in some order. -/
theorem fromEntries_perm {entries : List (String × Json)} (h : DistinctKeys entries) :
    (fromEntries entries).Perm entries := by
  rw [fromEntries, foldl_setField (by simpa using h), List.nil_append]
  exact ownOrder_perm entries

/-! ## Equality up to the order of keys -/

/-- Equal, except that the fields of any object, at any depth, may stand in another order. -/
inductive SameUpToKeyOrder : Json → Json → Prop where
  | refl (a : Json) : SameUpToKeyOrder a a
  | trans {a b c : Json} (hab : SameUpToKeyOrder a b) (hbc : SameUpToKeyOrder b c) :
      SameUpToKeyOrder a c
  | reorder {fields fields' : List (String × Json)} (h : fields.Perm fields') :
      SameUpToKeyOrder (.obj fields) (.obj fields')
  | item {a b : Json} (before after : List Json) (h : SameUpToKeyOrder a b) :
      SameUpToKeyOrder (.arr (before ++ a :: after)) (.arr (before ++ b :: after))
  | field {a b : Json} (before after : List (String × Json)) (k : String)
      (h : SameUpToKeyOrder a b) :
      SameUpToKeyOrder (.obj (before ++ (k, a) :: after)) (.obj (before ++ (k, b) :: after))

theorem SameUpToKeyOrder.symm {a b : Json} (h : SameUpToKeyOrder a b) : SameUpToKeyOrder b a := by
  induction h with
  | refl a => exact .refl a
  | trans _ _ hba hcb => exact .trans hcb hba
  | reorder h => exact .reorder h.symm
  | item before after _ ih => exact .item before after ih
  | field before after k _ ih => exact .field before after k ih

/-- All items of an array at once. -/
theorem SameUpToKeyOrder.items {f : Json → Json} (items : List Json)
    (h : ∀ x ∈ items, SameUpToKeyOrder x (f x)) (before : List Json) :
    SameUpToKeyOrder (.arr (before ++ items)) (.arr (before ++ items.map f)) := by
  induction items generalizing before with
  | nil => exact .refl _
  | cons x xs ih =>
    have hxs := ih (fun y hy => h y (List.mem_cons_of_mem x hy)) (before ++ [f x])
    rw [List.append_assoc, List.append_assoc, List.singleton_append, List.singleton_append] at hxs
    exact .trans (.item before xs (h x (List.mem_cons_self ..))) hxs

/-- All fields of an object at once. -/
theorem SameUpToKeyOrder.fields {f : Json → Json} (fields : List (String × Json))
    (h : ∀ p ∈ fields, SameUpToKeyOrder p.2 (f p.2)) (before : List (String × Json)) :
    SameUpToKeyOrder (.obj (before ++ fields))
      (.obj (before ++ fields.map fun p => (p.1, f p.2))) := by
  induction fields generalizing before with
  | nil => exact .refl _
  | cons p ps ih =>
    have hps := ih (fun q hq => h q (List.mem_cons_of_mem p hq)) (before ++ [(p.1, f p.2)])
    rw [List.append_assoc, List.append_assoc, List.singleton_append, List.singleton_append] at hps
    exact .trans (.field before ps p.1 (h p (List.mem_cons_self ..))) hps

/-! ## Values -/

mutual

/-- The fields of every object, at every depth, pass the test. -/
def allObjects (test : List (String × Json) → Bool) : Json → Bool
  | .arr items => allObjectsItems test items
  | .obj fields => test fields && allObjectsFields test fields
  | _ => true

def allObjectsItems (test : List (String × Json) → Bool) : List Json → Bool
  | [] => true
  | x :: xs => allObjects test x && allObjectsItems test xs

def allObjectsFields (test : List (String × Json) → Bool) : List (String × Json) → Bool
  | [] => true
  | (_, v) :: ps => allObjects test v && allObjectsFields test ps

end

theorem allObjects_arr {test : List (String × Json) → Bool} {items : List Json} :
    allObjects test (.arr items) = true ↔ ∀ x ∈ items, allObjects test x = true := by
  show allObjectsItems test items = true ↔ _
  induction items with
  | nil => simp [allObjectsItems]
  | cons x xs ih => simp [allObjectsItems, ih]

theorem allObjects_obj {test : List (String × Json) → Bool} {fields : List (String × Json)} :
    allObjects test (.obj fields) = true
      ↔ test fields = true ∧ ∀ p ∈ fields, allObjects test p.2 = true := by
  have hfields : allObjectsFields test fields = true ↔ ∀ p ∈ fields, allObjects test p.2 = true := by
    induction fields with
    | nil => simp [allObjectsFields]
    | cons p ps ih => simp [allObjectsFields, ih]
  rw [allObjects, Bool.and_eq_true, hfields]

/-- The keys of every object are distinct. -/
def wellFormed (a : Json) : Bool := allObjects (fun fields => decide (DistinctKeys fields)) a

theorem wellFormed_arr {items : List Json} :
    wellFormed (.arr items) = true ↔ ∀ x ∈ items, wellFormed x = true :=
  allObjects_arr

theorem wellFormed_obj {fields : List (String × Json)} :
    wellFormed (.obj fields) = true
      ↔ DistinctKeys fields ∧ ∀ p ∈ fields, wellFormed p.2 = true := by
  rw [wellFormed, allObjects_obj, decide_eq_true_iff]
  rfl

theorem SameUpToKeyOrder.wellFormed_iff {a b : Json} (h : SameUpToKeyOrder a b) :
    a.wellFormed = true ↔ b.wellFormed = true := by
  induction h with
  | refl a => exact Iff.rfl
  | trans _ _ hab hbc => exact hab.trans hbc
  | reorder h =>
    rw [wellFormed_obj, wellFormed_obj, DistinctKeys.perm h]
    simp only [h.mem_iff]
  | item before after _ ih =>
    simp only [wellFormed_arr, List.forall_mem_append, List.forall_mem_cons, ih]
  | field before after k _ ih =>
    simp only [wellFormed_obj, DistinctKeys, List.map_append, List.map_cons,
      List.forall_mem_append, List.forall_mem_cons, ih]

end Json

/-- A JSON value: no object in it has a key twice. -/
structure JsonValue where
  val : Json
  wellFormed : val.wellFormed = true

namespace Json

/-! ## Normal forms -/

mutual

/-- Rewrites the fields of every object, innermost first. -/
def normalize (g : List (String × Json) → List (String × Json)) : Json → Json
  | .arr items => .arr (normalizeItems g items)
  | .obj fields => .obj (g (normalizeFields g fields))
  | .null => .null
  | .bool b => .bool b
  | .num n => .num n
  | .str s => .str s

def normalizeItems (g : List (String × Json) → List (String × Json)) : List Json → List Json
  | [] => []
  | x :: xs => normalize g x :: normalizeItems g xs

def normalizeFields (g : List (String × Json) → List (String × Json)) :
    List (String × Json) → List (String × Json)
  | [] => []
  | (k, v) :: ps => (k, normalize g v) :: normalizeFields g ps

end

section
variable {g : List (String × Json) → List (String × Json)}

theorem normalizeItems_eq_map (items : List Json) :
    normalizeItems g items = items.map (normalize g) := by
  induction items with
  | nil => rfl
  | cons x xs ih => rw [normalizeItems, ih, List.map_cons]

theorem normalizeFields_eq_map (fields : List (String × Json)) :
    normalizeFields g fields = fields.map fun p => (p.1, normalize g p.2) := by
  induction fields with
  | nil => rfl
  | cons p ps ih => obtain ⟨k, v⟩ := p; rw [normalizeFields, ih, List.map_cons]

theorem normalize_arr (items : List Json) :
    normalize g (.arr items) = .arr (items.map (normalize g)) := by
  rw [normalize, normalizeItems_eq_map]

theorem normalize_obj (fields : List (String × Json)) :
    normalize g (.obj fields) = .obj (g (fields.map fun p => (p.1, normalize g p.2))) := by
  rw [normalize, normalizeFields_eq_map]

theorem distinctKeys_map {f : Json → Json} {fields : List (String × Json)} :
    DistinctKeys (fields.map fun p => (p.1, f p.2)) ↔ DistinctKeys fields := by
  simp [DistinctKeys, Function.comp_def]

/-- Reorders fields with distinct keys, into an order that does not depend on where they came
from. -/
structure KeyNormalizer (g : List (String × Json) → List (String × Json)) : Prop where
  perm : ∀ fields, DistinctKeys fields → (g fields).Perm fields
  eq_of_perm : ∀ fields fields', DistinctKeys fields → fields.Perm fields' → g fields = g fields'

/-- A value is its normal form, up to the order of keys. -/
theorem same_normalize (hg : KeyNormalizer g) {a : Json} (h : a.wellFormed = true) :
    SameUpToKeyOrder a (normalize g a) := by
  induction a using Json.induction with
  | null => exact .refl _
  | bool b => exact .refl _
  | num n => exact .refl _
  | str s => exact .refl _
  | arr items ih =>
    rw [normalize_arr]
    exact SameUpToKeyOrder.items items (fun x hx => ih x hx (wellFormed_arr.mp h x hx)) []
  | obj fields ih =>
    obtain ⟨hdistinct, hvalues⟩ := wellFormed_obj.mp h
    rw [normalize_obj]
    refine .trans (SameUpToKeyOrder.fields fields (fun p hp => ih p hp (hvalues p hp)) []) ?_
    exact .reorder (hg.perm _ (distinctKeys_map.mpr hdistinct)).symm

/-- The normal form does not see the order of keys. -/
theorem normalize_eq_of_same (hg : KeyNormalizer g) {a b : Json} (h : SameUpToKeyOrder a b)
    (ha : a.wellFormed = true) : normalize g a = normalize g b := by
  induction h with
  | refl a => rfl
  | trans hab _ ihab ihbc => exact (ihab ha).trans (ihbc (hab.wellFormed_iff.mp ha))
  | reorder h =>
    rw [normalize_obj, normalize_obj]
    congr 1
    exact hg.eq_of_perm _ _ (distinctKeys_map.mpr (wellFormed_obj.mp ha).1) (h.map _)
  | item before after _ ih =>
    simp only [wellFormed_arr, List.forall_mem_append, List.forall_mem_cons] at ha
    simp only [normalize_arr, List.map_append, List.map_cons, ih ha.2.1]
  | field before after k _ ih =>
    simp only [wellFormed_obj, List.forall_mem_append, List.forall_mem_cons] at ha
    simp only [normalize_obj, List.map_append, List.map_cons, ih ha.2.2.1]

/-- **One normal form, one value up to the order of its keys.** -/
theorem normalize_eq_iff (hg : KeyNormalizer g) (a b : JsonValue) :
    normalize g a.val = normalize g b.val ↔ SameUpToKeyOrder a.val b.val := by
  constructor
  · intro h
    have ha := same_normalize hg a.wellFormed
    rw [h] at ha
    exact ha.trans (same_normalize hg b.wellFormed).symm
  · intro h
    exact normalize_eq_of_same hg h a.wellFormed

/-- **One text, one value up to the order of its keys.** -/
theorem stringify_normalize_eq_iff (hg : KeyNormalizer g) (a b : JsonValue) :
    stringify (normalize g a.val) = stringify (normalize g b.val)
      ↔ SameUpToKeyOrder a.val b.val := by
  rw [stringify_injective.eq_iff]
  exact normalize_eq_iff hg a b

end

/-! ## Sorting the keys -/

theorem keyLe_total (a b : String) : keyLe a b ∨ keyLe b a :=
  List.le_total (utf16 a) (utf16 b)

theorem keyLe_trans {a b c : String} (hab : keyLe a b) (hbc : keyLe b c) : keyLe a c :=
  List.le_trans hab hbc

theorem keyLe_antisymm {a b : String} (hab : keyLe a b) (hba : keyLe b a) : a = b :=
  utf16_injective (List.le_antisymm hab hba)

instance : Std.Total fun a b : String × Json => keyLe a.1 b.1 := ⟨fun a b => keyLe_total a.1 b.1⟩

instance : IsTrans (String × Json) fun a b => keyLe a.1 b.1 := ⟨fun _ _ _ => keyLe_trans⟩

/-- **Sorting by key is a normal form.** -/
theorem sortByKey_normalizer : KeyNormalizer sortByKey where
  perm fields _ := List.perm_insertionSort _ fields
  eq_of_perm fields fields' hdistinct h := by
    have hp : (sortByKey fields).Perm fields := List.perm_insertionSort _ fields
    have hp' : (sortByKey fields').Perm fields' := List.perm_insertionSort _ fields'
    refine (hp.trans (h.trans hp'.symm)).eq_of_pairwise ?_ (List.pairwise_insertionSort _ fields)
      (List.pairwise_insertionSort _ fields')
    intro p q hpmem hqmem hpq hqp
    -- two fields of one key are one field
    have hp := hp.mem_iff.mp hpmem
    have hq := h.mem_iff.mpr (hp'.mem_iff.mp hqmem)
    exact List.inj_on_of_nodup_map hdistinct hp hq (keyLe_antisymm hpq hqp)

/-- **So is rebuilding the object from its sorted entries**, although the engine then lists the
array indices first. -/
theorem fromSorted_normalizer : KeyNormalizer fun entries => fromEntries (sortByKey entries) where
  perm fields hdistinct := by
    have hp : (sortByKey fields).Perm fields := sortByKey_normalizer.perm fields hdistinct
    exact (fromEntries_perm ((DistinctKeys.perm hp).mpr hdistinct)).trans hp
  eq_of_perm fields fields' hdistinct h := by
    rw [sortByKey_normalizer.eq_of_perm fields fields' hdistinct h]

/-! ## The text with sorted keys -/

theorem itemsChars_eq (xs : List Json) :
    itemsChars xs = (xs.map chars).flatMap (',' :: ·) ++ [']'] := by
  induction xs with
  | nil => rfl
  | cons x xs ih => simp [itemsChars, ih]

theorem fieldsChars_eq (ps : List (String × Json)) :
    fieldsChars ps = (ps.map fieldChars).flatMap (',' :: ·) ++ ['\x7d'] := by
  induction ps with
  | nil => rfl
  | cons p ps ih => simp [fieldsChars, ih]

theorem chars_arr (items : List Json) :
    chars (.arr items) = '[' :: ([','].intercalate (items.map chars) ++ [']']) := by
  cases items with
  | nil => rfl
  | cons x xs => rw [chars, itemsChars_eq, List.map_cons, intercalate_eq_flatMap, List.append_assoc]

theorem chars_obj (fields : List (String × Json)) :
    chars (.obj fields) = '\x7b' :: ([','].intercalate (fields.map fieldChars) ++ ['\x7d']) := by
  cases fields with
  | nil => rfl
  | cons p ps => rw [chars, fieldsChars_eq, List.map_cons, intercalate_eq_flatMap, List.append_assoc]

/-- **Concatenating the sorted fields writes the value with sorted keys.** -/
theorem canonical_eq_stringify (a : Json) : a.canonical = stringify (normalize sortByKey a) := by
  rw [← String.toList_inj, stringify, String.toList_ofList]
  induction a using Json.induction with
  | null => rfl
  | bool b => cases b <;> rfl
  | num n => rfl
  | str s => rw [canonical, quote_toList]; rfl
  | arr items ih =>
    rw [canonical_arr_toList, normalize_arr, chars_arr, List.map_map]
    congr 3
    exact List.map_congr_left ih
  | obj fields ih =>
    -- the fields are sorted by key, before or after their values are written
    have hsort : sortByKey (canonicalFields fields)
        = (sortByKey (fields.map fun p => (p.1, normalize sortByKey p.2))).map
            fun p => (p.1, stringify p.2) := by
      have htexts : canonicalFields fields
          = (fields.map fun p => (p.1, normalize sortByKey p.2)).map
              fun p => (p.1, stringify p.2) := by
        rw [canonicalFields_eq_map, List.map_map]
        refine List.map_congr_left fun p hp => ?_
        have htext : p.2.canonical = stringify (normalize sortByKey p.2) := by
          rw [← String.toList_inj, stringify, String.toList_ofList]
          exact ih p hp
        simp [htext]
      rw [htexts]
      symm
      apply List.map_insertionSort
      intro p _ q _
      exact Iff.rfl
    rw [canonical_obj_toList, normalize_obj, chars_obj, hsort, List.map_map]
    congr 3
    refine List.map_congr_left fun p _ => ?_
    obtain ⟨k, v⟩ := p
    simp [fieldText, fieldChars, quote_toList, stringify]

/-! ## Values of the engine -/

/-- `p` may stand before `q` among the own properties of an object. -/
def OwnBefore (p q : String × Json) : Prop :=
  match arrayIndex? p.1, arrayIndex? q.1 with
  | some i, some j => i ≤ j
  | none, some _ => False
  | _, none => True

instance (p q : String × Json) : Decidable (OwnBefore p q) := by
  unfold OwnBefore
  cases arrayIndex? p.1 <;> cases arrayIndex? q.1 <;> infer_instance

/-- Every object lists distinct keys, in the order of own properties. -/
def ownOrdered (a : Json) : Bool :=
  allObjects (fun fields => decide (DistinctKeys fields) && decide (fields.Pairwise OwnBefore)) a

/-- Fields in the order of own properties stay in it. -/
theorem ownOrder_eq {fields : List (String × Json)} (h : fields.Pairwise OwnBefore) :
    ownOrder fields = fields := by
  have hsorted : (fields.filter fun p => (arrayIndex? p.1).isSome).Pairwise
      fun p q => (arrayIndex? p.1).getD 0 ≤ (arrayIndex? q.1).getD 0 := by
    refine (h.filter _).imp_of_mem fun {p q} hp hq hpq => ?_
    obtain ⟨i, hi⟩ := Option.isSome_iff_exists.mp (List.mem_filter.mp hp).2
    obtain ⟨j, hj⟩ := Option.isSome_iff_exists.mp (List.mem_filter.mp hq).2
    simpa [OwnBefore, hi, hj] using hpq
  rw [ownOrder, hsorted.insertionSort_eq]
  clear hsorted
  induction fields with
  | nil => rfl
  | cons p ps ih =>
    obtain ⟨hp, hps⟩ := List.pairwise_cons.mp h
    cases hindex : arrayIndex? p.1 with
    | some i => simpa [hindex] using ih hps
    | none =>
      -- behind a key that is no index there is no index
      have hnone : ∀ q ∈ ps, arrayIndex? q.1 = none := by
        intro q hq
        have hpq := hp q hq
        cases hj : arrayIndex? q.1 with
        | none => rfl
        | some j => simp [OwnBefore, hindex, hj] at hpq
      have hfilter : ps.filter (fun q => (arrayIndex? q.1).isSome) = [] := by
        rw [List.filter_eq_nil_iff]
        intro q hq
        simp [hnone q hq]
      simpa [hindex, hfilter] using fun k v hq => hnone (k, v) hq

theorem fromEntries_eq {fields : List (String × Json)} (hdistinct : DistinctKeys fields)
    (h : fields.Pairwise OwnBefore) : fromEntries fields = fields := by
  rw [fromEntries, foldl_setField (by simpa using hdistinct), List.nil_append, ownOrder_eq h]

/-- A value of the engine is rebuilt as it is. -/
theorem normalize_fromEntries {a : Json} (h : a.ownOrdered = true) :
    normalize fromEntries a = a := by
  induction a using Json.induction with
  | null => rfl
  | bool b => rfl
  | num n => rfl
  | str s => rfl
  | arr items ih =>
    have hitems := allObjects_arr.mp h
    rw [normalize_arr, List.map_congr_left fun x hx => ih x hx (hitems x hx), List.map_id']
  | obj fields ih =>
    obtain ⟨htest, hvalues⟩ := allObjects_obj.mp h
    obtain ⟨hdistinct, hordered⟩ := Bool.and_eq_true_iff.mp htest
    have hsame : fields.map (fun p => (p.1, normalize fromEntries p.2)) = fields := by
      refine (List.map_congr_left fun p hp => ?_).trans (List.map_id' fields)
      rw [ih p hp (hvalues p hp)]
    rw [normalize_obj, hsame,
      fromEntries_eq (of_decide_eq_true hdistinct) (of_decide_eq_true hordered)]

/-- `JSON.parse`. -/
def parse (text : String) : Option Json := (parseText text).map (normalize fromEntries)

/-! ## What is built from entries is well formed -/

theorem distinctKeys_setField {fields : List (String × Json)} (h : DistinctKeys fields)
    (p : String × Json) : DistinctKeys (setField fields p) := by
  unfold setField
  split
  · have hkeys : (fields.map fun q => if q.1 = p.1 then p else q).map Prod.fst
        = fields.map Prod.fst := by
      rw [List.map_map]
      refine List.map_congr_left fun q _ => ?_
      show (if q.1 = p.1 then p else q).1 = q.1
      split
      · next heq => exact heq.symm
      · rfl
    rw [DistinctKeys, hkeys]
    exact h
  · next hfresh =>
    rw [DistinctKeys, List.map_append, List.map_singleton]
    exact List.nodup_append.mpr ⟨h, List.nodup_singleton _, fun k hk k' hk' heq => by
      rw [List.mem_singleton] at hk'
      exact hfresh (hk' ▸ heq ▸ hk)⟩

theorem distinctKeys_fromEntries (entries : List (String × Json)) :
    DistinctKeys (fromEntries entries) := by
  have hfold : ∀ fields, DistinctKeys fields → DistinctKeys (entries.foldl setField fields) := by
    induction entries with
    | nil => exact fun _ h => h
    | cons p ps ih => exact fun fields h => ih _ (distinctKeys_setField h p)
  rw [fromEntries, DistinctKeys.perm (ownOrder_perm _)]
  exact hfold [] List.nodup_nil

/-- A field of what is set was there, or is the one. -/
theorem mem_of_mem_setField {fields : List (String × Json)} {p q : String × Json}
    (h : q ∈ setField fields p) : q ∈ fields ∨ q = p := by
  unfold setField at h
  split at h
  · obtain ⟨q', hq', hq⟩ := List.mem_map.mp h
    split at hq
    · exact Or.inr hq.symm
    · exact Or.inl (hq ▸ hq')
  · cases List.mem_append.mp h with
    | inl hold => exact Or.inl hold
    | inr hnew => exact Or.inr (List.mem_singleton.mp hnew)

theorem mem_of_mem_foldl_setField {entries fields : List (String × Json)} {q : String × Json}
    (h : q ∈ entries.foldl setField fields) : q ∈ fields ∨ q ∈ entries := by
  induction entries generalizing fields with
  | nil => exact Or.inl h
  | cons p ps ih =>
    cases ih h with
    | inr hps => exact Or.inr (List.mem_cons_of_mem p hps)
    | inl hset =>
      cases mem_of_mem_setField hset with
      | inl hold => exact Or.inl hold
      | inr heq => exact Or.inr (heq ▸ List.mem_cons_self)

/-- The fields of what is built are entries. -/
theorem mem_of_mem_fromEntries {entries : List (String × Json)} {q : String × Json}
    (h : q ∈ fromEntries entries) : q ∈ entries := by
  cases mem_of_mem_foldl_setField ((ownOrder_perm _).mem_iff.mp h) with
  | inl hnil => cases hnil
  | inr hentry => exact hentry

/-- **What `JSON.parse` builds is well formed**, whatever keys its text repeats. -/
theorem wellFormed_normalize_fromEntries (v : Json) :
    (normalize fromEntries v).wellFormed = true := by
  induction v using Json.induction with
  | null | bool | num | str => rfl
  | arr items ih =>
    rw [normalize_arr, wellFormed_arr]
    intro x hx
    obtain ⟨item, hitem, rfl⟩ := List.mem_map.mp hx
    exact ih item hitem
  | obj fields ih =>
    rw [normalize_obj, wellFormed_obj]
    refine ⟨distinctKeys_fromEntries _, fun p hp => ?_⟩
    obtain ⟨field, hfield, rfl⟩ := List.mem_map.mp (mem_of_mem_fromEntries hp)
    exact ih field hfield

end Json

/-- A JSON value as the engine holds it. -/
structure JsValue where
  val : Json
  ownOrdered : val.ownOrdered = true

/-- **`JSON.parse` undoes `JSON.stringify`.** -/
theorem JsValue.parse_stringify (v : JsValue) : Json.parse (Json.stringify v.val) = some v.val := by
  rw [Json.parse, Json.parseText_stringify, Option.map_some, Json.normalize_fromEntries v.ownOrdered]
