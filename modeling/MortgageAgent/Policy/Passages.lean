import Mathlib.Data.List.Pairwise
import Mathlib.Data.List.TakeWhile
import MortgageAgent.Platform
import MortgageAgent.Lib.Cut
import MortgageAgent.Lib.JsonObject

/-!
# The passages of a source revision

Research quotes a revision by passages: each string of its content, in pieces of a bounded length,
under a location that says where in the content the string stands. The location joins keys and
indices to one text, and keys may hold the marks it joins them with.

* **`flattenContent`**, **`chunkText`**, **`passagesOf`** — as the service has them.
* **`strings`** — the strings of a content, by key and index.
* **`Clash`** — two keys of one object whose paths read the same.
* **`passages_iff`** — the passages partition the strings, and their locations are distinct exactly
  where there is no clash.
-/

namespace MortgageAgent.Policy

/-! ## `policy-research.service.ts` -/

/-- What research reads of a revision. -/
structure RevisionContent where
  id : Uuid
  checksum : String
  content : JsonValue

structure FlatText where
  location : String
  text : String
  deriving DecidableEq

def MAX_EXCERPT_CHARS : Nat := 1200

mutual

def flattenContent (path : String) : Json → List FlatText
  | .str s => [{ location := path, text := s }]
  | .arr items => flattenItems path 0 items
  | .obj fields => flattenFields path fields
  | _ => []

def flattenItems (path : String) : (index : Nat) → List Json → List FlatText
  | _, [] => []
  | index, item :: rest =>
    flattenContent (path ++ "[" ++ toString index ++ "]") item
      ++ flattenItems path (index + 1) rest

def flattenFields (path : String) : List (String × Json) → List FlatText
  | [] => []
  | (key, nested) :: rest =>
    flattenContent (path ++ "." ++ key) nested ++ flattenFields path rest

end

/-- `text.replace(/\s+/g, ' ')`; `inRun` says that a space stands for the run already. -/
def collapse : (inRun : Bool) → List Char → List Char
  | _, [] => []
  | inRun, c :: rest =>
    if isJsWhitespace c then
      if inRun then collapse true rest else ' ' :: collapse true rest
    else c :: collapse false rest

def normalized (text : String) : String := jsTrim (String.ofList (collapse false text.toList))

/-- The loop over `start`, on the code units. -/
def chunksFrom (units : List Nat) (start : Nat) : List (List Nat) :=
  if start < units.length then
    (units.drop start).take MAX_EXCERPT_CHARS :: chunksFrom units (start + MAX_EXCERPT_CHARS)
  else []
termination_by units.length - start
decreasing_by
  rw [MAX_EXCERPT_CHARS]
  omega

/-- The chunks, in code units: a cut may go through a surrogate pair. -/
def chunkText (text : String) : List (List Nat) :=
  let units := Json.utf16 (normalized text)
  if units.length ≤ MAX_EXCERPT_CHARS then if units = [] then [] else [units]
  else chunksFrom units 0

structure Passage where
  policySourceRevisionId : Uuid
  sourceChecksum : String
  location : String
  excerpt : List Nat
  deriving DecidableEq

/-- The passages of one string. -/
def passagesAt (revision : RevisionContent) (flat : FlatText) : List Passage :=
  (chunkText flat.text).zipIdx.map fun (excerpt, index) =>
    { policySourceRevisionId := revision.id
      sourceChecksum := revision.checksum
      location := flat.location ++ "#" ++ toString (index + 1)
      excerpt }

/-- What `retrieve` makes of a revision, before it ranks the passages. -/
def passagesOf (revision : RevisionContent) : List Passage :=
  (flattenContent "$" revision.content.val).flatMap (passagesAt revision)

/-! ## The strings of a content -/

inductive PathStep where
  | key (k : String)
  | index (i : Nat)
  deriving DecidableEq

def PathStep.text : PathStep → String
  | .key k => "." ++ k
  | .index i => "[" ++ toString i ++ "]"

def pathText (path : List PathStep) : String := path.foldr (fun step text => step.text ++ text) ""

mutual

/-- Every string, with the keys and indices that lead to it. -/
def strings : Json → List (List PathStep × String)
  | .str s => [([], s)]
  | .arr items => itemStrings 0 items
  | .obj fields => fieldStrings fields
  | _ => []

def itemStrings : Nat → List Json → List (List PathStep × String)
  | _, [] => []
  | index, item :: rest =>
    (strings item).map (fun (path, s) => (.index index :: path, s)) ++ itemStrings (index + 1) rest

def fieldStrings : List (String × Json) → List (List PathStep × String)
  | [] => []
  | (key, nested) :: rest =>
    (strings nested).map (fun (path, s) => (.key key :: path, s)) ++ fieldStrings rest

end

def NonBlankText (s : String) : Prop := ∃ c ∈ s.toList, isJsWhitespace c = false

/-- Somewhere in the content an object has two keys, each with a path from it to a non-blank string,
that read the same. -/
inductive Clash : Json → Prop
  | here {fields : List (String × Json)} {key key' : String} {nested nested' : Json}
      {path path' : List PathStep} {s s' : String} (hfield : (key, nested) ∈ fields)
      (hfield' : (key', nested') ∈ fields) (hkeys : key ≠ key')
      (hstring : (path, s) ∈ strings nested) (hstring' : (path', s') ∈ strings nested')
      (hblank : NonBlankText s) (hblank' : NonBlankText s')
      (hreads : key ++ pathText path = key' ++ pathText path') : Clash (.obj fields)
  | field {fields : List (String × Json)} {key : String} {nested : Json}
      (hfield : (key, nested) ∈ fields) (hclash : Clash nested) : Clash (.obj fields)
  | item {items : List Json} {item : Json} (hitem : item ∈ items) (hclash : Clash item) :
      Clash (.arr items)

/-! ## The promise -/

/-- The passages are those of every string, one string after the other: in order they make up its
normalised text, and none is too long. -/
structure PartitionsStrings (revision : RevisionContent) : Prop where
  passages : passagesOf revision = (strings revision.content.val).flatMap fun (path, s) =>
    passagesAt revision { location := "$" ++ pathText path, text := s }
  whole : ∀ flat : FlatText, ((passagesAt revision flat).map (·.excerpt)).flatten
    = Json.utf16 (normalized flat.text)
  bounded : ∀ p ∈ passagesOf revision, p.excerpt.length ≤ MAX_EXCERPT_CHARS

/-- No two passages are at one location. -/
def DistinctLocations (revision : RevisionContent) : Prop :=
  ((passagesOf revision).map (·.location)).Nodup

/-! ## Paths -/

@[simp] theorem pathText_nil : pathText [] = "" := rfl

@[simp] theorem pathText_cons (step : PathStep) (path : List PathStep) :
    pathText (step :: path) = step.text ++ pathText path := rfl

theorem itemStrings_eq (start : Nat) (items : List Json) :
    itemStrings start items = (items.zipIdx start).flatMap fun (item, i) =>
      (strings item).map fun (path, s) => (.index i :: path, s) := by
  induction items generalizing start with
  | nil => rfl
  | cons item rest ih => rw [itemStrings, ih, List.zipIdx_cons, List.flatMap_cons]

theorem fieldStrings_eq (fields : List (String × Json)) :
    fieldStrings fields = fields.flatMap fun (k, nested) =>
      (strings nested).map fun (path, s) => (.key k :: path, s) := by
  induction fields with
  | nil => rfl
  | cons p rest ih => rw [fieldStrings, ih, List.flatMap_cons]

theorem flattenItems_eq (path : String) (start : Nat) (items : List Json) :
    flattenItems path start items = (items.zipIdx start).flatMap fun (item, i) =>
      flattenContent (path ++ "[" ++ toString i ++ "]") item := by
  induction items generalizing start with
  | nil => rfl
  | cons item rest ih => rw [flattenItems, ih, List.zipIdx_cons, List.flatMap_cons]

theorem flattenFields_eq (path : String) (fields : List (String × Json)) :
    flattenFields path fields = fields.flatMap fun (k, nested) =>
      flattenContent (path ++ "." ++ k) nested := by
  induction fields with
  | nil => rfl
  | cons p rest ih => rw [flattenFields, ih, List.flatMap_cons]

/-- The location of a string is the text of its path. -/
theorem flattenContent_eq (path : String) (v : Json) :
    flattenContent path v = (strings v).map fun (steps, s) =>
      { location := path ++ pathText steps, text := s } := by
  induction v using Json.induction generalizing path with
  | null | bool | num => rfl
  | str s => simp [flattenContent, strings]
  | arr items ih =>
    rw [flattenContent, flattenItems_eq, strings, itemStrings_eq, List.map_flatMap]
    refine List.flatMap_congr fun ⟨item, i⟩ hp => ?_
    simp only [ih item (List.fst_mem_of_mem_zipIdx hp), List.map_map]
    refine List.map_congr_left fun q _ => ?_
    simp [PathStep.text, String.append_assoc]
  | obj fields ih =>
    rw [flattenContent, flattenFields_eq, strings, fieldStrings_eq, List.map_flatMap]
    refine List.flatMap_congr fun ⟨k, nested⟩ hp => ?_
    simp only [ih (k, nested) hp, List.map_map]
    refine List.map_congr_left fun q _ => ?_
    simp [PathStep.text, String.append_assoc]

/-! ## Chunks -/

theorem flatten_chunksFrom (units : List Nat) (start : Nat) :
    (chunksFrom units start).flatten = units.drop start := by
  fun_induction chunksFrom units start with
  | case1 start hstart ih =>
    rw [List.flatten_cons, ih, ← List.drop_drop, List.take_append_drop]
  | case2 start hstart => rw [List.flatten_nil, List.drop_eq_nil_of_le (Nat.le_of_not_lt hstart)]

theorem length_le_of_mem_chunksFrom {units chunk : List Nat} {start : Nat}
    (h : chunk ∈ chunksFrom units start) : chunk.length ≤ MAX_EXCERPT_CHARS := by
  fun_induction chunksFrom units start with
  | case1 start hstart ih =>
    rcases List.mem_cons.mp h with rfl | hrest
    · exact List.length_take_le _ _
    · exact ih hrest
  | case2 start hstart => cases h

theorem flatten_chunkText (text : String) :
    (chunkText text).flatten = Json.utf16 (normalized text) := by
  rw [chunkText]
  split
  · split
    · next hempty => rw [hempty, List.flatten_nil]
    · rw [List.flatten_singleton]
  · rw [flatten_chunksFrom, List.drop_zero]

theorem length_le_of_mem_chunkText {text : String} {chunk : List Nat} (h : chunk ∈ chunkText text) :
    chunk.length ≤ MAX_EXCERPT_CHARS := by
  rw [chunkText] at h
  split at h
  · next hshort =>
    split at h
    · cases h
    · rw [List.mem_singleton.mp h]
      exact hshort
  · exact length_le_of_mem_chunksFrom h

theorem partitionsStrings (revision : RevisionContent) : PartitionsStrings revision where
  passages := by rw [passagesOf, flattenContent_eq, List.flatMap_map]
  whole flat := by
    have hexcerpts : (passagesAt revision flat).map (·.excerpt) = chunkText flat.text := by
      rw [passagesAt, List.map_map]
      exact List.zipIdx_map_fst 0 _
    rw [hexcerpts, flatten_chunkText]
  bounded p hp := by
    obtain ⟨flat, -, hp⟩ := List.mem_flatMap.mp hp
    obtain ⟨q, hq, rfl⟩ := List.mem_map.mp hp
    exact length_le_of_mem_chunkText (List.fst_mem_of_mem_zipIdx hq)

/-! ## Blank strings -/

theorem mem_collapse {c : Char} {inRun : Bool} {cs : List Char} (hc : isJsWhitespace c = false) :
    c ∈ collapse inRun cs ↔ c ∈ cs := by
  induction cs generalizing inRun with
  | nil => cases inRun <;> rfl
  | cons d rest ih =>
    rw [collapse, List.mem_cons]
    by_cases hd : isJsWhitespace d = true
    · have hne : c ≠ d := fun h => by rw [h, hd] at hc; cases hc
      have hspace : c ≠ ' ' := fun h => by rw [h] at hc; exact absurd hc (by decide)
      rw [if_pos hd]
      cases inRun with
      | true => simp [ih, hne]
      | false => simp [ih, hne, hspace]
    · rw [if_neg hd, List.mem_cons, ih]

theorem trimWhere_eq_empty_iff {p : Char → Bool} {s : String} :
    trimWhere p s = "" ↔ ∀ c ∈ s.toList, p c = true := by
  rw [trimWhere, ← String.toList_inj, String.toList_ofList, String.toList_empty,
    List.reverse_eq_nil_iff, List.dropWhile_eq_nil_iff]
  constructor
  · intro h c hc
    rw [← List.takeWhile_append_dropWhile (p := p) (l := s.toList), List.mem_append] at hc
    rcases hc with htake | hdrop
    · exact List.all_eq_true.mp List.all_takeWhile c htake
    · exact h c (List.mem_reverse.mpr hdrop)
  · intro h c hc
    exact h c ((List.dropWhile_suffix p).subset (List.mem_reverse.mp hc))

theorem normalized_eq_empty_iff {text : String} : normalized text = "" ↔ ¬ NonBlankText text := by
  rw [normalized, jsTrim, trimWhere_eq_empty_iff, String.toList_ofList]
  constructor
  · rintro h ⟨c, hmem, hc⟩
    rw [h c ((mem_collapse hc).mpr hmem)] at hc
    cases hc
  · intro h c hmem
    by_contra hc
    have hc := Bool.eq_false_of_not_eq_true hc
    exact h ⟨c, (mem_collapse hc).mp hmem, hc⟩

theorem chunkText_ne_nil_iff {text : String} : chunkText text ≠ [] ↔ NonBlankText text := by
  have hunits : Json.utf16 (normalized text) ≠ [] ↔ NonBlankText text := by
    rw [← not_iff_not, not_not, ← normalized_eq_empty_iff]
    exact ⟨fun h => Json.utf16_injective h, fun h => by rw [h]; rfl⟩
  rw [← hunits, chunkText]
  split
  · split
    · next hempty => exact iff_of_false (fun h => h rfl) (fun h => h hempty)
    · next hsome => exact iff_of_true (List.cons_ne_nil _ _) hsome
  · next hlong =>
    have hpos : 0 < (Json.utf16 (normalized text)).length :=
      Nat.lt_of_le_of_lt (Nat.zero_le _) (Nat.lt_of_not_le hlong)
    rw [chunksFrom, if_pos hpos]
    exact iff_of_true (List.cons_ne_nil _ _) (List.ne_nil_of_length_pos hpos)

/-! ## Locations -/

/-- The number of a chunk can be read off its location. -/
theorem location_inj {path path' : String} {i j : Nat}
    (h : path ++ "#" ++ toString (i + 1) = path' ++ "#" ++ toString (j + 1)) :
    path = path' ∧ i = j := by
  have hchars : path.toList ++ '#' :: (toString (i + 1)).toList
      = path'.toList ++ '#' :: (toString (j + 1)).toList := by
    simpa using congrArg String.toList h
  obtain ⟨hpath, hnumber⟩ := Cut.cut_after_eq (Json.not_mem_toString (by decide) _)
    (Json.not_mem_toString (by decide) _) hchars
  refine ⟨String.toList_inj.mp hpath, ?_⟩
  have hsame : i + 1 = j + 1 := Json.toString_inj (String.toList_inj.mp hnumber)
  omega

/-- The index at the start of a path can be read off its text. -/
theorem index_inj {i j : Nat} {rest rest' : String}
    (h : (PathStep.index i).text ++ rest = (PathStep.index j).text ++ rest') : i = j := by
  have hchars : (toString i).toList ++ ']' :: rest.toList
      = (toString j).toList ++ ']' :: rest'.toList := by
    simpa [PathStep.text] using congrArg String.toList h
  obtain ⟨hdigits, -⟩ := Cut.cut_before_eq (Json.not_mem_toString (by decide) _)
    (Json.not_mem_toString (by decide) _) hchars
  exact Json.toString_inj (String.toList_inj.mp hdigits)

/-- Their passages are at different locations. -/
def Apart (a b : List PathStep × String) : Prop :=
  NonBlankText a.2 → NonBlankText b.2 → pathText a.1 ≠ pathText b.1

theorem Apart.cons_iff {step : PathStep} {a b : List PathStep × String} :
    Apart (step :: a.1, a.2) (step :: b.1, b.2) ↔ Apart a b := by
  simp [Apart]

/-- The locations of a string's passages. -/
def locationsAt (a : List PathStep × String) : List String :=
  (chunkText a.2).zipIdx.map fun (_, i) => "$" ++ pathText a.1 ++ "#" ++ toString (i + 1)

theorem nodup_locationsAt (a : List PathStep × String) : (locationsAt a).Nodup := by
  have hindices : ((chunkText a.2).zipIdx.map Prod.snd).Nodup := by
    rw [List.zipIdx_map_snd]
    exact List.nodup_range'
  have hlocations : locationsAt a = ((chunkText a.2).zipIdx.map Prod.snd).map
      fun i => "$" ++ pathText a.1 ++ "#" ++ toString (i + 1) := by
    rw [List.map_map]
    rfl
  rw [hlocations]
  exact hindices.map fun i j h => (location_inj h).2

theorem disjoint_locationsAt_iff {a b : List PathStep × String} :
    (∀ x ∈ locationsAt a, ∀ y ∈ locationsAt b, x ≠ y) ↔ Apart a b := by
  have hfirst {a : List PathStep × String} (hblank : NonBlankText a.2) :
      "$" ++ pathText a.1 ++ "#" ++ toString (0 + 1) ∈ locationsAt a := by
    obtain ⟨chunk, rest, hchunks⟩ := List.exists_cons_of_ne_nil (chunkText_ne_nil_iff.mpr hblank)
    rw [locationsAt, hchunks]
    exact List.mem_cons_self
  have hblank {a : List PathStep × String} {x : String} (hx : x ∈ locationsAt a) :
      NonBlankText a.2 := by
    refine chunkText_ne_nil_iff.mp fun hnone => ?_
    rw [locationsAt, hnone] at hx
    cases hx
  constructor
  · intro h ha hb hpath
    exact h _ (hfirst ha) _ (hfirst hb) (by rw [hpath])
  · intro h x hx y hy hxy
    refine h (hblank hx) (hblank hy) ?_
    obtain ⟨⟨_, i⟩, -, rfl⟩ := List.mem_map.mp hx
    obtain ⟨⟨_, j⟩, -, rfl⟩ := List.mem_map.mp hy
    exact (String.append_right_inj "$").mp (location_inj hxy).1

theorem distinctLocations_iff {revision : RevisionContent} :
    DistinctLocations revision ↔ (strings revision.content.val).Pairwise Apart := by
  have hlocations : (passagesOf revision).map (·.location)
      = (strings revision.content.val).flatMap locationsAt := by
    rw [(partitionsStrings revision).passages, List.map_flatMap]
    refine List.flatMap_congr fun ⟨path, s⟩ _ => ?_
    simp only [passagesAt, locationsAt, List.map_map]
    rfl
  rw [DistinctLocations, hlocations, List.Nodup, List.pairwise_flatMap]
  constructor
  · rintro ⟨-, hpairs⟩
    exact hpairs.imp disjoint_locationsAt_iff.mp
  · intro h
    exact ⟨fun a _ => nodup_locationsAt a, h.imp disjoint_locationsAt_iff.mpr⟩

/-! ## Where paths read the same -/

/-- Some path from the one key and some path from the other read the same. -/
def ReadSame (p q : String × Json) : Prop :=
  ∃ a ∈ strings p.2, ∃ b ∈ strings q.2, NonBlankText a.2 ∧ NonBlankText b.2
    ∧ p.1 ++ pathText a.1 = q.1 ++ pathText b.1

theorem ReadSame.symm {p q : String × Json} (h : ReadSame p q) : ReadSame q p := by
  obtain ⟨a, ha, b, hb, hblank, hblank', hreads⟩ := h
  exact ⟨b, hb, a, ha, hblank', hblank, hreads.symm⟩

theorem not_readSame_iff {p q : String × Json} :
    ¬ ReadSame p q ↔ ∀ a ∈ strings p.2, ∀ b ∈ strings q.2,
      Apart (.key p.1 :: a.1, a.2) (.key q.1 :: b.1, b.2) := by
  simp only [ReadSame, Apart, pathText_cons, PathStep.text, String.append_assoc, ne_eq,
    String.append_right_inj, not_exists, not_and]

theorem clash_obj_iff {fields : List (String × Json)} :
    Clash (.obj fields) ↔ (∃ p ∈ fields, ∃ q ∈ fields, p.1 ≠ q.1 ∧ ReadSame p q)
      ∨ ∃ p ∈ fields, Clash p.2 := by
  constructor
  · intro h
    cases h with
    | here hfield hfield' hkeys hstring hstring' hblank hblank' hreads =>
      exact Or.inl ⟨_, hfield, _, hfield', hkeys, _, hstring, _, hstring', hblank, hblank', hreads⟩
    | field hfield hclash => exact Or.inr ⟨_, hfield, hclash⟩
  · rintro (⟨p, hp, q, hq, hkeys, a, ha, b, hb, hblank, hblank', hreads⟩ | ⟨p, hp, hclash⟩)
    · exact .here hp hq hkeys ha hb hblank hblank' hreads
    · exact .field hp hclash

theorem clash_arr_iff {items : List Json} : Clash (.arr items) ↔ ∃ item ∈ items, Clash item := by
  constructor
  · intro h
    cases h with
    | item hitem hclash => exact ⟨_, hitem, hclash⟩
  · rintro ⟨item, hitem, hclash⟩
    exact .item hitem hclash

/-- Over the fields of an object, in their order or in any. -/
theorem pairwise_not_readSame_iff {fields : List (String × Json)}
    (hkeys : Json.DistinctKeys fields) :
    fields.Pairwise (fun p q => ¬ ReadSame p q)
      ↔ ∀ p ∈ fields, ∀ q ∈ fields, p.1 ≠ q.1 → ¬ ReadSame p q := by
  constructor
  · intro h p hp q hq hne
    have hsymm : Std.Symm fun p q => ¬ ReadSame p q := ⟨fun _ _ hnot hsame => hnot hsame.symm⟩
    exact h.forall hp hq fun heq => hne (congrArg Prod.fst heq)
  · intro h
    have hdistinct : fields.Pairwise fun p q => p.1 ≠ q.1 := List.pairwise_map.mp hkeys
    exact hdistinct.imp_of_mem fun hp hq hne => h _ hp _ hq hne

theorem pairwise_apart_map {step : PathStep} {found : List (List PathStep × String)} :
    (found.map fun (path, s) => (step :: path, s)).Pairwise Apart ↔ found.Pairwise Apart := by
  rw [List.pairwise_map]
  exact List.Pairwise.iff fun a b => Apart.cons_iff

theorem pairwise_apart_iff {v : Json} (h : v.wellFormed = true) :
    (strings v).Pairwise Apart ↔ ¬ Clash v := by
  induction v using Json.induction with
  | null | bool | num => exact iff_of_true .nil nofun
  | str s => exact iff_of_true (List.pairwise_singleton _ _) nofun
  | arr items ih =>
    have hitems := Json.wellFormed_arr.mp h
    have hindices : (items.zipIdx).Pairwise fun p q => p.2 ≠ q.2 := by
      refine List.pairwise_map.mp ?_
      rw [List.zipIdx_map_snd]
      exact List.nodup_range'
    rw [strings, itemStrings_eq, List.pairwise_flatMap, clash_arr_iff, and_iff_left]
    · constructor
      · rintro hall ⟨item, hitem, hclash⟩
        obtain ⟨i, hi, rfl⟩ := List.mem_iff_getElem.mp hitem
        have hpairs := hall (items[i], i) (List.mem_zipIdx_iff_getElem?.mpr (by simp))
        exact (ih _ hitem (hitems _ hitem)).mp (pairwise_apart_map.mp hpairs) hclash
      · rintro hnone ⟨item, i⟩ hp
        have hitem : item ∈ items := List.fst_mem_of_mem_zipIdx hp
        refine pairwise_apart_map.mpr ((ih _ hitem (hitems _ hitem)).mpr fun hclash => ?_)
        exact hnone ⟨item, hitem, hclash⟩
    · -- strings of different items differ in the index they start with
      refine hindices.imp ?_
      rintro ⟨item, i⟩ ⟨item', j⟩ hne x hx y hy
      obtain ⟨a, -, rfl⟩ := List.mem_map.mp hx
      obtain ⟨b, -, rfl⟩ := List.mem_map.mp hy
      intro _ _ hpath
      exact hne (index_inj hpath)
  | obj fields ih =>
    obtain ⟨hkeys, hvalues⟩ := Json.wellFormed_obj.mp h
    have hbetween {p q : String × Json} :
        (∀ x ∈ (strings p.2).map fun (path, s) => (.key p.1 :: path, s),
          ∀ y ∈ (strings q.2).map fun (path, s) => (.key q.1 :: path, s), Apart x y)
          ↔ ¬ ReadSame p q := by
      rw [not_readSame_iff]
      simp only [List.forall_mem_map]
    rw [strings, fieldStrings_eq, List.pairwise_flatMap, List.Pairwise.iff fun p q => hbetween,
      pairwise_not_readSame_iff hkeys, clash_obj_iff, not_or, and_comm]
    refine and_congr ?_ ?_
    · simp only [not_exists, not_and]
    · constructor
      · rintro hall ⟨⟨k, nested⟩, hp, hclash⟩
        have hpairs := pairwise_apart_map.mp (hall (k, nested) hp)
        exact (ih _ hp (hvalues _ hp)).mp hpairs hclash
      · rintro hnone ⟨k, nested⟩ hp
        refine pairwise_apart_map.mpr ((ih _ hp (hvalues _ hp)).mpr fun hclash => ?_)
        exact hnone ⟨(k, nested), hp, hclash⟩

/-- **The passages partition the strings of a revision**, and no two are at one location exactly
where no two keys of an object clash. -/
theorem passages_iff (revision : RevisionContent) :
    PartitionsStrings revision ∧ DistinctLocations revision ↔ ¬ Clash revision.content.val := by
  rw [and_iff_right (partitionsStrings revision), distinctLocations_iff]
  exact pairwise_apart_iff revision.content.wellFormed

/-! ### Keys without marks -/

def isMark (c : Char) : Bool := c = '.' || c = '['

theorem pathText_head (path : List PathStep) :
    pathText path = "" ∨ ∃ c rest, (pathText path).toList = c :: rest ∧ isMark c = true := by
  cases path with
  | nil => exact Or.inl rfl
  | cons step path =>
    refine Or.inr ?_
    cases step with
    | key k => exact ⟨'.', (k ++ pathText path).toList, by simp [PathStep.text], rfl⟩
    | index i =>
      exact ⟨'[', (toString i ++ "]" ++ pathText path).toList, by simp [PathStep.text], rfl⟩

/-- A key without marks ends where its path begins. -/
theorem takeWhile_key_path {key : String} (hkey : ∀ c ∈ key.toList, isMark c = false)
    (path : List PathStep) :
    (key ++ pathText path).toList.takeWhile (!isMark ·) = key.toList := by
  have hall : ∀ c ∈ key.toList, (!isMark c) = true := fun c hc => by rw [hkey c hc]; rfl
  rw [String.toList_append, List.takeWhile_append_of_pos hall]
  rcases pathText_head path with hnil | ⟨c, rest, hpath, hmark⟩
  · rw [hnil, String.toList_empty, List.takeWhile_nil, List.append_nil]
  · rw [hpath, List.takeWhile_cons_of_neg (by simp [hmark]), List.append_nil]

/-- No key of any object holds a mark. -/
def PlainKeys (v : Json) : Prop :=
  v.allObjects (fun fields => fields.all fun p => p.1.toList.all (!isMark ·)) = true

theorem not_clash_of_plainKeys {v : Json} (h : PlainKeys v) : ¬ Clash v := by
  intro hclash
  induction hclash with
  | @here fields _ _ _ _ _ _ _ _ hfield hfield' hkeys _ _ _ _ hreads =>
    obtain ⟨hplain, -⟩ := Json.allObjects_obj.mp h
    have hmarks {p : String × Json} (hp : p ∈ fields) : ∀ c ∈ p.1.toList, isMark c = false := by
      intro c hc
      have hkey := List.all_eq_true.mp (List.all_eq_true.mp hplain p hp) c hc
      simpa using hkey
    refine hkeys (String.toList_inj.mp ?_)
    rw [← takeWhile_key_path (hmarks hfield), hreads, takeWhile_key_path (hmarks hfield')]
  | field hfield _ ih => exact ih ((Json.allObjects_obj.mp h).2 _ hfield)
  | item hitem _ ih => exact ih (Json.allObjects_arr.mp h _ hitem)

/-! ### A key with a point in it -/

def pointedRevision : RevisionContent where
  id := 3
  checksum := "v1"
  content :=
    { val := .obj [("a", .obj [("b", .str "minimum income")]), ("a.b", .str "maximum income")]
      wellFormed := by decide }

/-- Two passages stand at `$.a.b#1`. -/
theorem pointed_key_clashes :
    ¬ (PartitionsStrings pointedRevision ∧ DistinctLocations pointedRevision) := by
  rintro ⟨-, hdistinct⟩
  refine (pairwise_apart_iff pointedRevision.content.wellFormed).mp
    (distinctLocations_iff.mp hdistinct) ?_
  exact .here List.mem_cons_self (List.mem_cons_of_mem _ List.mem_cons_self) (by decide)
    List.mem_cons_self List.mem_cons_self ⟨'m', by decide, by decide⟩ ⟨'m', by decide, by decide⟩
    (by decide)

end MortgageAgent.Policy
