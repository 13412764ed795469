import Mathlib.Data.List.Basic
import Mathlib.Data.List.Infix

/-!
# Keyset pagination

A listing is read page by page. Each query after the first asks for the rows behind the last row
of the page before, by a condition on a cursor that is made of that row. A cursor that is coarser
than the order of the listing may fail to tell the next row from the last.

* **`Keyset`** — what the condition and the listing have to do with each other: no row is behind
  itself or behind a later row, and the rows behind a row are the end of the listing.
* **`walk`** — the rows of so many pages.
* **`Seam`** — the row at a position is behind the row before it.
* **`take_walk_eq_iff`** — what is read is the start of the listing exactly if there is a seam at
  the end of each page.
-/

namespace Paging

variable {α : Type} {behind : α → α → Bool} {rows : List α}

/-- `behind a b`: the query for the rows behind `a` finds `b`. -/
structure Keyset (behind : α → α → Bool) (rows : List α) : Prop where
  irrefl : ∀ a ∈ rows, behind a a = false
  forward : rows.Pairwise fun a b => behind b a = false
  upward : ∀ a ∈ rows, rows.Pairwise fun b c => behind a b = true → behind a c = true

/-- The rows a query is about: all of the listing, or those behind a row of it. -/
def found (behind : α → α → Bool) (rows : List α) : Option α → List α
  | none => rows
  | some a => rows.filter (behind a)

/-- The rows of the first `m` pages of `n` rows. -/
def walk (behind : α → α → Bool) (rows : List α) (n : Nat) : (m : Nat) → Option α → List α
  | 0, _ => []
  | m + 1, cursor =>
    let page := (found behind rows cursor).take n
    match page.getLast? with
    | none => []
    | some last => page ++ walk behind rows n m (some last)

/-- The row at a position is behind the row before it. -/
def Seam (behind : α → α → Bool) (rows : List α) (k : Nat) : Prop :=
  ∀ last ∈ rows[k - 1]?, ∀ first ∈ rows[k]?, behind last first = true

instance (k : Nat) : Decidable (Seam behind rows k) :=
  inferInstanceAs (Decidable (∀ last ∈ rows[k - 1]?, ∀ first ∈ rows[k]?, behind last first = true))

/-! ## One query -/

/-- Where what a condition keeps is the end of the list, it keeps all of it or drops its first. -/
theorem filter_suffix {p : α → Bool} {l : List α}
    (hup : l.Pairwise fun b c => p b = true → p c = true) : l.filter p <:+ l := by
  induction l with
  | nil => exact List.suffix_rfl
  | cons b l ih =>
    obtain ⟨hhead, htail⟩ := List.pairwise_cons.mp hup
    by_cases hb : p b = true
    · have hall : ∀ c ∈ b :: l, p c = true := by
        intro c hc
        rcases List.mem_cons.mp hc with rfl | hc
        · exact hb
        · exact hhead c hc hb
      rw [List.filter_eq_self.mpr hall]
    · rw [List.filter_cons_of_neg hb]
      exact (ih htail).trans (List.suffix_cons b l)

theorem Keyset.filter_eq (h : Keyset behind rows) {pre post : List α} {a : α}
    (hrows : rows = pre ++ a :: post) : rows.filter (behind a) = post.filter (behind a) := by
  subst hrows
  have hforward := List.pairwise_append.mp h.forward
  have hpre : pre.filter (behind a) = [] := by
    rw [List.filter_eq_nil_iff]
    intro b hb
    rw [hforward.2.2 b hb a (List.mem_cons_self ..)]
    exact Bool.false_ne_true
  have ha : ¬ behind a a = true := by
    rw [h.irrefl a (by simp)]
    exact Bool.false_ne_true
  rw [List.filter_append, hpre, List.nil_append, List.filter_cons_of_neg ha]

/-- The rows behind a row are the end of those that follow it. -/
theorem Keyset.filter_suffix (h : Keyset behind rows) {pre post : List α} {a : α}
    (hrows : rows = pre ++ a :: post) : rows.filter (behind a) <:+ post := by
  rw [h.filter_eq hrows]
  refine Paging.filter_suffix ?_
  have hup := h.upward a (by simp [hrows])
  rw [hrows] at hup
  exact (List.pairwise_cons.mp (List.pairwise_append.mp hup).2.1).2

/-- The rows behind a row are all that follow it if the first of these is one of them. -/
theorem Keyset.filter_eq_post (h : Keyset behind rows) {pre post : List α} {a : α}
    (hrows : rows = pre ++ a :: post) (hfirst : ∀ b ∈ post.head?, behind a b = true) :
    rows.filter (behind a) = post := by
  rw [h.filter_eq hrows, List.filter_eq_self]
  have hup := h.upward a (by simp [hrows])
  rw [hrows] at hup
  have hpost := (List.pairwise_cons.mp (List.pairwise_append.mp hup).2.1).2
  cases post with
  | nil => nofun
  | cons b post =>
    have hb : behind a b = true := hfirst b rfl
    intro c hc
    rcases List.mem_cons.mp hc with rfl | hc
    · exact hb
    · exact (List.pairwise_cons.mp hpost).1 c hc hb

/-- There are rows behind a row if the last of the listing is one. -/
theorem Keyset.filter_ne_nil_iff (h : Keyset behind rows) {a : α} (ha : a ∈ rows) :
    rows.filter (behind a) ≠ [] ↔ ∀ last ∈ rows.getLast?, behind a last = true := by
  constructor
  · intro hne last hlast
    obtain ⟨pre, post, hrows⟩ := List.append_of_mem ha
    obtain ⟨before, hsuffix⟩ := (h.filter_suffix hrows).trans (hrows ▸ List.suffix_append_of_suffix
      (List.suffix_cons a post))
    rw [← hsuffix, List.getLast?_append_of_ne_nil _ hne] at hlast
    exact (List.mem_filter.mp (List.mem_of_getLast? hlast)).2
  · intro hlast hnil
    have hne : rows ≠ [] := List.ne_nil_of_mem ha
    have hbehind := hlast _ (List.getLast?_eq_some_getLast hne)
    exact List.filter_eq_nil_iff.mp hnil _ (List.getLast_mem hne) hbehind

/-- Where the last row of a page is in the listing. -/
theorem exists_split_of_getLast? {rest : List α} {n : Nat} {last : α} (hrest : rest <:+ rows)
    (hlast : (rest.take n).getLast? = some last) :
    ∃ pre, rows = pre ++ last :: rest.drop n := by
  obtain ⟨before, hpage⟩ := List.getLast?_eq_some_iff.mp hlast
  obtain ⟨start, hrows⟩ := hrest
  refine ⟨start ++ before, ?_⟩
  calc rows = start ++ (rest.take n ++ rest.drop n) := by rw [List.take_append_drop, hrows]
    _ = start ++ before ++ last :: rest.drop n := by rw [hpage]; simp

theorem found_suffix (h : Keyset behind rows) {rest : List α} {n : Nat} {last : α}
    (hrest : rest <:+ rows) (hlast : (rest.take n).getLast? = some last) :
    found behind rows (some last) <:+ rest.drop n := by
  obtain ⟨pre, hrows⟩ := exists_split_of_getLast? hrest hlast
  exact h.filter_suffix hrows

/-- Where there is a seam at the end of a page, the next query finds all that follows it. -/
theorem found_eq_drop (h : Keyset behind rows) {rest : List α} {n : Nat} {last : α}
    (hrest : rest <:+ rows) (hlast : (rest.take n).getLast? = some last)
    (hseam : ∀ first ∈ (rest.drop n).head?, behind last first = true) :
    found behind rows (some last) = rest.drop n := by
  obtain ⟨pre, hrows⟩ := exists_split_of_getLast? hrest hlast
  exact h.filter_eq_post hrows hseam

theorem exists_getLast?_take {rest : List α} {n : Nat} (hn : 0 < n) (hlength : n ≤ rest.length) :
    ∃ last, (rest.take n).getLast? = some last := by
  refine Option.ne_none_iff_exists'.mp (fun hnone => ?_)
  have hpage := List.length_take_of_le hlength
  rw [List.getLast?_eq_none_iff.mp hnone, List.length_nil] at hpage
  omega

theorem walk_succ {n m : Nat} {cursor : Option α} {last : α}
    (hlast : ((found behind rows cursor).take n).getLast? = some last) :
    walk behind rows n (m + 1) cursor
      = (found behind rows cursor).take n ++ walk behind rows n m (some last) := by
  rw [walk, hlast]

/-! ## All queries -/

/-- What is read is found by the first query: nothing is read twice, and the order is kept. -/
theorem walk_sublist (h : Keyset behind rows) (n m : Nat) {cursor : Option α}
    (hfound : found behind rows cursor <:+ rows) :
    (walk behind rows n m cursor).Sublist (found behind rows cursor) := by
  induction m generalizing cursor with
  | zero => exact List.nil_sublist _
  | succ m ih =>
    cases hlast : ((found behind rows cursor).take n).getLast? with
    | none =>
      rw [walk, hlast]
      exact List.nil_sublist _
    | some last =>
      have hnext := found_suffix h hfound hlast
      have hrest := (hnext.trans (List.drop_suffix ..)).trans hfound
      rw [walk_succ hlast]
      conv => rhs; rw [← List.take_append_drop n (found behind rows cursor)]
      exact (List.Sublist.refl _).append ((ih hrest).trans hnext.sublist)

/-- Where one page holds all that the first query finds, no more is read. -/
theorem walk_short (h : Keyset behind rows) {n : Nat} (m : Nat) {cursor : Option α}
    (hfound : found behind rows cursor <:+ rows) (hshort : (found behind rows cursor).length ≤ n) :
    walk behind rows n (m + 1) cursor = found behind rows cursor := by
  have hpage : (found behind rows cursor).take n = found behind rows cursor :=
    List.take_of_length_le hshort
  cases hlast : ((found behind rows cursor).take n).getLast? with
  | none =>
    rw [walk, hlast, ← hpage]
    exact (List.getLast?_eq_none_iff.mp hlast).symm
  | some last =>
    have hnext := found_suffix h hfound hlast
    rw [List.drop_of_length_le hshort, List.suffix_nil] at hnext
    have hrest : found behind rows (some last) <:+ rows := hnext ▸ List.nil_suffix
    have hmore := walk_sublist h n m hrest
    rw [hnext, List.sublist_nil] at hmore
    rw [walk_succ hlast, hmore, List.append_nil, hpage]

theorem seam_drop {n k : Nat} (hk : 0 < k) :
    Seam behind (rows.drop n) k ↔ Seam behind rows (n + k) := by
  have hindex : n + (k - 1) = n + k - 1 := by omega
  rw [Seam, Seam, List.getElem?_drop, List.getElem?_drop, hindex]

/-- Beyond the listing there is a seam everywhere. -/
theorem seam_of_length_le {k : Nat} (h : rows.length ≤ k) : Seam behind rows k := by
  rw [Seam, List.getElem?_eq_none h]
  exact fun _ _ _ hnone => by cases hnone

/-- The seam at the end of a page, in terms of its last row and of the rows after it. -/
theorem seam_iff_head {n : Nat} {last : α} (hlast : (rows.take n).getLast? = some last)
    (hlength : n ≤ rows.length) :
    Seam behind rows n ↔ ∀ first ∈ (rows.drop n).head?, behind last first = true := by
  have hpage : (rows.take n).length = n := List.length_take_of_le hlength
  have hn : n - 1 < n := by
    rcases Nat.eq_zero_or_pos n with rfl | hn
    · cases hlast
    · omega
  rw [List.getLast?_eq_getElem?, hpage, List.getElem?_take_of_lt hn] at hlast
  rw [Seam, hlast, List.head?_drop]
  simp

/-- The seams up to a position, from the first page on. -/
theorem seams_succ_iff {n more : Nat} (hn : 0 < n) (hmore : 0 < more) :
    (∀ k, 0 < k → k * n < n + more → Seam behind rows (k * n)) ↔
      Seam behind rows n ∧ ∀ k, 0 < k → k * n < more → Seam behind (rows.drop n) (k * n) := by
  constructor
  · intro hseams
    have hone := hseams 1 Nat.one_pos (by omega)
    rw [Nat.one_mul] at hone
    refine ⟨hone, fun k hk hlt => ?_⟩
    have hseam := hseams (k + 1) (Nat.succ_pos k) (by rw [Nat.succ_mul]; omega)
    rw [Nat.succ_mul, Nat.add_comm] at hseam
    exact (seam_drop (Nat.mul_pos hk hn)).mpr hseam
  · rintro ⟨hone, hseams⟩ k hk hlt
    obtain ⟨j, rfl⟩ := Nat.exists_eq_succ_of_ne_zero hk.ne'
    rw [Nat.succ_mul] at hlt ⊢
    rcases Nat.eq_zero_or_pos j with rfl | hj
    · simpa using hone
    · rw [Nat.add_comm, ← seam_drop (Nat.mul_pos hj hn)]
      exact hseams j hj (by omega)

/-- The first rows that are read are the first of those the first query finds, exactly if there is
a seam at the end of each page that they reach beyond. -/
theorem take_walk_eq_iff (h : Keyset behind rows) {n m need : Nat} (hn : 0 < n)
    (hneed : need ≤ m * n) {cursor : Option α} (hfound : found behind rows cursor <:+ rows) :
    (walk behind rows n m cursor).take need = (found behind rows cursor).take need ↔
      ∀ k, 0 < k → k * n < need → Seam behind (found behind rows cursor) (k * n) := by
  induction m generalizing cursor need with
  | zero =>
    have hzero : need = 0 := by simpa using hneed
    subst hzero
    exact iff_of_true rfl (fun k _ hk => absurd hk (Nat.not_lt_zero _))
  | succ m ih =>
    by_cases hshort : (found behind rows cursor).length ≤ n
    · rw [walk_short h m hfound hshort]
      exact iff_of_true rfl (fun k hk _ =>
        seam_of_length_le (hshort.trans (Nat.le_mul_of_pos_left n hk)))
    obtain ⟨last, hlast⟩ := exists_getLast?_take hn (Nat.le_of_not_le hshort)
    have hnext := found_suffix h hfound hlast
    have hrest := (hnext.trans (List.drop_suffix ..)).trans hfound
    have hmore := walk_sublist h n m hrest
    rw [walk_succ hlast]
    generalize found behind rows cursor = rest at *
    have hpage : (rest.take n).length = n := List.length_take_of_le (by omega)
    by_cases hwithin : need ≤ n
    · -- no more than the first page is needed
      rw [List.take_append_of_le_length (by omega), List.take_take, Nat.min_eq_left hwithin]
      refine iff_of_true rfl (fun k hk hneed' => ?_)
      have hle := Nat.le_mul_of_pos_left n hk
      omega
    obtain ⟨more, rfl⟩ : ∃ more, need = n + (more + 1) := ⟨need - n - 1, by omega⟩
    have hseam : Seam behind rest n ↔ ∀ first ∈ (rest.drop n).head?, behind last first = true :=
      seam_iff_head hlast (by omega)
    rw [List.take_append, hpage, List.take_of_length_le (by omega), List.take_add,
      List.append_cancel_left_eq, Nat.add_sub_cancel_left, seams_succ_iff hn (Nat.succ_pos more)]
    by_cases hhead : Seam behind rest n
    · have hleft : more + 1 ≤ m * n := by
        rw [Nat.succ_mul] at hneed
        omega
      have hstep := ih hleft hrest
      rw [found_eq_drop h hfound hlast (hseam.mp hhead)] at hstep
      rw [hstep, and_iff_right hhead]
    · -- the row after the page is not behind it, so no later page has it
      refine iff_of_false (fun htake => hhead (hseam.mpr fun first hfirst => ?_))
        (fun hseams => hhead hseams.1)
      obtain ⟨tail, htail⟩ := List.head?_eq_some_iff.mp hfirst
      rw [htail, List.take_succ_cons] at htake
      have hread : first ∈ found behind rows (some last) :=
        hmore.mem (List.mem_of_mem_take (htake ▸ List.mem_cons_self ..))
      exact (List.mem_filter.mp hread).2

end Paging
