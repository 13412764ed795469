import MortgageAgent.Database.Listing
import MortgageAgent.Lib.Table

/-!
# The audit export

`AuditEventService.listAll` reads the whole history of a tenant, page by page, up to a cap, and
says whether the cap has cut it off.

* **`fetchPages`** — the loop over the pages.
* **`listAll`** — the events up to the cap, and the probe for more.
* **`Export.Complete`** — what an export promises.
* **`listAll_complete_iff`** — it is kept exactly if no page, and not the cap, ends inside a
  millisecond in such a way that the next cursor passes over the rest of it.
-/

namespace MortgageAgent

/-- The columns of `audit_events` that the export is ordered and selected by. -/
structure AuditEvent where
  id : Uuid
  tenantId : Uuid
  createdAt : Timestamptz
  deriving DecidableEq

def AuditEvent.key (e : AuditEvent) : RowKey := { createdAt := e.createdAt, id := e.id }

abbrev AuditEvents := Table AuditEvent AuditEvent.id

namespace AuditEventService

def pageSize : Nat := 1000

/-- The events of a tenant that the cursor finds, and without one all of them. -/
def AuditEvent.isSelected (tenantId : Uuid) (cursor : Option Cursor) (e : AuditEvent) : Bool :=
  e.tenantId = tenantId && match cursor with
    | none => true
    | some c => c.finds e.key

def fetchPage (table : AuditEvents) (tenantId : Uuid) (cursor : Option Cursor) (take : Nat) :
    List AuditEvent :=
  (newestFirst AuditEvent.key (table.rows.filter (AuditEvent.isSelected tenantId cursor))).take take

/-- The variables of the loop. -/
structure Progress where
  events : List AuditEvent := []
  cursor : Option Cursor := none
  reachedRealEnd : Bool := false

/-- `while (events.length < maxEvents)`. -/
def fetchPages (table : AuditEvents) (tenantId : Uuid) (maxEvents : Nat) (s : Progress) :
    Progress :=
  if s.events.length < maxEvents then
    let page := fetchPage table tenantId s.cursor pageSize
    match page.getLast? with
    | none => { s with reachedRealEnd := true }
    | some last =>
      let events := s.events ++ page
      let cursor := some last.key.cursor
      if page.length < pageSize then { events, cursor, reachedRealEnd := true }
      else fetchPages table tenantId maxEvents { s with events, cursor }
  else s
  termination_by maxEvents - s.events.length
  decreasing_by
    have hfull : ¬ page.length < pageSize := by assumption
    have hlength : (s.events ++ page).length = s.events.length + page.length :=
      List.length_append
    show maxEvents - (s.events ++ page).length < maxEvents - s.events.length
    rw [pageSize] at hfull
    omega

structure Export where
  events : List AuditEvent
  truncated : Bool
  deriving DecidableEq

/-- `none` where the last of no events is read, which throws a `TypeError`. -/
def listAll (table : AuditEvents) (tenantId : Uuid) (maxEvents : Nat) : Option Export :=
  let s := fetchPages table tenantId maxEvents {}
  let trimmed := s.events.take maxEvents
  if s.reachedRealEnd && s.events.length ≤ maxEvents then
    some { events := trimmed, truncated := false }
  else
    match trimmed.getLast? with
    | none => none
    | some cutoff =>
      let beyondCap := fetchPage table tenantId (some cutoff.key.cursor) 1
      some { events := trimmed, truncated := 0 < beyondCap.length }

/-! ## The pages and the history -/

/-- The events of the tenant, in the order of the export. -/
def history (table : AuditEvents) (tenantId : Uuid) : List AuditEvent :=
  newestFirst AuditEvent.key (table.rows.filter fun e => e.tenantId = tenantId)

variable {table : AuditEvents} {tenantId : Uuid} {maxEvents : Nat}

theorem keys_nodup (p : AuditEvent → Bool) : ((table.rows.filter p).map AuditEvent.key).Nodup := by
  have hids : ((table.rows.filter p).map AuditEvent.id).Nodup :=
    table.nodup.sublist (List.filter_sublist.map AuditEvent.id)
  refine List.Nodup.of_map RowKey.id ?_
  rwa [List.map_map]

theorem history_nodup : (history table tenantId).Nodup :=
  (newestFirst_nodup (keys_nodup _)).of_map AuditEvent.key

theorem keyset_history :
    Paging.Keyset (behindCursor AuditEvent.key) (history table tenantId) :=
  keyset_newestFirst (keys_nodup _)

theorem fetchPage_eq (last : Option AuditEvent) (take : Nat) :
    fetchPage table tenantId (last.map (·.key.cursor)) take
      = (Paging.found (behindCursor AuditEvent.key) (history table tenantId) last).take take := by
  cases last with
  | none =>
    have hall : AuditEvent.isSelected tenantId none
        = fun e : AuditEvent => e.tenantId = tenantId := by
      funext e
      simp [AuditEvent.isSelected]
    rw [fetchPage, Option.map_none, hall]
    rfl
  | some a =>
    rw [fetchPage, Paging.found, history, ← newestFirst_filter (keys_nodup _), List.filter_filter]
    congr 3
    funext e
    simp [AuditEvent.isSelected, behindCursor, Bool.and_comm]

/-- The page behind the last of the events that have been read. -/
theorem page_eq {s : Progress} {last : Option AuditEvent}
    (hcursor : s.cursor = last.map (·.key.cursor)) :
    fetchPage table tenantId s.cursor pageSize
      = (Paging.found (behindCursor AuditEvent.key) (history table tenantId) last).take
        pageSize := by
  rw [hcursor, fetchPage_eq]

/-- The pages that the loop reads from a number of events on. -/
def pagesLeft (maxEvents events : Nat) : Nat := (maxEvents - events + (pageSize - 1)) / pageSize

theorem pagesLeft_full {events page : Nat} (hlt : events < maxEvents) (hpage : page = pageSize) :
    pagesLeft maxEvents events = pagesLeft maxEvents (events + page) + 1 := by
  simp only [pagesLeft, pageSize] at *
  omega

theorem pagesLeft_pos {events : Nat} (hlt : events < maxEvents) :
    ∃ m, pagesLeft maxEvents events = m + 1 := by
  refine Nat.exists_eq_succ_of_ne_zero (Nat.pos_iff_ne_zero.mp ?_)
  simp only [pagesLeft, pageSize]
  omega

/-- The loop reads the pages of a keyset walk. -/
theorem fetchPages_events {s : Progress} {last : Option AuditEvent}
    (hcursor : s.cursor = last.map (·.key.cursor))
    (hfound : Paging.found (behindCursor AuditEvent.key) (history table tenantId) last
      <:+ history table tenantId) :
    (fetchPages table tenantId maxEvents s).events = s.events
      ++ Paging.walk (behindCursor AuditEvent.key) (history table tenantId) pageSize
          (pagesLeft maxEvents s.events.length) last := by
  fun_induction fetchPages table tenantId maxEvents s generalizing last with
  | case1 s hlt page =>
    rename_i hnone
    obtain ⟨m, hm⟩ := pagesLeft_pos hlt
    rw [show page = _ from page_eq hcursor] at hnone
    rw [hm, Paging.walk, hnone, List.append_nil]
  | case2 s hlt page a ha events cursor =>
    rename_i hshort
    obtain ⟨m, hm⟩ := pagesLeft_pos hlt
    have hpage : page = _ := page_eq hcursor
    rw [hpage, List.length_take] at hshort
    have hlength : (Paging.found (behindCursor AuditEvent.key) (history table tenantId) last).length
        ≤ pageSize := by omega
    rw [hm, Paging.walk_short keyset_history m hfound hlength,
      ← List.take_of_length_le hlength, ← hpage]
  | case3 s hlt page a ha events cursor hfull =>
    rename_i ih
    have hpage : page = _ := page_eq hcursor
    rw [hpage] at ha
    have hlength : page.length = pageSize := by
      have htake := List.length_take_le pageSize
        (Paging.found (behindCursor AuditEvent.key) (history table tenantId) last)
      rw [← hpage] at htake
      omega
    have hnext := Paging.found_suffix keyset_history hfound ha
    have hrest := (hnext.trans (List.drop_suffix ..)).trans hfound
    have hcursor' : cursor = Option.map (fun e : AuditEvent => e.key.cursor) (some a) := rfl
    have hleft := pagesLeft_full hlt hlength
    rw [← List.length_append] at hleft
    rw [ih hcursor' hrest, hleft, Paging.walk_succ ha, ← hpage, ← List.append_assoc]
  | case4 s hge =>
    have hzero : pagesLeft maxEvents s.events.length = 0 := by
      simp only [pagesLeft, pageSize]
      omega
    rw [hzero, Paging.walk, List.append_nil]

/-- Where the loop finds the end, it has read the last event of the history, unless it has read
fewer than it may. -/
theorem fetchPages_reachedRealEnd {s : Progress} {last : Option AuditEvent}
    (hcursor : s.cursor = last.map (·.key.cursor))
    (hfound : Paging.found (behindCursor AuditEvent.key) (history table tenantId) last
      <:+ history table tenantId)
    (hend : (fetchPages table tenantId maxEvents s).reachedRealEnd = true) :
    s.reachedRealEnd = true
      ∨ (fetchPages table tenantId maxEvents s).events.length < maxEvents
      ∨ (fetchPages table tenantId maxEvents s).events.getLast?
          = (history table tenantId).getLast? := by
  fun_induction fetchPages table tenantId maxEvents s generalizing last with
  | case1 s hlt page => exact Or.inr (Or.inl hlt)
  | case2 s hlt page a ha events cursor =>
    rename_i hshort
    have hpage : page = _ := page_eq hcursor
    have hall :
        Paging.found (behindCursor AuditEvent.key) (history table tenantId) last = page := by
      rw [hpage, List.length_take] at hshort
      rw [hpage, List.take_of_length_le (by omega)]
    rw [hall] at hfound
    obtain ⟨before, hbefore⟩ := hfound
    refine Or.inr (Or.inr ?_)
    rw [← hbefore, List.getLast?_append, List.getLast?_append, ha]
    rfl
  | case3 s hlt page a ha events cursor hfull =>
    rename_i ih
    have hpage : page = _ := page_eq hcursor
    rw [hpage] at ha
    have hnext := Paging.found_suffix keyset_history hfound ha
    have hrest := (hnext.trans (List.drop_suffix ..)).trans hfound
    exact ih rfl hrest hend
  | case4 s hge => exact Or.inl hend

theorem fetchPages_exit (s : Progress) :
    (fetchPages table tenantId maxEvents s).reachedRealEnd = true
      ∨ maxEvents ≤ (fetchPages table tenantId maxEvents s).events.length := by
  fun_induction fetchPages table tenantId maxEvents s with
  | case1 => exact Or.inl rfl
  | case2 => exact Or.inl rfl
  | case3 =>
    rename_i ih
    exact ih
  | case4 s hge => exact Or.inr (Nat.not_lt.mp hge)

/-! ## The promise -/

theorem start_cursor :
    ({} : Progress).cursor = (none : Option AuditEvent).map (·.key.cursor) := rfl

/-- The first events of the history up to the cap, and whether there are more. -/
def Export.Complete (history : List AuditEvent) (maxEvents : Nat) (e : Export) : Prop :=
  e.events = history.take maxEvents ∧ (e.truncated = true ↔ maxEvents < history.length)

/-- The events that the loop has read, cut off at the cap. -/
def trimmed (table : AuditEvents) (tenantId : Uuid) (maxEvents : Nat) : List AuditEvent :=
  (fetchPages table tenantId maxEvents {}).events.take maxEvents

theorem trimmed_eq_iff :
    trimmed table tenantId maxEvents = (history table tenantId).take maxEvents ↔
      ∀ k, 0 < k → k * pageSize < maxEvents →
        Paging.Seam (behindCursor AuditEvent.key) (history table tenantId) (k * pageSize) := by
  have hneed : maxEvents ≤ pagesLeft maxEvents 0 * pageSize := by
    simp only [pagesLeft, pageSize]
    omega
  have hstart : Paging.found (behindCursor AuditEvent.key) (history table tenantId) none
      <:+ history table tenantId := List.suffix_rfl
  rw [trimmed, fetchPages_events start_cursor hstart, List.nil_append]
  exact Paging.take_walk_eq_iff keyset_history (by decide) hneed hstart

/-- The loop has found the end, and no more than the cap: there is no need for the probe. -/
def Settled (table : AuditEvents) (tenantId : Uuid) (maxEvents : Nat) : Prop :=
  (fetchPages table tenantId maxEvents {}).reachedRealEnd = true
    ∧ (fetchPages table tenantId maxEvents {}).events.length ≤ maxEvents

theorem listAll_of_settled (h : Settled table tenantId maxEvents) :
    listAll table tenantId maxEvents
      = some { events := trimmed table tenantId maxEvents, truncated := false } := by
  rw [listAll, if_pos (by simpa [Settled] using h)]
  rfl

theorem listAll_of_not_settled (hmax : 1 ≤ maxEvents) (h : ¬ Settled table tenantId maxEvents) :
    ∃ cutoff, (trimmed table tenantId maxEvents).getLast? = some cutoff ∧
      listAll table tenantId maxEvents = some {
        events := trimmed table tenantId maxEvents
        truncated := 0 < (fetchPage table tenantId (some cutoff.key.cursor) 1).length } := by
  obtain ⟨cutoff, hcutoff⟩ :
      ∃ cutoff, (trimmed table tenantId maxEvents).getLast? = some cutoff := by
    refine Option.ne_none_iff_exists'.mp (fun hnone => h ?_)
    have hempty : (fetchPages table tenantId maxEvents {}).events = [] := by
      rcases List.take_eq_nil_iff.mp (List.getLast?_eq_none_iff.mp hnone) with hzero | hempty
      · omega
      · exact hempty
    rcases fetchPages_exit {} with hend | hge
    · exact ⟨hend, by simp [hempty]⟩
    · rw [hempty] at hge
      exact absurd hmax (by simpa using hge)
  refine ⟨cutoff, hcutoff, ?_⟩
  rw [trimmed] at hcutoff
  rw [listAll, if_neg (by simpa [Settled] using h), hcutoff]
  rfl

theorem listAll_events {e : Export} (he : listAll table tenantId maxEvents = some e) :
    e.events = trimmed table tenantId maxEvents := by
  rw [listAll] at he
  split at he
  · cases he
    rfl
  · split at he
    · cases he
    · cases he
      rfl

theorem mem_history_of_trimmed {cutoff : AuditEvent}
    (h : trimmed table tenantId maxEvents = (history table tenantId).take maxEvents)
    (hcutoff : (trimmed table tenantId maxEvents).getLast? = some cutoff) :
    cutoff ∈ history table tenantId :=
  List.mem_of_mem_take (h ▸ List.mem_of_getLast? hcutoff)

/-- The probe finds an event just if the last of the history is behind the cutoff. -/
theorem beyondCap_pos_iff {cutoff : AuditEvent} (hcutoff : cutoff ∈ history table tenantId) :
    0 < (fetchPage table tenantId (some cutoff.key.cursor) 1).length ↔
      ∀ last ∈ (history table tenantId).getLast?,
        behindCursor AuditEvent.key cutoff last = true := by
  rw [← (keyset_history).filter_ne_nil_iff hcutoff]
  have hprobe : fetchPage table tenantId (some cutoff.key.cursor) 1 = _ :=
    fetchPage_eq (some cutoff) 1
  rw [hprobe, Paging.found, List.length_take, ← List.length_pos_iff]
  omega

/-- Where the loop has found the end and not gone over the cap, there is no more. -/
theorem length_le_of_reachedRealEnd (hmax : 1 ≤ maxEvents)
    (h : trimmed table tenantId maxEvents = (history table tenantId).take maxEvents)
    (hend : (fetchPages table tenantId maxEvents {}).reachedRealEnd = true)
    (hlength : (fetchPages table tenantId maxEvents {}).events.length ≤ maxEvents) :
    (history table tenantId).length ≤ maxEvents := by
  by_contra hmore
  rw [trimmed, List.take_of_length_le hlength] at h
  have hevents : (fetchPages table tenantId maxEvents {}).events.length = maxEvents := by
    rw [h, List.length_take]
    omega
  rcases fetchPages_reachedRealEnd start_cursor List.suffix_rfl hend with hstart | hlt | hlast
  · cases hstart
  · omega
  · -- the last event of the history would stand at the cap too
    rw [h, List.getLast?_eq_getElem?, List.getLast?_eq_getElem?, List.length_take,
      Nat.min_eq_left (by omega), List.getElem?_take_of_lt (by omega)] at hlast
    exact List.nodup_iff_getElem?_ne_getElem?.mp history_nodup (maxEvents - 1)
      ((history table tenantId).length - 1) (by omega) (by omega) hlast

/-- Where the export is probed, it tells if there is more just if the last event is behind the
cursor of the cap or the cap cuts off nothing. -/
theorem probed_complete_iff (hmax : 1 ≤ maxEvents)
    (htrimmed : trimmed table tenantId maxEvents = (history table tenantId).take maxEvents)
    (hsettled : ¬ Settled table tenantId maxEvents) :
    (∃ e, listAll table tenantId maxEvents = some e
        ∧ e.Complete (history table tenantId) maxEvents) ↔
      (maxEvents < (history table tenantId).length →
        ∀ cutoff ∈ (history table tenantId)[maxEvents - 1]?,
        ∀ last ∈ (history table tenantId).getLast?,
          behindCursor AuditEvent.key cutoff last = true) := by
  obtain ⟨cutoff, hcutoff, hprobe⟩ := listAll_of_not_settled hmax hsettled
  have hmem := mem_history_of_trimmed htrimmed hcutoff
  have hcomplete : (∃ e, listAll table tenantId maxEvents = some e
        ∧ e.Complete (history table tenantId) maxEvents) ↔
      ((∀ last ∈ (history table tenantId).getLast?,
        behindCursor AuditEvent.key cutoff last = true) ↔
          maxEvents < (history table tenantId).length) := by
    rw [hprobe, ← beyondCap_pos_iff hmem]
    simp [Export.Complete, htrimmed]
  rw [hcomplete]
  rw [htrimmed] at hcutoff
  by_cases hlt : maxEvents < (history table tenantId).length
  · have hat : (history table tenantId)[maxEvents - 1]? = some cutoff := by
      rw [← hcutoff, List.getLast?_eq_getElem?, List.length_take, Nat.min_eq_left hlt.le,
        List.getElem?_take_of_lt (by omega)]
    simp [hlt, hat]
  · -- the cutoff is the last event, which is not behind itself
    rw [List.take_of_length_le (Nat.not_lt.mp hlt)] at hcutoff
    refine iff_of_true (iff_of_false (fun hbehind => ?_) hlt) (fun h => absurd h hlt)
    have hself := hbehind cutoff hcutoff
    rw [keyset_history.irrefl cutoff hmem] at hself
    exact Bool.false_ne_true hself

/-- **An export is complete, and tells if there is more,** exactly if at the end of each page below
the cap the next event is behind the cursor, and where the cap cuts off some event, the last one is
behind the cursor of the cap. -/
theorem listAll_complete_iff (table : AuditEvents) (tenantId : Uuid) {maxEvents : Nat}
    (hmax : 1 ≤ maxEvents) :
    (∃ e, listAll table tenantId maxEvents = some e
        ∧ e.Complete (history table tenantId) maxEvents) ↔
      (∀ k, 0 < k → k * pageSize < maxEvents →
        Paging.Seam (behindCursor AuditEvent.key) (history table tenantId) (k * pageSize)) ∧
      (maxEvents < (history table tenantId).length →
        ∀ cutoff ∈ (history table tenantId)[maxEvents - 1]?,
        ∀ last ∈ (history table tenantId).getLast?,
          behindCursor AuditEvent.key cutoff last = true) := by
  rw [← trimmed_eq_iff]
  by_cases htrimmed : trimmed table tenantId maxEvents = (history table tenantId).take maxEvents
  · rw [and_iff_right htrimmed]
    by_cases hsettled : Settled table tenantId maxEvents
    · have hlength := length_le_of_reachedRealEnd hmax htrimmed hsettled.1 hsettled.2
      refine iff_of_true ⟨_, listAll_of_settled hsettled, htrimmed, ?_⟩
        (fun hlt => absurd hlt (Nat.not_lt.mpr hlength))
      exact iff_of_false Bool.false_ne_true (Nat.not_lt.mpr hlength)
    · exact probed_complete_iff hmax htrimmed hsettled
  · refine iff_of_false (fun ⟨e, he, hcomplete⟩ => htrimmed ?_) (fun h => htrimmed h.1)
    exact (listAll_events he).symm.trans hcomplete.1

/-- Two events of a tenant, some microseconds apart. -/
def twoEvents (apart : Timestamptz) : AuditEvents where
  rows := [{ id := 1, tenantId := 7, createdAt := 1786795200123456 },
    { id := 2, tenantId := 7, createdAt := 1786795200123456 - apart }]
  nodup := by simp

theorem listAll_complete_second :
    ∃ e, listAll (twoEvents 1000000) 7 1 = some e ∧ e.Complete (history (twoEvents 1000000) 7) 1 :=
  (listAll_complete_iff (twoEvents 1000000) 7 (by decide)).mpr
    ⟨fun k hk hlt => absurd hlt (by rw [pageSize]; omega), fun _ => by decide⟩

/-- **A hundred microseconds apart,** the second event is cut off and not seen. -/
theorem listAll_burst :
    ¬ ∀ (table : AuditEvents) (tenantId : Uuid) (maxEvents : Nat), 1 ≤ maxEvents →
      ∃ e, listAll table tenantId maxEvents = some e
        ∧ e.Complete (history table tenantId) maxEvents := by
  intro hcomplete
  obtain ⟨e, he, -, htruncated⟩ := hcomplete (twoEvents 100) 7 1 (by decide)
  have hexport : listAll (twoEvents 100) 7 1 = some {
      events := [{ id := 1, tenantId := 7, createdAt := 1786795200123456 }]
      truncated := false } := by
    rw [listAll, fetchPages]
    decide +kernel
  rw [hexport] at he
  cases he
  exact Bool.false_ne_true (htruncated.mpr (by decide))

end AuditEventService

end MortgageAgent
