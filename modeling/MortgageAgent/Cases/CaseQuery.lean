import MortgageAgent.Cases.CaseCursor
import MortgageAgent.Cases.CreateCase

/-!
# The case listing

`CaseQueryService.listCases` answers a query for a tenant's cases with a page and a cursor for the
next query. A client reads on while there is a next page.

* **`listCases`** — one query.
* **`Follows`** — a client that follows the cursors of the pages to the end.
* **`Whole`** — what the client has read is every matching case once, in order.
* **`follows_whole_iff`** — so it is exactly if no page ends inside a millisecond in such a way that
  the cursor passes over the next case.
-/

namespace MortgageAgent.Cases

open Workflow (LoanType CaseStatus)

/-- `loan_cases`, with the time of creation. -/
structure StoredCase extends LoanCase where
  createdAt : Timestamptz
  deriving DecidableEq

def StoredCase.key (c : StoredCase) : RowKey := { createdAt := c.createdAt, id := c.id }

abbrev StoredCases := Table StoredCase fun c => c.id

structure ListCasesOptions where
  status : Option CaseStatus := none
  borrowerId : Option String := none
  first : Option Int := none
  after : Option String := none

structure Edge where
  node : StoredCase
  cursor : String

structure PageInfo where
  hasNextPage : Bool
  endCursor : Option String

structure CaseConnection where
  edges : List Edge
  pageInfo : PageInfo

def CaseConnection.nodes (c : CaseConnection) : List StoredCase := c.edges.map (·.node)

inductive ListFailure where
  | badRequest (message : String)
  /-- the database takes the id of the cursor for no `uuid` -/
  | invalidUuid

def defaultPageSize : Int := 20

def maxPageSize : Int := 100

def pageSize (first : Option Int) : Nat :=
  (min (max (first.getD defaultPageSize) 1) maxPageSize).toNat

/-- A text of the request, `undefined` or empty: the code asks if it is truthy. -/
def truthy (text : Option String) : Option String := text.filter (· ≠ "")

/-- The tenant, the status and the borrower of the query. -/
def ListCasesOptions.matches (options : ListCasesOptions) (tenantId : Uuid) (c : StoredCase) :
    Bool :=
  c.tenantId = tenantId
    && (match options.status with
      | none => true
      | some status => c.status = status)
    && match truthy options.borrowerId with
      | none => true
      | some borrowerId => c.borrowerId = borrowerId

/-- The cursor of the query. -/
def readAfter (dateParse : String → Option Instant) (after : Option String) :
    Except ListFailure (Option Cursor) :=
  match truthy after with
  | none => .ok none
  | some text =>
    match decodeCaseCursor dateParse text with
    | .error message => .error (.badRequest message)
    | .ok cursor =>
      match uuid? cursor.id with
      | none => .error .invalidUuid
      | some id => .ok (some { createdAt := cursor.createdAt, id })

def StoredCase.edge (node : StoredCase) : Edge :=
  { node, cursor := encodeCaseCursor node.key.cursor }

/-- The answer, from the rows of a query for one more than the page has. -/
def toConnection (pageSize : Nat) (rows : List StoredCase) : CaseConnection :=
  let hasNextPage : Bool := pageSize < rows.length
  let page := if hasNextPage then rows.take pageSize else rows
  let edges := page.map StoredCase.edge
  { edges, pageInfo := { hasNextPage, endCursor := edges.getLast?.map (·.cursor) } }

def listCases (dateParse : String → Option Instant) (cases : StoredCases) (tenantId : Uuid)
    (options : ListCasesOptions) : Except ListFailure CaseConnection := do
  let cursor ← readAfter dateParse options.after
  let rows := newestFirst StoredCase.key (cases.rows.filter fun c =>
    options.matches tenantId c && match cursor with
      | none => true
      | some cursor => cursor.finds c.key)
  .ok (toConnection (pageSize options.first) (rows.take (pageSize options.first + 1)))

/-! ## A client -/

/-- The nodes a client has when it has followed the cursors from one on to the end. -/
inductive Follows (query : Option String → Except ListFailure CaseConnection) :
    Option String → List StoredCase → Prop where
  | last {after : Option String} {page : CaseConnection} (hpage : query after = .ok page)
      (hlast : page.pageInfo.hasNextPage = false) : Follows query after page.nodes
  | next {after : Option String} {page : CaseConnection} {cursor : String}
      {more : List StoredCase} (hpage : query after = .ok page)
      (hnext : page.pageInfo.hasNextPage = true) (hcursor : page.pageInfo.endCursor = some cursor)
      (hmore : Follows query (some cursor) more) : Follows query after (page.nodes ++ more)

/-- Every case of the tenant that matches, once, newest first. -/
def Whole (cases : StoredCases) (tenantId : Uuid) (options : ListCasesOptions)
    (nodes : List StoredCase) : Prop :=
  nodes.Pairwise (fun a b => b.key < a.key)
    ∧ ∀ c, c ∈ nodes ↔ c ∈ cases.rows ∧ options.matches tenantId c = true

/-! ## One page -/

/-- The cases that match, in the order of the listing. -/
def listing (cases : StoredCases) (tenantId : Uuid) (options : ListCasesOptions) :
    List StoredCase :=
  newestFirst StoredCase.key (cases.rows.filter (options.matches tenantId))

/-- The times of the cases are read back from their cursors. -/
def DatesRead (dateParse : String → Option Instant) (cases : StoredCases) : Prop :=
  ∀ c ∈ cases.rows, dateParse (toISOString c.createdAt.toDate) = some c.createdAt.toDate

instance (dateParse : String → Option Instant) (cases : StoredCases) :
    Decidable (DatesRead dateParse cases) :=
  inferInstanceAs (Decidable (∀ c ∈ cases.rows,
    dateParse (toISOString c.createdAt.toDate) = some c.createdAt.toDate))

variable {dateParse : String → Option Instant} {cases : StoredCases} {tenantId : Uuid}
variable {options : ListCasesOptions}

theorem caseKeys_nodup (p : StoredCase → Bool) :
    ((cases.rows.filter p).map StoredCase.key).Nodup := by
  have hids : ((cases.rows.filter p).map fun c => c.id).Nodup :=
    cases.nodup.sublist (List.filter_sublist.map _)
  refine List.Nodup.of_map RowKey.id ?_
  rwa [List.map_map]

theorem keyset_listing :
    Paging.Keyset (behindCursor StoredCase.key) (listing cases tenantId options) :=
  keyset_newestFirst (caseKeys_nodup _)

theorem mem_listing {c : StoredCase} :
    c ∈ listing cases tenantId options ↔ c ∈ cases.rows ∧ options.matches tenantId c = true := by
  rw [listing, mem_newestFirst, List.mem_filter]

/-- The cursor a page ends with. -/
def cursorText (c : StoredCase) : String := encodeCaseCursor c.key.cursor

theorem readAfter_cursorText (hdates : DatesRead dateParse cases) {last : Option StoredCase}
    (hlast : ∀ c ∈ last, c ∈ cases.rows) :
    readAfter dateParse (last.map cursorText) = .ok (last.map (·.key.cursor)) := by
  cases last with
  | none => rfl
  | some c =>
    have htext : truthy (some (cursorText c)) = some (cursorText c) :=
      Option.filter_some_pos (decide_eq_true (encodeCaseCursor_ne_empty c.key.cursor))
    have hread : decodeCaseCursor dateParse (cursorText c) = _ :=
      decodeCaseCursor_encodeCaseCursor (hdates c (hlast c rfl))
    rw [readAfter, Option.map_some, htext]
    simp only [hread, uuid?_toString]
    rfl

theorem listCases_eq (hdates : DatesRead dateParse cases) {last : Option StoredCase}
    (hlast : ∀ c ∈ last, c ∈ cases.rows) :
    listCases dateParse cases tenantId { options with after := last.map cursorText }
      = .ok (toConnection (pageSize options.first)
          ((Paging.found (behindCursor StoredCase.key) (listing cases tenantId options) last).take
            (pageSize options.first + 1))) := by
  rw [listCases, readAfter_cursorText hdates hlast]
  cases last with
  | none =>
    have hfilter : (fun c : StoredCase => options.matches tenantId c && true)
        = options.matches tenantId := funext fun c => Bool.and_true _
    rw [Paging.found, listing, ← hfilter]
    rfl
  | some a =>
    have hfilter : (fun c : StoredCase => options.matches tenantId c && a.key.cursor.finds c.key)
        = fun c => behindCursor StoredCase.key a c && options.matches tenantId c :=
      funext fun c => Bool.and_comm _ _
    rw [Paging.found, listing, ← newestFirst_filter (caseKeys_nodup _), List.filter_filter,
      ← hfilter]
    rfl

theorem toConnection_take (n : Nat) (found : List StoredCase) :
    (toConnection n (found.take (n + 1))).pageInfo.hasNextPage = decide (n < found.length)
      ∧ (toConnection n (found.take (n + 1))).nodes = found.take n
      ∧ (toConnection n (found.take (n + 1))).pageInfo.endCursor
          = (found.take n).getLast?.map cursorText := by
  have hnext : n < (found.take (n + 1)).length ↔ n < found.length := by
    rw [List.length_take]
    omega
  have hpage : (if decide (n < (found.take (n + 1)).length) = true then
      (found.take (n + 1)).take n else found.take (n + 1)) = found.take n := by
    split
    · rw [List.take_take, Nat.min_eq_left (Nat.le_succ n)]
    · rename_i hshort
      rw [decide_eq_true_iff, hnext] at hshort
      rw [List.take_of_length_le (by omega), List.take_of_length_le (by omega)]
  have hnodes : (List.map StoredCase.edge (found.take n)).map (·.node) = found.take n := by
    rw [List.map_map]
    exact List.map_id' _
  refine ⟨by simp only [toConnection, hnext], ?_, ?_⟩
  · simp only [toConnection, CaseConnection.nodes, hpage, hnodes]
  · simp only [toConnection, hpage, List.getLast?_map, Option.map_map]
    rfl

theorem pageSize_pos (first : Option Int) : 0 < pageSize first := by
  have h : 1 ≤ min (max (first.getD defaultPageSize) 1) maxPageSize :=
    le_min (le_max_right _ _) (by decide)
  rw [pageSize]
  omega

/-! ## All pages -/

theorem Follows.unique {query : Option String → Except ListFailure CaseConnection}
    {after : Option String} {nodes nodes' : List StoredCase} (h : Follows query after nodes)
    (h' : Follows query after nodes') : nodes = nodes' := by
  induction h generalizing nodes' with
  | last hpage hlast =>
    cases h' with
    | last hpage' hlast' => 
      rw [hpage] at hpage'
      cases hpage'
      rfl
    | next hpage' hnext' hcursor' hmore' =>
      rw [hpage] at hpage'
      cases hpage'
      rw [hlast] at hnext'
      cases hnext'
  | next hpage hnext hcursor hmore ih =>
    cases h' with
    | last hpage' hlast' =>
      rw [hpage] at hpage'
      cases hpage'
      rw [hnext] at hlast'
      cases hlast'
    | next hpage' hnext' hcursor' hmore' =>
      rw [hpage] at hpage'
      cases hpage'
      rw [hcursor] at hcursor'
      cases hcursor'
      rw [ih hmore']

/-- The queries of a client. -/
def queryAfter (dateParse : String → Option Instant) (cases : StoredCases) (tenantId : Uuid)
    (options : ListCasesOptions) (after : Option String) : Except ListFailure CaseConnection :=
  listCases dateParse cases tenantId { options with after }

/-- Where one page holds all that the first query finds, a client reads it and ends. -/
theorem follows_short (hdates : DatesRead dateParse cases) (m : Nat) {last : Option StoredCase}
    (hlast : ∀ c ∈ last, c ∈ cases.rows)
    (hfound : Paging.found (behindCursor StoredCase.key) (listing cases tenantId options) last
      <:+ listing cases tenantId options)
    (hshort : (Paging.found (behindCursor StoredCase.key) (listing cases tenantId options)
      last).length ≤ pageSize options.first) :
    Follows (queryAfter dateParse cases tenantId options) (last.map cursorText)
      (Paging.walk (behindCursor StoredCase.key) (listing cases tenantId options)
        (pageSize options.first) (m + 1) last) := by
  have hpage : queryAfter dateParse cases tenantId options (last.map cursorText) = _ :=
    listCases_eq hdates hlast
  obtain ⟨hnext, hnodes, -⟩ := toConnection_take (pageSize options.first)
    (Paging.found (behindCursor StoredCase.key) (listing cases tenantId options) last)
  rw [List.take_of_length_le hshort] at hnodes
  rw [decide_eq_false (Nat.not_lt.mpr hshort)] at hnext
  have hfollows := Follows.last hpage hnext
  rwa [hnodes, ← Paging.walk_short keyset_listing m hfound hshort] at hfollows

/-- A client reads the pages of a keyset walk, and comes to an end. -/
theorem follows_walk (hdates : DatesRead dateParse cases) (m : Nat) {last : Option StoredCase}
    (hlast : ∀ c ∈ last, c ∈ cases.rows)
    (hfound : Paging.found (behindCursor StoredCase.key) (listing cases tenantId options) last
      <:+ listing cases tenantId options)
    (hlength : (Paging.found (behindCursor StoredCase.key) (listing cases tenantId options)
      last).length ≤ (m + 1) * pageSize options.first) :
    Follows (queryAfter dateParse cases tenantId options) (last.map cursorText)
      (Paging.walk (behindCursor StoredCase.key) (listing cases tenantId options)
        (pageSize options.first) (m + 1) last) := by
  induction m generalizing last with
  | zero => exact follows_short hdates 0 hlast hfound (by simpa using hlength)
  | succ m ih =>
    by_cases hshort : (Paging.found (behindCursor StoredCase.key)
        (listing cases tenantId options) last).length ≤ pageSize options.first
    · exact follows_short hdates (m + 1) hlast hfound hshort
    have hlong := Nat.lt_of_not_le hshort
    obtain ⟨a, ha⟩ := Paging.exists_getLast?_take (pageSize_pos options.first) hlong.le
    have hsuffix := Paging.found_suffix keyset_listing hfound ha
    have hrest := (hsuffix.trans (List.drop_suffix ..)).trans hfound
    have hmem : ∀ c ∈ some a, c ∈ cases.rows := by
      rintro c ⟨⟩
      have hin := hfound.mem (List.mem_of_mem_take (List.mem_of_getLast? ha))
      exact (mem_listing.mp hin).1
    have hleft := hsuffix.length_le
    rw [List.length_drop] at hleft
    have hmore := ih hmem hrest (by rw [Nat.succ_mul] at hlength; omega)
    have hpage : queryAfter dateParse cases tenantId options (last.map cursorText) = _ :=
      listCases_eq hdates hlast
    obtain ⟨hnext, hnodes, hcursor⟩ := toConnection_take (pageSize options.first)
      (Paging.found (behindCursor StoredCase.key) (listing cases tenantId options) last)
    rw [decide_eq_true hlong] at hnext
    rw [ha] at hcursor
    have hfollows := Follows.next hpage hnext hcursor hmore
    rwa [hnodes, ← Paging.walk_succ ha] at hfollows

theorem whole_iff {nodes : List StoredCase} :
    Whole cases tenantId options nodes ↔ nodes = listing cases tenantId options := by
  have hlisting : (listing cases tenantId options).Pairwise fun a b => b.key < a.key :=
    pairwise_lt_newestFirst (caseKeys_nodup _)
  constructor
  · rintro ⟨hsorted, hmem⟩
    refine eq_newestFirst_of_pairwise hsorted hlisting (fun c => ?_)
    rw [hmem, List.mem_filter]
  · rintro rfl
    exact ⟨hlisting, fun c => mem_listing⟩

theorem follows_whole_iff_walk (hdates : DatesRead dateParse cases) :
    (∃ nodes, Follows (queryAfter dateParse cases tenantId options) none nodes
        ∧ Whole cases tenantId options nodes) ↔
      Paging.walk (behindCursor StoredCase.key) (listing cases tenantId options)
        (pageSize options.first) ((listing cases tenantId options).length + 1) none
          = listing cases tenantId options := by
  have hlength : (listing cases tenantId options).length
      ≤ ((listing cases tenantId options).length + 1) * pageSize options.first :=
    (Nat.le_succ _).trans (Nat.le_mul_of_pos_right _ (pageSize_pos options.first))
  have hstart : Paging.found (behindCursor StoredCase.key) (listing cases tenantId options) none
      <:+ listing cases tenantId options := List.suffix_rfl
  have hnone : ∀ c ∈ (none : Option StoredCase), c ∈ cases.rows := nofun
  have hwalk := follows_walk hdates _ hnone hstart hlength
  constructor
  · rintro ⟨nodes, hfollows, hwhole⟩
    rw [hwalk.unique hfollows]
    exact whole_iff.mp hwhole
  · intro heq
    exact ⟨_, hwalk, whole_iff.mpr heq⟩

/-- **A client reads every matching case once, in order, and ends,** exactly if at the end of each
page the next case is behind the cursor. -/
theorem follows_whole_iff (dateParse : String → Option Instant) (cases : StoredCases)
    (tenantId : Uuid) (options : ListCasesOptions) (hdates : DatesRead dateParse cases) :
    (∃ nodes, Follows (queryAfter dateParse cases tenantId options) none nodes
        ∧ Whole cases tenantId options nodes) ↔
      ∀ k, 0 < k → Paging.Seam (behindCursor StoredCase.key) (listing cases tenantId options)
        (k * pageSize options.first) := by
  have hn := pageSize_pos options.first
  have hneed : (listing cases tenantId options).length
      ≤ ((listing cases tenantId options).length + 1) * pageSize options.first :=
    (Nat.le_succ _).trans (Nat.le_mul_of_pos_right _ hn)
  have hstart : Paging.found (behindCursor StoredCase.key) (listing cases tenantId options) none
      <:+ listing cases tenantId options := List.suffix_rfl
  have htake := Paging.take_walk_eq_iff keyset_listing hn hneed hstart
  have hwalk := (Paging.walk_sublist keyset_listing (pageSize options.first)
    ((listing cases tenantId options).length + 1) hstart).length_le
  rw [Paging.found] at htake hwalk
  rw [List.take_of_length_le hwalk, List.take_length] at htake
  rw [follows_whole_iff_walk hdates, htake]
  constructor
  · intro hseams k hk
    by_cases hbeyond : (listing cases tenantId options).length ≤ k * pageSize options.first
    · exact Paging.seam_of_length_le hbeyond
    · exact hseams k hk (Nat.lt_of_not_le hbeyond)
  · exact fun hseams k hk _ => hseams k hk

/-! ## Two cases -/

def caseAt (id : Uuid) (createdAt : Timestamptz) : StoredCase where
  id
  tenantId := 7
  idempotencyKey := toString id
  borrowerId := "borrower"
  requestedAmount := 30000000
  loanType := .CONVENTIONAL
  statedMonthlyIncome := 800000
  jurisdictionCode := "US-CA"
  status := .DRAFT
  createdAt

/-- Two cases of a tenant, some microseconds apart. -/
def twoCases (apart : Timestamptz) : StoredCases where
  rows := [caseAt 1 1786795200123456, caseAt 2 (1786795200123456 - apart)]
  nodup := by simp [caseAt]

/-- Reads the times of those cases. -/
def dateParseTwo (text : String) : Option Instant :=
  [1786795200123, 1786795199123].find? fun t => toISOString t = text

theorem follows_whole_second :
    ∃ nodes, Follows (queryAfter dateParseTwo (twoCases 1000000) 7 { first := some 1 }) none nodes
      ∧ Whole (twoCases 1000000) 7 { first := some 1 } nodes :=
  (follows_whole_iff dateParseTwo (twoCases 1000000) 7 { first := some 1 } (by decide +kernel)).mpr
    (fun k hk => by
      obtain rfl | hmore : k = 1 ∨ 2 ≤ k := by omega
      · decide +kernel
      · exact Paging.seam_of_length_le (hmore.trans (Nat.mul_one k).ge))

/-- **A hundred microseconds apart,** the second case is on no page. -/
theorem follows_burst :
    ¬ ∀ (dateParse : String → Option Instant) (cases : StoredCases) (tenantId : Uuid)
      (options : ListCasesOptions), DatesRead dateParse cases →
      ∃ nodes, Follows (queryAfter dateParse cases tenantId options) none nodes
        ∧ Whole cases tenantId options nodes := by
  intro hwhole
  have hdates : DatesRead dateParseTwo (twoCases 100) := by decide +kernel
  have h := hwhole dateParseTwo (twoCases 100) 7 { first := some 1 } hdates
  rw [follows_whole_iff_walk hdates] at h
  revert h
  decide +kernel

end MortgageAgent.Cases
