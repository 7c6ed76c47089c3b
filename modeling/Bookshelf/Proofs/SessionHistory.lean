import Bookshelf.Proofs.Pages
import Bookshelf.Session
import Mathlib.Data.List.Induction

namespace Bookshelf

/-!
# Sessions as functions of their history

What a session shows is determined by three things in the history of its
requests: the last query, the last minimum, and the page asked for since the
results last changed. The invariant is the whole state after a history; one
step takes it to the state after the longer history.
-/

namespace Request

def query? : Request → Option Query
  | .expression text => some (.text (Text.trimmed text))
  | .tokens entries => some (.entries entries)
  | .clear => some (.text "")
  | .minimumRatings _ | .page _ => none

def minimum? : Request → Option UInt64
  | .minimumRatings text => some (Count.threshold text)
  | _ => none

def page? : Request → Option Nat
  | .page number => some number
  | _ => none

end Request

namespace Session

def lastQuery (rs : List Request) : Query :=
  (rs.filterMap Request.query?).getLast?.getD (.text "")

def lastMinimum (rs : List Request) : UInt64 :=
  (rs.filterMap Request.minimum?).getLast?.getD 0

/-- The requests behind the last one that changed the query or the minimum. -/
def sinceChange (rs : List Request) : List Request :=
  (rs.reverse.takeWhile fun r => r.query?.isNone && r.minimum?.isNone).reverse

def requestedPage (rs : List Request) : Nat :=
  ((sinceChange rs).filterMap Request.page?).getLast?.getD 1

/-- The state of a session after a history of requests. -/
def afterHistory (c : Catalog) (pageSize : Nat) (rs : List Request) : Session where
  catalog := c
  query := lastQuery rs
  minimum := lastMinimum rs
  page := max (requestedPage rs) 1
  pageSize := pageSize
  latest := ⟨rs.length⟩

theorem submit_afterHistory (c : Catalog) (pageSize : Nat) (rs : List Request) (r : Request) :
    (afterHistory c pageSize rs).submit r = afterHistory c pageSize (rs ++ [r]) := by
  cases r <;>
    simp [submit, apply, afterHistory, lastQuery, lastMinimum, requestedPage, sinceChange,
      Request.query?, Request.minimum?, Request.page?]

def submitAll (s : Session) (rs : List Request) : Session :=
  rs.foldl submit s

theorem submitAll_start (c : Catalog) (pageSize : Nat) (rs : List Request) :
    (start c pageSize).submitAll rs = afterHistory c pageSize rs := by
  -- A history grows at its end, while a run is unfolded at its start.
  induction rs using List.reverseRecOn with
  | nil => rfl
  | append_singleton rs r ih =>
      have hstep : (start c pageSize).submitAll (rs ++ [r]) =
          ((start c pageSize).submitAll rs).submit r := by
        simp [submitAll]
      rw [hstep, ih, submit_afterHistory]

example : ((start ⟨[]⟩ 10).submitAll [.page 3, .clear, .page 2]).page = 2 := rfl

/-! ## Tickets -/

/-- The tickets that a session hands out for requests, in order. -/
def tickets (s : Session) : List Request → List Ticket
  | [] => []
  | r :: rs => (s.submit r).latest :: (s.submit r).tickets rs

theorem tickets_eq_map_range' (s : Session) (rs : List Request) :
    s.tickets rs = (List.range' (s.latest.number + 1) rs.length).map Ticket.mk := by
  induction rs generalizing s with
  | nil => rfl
  | cons r rs ih =>
      have hlatest : (s.submit r).latest = ⟨s.latest.number + 1⟩ := rfl
      rw [tickets, ih, hlatest, List.length_cons, List.range'_succ, List.map_cons]

theorem tickets_start (c : Catalog) (pageSize : Nat) (rs : List Request) :
    (start c pageSize).tickets rs = (List.range' 1 rs.length).map Ticket.mk :=
  tickets_eq_map_range' (start c pageSize) rs

theorem pairwise_tickets (s : Session) (rs : List Request) :
    (s.tickets rs).Pairwise (·.number < ·.number) := by
  rw [tickets_eq_map_range', List.pairwise_map]
  exact List.pairwise_lt_range'

theorem isCurrent_afterHistory {c : Catalog} {pageSize : Nat} {rs : List Request} {number : Nat} :
    (afterHistory c pageSize rs).isCurrent ⟨number⟩ ↔ number = rs.length := by
  simp [isCurrent, afterHistory]

end Session

/-! ## Views -/

def Query.results (q : Query) (c : Catalog) (minimum : UInt64) : Report :=
  match q with
  | .text expression => c.filter expression minimum
  | .entries tokens => c.filterEntries tokens minimum

theorem Report.length_matched (r : Report) : r.matched.length = r.size :=
  List.length_map _

namespace Session

theorem report_eq_results (s : Session) : s.report = s.query.results s.catalog s.minimum := by
  cases hq : s.query <;> simp only [report, hq, Query.results]

/-- The books of a view are cut out of all results by its page. -/
theorem books_view (s : Session) :
    s.view.books = (s.view.report.matched.drop
      ((s.view.page - 1) * s.view.pagination.pageSize)).take s.view.pagination.pageSize := by
  have hpage : s.view.page = s.view.pagination.clamp s.page := rfl
  have htotal : s.view.pagination.totalItems = s.view.report.matched.length :=
    s.view.report.length_matched.symm
  have hbooks : s.view.books = s.view.pagination.slice s.view.report.matched s.view.page := rfl
  rw [hbooks, Pagination.slice_eq, htotal, List.take_length, hpage, Pagination.clamp_clamp]

/-- The view of the state after a history. -/
theorem view_afterHistory (c : Catalog) (pageSize : Nat) (rs : List Request) :
    let report := (lastQuery rs).results c (lastMinimum rs)
    let pages := Pagination.ofSize report.size pageSize
    (afterHistory c pageSize rs).view =
      ⟨report, pages, pages.clamp (requestedPage rs), c.size⟩ := by
  intro report pages
  have hreport : (afterHistory c pageSize rs).report = report := report_eq_results _
  have hpage : pages.clamp (afterHistory c pageSize rs).page = pages.clamp (requestedPage rs) :=
    pages.clamp_max_one (requestedPage rs)
  rw [view, hreport, ← hpage]
  rfl

/-- A view is a function of the history, and only the last ticket is current. -/
theorem view_submitAll_start (c : Catalog) (pageSize : Nat) (rs : List Request) :
    let s := (start c pageSize).submitAll rs
    let report := (lastQuery rs).results c (lastMinimum rs)
    let pages := Pagination.ofSize report.size pageSize
    let page := min (max (requestedPage rs) 1) (max pages.totalPages 1)
    let tickets := (start c pageSize).tickets rs
    s.view.report = report ∧ s.view.pagination = pages ∧ s.view.page = page ∧
      s.view.books = (report.matched.drop ((page - 1) * max pageSize 1)).take (max pageSize 1) ∧
      s.view.controls = pages.controls page ∧ s.view.totalBooks = c.size ∧
      tickets.length = rs.length ∧ tickets.Pairwise (·.number < ·.number) ∧
      ∀ i : Fin tickets.length, s.isCurrent tickets[i] ↔ i.val + 1 = rs.length := by
  intro s report pages page tickets
  have hs : s = afterHistory c pageSize rs := submitAll_start c pageSize rs
  have hview : s.view = ⟨report, pages, page, c.size⟩ := by
    rw [hs]
    exact view_afterHistory c pageSize rs
  have htickets : tickets = (List.range' 1 rs.length).map Ticket.mk := tickets_start c pageSize rs
  refine ⟨congrArg View.report hview, congrArg View.pagination hview, congrArg View.page hview, ?_,
    congrArg View.controls hview, congrArg View.totalBooks hview, ?_,
    pairwise_tickets (start c pageSize) rs, ?_⟩
  · rw [books_view, hview]
    rfl
  · rw [htickets, List.length_map, List.length_range']
  · intro i
    have hticket : tickets[i] = ⟨i.val + 1⟩ := by simp [htickets, Nat.add_comm]
    rw [hs, hticket, isCurrent_afterHistory]

end Session

end Bookshelf
