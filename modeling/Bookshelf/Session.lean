import Bookshelf.Pagination
import Bookshelf.Report

namespace Bookshelf

/-!
# Browsing sessions

A session remembers what its user asked for last and recomputes the results
from that. Every request gets a ticket; only the latest one is current.
-/

inductive Query where
  | text (expression : String)
  | entries (tokens : List String)
deriving DecidableEq, Repr

inductive Request where
  | expression (text : String)
  | tokens (entries : List String)
  | minimumRatings (text : String)
  | page (number : Nat)
  | clear
deriving DecidableEq, Repr

structure Ticket where
  number : Nat
deriving DecidableEq, Repr, Ord

structure Session where
  catalog : Catalog
  query : Query
  minimum : UInt64
  page : Nat
  pageSize : Nat
  latest : Ticket
deriving DecidableEq

namespace Session

/-- A session that shows the first page of all books. -/
def start (catalog : Catalog) (pageSize : Nat) : Session :=
  { catalog, query := .text "", minimum := 0, page := 1, pageSize, latest := ⟨0⟩ }

/-- The state that a request asks for. What changes the results goes back to
the first page. -/
def apply (s : Session) : Request → Session
  | .expression text => { s with query := .text (Text.trimmed text), page := 1 }
  | .tokens entries => { s with query := .entries entries, page := 1 }
  | .minimumRatings text => { s with minimum := Count.threshold text, page := 1 }
  | .page number => { s with page := max number 1 }
  | .clear => { s with query := .text "", page := 1 }

/-- Applies a request. Its ticket is the latest of the new state. -/
def submit (s : Session) (r : Request) : Session :=
  { s.apply r with latest := ⟨s.latest.number + 1⟩ }

def isCurrent (s : Session) (t : Ticket) : Bool :=
  t == s.latest

def report (s : Session) : Report :=
  match s.query with
  | .text expression => s.catalog.filter expression s.minimum
  | .entries tokens => s.catalog.filterEntries tokens s.minimum

end Session

/-- One page of results. -/
structure View where
  report : Report
  pagination : Pagination
  page : Nat
  totalBooks : Nat
deriving DecidableEq

namespace View

def books (v : View) : List Book :=
  v.pagination.slice v.report.matched v.page

def controls (v : View) : List Pagination.Control :=
  v.pagination.controls v.page

def totalPages (v : View) : Nat :=
  v.pagination.totalPages

/-- How many books the results have on all pages. -/
def filteredBooks (v : View) : Nat :=
  v.report.size

end View

namespace Session

/-- Shows the page that was asked for, or the last one if there are fewer. -/
def view (s : Session) : View :=
  let report := s.report
  let pagination := Pagination.ofSize report.size s.pageSize
  { report, pagination, page := pagination.clamp s.page, totalBooks := s.catalog.size }

end Session

end Bookshelf
