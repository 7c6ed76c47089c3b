namespace Bookshelf

/-!
# Pages of results

Results are shown in pages, numbered from one. There is always a first page,
and a page out of range stands for the nearest one.
-/

structure Pagination where
  totalItems : Nat
  pageSize : Nat
  pageSize_pos : 0 < pageSize
deriving DecidableEq

namespace Pagination

def defaultPageSize : Nat := 10

/-- The largest number of pages in the middle of a bar. -/
def windowSize : Nat := 5

/-- Pages of a wanted size. A page holds at least one item. -/
def ofSize (totalItems pageSize : Nat) : Pagination :=
  ⟨totalItems, max pageSize 1, by omega⟩

def totalPages (p : Pagination) : Nat :=
  (p.totalItems + (p.pageSize - 1)) / p.pageSize

def lastPage (p : Pagination) : Nat :=
  max p.totalPages 1

/-- The page that is shown for a page number. -/
def clamp (p : Pagination) (page : Nat) : Nat :=
  min (max page 1) p.lastPage

def first (p : Pagination) (page : Nat) : Nat :=
  min ((p.clamp page - 1) * p.pageSize) p.totalItems

def stop (p : Pagination) (page : Nat) : Nat :=
  min (p.first page + p.pageSize) p.totalItems

def slice {α : Type} (p : Pagination) (items : List α) (page : Nat) : List α :=
  (items.take (p.stop page)).drop (p.first page)

/-- An element of the bar under the results. -/
inductive Control where
  | previous (page : Nat)
  | page (number : Nat) (current : Bool)
  | ellipsis
  | next (page : Nat)
deriving DecidableEq, Repr

namespace Control

def render : Control → String
  | .previous _ => "‹ Previous"
  | .page number true => "[" ++ toString number ++ "]"
  | .page number false => toString number
  | .ellipsis => "..."
  | .next _ => "Next ›"

def renderBar (cs : List Control) : String :=
  String.intercalate "  " (cs.map render)

end Control

def windowEnd (p : Pagination) (current : Nat) : Nat :=
  min (max (current - windowSize / 2) 1 + windowSize - 1) p.totalPages

/-- The first page in the middle of the bar: near the end the window moves back
to keep its size. -/
def windowStart (p : Pagination) (current : Nat) : Nat :=
  let start := max (current - windowSize / 2) 1
  let stop := p.windowEnd current
  if stop + 1 - start < windowSize then max (stop + 1 - windowSize) 1 else start

/-- The bar around a page: a window of pages, and the first and the last page
where the window does not reach them, behind an ellipsis if pages are skipped.
A single page needs no bar. -/
def controls (p : Pagination) (page : Nat) : List Control :=
  let total := p.totalPages
  if total ≤ 1 then []
  else
    let current := p.clamp page
    let start := p.windowStart current
    let stop := p.windowEnd current
    (if 1 < current then [.previous (current - 1)] else [])
      ++ (if 1 < start then [.page 1 false] else [])
      ++ (if 2 < start then [.ellipsis] else [])
      ++ (List.range' start (stop + 1 - start)).map (fun n => .page n (n == current))
      ++ (if stop < total - 1 then [.ellipsis] else [])
      ++ (if stop < total then [.page total false] else [])
      ++ (if current < total then [.next (current + 1)] else [])

end Pagination

end Bookshelf
