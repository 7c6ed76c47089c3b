import Bookshelf.Proofs.PageBar
import Bookshelf.Proofs.PageRanges
import Bookshelf.Proofs.Queries

namespace Bookshelf

/-!
# Pages in 64-bit words

The pages of a session can be worked out in unsigned words of 64 bits. Here each
step of that arithmetic fails where its result does not fit, and so does a cut
of a list at places out of order. With at most `2 ^ 63` items no step fails, and
the results are those without bounds. A page may be as large as any word: it is
added to the start of a page only, and then there is a single page.
-/

namespace Word

def add? (a b : Nat) : Option Nat :=
  if a + b < UInt64.size then some (a + b) else none

def sub? (a b : Nat) : Option Nat :=
  if b ≤ a then some (a - b) else none

def mul? (a b : Nat) : Option Nat :=
  if a * b < UInt64.size then some (a * b) else none

/-- The quotient, rounded up. -/
def divCeil? (a b : Nat) : Option Nat :=
  if b = 0 then none else if a % b = 0 then some (a / b) else add? (a / b) 1

def clamp? (lower upper n : Nat) : Option Nat :=
  if lower ≤ upper then some (min (max n lower) upper) else none

/-- The items of a list from one place up to another. -/
def cut? {α : Type} (items : List α) (first stop : Nat) : Option (List α) :=
  if first ≤ stop ∧ stop ≤ items.length then some ((items.take stop).drop first) else none

variable {a b : Nat}

theorem add?_eq_some (h : a + b < UInt64.size) : add? a b = some (a + b) :=
  if_pos h

theorem sub?_eq_some (h : b ≤ a) : sub? a b = some (a - b) :=
  if_pos h

theorem mul?_eq_some (h : a * b < UInt64.size) : mul? a b = some (a * b) :=
  if_pos h

theorem divCeil?_eq_some (hb : 0 < b) (ha : a < UInt64.size) :
    divCeil? a b = some ((a + (b - 1)) / b) := by
  have hmod := Nat.mod_lt a hb
  have hle : a / b ≤ a := Nat.div_le_self a b
  have hsum : a + (b - 1) = a % b + (b - 1) + b * (a / b) := by
    have hdiv := Nat.mod_add_div a b
    omega
  rw [divCeil?, if_neg hb.ne', hsum, Nat.add_mul_div_left _ _ hb]
  by_cases hzero : a % b = 0
  · have hnone : (a % b + (b - 1)) / b = 0 := Nat.div_eq_of_lt (by omega)
    rw [if_pos hzero, hnone, Nat.zero_add]
  · have hone : (a % b + (b - 1)) / b = 1 :=
      Nat.div_eq_of_lt_le (by omega) (by omega)
    have hlt : a / b < a := by
      have hbig : 1 < b := by
        refine lt_of_le_of_ne hb ?_
        rintro rfl
        exact hzero (Nat.mod_one a)
      have hpos : 0 < a := by
        refine Nat.pos_of_ne_zero ?_
        rintro rfl
        exact hzero (Nat.zero_mod b)
      exact Nat.div_lt_self hpos hbig
    rw [if_neg hzero, hone, Nat.add_comm, add?_eq_some (by omega)]

theorem clamp?_eq_some {lower upper : Nat} (h : lower ≤ upper) (n : Nat) :
    clamp? lower upper n = some (min (max n lower) upper) :=
  if_pos h

/-- A cut that ends behind the list is brought back to its end. -/
theorem cut?_min {α : Type} (items : List α) {first stop : Nat} (h : first ≤ stop) :
    cut? items (min first items.length) (min stop items.length) =
      some ((items.take stop).drop first) := by
  have hcut : min first items.length ≤ min stop items.length ∧
      min stop items.length ≤ items.length := by omega
  rw [cut?, if_pos hcut, ← List.take_eq_take_min]
  by_cases hfirst : first ≤ items.length
  · rw [Nat.min_eq_left hfirst]
  · have hdrop : ∀ n, items.length ≤ n → (items.take stop).drop n = [] := by
      intro n hn
      rw [List.drop_eq_nil_iff, List.length_take]
      omega
    rw [hdrop _ (by omega), hdrop _ (by omega)]

end Word

namespace Pagination

open Word

def totalPages? (p : Pagination) : Option Nat :=
  divCeil? p.totalItems p.pageSize

def clamp? (p : Pagination) (page : Nat) : Option Nat := do
  let total ← p.totalPages?
  Word.clamp? 1 (max total 1) page

def range? (p : Pagination) (page : Nat) : Option (Nat × Nat) := do
  let page ← p.clamp? page
  let before ← sub? page 1
  let items ← mul? before p.pageSize
  let first := min items p.totalItems
  let stop ← add? first p.pageSize
  return (first, min stop p.totalItems)

def slice? {α : Type} (p : Pagination) (items : List α) (page : Nat) : Option (List α) := do
  let (first, stop) ← p.range? page
  cut? items (min first items.length) (min stop items.length)

/-- The first and the last page of the window around a page. -/
def window? (total current : Nat) : Option (Nat × Nat) := do
  let start := max (current - windowSize / 2) 1
  let sum ← add? start windowSize
  let last ← sub? sum 1
  let stop := min last total
  let next ← add? stop 1
  let count ← sub? next start
  return (if count < windowSize then max (next - windowSize) 1 else start, stop)

def previous? (current : Nat) : Option (List Control) :=
  if 1 < current then (sub? current 1).map fun n => [.previous n] else some []

def next? (total current : Nat) : Option (List Control) :=
  if current < total then (add? current 1).map fun n => [.next n] else some []

def rowBack? (total stop : Nat) : Option (List Control) :=
  if stop < total then
    (sub? total 1).map fun n => (if stop < n then [.ellipsis] else []) ++ [.page total false]
  else some []

def controls? (p : Pagination) (page : Nat) : Option (List Control) := do
  let total ← p.totalPages?
  if total ≤ 1 then return []
  else
    let current ← p.clamp? page
    let (start, stop) ← window? total current
    let previous ← previous? current
    let back ← rowBack? total stop
    let next ← next? total current
    return previous ++ rowFront start
      ++ (List.range' start (stop + 1 - start)).map (fun n => .page n (n == current))
      ++ back ++ next

/-! ## Every step fits -/

/-- The largest results of the arithmetic for a page are words. -/
structure FitsWords (p : Pagination) (page : Nat) : Prop where
  totalItems_lt : p.totalItems < UInt64.size
  product_lt : (p.clamp page - 1) * p.pageSize < UInt64.size
  sum_lt : p.first page + p.pageSize < UInt64.size
  windowSum_lt : max (p.clamp page - 2) 1 + 5 < UInt64.size
  windowEnd_lt : p.windowEnd (p.clamp page) + 1 < UInt64.size
  current_lt : p.clamp page + 1 < UInt64.size

theorem fitsWords_ofSize {totalItems pageSize : Nat} (htotal : totalItems ≤ Nat.pow 2 63)
    (hsize : pageSize < UInt64.size) (page : Nat) :
    (ofSize totalItems pageSize).FitsWords page := by
  have hhalf : Nat.pow 2 63 = 9223372036854775808 := rfl
  have hwords : UInt64.size = 18446744073709551616 := rfl
  generalize hp : ofSize totalItems pageSize = p
  have hitems : p.totalItems = totalItems := by rw [← hp]; rfl
  have hpageSize : p.pageSize = max pageSize 1 := by rw [← hp]; rfl
  have hpages := p.totalPages_le_totalItems
  have hlast : p.clamp page ≤ max p.totalPages 1 := p.clamp_le_lastPage page
  have hproduct := sub_one_mul_le_totalItems (p.clamp_le_lastPage page)
  have hfirst : p.first page ≤ p.totalItems := Nat.min_le_right _ _
  have hend : p.windowEnd (p.clamp page) ≤ p.totalPages := Nat.min_le_right _ _
  have hsum : p.first page + p.pageSize < UInt64.size := by
    by_cases hsingle : p.totalPages ≤ 1
    · -- The page may be as large as a word, but it starts at the first item.
      have hone : p.clamp page - 1 = 0 := by omega
      rw [first_eq, hone, Nat.zero_mul]
      omega
    · have hsecond := @sub_one_mul_lt_totalItems p 2 (by omega) (by omega)
      omega
  exact ⟨by omega, by omega, hsum, by omega, by omega, by omega⟩

variable {p : Pagination} {page : Nat}

namespace FitsWords

theorem totalPages?_eq (h : p.FitsWords page) : p.totalPages? = some p.totalPages :=
  divCeil?_eq_some p.pageSize_pos h.totalItems_lt

theorem clamp?_eq (h : p.FitsWords page) : p.clamp? page = some (p.clamp page) := by
  have hlast : 1 ≤ max p.totalPages 1 := p.one_le_lastPage
  rw [clamp?, h.totalPages?_eq, Option.bind_eq_bind, Option.bind_some, clamp?_eq_some hlast]
  rfl

theorem range?_eq (h : p.FitsWords page) : p.range? page = some (p.first page, p.stop page) := by
  have hpage := p.one_le_clamp page
  have hsum : min ((p.clamp page - 1) * p.pageSize) p.totalItems + p.pageSize < UInt64.size :=
    h.sum_lt
  simp only [range?, h.clamp?_eq, sub?_eq_some hpage, mul?_eq_some h.product_lt, add?_eq_some hsum,
    Option.bind_eq_bind, Option.bind_some, Option.pure_def]
  rfl

theorem slice?_eq {α : Type} (h : p.FitsWords page) (items : List α) :
    p.slice? items page = some (p.slice items page) := by
  rw [slice?, h.range?_eq]
  exact cut?_min items (p.first_le_stop page)

end FitsWords

theorem window?_eq {current : Nat} (hsum : max (current - 2) 1 + 5 < UInt64.size)
    (hend : p.windowEnd current + 1 < UInt64.size) (hlast : current ≤ p.totalPages) :
    window? p.totalPages current = some (p.windowStart current, p.windowEnd current) := by
  have hstart : max (current - windowSize / 2) 1 = max (current - 2) 1 := rfl
  have hsize : windowSize = 5 := rfl
  have hstop : min (max (current - windowSize / 2) 1 + windowSize - 1) p.totalPages =
      p.windowEnd current := rfl
  have hcount : max (current - windowSize / 2) 1 ≤ p.windowEnd current + 1 := by omega
  have hadd : add? (max (current - windowSize / 2) 1) windowSize =
      some (max (current - windowSize / 2) 1 + windowSize) := add?_eq_some hsum
  simp only [window?, hadd, Option.bind_eq_bind, Option.bind_some, Option.pure_def]
  rw [sub?_eq_some (by omega), Option.bind_some, hstop, add?_eq_some hend, Option.bind_some,
    sub?_eq_some hcount]
  rfl

theorem previous?_eq (current : Nat) :
    previous? current = some (if 1 < current then [.previous (current - 1)] else []) := by
  rw [previous?]
  split
  · next hlt => rw [sub?_eq_some hlt.le, Option.map_some]
  · rfl

theorem next?_eq {total current : Nat} (h : current + 1 < UInt64.size) :
    next? total current = some (if current < total then [.next (current + 1)] else []) := by
  rw [next?]
  split
  · rw [add?_eq_some h, Option.map_some]
  · rfl

theorem rowBack?_eq (total stop : Nat) : rowBack? total stop = some (rowBack total stop) := by
  rw [rowBack?, rowBack]
  split
  · next hlt =>
      have hiff : stop < total - 1 ↔ stop + 1 < total := by omega
      rw [sub?_eq_some (by omega), Option.map_some]
      simp only [hiff]
  · rfl

theorem FitsWords.controls?_eq (h : p.FitsWords page) :
    p.controls? page = some (p.controls page) := by
  simp only [controls?, h.totalPages?_eq, Option.bind_eq_bind, Option.bind_some]
  by_cases htotal : p.totalPages ≤ 1
  · rw [if_pos htotal, controls]
    simp [htotal]
  · have hlast : p.clamp page ≤ p.totalPages := by
      have hle : p.clamp page ≤ max p.totalPages 1 := p.clamp_le_lastPage page
      omega
    rw [if_neg htotal, controls_eq page (by omega), row]
    simp only [h.clamp?_eq, window?_eq h.windowSum_lt h.windowEnd_lt hlast, previous?_eq,
      rowBack?_eq, next?_eq h.current_lt, Option.bind_some, Option.pure_def, List.append_assoc]

end Pagination

/-! ## Views -/

namespace Session

open Pagination

def view? (s : Session) : Option View := do
  let report := s.report
  let pagination := Pagination.ofSize report.size s.pageSize
  let page ← pagination.clamp? s.page
  return { report, pagination, page, totalBooks := s.catalog.size }

end Session

namespace View

def books? (v : View) : Option (List Book) :=
  v.pagination.slice? v.report.matched v.page

def controls? (v : View) : Option (List Pagination.Control) :=
  v.pagination.controls? v.page

def totalPages? (v : View) : Option Nat :=
  v.pagination.totalPages?

end View

namespace Session

open Pagination

theorem view?_eq {s : Session} (hcatalog : s.catalog.size ≤ Nat.pow 2 63)
    (hsize : s.pageSize < UInt64.size) :
    s.view? = some s.view ∧ s.view.books? = some s.view.books ∧
      s.view.controls? = some s.view.controls ∧ s.view.totalPages? = some s.view.totalPages := by
  have hreport : s.report.size ≤ s.catalog.size := by
    rw [report_eq_results]
    exact s.query.size_results_le s.catalog s.minimum
  have hfits := fitsWords_ofSize (hreport.trans hcatalog) hsize
  refine ⟨?_, (hfits _).slice?_eq _, (hfits _).controls?_eq, (hfits 1).totalPages?_eq⟩
  simp only [view?, (hfits s.page).clamp?_eq, Option.bind_eq_bind, Option.bind_some,
    Option.pure_def]
  rfl

/-- Words of 64 bits suffice for pages: no step of their arithmetic overflows or goes
below zero, and no view of a session fails for it. -/
theorem words_suffice :
    (∀ totalItems pageSize page : Nat,
      totalItems ≤ Nat.pow 2 63 → pageSize < UInt64.size →
        let p : Pagination := ofSize totalItems pageSize
        p.FitsWords page ∧ p.totalPages? = some p.totalPages ∧ p.clamp? page = some (p.clamp page) ∧
          p.range? page = some (p.first page, p.stop page) ∧
          (∀ {α : Type} (items : List α), p.slice? items page = some (p.slice items page)) ∧
          p.controls? page = some (p.controls page)) ∧
    ∀ (c : Catalog) (pageSize : Nat) (rs : List Request),
      c.size ≤ Nat.pow 2 63 → pageSize < UInt64.size →
        let s : Session := (start c pageSize).submitAll rs
        s.view? = some s.view ∧ s.view.books? = some s.view.books ∧
          s.view.controls? = some s.view.controls ∧
          s.view.totalPages? = some s.view.totalPages := by
  constructor
  · intro totalItems pageSize page htotal hsize p
    have hfits : p.FitsWords page := fitsWords_ofSize htotal hsize page
    exact ⟨hfits, hfits.totalPages?_eq, hfits.clamp?_eq, hfits.range?_eq,
      fun items => hfits.slice?_eq items, hfits.controls?_eq⟩
  · intro c pageSize rs hcatalog hsize s
    have hs : s = afterHistory c pageSize rs := submitAll_start c pageSize rs
    rw [hs]
    exact view?_eq hcatalog hsize

def loneBook : Catalog := ⟨[{ title := "Emma" }]⟩

theorem words_suffice_largest :
    Nat.pow 2 63 ≤ Nat.pow 2 63 ∧ UInt64.size - 1 < UInt64.size ∧
      (ofSize (Nat.pow 2 63) (UInt64.size - 1)).range? 7 = some (0, Nat.pow 2 63) ∧
      (ofSize (Nat.pow 2 63) 1).controls? 0 =
        some [.page 1 true, .page 2 false, .page 3 false, .page 4 false, .page 5 false, .ellipsis,
          .page (Nat.pow 2 63) false, .next 2] ∧
      loneBook.size ≤ Nat.pow 2 63 ∧
      ((start loneBook 3).submitAll [.page 9]).view? =
        some ((start loneBook 3).submitAll [.page 9]).view := by
  have hpage := words_suffice.1 (Nat.pow 2 63) (UInt64.size - 1) 7 le_rfl (by decide)
  have hbar := words_suffice.1 (Nat.pow 2 63) 1 0 le_rfl (by decide)
  have hview := words_suffice.2 loneBook 3 [.page 9] (by decide) (by decide)
  exact ⟨le_rfl, by decide, hpage.2.2.2.1, hbar.2.2.2.2.2, by decide, hview.1⟩

/-- One item more is too many: the end of the second page is no word. -/
example : (ofSize (Nat.pow 2 63 + 1) (Nat.pow 2 63)).range? 2 = none := by decide

end Session

end Bookshelf
