import Bookshelf.Proofs.Pages
import Mathlib.Data.List.Nodup

namespace Bookshelf

/-!
# The bar of controls

Between *previous* and *next* a bar is a row of page numbers: the first page,
the last page, and a window of up to five pages around the current one. Two
numbers side by side are consecutive, and an ellipsis stands exactly where
pages are skipped.
-/

namespace Pagination

namespace Control

def number? : Control → Option Nat
  | .page number _ => some number
  | _ => none

def isCurrent : Control → Bool
  | .page _ current => current
  | _ => false

/-- Page numbers in a row: behind a page stands the next page, or else an
ellipsis and a page further on. -/
inductive IsRow : List Control → Prop
  | single (n : Nat) (current : Bool) : IsRow [.page n current]
  | step {n : Nat} (current : Bool) {current' : Bool} {row : List Control}
      (h : IsRow (.page (n + 1) current' :: row)) :
      IsRow (.page n current :: .page (n + 1) current' :: row)
  | skip {m n : Nat} (current : Bool) {current' : Bool} {row : List Control} (hlt : m + 1 < n)
      (h : IsRow (.page n current' :: row)) :
      IsRow (.page m current :: .ellipsis :: .page n current' :: row)

namespace IsRow

variable {row : List Control} {m n : Nat} {current current' : Bool}

theorem previous_notMem (h : IsRow row) (n : Nat) : .previous n ∉ row := by
  induction h with
  | single => simp
  | step _ _ ih | skip _ _ _ ih => simpa using ih

theorem next_notMem (h : IsRow row) (n : Nat) : .next n ∉ row := by
  induction h with
  | single => simp
  | step _ _ ih | skip _ _ _ ih => simpa using ih

theorem pairwise_numbers (h : IsRow row) : (row.filterMap number?).Pairwise (· < ·) := by
  rw [← List.isChain_iff_pairwise]
  induction h with
  | single => simp [number?]
  | step _ _ ih => simpa [number?] using ih
  | skip _ hlt _ ih =>
      simp only [List.filterMap_cons, number?] at ih ⊢
      exact ih.cons_cons (Nat.lt_of_succ_lt hlt)

/-- A page in front of a row, and an ellipsis if pages are skipped. -/
theorem cons (h : IsRow (.page n current' :: row)) (hlt : m < n) (current : Bool) :
    IsRow (.page m current :: ((if m + 1 < n then [.ellipsis] else []) ++
      .page n current' :: row)) := by
  by_cases hskip : m + 1 < n
  · rw [if_pos hskip]
    exact h.skip current hskip
  · obtain rfl : n = m + 1 := by omega
    rw [if_neg hskip]
    exact h.step current

/-- A run of consecutive pages in front of a row. -/
theorem range' {start count : Nat} (mark : Nat → Bool)
    (h : IsRow (.page (start + count) (mark (start + count)) :: row)) :
    IsRow ((List.range' start (count + 1)).map (fun n => .page n (mark n)) ++ row) := by
  induction count generalizing start with
  | zero => simpa using h
  | succ count ih =>
      have hsum : start + 1 + count = start + (count + 1) := by omega
      have hrest := @ih (start + 1) (by rwa [hsum])
      rw [List.range'_succ, List.map_cons, List.cons_append] at hrest ⊢
      rw [List.range'_succ, List.map_cons, List.cons_append]
      exact .step (mark start) hrest

end IsRow

end Control

variable {p : Pagination} {current : Nat}

/-! ## The window -/

theorem windowStart_eq (hlast : current ≤ p.totalPages) :
    p.windowStart current = min (max (current - 2) 1) (max (p.totalPages - 4) 1) := by
  have hend : p.windowEnd current = min (max (current - 2) 1 + 5 - 1) p.totalPages := rfl
  have hstart : p.windowStart current =
      if p.windowEnd current + 1 - max (current - 2) 1 < 5 then
        max (p.windowEnd current + 1 - 5) 1 else max (current - 2) 1 := rfl
  rw [hstart]
  split <;> omega

theorem windowEnd_eq (hcurrent : 1 ≤ current) (hlast : current ≤ p.totalPages) :
    p.windowEnd current + 1 = p.windowStart current + min 5 p.totalPages := by
  have hend : p.windowEnd current = min (max (current - 2) 1 + 5 - 1) p.totalPages := rfl
  rw [windowStart_eq hlast]
  omega

/-! ## The row -/

/-- What stands in front of a window that does not reach the first page. -/
def rowFront (start : Nat) : List Control :=
  if 1 < start then .page 1 false :: (if 2 < start then [.ellipsis] else []) else []

/-- What stands behind a window that does not reach the last page. -/
def rowBack (total stop : Nat) : List Control :=
  if stop < total then (if stop + 1 < total then [.ellipsis] else []) ++ [.page total false] else []

def row (p : Pagination) (current : Nat) : List Control :=
  let start := p.windowStart current
  let stop := p.windowEnd current
  rowFront start
    ++ ((List.range' start (stop + 1 - start)).map (fun n => .page n (n == current))
      ++ rowBack p.totalPages stop)

theorem rowFront_eq (start : Nat) :
    rowFront start = (if 1 < start then [.page 1 false] else [])
      ++ (if 2 < start then [.ellipsis] else []) := by
  by_cases hone : 1 < start
  · simp [rowFront, hone]
  · have htwo : ¬2 < start := by omega
    simp [rowFront, hone, htwo]

theorem rowBack_eq (total stop : Nat) :
    rowBack total stop = (if stop < total - 1 then [.ellipsis] else [])
      ++ (if stop < total then [.page total false] else []) := by
  have hiff : stop < total - 1 ↔ stop + 1 < total := by omega
  by_cases hlast : stop < total
  · simp [rowBack, hlast, hiff]
  · have hnext : ¬stop + 1 < total := by omega
    simp [rowBack, hlast, hnext, hiff]

/-- A bar is its row between *previous* and *next*. -/
theorem controls_eq (page : Nat) (htotal : 1 < p.totalPages) :
    p.controls page =
      (if 1 < p.clamp page then [.previous (p.clamp page - 1)] else []) ++ p.row (p.clamp page)
        ++ (if p.clamp page < p.totalPages then [.next (p.clamp page + 1)] else []) := by
  have hsingle : ¬p.totalPages ≤ 1 := by omega
  simp only [controls, hsingle, if_false, row, rowFront_eq, rowBack_eq, List.append_assoc]

theorem isRow_cons_rowBack (total stop : Nat) (current : Bool) :
    Control.IsRow (.page stop current :: rowBack total stop) := by
  rw [rowBack]
  split
  · next hlt => exact (Control.IsRow.single total false).cons hlt current
  · exact .single stop current

theorem isRow_row (hcurrent : 1 ≤ current) (hlast : current ≤ p.totalPages) :
    Control.IsRow (p.row current) := by
  have hstart := windowStart_eq hlast
  have hstop := windowEnd_eq hcurrent hlast
  rw [row]
  generalize p.windowStart current = start at hstart hstop ⊢
  generalize p.windowEnd current = stop at hstart hstop ⊢
  obtain ⟨count, rfl⟩ : ∃ count, stop = start + count := ⟨stop - start, by omega⟩
  have hcount : start + count + 1 - start = count + 1 := by omega
  have hwindow := (isRow_cons_rowBack p.totalPages (start + count) _).range' (· == current)
  rw [hcount, rowFront]
  by_cases hone : 1 < start
  · rw [List.range'_succ, List.map_cons, List.cons_append] at hwindow ⊢
    rw [if_pos hone]
    exact hwindow.cons hone false
  · rw [if_neg hone]
    exact hwindow

theorem numbers_rowFront (start : Nat) :
    (rowFront start).filterMap Control.number? = if 1 < start then [1] else [] := by
  rw [rowFront]
  split
  · split <;> rfl
  · rfl

theorem numbers_rowBack (total stop : Nat) :
    (rowBack total stop).filterMap Control.number? = if stop < total then [total] else [] := by
  rw [rowBack]
  split
  · split <;> rfl
  · rfl

theorem numbers_row (p : Pagination) (current : Nat) :
    (p.row current).filterMap Control.number? =
      (if 1 < p.windowStart current then [1] else [])
        ++ (List.range' (p.windowStart current) (p.windowEnd current + 1 - p.windowStart current)
          ++ if p.windowEnd current < p.totalPages then [p.totalPages] else []) := by
  have hwindow : ∀ ns : List Nat,
      (ns.map fun n => Control.page n (n == current)).filterMap Control.number? = ns := by
    intro ns
    rw [List.filterMap_map]
    exact List.filterMap_some
  rw [row, List.filterMap_append, List.filterMap_append, numbers_rowFront, hwindow,
    numbers_rowBack]

theorem mem_numbers_row {n : Nat} (hcurrent : 1 ≤ current) (hlast : current ≤ p.totalPages) :
    n ∈ (p.row current).filterMap Control.number? ↔
      n = 1 ∨ n = p.totalPages ∨
        p.windowStart current ≤ n ∧ n < p.windowStart current + min 5 p.totalPages := by
  have hstart := windowStart_eq hlast
  have hstop := windowEnd_eq hcurrent hlast
  rw [numbers_row, List.mem_append, List.mem_append, List.mem_range'_1, List.mem_ite_nil_right,
    List.mem_ite_nil_right, List.mem_singleton, List.mem_singleton]
  omega

theorem head?_numbers_row (hcurrent : 1 ≤ current) (hlast : current ≤ p.totalPages) :
    ((p.row current).filterMap Control.number?).head? = some 1 := by
  have hstart := windowStart_eq hlast
  have hstop := windowEnd_eq hcurrent hlast
  obtain ⟨count, hcount⟩ : ∃ count, p.windowEnd current + 1 - p.windowStart current = count + 1 :=
    ⟨p.windowEnd current - p.windowStart current, by omega⟩
  rw [numbers_row, hcount, List.range'_succ]
  by_cases hone : 1 < p.windowStart current
  · simp [hone]
  · have hfirst : p.windowStart current = 1 := by omega
    simp [hfirst]

theorem getLast?_numbers_row (hcurrent : 1 ≤ current) (hlast : current ≤ p.totalPages) :
    ((p.row current).filterMap Control.number?).getLast? = some p.totalPages := by
  have hstart := windowStart_eq hlast
  have hstop := windowEnd_eq hcurrent hlast
  obtain ⟨count, hcount⟩ : ∃ count, p.windowEnd current + 1 - p.windowStart current = count + 1 :=
    ⟨p.windowEnd current - p.windowStart current, by omega⟩
  rw [numbers_row, hcount, ← List.append_assoc]
  by_cases hend : p.windowEnd current < p.totalPages
  · simp [hend]
  · have hsum : p.windowStart current + count = p.totalPages := by omega
    simp [hend, hsum, List.range'_concat]

theorem filter_isCurrent_rowFront (start : Nat) :
    (rowFront start).filter Control.isCurrent = [] := by
  rw [rowFront]
  split
  · split <;> rfl
  · rfl

theorem filter_isCurrent_rowBack (total stop : Nat) :
    (rowBack total stop).filter Control.isCurrent = [] := by
  rw [rowBack]
  split
  · split <;> rfl
  · rfl

theorem filter_isCurrent_row (hcurrent : 1 ≤ current) (hlast : current ≤ p.totalPages) :
    (p.row current).filter Control.isCurrent = [.page current true] := by
  have hstart := windowStart_eq hlast
  have hstop := windowEnd_eq hcurrent hlast
  have hmem : current ∈ List.range' (p.windowStart current)
      (p.windowEnd current + 1 - p.windowStart current) := by
    rw [List.mem_range'_1]
    omega
  have hcount := List.count_eq_one_of_mem List.nodup_range' hmem
  have hmark : (Control.isCurrent ∘ fun n => Control.page n (n == current)) = (· == current) := rfl
  rw [row, List.filter_append, List.filter_append, filter_isCurrent_rowFront, List.filter_map,
    hmark, List.filter_beq, hcount, filter_isCurrent_rowBack]
  simp

/-- A bar is empty for a single page. Otherwise it is a row between *previous*
and *next* with the first page, the last page and the window around the current
one, which alone is marked. -/
theorem controls_bar (totalItems pageSize page : Nat) :
    let p : Pagination := ofSize totalItems pageSize
    let current := p.clamp page
    let start := min (max (current - 2) 1) (max (p.totalPages - 4) 1)
    (p.totalPages ≤ 1 → p.controls page = []) ∧
    (1 < p.totalPages → ∃ row,
      p.controls page = (if 1 < current then [.previous (current - 1)] else []) ++ row
        ++ (if current < p.totalPages then [.next (current + 1)] else []) ∧
      Control.IsRow row ∧ (∀ n, .previous n ∉ row ∧ .next n ∉ row) ∧
      (row.filterMap Control.number?).Pairwise (· < ·) ∧
      (row.filterMap Control.number?).head? = some 1 ∧
      (row.filterMap Control.number?).getLast? = some p.totalPages ∧
      (∀ n, n ∈ row.filterMap Control.number? ↔
        n = 1 ∨ n = p.totalPages ∨ start ≤ n ∧ n < start + min 5 p.totalPages) ∧
      row.filter Control.isCurrent = [.page current true]) := by
  intro p current start
  constructor
  · intro htotal
    exact if_pos htotal
  · intro htotal
    have hcurrent : 1 ≤ current := p.one_le_clamp page
    have hlast : current ≤ p.totalPages := by
      have hle : current ≤ max p.totalPages 1 := p.clamp_le_lastPage page
      omega
    have hrow := isRow_row hcurrent hlast
    refine ⟨p.row current, controls_eq page htotal, hrow,
      fun n => ⟨hrow.previous_notMem n, hrow.next_notMem n⟩, hrow.pairwise_numbers,
      head?_numbers_row hcurrent hlast, getLast?_numbers_row hcurrent hlast, ?_,
      filter_isCurrent_row hcurrent hlast⟩
    intro n
    rw [mem_numbers_row hcurrent hlast, windowStart_eq hlast]

theorem controls_bar_middle :
    let p : Pagination := ofSize 200 10
    1 < p.totalPages ∧ ∃ row, p.controls 10 = [.previous 9] ++ row ++ [.next 11] ∧
      Control.IsRow row ∧
      (∀ n, n ∈ row.filterMap Control.number? ↔ n = 1 ∨ n = 20 ∨ 8 ≤ n ∧ n < 13) ∧
      row.filter Control.isCurrent = [.page 10 true] := by
  intro p
  have htotal : 1 < p.totalPages := by decide
  obtain ⟨row, hcontrols, hrow, -, -, -, -, hnumbers, hmark⟩ := (controls_bar 200 10 10).2 htotal
  exact ⟨htotal, row, hcontrols, hrow, hnumbers, hmark⟩

end Pagination

end Bookshelf
