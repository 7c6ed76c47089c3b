import Bookshelf.Pagination
import Mathlib.Algebra.Order.Group.Nat
import Mathlib.Data.List.Basic

namespace Bookshelf

/-!
# Pages of a list

The pages from the first to the last cut the items into consecutive pieces, so
the pieces put together give the items back. The bar leads from every page but
the last to the one behind it, and from every page but the first to the one
before it.
-/

namespace Pagination

variable {p : Pagination} {page n : Nat}

theorem one_le_lastPage (p : Pagination) : 1 ≤ p.lastPage :=
  Nat.le_max_right _ _

theorem one_le_clamp (p : Pagination) (page : Nat) : 1 ≤ p.clamp page := by
  have hlast := p.one_le_lastPage
  simp only [clamp]
  omega

theorem clamp_le_lastPage (p : Pagination) (page : Nat) : p.clamp page ≤ p.lastPage :=
  Nat.min_le_right _ _

theorem clamp_eq_self (h : 1 ≤ page) (hlast : page ≤ p.lastPage) : p.clamp page = page := by
  simp only [clamp]
  omega

theorem clamp_eq_self_of_mem_range' {start count : Nat} (hstart : 1 ≤ start)
    (hlast : start + count ≤ p.lastPage + 1) (h : n ∈ List.range' start count) : p.clamp n = n := by
  obtain ⟨hlower, hupper⟩ := List.mem_range'_1.mp h
  exact clamp_eq_self (by omega) (by omega)

@[simp] theorem clamp_clamp (p : Pagination) (page : Nat) : p.clamp (p.clamp page) = p.clamp page :=
  clamp_eq_self (p.one_le_clamp page) (p.clamp_le_lastPage page)

@[simp] theorem clamp_max_one (p : Pagination) (page : Nat) :
    p.clamp (max page 1) = p.clamp page := by
  simp only [clamp]
  omega

/-! ## The items of a page -/

theorem totalItems_le_totalPages_mul (p : Pagination) :
    p.totalItems ≤ p.totalPages * p.pageSize := by
  have hdiv := Nat.lt_div_mul_add (a := p.totalItems + (p.pageSize - 1)) p.pageSize_pos
  have hpos := p.pageSize_pos
  simp only [totalPages]
  omega

theorem totalPages_le_totalItems (p : Pagination) : p.totalPages ≤ p.totalItems := by
  obtain ⟨totalItems, pageSize, hpos⟩ := p
  obtain ⟨k, rfl⟩ := Nat.exists_eq_add_of_lt hpos
  cases totalItems with
  | zero => simp [totalPages]
  | succ n =>
      have hle : n + 1 + k ≤ (n + 1) * (k + 1) := by
        rw [Nat.mul_succ]
        have hmul : k ≤ (n + 1) * k := Nat.le_mul_of_pos_left k n.succ_pos
        omega
      have hdiv := Nat.div_le_of_le_mul (Nat.mul_comm (n + 1) (k + 1) ▸ hle)
      simpa [totalPages] using hdiv

theorem totalItems_le_lastPage_mul (p : Pagination) : p.totalItems ≤ p.lastPage * p.pageSize :=
  p.totalItems_le_totalPages_mul.trans (Nat.mul_le_mul_right _ (Nat.le_max_left _ _))

/-- Some item is left for every page. -/
theorem sub_one_mul_lt_totalItems (hpage : 1 ≤ page) (hlast : page ≤ p.totalPages) :
    (page - 1) * p.pageSize < p.totalItems := by
  have hdiv := Nat.div_mul_le_self (p.totalItems + (p.pageSize - 1)) p.pageSize
  have hpos := p.pageSize_pos
  have hmul : page * p.pageSize ≤ p.totalPages * p.pageSize := Nat.mul_le_mul_right _ hlast
  have hsize : p.pageSize ≤ page * p.pageSize := Nat.le_mul_of_pos_left _ hpage
  have hsub : (page - 1) * p.pageSize = page * p.pageSize - p.pageSize := Nat.sub_one_mul _ _
  simp only [totalPages] at hmul
  omega

theorem sub_one_mul_le_totalItems (h : page ≤ p.lastPage) :
    (page - 1) * p.pageSize ≤ p.totalItems := by
  by_cases hone : page ≤ 1
  · have hzero : page - 1 = 0 := by omega
    simp [hzero]
  · have hlast : page ≤ p.totalPages := by
      simp only [lastPage] at h
      omega
    exact (sub_one_mul_lt_totalItems (by omega) hlast).le

theorem first_eq (p : Pagination) (page : Nat) :
    p.first page = (p.clamp page - 1) * p.pageSize :=
  Nat.min_eq_left (sub_one_mul_le_totalItems (p.clamp_le_lastPage page))

theorem slice_eq {α : Type} (p : Pagination) (items : List α) (page : Nat) :
    p.slice items page =
      ((items.take p.totalItems).drop ((p.clamp page - 1) * p.pageSize)).take p.pageSize := by
  have hstop : p.stop page = min (p.first page + p.pageSize) p.totalItems := rfl
  rw [slice, hstop, first_eq, ← List.take_take, List.drop_take, Nat.add_sub_cancel_left]

/-- Consecutive pages hold consecutive items. -/
theorem flatMap_slice_range' {α : Type} (items : List α) {start count : Nat} (hstart : 1 ≤ start)
    (hlast : start + count ≤ p.lastPage + 1) :
    (List.range' start count).flatMap (p.slice items) =
      ((items.take p.totalItems).drop ((start - 1) * p.pageSize)).take (count * p.pageSize) := by
  induction count generalizing start with
  | zero => simp
  | succ count ih =>
      have hclamp : p.clamp start = start := clamp_eq_self hstart (by omega)
      have hnext : (start + 1 - 1) * p.pageSize = (start - 1) * p.pageSize + p.pageSize := by
        rw [← Nat.succ_mul, Nat.succ_eq_add_one, Nat.sub_add_cancel hstart, Nat.add_sub_cancel]
      have hcount : (count + 1) * p.pageSize = p.pageSize + count * p.pageSize := by
        rw [Nat.succ_mul, Nat.add_comm]
      rw [List.range'_succ, List.flatMap_cons, ih (by omega) (by omega), slice_eq, hclamp, hnext,
        hcount, List.take_add, List.drop_drop]

theorem flatMap_slice_range'_lastPage {α : Type} {items : List α}
    (hitems : items.length = p.totalItems) (hpage : 1 ≤ page) (hlast : page ≤ p.lastPage) :
    (List.range' page (p.lastPage + 1 - page)).flatMap (p.slice items) =
      items.drop ((page - 1) * p.pageSize) := by
  rw [flatMap_slice_range' items hpage (by omega), ← hitems, List.take_length]
  refine List.take_of_length_le ?_
  have hmul : (p.lastPage + 1 - page) * p.pageSize + (page - 1) * p.pageSize =
      p.lastPage * p.pageSize := by
    rw [← Nat.add_mul]
    congr 1
    omega
  have htotal := p.totalItems_le_lastPage_mul
  rw [List.length_drop, hitems]
  omega

theorem slice_clamp {α : Type} (p : Pagination) (items : List α) (page : Nat) :
    p.slice items (p.clamp page) = p.slice items page := by
  rw [slice_eq, slice_eq, clamp_clamp]

theorem flatMap_slice_totalPages {α : Type} (p : Pagination) (items : List α) :
    (List.range' 1 p.totalPages).flatMap (p.slice items) = items.take p.totalItems := by
  have hlast : 1 + p.totalPages ≤ p.lastPage + 1 := by
    have hle : p.totalPages ≤ p.lastPage := Nat.le_max_left _ _
    omega
  rw [flatMap_slice_range' items (Nat.le_refl 1) hlast, Nat.sub_self, Nat.zero_mul, List.drop_zero]
  apply List.take_of_length_le
  rw [List.length_take]
  exact (Nat.min_le_left _ _).trans p.totalItems_le_totalPages_mul

/-! ## The ends of the bar -/

theorem mem_controls_next :
    .next n ∈ p.controls page ↔ p.clamp page < p.lastPage ∧ n = p.clamp page + 1 := by
  have hpage := p.one_le_clamp page
  have hlast : p.lastPage = max p.totalPages 1 := rfl
  by_cases htotal : p.totalPages ≤ 1
  · have hle : p.lastPage ≤ 1 := by omega
    simp only [controls, htotal, if_true, List.not_mem_nil, false_iff]
    omega
  · have heq : p.lastPage = p.totalPages := by omega
    simp [controls, htotal, heq, List.mem_ite_nil_right]

theorem mem_controls_previous :
    .previous n ∈ p.controls page ↔ 1 < p.clamp page ∧ n = p.clamp page - 1 := by
  have hpage := p.clamp_le_lastPage page
  have hlast : p.lastPage = max p.totalPages 1 := rfl
  by_cases htotal : p.totalPages ≤ 1
  · simp only [controls, htotal, if_true, List.not_mem_nil, false_iff]
    omega
  · simp [controls, htotal, List.mem_ite_nil_right]

end Pagination

end Bookshelf
