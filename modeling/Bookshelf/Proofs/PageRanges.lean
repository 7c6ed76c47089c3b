import Bookshelf.Proofs.Pages

namespace Bookshelf

/-!
# The ranges of the pages

The ranges of the pages follow one another from the first item to the last. All
pages are full but the last one, which holds at least one item. A page number
out of range has the range of the nearest page.
-/

namespace Pagination

variable {p : Pagination} {page : Nat}

theorem totalPages_le_lastPage (p : Pagination) : p.totalPages ≤ p.lastPage :=
  Nat.le_max_left _ _

theorem first_of_le (hpage : 1 ≤ page) (hlast : page ≤ p.lastPage) :
    p.first page = (page - 1) * p.pageSize := by
  rw [first_eq, clamp_eq_self hpage hlast]

theorem first_lt_totalItems (hpage : 1 ≤ page) (hlast : page ≤ p.totalPages) :
    p.first page < p.totalItems := by
  rw [first_of_le hpage (hlast.trans p.totalPages_le_lastPage)]
  exact sub_one_mul_lt_totalItems hpage hlast

theorem first_lt_stop (hpage : 1 ≤ page) (hlast : page ≤ p.totalPages) :
    p.first page < p.stop page := by
  have hfirst := first_lt_totalItems hpage hlast
  have hpos := p.pageSize_pos
  rw [stop]
  omega

theorem first_succ (hpage : 1 ≤ page) (hlast : page + 1 ≤ p.lastPage) :
    p.first (page + 1) = p.first page + p.pageSize := by
  have hsize : p.pageSize ≤ page * p.pageSize := Nat.le_mul_of_pos_left _ hpage
  rw [first_of_le hpage (Nat.le_of_succ_le hlast), first_of_le (Nat.le_add_left 1 page) hlast,
    Nat.add_sub_cancel, Nat.sub_one_mul]
  omega

/-- A page that is not the last one is full, and ends where the page behind it starts. -/
theorem stop_eq (hpage : 1 ≤ page) (hlast : page < p.totalPages) :
    p.stop page = p.first page + p.pageSize := by
  have hnext := first_lt_totalItems (Nat.le_add_left 1 page) hlast
  rw [first_succ hpage (hlast.trans_le p.totalPages_le_lastPage)] at hnext
  exact Nat.min_eq_left hnext.le

theorem stop_lastPage (p : Pagination) : p.stop p.lastPage = p.totalItems := by
  have hlast := p.one_le_lastPage
  have htotal := p.totalItems_le_lastPage_mul
  have hsize : p.pageSize ≤ p.lastPage * p.pageSize := Nat.le_mul_of_pos_left _ hlast
  rw [stop, first_of_le hlast le_rfl, Nat.sub_one_mul]
  omega

theorem first_le_stop (p : Pagination) (page : Nat) : p.first page ≤ p.stop page := by
  have hfirst : p.first page ≤ p.totalItems := Nat.min_le_right _ _
  rw [stop]
  omega

theorem stop_sub_first_le (p : Pagination) (page : Nat) :
    p.stop page - p.first page ≤ p.pageSize := by
  rw [stop]
  omega

theorem length_slice_le {α : Type} (p : Pagination) (items : List α) (page : Nat) :
    (p.slice items page).length ≤ p.pageSize := by
  rw [slice_eq]
  exact List.length_take_le _ _

theorem first_clamp (p : Pagination) (page : Nat) : p.first (p.clamp page) = p.first page := by
  rw [first_eq, first_eq, clamp_clamp]

theorem stop_clamp (p : Pagination) (page : Nat) : p.stop (p.clamp page) = p.stop page := by
  rw [stop, first_clamp, stop]

theorem clamp_zero (p : Pagination) : p.clamp 0 = 1 := by
  have hlast := p.one_le_lastPage
  rw [clamp]
  omega

theorem clamp_of_lastPage_le (hlast : p.lastPage ≤ page) : p.clamp page = p.lastPage := by
  rw [clamp]
  omega

/-- The pages cut the items into consecutive parts, and each page number stands for one of them. -/
theorem pages_partition (totalItems pageSize : Nat) :
    let p : Pagination := ofSize totalItems pageSize
    (∀ page, 1 ≤ page → page ≤ p.totalPages → p.first page < p.stop page ∧ p.clamp page = page) ∧
    (∀ page, 1 ≤ page → page < p.totalPages →
      p.stop page = p.first (page + 1) ∧ p.stop page - p.first page = p.pageSize) ∧
    p.first 1 = 0 ∧ p.stop (max p.totalPages 1) = totalItems ∧
    (∀ {α : Type} (items : List α), (List.range' 1 p.totalPages).flatMap (p.slice items) =
      items.take (min totalItems items.length)) ∧
    p.clamp 0 = 1 ∧ (∀ page, max p.totalPages 1 ≤ page → p.clamp page = max p.totalPages 1) ∧
    ∀ page, p.first page = p.first (p.clamp page) ∧ p.stop page = p.stop (p.clamp page) ∧
      p.first page ≤ p.stop page ∧ p.stop page - p.first page ≤ p.pageSize ∧
      ∀ {α : Type} (items : List α), p.slice items page = p.slice items (p.clamp page) ∧
        (p.slice items page).length ≤ p.pageSize := by
  intro p
  refine ⟨?_, ?_, ?_, p.stop_lastPage, ?_, p.clamp_zero, fun page => clamp_of_lastPage_le, ?_⟩
  · intro page hpage hlast
    exact ⟨first_lt_stop hpage hlast, clamp_eq_self hpage (hlast.trans p.totalPages_le_lastPage)⟩
  · intro page hpage hlast
    rw [first_succ hpage (hlast.trans_le p.totalPages_le_lastPage), stop_eq hpage hlast,
      Nat.add_sub_cancel_left]
    exact ⟨rfl, rfl⟩
  · rw [first_of_le le_rfl p.one_le_lastPage, Nat.sub_self, Nat.zero_mul]
  · intro α items
    have htotal : p.totalItems = totalItems := rfl
    rw [p.flatMap_slice_totalPages items, htotal, List.take_eq_take_iff, Nat.min_assoc,
      Nat.min_self]
  · intro page
    refine ⟨(p.first_clamp page).symm, (p.stop_clamp page).symm, p.first_le_stop page,
      p.stop_sub_first_le page, ?_⟩
    intro α items
    exact ⟨(p.slice_clamp items page).symm, p.length_slice_le items page⟩

theorem pages_partition_remainder :
    let p := ofSize 25 10
    p.first 2 < p.stop 2 ∧ p.stop 2 = p.first 3 ∧ p.stop 2 - p.first 2 = p.pageSize ∧
      p.first 3 < p.stop 3 ∧ p.stop 3 = 25 ∧ p.clamp 42 = 3 ∧
      [1, 2, 3].flatMap (p.slice (List.range' 0 23)) = List.range' 0 23 := by
  intro p
  obtain ⟨hpages, hfull, -, hend, hslices, -, hclamp, -⟩ := pages_partition 25 10
  obtain ⟨hnext, hsize⟩ := hfull 2 (by decide) (by decide)
  exact ⟨(hpages 2 (by decide) (by decide)).1, hnext, hsize,
    (hpages 3 (by decide) (by decide)).1, hend, hclamp 42 (by decide), hslices (List.range' 0 23)⟩

end Pagination

end Bookshelf
