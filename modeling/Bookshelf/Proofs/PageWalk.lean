import Bookshelf.Proofs.SessionHistory

namespace Bookshelf

/-!
# Walking through the pages

Whoever follows *next* as long as the bar shows it comes through every page up
to the last and sees every match once; whoever follows *previous* comes down to
the first page. A request for a page changes nothing else in the view, so the
bars of all visited views are those of one set of pages.
-/

namespace Pagination

/-- From a page, following a control of the bar leads through these pages, and
to no other page in between, until the bar no longer shows it. -/
def LeadsThrough (p : Pagination) (control : Nat → Control) : Nat → List Nat → Prop
  | page, [] => ∀ n, control n ∉ p.controls page
  | page, next :: pages =>
    (∀ n, control n ∈ p.controls page ↔ n = next) ∧ p.LeadsThrough control next pages

variable {p : Pagination}

theorem leadsThrough_next {page count : Nat} (hpage : 1 ≤ page)
    (hlast : page + count = p.lastPage) :
    p.LeadsThrough .next page (List.range' (page + 1) count) := by
  have hclamp : p.clamp page = page := clamp_eq_self hpage (by omega)
  induction count generalizing page with
  | zero =>
      intro n hn
      obtain ⟨hlt, -⟩ := mem_controls_next.mp hn
      omega
  | succ count ih =>
      have hnext : p.clamp (page + 1) = page + 1 := clamp_eq_self (by omega) (by omega)
      refine ⟨?_, ih (by omega) (by omega) hnext⟩
      intro n
      rw [mem_controls_next, hclamp]
      exact and_iff_right (by omega)

theorem leadsThrough_previous (page : Nat) (hlast : page + 1 ≤ p.lastPage) :
    p.LeadsThrough .previous (page + 1) (List.range' 1 page).reverse := by
  have hclamp : p.clamp (page + 1) = page + 1 := clamp_eq_self (by omega) hlast
  induction page with
  | zero =>
      intro n hn
      obtain ⟨hlt, -⟩ := mem_controls_previous.mp hn
      omega
  | succ page ih =>
      have hprevious : p.clamp (page + 1) = page + 1 := clamp_eq_self (by omega) (by omega)
      have hpages : (List.range' 1 (page + 1)).reverse =
          (page + 1) :: (List.range' 1 page).reverse := by
        rw [List.range'_1_concat, List.reverse_append, Nat.add_comm 1 page]
        rfl
      rw [hpages]
      refine ⟨?_, ih (by omega) hprevious⟩
      intro n
      rw [mem_controls_previous, hclamp]
      exact and_iff_right (by omega)

end Pagination

namespace Session

/-- A walk from a session takes the page of a control as long as the bar shows
one. The list has the session after each step. -/
inductive Walk (control : Nat → Pagination.Control) : Session → List Session → Prop
  | stop {s : Session} (h : ∀ n, control n ∉ s.view.controls) : Walk control s []
  | step {s : Session} {n : Nat} {steps : List Session} (h : control n ∈ s.view.controls)
      (rest : Walk control (s.submit (.page n)) steps) :
      Walk control s (s.submit (.page n) :: steps)

/-- The sessions after asking for some pages, one after the other. -/
def turn (s : Session) : List Nat → List Session
  | [] => []
  | n :: pages => s.submit (.page n) :: (s.submit (.page n)).turn pages

@[simp] theorem length_turn (s : Session) (pages : List Nat) :
    (s.turn pages).length = pages.length := by
  induction pages generalizing s with
  | nil => rfl
  | cons n pages ih => simp [turn, ih]

/-- Asking for a page changes nothing else in the view. -/
theorem view_submit_page (s : Session) (n : Nat) :
    (s.submit (.page n)).view = { s.view with page := s.view.pagination.clamp n } := by
  have hclamp := s.view.pagination.clamp_max_one n
  exact congrArg (fun page => { s.view with page := page }) hclamp

theorem walk_iff_eq_turn {control : Nat → Pagination.Control} {s : Session} {pages : List Nat}
    (h : s.view.pagination.LeadsThrough control s.view.page pages)
    (hpages : ∀ n ∈ pages, s.view.pagination.clamp n = n) (steps : List Session) :
    Walk control s steps ↔ steps = s.turn pages := by
  induction pages generalizing s steps with
  | nil =>
      constructor
      · intro hwalk
        cases hwalk with
        | stop => rfl
        | step hmem => exact (h _ hmem).elim
      · rintro rfl
        exact Walk.stop h
  | cons n pages ih =>
      obtain ⟨hnext, hrest⟩ := h
      obtain ⟨hn, hpages⟩ := List.forall_mem_cons.mp hpages
      have hview : (s.submit (.page n)).view = { s.view with page := n } := by
        rw [view_submit_page, hn]
      -- The next session shows another page of the same results, so `hrest` is about its bar.
      have ih := @ih (s.submit (.page n)) (by rw [hview]; exact hrest) (by rw [hview]; exact hpages)
      constructor
      · intro hwalk
        cases hwalk with
        | stop hstop => exact (hstop n ((hnext n).mpr rfl)).elim
        | step hmem hwalk =>
            obtain rfl := (hnext _).mp hmem
            rw [turn, (ih _).mp hwalk]
      · rintro rfl
        exact Walk.step ((hnext n).mpr rfl) ((ih _).mpr rfl)

/-- What is seen after asking for pages in range are those pages of the report. -/
theorem map_view_turn {s : Session} {pages : List Nat}
    (hpages : ∀ n ∈ pages, s.view.pagination.clamp n = n) :
    (s.turn pages).map view = pages.map fun n => { s.view with page := n } := by
  induction pages generalizing s with
  | nil => rfl
  | cons n pages ih =>
      obtain ⟨hn, hpages⟩ := List.forall_mem_cons.mp hpages
      have hview : (s.submit (.page n)).view = { s.view with page := n } := by
        rw [view_submit_page, hn]
      rw [turn, List.map_cons, List.map_cons, ih (by rw [hview]; exact hpages), hview]

theorem map_page_turn {s : Session} {pages : List Nat}
    (hpages : ∀ n ∈ pages, s.view.pagination.clamp n = n) :
    (s :: s.turn pages).map (·.view.page) = s.view.page :: pages := by
  have h := congrArg (List.map View.page) (map_view_turn hpages)
  have hid : View.page ∘ (fun n => { s.view with page := n }) = id := rfl
  rw [List.map_map, List.map_map, hid, List.map_id] at h
  exact congrArg (s.view.page :: ·) h

theorem flatMap_books_turn {s : Session} {pages : List Nat}
    (hpages : ∀ n ∈ pages, s.view.pagination.clamp n = n) :
    (s :: s.turn pages).flatMap (·.view.books) =
      (s.view.page :: pages).flatMap (s.view.pagination.slice s.view.report.matched) := by
  have h := congrArg (List.flatMap View.books) (map_view_turn hpages)
  rw [List.flatMap_map, List.flatMap_map] at h
  rw [List.flatMap_cons, List.flatMap_cons, h]
  rfl

theorem exists_walk_next (s : Session) :
    ∃ steps, (∀ l, Walk .next s l ↔ l = steps) ∧
      steps.length = s.view.pagination.lastPage - s.view.page ∧
      (s :: steps).map (·.view.page) =
        List.range' s.view.page (s.view.pagination.lastPage + 1 - s.view.page) ∧
      (s :: steps).flatMap (·.view.books) =
        s.view.report.matched.drop ((s.view.page - 1) * s.view.pagination.pageSize) := by
  have hpage : 1 ≤ s.view.page := Pagination.one_le_clamp _ _
  have hlast : s.view.page ≤ s.view.pagination.lastPage := Pagination.clamp_le_lastPage _ _
  have hitems : s.view.report.matched.length = s.view.pagination.totalItems :=
    s.view.report.length_matched
  have hcount : s.view.pagination.lastPage + 1 - s.view.page =
      s.view.pagination.lastPage - s.view.page + 1 := by omega
  have hleads := Pagination.leadsThrough_next hpage (Nat.add_sub_cancel' hlast)
  have hpages : ∀ n ∈ List.range' (s.view.page + 1) (s.view.pagination.lastPage - s.view.page),
      s.view.pagination.clamp n = n :=
    fun n hn => Pagination.clamp_eq_self_of_mem_range' (by omega) (by omega) hn
  have hbooks := Pagination.flatMap_slice_range'_lastPage hitems hpage hlast
  rw [hcount] at hbooks ⊢
  refine ⟨_, walk_iff_eq_turn hleads hpages, ?_, map_page_turn hpages, ?_⟩
  · rw [length_turn, List.length_range']
  · rw [flatMap_books_turn hpages, ← hbooks]
    rfl

theorem exists_walk_previous (s : Session) :
    ∃ steps, (∀ l, Walk .previous s l ↔ l = steps) ∧
      (s :: steps).map (·.view.page) = (List.range' 1 s.view.page).reverse := by
  have hone : 1 ≤ s.view.page := Pagination.one_le_clamp _ _
  have hlast : s.view.page ≤ s.view.pagination.lastPage := Pagination.clamp_le_lastPage _ _
  obtain ⟨before, hpage⟩ : ∃ before, s.view.page = before + 1 := ⟨s.view.page - 1, by omega⟩
  have hbefore : before + 1 ≤ s.view.pagination.lastPage := by omega
  have hleads := Pagination.leadsThrough_previous before hbefore
  have hpages : ∀ n ∈ (List.range' 1 before).reverse, s.view.pagination.clamp n = n :=
    fun n hn => Pagination.clamp_eq_self_of_mem_range' le_rfl (by omega) (List.mem_reverse.mp hn)
  rw [← hpage] at hleads
  refine ⟨_, walk_iff_eq_turn hleads hpages, ?_⟩
  rw [map_page_turn hpages, hpage, List.range'_1_concat, List.reverse_append, Nat.add_comm 1 before]
  rfl

/-- From the first page *next* leads through all pages and shows every match
once and in order; from any page *previous* leads down to the first. -/
theorem walks_visit_every_page (c : Catalog) (pageSize : Nat) (rs : List Request) :
    let s := (start c pageSize).submitAll rs
    let first := s.submit (.page 1)
    let last := max s.view.totalPages 1
    (∃ steps, (∀ l, Walk .next first l ↔ l = steps) ∧ steps.length = last - 1 ∧
      (first :: steps).map (·.view.page) = List.range' 1 last ∧
      (first :: steps).flatMap (·.view.books) = s.view.report.matched) ∧
    (∃ steps, (∀ l, Walk .next s l ↔ l = steps) ∧ steps.length = last - s.view.page ∧
      (s :: steps).map (·.view.page) = List.range' s.view.page (last + 1 - s.view.page) ∧
      (s :: steps).flatMap (·.view.books) =
        s.view.report.matched.drop ((s.view.page - 1) * max pageSize 1)) ∧
    ∃ steps, (∀ l, Walk .previous s l ↔ l = steps) ∧
      (s :: steps).map (·.view.page) = (List.range' 1 s.view.page).reverse := by
  intro s first last
  have hfirst : first.view = { s.view with page := 1 } := by
    have hone : s.view.pagination.clamp 1 = 1 :=
      Pagination.clamp_eq_self le_rfl (Pagination.one_le_lastPage _)
    rw [view_submit_page, hone]
  have hsize : s.view.pagination.pageSize = max pageSize 1 := by
    have hs : s = afterHistory c pageSize rs := submitAll_start c pageSize rs
    rw [hs]
    rfl
  refine ⟨?_, ?_, exists_walk_previous s⟩
  · obtain ⟨steps, hwalk, hlength, hpages, hbooks⟩ := exists_walk_next first
    simp only [hfirst] at hlength hpages hbooks
    refine ⟨steps, hwalk, hlength, hpages, ?_⟩
    simpa using hbooks
  · obtain ⟨steps, hwalk, hlength, hpages, hbooks⟩ := exists_walk_next s
    rw [hsize] at hbooks
    exact ⟨steps, hwalk, hlength, hpages, hbooks⟩

end Session

end Bookshelf
