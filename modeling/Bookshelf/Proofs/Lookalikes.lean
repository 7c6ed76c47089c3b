import Bookshelf.Proofs.Queries
import Mathlib.Tactic.NormNum

namespace Bookshelf

/-!
# Books that differ in spelling

Two lists of books may spell their genres differently, and the vocabularies of
both then give an expression different trees. The reports are nevertheless the
same, because a genre is found in a vocabulary and in a book by its key.
-/

/-- Two books that no query tells apart. -/
structure Book.Alike (a b : Book) : Prop where
  value_eq : a.averageRating.value = b.averageRating.value
  ratingCount_eq : a.ratingCount = b.ratingCount
  carries_iff : ∀ k, a.Carries k ↔ b.Carries k

theorem Book.any_same_iff_carries {b : Book} {name : String}
    (hname : Genre.isBlankKey (Genre.key name) = false) :
    b.genres.any (Genre.same · name) ↔ b.Carries (Genre.key name) := by
  simp [Book.Carries, hname]

theorem Vocabulary.isBlankKey_of_resolve {v : Vocabulary} {name n : String}
    (h : v.resolve name = some n) : Genre.isBlankKey (Genre.key n) = false := by
  rw [key_of_resolve h]
  cases hblank : Genre.isBlankKey (Genre.key name) with
  | false => rfl
  | true => simp [resolve_eq_name?, name?_of_isBlankKey hblank] at h

namespace Report

open Expression

variable {a b : List Book} {v w : Vocabulary}

theorem contains_eq_of_alike (h : List.Forall₂ Book.Alike a b) (name : String) :
    (Catalog.mk a).vocabulary.contains name = (Catalog.mk b).vocabulary.contains name := by
  rw [Bool.eq_iff_iff, Catalog.contains_vocabulary_iff, Catalog.contains_vocabulary_iff]
  induction h with
  | nil => rfl
  | cons hxy _ ih => simp [hxy.carries_iff, ih]

theorem passes_of_alike {e : Option Expression} {f : String → String} {x y : Book}
    (hnames : ∀ t, e = some t → ∀ n ∈ t.names, Genre.isBlankKey (Genre.key n) = false)
    (hf : ∀ n, Genre.key (f n) = Genre.key n) (h : x.Alike y) (minimum : UInt64) :
    passes (e.map (respell f)) minimum y = passes e minimum x := by
  cases e with
  | none => simp [passes, satisfies, h.ratingCount_eq]
  | some t =>
      have hholds : (t.respell f).holds y.genres = t.holds x.genres := by
        apply holds_respell
        intro n hn
        have hblank := hnames t rfl n hn
        have hblank' : Genre.isBlankKey (Genre.key (f n)) = false := by rw [hf, hblank]
        rw [Bool.eq_iff_iff, Book.any_same_iff_carries hblank', Book.any_same_iff_carries hblank,
          hf, h.carries_iff]
      simp [passes, satisfies, hholds, h.ratingCount_eq]

theorem exists_getElem?_of_forall₂ {α β : Type} {r : α → β → Prop} {xs : List α} {ys : List β}
    (h : List.Forall₂ r xs ys) {i : Nat} {x : α} (hx : xs[i]? = some x) :
    ∃ y, ys[i]? = some y ∧ r x y := by
  obtain ⟨hi, rfl⟩ := List.getElem?_eq_some_iff.mp hx
  have hys : i < ys.length := h.length_eq ▸ hi
  exact ⟨ys.get ⟨i, hys⟩, List.getElem?_eq_getElem hys, h.get hi hys⟩

/-- The entry for the same position of another list. -/
def counterpart (b : List Book) (p : Book × Nat) : Book × Nat :=
  ((b[p.2]?).getD p.1, p.2)

theorem counterpart_of_getElem? {p : Book × Nat} {y : Book} (h : b[p.2]? = some y) :
    counterpart b p = (y, p.2) := by
  simp [counterpart, h]

theorem rank_of_alike (h : List.Forall₂ Book.Alike a b) {keep keep' : Book → Bool}
    (hkeep : ∀ x y, Book.Alike x y → keep' y = keep x) :
    rank b keep' = (rank a keep).map (counterpart b) := by
  apply eq_map_of_precedes (pairwise_rank a keep) (pairwise_rank b keep')
  · intro p hp q hq hpq
    obtain ⟨y, hy, hpy⟩ := exists_getElem?_of_forall₂ h (mem_rank.mp hp).1
    obtain ⟨z, hz, hqz⟩ := exists_getElem?_of_forall₂ h (mem_rank.mp hq).1
    rw [counterpart_of_getElem? hy, counterpart_of_getElem? hz, Precedes, ← hpy.value_eq,
      ← hqz.value_eq]
    exact hpq
  · intro p
    constructor
    · intro hp
      obtain ⟨hbook, hpass⟩ := mem_rank.mp hp
      obtain ⟨x, hx, halike⟩ := exists_getElem?_of_forall₂ h.flip hbook
      rw [hkeep x p.1 halike] at hpass
      exact ⟨(x, p.2), mem_rank.mpr ⟨hx, hpass⟩, counterpart_of_getElem? hbook⟩
    · rintro ⟨q, hq, rfl⟩
      obtain ⟨hbook, hpass⟩ := mem_rank.mp hq
      obtain ⟨y, hy, halike⟩ := exists_getElem?_of_forall₂ h hbook
      rw [← hkeep q.1 y halike] at hpass
      rw [counterpart_of_getElem? hy]
      exact mem_rank.mpr ⟨hy, hpass⟩

theorem positions_rank_of_alike (h : List.Forall₂ Book.Alike a b) {keep keep' : Book → Bool}
    (hkeep : ∀ x y, Book.Alike x y → keep' y = keep x) (err : Option ParseError) :
    (Report.mk (rank a keep) err).positions = (Report.mk (rank b keep') err).positions := by
  rw [positions, positions, rank_of_alike h hkeep, List.map_map]
  rfl

theorem search_of_alike (h : List.Forall₂ Book.Alike a b)
    (hcontains : ∀ name, v.contains name = w.contains name) (ts : List (Token String))
    (minimum : UInt64) :
    (search a (v.resolveTokens ts) minimum).error =
        (search b (w.resolveTokens ts) minimum).error ∧
      (search a (v.resolveTokens ts) minimum).positions =
        (search b (w.resolveTokens ts) minimum).positions := by
  have hw := Vocabulary.parse?_resolveTokens_congr hcontains ts
  cases hv : parse? (v.resolveTokens ts) with
  | error err =>
      rw [hv] at hw
      rw [search_of_error hv, search_of_error hw]
      refine ⟨rfl, positions_rank_of_alike h ?_ _⟩
      intro x y hxy
      apply passes_of_alike (e := none) (f := id) ?_ (fun _ => rfl) hxy
      rintro t ⟨⟩
  | ok e =>
      rw [hv] at hw
      rw [search_of_ok hv, search_of_ok hw]
      refine ⟨rfl, positions_rank_of_alike h ?_ _⟩
      intro x y hxy
      -- Alike books may differ in blank genres, but a parsed tree has known genres only.
      apply passes_of_alike ?_ w.key_respelling hxy
      rintro t rfl n hn
      obtain ⟨name, hname⟩ := Vocabulary.exists_resolve_of_mem_names hv hn
      exact Vocabulary.isBlankKey_of_resolve hname

/-- Reports tell errors and positions from ratings, counts and carried keys only. -/
theorem results_eq_of_alike (h : List.Forall₂ Book.Alike a b) :
    (∀ (q : Query) (minimum : UInt64),
      (q.results ⟨a⟩ minimum).error = (q.results ⟨b⟩ minimum).error ∧
        (q.results ⟨a⟩ minimum).positions = (q.results ⟨b⟩ minimum).positions) ∧
    ∀ v w : Vocabulary, (∀ name, v.contains name = w.contains name) →
      ∀ (text : String) (minimum : UInt64),
        (filter a v text minimum).error = (filter b w text minimum).error ∧
          (filter a v text minimum).positions = (filter b w text minimum).positions := by
  constructor
  · intro q minimum
    rw [q.results_eq_search, q.results_eq_search]
    exact search_of_alike h (contains_eq_of_alike h) q.tokens minimum
  · intro v w hcontains text minimum
    exact search_of_alike h hcontains (Token.ofText text) minimum

def film : Book :=
  { title := "Nosferatu", averageRating := ⟨false, 41, 1, by decide, by decide⟩,
    genres := ["FİLM", "Horror", "horror", " "] }

def respelledFilm : Book :=
  { title := "NOSFERATU", averageRating := ⟨false, 4100, 3, by decide, by decide⟩,
    genres := ["HORROR", "fi\u0307lm"] }

theorem alike_film : film.Alike respelledFilm where
  value_eq := by norm_num [film, respelledFilm, Decimal.value, Decimal.signed]
  ratingCount_eq := rfl
  carries_iff k := by
    have hfilm : Genre.key "FİLM" = Genre.key "fi\u0307lm" := by decide
    have hhorror : Genre.key "horror" = Genre.key "HORROR" := by decide
    have hhorror' : Genre.key "Horror" = Genre.key "HORROR" := by decide
    have hblank : Genre.isBlankKey (Genre.key " ") = true := by decide
    simp only [Book.Carries, film, respelledFilm, List.map_cons, List.map_nil, hfilm, hhorror,
      hhorror', List.mem_cons]
    constructor
    · rintro ⟨rfl | rfl | rfl | rfl | h, hk⟩ <;> simp_all
    · rintro ⟨rfl | rfl | h, hk⟩ <;> simp_all

theorem results_eq_of_alike_film :
    let q : Query := .text "horror AND NOT (drama OR fi\u0307lm)"
    let a := [film, { title := "Emma", genres := ["Drama"] }]
    let b := [respelledFilm, { title := "Emma", genres := ["Drama"] }]
    List.Forall₂ Book.Alike a b ∧ (q.results ⟨a⟩ 0).error = (q.results ⟨b⟩ 0).error ∧
      (q.results ⟨a⟩ 0).positions = (q.results ⟨b⟩ 0).positions ∧
      (filter a (Catalog.mk b).vocabulary "FİLM" 0).positions =
        (filter b (Catalog.mk a).vocabulary "FİLM" 0).positions := by
  intro q a b
  have h : List.Forall₂ Book.Alike a b := .cons alike_film (.cons ⟨rfl, rfl, fun _ => Iff.rfl⟩ .nil)
  obtain ⟨hquery, hfilter⟩ := results_eq_of_alike h
  have hcontains : ∀ name, (Catalog.mk b).vocabulary.contains name =
      (Catalog.mk a).vocabulary.contains name := fun name => (contains_eq_of_alike h name).symm
  exact ⟨h, (hquery q 0).1, (hquery q 0).2, (hfilter _ _ hcontains "FİLM" 0).2⟩

end Report

end Bookshelf
