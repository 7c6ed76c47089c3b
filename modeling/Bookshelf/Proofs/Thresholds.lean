import Bookshelf.Proofs.Counts
import Bookshelf.Proofs.Queries

namespace Bookshelf

/-!
# Thresholds

Neither the error of a report nor its order depends on the minimum. So raising
the minimum only removes books. A minimum that is typed as a dataset writes the
count of a book never removes that book.
-/

namespace Report

variable {m m' : UInt64}

/-- A report holds those books of another that have at least `minimum` ratings,
in the same order, and has the same error. -/
structure Restricts (high low : Report) (minimum : UInt64) : Prop where
  error_eq : high.error = low.error
  ranked_eq : high.ranked = low.ranked.filter fun p => minimum ≤ p.1.ratingCount

theorem Restricts.matched_eq {high low : Report} {minimum : UInt64}
    (h : Restricts high low minimum) :
    high.matched = low.matched.filter (minimum ≤ ·.ratingCount) := by
  rw [matched, matched, h.ranked_eq, List.filter_map]
  rfl

theorem passes_of_le (h : m ≤ m') (e : Option Expression) :
    passes e m' = fun b => passes e m b && decide (m' ≤ b.ratingCount) := by
  funext b
  rw [passes, passes, Bool.and_assoc]
  congr 1
  rw [Bool.eq_iff_iff, Bool.and_eq_true, decide_eq_true_eq, decide_eq_true_eq]
  constructor
  · intro hb
    exact ⟨UInt64.le_trans h hb, hb⟩
  · exact And.right

theorem restricts_rank (h : m ≤ m') (books : List Book) (e : Option Expression)
    (err : Option Expression.ParseError) :
    Restricts ⟨rank books (passes e m'), err⟩ ⟨rank books (passes e m), err⟩ m' where
  error_eq := rfl
  ranked_eq := by
    rw [passes_of_le h]
    exact (filter_rank books (passes e m) fun b => m' ≤ b.ratingCount).symm

/-- The tokens are parsed before the minimum is looked at. -/
theorem restricts_search (h : m ≤ m') (books : List Book) (ts : List (Token Literal)) :
    Restricts (search books ts m') (search books ts m) m' := by
  cases hparse : Expression.parse? ts with
  | ok e =>
      rw [search_of_ok hparse, search_of_ok hparse]
      exact restricts_rank h books e none
  | error err =>
      rw [search_of_error hparse, search_of_error hparse]
      exact restricts_rank h books none (some err)

/-- Raising the minimum only removes books, for a text and for a list of entries. -/
theorem restricts_filter (h : m ≤ m') :
    (∀ (books : List Book) (v : Vocabulary) (text : String),
      Restricts (filter books v text m') (filter books v text m) m') ∧
    ∀ (books : List Book) (v : Vocabulary) (entries : List String),
      Restricts (search books (v.tokenizeList entries) m')
        (search books (v.tokenizeList entries) m) m' := by
  constructor
  · intro books v text
    exact restricts_search h books (v.tokenize text)
  · intro books v entries
    exact restricts_search h books (v.tokenizeList entries)

def ratedBooks : List Book :=
  [{ title := "Emma", ratingCount := 2 },
    { title := "It", averageRating := Decimal.ofWord 4, ratingCount := 5, genres := ["Horror"] },
    { title := "Dracula", ratingCount := 9, genres := ["Horror"] },
    { title := "Dune", averageRating := Decimal.ofWord 4, ratingCount := 7 }]

/-- The text names an unknown genre, so it selects every book with enough ratings. -/
theorem restricts_filter_ratedBooks :
    let v : Vocabulary := .empty
    let w : Vocabulary := (Catalog.mk ratedBooks).vocabulary
    (2 : UInt64) ≤ 5 ∧
      Restricts (filter ratedBooks v "horror" 5) (filter ratedBooks v "horror" 2) 5 ∧
      (filter ratedBooks v "horror" 5).error = some (.unknownGenre "horror") ∧
      (filter ratedBooks v "horror" 2).size = 4 ∧ (filter ratedBooks v "horror" 5).size = 3 ∧
      Restricts (search ratedBooks (w.tokenizeList ["NOT", "HORROR"]) 5)
        (search ratedBooks (w.tokenizeList ["NOT", "HORROR"]) 2) 5 := by
  intro v w
  have hle : (2 : UInt64) ≤ 5 := by decide
  have hparse : Expression.parse? (v.tokenize "horror") = .error (.unknownGenre "horror") := by
    rw [Expression.parse?_eq_run]
    decide +kernel
  have hreport : ∀ minimum : UInt64, filter ratedBooks v "horror" minimum =
      ⟨rank ratedBooks (passes none minimum), some (.unknownGenre "horror")⟩ :=
    fun minimum => search_of_error hparse ratedBooks minimum
  have hsize : ∀ minimum : UInt64, (filter ratedBooks v "horror" minimum).size =
      ratedBooks.countP (passes none minimum) := by
    intro minimum
    rw [hreport, size, length_rank]
  obtain ⟨htext, hentries⟩ := restricts_filter hle
  exact ⟨hle, htext _ _ _, congrArg error (hreport 5), hsize 2, hsize 5, hentries _ _ _⟩

end Report

theorem Query.mem_matched_results_iff {q : Query} {c : Catalog} {b : Book} {minimum : UInt64}
    (h : minimum ≤ b.ratingCount) :
    b ∈ (q.results c minimum).matched ↔ b ∈ (q.results c 0).matched := by
  have hrestricts := Report.restricts_search (UInt64.zero_le (a := minimum)) c.books
    (c.vocabulary.resolveTokens q.tokens)
  rw [results_eq_search, results_eq_search, hrestricts.matched_eq, List.mem_filter,
    decide_eq_true h]
  exact and_iff_left rfl

namespace Count

/-- A threshold never exceeds the count that a dataset reads from the same text,
and both are the number that the text writes, up to the largest count. -/
theorem threshold_agrees :
    (∀ (t : String) (n : UInt64), read? t = some n →
      threshold t ≤ n ∧ ('_' ∉ t.toList → '+' ∉ t.toList → threshold t = n) ∧
        ∀ (q : Query) (c : Catalog) (b : Book), b.ratingCount = n →
          (b ∈ (q.results c (threshold t)).matched ↔ b ∈ (q.results c 0).matched)) ∧
    ∀ (n : Nat) (s : Spelling n),
      (n < UInt64.size →
        (read? s.text).map UInt64.toNat = some n ∧ (threshold s.text).toNat = n) ∧
      (UInt64.size ≤ n →
        read? s.text = none ∧ (threshold s.text).toNat = UInt64.size - 1) := by
  constructor
  · intro t n hread
    have hle : threshold t ≤ n := threshold_le_of_read? hread
    refine ⟨hle, threshold_eq_of_read? hread, ?_⟩
    rintro q c b rfl
    exact Query.mem_matched_results_iff hle
  · intro n s
    constructor
    · intro hn
      rw [s.read?_text, if_pos hn, Option.map_some, UInt64.toNat_ofNat_of_lt' hn,
        s.toNat_threshold_text]
      exact ⟨rfl, Nat.min_eq_left (by omega)⟩
    · intro hn
      rw [s.read?_text, if_neg (Nat.not_lt.mpr hn), s.toNat_threshold_text]
      exact ⟨rfl, Nat.min_eq_right (by omega)⟩

/-- The first number that is no count. -/
def tooMany : Spelling UInt64.size where
  front := ['\u3000']
  zeros := 1
  spaced := ",0,18,446,744,073,709551616".toList
  back := ['\n']
  isBlank_front := List.forall_mem_singleton.mpr rfl
  isBlank_back := List.forall_mem_singleton.mpr rfl
  filter_spaced := rfl

theorem threshold_agrees_tooMany :
    (read? "1_000" = some 1000 ∧ threshold "1_000" ≤ 1000 ∧ threshold "1_000" = 1) ∧
    (read? " ,042" = some 42 ∧ '_' ∉ " ,042".toList ∧ '+' ∉ " ,042".toList ∧
      threshold " ,042" = 42) ∧
    (1066 < UInt64.size ∧ (read? (Spelling.plain 1066).text).map UInt64.toNat = some 1066) ∧
    tooMany.text = "\u3000,0,18,446,744,073,709551616\n" ∧ read? tooMany.text = none ∧
      (threshold tooMany.text).toNat = UInt64.size - 1 := by
  have hunderscore : read? "1_000" = some 1000 := by decide
  have hcomma : read? " ,042" = some 42 := by decide
  have hplain : ('_' ∉ " ,042".toList) ∧ '+' ∉ " ,042".toList := by decide
  have hcount : 1066 < UInt64.size := by decide
  obtain ⟨hread, hspelling⟩ := threshold_agrees
  obtain ⟨hle, -, -⟩ := hread "1_000" 1000 hunderscore
  obtain ⟨-, heq, -⟩ := hread " ,042" 42 hcomma
  obtain ⟨hnone, hlargest⟩ := (hspelling UInt64.size tooMany).2 le_rfl
  exact ⟨⟨hunderscore, hle, by decide⟩, ⟨hcomma, hplain.1, hplain.2, heq hplain.1 hplain.2⟩,
    ⟨hcount, ((hspelling 1066 (.plain 1066)).1 hcount).1⟩, rfl, hnone, hlargest⟩

end Count

end Bookshelf
