import Bookshelf.Proofs.GrammarParser
import Bookshelf.Proofs.Ranking

namespace Bookshelf

/-!
# Boolean laws of filtering

Expressions may be put into larger ones. In parentheses they are operands like
any genre, and two of them joined by *or* need no parentheses: the chains run
into one another, which changes the tree but not its meaning. Reports follow,
as negation, conjunction and disjunction of what they select.
-/

namespace Grammar

open Expression

def OrExpr.splice : OrExpr → OrExpr → OrExpr
  | .chain first more, .chain next rest => .chain first (more ++ next :: rest)

@[simp] theorem OrExpr.tokens_splice (d e : OrExpr) :
    (d.splice e).tokens = d.tokens ++ .or :: e.tokens := by
  rcases d with ⟨first, more⟩
  rcases e with ⟨next, rest⟩
  simp [splice, moreTokens_eq_flatMap]

theorem holds_foldl_or (genres : List String) (t : Expression) (ts : List Expression) :
    (ts.foldl .or t).holds genres = (t.holds genres || ts.any (holds genres)) := by
  induction ts generalizing t with
  | nil => simp
  | cons u ts ih => simp [ih, holds, Bool.or_assoc]

theorem OrExpr.holds_tree_splice (genres : List String) (d e : OrExpr) :
    (d.splice e).tree.holds genres = (d.tree.holds genres || e.tree.holds genres) := by
  rcases d with ⟨first, more⟩
  rcases e with ⟨next, rest⟩
  rw [splice, tree, tree, tree, holds_foldl_or, holds_foldl_or, holds_foldl_or]
  simp [trees_eq_map, Bool.or_assoc]

end Grammar

namespace Expression

open Grammar

/-! ## Parsing expressions put together -/

def parenthesize (ts : List (Token Literal)) : List (Token Literal) :=
  .opening :: (ts ++ [.closing])

variable {ts us : List (Token Literal)} {t u : Expression}

theorem parseTokens_parenthesize (ht : parseTokens ts = .ok t) :
    parseTokens (parenthesize ts) = .ok t := by
  obtain ⟨d, rfl, rfl⟩ := derives_of_parseTokens ht
  let whole : OrExpr := .chain (.chain (.bare (.group d)) []) []
  simpa [whole, parenthesize] using whole.parseTokens_tokens

theorem parseTokens_not_parenthesize (ht : parseTokens ts = .ok t) :
    parseTokens (.not :: parenthesize ts) = .ok (.not t) := by
  obtain ⟨d, rfl, rfl⟩ := derives_of_parseTokens ht
  let whole : OrExpr := .chain (.chain (.not (.group d)) []) []
  simpa [whole, parenthesize] using whole.parseTokens_tokens

theorem parseTokens_and_parenthesize (ht : parseTokens ts = .ok t) (hu : parseTokens us = .ok u) :
    parseTokens (parenthesize ts ++ .and :: parenthesize us) = .ok (.and t u) := by
  obtain ⟨d, rfl, rfl⟩ := derives_of_parseTokens ht
  obtain ⟨e, rfl, rfl⟩ := derives_of_parseTokens hu
  let whole : OrExpr := .chain (.chain (.bare (.group d)) [.bare (.group e)]) []
  simpa [whole, parenthesize] using whole.parseTokens_tokens

theorem parseTokens_or_parenthesize (ht : parseTokens ts = .ok t) (hu : parseTokens us = .ok u) :
    parseTokens (parenthesize ts ++ .or :: parenthesize us) = .ok (.or t u) := by
  obtain ⟨d, rfl, rfl⟩ := derives_of_parseTokens ht
  obtain ⟨e, rfl, rfl⟩ := derives_of_parseTokens hu
  let whole : OrExpr := .chain (.chain (.bare (.group d)) []) [.chain (.bare (.group e)) []]
  simpa [whole, parenthesize] using whole.parseTokens_tokens

/-- Without parentheses the tree may be another one, but it means the same. -/
theorem exists_parseTokens_or (ht : parseTokens ts = .ok t) (hu : parseTokens us = .ok u) :
    ∃ w, parseTokens (ts ++ .or :: us) = .ok w ∧
      ∀ genres, w.holds genres = (t.holds genres || u.holds genres) := by
  obtain ⟨d, rfl, rfl⟩ := derives_of_parseTokens ht
  obtain ⟨e, rfl, rfl⟩ := derives_of_parseTokens hu
  refine ⟨(d.splice e).tree, ?_, fun genres => d.holds_tree_splice genres e⟩
  rw [← OrExpr.tokens_splice]
  exact (d.splice e).parseTokens_tokens

end Expression

namespace Vocabulary

/-! ## Entries put together -/

theorem tokenizeList_append (v : Vocabulary) (xs ys : List String) :
    v.tokenizeList (xs ++ ys) = v.tokenizeList xs ++ v.tokenizeList ys := by
  simp [tokenizeList, resolveTokens, Token.ofEntries]

theorem tokenizeList_cons {s : String} {token : Token String} (v : Vocabulary)
    (h : Token.ofEntries [s] = [token]) (entries : List String) :
    v.tokenizeList (s :: entries) = token.map v.literal :: v.tokenizeList entries := by
  have hs : v.tokenizeList [s] = [token.map v.literal] := by
    simp [tokenizeList, resolveTokens, h]
  rw [← List.singleton_append, tokenizeList_append, hs, List.singleton_append]

theorem tokenizeList_ne_nil_iff {v : Vocabulary} {entries : List String} :
    v.tokenizeList entries ≠ [] ↔ ∃ s ∈ entries, Text.trim s.toList ≠ [] := by
  simp [tokenizeList, resolveTokens, Token.ofEntries]

theorem tokenizeList_and (v : Vocabulary) (entries : List String) :
    v.tokenizeList ("AND" :: entries) = .and :: v.tokenizeList entries := by
  have h : Token.ofEntries ["AND"] = [.and] := by decide
  exact v.tokenizeList_cons h entries

theorem tokenizeList_or (v : Vocabulary) (entries : List String) :
    v.tokenizeList ("OR" :: entries) = .or :: v.tokenizeList entries := by
  have h : Token.ofEntries ["OR"] = [.or] := by decide
  exact v.tokenizeList_cons h entries

theorem tokenizeList_not (v : Vocabulary) (entries : List String) :
    v.tokenizeList ("NOT" :: entries) = .not :: v.tokenizeList entries := by
  have h : Token.ofEntries ["NOT"] = [.not] := by decide
  exact v.tokenizeList_cons h entries

end Vocabulary

def parenthesized (entries : List String) : List String :=
  "(" :: (entries ++ [")"])

theorem Vocabulary.tokenizeList_parenthesized (v : Vocabulary) (entries : List String) :
    v.tokenizeList (parenthesized entries) = Expression.parenthesize (v.tokenizeList entries) := by
  have hopening : Token.ofEntries ["("] = [.opening] := by decide
  have hclosing : Token.ofEntries [")"] = [.closing] := by decide
  rw [parenthesized, v.tokenizeList_cons hopening, v.tokenizeList_append,
    v.tokenizeList_cons hclosing]
  rfl

namespace Vocabulary

open Expression

variable {v : Vocabulary} {a b : List String} {t u : Expression}

theorem parseTokens_parenthesized (ht : parseTokens (v.tokenizeList a) = .ok t) :
    parseTokens (v.tokenizeList (parenthesized a)) = .ok t := by
  rw [tokenizeList_parenthesized]
  exact parseTokens_parenthesize ht

theorem parseTokens_not_parenthesized (ht : parseTokens (v.tokenizeList a) = .ok t) :
    parseTokens (v.tokenizeList ("NOT" :: parenthesized a)) = .ok (.not t) := by
  rw [tokenizeList_not, tokenizeList_parenthesized]
  exact parseTokens_not_parenthesize ht

theorem parseTokens_and_parenthesized (ht : parseTokens (v.tokenizeList a) = .ok t)
    (hu : parseTokens (v.tokenizeList b) = .ok u) :
    parseTokens (v.tokenizeList (parenthesized a ++ "AND" :: parenthesized b)) =
      .ok (.and t u) := by
  rw [tokenizeList_append, tokenizeList_and, tokenizeList_parenthesized,
    tokenizeList_parenthesized]
  exact parseTokens_and_parenthesize ht hu

theorem parseTokens_or_parenthesized (ht : parseTokens (v.tokenizeList a) = .ok t)
    (hu : parseTokens (v.tokenizeList b) = .ok u) :
    parseTokens (v.tokenizeList (parenthesized a ++ "OR" :: parenthesized b)) =
      .ok (.or t u) := by
  rw [tokenizeList_append, tokenizeList_or, tokenizeList_parenthesized,
    tokenizeList_parenthesized]
  exact parseTokens_or_parenthesize ht hu

theorem exists_parseTokens_append_or (ht : parseTokens (v.tokenizeList a) = .ok t)
    (hu : parseTokens (v.tokenizeList b) = .ok u) :
    ∃ w, parseTokens (v.tokenizeList (a ++ "OR" :: b)) = .ok w ∧
      ∀ genres, w.holds genres = (t.holds genres || u.holds genres) := by
  rw [tokenizeList_append, tokenizeList_or]
  exact exists_parseTokens_or ht hu

end Vocabulary

namespace Report

/-! ## Reports -/

variable {books : List Book} {minimum : UInt64} {i : Nat} {b : Book}

/-- Among the books with enough ratings, the matches of an expression are those
of which it holds. -/
theorem mem_positions_iff_holds (hbook : books[i]? = some b) (hpass : passes none minimum b)
    {t : Expression} {err : Option Expression.ParseError} :
    i ∈ (Report.mk (rank books (passes (some t) minimum)) err).positions ↔ t.holds b.genres := by
  have hcount : minimum ≤ b.ratingCount := by simpa [passes, satisfies] using hpass
  rw [mem_positions_rank]
  constructor
  · rintro ⟨b', hbook', hpass'⟩
    obtain rfl : b = b' := Option.some.inj (hbook.symm.trans hbook')
    simpa [passes, satisfies, hcount] using hpass'
  · intro hholds
    exact ⟨b, hbook, by simp [passes, satisfies, hcount, hholds]⟩

/-- The matches of an expression, picked from all books with enough ratings. -/
theorem filter_positions_eq {q : Nat → Prop} [DecidablePred q] {t : Expression}
    (hq : ∀ i b, books[i]? = some b → passes none minimum b → (q i ↔ t.holds b.genres))
    {err err' : Option Expression.ParseError} :
    (Report.mk (rank books (passes none minimum)) err).positions.filter q =
      (Report.mk (rank books (passes (some t) minimum)) err').positions := by
  have hfilter : (rank books (passes none minimum)).filter (fun p => q p.2) =
      (rank books (passes none minimum)).filter (fun p => t.holds p.1.genres) := by
    refine List.filter_congr ?_
    intro p hp
    obtain ⟨hbook, hpass⟩ := mem_rank.mp hp
    exact Bool.eq_iff_iff.mpr (by simpa using hq p.2 p.1 hbook hpass)
  have hpasses :
      (fun b => passes none minimum b && t.holds b.genres) = passes (some t) minimum := by
    funext b
    simp [passes, satisfies, Bool.and_comm]
  have hrank : (rank books (passes none minimum)).filter (fun p => q p.2) =
      rank books (passes (some t) minimum) := by
    rw [hfilter, filter_rank books _ fun b => t.holds b.genres, hpasses]
  rw [positions, positions, List.filter_map]
  exact congrArg (List.map _) hrank

theorem rank_congr {t u : Expression}
    (h : ∀ genres, t.holds genres = u.holds genres) :
    rank books (passes (some t) minimum) = rank books (passes (some u) minimum) := by
  have hpasses : passes (some t) minimum = passes (some u) minimum := by
    funext b
    simp [passes, satisfies, h]
  rw [hpasses]

end Report

namespace Catalog

open Expression Report

variable {c : Catalog} {entries : List String} {t : Expression}

theorem filterEntries_of_parseTokens
    (h : parseTokens (c.vocabulary.tokenizeList entries) = .ok t) (minimum : UInt64) :
    c.filterEntries entries minimum = ⟨rank c.books (passes (some t) minimum), none⟩ := by
  refine search_of_ok ?_ c.books minimum
  have hne : c.vocabulary.tokenizeList entries ≠ [] := by
    intro hnil
    rw [hnil, parseTokens_eq_run] at h
    cases h
  rw [parse?_of_ne_nil hne, h]
  rfl

theorem filterEntries_nil (c : Catalog) (minimum : UInt64) :
    c.filterEntries [] minimum = ⟨rank c.books (passes none minimum), none⟩ :=
  rfl

/-- Entries that are not all blank and have no error are an expression. -/
theorem exists_parseTokens_of_error_eq_none {minimum : UInt64}
    (hne : ∃ s ∈ entries, Text.trim s.toList ≠ [])
    (herr : (c.filterEntries entries minimum).error = none) :
    ∃ t, parseTokens (c.vocabulary.tokenizeList entries) = .ok t := by
  cases h : parseTokens (c.vocabulary.tokenizeList entries) with
  | ok t => exact ⟨t, rfl⟩
  | error e =>
      have hparse : parse? (c.vocabulary.tokenizeList entries) = .error e := by
        rw [parse?_of_ne_nil (Vocabulary.tokenizeList_ne_nil_iff.mpr hne), h]
        rfl
      rw [filterEntries, search_of_error hparse] at herr
      cases herr

/-- The matches of larger expressions, in terms of the matches of their parts. -/
theorem filterEntries_boolean_laws (c : Catalog) (minimum : UInt64) {a b : List String}
    (ha : ∃ s ∈ a, Text.trim s.toList ≠ []) (hb : ∃ s ∈ b, Text.trim s.toList ≠ [])
    (ha' : (c.filterEntries a minimum).error = none)
    (hb' : (c.filterEntries b minimum).error = none) :
    let selected (entries : List String) : List Nat := (c.filterEntries entries minimum).positions
    selected (parenthesized a) = selected a ∧
    selected ("NOT" :: parenthesized a) = (selected []).filter (· ∉ selected a) ∧
    selected (parenthesized a ++ "AND" :: parenthesized b) =
      (selected []).filter (fun i => i ∈ selected a ∧ i ∈ selected b) ∧
    selected (parenthesized a ++ "OR" :: parenthesized b) =
      (selected []).filter (fun i => i ∈ selected a ∨ i ∈ selected b) ∧
    selected (a ++ "OR" :: b) = selected (parenthesized a ++ "OR" :: parenthesized b) ∧
    ∀ entries ∈ [parenthesized a, "NOT" :: parenthesized a,
        parenthesized a ++ "AND" :: parenthesized b,
        parenthesized a ++ "OR" :: parenthesized b, a ++ "OR" :: b],
      (c.filterEntries entries minimum).error = none := by
  obtain ⟨t, ht⟩ := exists_parseTokens_of_error_eq_none ha ha'
  obtain ⟨u, hu⟩ := exists_parseTokens_of_error_eq_none hb hb'
  obtain ⟨w, hw, hholds⟩ := Vocabulary.exists_parseTokens_append_or ht hu
  have hgroup := filterEntries_of_parseTokens (Vocabulary.parseTokens_parenthesized ht) minimum
  have hnot := filterEntries_of_parseTokens (Vocabulary.parseTokens_not_parenthesized ht) minimum
  have hand := filterEntries_of_parseTokens (Vocabulary.parseTokens_and_parenthesized ht hu) minimum
  have hor := filterEntries_of_parseTokens (Vocabulary.parseTokens_or_parenthesized ht hu) minimum
  have hsplice := filterEntries_of_parseTokens hw minimum
  intro selected
  simp only [selected, filterEntries_of_parseTokens ht, filterEntries_of_parseTokens hu,
    filterEntries_nil, hgroup, hnot, hand, hor, hsplice]
  refine ⟨trivial, ?_, ?_, ?_, ?_, ?_⟩
  · refine (filter_positions_eq ?_).symm
    intro i book hbook hpass
    rw [mem_positions_iff_holds hbook hpass]
    simp [holds]
  · refine (filter_positions_eq ?_).symm
    intro i book hbook hpass
    rw [mem_positions_iff_holds hbook hpass, mem_positions_iff_holds hbook hpass]
    simp [holds]
  · refine (filter_positions_eq ?_).symm
    intro i book hbook hpass
    rw [mem_positions_iff_holds hbook hpass, mem_positions_iff_holds hbook hpass]
    simp [holds]
  · have hmeaning : ∀ genres, w.holds genres = (Expression.or t u).holds genres := hholds
    rw [rank_congr hmeaning]
  · simp [hgroup, hnot, hand, hor, hsplice]

def twoNovels : Catalog where
  books := [{ title := "Dracula", genres := ["Horror", "Classics"] },
    { title := "Rebecca", genres := ["Romance", "classics"] }]

theorem filterEntries_boolean_laws_twoNovels :
    let a := ["classics", "AND", "NOT", "horror"]
    let b := ["NOT", "(", "Romance", ")"]
    let selected (entries : List String) : List Nat := (twoNovels.filterEntries entries 0).positions
    (twoNovels.filterEntries a 0).error = none ∧ (twoNovels.filterEntries b 0).error = none ∧
      selected [] = [0, 1] ∧ selected a = [1] ∧ selected b = [0] ∧
      selected (parenthesized a) = [1] ∧ selected ("NOT" :: parenthesized a) = [0] ∧
      selected (parenthesized a ++ "AND" :: parenthesized b) = [] ∧
      selected (parenthesized a ++ "OR" :: parenthesized b) = [0, 1] ∧
      selected (a ++ "OR" :: b) = [0, 1] ∧
      (twoNovels.filterEntries (a ++ "OR" :: b) 0).error = none := by
  intro a b selected
  have hparse : parseTokens (twoNovels.vocabulary.tokenizeList a) =
      .ok (.and (.genre "Classics") (.not (.genre "Horror"))) := by
    rw [parseTokens_eq_run]
    decide +kernel
  have hparse' : parseTokens (twoNovels.vocabulary.tokenizeList b) =
      .ok (.not (.genre "Romance")) := by
    rw [parseTokens_eq_run]
    decide +kernel
  have ha := filterEntries_of_parseTokens hparse 0
  have hb := filterEntries_of_parseTokens hparse' 0
  have herror : (twoNovels.filterEntries a 0).error = none := congrArg Report.error ha
  have herror' : (twoNovels.filterEntries b 0).error = none := congrArg Report.error hb
  have hall : selected [] = [0, 1] := by
    simp only [selected, filterEntries_nil]
    rw [rank_of_pairwise rfl (by decide +kernel)]
    decide +kernel
  have hselected : selected a = [1] := by
    simp only [selected, ha]
    rw [rank_of_pairwise rfl (by decide +kernel)]
    decide +kernel
  have hselected' : selected b = [0] := by
    simp only [selected, hb]
    rw [rank_of_pairwise rfl (by decide +kernel)]
    decide +kernel
  obtain ⟨hgroup, hnot, hand, hor, hsplice, herrors⟩ :=
    twoNovels.filterEntries_boolean_laws 0 ⟨"classics", by decide⟩ ⟨"NOT", by decide⟩ herror herror'
  have heither : selected (parenthesized a ++ "OR" :: parenthesized b) = [0, 1] := by
    refine hor.trans ?_
    simp [hall, hselected, hselected', selected]
  refine ⟨herror, herror', hall, hselected, hselected', hgroup.trans hselected, ?_, ?_, heither,
    hsplice.trans heither, herrors _ (by simp)⟩
  · refine hnot.trans ?_
    simp [hall, hselected, selected]
  · refine hand.trans ?_
    simp [hall, hselected, hselected', selected]

end Catalog

end Bookshelf
