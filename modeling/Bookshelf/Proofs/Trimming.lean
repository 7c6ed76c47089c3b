import Bookshelf.Proofs.ParserMachine
import Bookshelf.Proofs.Ranking
import Bookshelf.Proofs.SessionHistory
import Bookshelf.Proofs.TokenScan
import Mathlib.Data.List.TakeWhile

namespace Bookshelf

/-!
# Trimmed expressions

A session trims the expression that it gets. In front of a text, blanks mean
nothing. Behind it they mean nothing either, unless the last word names an
operator: right before a blank beyond ASCII it is read as a genre, and without
that blank as the operator. These are the only texts whose tokens change.
-/

namespace Text

/-- The blanks behind the trimmed text. -/
def trailingBlanks (cs : List Char) : List Char :=
  ((trimStart cs).reverse.takeWhile isBlank).reverse

theorem trimStart_eq_append (cs : List Char) : trimStart cs = trim cs ++ trailingBlanks cs := by
  rw [trim, trimEnd, trailingBlanks, ← List.reverse_append, List.takeWhile_append_dropWhile,
    List.reverse_reverse]

theorem isBlank_of_mem_trailingBlanks {c : Char} {cs : List Char} (h : c ∈ trailingBlanks cs) :
    isBlank c = true :=
  List.mem_takeWhile_imp (List.mem_reverse.mp h)

end Text

namespace Token

open Text

variable {cs : List Char}

theorem tokensBefore_trimStart (next : Option Char) (cs : List Char) :
    tokensBefore next (trimStart cs) = tokensBefore next cs := by
  have hgap : ∀ c ∈ cs.takeWhile isBlank, isBlank c = true := fun c hc => List.mem_takeWhile_imp hc
  have h := tokensBefore_append_of_isBlank hgap next (trimStart cs)
  rw [trimStart, List.takeWhile_append_dropWhile] at h
  exact h.symm

theorem tokensBefore_append_blanks {gap : List Char} (hgap : ∀ c ∈ gap, isBlank c = true)
    (cs : List Char) : tokensBefore none (cs ++ gap) = tokensBefore gap.head? cs := by
  cases gap with
  | nil => rw [List.append_nil, List.head?_nil]
  | cons c gap =>
      obtain ⟨hc, hgap⟩ := List.forall_mem_cons.mp hgap
      have hrest : tokensBefore none gap = [] := by
        simpa using tokensBefore_append_of_isBlank hgap none []
      rw [tokensBefore_append (separates_of_isBlank hc), punctuation_of_isBlank hc, hrest,
        List.append_nil, List.append_nil, List.head?_cons]

/-- A text has the tokens of the trimmed text before the blank that follows it. -/
theorem ofText_eq_tokensBefore_trim (text : String) :
    ofText text = tokensBefore (trailingBlanks text.toList).head? (trim text.toList) := by
  rw [ofText_eq_tokensBefore, ← tokensBefore_trimStart, trimStart_eq_append,
    tokensBefore_append_blanks fun _ => isBlank_of_mem_trailingBlanks]

theorem ofText_trimmed (text : String) :
    ofText (trimmed text) = tokensBefore none (trim text.toList) := by
  rw [ofText_eq_tokensBefore, toList_trimmed]

/-- The last word names an operator, and a blank beyond ASCII is right behind it. -/
def hidesOperator (cs : List Char) : Bool :=
  (operator? (lastWord (trim cs))).isSome && (trailingBlanks cs).head?.any isWideBlank

theorem ofText_trimmed_of_not_hidesOperator {text : String}
    (h : hidesOperator text.toList = false) : ofText (trimmed text) = ofText text := by
  rw [hidesOperator, Bool.and_eq_false_iff, Option.isSome_eq_false_iff,
    Option.isNone_iff_eq_none] at h
  rw [ofText_trimmed, ofText_eq_tokensBefore_trim, tokensBefore_eq_tokensBefore_none h.symm]

/-- Where trimming uncovers an operator, only the last token changes. -/
theorem exists_of_hidesOperator {text : String} (h : hidesOperator text.toList = true) :
    ∃ ts word op, operator? word = some op ∧
      ofText text = ts ++ [.genre (String.ofList word)] ∧ ofText (trimmed text) = ts ++ [op] := by
  rw [hidesOperator, Bool.and_eq_true, Option.isSome_iff_exists, Option.any_eq_true] at h
  obtain ⟨⟨op, hop⟩, c, hnext, hwide⟩ := h
  obtain ⟨ts, htrimmed, hbefore⟩ := exists_tokensBefore_of_operator? hop
  refine ⟨ts, lastWord (trim text.toList), op, hop, ?_, ?_⟩
  · rw [ofText_eq_tokensBefore_trim, hnext, hbefore c hwide]
  · rw [ofText_trimmed, htrimmed]

theorem ofText_trimmed_eq_iff {text : String} :
    ofText (trimmed text) = ofText text ↔ hidesOperator text.toList = false := by
  constructor
  · intro heq
    by_contra hhides
    obtain ⟨ts, word, op, hop, htext, htrimmed⟩ :=
      exists_of_hidesOperator (Bool.eq_true_of_not_eq_false hhides)
    rw [htext, htrimmed] at heq
    exact ne_genre_of_operator? hop _ (by simpa using heq)
  · exact ofText_trimmed_of_not_hidesOperator

theorem map_injective {α β : Type} {f : α → β} (hf : Function.Injective f) :
    Function.Injective (Token.map f) := by
  intro s t h
  cases s <;> cases t <;> first | rfl | cases h | exact congrArg genre (hf (genre.inj h))

end Token

namespace Vocabulary

theorem resolveTokens_injective (v : Vocabulary) : Function.Injective v.resolveTokens := by
  have hliteral : Function.Injective v.literal := fun _ _ h => congrArg Literal.text h
  exact List.map_injective_iff.mpr (Token.map_injective hliteral)

theorem tokenize_trimmed_eq_iff (v : Vocabulary) (text : String) :
    v.tokenize (Text.trimmed text) = v.tokenize text ↔
      Token.hidesOperator text.toList = false := by
  rw [tokenize, tokenize, v.resolveTokens_injective.eq_iff, Token.ofText_trimmed_eq_iff]

end Vocabulary

namespace Session

open Text Token

theorem report_view (s : Session) : s.view.report = s.query.results s.catalog s.minimum :=
  s.report_eq_results

theorem report_expression_minimumRatings (s : Session) (text ratings : String) :
    ((s.submit (.expression text)).submit (.minimumRatings ratings)).view.report =
      s.catalog.filter (trimmed text) (Count.threshold ratings) := by
  simp only [report_view, submit, apply, Query.results]

theorem report_minimumRatings_expression (s : Session) (text ratings : String) :
    ((s.submit (.minimumRatings ratings)).submit (.expression text)).view.report =
      s.catalog.filter (trimmed text) (Count.threshold ratings) := by
  simp only [report_view, submit, apply, Query.results]

/-- A session filters by the trimmed expression. That is the same as filtering
by the expression itself exactly where trimming uncovers no operator. -/
theorem report_submit_expression (s : Session) (text ratings : String) :
    let after := (s.submit (.expression text)).submit (.minimumRatings ratings)
    let swapped := (s.submit (.minimumRatings ratings)).submit (.expression text)
    let minimum := Count.threshold ratings
    (after.view.report = s.catalog.filter (trimmed text) minimum ∧
      swapped.view.report = after.view.report) ∧
    (∀ v : Vocabulary, v.tokenize (trimmed text) = v.tokenize text ↔
      hidesOperator text.toList = false) ∧
    (hidesOperator text.toList = false → after.view.report = s.catalog.filter text minimum) ∧
    (hidesOperator text.toList = true → ∃ ts word op, operator? word = some op ∧
      ofText text = ts ++ [.genre (String.ofList word)] ∧ ofText (trimmed text) = ts ++ [op]) := by
  intro after swapped minimum
  have hafter : after.view.report = s.catalog.filter (trimmed text) minimum :=
    s.report_expression_minimumRatings text ratings
  have hswapped : swapped.view.report = s.catalog.filter (trimmed text) minimum :=
    s.report_minimumRatings_expression text ratings
  refine ⟨⟨hafter, hswapped.trans hafter.symm⟩, fun v => v.tokenize_trimmed_eq_iff text, ?_,
    exists_of_hidesOperator⟩
  intro hhides
  have htokens := (s.catalog.vocabulary.tokenize_trimmed_eq_iff text).mpr hhides
  rw [hafter, Catalog.filter, Catalog.filter, Report.filter, Report.filter, htokens]

/-- The word *and* as a genre, with a no-break space behind it. -/
def hiddenAnd : String := "and\u00a0"

theorem report_submit_hiddenAnd :
    let s := start ⟨[{ title := "Both", genres := ["and"] }, { title := "Neither" }]⟩ 10
    let after := (s.submit (.expression hiddenAnd)).submit (.minimumRatings "0")
    hidesOperator hiddenAnd.toList = true ∧
      s.catalog.vocabulary.tokenize (trimmed hiddenAnd) ≠ s.catalog.vocabulary.tokenize hiddenAnd ∧
      after.view.report.error = some .unexpectedEnd ∧
      (s.catalog.filter hiddenAnd (Count.threshold "0")).error = none := by
  intro s after
  have hreport : after.view.report =
      s.catalog.filter (trimmed hiddenAnd) (Count.threshold "0") :=
    s.report_expression_minimumRatings hiddenAnd "0"
  have hoperator : Expression.parse? (s.catalog.vocabulary.tokenize (trimmed hiddenAnd)) =
      .error .unexpectedEnd := by
    rw [Expression.parse?_eq_run]
    decide
  have hgenre : Expression.parse? (s.catalog.vocabulary.tokenize hiddenAnd) =
      .ok (some (.genre "and")) := by
    rw [Expression.parse?_eq_run]
    decide
  refine ⟨by decide, by decide, ?_, ?_⟩
  · rw [hreport]
    exact congrArg Report.error (Report.search_of_error hoperator _ _)
  · exact congrArg Report.error (Report.search_of_ok hgenre _ _)

end Session

end Bookshelf
