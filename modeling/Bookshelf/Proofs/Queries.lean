import Bookshelf.Proofs.Ranking
import Bookshelf.Proofs.Respelling
import Bookshelf.Proofs.SessionHistory

namespace Bookshelf

/-!
# What a query selects

A query is a text or a list of entries. Both come down to tokens, which a
vocabulary resolves and the parser makes into a condition, unless they are
blank or in error. The books that a report ranks are those that meet the
condition. The spelling of the condition does not matter for that.
-/

namespace Query

/-- The tokens of a query, before a vocabulary resolves them. -/
def tokens : Query → List (Token String)
  | .text expression => Token.ofText expression
  | .entries words => Token.ofEntries words

def parse (q : Query) (v : Vocabulary) : Except Expression.ParseError (Option Expression) :=
  match q with
  | .text expression => v.parse expression
  | .entries words => Expression.parse? (v.tokenizeList words)

theorem parse_eq_parse? (q : Query) (v : Vocabulary) :
    q.parse v = Expression.parse? (v.resolveTokens q.tokens) := by
  cases q <;> rfl

theorem results_eq_search (q : Query) (c : Catalog) (minimum : UInt64) :
    q.results c minimum =
      Report.search c.books (c.vocabulary.resolveTokens q.tokens) minimum := by
  cases q <;> rfl

end Query

namespace Report

open Expression

theorem passes_respell {f : String → String} (hf : ∀ n, Genre.key (f n) = Genre.key n)
    (e : Option Expression) (minimum : UInt64) :
    passes (e.map (respell f)) minimum = passes e minimum := by
  funext b
  cases e with
  | none => rfl
  | some t =>
      have hholds : (t.respell f).holds b.genres = t.holds b.genres := by
        apply holds_respell
        intro n _
        simp [Genre.same, hf]
      simp [passes, satisfies, hholds]

theorem ratingCount_of_passes {e : Option Expression} {minimum : UInt64} {b : Book}
    (h : passes e minimum b) : passes none minimum b := by
  simp only [passes, Bool.and_eq_true] at h
  simpa [passes, satisfies] using h.2

end Report

namespace Query

open Expression Report

variable {q : Query} {c : Catalog} {e : Option Expression} {minimum : UInt64}

def condition (q : Query) (v : Vocabulary) : Option Expression :=
  (q.parse v).toOption.join

theorem condition_of_parse_eq_ok {v : Vocabulary} (h : q.parse v = .ok e) : q.condition v = e := by
  simp [condition, h, Except.toOption]

theorem results_of_parse_eq_ok (h : q.parse c.vocabulary = .ok e) (minimum : UInt64) :
    q.results c minimum = ⟨rank c.books (passes e minimum), none⟩ := by
  rw [parse_eq_parse?] at h
  rw [results_eq_search, search_of_ok h]

theorem results_of_parse_eq_error {err : ParseError} (h : q.parse c.vocabulary = .error err)
    (minimum : UInt64) : q.results c minimum = ⟨rank c.books (passes none minimum), some err⟩ := by
  rw [parse_eq_parse?] at h
  rw [results_eq_search, search_of_error h]

theorem ranked_results (q : Query) (c : Catalog) (minimum : UInt64) :
    (q.results c minimum).ranked = rank c.books (passes (q.condition c.vocabulary) minimum) := by
  rw [results_eq_search, condition, parse_eq_parse?]
  cases h : parse? (c.vocabulary.resolveTokens q.tokens) with
  | ok e => simp [search_of_ok h, Except.toOption]
  | error err => simp [search_of_error h, Except.toOption]

theorem size_results_le (q : Query) (c : Catalog) (minimum : UInt64) :
    (q.results c minimum).size ≤ c.size := by
  rw [Report.size, ranked_results, Report.length_rank]
  exact List.countP_le_length

theorem error_results_eq_none_iff :
    (q.results c minimum).error = none ↔ ∃ e, q.parse c.vocabulary = .ok e := by
  rw [results_eq_search, parse_eq_parse?]
  cases h : parse? (c.vocabulary.resolveTokens q.tokens) with
  | ok e => simp [search_of_ok h]
  | error err => simp [search_of_error h]

end Query

end Bookshelf
