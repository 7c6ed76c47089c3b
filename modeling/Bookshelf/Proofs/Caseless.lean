import Bookshelf.Proofs.LoweredTokens
import Bookshelf.Proofs.Queries

namespace Bookshelf

/-!
# Expressions in another case

Two queries that differ in case have tokens that differ in the case of their
genres, and a vocabulary finds a genre in any case. So the parser makes the same
tree of both, or refuses both for the same reason, and only the text that an
error quotes may differ in case. Reports select the same books.
-/

namespace Expression

/-- An error with the text that it quotes in lower case. -/
def ParseError.lowercase : ParseError → ParseError
  | .unknownGenre text => .unknownGenre (Text.lowercase text)
  | .missingClosing => .missingClosing
  | .unexpectedToken text => .unexpectedToken (Text.lowercase text)
  | .unexpectedEnd => .unexpectedEnd

end Expression

/-- A literal with its text in lower case and its spelling in the vocabulary as it is. -/
def Literal.lowercase (g : Literal) : Literal :=
  ⟨Text.lowercase g.text, g.canonical⟩

namespace Expression

open ParseState

theorem eq_or_exists_genre {t u : Token Literal}
    (h : t.map Literal.lowercase = u.map Literal.lowercase) :
    t = u ∨ ∃ g g', t = .genre g ∧ u = .genre g' ∧ g.lowercase = g'.lowercase := by
  cases t <;> cases u <;>
    first
    | exact Or.inl rfl
    | cases h
    | exact Or.inr ⟨_, _, rfl, rfl, Token.genre.inj h⟩

theorem mapError_step (s : ParseState) {t u : Token Literal}
    (h : t.map Literal.lowercase = u.map Literal.lowercase) :
    (s.step t).mapError ParseError.lowercase = (s.step u).mapError ParseError.lowercase := by
  rcases eq_or_exists_genre h with rfl | ⟨g, g', rfl, rfl, hg⟩
  · rfl
  · obtain ⟨htext, hcanonical⟩ := Literal.mk.inj hg
    cases s with
    | due outer d =>
        rw [step, step, hcanonical]
        cases g'.canonical with
        | none => exact congrArg (fun text => Except.error (ParseError.unknownGenre text)) htext
        | some name => rfl
    | held outer k =>
        cases outer with
        | nil => exact congrArg (fun text => Except.error (ParseError.unexpectedToken text)) htext
        | cons d outer => rfl

theorem mapError_run (s : ParseState) {ts us : List (Token Literal)}
    (h : ts.map (Token.map Literal.lowercase) = us.map (Token.map Literal.lowercase)) :
    (s.run ts).mapError ParseError.lowercase = (s.run us).mapError ParseError.lowercase := by
  induction ts generalizing s us with
  | nil =>
      rw [List.map_eq_nil_iff.mp h.symm]
  | cons t ts ih =>
      cases us with
      | nil => cases h
      | cons u us =>
          obtain ⟨htoken, htokens⟩ := List.cons.inj h
          rw [run_cons, run_cons]
          exact mapError_bind_congr (mapError_step s htoken) fun r => ih r htokens

theorem mapError_parseTokens {ts us : List (Token Literal)}
    (h : ts.map (Token.map Literal.lowercase) = us.map (Token.map Literal.lowercase)) :
    (parseTokens ts).mapError ParseError.lowercase =
      (parseTokens us).mapError ParseError.lowercase := by
  rw [parseTokens_eq_run, parseTokens_eq_run]
  exact mapError_bind_congr (mapError_run .start h) fun _ => rfl

theorem mapError_parse? {ts us : List (Token Literal)}
    (h : ts.map (Token.map Literal.lowercase) = us.map (Token.map Literal.lowercase)) :
    (parse? ts).mapError ParseError.lowercase = (parse? us).mapError ParseError.lowercase := by
  by_cases hts : ts = []
  · subst hts
    rw [List.map_eq_nil_iff.mp h.symm]
  · have hus : us ≠ [] := by
      rintro rfl
      exact hts (List.map_eq_nil_iff.mp h)
    rw [parse?_of_ne_nil hts, parse?_of_ne_nil hus]
    exact mapError_bind_congr (mapError_parseTokens h) fun _ => rfl

end Expression

namespace Vocabulary

theorem lowercase_literal (v : Vocabulary) (name : String) :
    (v.literal name).lowercase =
      ⟨Text.lowercase name, v.name? (Text.lowercase name).toList⟩ := by
  rw [Text.toList_lowercase]
  rfl

theorem lowercase_resolveTokens (v : Vocabulary) (ts : List (Token String)) :
    (v.resolveTokens ts).map (Token.map Literal.lowercase) =
      (ts.map (Token.map Text.lowercase)).map
        (Token.map fun name => ⟨name, v.name? name.toList⟩) := by
  rw [resolveTokens, List.map_map, List.map_map]
  apply List.map_congr_left
  intro t _
  cases t with
  | genre name => exact congrArg Token.genre (v.lowercase_literal name)
  | and | or | not | opening | closing => rfl

end Vocabulary

namespace Report

open Expression

theorem search_of_mapError_parse? {ts us : List (Token Literal)}
    (h : (parse? ts).mapError ParseError.lowercase = (parse? us).mapError ParseError.lowercase)
    (books : List Book) (minimum : UInt64) :
    (search books ts minimum).ranked = (search books us minimum).ranked ∧
      (search books ts minimum).error.map ParseError.lowercase =
        (search books us minimum).error.map ParseError.lowercase := by
  rcases mapError_eq_iff.mp h with ⟨e, hts, hus⟩ | ⟨err, err', hts, hus, herr⟩
  · rw [search_of_ok hts, search_of_ok hus]
    exact ⟨rfl, rfl⟩
  · rw [search_of_error hts, search_of_error hus]
    exact ⟨rfl, congrArg some herr⟩

end Report

namespace Query

open Expression

/-- Two queries of one kind whose texts, or whose entries one by one, have the same keys. -/
inductive SameUpToCase : Query → Query → Prop
  | text {a b : String} (h : Genre.key a = Genre.key b) : SameUpToCase (.text a) (.text b)
  | entries {as bs : List String} (h : List.Forall₂ (fun a b => Genre.key a = Genre.key b) as bs) :
      SameUpToCase (.entries as) (.entries bs)

variable {q q' : Query}

theorem lowercase_eq_of_key_eq {a b : String} (h : Genre.key a = Genre.key b) :
    Text.lowercase a = Text.lowercase b :=
  congrArg String.ofList h

theorem SameUpToCase.map_tokens (h : q.SameUpToCase q') :
    q.tokens.map (Token.map Text.lowercase) = q'.tokens.map (Token.map Text.lowercase) := by
  cases h with
  | text h =>
      rw [tokens, tokens, ← Token.ofText_lowercase, ← Token.ofText_lowercase,
        lowercase_eq_of_key_eq h]
  | @entries as bs h =>
      have hmap : as.map Text.lowercase = bs.map Text.lowercase := by
        induction h with
        | nil => rfl
        | cons hkey _ ih => rw [List.map_cons, List.map_cons, lowercase_eq_of_key_eq hkey, ih]
      rw [tokens, tokens, ← Token.ofEntries_lowercase, ← Token.ofEntries_lowercase, hmap]

/-- Case changes nothing in a query but the text that an error quotes. -/
theorem results_of_sameUpToCase (h : q.SameUpToCase q') :
    (∀ v : Vocabulary,
      (q.parse v).mapError ParseError.lowercase = (q'.parse v).mapError ParseError.lowercase ∧
      (parseTokens (v.resolveTokens q.tokens)).mapError ParseError.lowercase =
        (parseTokens (v.resolveTokens q'.tokens)).mapError ParseError.lowercase ∧
      ∀ (books : List Book) (minimum : UInt64),
        let report := Report.search books (v.resolveTokens q.tokens) minimum
        let report' := Report.search books (v.resolveTokens q'.tokens) minimum
        report.ranked = report'.ranked ∧
          report.error.map ParseError.lowercase = report'.error.map ParseError.lowercase) ∧
    ∀ (c : Catalog) (minimum : UInt64),
      (q.results c minimum).ranked = (q'.results c minimum).ranked ∧
        (q.results c minimum).error.map ParseError.lowercase =
          (q'.results c minimum).error.map ParseError.lowercase := by
  have htokens : ∀ v : Vocabulary,
      (v.resolveTokens q.tokens).map (Token.map Literal.lowercase) =
        (v.resolveTokens q'.tokens).map (Token.map Literal.lowercase) := by
    intro v
    rw [v.lowercase_resolveTokens, v.lowercase_resolveTokens, h.map_tokens]
  constructor
  · intro v
    have hparse := mapError_parse? (htokens v)
    refine ⟨?_, mapError_parseTokens (htokens v), ?_⟩
    · rw [parse_eq_parse?, parse_eq_parse?]
      exact hparse
    · exact Report.search_of_mapError_parse? hparse
  · intro c minimum
    have hparse := mapError_parse? (htokens c.vocabulary)
    rw [results_eq_search, results_eq_search]
    exact Report.search_of_mapError_parse? hparse c.books minimum

def nosferatu : Book := { title := "Nosferatu", genres := ["fİlm"] }

theorem results_of_sameUpToCase_kitsch :
    let q : Query := .entries ["NOT", " \u212Aitsch", "aNd", "FİLM"]
    let q' : Query := .entries ["not", " KITSCH", "AND", "fi\u0307lm"]
    let c : Catalog := ⟨[{ title := "Emma", genres := ["Kitsch"] }, nosferatu]⟩
    q.SameUpToCase q' ∧
      q.parse c.vocabulary = .ok (some (.and (.not (.genre "Kitsch")) (.genre "fİlm"))) ∧
      q'.parse c.vocabulary = .ok (some (.and (.not (.genre "Kitsch")) (.genre "fİlm"))) ∧
      (q.results c 0).ranked = [(nosferatu, 1)] ∧ (q'.results c 0).ranked = [(nosferatu, 1)] := by
  intro q q' c
  have hcase : q.SameUpToCase q' :=
    .entries (.cons (by decide) (.cons (by decide) (.cons (by decide) (.cons (by decide) .nil))))
  obtain ⟨hparse, hresults⟩ := results_of_sameUpToCase hcase
  have hq : q.parse c.vocabulary = .ok (some (.and (.not (.genre "Kitsch")) (.genre "fİlm"))) := by
    rw [parse_eq_parse?, parse?_eq_run]
    decide +kernel
  have hranked : (q.results c 0).ranked = [(nosferatu, 1)] := by
    rw [results_of_parse_eq_ok hq]
    exact Report.rank_of_pairwise (by decide +kernel) (List.pairwise_singleton _ _)
  have hq' := (hparse c.vocabulary).1
  rw [hq] at hq'
  refine ⟨hcase, hq, ?_, hranked, (hresults c 0).1.symm.trans hranked⟩
  rcases mapError_eq_iff.mp hq'.symm with ⟨e, he, hok⟩ | ⟨err, err', -, herr, -⟩
  · rw [he, hok]
  · cases herr

end Query

end Bookshelf
