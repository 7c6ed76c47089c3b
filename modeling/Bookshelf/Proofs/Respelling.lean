import Bookshelf.Proofs.GrammarParser
import Bookshelf.Proofs.Records

namespace Bookshelf

/-!
# Expressions in another spelling

The parser does not look at the spelling of a known genre. If a function
respells the genres of the tokens, the tree is respelled by it and an error
stays as it is. Two vocabularies differ only in their spelling of a text that
both know, so a token list that one of them can parse has the same tree in the
other one, up to the spelling of its genres.
-/

def Literal.respell (f : String → String) (g : Literal) : Literal :=
  ⟨g.text, g.canonical.map f⟩

def Token.literal? : Token Literal → Option Literal
  | .genre g => some g
  | _ => none

namespace Expression

def respell (f : String → String) : Expression → Expression
  | .genre name => .genre (f name)
  | .not e => .not (e.respell f)
  | .and l r => .and (l.respell f) (r.respell f)
  | .or l r => .or (l.respell f) (r.respell f)

def names : Expression → List String
  | .genre name => [name]
  | .not e => e.names
  | .and l r => l.names ++ r.names
  | .or l r => l.names ++ r.names

/-- What a book makes of an expression depends on what it makes of its genres. -/
theorem holds_respell {f : String → String} {gs gs' : List String} {e : Expression}
    (h : ∀ n ∈ e.names, gs'.any (Genre.same · (f n)) = gs.any (Genre.same · n)) :
    (e.respell f).holds gs' = e.holds gs := by
  induction e with
  | genre name => exact h name (by simp [names])
  | not e ih => rw [respell, holds, holds, ih h]
  | and l r ihl ihr | or l r ihl ihr =>
      have hl := ihl fun n hn => h n (List.mem_append_left r.names hn)
      have hr := ihr fun n hn => h n (List.mem_append_right l.names hn)
      rw [respell, holds, holds, hl, hr]

/-! ## The parser -/

variable (f : String → String)

def Due.respell (d : Due) : Due :=
  ⟨d.alternatives.map (Expression.respell f), d.factors.map (Expression.respell f), d.negated⟩

def Held.respell (h : Held) : Held :=
  ⟨h.alternatives.map (Expression.respell f), h.factors.respell f⟩

def ParseState.respell : ParseState → ParseState
  | .due outer d => .due (outer.map (Due.respell f)) (d.respell f)
  | .held outer h => .held (outer.map (Due.respell f)) (h.respell f)

theorem Due.take_respell (d : Due) (e : Expression) :
    (d.respell f).take (e.respell f) = (d.take e).respell f := by
  rcases d with ⟨alternatives, factors, negated⟩
  cases factors <;> cases negated <;> rfl

theorem Held.tree_respell (h : Held) : (h.respell f).tree = h.tree.respell f := by
  rcases h with ⟨alternatives, factors⟩
  cases alternatives <;> rfl

namespace ParseState

theorem step_respell (s : ParseState) (t : Token Literal) :
    (s.respell f).step (t.map (Literal.respell f)) = (s.step t).map (respell f) := by
  cases s with
  | due outer d =>
      cases t with
      | genre g =>
          cases hg : g.canonical with
          | none => simp [respell, Token.map, Literal.respell, step, hg, Except.map]
          | some name =>
              have htake := d.take_respell f (.genre name)
              rw [Expression.respell] at htake
              simp [respell, Token.map, Literal.respell, step, hg, Except.map, htake]
      | not => cases hn : d.negated <;> simp [respell, Token.map, step, Due.respell, hn, Except.map]
      | opening | closing | and | or => rfl
  | held outer h =>
      have htree := h.tree_respell f
      cases t with
      | and => rfl
      | or => simp [respell, Token.map, step, htree, Except.map, Due.respell]
      | closing =>
          cases outer with
          | nil => rfl
          | cons d outer =>
              simp [respell, Token.map, step, htree, Except.map, d.take_respell f]
      | genre g | opening | not => cases outer <;> rfl

theorem run_respell (s : ParseState) (ts : List (Token Literal)) :
    (s.respell f).run (ts.map (Token.map (Literal.respell f))) = (s.run ts).map (respell f) := by
  induction ts generalizing s with
  | nil => rfl
  | cons t ts ih =>
      rw [List.map_cons, run_cons, run_cons, step_respell]
      cases s.step t with
      | error e => rfl
      | ok u => exact ih u

theorem finish_respell (s : ParseState) :
    (s.respell f).finish = s.finish.map (Expression.respell f) := by
  match s with
  | .due outer d => rfl
  | .held [] h => exact congrArg Except.ok (h.tree_respell f)
  | .held (_ :: _) h => rfl

end ParseState

theorem parseTokens_respell (ts : List (Token Literal)) :
    parseTokens (ts.map (Token.map (Literal.respell f))) =
      (parseTokens ts).map (Expression.respell f) := by
  have hrun := ParseState.run_respell f .start ts
  have hstart : ParseState.start.respell f = .start := rfl
  rw [hstart] at hrun
  rw [parseTokens_eq_run, parseTokens_eq_run, hrun]
  cases ParseState.start.run ts with
  | error e => rfl
  | ok s => exact ParseState.finish_respell f s

theorem parse?_respell (ts : List (Token Literal)) :
    parse? (ts.map (Token.map (Literal.respell f))) =
      (parse? ts).map (Option.map (Expression.respell f)) := by
  by_cases hts : ts = []
  · subst hts
    rfl
  · have hmap : ts.map (Token.map (Literal.respell f)) ≠ [] := by simpa using hts
    rw [parse?_of_ne_nil hmap, parse?_of_ne_nil hts, parseTokens_respell]
    cases parseTokens ts <;> rfl

theorem names_foldl {op : Expression → Expression → Expression}
    (hop : ∀ l r, (op l r).names = l.names ++ r.names) (t : Expression) (ts : List Expression) :
    (ts.foldl op t).names = t.names ++ ts.flatMap names := by
  induction ts generalizing t with
  | nil => simp
  | cons u ts ih => rw [List.foldl_cons, ih, hop, List.append_assoc, List.flatMap_cons]

end Expression

namespace Grammar

open Expression

/-- The spellings of the literals among tokens. -/
def canonicals (ts : List (Token Literal)) : List (Option String) :=
  (ts.filterMap Token.literal?).map Literal.canonical

@[simp] theorem canonicals_append (xs ys : List (Token Literal)) :
    canonicals (xs ++ ys) = canonicals xs ++ canonicals ys := by
  simp [canonicals]

mutual

theorem OrExpr.canonicals_tokens : ∀ e : OrExpr, canonicals e.tokens = e.tree.names.map some
  | .chain first more => by
      rw [OrExpr.tokens, canonicals_append, first.canonicals_tokens,
        OrExpr.canonicals_moreTokens more, OrExpr.tree, names_foldl fun _ _ => rfl,
        List.map_append]

theorem OrExpr.canonicals_moreTokens : ∀ es : List AndExpr,
    canonicals (OrExpr.moreTokens es) = ((OrExpr.trees es).flatMap names).map some
  | [] => rfl
  | e :: es => by
      have hor : canonicals (.or :: (e.tokens ++ OrExpr.moreTokens es)) =
          canonicals (e.tokens ++ OrExpr.moreTokens es) := rfl
      rw [OrExpr.moreTokens, hor, canonicals_append, e.canonicals_tokens,
        OrExpr.canonicals_moreTokens es, OrExpr.trees, List.flatMap_cons, List.map_append]

theorem AndExpr.canonicals_tokens : ∀ e : AndExpr, canonicals e.tokens = e.tree.names.map some
  | .chain first more => by
      rw [AndExpr.tokens, canonicals_append, first.canonicals_tokens,
        AndExpr.canonicals_moreTokens more, AndExpr.tree, names_foldl fun _ _ => rfl,
        List.map_append]

theorem AndExpr.canonicals_moreTokens : ∀ es : List NotExpr,
    canonicals (AndExpr.moreTokens es) = ((AndExpr.trees es).flatMap names).map some
  | [] => rfl
  | e :: es => by
      have hand : canonicals (.and :: (e.tokens ++ AndExpr.moreTokens es)) =
          canonicals (e.tokens ++ AndExpr.moreTokens es) := rfl
      rw [AndExpr.moreTokens, hand, canonicals_append, e.canonicals_tokens,
        AndExpr.canonicals_moreTokens es, AndExpr.trees, List.flatMap_cons, List.map_append]

theorem NotExpr.canonicals_tokens : ∀ n : NotExpr, canonicals n.tokens = n.tree.names.map some
  | .not p => p.canonicals_tokens
  | .bare p => p.canonicals_tokens

theorem Primary.canonicals_tokens : ∀ p : Primary, canonicals p.tokens = p.tree.names.map some
  | .group e => by
      have hgroup : canonicals (.opening :: (e.tokens ++ [.closing])) =
          canonicals (e.tokens ++ [.closing]) := rfl
      have hclosing : canonicals [.closing] = [] := rfl
      rw [Primary.tokens, hgroup, canonicals_append, hclosing, List.append_nil,
        e.canonicals_tokens, Primary.tree]
  | .genre literal name known => by
      have hgenre : canonicals [.genre literal] = [literal.canonical] := rfl
      rw [Primary.tokens, hgenre, known, Primary.tree, names, List.map_singleton]

end

/-- A parsed tree has the genres of its tokens, in order and all known. -/
theorem canonicals_of_parseTokens {ts : List (Token Literal)} {t : Expression}
    (h : parseTokens ts = .ok t) : canonicals ts = t.names.map some := by
  obtain ⟨d, rfl, rfl⟩ := derives_of_parseTokens h
  exact d.canonicals_tokens

theorem canonicals_of_parse? {ts : List (Token Literal)} {e : Option Expression}
    (h : parse? ts = .ok e) : canonicals ts = ((e.map names).getD []).map some := by
  cases ts with
  | nil =>
      obtain rfl : none = e := Except.ok.inj h
      rfl
  | cons t ts =>
      rw [parse?_of_ne_nil (List.cons_ne_nil t ts)] at h
      cases hparse : parseTokens (t :: ts) with
      | error err => simp [hparse, Except.map] at h
      | ok u =>
          obtain rfl : some u = e := by simpa [hparse, Except.map] using h
          exact canonicals_of_parseTokens hparse

end Grammar

namespace Vocabulary

open Expression

variable {v w : Vocabulary} {ts : List (Token String)} {e : Option Expression}

theorem mem_canonicals {x : String} (hx : .genre x ∈ ts) :
    v.resolve x ∈ Grammar.canonicals (v.resolveTokens ts) := by
  refine List.mem_map.mpr ⟨v.literal x, ?_, rfl⟩
  refine List.mem_filterMap.mpr ⟨.genre (v.literal x), ?_, rfl⟩
  exact List.mem_map.mpr ⟨.genre x, hx, rfl⟩

theorem exists_of_mem_canonicals {o : Option String}
    (ho : o ∈ Grammar.canonicals (v.resolveTokens ts)) : ∃ x, v.resolve x = o := by
  obtain ⟨g, hg, rfl⟩ := List.mem_map.mp ho
  obtain ⟨t, ht, hliteral⟩ := List.mem_filterMap.mp hg
  obtain ⟨s, -, rfl⟩ := List.mem_map.mp ht
  cases s with
  | genre x =>
      obtain rfl : v.literal x = g := Option.some.inj hliteral
      exact ⟨x, rfl⟩
  | and | or | not | opening | closing => cases hliteral

/-- What a vocabulary can parse has only genres that it knows. -/
theorem contains_of_parse? (h : parse? (v.resolveTokens ts) = .ok e) {x : String}
    (hx : .genre x ∈ ts) : v.contains x := by
  have hmem := mem_canonicals (v := v) hx
  rw [Grammar.canonicals_of_parse? h] at hmem
  obtain ⟨n, -, hn⟩ := List.mem_map.mp hmem
  rw [contains, ← hn]
  rfl

theorem exists_resolve_of_mem_names {t : Expression}
    (h : parse? (v.resolveTokens ts) = .ok (some t)) {n : String} (hn : n ∈ t.names) :
    ∃ x, v.resolve x = some n := by
  have hmem : some n ∈ Grammar.canonicals (v.resolveTokens ts) := by
    rw [Grammar.canonicals_of_parse? h]
    exact List.mem_map.mpr ⟨n, hn, rfl⟩
  exact exists_of_mem_canonicals hmem

/-! ## Two vocabularies -/

/-- The spelling that a vocabulary gives to a name, if it knows the name. -/
def respelling (w : Vocabulary) (name : String) : String :=
  (w.resolve name).getD name

theorem key_of_resolve {name n : String} (h : v.resolve name = some n) :
    Genre.key n = Genre.key name :=
  key_of_name? h

theorem key_respelling (w : Vocabulary) (name : String) :
    Genre.key (w.respelling name) = Genre.key name := by
  cases h : w.resolve name with
  | none => simp [respelling, h]
  | some n => simp [respelling, h, key_of_resolve h]

theorem respell_literal {x : String} (h : v.contains x = w.contains x) :
    (v.literal x).respell w.respelling = w.literal x := by
  cases hv : v.resolve x with
  | none =>
      have hw : w.resolve x = none := by simpa [contains, hv] using h.symm
      simp [literal, Literal.respell, hv, hw]
  | some n =>
      obtain ⟨m, hw⟩ : ∃ m, w.resolve x = some m := by
        simpa [contains, hv, Option.isSome_iff_exists] using h.symm
      have hn : w.resolve n = some m := by
        rw [resolve_eq_name?, key_of_resolve hv, ← resolve_eq_name?, hw]
      simp [literal, Literal.respell, hv, hw, respelling, hn]

theorem respell_resolveTokens (h : ∀ x, .genre x ∈ ts → v.contains x = w.contains x) :
    (v.resolveTokens ts).map (Token.map (Literal.respell w.respelling)) = w.resolveTokens ts := by
  rw [resolveTokens, resolveTokens, List.map_map]
  apply List.map_congr_left
  intro t ht
  cases t with
  | genre x => exact congrArg Token.genre (respell_literal (h x ht))
  | and | or | not | opening | closing => rfl

theorem resolveTokens_congr (h : ∀ x, .genre x ∈ ts → v.resolve x = w.resolve x) :
    v.resolveTokens ts = w.resolveTokens ts := by
  apply List.map_congr_left
  intro t ht
  cases t with
  | genre x => simp [Token.map, literal, h x ht]
  | and | or | not | opening | closing => rfl

/-- Vocabularies that know the same texts parse alike. -/
theorem parse?_resolveTokens_congr (h : ∀ x, v.contains x = w.contains x)
    (ts : List (Token String)) :
    parse? (w.resolveTokens ts) =
      (parse? (v.resolveTokens ts)).map (Option.map (respell w.respelling)) := by
  rw [← parse?_respell, respell_resolveTokens fun x _ => h x]

/-- A larger vocabulary still parses what a smaller one can. -/
theorem parse?_resolveTokens_of_subset (h : ∀ x, v.contains x → w.contains x)
    (hv : parse? (v.resolveTokens ts) = .ok e) :
    parse? (w.resolveTokens ts) = .ok (e.map (respell w.respelling)) := by
  have hcontains : ∀ x, .genre x ∈ ts → v.contains x = w.contains x := by
    intro x hx
    have hvx := contains_of_parse? hv hx
    rw [hvx, h x hvx]
  rw [← respell_resolveTokens hcontains, parse?_respell, hv]
  rfl

end Vocabulary

end Bookshelf
