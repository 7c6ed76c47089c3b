import Bookshelf.Expression.Parser
import Mathlib.Data.Set.Subsingleton

namespace Bookshelf

/-!
# The grammar of expressions

    OrExpr  := AndExpr ('OR' AndExpr)*
    AndExpr := NotExpr ('AND' NotExpr)*
    NotExpr := 'NOT' Primary | Primary
    Primary := '(' OrExpr ')' | genre

A derivation is a value of the type that is named like its nonterminal. It
spans a list of tokens and has an expression as its tree: chains associate to
the left, and parentheses leave no node. No two derivations span the same
tokens.
-/

namespace Grammar

mutual

inductive OrExpr where
  | chain (first : AndExpr) (more : List AndExpr)

inductive AndExpr where
  | chain (first : NotExpr) (more : List NotExpr)

inductive NotExpr where
  | not (operand : Primary)
  | bare (operand : Primary)

/-- A genre is derived only if the vocabulary knows it. -/
inductive Primary where
  | group (inner : OrExpr)
  | genre (literal : Literal) (name : String) (known : literal.canonical = some name)

end

mutual

/-- The tokens that a derivation spans. -/
def OrExpr.tokens : OrExpr → List (Token Literal)
  | .chain first more => first.tokens ++ OrExpr.moreTokens more

def OrExpr.moreTokens : List AndExpr → List (Token Literal)
  | [] => []
  | e :: es => .or :: (e.tokens ++ OrExpr.moreTokens es)

def AndExpr.tokens : AndExpr → List (Token Literal)
  | .chain first more => first.tokens ++ AndExpr.moreTokens more

def AndExpr.moreTokens : List NotExpr → List (Token Literal)
  | [] => []
  | e :: es => .and :: (e.tokens ++ AndExpr.moreTokens es)

def NotExpr.tokens : NotExpr → List (Token Literal)
  | .not p => .not :: p.tokens
  | .bare p => p.tokens

def Primary.tokens : Primary → List (Token Literal)
  | .group e => .opening :: (e.tokens ++ [.closing])
  | .genre literal _ _ => [.genre literal]

end

mutual

def OrExpr.tree : OrExpr → Expression
  | .chain first more => (OrExpr.trees more).foldl .or first.tree

def OrExpr.trees : List AndExpr → List Expression
  | [] => []
  | e :: es => e.tree :: OrExpr.trees es

def AndExpr.tree : AndExpr → Expression
  | .chain first more => (AndExpr.trees more).foldl .and first.tree

def AndExpr.trees : List NotExpr → List Expression
  | [] => []
  | e :: es => e.tree :: AndExpr.trees es

def NotExpr.tree : NotExpr → Expression
  | .not p => .not p.tree
  | .bare p => p.tree

def Primary.tree : Primary → Expression
  | .group e => e.tree
  | .genre _ name _ => .genre name

end

attribute [simp] OrExpr.tokens OrExpr.moreTokens AndExpr.tokens AndExpr.moreTokens NotExpr.tokens
  Primary.tokens OrExpr.tree OrExpr.trees AndExpr.tree AndExpr.trees NotExpr.tree Primary.tree

/-- The tree of a derivation of the whole of `ts` is `t`. -/
def Derives (ts : List (Token Literal)) (t : Expression) : Prop :=
  ∃ d : OrExpr, d.tokens = ts ∧ d.tree = t

theorem OrExpr.moreTokens_eq_flatMap (es : List AndExpr) :
    OrExpr.moreTokens es = es.flatMap fun e => .or :: e.tokens := by
  induction es with
  | nil => rfl
  | cons e es ih => simp [ih]

theorem OrExpr.trees_eq_map (es : List AndExpr) :
    OrExpr.trees es = es.map AndExpr.tree := by
  induction es with
  | nil => rfl
  | cons e es ih => simp [ih]

theorem AndExpr.moreTokens_eq_flatMap (es : List NotExpr) :
    AndExpr.moreTokens es = es.flatMap fun e => .and :: e.tokens := by
  induction es with
  | nil => rfl
  | cons e es ih => simp [ih]

theorem AndExpr.trees_eq_map (es : List NotExpr) :
    AndExpr.trees es = es.map NotExpr.tree := by
  induction es with
  | nil => rfl
  | cons e es ih => simp [ih]

/-! ## Unambiguity

A derivation in front of other tokens ends where those tokens start, as long as
they cannot continue one of its chains. -/

def StopsAnd (r : List (Token Literal)) : Prop :=
  r.head? ≠ some .and

/-- These tokens continue no chain. -/
def Stops (r : List (Token Literal)) : Prop :=
  r.head? ≠ some .or ∧ StopsAnd r

theorem stops_nil : Stops [] := by simp [Stops, StopsAnd]

theorem stops_closing (r : List (Token Literal)) : Stops (.closing :: r) := by
  simp [Stops, StopsAnd]

theorem stopsAnd_moreTokens (es : List AndExpr) {r : List (Token Literal)} (hr : Stops r) :
    StopsAnd (OrExpr.moreTokens es ++ r) := by
  cases es with
  | nil => simpa using hr.2
  | cons e es => simp [StopsAnd]

theorem Primary.not_cons_ne_tokens (p : Primary) (xs ys : List (Token Literal)) :
    .not :: xs ≠ p.tokens ++ ys := by
  cases p <;> simp

mutual

theorem OrExpr.tokens_append_inj : ∀ (e e' : OrExpr) {r r' : List (Token Literal)},
    Stops r → Stops r' → e.tokens ++ r = e'.tokens ++ r' → e = e' ∧ r = r'
  | .chain a as, .chain b bs, r, r', hr, hr', h => by
      simp only [OrExpr.tokens, List.append_assoc] at h
      obtain ⟨rfl, hmore⟩ := AndExpr.tokens_append_inj a b
        (stopsAnd_moreTokens as hr) (stopsAnd_moreTokens bs hr') h
      obtain ⟨rfl, rfl⟩ := OrExpr.moreTokens_append_inj as bs hr hr' hmore
      exact ⟨rfl, rfl⟩

theorem OrExpr.moreTokens_append_inj :
    ∀ (es es' : List AndExpr) {r r' : List (Token Literal)}, Stops r → Stops r' →
      OrExpr.moreTokens es ++ r = OrExpr.moreTokens es' ++ r' → es = es' ∧ r = r'
  | [], [], _, _, _, _, h => ⟨rfl, h⟩
  | [], b :: bs, r, _, hr, _, h => by
      have hr' : r = .or :: (b.tokens ++ OrExpr.moreTokens bs ++ _) := h
      simp [hr', Stops] at hr
  | a :: as, [], _, r', _, hr', h => by
      have hr : r' = .or :: (a.tokens ++ OrExpr.moreTokens as ++ _) := h.symm
      simp [hr, Stops] at hr'
  | a :: as, b :: bs, r, r', hr, hr', h => by
      simp only [OrExpr.moreTokens, List.cons_append, List.append_assoc, List.cons.injEq,
        true_and] at h
      obtain ⟨rfl, hmore⟩ := AndExpr.tokens_append_inj a b
        (stopsAnd_moreTokens as hr) (stopsAnd_moreTokens bs hr') h
      obtain ⟨rfl, rfl⟩ := OrExpr.moreTokens_append_inj as bs hr hr' hmore
      exact ⟨rfl, rfl⟩

theorem AndExpr.tokens_append_inj : ∀ (e e' : AndExpr) {r r' : List (Token Literal)},
    StopsAnd r → StopsAnd r' → e.tokens ++ r = e'.tokens ++ r' → e = e' ∧ r = r'
  | .chain a as, .chain b bs, r, r', hr, hr', h => by
      simp only [AndExpr.tokens, List.append_assoc] at h
      obtain ⟨rfl, hmore⟩ := NotExpr.tokens_append_inj a b h
      obtain ⟨rfl, rfl⟩ := AndExpr.moreTokens_append_inj as bs hr hr' hmore
      exact ⟨rfl, rfl⟩

theorem AndExpr.moreTokens_append_inj :
    ∀ (es es' : List NotExpr) {r r' : List (Token Literal)}, StopsAnd r → StopsAnd r' →
      AndExpr.moreTokens es ++ r = AndExpr.moreTokens es' ++ r' → es = es' ∧ r = r'
  | [], [], _, _, _, _, h => ⟨rfl, h⟩
  | [], b :: bs, r, _, hr, _, h => by
      have hr' : r = .and :: (b.tokens ++ AndExpr.moreTokens bs ++ _) := h
      simp [hr', StopsAnd] at hr
  | a :: as, [], _, r', _, hr', h => by
      have hr : r' = .and :: (a.tokens ++ AndExpr.moreTokens as ++ _) := h.symm
      simp [hr, StopsAnd] at hr'
  | a :: as, b :: bs, r, r', hr, hr', h => by
      simp only [AndExpr.moreTokens, List.cons_append, List.append_assoc, List.cons.injEq,
        true_and] at h
      obtain ⟨rfl, hmore⟩ := NotExpr.tokens_append_inj a b h
      obtain ⟨rfl, rfl⟩ := AndExpr.moreTokens_append_inj as bs hr hr' hmore
      exact ⟨rfl, rfl⟩

theorem NotExpr.tokens_append_inj : ∀ (n n' : NotExpr) {r r' : List (Token Literal)},
    n.tokens ++ r = n'.tokens ++ r' → n = n' ∧ r = r'
  | .not p, .not q, _, _, h => by
      simp only [NotExpr.tokens, List.cons_append, List.cons.injEq, true_and] at h
      obtain ⟨rfl, rfl⟩ := Primary.tokens_append_inj p q h
      exact ⟨rfl, rfl⟩
  | .not _, .bare q, _, _, h => (q.not_cons_ne_tokens _ _ h).elim
  | .bare p, .not _, _, _, h => (p.not_cons_ne_tokens _ _ h.symm).elim
  | .bare p, .bare q, _, _, h => by
      obtain ⟨rfl, rfl⟩ := Primary.tokens_append_inj p q h
      exact ⟨rfl, rfl⟩

theorem Primary.tokens_append_inj : ∀ (p p' : Primary) {r r' : List (Token Literal)},
    p.tokens ++ r = p'.tokens ++ r' → p = p' ∧ r = r'
  | .group e, .group e', r, r', h => by
      simp only [Primary.tokens, List.cons_append, List.append_assoc, List.nil_append,
        List.cons.injEq, true_and] at h
      obtain ⟨rfl, hr⟩ := OrExpr.tokens_append_inj e e' (stops_closing r) (stops_closing r') h
      exact ⟨rfl, (List.cons.inj hr).2⟩
  | .group _, .genre _ _ _, _, _, h => by simp at h
  | .genre _ _ _, .group _, _, _, h => by simp at h
  | .genre g name hg, .genre g' name' hg', _, _, h => by
      simp only [Primary.tokens, List.cons_append, List.nil_append, List.cons.injEq,
        Token.genre.injEq] at h
      obtain ⟨rfl, rfl⟩ := h
      obtain rfl : name = name' := Option.some.inj (hg.symm.trans hg')
      exact ⟨rfl, rfl⟩

end

/-- The grammar is unambiguous. -/
theorem OrExpr.tokens_inj {d d' : OrExpr} (h : d.tokens = d'.tokens) : d = d' :=
  (OrExpr.tokens_append_inj d d' stops_nil stops_nil (by simpa using h)).1

end Grammar

end Bookshelf
