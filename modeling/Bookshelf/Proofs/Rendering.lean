import Bookshelf.Proofs.Respelling
import Bookshelf.Proofs.TokenScan

namespace Bookshelf

/-!
# Expressions, written and parsed

An expression is written with parentheses around every *and* and *or*, so what
is written parses as the same tree in every surrounding. There are no
parentheses around the operand of *not*. If that operand is a *not* itself, the
text has two of them in a row, which the parser refuses wherever they stand.
-/

namespace Expression

/-- The tokens of a written expression. -/
def tokens : Expression → List (Token String)
  | .genre name => [.genre name]
  | .not e => .not :: e.tokens
  | .and l r => .opening :: (l.tokens ++ .and :: (r.tokens ++ [.closing]))
  | .or l r => .opening :: (l.tokens ++ .or :: (r.tokens ++ [.closing]))

def isNegation : Expression → Bool
  | .not _ => true
  | _ => false

/-- Some *not* in the expression has a *not* as its operand. -/
def doublyNegated : Expression → Bool
  | .genre _ => false
  | .not e => e.isNegation || e.doublyNegated
  | .and l r => l.doublyNegated || r.doublyNegated
  | .or l r => l.doublyNegated || r.doublyNegated

end Expression

/-! ## The tokens of the text -/

namespace Token

theorem tokensBefore_binary {w : List Char} {op : Token String}
    (hw : tokensBefore (some ' ') w = [op]) (next : Option Char) (l r : List Char) :
    tokensBefore next ('(' :: (l ++ ' ' :: (w ++ ' ' :: (r ++ [')'])))) =
      .opening ::
        (tokensBefore (some ' ') l ++ op :: (tokensBefore (some ')') r ++ [.closing])) := by
  have hspace : separates ' ' = true := rfl
  have hopening : separates '(' = true := rfl
  have hclosing : separates ')' = true := rfl
  rw [tokensBefore_cons hopening, tokensBefore_append hspace, tokensBefore_append hspace,
    tokensBefore_append hclosing, hw]
  rfl

end Token

namespace Expression

open Token

theorem tokensBefore_render {e : Expression}
    (h : ∀ g ∈ e.names, g ≠ "" ∧ IsWord g ∧ IsGenreName g) (next : Option Char)
    (hnext : next.any Text.isWideBlank = false) :
    tokensBefore next e.render.toList = e.tokens := by
  induction e generalizing next with
  | genre name =>
      obtain ⟨hne, hword, hname⟩ := h name List.mem_cons_self
      have hchars : ∀ c ∈ name.toList, separates c = false :=
        fun c hc => separates_eq_false_iff.mpr (hword c hc)
      rw [render, tokensBefore_word (by simpa using hne) hchars, ofWord_eq_ofWord_none (.inl hnext),
        ofWord_none, hname.operator?_eq_none, Option.getD_none, String.ofList_toList, tokens]
  | not e ih =>
      have htext : (Expression.not e).render.toList = "NOT".toList ++ ' ' :: e.render.toList := by
        simp [render]
      rw [htext, tokensBefore_append rfl, ih h next hnext, tokens]
      rfl
  | and l r ihl ihr =>
      have htext : (Expression.and l r).render.toList =
          '(' :: (l.render.toList ++
            ' ' :: ("AND".toList ++ ' ' :: (r.render.toList ++ [')']))) := by
        simp [render]
      have hl := ihl (fun g hg => h g (List.mem_append_left _ hg)) (some ' ') rfl
      have hr := ihr (fun g hg => h g (List.mem_append_right _ hg)) (some ')') rfl
      rw [htext, tokensBefore_binary rfl, hl, hr, tokens]
      rfl
  | or l r ihl ihr =>
      have htext : (Expression.or l r).render.toList =
          '(' :: (l.render.toList ++
            ' ' :: ("OR".toList ++ ' ' :: (r.render.toList ++ [')']))) := by
        simp [render]
      have hl := ihl (fun g hg => h g (List.mem_append_left _ hg)) (some ' ') rfl
      have hr := ihr (fun g hg => h g (List.mem_append_right _ hg)) (some ')') rfl
      rw [htext, tokensBefore_binary rfl, hl, hr, tokens]
      rfl

theorem ofText_render {e : Expression} (h : ∀ g ∈ e.names, g ≠ "" ∧ IsWord g ∧ IsGenreName g) :
    ofText e.render = e.tokens :=
  tokensBefore_render h none rfl

theorem tokens_ne_nil (e : Expression) : e.tokens ≠ [] := by
  cases e <;> simp [tokens]

end Expression

/-! ## The parser on these tokens -/

namespace Expression

open Vocabulary ParseState

variable {v : Vocabulary} {e : Expression}

/-- Where the tokens of an expression lead if an operand is due. -/
def outcome (e : Expression) (outer : List Due) (d : Due) : Except ParseError ParseState :=
  if d.negated && e.isNegation || e.doublyNegated then .error .unexpectedEnd
  else .ok (.held outer (d.take e))

theorem outcome_eq {outer : List Due} {d : Due} (h : (d.negated && e.isNegation) = false) :
    e.outcome outer d =
      if e.doublyNegated then .error .unexpectedEnd else .ok (.held outer (d.take e)) := by
  rw [outcome, h, Bool.false_or]

theorem outcome_not {outer : List Due} {d : Due} (hd : d.negated = false) :
    (Expression.not e).outcome outer d = e.outcome outer { d with negated := true } := by
  simp [outcome, doublyNegated, isNegation, hd, Due.take]

/-- The operands of a group are read on a level of their own, one after the other. -/
theorem run_group {l r : Expression} {op : Expression → Expression → Expression}
    {t : Token Literal} {ls rs : List (Token Literal)} {outer : List Due} {d next : Due}
    (hl : (due (d :: outer) .start).run ls = l.outcome (d :: outer) .start)
    (hstep : (held (d :: outer) (Due.start.take l)).step t = .ok (.due (d :: outer) next))
    (hnext : next.negated = false)
    (hr : (due (d :: outer) next).run rs = r.outcome (d :: outer) next)
    (htree : (next.take r).tree = op l r) :
    (due outer d).run (.opening :: (ls ++ t :: (rs ++ [.closing]))) =
      if l.doublyNegated || r.doublyNegated then .error .unexpectedEnd
      else .ok (.held outer (d.take (op l r))) := by
  have hopening : (due outer d).step .opening = .ok (.due (d :: outer) .start) := rfl
  have hclosing : (held (d :: outer) (next.take r)).step .closing =
      .ok (.held outer (d.take (op l r))) := by
    rw [← htree]
    rfl
  rw [outcome_eq rfl] at hl
  rw [outcome_eq (by simp [hnext])] at hr
  rw [run_cons_of_step hopening, run_append, hl]
  cases hldouble : l.doublyNegated with
  | true => rfl
  | false =>
      have hrest : (held (d :: outer) (Due.start.take l)).run (t :: (rs ++ [.closing])) =
          (due (d :: outer) next).run rs >>= fun s => s.run [.closing] := by
        rw [run_cons_of_step hstep, run_append]
      refine hrest.trans ?_
      rw [hr]
      cases hrdouble : r.doublyNegated with
      | true => rfl
      | false => exact run_cons_of_step hclosing []

/-- In every surrounding an expression is read as one operand, or refused for
two *not* in a row. -/
theorem run_resolveTokens_tokens (h : ∀ g ∈ e.names, v.resolve g = some g) (outer : List Due)
    (d : Due) : (due outer d).run (v.resolveTokens e.tokens) = e.outcome outer d := by
  induction e generalizing outer d with
  | genre name =>
      have hstep : (due outer d).step (.genre (v.literal name)) =
          .ok (.held outer (d.take (.genre name))) := by
        simp [step, literal, h name List.mem_cons_self]
      rw [outcome_eq (Bool.and_false _)]
      exact run_cons_of_step hstep []
  | not e ih =>
      have htokens : v.resolveTokens (Expression.not e).tokens =
          .not :: v.resolveTokens e.tokens := rfl
      rw [htokens, run_cons]
      cases hd : d.negated with
      | true => simp [step, hd, outcome, isNegation, bind, Except.bind]
      | false =>
          have hstep : (due outer d).step .not = .ok (.due outer { d with negated := true }) := by
            simp [step, hd]
          rw [hstep, outcome_not hd]
          exact ih h outer { d with negated := true }
  | and l r ihl ihr =>
      have htokens : v.resolveTokens (Expression.and l r).tokens =
          .opening ::
            (v.resolveTokens l.tokens ++ .and :: (v.resolveTokens r.tokens ++ [.closing])) := by
        simp [tokens, resolveTokens, Token.map]
      have hl := ihl (fun g hg => h g (List.mem_append_left _ hg)) (d :: outer) .start
      have hr := ihr (fun g hg => h g (List.mem_append_right _ hg)) (d :: outer)
        ⟨none, some l, false⟩
      rw [htokens, outcome_eq (Bool.and_false _)]
      exact run_group hl rfl rfl hr rfl
  | or l r ihl ihr =>
      have htokens : v.resolveTokens (Expression.or l r).tokens =
          .opening ::
            (v.resolveTokens l.tokens ++ .or :: (v.resolveTokens r.tokens ++ [.closing])) := by
        simp [tokens, resolveTokens, Token.map]
      have hl := ihl (fun g hg => h g (List.mem_append_left _ hg)) (d :: outer) .start
      have hr := ihr (fun g hg => h g (List.mem_append_right _ hg)) (d :: outer)
        ⟨some l, none, false⟩
      rw [htokens, outcome_eq (Bool.and_false _)]
      exact run_group hl rfl rfl hr rfl

theorem parseTokens_resolveTokens_tokens (h : ∀ g ∈ e.names, v.resolve g = some g) :
    parseTokens (v.resolveTokens e.tokens) =
      if e.doublyNegated then .error .unexpectedEnd else .ok e := by
  rw [parseTokens_eq_run, start, run_resolveTokens_tokens h, outcome_eq rfl]
  cases e.doublyNegated <;> rfl

end Expression

namespace Vocabulary

open Expression

theorem ne_empty_of_resolve {v : Vocabulary} {x name : String} (h : v.resolve x = some name) :
    x ≠ "" := by
  rintro rfl
  rw [resolve_eq_name?, name?_of_isBlankKey rfl] at h
  cases h

/-- A written expression parses as itself, unless it negates a negation. -/
theorem parse_render {v : Vocabulary} {t : Expression}
    (hknown : ∀ g ∈ t.names, v.resolve g = some g)
    (hnames : ∀ g ∈ t.names, Token.IsWord g ∧ Token.IsGenreName g) :
    v.parse t.render =
      if t.doublyNegated then .error .unexpectedEnd else .ok (some t) := by
  have htokens : Token.ofText t.render = t.tokens :=
    ofText_render fun g hg => ⟨ne_empty_of_resolve (hknown g hg), hnames g hg⟩
  have hne : v.resolveTokens t.tokens ≠ [] := by
    simpa [resolveTokens] using t.tokens_ne_nil
  rw [parse, tokenize, htokens, parse?_of_ne_nil hne, parseTokens_resolveTokens_tokens hknown]
  cases t.doublyNegated <;> rfl

theorem parse_render_horrors :
    let v := (empty.record "Horror").record "Post-War"
    let t := Expression.or (.not (.and (.genre "Horror") (.genre "Post-War"))) (.genre "Horror")
    (∀ g ∈ t.names, v.resolve g = some g) ∧
      (∀ g ∈ t.names, Token.IsWord g ∧ Token.IsGenreName g) ∧
      v.parse t.render = .ok (some t) ∧
      v.parse (Expression.and t (.not (.not (.genre "Horror")))).render =
        .error .unexpectedEnd := by
  intro v t
  have hknown : ∀ g ∈ t.names, v.resolve g = some g := by decide
  have hnames : ∀ g ∈ t.names, Token.IsWord g ∧ Token.IsGenreName g := by decide
  refine ⟨hknown, hnames, parse_render hknown hnames, ?_⟩
  exact parse_render (t := .and t (.not (.not (.genre "Horror")))) (by decide) (by decide)

end Vocabulary

end Bookshelf
