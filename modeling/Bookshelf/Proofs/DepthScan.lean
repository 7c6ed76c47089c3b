import Bookshelf.Proofs.GrammarParser

namespace Bookshelf

/-!
# Errors by counting parentheses

Whether an expression parses, and which error it has, is decided by a scan from
left to right that builds no tree. It counts the open parentheses and knows
what may come next. The functions of the parser call each other as deep as the
parentheses nest, and the machine that follows their calls keeps a stack of
what they have read. The scan is what remains of that machine when the
expressions are forgotten, so it stops at the same token for the same reason.
-/

namespace Expression

inductive Mode where
  | operand
  | operandAfterNot
  | operator
deriving DecidableEq, Repr

structure DepthScan where
  depth : Nat
  mode : Mode
deriving DecidableEq, Repr

namespace DepthScan

def start : DepthScan := ⟨0, .operand⟩

def operandStep (depth : Nat) (negated : Bool) : Token Literal → Except ParseError DepthScan
  | .genre g => if g.canonical.isSome then .ok ⟨depth, .operator⟩ else .error (.unknownGenre g.text)
  | .opening => .ok ⟨depth + 1, .operand⟩
  | .not => if negated then .error .unexpectedEnd else .ok ⟨depth, .operandAfterNot⟩
  | _ => .error .unexpectedEnd

def operatorStep : Nat → Token Literal → Except ParseError DepthScan
  | depth, .and => .ok ⟨depth, .operand⟩
  | depth, .or => .ok ⟨depth, .operand⟩
  | depth + 1, .closing => .ok ⟨depth, .operator⟩
  | _ + 1, _ => .error .missingClosing
  | 0, t => .error (.unexpectedToken t.display)

def step (s : DepthScan) (t : Token Literal) : Except ParseError DepthScan :=
  match s.mode with
  | .operand => operandStep s.depth false t
  | .operandAfterNot => operandStep s.depth true t
  | .operator => operatorStep s.depth t

def finish (s : DepthScan) : Except ParseError Unit :=
  match s.mode with
  | .operator => if s.depth = 0 then .ok () else .error .missingClosing
  | _ => .error .unexpectedEnd

def run (s : DepthScan) (ts : List (Token Literal)) : Except ParseError DepthScan :=
  ts.foldlM step s

/-- Scans the whole of a list of tokens. -/
def outcome (ts : List (Token Literal)) : Except ParseError Unit :=
  start.run ts >>= finish

theorem run_cons (s : DepthScan) (t : Token Literal) (ts : List (Token Literal)) :
    s.run (t :: ts) = s.step t >>= fun u => u.run ts := by
  simp [run]

end DepthScan

def Due.mode (d : Due) : Mode :=
  if d.negated then .operandAfterNot else .operand

/-- Forgets the expressions of a state. -/
def ParseState.outline : ParseState → DepthScan
  | .due outer d => ⟨outer.length, d.mode⟩
  | .held outer _ => ⟨outer.length, .operator⟩

namespace ParseState

theorem outline_step_due (outer : List Due) (d : Due) (t : Token Literal) :
    ((ParseState.due outer d).step t).map outline =
      DepthScan.operandStep outer.length d.negated t := by
  cases t with
  | genre g =>
      cases hg : g.canonical <;> simp [step, DepthScan.operandStep, hg, Except.map, outline]
  | opening => rfl
  | not =>
      cases hn : d.negated <;>
        simp [step, DepthScan.operandStep, hn, Except.map, outline, Due.mode]
  | and | or | closing => rfl

theorem outline_step_held (outer : List Due) (h : Held) (t : Token Literal) :
    ((ParseState.held outer h).step t).map outline = DepthScan.operatorStep outer.length t := by
  cases t with
  | and | or => rfl
  | closing | genre g | opening | not => cases outer <;> rfl

theorem outline_step (s : ParseState) (t : Token Literal) :
    (s.step t).map outline = s.outline.step t := by
  cases s with
  | due outer d =>
      rw [outline_step_due]
      cases hn : d.negated <;> simp [outline, Due.mode, hn, DepthScan.step]
  | held outer h => exact outline_step_held outer h t

theorem outline_run (s : ParseState) (ts : List (Token Literal)) :
    (s.run ts).map outline = s.outline.run ts := by
  induction ts generalizing s with
  | nil => rfl
  | cons t ts ih =>
      have hstep : s.outline.step t = (s.step t).map outline := (outline_step s t).symm
      rw [run_cons, DepthScan.run_cons, hstep]
      cases s.step t with
      | error e => rfl
      | ok u => exact ih u

theorem outline_finish (s : ParseState) : s.finish.map (fun _ => ()) = s.outline.finish := by
  match s with
  | .due outer d =>
      cases hn : d.negated <;> simp [finish, outline, Due.mode, hn, DepthScan.finish, Except.map]
  | .held [] h => rfl
  | .held (_ :: _) h => rfl

end ParseState

theorem map_parseTokens (ts : List (Token Literal)) :
    (parseTokens ts).map (fun _ => ()) = DepthScan.outcome ts := by
  have hrun : (ParseState.start.run ts).map ParseState.outline = DepthScan.start.run ts :=
    ParseState.outline_run .start ts
  rw [parseTokens_eq_run, DepthScan.outcome, ← hrun]
  cases ParseState.start.run ts with
  | error e => rfl
  | ok s => exact s.outline_finish

theorem parseTokens_of_run_eq_error {ts : List (Token Literal)} {e : ParseError}
    (h : DepthScan.start.run ts = .error e) : parseTokens ts = .error e := by
  have houtcome : DepthScan.outcome ts = .error e := bind_eq_error_iff.mpr (Or.inl h)
  rw [← map_parseTokens] at houtcome
  exact map_eq_error_iff.mp houtcome

namespace DepthScan

theorem run_append_of_step_eq_error {s u : DepthScan} {pre : List (Token Literal)}
    {t : Token Literal} {e : ParseError} (hpre : s.run pre = .ok u) (ht : u.step t = .error e)
    (rest : List (Token Literal)) : s.run (pre ++ t :: rest) = .error e := by
  induction pre generalizing s with
  | nil =>
      obtain rfl : s = u := Except.ok.inj hpre
      exact bind_eq_error_iff.mpr (Or.inl ht)
  | cons x pre ih =>
      rw [run_cons] at hpre
      obtain ⟨v, hx, hpre⟩ := bind_eq_ok_iff.mp hpre
      rw [List.cons_append, run_cons]
      exact bind_eq_error_iff.mpr (Or.inr ⟨v, hx, ih hpre⟩)

/-- A scan that fails before the end stops at one of its tokens. -/
theorem exists_step_eq_error {s : DepthScan} {ts : List (Token Literal)} {e : ParseError}
    (h : s.run ts = .error e) :
    ∃ pre t rest u, ts = pre ++ t :: rest ∧ s.run pre = .ok u ∧ u.step t = .error e := by
  induction ts generalizing s with
  | nil => cases h
  | cons x ts ih =>
      rw [run_cons] at h
      rcases bind_eq_error_iff.mp h with hx | ⟨v, hx, hv⟩
      · exact ⟨[], x, ts, s, rfl, rfl, hx⟩
      · obtain ⟨pre, t, rest, u, rfl, hpre, ht⟩ := ih hv
        refine ⟨x :: pre, t, rest, u, rfl, ?_, ht⟩
        rw [run_cons]
        exact bind_eq_ok_iff.mpr ⟨v, hx, hpre⟩

end DepthScan

/-- The recursive descent has the outcome of the scan. Where the scan stops at a
token, no later token matters. -/
theorem parseTokens_outcome_eq_depthScan :
    (∀ ts, (parseTokens ts).map (fun _ => ()) = DepthScan.outcome ts) ∧
    ∀ ts e, DepthScan.start.run ts = .error e →
      ∃ pre t rest s, ts = pre ++ t :: rest ∧ DepthScan.start.run pre = .ok s ∧
        s.step t = .error e ∧ ∀ rest', parseTokens (pre ++ t :: rest') = .error e := by
  refine ⟨map_parseTokens, ?_⟩
  intro ts e h
  obtain ⟨pre, t, rest, s, hts, hpre, ht⟩ := DepthScan.exists_step_eq_error h
  refine ⟨pre, t, rest, s, hts, hpre, ht, ?_⟩
  intro rest'
  exact parseTokens_of_run_eq_error (DepthScan.run_append_of_step_eq_error hpre ht rest')

theorem parseTokens_outcome_eq_depthScan_empty_pair :
    DepthScan.start.run [.opening, .closing, .and] = .error .unexpectedEnd ∧
      ∃ pre t rest s, [.opening, .closing, .and] = pre ++ t :: rest ∧
        DepthScan.start.run pre = .ok s ∧ s.step t = .error .unexpectedEnd ∧
        ∀ rest', parseTokens (pre ++ t :: rest') = .error .unexpectedEnd :=
  ⟨rfl, parseTokens_outcome_eq_depthScan.2 _ _ rfl⟩

end Expression

end Bookshelf
