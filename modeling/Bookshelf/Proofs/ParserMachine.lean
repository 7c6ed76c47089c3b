import Bookshelf.Expression.Parser
import Bookshelf.Proofs.Outcome

namespace Bookshelf

/-!
# The parser as a machine

The calls of the parser that are under way can be written down as a state: what
each open parenthesis still waits for, and what the present level has read. The
tokens then drive a machine from state to state. Wherever a function of the
parser starts, the machine reaches the state behind its expression with the
same tokens left, or fails with its error. So the parser is the machine.
-/

namespace Expression

/-- What has been read on one level of parentheses when an operand is due: the
alternatives before the last *or*, the factors since, and whether *not* stands
before the operand. -/
structure Due where
  alternatives : Option Expression
  factors : Option Expression
  negated : Bool
deriving DecidableEq, Repr

/-- What has been read on one level when an operator is due. -/
structure Held where
  alternatives : Option Expression
  factors : Expression
deriving DecidableEq, Repr

def Due.start : Due := ⟨none, none, false⟩

/-- Joins an optional left part to a right part. -/
def join (op : Expression → Expression → Expression) :
    Option Expression → Expression → Expression
  | none, e => e
  | some l, e => op l e

def Due.take (d : Due) (e : Expression) : Held :=
  ⟨d.alternatives, join .and d.factors (if d.negated then .not e else e)⟩

/-- All that the level has read, as one expression. -/
def Held.tree (h : Held) : Expression :=
  join .or h.alternatives h.factors

/-- Where the parser stands between two tokens, with the levels that are open
around the present one. -/
inductive ParseState where
  /-- An operand is due. -/
  | due (outer : List Due) (level : Due)
  /-- An operator is due. -/
  | held (outer : List Due) (level : Held)
deriving DecidableEq, Repr

namespace ParseState

def start : ParseState := .due [] .start

def step : ParseState → Token Literal → Except ParseError ParseState
  | .due outer d, .genre g =>
    match g.canonical with
    | some name => .ok (.held outer (d.take (.genre name)))
    | none => .error (.unknownGenre g.text)
  | .due outer d, .opening => .ok (.due (d :: outer) .start)
  | .due outer d, .not =>
    if d.negated then .error .unexpectedEnd else .ok (.due outer { d with negated := true })
  | .due _ _, _ => .error .unexpectedEnd
  | .held outer h, .and => .ok (.due outer ⟨h.alternatives, some h.factors, false⟩)
  | .held outer h, .or => .ok (.due outer ⟨some h.tree, none, false⟩)
  | .held (d :: outer) h, .closing => .ok (.held outer (d.take h.tree))
  | .held (_ :: _) _, _ => .error .missingClosing
  | .held [] _, t => .error (.unexpectedToken t.display)

def finish : ParseState → Except ParseError Expression
  | .held [] h => .ok h.tree
  | .held (_ :: _) _ => .error .missingClosing
  | .due _ _ => .error .unexpectedEnd

def run (s : ParseState) (ts : List (Token Literal)) : Except ParseError ParseState :=
  ts.foldlM step s

@[simp] theorem run_nil (s : ParseState) : s.run [] = .ok s := rfl

theorem run_append (s : ParseState) (xs ys : List (Token Literal)) :
    s.run (xs ++ ys) = s.run xs >>= fun t => t.run ys := by
  simp [run, List.foldlM_append]

theorem run_cons (s : ParseState) (t : Token Literal) (ts : List (Token Literal)) :
    s.run (t :: ts) = s.step t >>= fun u => u.run ts := by
  simp [run]

theorem run_cons_of_step {s u : ParseState} {t : Token Literal} (h : s.step t = .ok u)
    (ts : List (Token Literal)) : s.run (t :: ts) = u.run ts := by
  rw [run_cons, h]
  rfl

theorem run_append_of_run {s u : ParseState} {xs : List (Token Literal)} (h : s.run xs = .ok u)
    (ys : List (Token Literal)) : s.run (xs ++ ys) = u.run ys := by
  rw [run_append, h]
  rfl

/-- Runs through all tokens and finishes. -/
def complete (s : ParseState) (ts : List (Token Literal)) : Except ParseError Expression :=
  s.run ts >>= finish

theorem complete_nil (s : ParseState) : s.complete [] = s.finish := rfl

theorem complete_of_step {s u : ParseState} {t : Token Literal} (h : s.step t = .ok u)
    (ts : List (Token Literal)) : s.complete (t :: ts) = u.complete ts := by
  rw [complete, run_cons_of_step h, complete]

theorem complete_of_step_error {s : ParseState} {t : Token Literal} {e : ParseError}
    (h : s.step t = .error e) (ts : List (Token Literal)) : s.complete (t :: ts) = .error e := by
  rw [complete, run_cons, h]
  rfl

end ParseState

/-! ## Where the chains stop -/

theorem orChain_of_head_ne {left : Expression} {ts : List (Token Literal)}
    (h : ts.head? ≠ some .or) : orChain left ts = .ok ⟨left, ts, Nat.lt_succ_self _⟩ := by
  rw [orChain.eq_def]
  split
  · exact (h rfl).elim
  · rfl

theorem andChain_of_head_ne {left : Expression} {ts : List (Token Literal)}
    (h : ts.head? ≠ some .and) : andChain left ts = .ok ⟨left, ts, Nat.lt_succ_self _⟩ := by
  rw [andChain.eq_def]
  split
  · exact (h rfl).elim
  · rfl

theorem notExpression_of_head_ne {ts : List (Token Literal)} (h : ts.head? ≠ some .not) :
    notExpression ts = primary ts := by
  rw [notExpression.eq_def]
  split
  · exact (h rfl).elim
  · rfl

theorem primary_of_head_ne {ts : List (Token Literal)} (hopening : ts.head? ≠ some .opening)
    (hgenre : ∀ g, ts.head? ≠ some (.genre g)) : primary ts = .error .unexpectedEnd := by
  rw [primary.eq_def]
  split
  · exact (hopening rfl).elim
  · exact (hgenre _ rfl).elim
  · rfl

theorem head_ne_of_andChain {left : Expression} {ts : List (Token Literal)}
    {p : Parsed (ts.length + 1)} (h : andChain left ts = .ok p) : p.rest.head? ≠ some .and := by
  by_cases hts : ts.head? = some .and
  · obtain ⟨us, rfl⟩ := List.head?_eq_some_iff.mp hts
    rw [andChain] at h
    obtain ⟨right, -, h⟩ := bind_eq_ok_iff.mp h
    obtain ⟨all, hall, h⟩ := bind_eq_ok_iff.mp h
    obtain rfl := Except.ok.inj h
    rw [Parsed.rest_mono]
    exact head_ne_of_andChain hall
  · rw [andChain_of_head_ne hts] at h
    obtain rfl := Except.ok.inj h
    exact hts
termination_by ts.length
decreasing_by
  subst_vars
  exact Nat.lt_succ_of_lt right.rest_lt

theorem head_ne_of_andExpression {ts : List (Token Literal)} {p : Parsed ts.length}
    (h : andExpression ts = .ok p) : p.rest.head? ≠ some .and := by
  rw [andExpression] at h
  obtain ⟨first, -, h⟩ := bind_eq_ok_iff.mp h
  obtain ⟨all, hall, h⟩ := bind_eq_ok_iff.mp h
  obtain rfl := Except.ok.inj h
  rw [Parsed.rest_mono]
  exact head_ne_of_andChain hall

/-- Neither *and* nor *or* stands in front. -/
def Ends (ts : List (Token Literal)) : Prop :=
  ts.head? ≠ some .and ∧ ts.head? ≠ some .or

theorem ends_of_orChain {left : Expression} {ts : List (Token Literal)} {p : Parsed (ts.length + 1)}
    (hts : ts.head? ≠ some .and) (h : orChain left ts = .ok p) : Ends p.rest := by
  by_cases hor : ts.head? = some .or
  · obtain ⟨us, rfl⟩ := List.head?_eq_some_iff.mp hor
    rw [orChain] at h
    obtain ⟨right, hright, h⟩ := bind_eq_ok_iff.mp h
    obtain ⟨all, hall, h⟩ := bind_eq_ok_iff.mp h
    obtain rfl := Except.ok.inj h
    rw [Parsed.rest_mono]
    exact ends_of_orChain (head_ne_of_andExpression hright) hall
  · rw [orChain_of_head_ne hor] at h
    obtain rfl := Except.ok.inj h
    exact ⟨hts, hor⟩
termination_by ts.length
decreasing_by
  subst_vars
  exact Nat.lt_succ_of_lt right.rest_lt

theorem ends_of_orExpression {ts : List (Token Literal)} {p : Parsed ts.length}
    (h : orExpression ts = .ok p) : Ends p.rest := by
  rw [orExpression] at h
  obtain ⟨first, hfirst, h⟩ := bind_eq_ok_iff.mp h
  obtain ⟨all, hall, h⟩ := bind_eq_ok_iff.mp h
  obtain rfl := Except.ok.inj h
  rw [Parsed.rest_mono]
  exact ends_of_orChain (head_ne_of_andExpression hfirst) hall

/-! ## The machine follows the parser -/

namespace ParseState

/-- Unless *and* follows, only the tree of what a level has read matters. -/
theorem complete_held_congr {outer : List Due} {h h' : Held} {ts : List (Token Literal)}
    (htree : h.tree = h'.tree) (hts : ts.head? ≠ some .and) :
    (ParseState.held outer h).complete ts = (ParseState.held outer h').complete ts := by
  cases ts with
  | nil => cases outer <;> simp [complete_nil, finish, htree]
  | cons t ts =>
      have hstep : (ParseState.held outer h).step t = (ParseState.held outer h').step t := by
        cases t with
        | and => exact (hts rfl).elim
        | or => simp [step, htree]
        | not | opening | genre g => cases outer <;> rfl
        | closing => cases outer <;> simp [step, htree]
      rw [complete, complete, run_cons, run_cons, hstep]

/-- Behind a whole expression only the end is left for the outermost level. -/
theorem complete_held_nil {n : Nat} {p : Parsed n} (h : Ends p.rest) :
    (ParseState.held [] ⟨none, p.tree⟩).complete p.rest = p.finish := by
  obtain ⟨tree, rest, hrest⟩ := p
  match rest with
  | [] => rfl
  | .and :: _ => exact (h.1 rfl).elim
  | .or :: _ => exact (h.2 rfl).elim
  | .closing :: us | .opening :: us | .not :: us | .genre g :: us =>
      exact complete_of_step_error rfl us

/-- Behind a whole expression only the closing parenthesis is left for an inner level. -/
theorem complete_held_cons {n : Nat} {p : Parsed n} {d : Due} {outer : List Due} (h : Ends p.rest) :
    (ParseState.held (d :: outer) ⟨none, p.tree⟩).complete p.rest =
      p.close >>= fun q => (ParseState.held outer (d.take q.tree)).complete q.rest := by
  obtain ⟨tree, rest, hrest⟩ := p
  match rest with
  | [] => rfl
  | .and :: _ => exact (h.1 rfl).elim
  | .or :: _ => exact (h.2 rfl).elim
  | .closing :: us => exact complete_of_step rfl us
  | .opening :: us | .not :: us | .genre g :: us => exact complete_of_step_error rfl us

-- The recursion is that of the parser: a call has fewer tokens before it, or the
-- same tokens at a tighter level.
mutual

theorem complete_orExpression (outer : List Due) (ts : List (Token Literal)) :
    (ParseState.due outer .start).complete ts =
      orExpression ts >>= fun p => (ParseState.held outer ⟨none, p.tree⟩).complete p.rest := by
  rw [orExpression, Due.start, complete_andExpression outer none ts, bind_assoc]
  refine bind_congr_of_ok fun first hfirst => ?_
  simp only [bind_assoc, pure_bind]
  exact complete_orChain outer first.tree first.rest (head_ne_of_andExpression hfirst)
termination_by (ts.length, 3)
decreasing_by
  · exact .right _ (by decide)
  · exact .left _ _ first.rest_lt

theorem complete_orChain (outer : List Due) (left : Expression) (ts : List (Token Literal))
    (hts : ts.head? ≠ some .and) :
    (ParseState.held outer ⟨none, left⟩).complete ts =
      orChain left ts >>= fun p => (ParseState.held outer ⟨none, p.tree⟩).complete p.rest := by
  by_cases hor : ts.head? = some .or
  · obtain ⟨us, rfl⟩ := List.head?_eq_some_iff.mp hor
    have hstep : (ParseState.held outer ⟨none, left⟩).step .or =
        .ok (.due outer ⟨some left, none, false⟩) := rfl
    rw [complete_of_step hstep, complete_andExpression outer (some left) us, orChain, bind_assoc]
    refine bind_congr_of_ok fun right hright => ?_
    have hhead : right.rest.head? ≠ some .and := head_ne_of_andExpression hright
    -- The machine still holds the two operands apart, as if *and* could follow.
    have htree : Held.tree ⟨some left, right.tree⟩ = Held.tree ⟨none, .or left right.tree⟩ := rfl
    simp only [bind_assoc, pure_bind]
    rw [complete_held_congr htree hhead]
    exact complete_orChain outer (.or left right.tree) right.rest hhead
  · rw [orChain_of_head_ne hor]
    rfl
termination_by (ts.length, 0)
decreasing_by
  · subst_vars
    exact .left _ _ (Nat.lt_succ_self _)
  · subst_vars
    exact .left _ _ (Nat.lt_succ_of_lt right.rest_lt)

theorem complete_andExpression (outer : List Due) (alternatives : Option Expression)
    (ts : List (Token Literal)) :
    (ParseState.due outer ⟨alternatives, none, false⟩).complete ts =
      andExpression ts >>= fun p =>
        (ParseState.held outer ⟨alternatives, p.tree⟩).complete p.rest := by
  rw [andExpression, complete_notExpression outer alternatives none ts, bind_assoc]
  refine bind_congr_of_ok fun first _ => ?_
  simp only [bind_assoc, pure_bind]
  exact complete_andChain outer alternatives first.tree first.rest
termination_by (ts.length, 2)
decreasing_by
  · exact .right _ (by decide)
  · exact .left _ _ first.rest_lt

theorem complete_andChain (outer : List Due) (alternatives : Option Expression)
    (left : Expression) (ts : List (Token Literal)) :
    (ParseState.held outer ⟨alternatives, left⟩).complete ts =
      andChain left ts >>= fun p =>
        (ParseState.held outer ⟨alternatives, p.tree⟩).complete p.rest := by
  by_cases hand : ts.head? = some .and
  · obtain ⟨us, rfl⟩ := List.head?_eq_some_iff.mp hand
    have hstep : (ParseState.held outer ⟨alternatives, left⟩).step .and =
        .ok (.due outer ⟨alternatives, some left, false⟩) := rfl
    rw [complete_of_step hstep, complete_notExpression outer alternatives (some left) us, andChain,
      bind_assoc]
    refine bind_congr_of_ok fun right _ => ?_
    simp only [bind_assoc, pure_bind]
    exact complete_andChain outer alternatives (.and left right.tree) right.rest
  · rw [andChain_of_head_ne hand]
    rfl
termination_by (ts.length, 0)
decreasing_by
  · subst_vars
    exact .left _ _ (Nat.lt_succ_self _)
  · subst_vars
    exact .left _ _ (Nat.lt_succ_of_lt right.rest_lt)

theorem complete_notExpression (outer : List Due) (alternatives factors : Option Expression)
    (ts : List (Token Literal)) :
    (ParseState.due outer ⟨alternatives, factors, false⟩).complete ts =
      notExpression ts >>= fun p =>
        (ParseState.held outer ⟨alternatives, join .and factors p.tree⟩).complete p.rest := by
  by_cases hnot : ts.head? = some .not
  · obtain ⟨us, rfl⟩ := List.head?_eq_some_iff.mp hnot
    have hstep : (ParseState.due outer ⟨alternatives, factors, false⟩).step .not =
        .ok (.due outer ⟨alternatives, factors, true⟩) := rfl
    rw [complete_of_step hstep, complete_primary outer _ us (.inl rfl), notExpression, bind_assoc]
    refine bind_congr_of_ok fun operand _ => ?_
    rw [pure_bind]
    rfl
  · rw [notExpression_of_head_ne hnot, complete_primary outer _ ts (.inr hnot)]
    rfl
termination_by (ts.length, 1)
decreasing_by
  · subst_vars
    exact .left _ _ (Nat.lt_succ_self _)
  · exact .right _ (by decide)

theorem complete_primary (outer : List Due) (d : Due) (ts : List (Token Literal))
    (hd : d.negated = true ∨ ts.head? ≠ some .not) :
    (ParseState.due outer d).complete ts =
      primary ts >>= fun p => (ParseState.held outer (d.take p.tree)).complete p.rest := by
  match ts with
  | .opening :: us =>
      have hstep : (ParseState.due outer d).step .opening = .ok (.due (d :: outer) .start) := rfl
      rw [complete_of_step hstep, complete_orExpression (d :: outer) us, primary, bind_assoc]
      refine bind_congr_of_ok fun inner hinner => ?_
      simp only [bind_assoc, pure_bind]
      exact complete_held_cons (ends_of_orExpression hinner)
  | .genre g :: us =>
      rw [primary]
      cases hg : g.canonical with
      | none => exact complete_of_step_error (by simp [step, hg]) us
      | some name => exact complete_of_step (by simp [step, hg]) us
  | .not :: us =>
      have hnegated : d.negated = true := hd.resolve_right fun h => h rfl
      have hstep : (ParseState.due outer d).step .not = .error .unexpectedEnd := by
        simp [step, hnegated]
      rw [complete_of_step_error hstep, primary_of_head_ne (by simp) (by simp)]
      rfl
  | .and :: us | .or :: us | .closing :: us | [] =>
      rw [primary_of_head_ne (by simp) (by simp)]
      rfl
termination_by (ts.length, 0)
decreasing_by exact .left _ _ (Nat.lt_succ_self _)

end

end ParseState

/-- The parser is the machine. -/
theorem parseTokens_eq_run (ts : List (Token Literal)) :
    parseTokens ts = ParseState.start.run ts >>= ParseState.finish := by
  rw [← ParseState.complete, parseTokens, ParseState.start, ParseState.complete_orExpression [] ts]
  refine bind_congr_of_ok fun whole hwhole => ?_
  exact (ParseState.complete_held_nil (ends_of_orExpression hwhole)).symm

theorem parse?_eq_run (ts : List (Token Literal)) :
    parse? ts =
      if ts = [] then .ok none else (ParseState.start.run ts >>= ParseState.finish).map some := by
  split
  · next hnil => rw [hnil, parse?]
  · next hne => rw [parse?_of_ne_nil hne, parseTokens_eq_run]

end Expression

end Bookshelf
