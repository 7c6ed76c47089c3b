import Bookshelf.Expression
import Bookshelf.Expression.Token

namespace Bookshelf

/-!
# Parsing expressions

*Not* binds its operand, *and* binds tighter than *or*, and both associate to
the left; *not* stands before a genre or a parenthesis only. There is a
function for each level of precedence. It reads its expression off the front of
the tokens and hands on what stands behind.
-/

namespace Expression

inductive ParseError where
  | unknownGenre (text : String)
  | missingClosing
  | unexpectedToken (text : String)
  | unexpectedEnd
deriving DecidableEq, Repr

def ParseError.message : ParseError → String
  | .unknownGenre text => "unknown genre: \"" ++ text ++ "\""
  | .missingClosing => "missing closing parenthesis"
  | .unexpectedToken text => "unexpected token: \"" ++ text ++ "\""
  | .unexpectedEnd => "unexpected token or end of expression"

/-- An expression that has been read and the tokens behind it, fewer than `bound`. -/
structure Parsed (bound : Nat) where
  tree : Expression
  rest : List (Token Literal)
  rest_lt : rest.length < bound

namespace Parsed

variable {m n : Nat}

def mono (p : Parsed m) (h : m ≤ n) : Parsed n :=
  ⟨p.tree, p.rest, Nat.lt_of_lt_of_le p.rest_lt h⟩

@[simp] theorem rest_mono (p : Parsed m) (h : m ≤ n) : (p.mono h).rest = p.rest := rfl

/-- Takes the parenthesis that closes a group. -/
def close : Parsed n → Except ParseError (Parsed n)
  | ⟨tree, .closing :: rest, h⟩ => .ok ⟨tree, rest, Nat.lt_of_succ_lt h⟩
  | _ => .error .missingClosing

/-- The whole expression, when nothing is left behind it. -/
def finish : Parsed n → Except ParseError Expression
  | ⟨tree, [], _⟩ => .ok tree
  | ⟨_, t :: _, _⟩ => .error (.unexpectedToken t.display)

end Parsed

mutual

def orExpression (ts : List (Token Literal)) : Except ParseError (Parsed ts.length) := do
  let first ← andExpression ts
  let all ← orChain first.tree first.rest
  return all.mono first.rest_lt
termination_by (ts.length, 3)
decreasing_by
  · exact .right _ (by decide)
  · exact .left _ _ first.rest_lt

/-- Reads on while *or* follows. -/
def orChain (left : Expression) :
    (ts : List (Token Literal)) → Except ParseError (Parsed (ts.length + 1))
  | .or :: ts => do
    let right ← andExpression ts
    let all ← orChain (.or left right.tree) right.rest
    return all.mono (Nat.le_succ_of_le (Nat.le_succ_of_le right.rest_lt))
  | ts => .ok ⟨left, ts, Nat.lt_succ_self _⟩
termination_by ts => (ts.length, 0)
decreasing_by
  · exact .left _ _ (Nat.lt_succ_self _)
  · exact .left _ _ (Nat.lt_succ_of_lt right.rest_lt)

def andExpression (ts : List (Token Literal)) : Except ParseError (Parsed ts.length) := do
  let first ← notExpression ts
  let all ← andChain first.tree first.rest
  return all.mono first.rest_lt
termination_by (ts.length, 2)
decreasing_by
  · exact .right _ (by decide)
  · exact .left _ _ first.rest_lt

/-- Reads on while *and* follows. -/
def andChain (left : Expression) :
    (ts : List (Token Literal)) → Except ParseError (Parsed (ts.length + 1))
  | .and :: ts => do
    let right ← notExpression ts
    let all ← andChain (.and left right.tree) right.rest
    return all.mono (Nat.le_succ_of_le (Nat.le_succ_of_le right.rest_lt))
  | ts => .ok ⟨left, ts, Nat.lt_succ_self _⟩
termination_by ts => (ts.length, 0)
decreasing_by
  · exact .left _ _ (Nat.lt_succ_self _)
  · exact .left _ _ (Nat.lt_succ_of_lt right.rest_lt)

def notExpression : (ts : List (Token Literal)) → Except ParseError (Parsed ts.length)
  | .not :: ts => do
    let operand ← primary ts
    return ⟨.not operand.tree, operand.rest, Nat.lt_succ_of_lt operand.rest_lt⟩
  | ts => primary ts
termination_by ts => (ts.length, 1)

def primary : (ts : List (Token Literal)) → Except ParseError (Parsed ts.length)
  | .opening :: ts => do
    let inner ← orExpression ts
    let group ← inner.close
    return group.mono (Nat.le_succ _)
  | .genre g :: ts =>
    match g.canonical with
    | some name => .ok ⟨.genre name, ts, Nat.lt_succ_self _⟩
    | none => .error (.unknownGenre g.text)
  | _ => .error .unexpectedEnd
termination_by ts => (ts.length, 0)

end

def parseTokens (ts : List (Token Literal)) : Except ParseError Expression := do
  let whole ← orExpression ts
  whole.finish

def parse? : List (Token Literal) → Except ParseError (Option Expression)
  | [] => .ok none
  | ts => (parseTokens ts).map some

theorem parse?_of_ne_nil {ts : List (Token Literal)} (h : ts ≠ []) :
    parse? ts = (parseTokens ts).map some := by
  cases ts with
  | nil => exact (h rfl).elim
  | cons t ts => rfl

end Expression

namespace Vocabulary

def parse (v : Vocabulary) (text : String) : Except Expression.ParseError (Option Expression) :=
  Expression.parse? (v.tokenize text)

end Vocabulary

end Bookshelf
