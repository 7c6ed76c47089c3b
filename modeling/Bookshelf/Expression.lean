import Bookshelf.Genre

namespace Bookshelf

/-!
# Genre expressions

An expression is built from genres with *and*, *or* and *not*, and holds or
fails of the list of genres that a book carries.
-/

inductive Expression where
  | genre (name : String)
  | not (operand : Expression)
  | and (left right : Expression)
  | or (left right : Expression)
deriving DecidableEq, Repr

namespace Expression

/-- A genre holds of a book that lists it in any spelling, so none holds of a
book without genres. -/
def holds (genres : List String) : Expression → Bool
  | .genre name => genres.any (Genre.same · name)
  | .not e => !e.holds genres
  | .and l r => l.holds genres && r.holds genres
  | .or l r => l.holds genres || r.holds genres

/-- Writes an expression with parentheses around every *and* and *or*. -/
def render : Expression → String
  | .genre name => name
  | .not e => "NOT " ++ e.render
  | .and l r => "(" ++ l.render ++ " AND " ++ r.render ++ ")"
  | .or l r => "(" ++ l.render ++ " OR " ++ r.render ++ ")"

end Expression

end Bookshelf
