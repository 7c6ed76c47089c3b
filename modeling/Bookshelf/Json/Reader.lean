import Bookshelf.Json
import Bookshelf.Json.Lexeme
import Bookshelf.Json.Quoted

namespace Bookshelf

/-!
# Reading JSON

The reader goes through the lexemes once and keeps the arrays and objects that
are open. It checks the form of every part and has no limit of depth; scalars
without meaning become unreadable values.
-/

namespace Json

/-- An open array or object, with what it has got so far in reverse. -/
inductive Open where
  | array (items : List Json)
  | object (members : List (Option String × Json)) (key : Option String)

def ofWord? (w : List Char) : Option Json :=
  if w = ['n', 'u', 'l', 'l'] then some .null
  else if w = ['t', 'r', 'u', 'e'] then some (.bool true)
  else if w = ['f', 'a', 'l', 's', 'e'] then some (.bool false)
  else
    (Numeral.read? w).map fun n =>
      match n.number? with
      | some value => .number value
      | none => .unreadable

/-- The text between quotation marks, itself absent where it means nothing. -/
def textOf? (content : List Char) : Option (Option String) :=
  (Quoted.items? content).map fun is => (Quoted.text? is).map String.ofList

def ofQuoted? (content : List Char) : Option Json :=
  (textOf? content).map fun s => (s.map Json.text).getD .unreadable

/-- Where the reader stands between two lexemes, with the arrays and objects
that are open. -/
inductive ReadState where
  /-- A value is due. -/
  | due (outer : List Open)
  /-- An array was opened: a value or its end is due. -/
  | item (outer : List Open)
  /-- An object was opened: a key or its end is due. -/
  | member (outer : List Open)
  | key (outer : List Open) (members : List (Option String × Json))
  | colon (outer : List Open) (members : List (Option String × Json)) (key : Option String)
  | filled (outer : List Open) (value : Json)

namespace ReadState

/-- Takes the first lexeme of a value. -/
def open? (outer : List Open) : Lexeme → Option ReadState
  | .word w => (ofWord? w).map (.filled outer)
  | .quoted content => (ofQuoted? content).map (.filled outer)
  | .openBracket => some (.item outer)
  | .openBrace => some (.member outer)
  | _ => none

def key? (outer : List Open) (members : List (Option String × Json)) : Lexeme → Option ReadState
  | .quoted content => (textOf? content).map (.colon outer members)
  | _ => none

/-- Takes what follows a value. -/
def close? (value : Json) : List Open → Lexeme → Option ReadState
  | .array items :: outer, .comma => some (.due (.array (value :: items) :: outer))
  | .array items :: outer, .closeBracket => some (.filled outer (.array (value :: items).reverse))
  | .object members name :: outer, .comma => some (.key outer ((name, value) :: members))
  | .object members name :: outer, .closeBrace =>
    some (.filled outer (.object ((name, value) :: members).reverse))
  | _, _ => none

def step : ReadState → Lexeme → Option ReadState
  | .due outer, l => open? outer l
  | .item outer, .closeBracket => some (.filled outer (.array []))
  | .item outer, l => open? (.array [] :: outer) l
  | .member outer, .closeBrace => some (.filled outer (.object []))
  | .member outer, l => key? outer [] l
  | .key outer members, l => key? outer members l
  | .colon outer members name, .colon => some (.due (.object members name :: outer))
  | .colon _ _ _, _ => none
  | .filled outer value, l => close? value outer l

def run (s : ReadState) (ls : List Lexeme) : Option ReadState :=
  ls.foldlM step s

@[simp] theorem run_nil (s : ReadState) : s.run [] = some s := rfl

theorem run_append (s : ReadState) (xs ys : List Lexeme) :
    s.run (xs ++ ys) = (s.run xs).bind fun t => t.run ys := by
  simp [run, List.foldlM_append]

/-- The value that has been read, if it is complete. -/
def finish : ReadState → Option Json
  | .filled [] value => some value
  | _ => none

end ReadState

def read? (text : String) : Option Json :=
  ((ReadState.due []).run (lexemes text.toList)).bind ReadState.finish

end Json

end Bookshelf
