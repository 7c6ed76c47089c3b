namespace Bookshelf

/-!
# The lexemes of JSON

A text falls into punctuation, quoted text, and words between them. White space
only separates. A word is not examined here: it is a literal or a number as a
whole, or else nothing.
-/

namespace Json

inductive Lexeme where
  | openBracket
  | closeBracket
  | openBrace
  | closeBrace
  | comma
  | colon
  | word (chars : List Char)
  | quoted (content : List Char)
  /-- A quotation mark that nothing closes. -/
  | unclosed
deriving DecidableEq, Repr

namespace Lexeme

def isSpace (c : Char) : Bool :=
  c == ' ' || c == '\t' || c == '\n' || c == '\r'

def punctuation? (c : Char) : Option Lexeme :=
  match c with
  | '[' => some .openBracket
  | ']' => some .closeBracket
  | '{' => some .openBrace
  | '}' => some .closeBrace
  | ',' => some .comma
  | ':' => some .colon
  | _ => none

end Lexeme

/-- What the last characters of a text have begun, held in reverse. -/
inductive Pending where
  | word (w : List Char)
  | quoted (w : List Char)
  /-- Quoted text whose last character is a backslash that escapes the next. -/
  | escape (w : List Char)
deriving DecidableEq, Repr

/-- The lexemes of a text, the last one first, and what is pending behind them. -/
structure Scan where
  done : List Lexeme
  pending : Pending
deriving DecidableEq, Repr

namespace Scan

def start : Scan := ⟨[], .word []⟩

/-- Adds a word, held in reverse, unless it is empty. -/
def addWord (w : List Char) (done : List Lexeme) : List Lexeme :=
  if w = [] then done else .word w.reverse :: done

/-- Takes a character outside quotation marks. -/
def stepWord (done : List Lexeme) (w : List Char) (c : Char) : Scan :=
  if Lexeme.isSpace c then ⟨addWord w done, .word []⟩
  else if c = '"' then ⟨addWord w done, .quoted []⟩
  else
    match Lexeme.punctuation? c with
    | some p => ⟨p :: addWord w done, .word []⟩
    | none => ⟨done, .word (c :: w)⟩

def step (s : Scan) (c : Char) : Scan :=
  match s.pending with
  | .word w => stepWord s.done w c
  | .quoted w =>
    if c = '"' then ⟨.quoted w.reverse :: s.done, .word []⟩
    else if c = '\\' then ⟨s.done, .escape (c :: w)⟩
    else ⟨s.done, .quoted (c :: w)⟩
  | .escape w => ⟨s.done, .quoted (c :: w)⟩

def finish (s : Scan) : List Lexeme :=
  match s.pending with
  | .word w => (addWord w s.done).reverse
  | _ => (.unclosed :: s.done).reverse

end Scan

def lexemes (cs : List Char) : List Lexeme :=
  (cs.foldl Scan.step Scan.start).finish

end Json

end Bookshelf
