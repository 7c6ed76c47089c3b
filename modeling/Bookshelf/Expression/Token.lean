import Bookshelf.Text.Blank
import Bookshelf.Vocabulary

namespace Bookshelf

/-!
# Tokens of an expression

A token is an operator, a parenthesis or a genre. Genres come out of a text as
typed and are then resolved in a vocabulary; one that the vocabulary lacks is
kept, without a canonical spelling, for the parser to report.
-/

inductive Token (γ : Type) where
  | and
  | or
  | not
  | opening
  | closing
  | genre (name : γ)
deriving DecidableEq, Repr

/-- A genre as typed, with its spelling in the vocabulary. -/
structure Literal where
  text : String
  canonical : Option String
deriving DecidableEq, Repr

namespace Vocabulary

def literal (v : Vocabulary) (text : String) : Literal :=
  ⟨text, v.resolve text⟩

end Vocabulary

namespace Token

def map {α β : Type} (f : α → β) : Token α → Token β
  | .and => .and
  | .or => .or
  | .not => .not
  | .opening => .opening
  | .closing => .closing
  | .genre g => .genre (f g)

/-- The text of a token: operators in capitals, a genre as typed. -/
def render : Token String → String
  | .and => "AND"
  | .or => "OR"
  | .not => "NOT"
  | .opening => "("
  | .closing => ")"
  | .genre name => name

def display (t : Token Literal) : String :=
  (t.map Literal.text).render

/-- The operator that a word names, in any case of ASCII letters. -/
def operator? (w : List Char) : Option (Token String) :=
  match w.map Char.toLower with
  | ['a', 'n', 'd'] => some .and
  | ['o', 'r'] => some .or
  | ['n', 'o', 't'] => some .not
  | _ => none

/-- Reads an entry of a token list, which is one token whatever it contains. -/
def ofEntry (w : List Char) : Token String :=
  match w with
  | ['('] => .opening
  | [')'] => .closing
  | w => (operator? w).getD (.genre (String.ofList w))

/-- Reads a token list, without its blank entries. -/
def ofEntries (entries : List String) : List (Token String) :=
  ((entries.map fun s => Text.trim s.toList).filter (· ≠ [])).map ofEntry

/-- Reads a word of a text. An operator is not recognised right before a blank
beyond ASCII. -/
def ofWord (w : List Char) (next : Option Char) : Token String :=
  if next.any Text.isWideBlank then .genre (String.ofList w)
  else (operator? w).getD (.genre (String.ofList w))

/-- The tokens of a text, the last one first, and the word that its last
characters have begun, held in reverse. -/
structure Scan where
  done : List (Token String)
  word : List Char
deriving DecidableEq, Repr

namespace Scan

def start : Scan := ⟨[], []⟩

def endWord (s : Scan) (next : Option Char) : List (Token String) :=
  if s.word = [] then s.done else ofWord s.word.reverse next :: s.done

/-- Takes one character: blanks and parentheses end a word, and a parenthesis
is a token of its own. -/
def step (s : Scan) (c : Char) : Scan :=
  if Text.isBlank c then ⟨s.endWord c, []⟩
  else if c = '(' then ⟨.opening :: s.endWord c, []⟩
  else if c = ')' then ⟨.closing :: s.endWord c, []⟩
  else ⟨s.done, c :: s.word⟩

def finish (s : Scan) : List (Token String) :=
  (s.endWord none).reverse

end Scan

def ofText (text : String) : List (Token String) :=
  (text.toList.foldl Scan.step .start).finish

end Token

namespace Vocabulary

def resolveTokens (v : Vocabulary) (ts : List (Token String)) : List (Token Literal) :=
  ts.map (Token.map v.literal)

def tokenize (v : Vocabulary) (text : String) : List (Token Literal) :=
  v.resolveTokens (Token.ofText text)

def tokenizeList (v : Vocabulary) (entries : List String) : List (Token Literal) :=
  v.resolveTokens (Token.ofEntries entries)

end Vocabulary

end Bookshelf
