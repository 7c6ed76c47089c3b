import Bookshelf.Json.Quoted

namespace Bookshelf

/-!
# Writing JSON

A document is a value made to be written. The layout says what stands in front
of each item of a list or record and behind the colon of a field.
-/

namespace Json

inductive Document where
  | null
  | natural (n : Nat)
  | text (s : String)
  | list (items : List Document)
  | record (fields : List (String × Document))

structure Layout where
  /-- The white space in front of an item at a depth. -/
  gap : Nat → List Char
  colonGap : List Char

namespace Layout

def compact : Layout := ⟨fun _ => [], []⟩

/-- An item a line, indented by two spaces for each level. -/
def indented : Layout := ⟨fun depth => '\n' :: List.replicate (2 * depth) ' ', [' ']⟩

end Layout

namespace Document

def quote (s : String) : List Char :=
  '"' :: (Quoted.encode s.toList ++ ['"'])

mutual

/-- Writes a document that stands at a depth. -/
def write (l : Layout) (depth : Nat) : Document → List Char
  | .null => ['n', 'u', 'l', 'l']
  | .natural n => Nat.toDigits 10 n
  | .text s => quote s
  | .list [] => ['[', ']']
  | .list (d :: ds) =>
    '[' :: (l.gap (depth + 1) ++ write l (depth + 1) d ++ writeItems l depth ds)
  | .record [] => ['{', '}']
  | .record ((key, d) :: fs) =>
    '{' :: (l.gap (depth + 1) ++ quote key ++ ':' :: l.colonGap ++ write l (depth + 1) d
      ++ writeFields l depth fs)

/-- Writes the items behind the first and closes the list. -/
def writeItems (l : Layout) (depth : Nat) : List Document → List Char
  | [] => l.gap depth ++ [']']
  | d :: ds => ',' :: (l.gap (depth + 1) ++ write l (depth + 1) d ++ writeItems l depth ds)

/-- Writes the fields behind the first and closes the record. -/
def writeFields (l : Layout) (depth : Nat) : List (String × Document) → List Char
  | [] => l.gap depth ++ ['}']
  | (key, d) :: fs =>
    ',' :: (l.gap (depth + 1) ++ quote key ++ ':' :: l.colonGap ++ write l (depth + 1) d
      ++ writeFields l depth fs)

end

def render (l : Layout) (d : Document) : String :=
  String.ofList (d.write l 0)

end Document

end Json

end Bookshelf
