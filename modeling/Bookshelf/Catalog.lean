import Bookshelf.Book.Record
import Bookshelf.Vocabulary

namespace Bookshelf

/-!
# Catalogs

A catalog is a list of books with the vocabulary of their genres. It is loaded
from a JSON array or from one JSON value per line; entries that are no books
are left out.
-/

structure Catalog where
  books : List Book
deriving DecidableEq

namespace Catalog

inductive LoadError where
  /-- The file is missing or not written in UTF-8. -/
  | unreadableFile
  | malformedJson
  | notAnArray (found : String)
deriving DecidableEq, Repr

namespace LoadError

/-- What an error says by itself, without the path and the cause. -/
def message : LoadError → String
  | .unreadableFile => "failed to read"
  | .malformedJson => "failed to decode the dataset"
  | .notAnArray found => "the dataset must be an array of books, found " ++ found

/-- A character of a quoted path. Beyond ASCII all are taken to be printable. -/
def quotedChar (c : Char) : String :=
  match c with
  | '"' => "\\\""
  | '\\' => "\\\\"
  | '\t' => "\\t"
  | '\r' => "\\r"
  | '\n' => "\\n"
  | '\x00' => "\\0"
  | c =>
    if c.toNat < 0x20 ∨ c.toNat = 0x7F then
      "\\u\x7b" ++ String.ofList (Nat.toDigits 16 c.toNat) ++ "\x7d"
    else c.toString

def quotedPath (path : String) : String :=
  "\"" ++ String.join (path.toList.map quotedChar) ++ "\""

/-- The whole message, for a path and a cause that the system or the JSON reader names. -/
def describe (path cause : String) (e : LoadError) : String :=
  match e with
  | .unreadableFile => e.message ++ " " ++ quotedPath path ++ " with " ++ cause
  | .malformedJson => e.message ++ " with " ++ cause
  | .notAnArray _ => e.message

end LoadError

def vocabulary (c : Catalog) : Vocabulary :=
  c.books.foldl (fun v b => v.recordBook b.genres) .empty

def size (c : Catalog) : Nat :=
  c.books.length

/-- The deepest nesting that a dataset may have. -/
def maxDepth : Nat := 127

/-- Loads a JSON array of books. The whole text has to be sound JSON. -/
def ofJson (text : String) : Except LoadError Catalog :=
  match Json.read? text with
  | some v =>
    if v.isSound maxDepth then
      match v with
      | .array items => .ok ⟨items.filterMap Book.ofJson?⟩
      | v => .error (.notAnArray v.kind)
    else .error .malformedJson
  | none => .error .malformedJson

/-- The lines of a text, the last one first, and what follows them, in reverse. -/
structure LineScan where
  done : List (List Char)
  line : List Char
deriving DecidableEq, Repr

namespace LineScan

/-- Drops the carriage return of a line end from a line in reverse. -/
def dropReturn : List Char → List Char
  | '\r' :: w => w
  | w => w

def step (s : LineScan) (c : Char) : LineScan :=
  if c = '\n' then ⟨(dropReturn s.line).reverse :: s.done, []⟩ else ⟨s.done, c :: s.line⟩

/-- Ends the text. What follows the last line end is a line unless it is empty. -/
def finish (s : LineScan) : List (List Char) :=
  (if s.line = [] then s.done else s.line.reverse :: s.done).reverse

end LineScan

def lines (text : String) : List String :=
  (text.toList.foldl LineScan.step ⟨[], []⟩).finish.map String.ofList

/-- Loads one book per line and skips the lines that hold none. -/
def ofLines (text : String) : Catalog :=
  ⟨(lines text).filterMap Book.ofText?⟩

/-- The last component of a path, in reverse. -/
def reversedFileName (path : String) : List Char :=
  path.toList.reverse.takeWhile (· != '/')

/-- What follows the last point of a file name. A point in front starts no extension. -/
def extension? (path : String) : Option String :=
  match (reversedFileName path).dropWhile (· != '.') with
  | _ :: _ :: _ => some (String.ofList ((reversedFileName path).takeWhile (· != '.')).reverse)
  | _ => none

def isLineFile (path : String) : Bool :=
  extension? path = some "jl" || extension? path = some "jsonl"

/-- Loads a file by its path and its bytes, if it exists. -/
def ofFile (path : String) (bytes : Option ByteArray) : Except LoadError Catalog :=
  match bytes.bind String.fromUTF8? with
  | some text => if isLineFile path then .ok (ofLines text) else ofJson text
  | none => .error .unreadableFile

end Catalog

end Bookshelf
