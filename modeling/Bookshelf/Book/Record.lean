import Bookshelf.Book
import Bookshelf.Count
import Bookshelf.Decimal.Binary
import Bookshelf.Decimal.Reader
import Bookshelf.Json.Document
import Bookshelf.Json.Reader

namespace Bookshelf

/-!
# Books as JSON

A dataset writes a book as an object or as the array of its fields in order.
Every field may be missing. Ratings are read leniently: a number or text that
makes no rating counts as zero, and only a value of another kind spoils the
book. A book is written as an object with its average rating as text, so that
the places of the rating are kept.
-/

namespace Book

inductive Field where
  | title
  | author
  | link
  | averageRating
  | ratingCount
  | genres
deriving DecidableEq, Repr

namespace Field

/-- The fields in the order in which an array lists them. -/
def all : List Field :=
  [.title, .author, .link, .averageRating, .ratingCount, .genres]

def key : Field → String
  | .title => "Title"
  | .author => "Author"
  | .link => "Link"
  | .averageRating => "Avg Rating"
  | .ratingCount => "Num Ratings"
  | .genres => "Genres"

def index : Field → Nat
  | .title => 0
  | .author => 1
  | .link => 2
  | .averageRating => 3
  | .ratingCount => 4
  | .genres => 5

end Field

/-- The count that a double stands for: its whole part, within the range of counts. -/
def countOfDouble (d : Double) : UInt64 :=
  if d.negative then 0 else UInt64.ofNatClamp d.whole

def readText? : Json → Option String
  | .text s => some s
  | _ => none

def readAverage? : Json → Option Decimal
  | .null => some Decimal.zero
  | .number (.word n) => some (Decimal.ofWord n)
  | .number (.double d) => some ((Decimal.ofDouble? d).getD Decimal.zero)
  | .text s => some ((Decimal.read? s).getD Decimal.zero)
  | _ => none

def readCount? : Json → Option UInt64
  | .null => some 0
  | .number (.word n) => some n
  | .number (.double d) => some (countOfDouble d)
  | .text s => some ((Count.read? s).getD 0)
  | _ => none

def readGenres? : Json → Option (List String)
  | .null => some []
  | .array items => items.mapM readText?
  | _ => none

def readOr {α : Type} (default : α) (read : Json → Option α) : Option Json → Option α
  | none => some default
  | some v => read v

/-- Puts a book together from the values of its fields, where there are any. -/
def ofFields? (field : Field → Option Json) : Option Book := do
  let title ← readOr "" readText? (field .title)
  let author ← readOr "" readText? (field .author)
  let link ← readOr "" readText? (field .link)
  let averageRating ← readOr Decimal.zero readAverage? (field .averageRating)
  let ratingCount ← readOr 0 readCount? (field .ratingCount)
  let genres ← readOr [] readGenres? (field .genres)
  return ⟨title, author, link, averageRating, ratingCount, genres⟩

/-- Reads a book from a JSON value. The last of repeated keys counts. -/
def ofJson? : Json → Option Book
  | .object members => ofFields? fun f => Json.last? members f.key
  | .array items =>
    if items.length ≤ Field.all.length then ofFields? fun f => items[f.index]? else none
  | _ => none

/-- Whether the keys of an object can be read and no field is given twice. -/
def hasPlainKeys (members : List (Option String × Json)) : Bool :=
  members.all (·.1.isSome) && Field.all.all fun f => members.countP (·.1 == some f.key) ≤ 1

/-- Reads a book from a text of its own. Here a repeated field is an error,
while members that are no fields need only be well formed. -/
def ofText? (text : String) : Option Book :=
  match Json.read? text with
  | some (.object members) =>
    if hasPlainKeys members then ofJson? (.object members) else none
  | some v => ofJson? v
  | none => none

def document (b : Book) : Json.Document :=
  .record
    [(Field.title.key, .text b.title),
      (Field.author.key, .text b.author),
      (Field.link.key, .text b.link),
      (Field.averageRating.key, .text (toString b.averageRating)),
      (Field.ratingCount.key, .natural b.ratingCount.toNat),
      (Field.genres.key, .list (b.genres.map .text))]

def toJson (b : Book) : String :=
  b.document.render .compact

end Book

end Bookshelf
