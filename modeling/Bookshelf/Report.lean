import Bookshelf.Catalog
import Bookshelf.Expression.Parser

namespace Bookshelf

/-!
# Filtering a list of books

A report holds the books that satisfy an expression and have enough ratings,
best rated first, each with its position in the list; books of equal rating
keep their order. Without an expression every book qualifies, and likewise
when the expression is in error; then the report says why.
-/

structure Report where
  ranked : List (Book × Nat)
  error : Option Expression.ParseError
deriving DecidableEq

namespace Report

def matched (r : Report) : List Book :=
  r.ranked.map (·.1)

/-- Where the selected books stand in the list. -/
def positions (r : Report) : List Nat :=
  r.ranked.map (·.2)

def size (r : Report) : Nat :=
  r.ranked.length

/-- Whether a book is rated at least as well as another. -/
def ranksBefore (a b : Book × Nat) : Bool :=
  b.1.averageRating ≤ a.1.averageRating

/-- Selects and ranks the books of a list. -/
def rank (books : List Book) (keep : Book → Bool) : List (Book × Nat) :=
  (books.zipIdx.filter fun p => keep p.1).mergeSort ranksBefore

def satisfies (e : Option Expression) (b : Book) : Bool :=
  match e with
  | none => true
  | some e => e.holds b.genres

/-- Filters a list of books by parsed tokens. -/
def search (books : List Book) (ts : List (Token Literal)) (minimum : UInt64) : Report :=
  let select (e : Option Expression) : List (Book × Nat) :=
    rank books fun b => satisfies e b && minimum ≤ b.ratingCount
  match Expression.parse? ts with
  | .ok e => ⟨select e, none⟩
  | .error err => ⟨select none, some err⟩

/-- Filters a list of books by an expression whose genres are in a vocabulary. -/
def filter (books : List Book) (v : Vocabulary) (text : String) (minimum : UInt64) : Report :=
  search books (v.tokenize text) minimum

end Report

namespace Catalog

def filter (c : Catalog) (text : String) (minimum : UInt64) : Report :=
  Report.filter c.books c.vocabulary text minimum

def filterEntries (c : Catalog) (entries : List String) (minimum : UInt64) : Report :=
  Report.search c.books (c.vocabulary.tokenizeList entries) minimum

end Catalog

end Bookshelf
