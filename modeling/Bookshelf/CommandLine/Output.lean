import Bookshelf.Session

namespace Bookshelf

/-!
# What the program prints

A page of books is printed as a table or as a JSON record, and the genres of a
catalog as a list with their numbers of books.
-/

namespace CommandLine

def alignRight (width : Nat) (s : String) : String :=
  String.ofList (s.toList.leftpad width ' ')

/-- A text below the titles of a table. -/
def underTitle (s : String) : String :=
  String.ofList (List.replicate 19 ' ') ++ s

def unlines (lines : List String) : String :=
  String.join (lines.map (· ++ "\n"))

def bookLines (b : Book) : List String :=
  [alignRight 5 (toString b.averageRating) ++ "  "
      ++ alignRight 10 (toString b.ratingCount.toNat) ++ "  " ++ b.title ++ " by " ++ b.author,
    underTitle (String.intercalate ", " b.genres)]
    ++ (if b.link = "" then [] else [underTitle b.link])

def barLines (cs : List Pagination.Control) : List String :=
  if cs = [] then [] else ["", Pagination.Control.renderBar cs]

def table (v : View) : String :=
  unlines
    (["Total Books: " ++ toString v.totalBooks,
        "Filtered Results: " ++ toString v.filteredBooks, ""]
      ++ v.books.flatMap bookLines ++ barLines v.controls)

def pageDocument (v : View) : Json.Document :=
  .record
    [("total_books", .natural v.totalBooks),
      ("filtered_books", .natural v.filteredBooks),
      ("page", .natural v.page),
      ("total_pages", .natural v.totalPages),
      ("error", (v.report.error.map fun e => Json.Document.text e.message).getD .null),
      ("books", .list (v.books.map Book.document))]

def pageJson (v : View) : String :=
  (pageDocument v).render .indented ++ "\n"

/-- The genres with their numbers of books. -/
def genreList (c : Catalog) : String :=
  unlines (c.vocabulary.listing.map fun e => alignRight 6 (toString e.books) ++ "  " ++ e.name)

end CommandLine

end Bookshelf
