import Bookshelf.Decimal

namespace Bookshelf

/-!
# Books

A book has a title, an author, a link, the average of its ratings and their
number, and the genres its readers gave it, as they spelled them.
-/

structure Book where
  title : String
  author : String := ""
  link : String := ""
  averageRating : Decimal := Decimal.zero
  ratingCount : UInt64 := 0
  genres : List String := []
deriving DecidableEq

end Bookshelf
