import Bookshelf.Text.Blank
import Bookshelf.Text.Digits

namespace Bookshelf

/-!
# Rating counts

A rating count is a 64-bit word. It is read strictly from a dataset, where a
text that is no number has no value, and leniently from a user, whose text
always sets some threshold.
-/

namespace Count

def isSeparator (c : Char) : Bool :=
  c == ',' || c == '_'

/-- Reads a count such as `1,234,567`. Separators may stand anywhere. -/
def read? (text : String) : Option UInt64 :=
  let cs := (Text.trim text.toList).filter (!isSeparator ·)
  (Text.natural? UInt64.size cs).map UInt64.ofNat

/-- The digits that open a text once its commas are dropped. -/
def leadingDigits (text : String) : List Char :=
  ((Text.trim text.toList).filter (· != ',')).takeWhile Char.isDigit

/-- Reads a threshold: the leading digits count, all else is ignored, and a
number that is too large becomes the largest count. -/
def threshold (text : String) : UInt64 :=
  UInt64.ofNatClamp (Nat.ofDigitChars 10 (leadingDigits text) 0)

end Count

end Bookshelf
