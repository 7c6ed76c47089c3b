import Bookshelf.Text.Blank
import Bookshelf.Text.Lower

namespace Bookshelf

/-!
# Genres

A genre is a name as a book spells it. Two names are the same genre when their
keys, the names in lower case, are equal.
-/

namespace Genre

def key (name : String) : List Char :=
  Text.lowered name.toList

def same (a b : String) : Bool :=
  key a == key b

@[simp] theorem same_iff {a b : String} : same a b = true ↔ key a = key b := by
  simp [same]

/-- A name of blanks only is no genre. -/
def isBlankKey (k : List Char) : Bool :=
  k.all Text.isBlank

/-- The first spelling of every genre in the list. -/
def distinct : List String → List String
  | [] => []
  | g :: gs => g :: (distinct gs).filter (!same g ·)

end Genre

end Bookshelf
