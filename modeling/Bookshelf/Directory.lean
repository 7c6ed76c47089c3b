namespace Bookshelf

/-!
# Directories

A directory holds files by name. A path names a file relative to it. Slashes
part the path into names; on the way to the last one, an empty name and `.`
stay where one is, so many paths lead to the same file. Paths that lead out of
the directory find nothing in it.
-/

/-- The files of a directory, the last one written first. -/
structure Directory where
  files : List (String × ByteArray)

namespace Directory

def empty : Directory := ⟨[]⟩

def write (d : Directory) (path : String) (bytes : ByteArray) : Directory :=
  ⟨(path, bytes) :: d.files⟩

/-- The largest number of octets in a path. -/
def maxPathSize : Nat := 4095

/-- The names of a path. Every slash ends one. -/
def names : List Char → List (List Char)
  | [] => [[]]
  | c :: cs =>
    if c = '/' then [] :: names cs
    else
      match names cs with
      | [] => [[c]]
      | n :: ns => (c :: n) :: ns

/-- A name that stays in the directory where it is looked up. -/
def stays (name : List Char) : Bool :=
  name = [] || name = ['.']

/-- The way to a file: the names of its path without those that stay on the
way. The last name counts in any case, since a path that ends in one that stays
leads to a directory. A path with a slash in front starts elsewhere. -/
def way? (path : String) : Option (List (List Char)) :=
  if path.utf8ByteSize > maxPathSize ∨ path.toList.head? = some '/' then none
  else
    let ns := names path.toList
    some (ns.dropLast.filter (!stays ·) ++ ns.getLast?.toList)

def read? (d : Directory) (path : String) : Option ByteArray :=
  (way? path).bind fun way => (d.files.find? fun f => way? f.1 == some way).map (·.2)

theorem read?_write (d : Directory) {path other : String} (bytes : ByteArray)
    {way : List (List Char)} (h : way? path = some way) (ho : way? other = some way) :
    (d.write path bytes).read? other = some bytes := by
  simp [read?, write, h, ho]

end Directory

end Bookshelf
