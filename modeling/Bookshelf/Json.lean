import Bookshelf.Json.Numeral

namespace Bookshelf

/-!
# JSON values

A value may contain scalars that are well formed and still mean nothing: text
with half of a surrogate pair, and a numeral beyond all doubles. Whether they
matter is up to the reader of a value, so they are kept as unreadable. The
members of an object are kept in order, repeated keys included.
-/

inductive Json where
  | null
  | bool (value : Bool)
  | number (value : Json.Number)
  | text (value : String)
  | unreadable
  | array (items : List Json)
  | object (members : List (Option String × Json))

namespace Json

mutual

/-- How deep arrays and objects are nested. -/
def depth : Json → Nat
  | .array items => itemsDepth items + 1
  | .object members => membersDepth members + 1
  | _ => 0

def itemsDepth : List Json → Nat
  | [] => 0
  | v :: vs => max (depth v) (itemsDepth vs)

def membersDepth : List (Option String × Json) → Nat
  | [] => 0
  | (_, v) :: ms => max (depth v) (membersDepth ms)

end

mutual

/-- Every scalar and every key means something. -/
def isReadable : Json → Bool
  | .unreadable => false
  | .array items => areReadable items
  | .object members => membersReadable members
  | _ => true

def areReadable : List Json → Bool
  | [] => true
  | v :: vs => isReadable v && areReadable vs

def membersReadable : List (Option String × Json) → Bool
  | [] => true
  | (key, v) :: ms => key.isSome && isReadable v && membersReadable ms

end

/-- A readable value that is nested at most `room` deep. -/
def isSound (room : Nat) (v : Json) : Bool :=
  v.isReadable && v.depth ≤ room

/-- The last value that an object gives to a key. -/
def last? (members : List (Option String × Json)) (key : String) : Option Json :=
  (members.reverse.find? (·.1 == some key)).map (·.2)

/-- What a value is, in words. -/
def kind : Json → String
  | .null => "null"
  | .bool _ => "a boolean"
  | .number _ => "a number"
  | .text _ => "a string"
  | .unreadable => "an unreadable scalar"
  | .array _ => "an array"
  | .object _ => "an object"

end Json

end Bookshelf
