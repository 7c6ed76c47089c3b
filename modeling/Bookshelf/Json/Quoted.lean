namespace Bookshelf

/-!
# Quoted text

Between quotation marks a backslash starts an escape, and the characters below
U+0020 must be escaped. The escape of a code unit may name half of a surrogate
pair: such text is well formed, but it has a meaning only where the two halves
stand together.
-/

namespace Json.Quoted

/-- One item of quoted text. -/
inductive Item where
  | char (c : Char)
  /-- Half of a surrogate pair, from its escape. -/
  | half (unit : Nat)
deriving DecidableEq, Repr

def hexValue? (c : Char) : Option Nat :=
  if c.isDigit then some (c.toNat - '0'.toNat)
  else if 'a' ≤ c ∧ c ≤ 'f' then some (c.toNat - 'a'.toNat + 10)
  else if 'A' ≤ c ∧ c ≤ 'F' then some (c.toNat - 'A'.toNat + 10)
  else none

/-- The code unit of four hexadecimal digits. -/
def unit? (a b c d : Char) : Option Nat := do
  let a ← hexValue? a
  let b ← hexValue? b
  let c ← hexValue? c
  let d ← hexValue? d
  return ((a * 16 + b) * 16 + c) * 16 + d

def Item.ofUnit (n : Nat) : Item :=
  if 0xD800 ≤ n ∧ n < 0xE000 then .half n else .char (Char.ofNat n)

/-- The character that a backslash and one letter stand for. -/
def escaped? (c : Char) : Option Char :=
  match c with
  | '"' => some '"'
  | '\\' => some '\\'
  | '/' => some '/'
  | 'b' => some (Char.ofNat 0x08)
  | 'f' => some (Char.ofNat 0x0C)
  | 'n' => some '\n'
  | 'r' => some '\r'
  | 't' => some '\t'
  | _ => none

def mustEscape (c : Char) : Bool :=
  c == '"' || c == '\\' || c.toNat < 0x20

/-- Reads items behind those of `done`, which are held in reverse. -/
def itemsBehind? (done : List Item) : List Char → Option (List Item)
  | [] => some done.reverse
  | '\\' :: 'u' :: a :: b :: c :: d :: cs =>
    match unit? a b c d with
    | some n => itemsBehind? (.ofUnit n :: done) cs
    | none => none
  | '\\' :: e :: cs =>
    match escaped? e with
    | some c => itemsBehind? (.char c :: done) cs
    | none => none
  | c :: cs => if mustEscape c then none else itemsBehind? (.char c :: done) cs

/-- The items of the text between quotation marks, if it is well formed. -/
def items? (cs : List Char) : Option (List Item) :=
  itemsBehind? [] cs

/-- The character of a surrogate pair. -/
def pair? (high low : Nat) : Option Char :=
  if high < 0xDC00 ∧ 0xDC00 ≤ low then
    some (Char.ofNat (0x10000 + (high - 0xD800) * 0x400 + (low - 0xDC00)))
  else none

/-- Joins items behind the characters of `done`, which are held in reverse. -/
def textBehind? (done : List Char) : List Item → Option (List Char)
  | [] => some done.reverse
  | .char c :: is => textBehind? (c :: done) is
  | .half high :: .half low :: is =>
    match pair? high low with
    | some c => textBehind? (c :: done) is
    | none => none
  | .half _ :: _ => none

/-- The text of the items, unless half of a surrogate pair stands alone. -/
def text? (is : List Item) : Option (List Char) :=
  textBehind? [] is

/-- Writes one character between quotation marks. -/
def encodeChar (c : Char) : List Char :=
  if c = '"' then ['\\', '"']
  else if c = '\\' then ['\\', '\\']
  else if c.toNat < 0x20 then
    match c.toNat with
    | 0x08 => ['\\', 'b']
    | 0x09 => ['\\', 't']
    | 0x0A => ['\\', 'n']
    | 0x0C => ['\\', 'f']
    | 0x0D => ['\\', 'r']
    | n => ['\\', 'u', '0', '0', Nat.digitChar (n / 16), Nat.digitChar (n % 16)]
  else [c]

def encode (cs : List Char) : List Char :=
  cs.flatMap encodeChar

end Json.Quoted

end Bookshelf
