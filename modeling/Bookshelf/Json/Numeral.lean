import Bookshelf.Double
import Bookshelf.Text.Digits

namespace Bookshelf

/-!
# Numerals

A numeral has an optional minus sign, digits without superfluous zeros in
front, and optionally a fraction and an exponent. A numeral of digits only that
fits a 64-bit word stands for that word; any other stands for a double, made of
the leading digits that fit a 64-bit word and a power of ten.
-/

namespace Json

inductive Number where
  | word (n : UInt64)
  | double (d : Double)
deriving DecidableEq, Repr

structure Numeral where
  negative : Bool
  whole : List Char
  fraction : Option (List Char)
  exponent : Option Int
deriving DecidableEq, Repr

namespace Numeral

/-- Splits a text behind its leading digits. -/
def spanDigits (cs : List Char) : List Char × List Char :=
  (cs.takeWhile Char.isDigit, cs.dropWhile Char.isDigit)

def splitMinus : List Char → Bool × List Char
  | '-' :: cs => (true, cs)
  | cs => (false, cs)

/-- Reads a fraction, if there is one; `none` if it lacks digits. -/
def fraction? : List Char → Option (Option (List Char) × List Char)
  | '.' :: cs =>
    let (ds, rest) := spanDigits cs
    if ds = [] then none else some (some ds, rest)
  | cs => some (none, cs)

/-- Reads an exponent with its sign, which ends the numeral. -/
def exponent? : List Char → Option Int
  | '-' :: ds => (Text.digits? ds).map fun n => -(n : Int)
  | ds => (Text.digits? (Text.dropPlus ds)).map fun n => (n : Int)

/-- Reads the rest of a numeral behind its fraction. -/
def ending? : List Char → Option (Option Int)
  | [] => some none
  | c :: cs => if c = 'e' ∨ c = 'E' then (exponent? cs).map some else none

/-- A whole part has a digit, and a zero in front stands alone. -/
def isWhole : List Char → Bool
  | [] => false
  | [_] => true
  | c :: _ => c != '0'

def read? (w : List Char) : Option Numeral := do
  let (negative, cs) := splitMinus w
  let (whole, cs) := spanDigits cs
  if isWhole whole then
    let (fraction, cs) ← fraction? cs
    let exponent ← ending? cs
    return ⟨negative, whole, fraction, exponent⟩
  else none

/-- The word that a numeral of digits only stands for. -/
def word? (n : Numeral) : Option UInt64 :=
  let value := Nat.ofDigitChars 10 n.whole 0
  if n.negative = false ∧ n.fraction = none ∧ n.exponent = none ∧ value < UInt64.size then
    some (UInt64.ofNat value)
  else none

/-- Takes digits into a significand while a 64-bit word holds it, and counts the
digits that are left over. -/
def absorb (m : Nat) : List Char → Nat × Nat
  | [] => (m, 0)
  | d :: ds =>
    let next := 10 * m + (d.toNat - '0'.toNat)
    if next < UInt64.size then absorb next ds else (m, ds.length + 1)

/-- The double that a numeral stands for, unless it is too large. Digits beyond
the significand are ignored, only the place of the point counts. -/
def double? (n : Numeral) : Option Double :=
  let places := n.fraction.getD []
  let e := n.exponent.getD 0
  let (m, more) := absorb 0 n.whole
  let (m, ignored) := absorb m places
  if e.natAbs < Nat.pow 2 31 then
    Double.ofScientific? n.negative m (e + more + ignored - places.length)
  else if m = 0 ∨ e < 0 then some (Double.zero n.negative)
  else none

def number? (n : Numeral) : Option Number :=
  match n.word? with
  | some w => some (.word w)
  | none => n.double?.map .double

end Numeral

end Json

end Bookshelf
