import Bookshelf.Decimal
import Bookshelf.Text.Blank
import Bookshelf.Text.Digits

namespace Bookshelf

/-!
# Reading decimals

A decimal is written with an optional sign, digits and at most one point.
Underscores may stand anywhere behind the first digit. Places that do not fit
are rounded away, half up, by the first digit that is dropped. An underscore
right behind the last place of a narrow mantissa cuts the rest off instead. The
characters behind a dropped place no longer matter, but each of them must still
be one that a decimal can have. A text that is no plain decimal may still be
one with an exponent, as in `4.5e3`.
-/

namespace Decimal

/-- The digits of a decimal read so far: `full` once digits are dropped. -/
structure Reading where
  mantissa : Nat
  scale : Nat
  point : Bool
  started : Bool
  full : Bool
deriving DecidableEq, Repr

namespace Reading

def start : Reading := ⟨0, 0, false, false, false⟩

/-- Rounds by the first digit that does not fit. A mantissa that rounds out of
its range gives up its last place. -/
def round (p : Reading) (digit : Nat) : Option Reading :=
  let mantissa := if 5 ≤ digit then p.mantissa + 1 else p.mantissa
  if mantissa < Nat.pow 2 96 then some { p with mantissa, full := true }
  else if p.scale = 0 then none
  else some { p with mantissa := (mantissa + 4) / 10, scale := p.scale - 1, full := true }

/-- Takes one more digit. Digits before the point must all fit. -/
def digit (p : Reading) (digit : Nat) : Option Reading :=
  if p.full then some p
  else if p.point ∧ p.scale = maxScale then p.round digit
  else
    let mantissa := 10 * p.mantissa + digit
    if mantissa < Nat.pow 2 96 then
      some { p with mantissa, scale := if p.point then p.scale + 1 else 0, started := true }
    else if p.point then p.round digit
    else none

/-- A mantissa below this bound is narrow. Without its last digit it lies more
than 255 below a tenth of `2 ^ 64`, so a 64-bit word holds all of it. -/
def narrowBound : Nat := 10 * (Nat.pow 2 64 / 10 - 255)

/-- Takes an underscore. It only separates digits, except behind the last place
of a narrow mantissa, where it closes the decimal with nothing rounded. -/
def separator (p : Reading) : Reading :=
  if p.point ∧ p.scale = maxScale ∧ p.mantissa < narrowBound then { p with full := true } else p

def step (p : Reading) (c : Char) : Option Reading :=
  if c.isDigit then p.digit (c.toNat - '0'.toNat)
  else if c = '.' ∧ ¬p.point then some { p with point := true }
  else if c = '_' ∧ p.started then some p.separator
  else none

end Reading

/-- Takes an optional sign off a text. -/
def splitSign : List Char → Bool × List Char
  | '-' :: cs => (true, cs)
  | '+' :: cs => (false, cs)
  | cs => (false, cs)

/-- Reads a decimal without exponent. Zero has no sign. -/
def plain? (cs : List Char) : Option Decimal := do
  let (negative, body) := splitSign cs
  let p ← body.foldlM Reading.step Reading.start
  if p.started then make? (negative && p.mantissa != 0) p.mantissa p.scale else none

/-- Drops `n` digits of a mantissa, half up by the first of them. -/
def dropDigits (m : Nat) : Nat → Nat
  | 0 => m
  | n + 1 => m / Nat.pow 10 (n + 1) + if 5 ≤ m / Nat.pow 10 n % 10 then 1 else 0

/-- Divides by `10 ^ k`; places beyond the last are rounded away. -/
def shiftDown? (d : Decimal) (k : Nat) : Option Decimal :=
  if maxScale < k then none
  else
    make? d.negative (dropDigits d.mantissa (d.scale + k - maxScale)) (min (d.scale + k) maxScale)

/-- Multiplies by `10 ^ k`, using up the places first. -/
def shiftUp? (d : Decimal) (k : Nat) : Option Decimal :=
  if k ≤ d.scale then make? d.negative d.mantissa (d.scale - k)
  else if maxScale < k then none
  else make? d.negative (d.mantissa * Nat.pow 10 (k - d.scale)) 0

def isExponentMark (c : Char) : Bool :=
  c == 'e' || c == 'E'

def scientific? (cs : List Char) : Option Decimal :=
  match cs.dropWhile (!isExponentMark ·) with
  | [] => none
  | _ :: exponent => do
    let base ← plain? (cs.takeWhile (!isExponentMark ·))
    match exponent with
    | '-' :: ds => base.shiftDown? (← Text.natural? (Nat.pow 2 32) ds)
    | ds => base.shiftUp? (← Text.natural? (Nat.pow 2 32) ds)

def read? (text : String) : Option Decimal :=
  let cs := Text.trim text.toList
  (plain? cs).or (scientific? cs)

end Decimal

end Bookshelf
