namespace Bookshelf

/-!
# Binary doubles

A finite double is a sign and a significand of 53 bits, times a power of two
no smaller than `2 ^ -1074`. An operation gives the double nearest to the exact
result; of two equally near ones, that with the even significand. A significand
is put to a power of ten by such operations, so it is rounded more than once,
and the outcome need not be the double nearest to the number that was written.
-/

structure Double where
  negative : Bool
  significand : Nat
  exponent : Int
deriving DecidableEq, Repr

namespace Double

def zero (negative : Bool) : Double := ⟨negative, 0, -1074⟩

/-- The quotient nearest to `a / b`, the even one if two are equally near. -/
def roundDiv (a b : Nat) : Nat :=
  let q := a / b
  let r := a % b
  if 2 * r < b then q
  else if b < 2 * r then q + 1
  else if q % 2 = 0 then q
  else q + 1

/-- The exponent at which `a / b` has 53 binary digits before the point, or the
least exponent. -/
def unitExponent (a b : Nat) : Int :=
  let q : Int := (a.log2 : Int) - b.log2 - 53
  let fits := a <<< (-q).toNat < (b <<< q.toNat) <<< 53
  max (if fits then q else q + 1) (-1074)

/-- The double nearest to `a / b`. The exponent of one that is too large is out
of range. -/
def ofRatio (negative : Bool) (a b : Nat) : Double :=
  if a = 0 then zero negative
  else
    let q := unitExponent a b
    let m := roundDiv (a <<< (-q).toNat) (b <<< q.toNat)
    if m = Nat.pow 2 53 then ⟨negative, Nat.pow 2 52, q + 1⟩ else ⟨negative, m, q⟩

def isFinite (d : Double) : Bool :=
  d.exponent ≤ 971

/-- The double nearest to `a / b * 2 ^ e`. -/
def ofScaled (negative : Bool) (a b : Nat) (e : Int) : Double :=
  ofRatio negative (a <<< e.toNat) (b <<< (-e).toNat)

def mul (x y : Double) : Double :=
  ofScaled (x.negative != y.negative) (x.significand * y.significand) 1 (x.exponent + y.exponent)

def div (x y : Double) : Double :=
  ofScaled (x.negative != y.negative) x.significand y.significand (x.exponent - y.exponent)

def ofNat (n : Nat) : Double :=
  ofRatio false n 1

/-- The largest power of ten that is a factor of its own. -/
def maxPower : Nat := 308

def powerOfTen (n : Nat) : Double :=
  ofNat (Nat.pow 10 n)

/-- Divides by the largest power of ten `k` times, unless it comes to zero, and
then by `10 ^ r`. -/
def shrink (r : Nat) : Nat → Double → Double
  | 0, d => d.div (powerOfTen r)
  | k + 1, d => if d.significand = 0 then d else shrink r k (d.div (powerOfTen maxPower))

/-- The double for `m * 10 ^ e`, unless it is too large. -/
def ofScientific? (negative : Bool) (m : Nat) : Int → Option Double
  | .ofNat n =>
    if n ≤ maxPower then
      let d := (ofNat m).mul (powerOfTen n)
      if d.isFinite then some { d with negative } else none
    else if m = 0 then some (zero negative)
    else none
  | .negSucc n => some { shrink (n % maxPower + 1) (n / maxPower) (ofNat m) with negative }

def whole (d : Double) : Nat :=
  d.significand <<< d.exponent.toNat >>> (-d.exponent).toNat

end Double

end Bookshelf
