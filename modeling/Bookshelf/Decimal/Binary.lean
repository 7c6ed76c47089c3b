import Bookshelf.Decimal
import Bookshelf.Double

namespace Bookshelf

/-!
# Doubles as decimals

A double that is whole becomes the decimal of its exact value. Any other is
expanded in powers of ten within 96 bits and 28 places and then cut to the 15
or 16 digits that a double can vouch for, so that the double nearest to `0.3`
becomes `0.3`.
-/

namespace Decimal

/-- Divides by ten, half up. -/
def tenth (m : Nat) : Nat :=
  m / 10 + if 5 ≤ m % 10 then 1 else 0

/-- Turns `m / 2 ^ n` into a mantissa over a power of ten: a factor two cancels or
becomes a five, and a bit is lost where that five does not fit. -/
def expand : Nat → Nat → Nat → Nat × Nat
  | m, scale, 0 => (m, scale)
  | m, scale, n + 1 =>
    if m % 2 = 0 ∨ Nat.pow 2 96 ≤ 5 * m then expand (m / 2) (scale - 1) n
    else expand (5 * m) scale n

/-- Drops `n` surplus places one at a time. A mantissa that runs out is zero. -/
def dropPlaces (scale : Nat) : Nat → Nat → Nat × Nat
  | m, 0 => (m, scale)
  | m, n + 1 => if m / 10 = 0 then (0, 0) else dropPlaces scale (tenth m) n

/-- Drops places until the mantissa has no more bits than a double's fraction. -/
def dropExcess : Nat → Nat → Nat × Nat
  | m, 0 => (m, 0)
  | m, scale + 1 => if Nat.pow 2 52 ≤ m then dropExcess (tenth m) scale else (m, scale + 1)

def dropZeros : Nat → Nat → Nat × Nat
  | m, 0 => (m, 0)
  | m, scale + 1 => if m % 10 = 0 then dropZeros (m / 10) scale else (m, scale + 1)

/-- The decimal of a double. A whole double is never rounded, so it has none from
`2 ^ 96` on. -/
def ofDouble? (d : Double) : Option Decimal :=
  match d.exponent with
  | .ofNat n => make? d.negative (d.significand * Nat.pow 2 n) 0
  | .negSucc n =>
    let (m, scale) := expand d.significand (n + 1) (n + 1)
    let (m, scale) := dropPlaces (min scale maxScale) m (scale - maxScale)
    let (m, scale) := dropExcess m scale
    let (m, scale) := dropZeros m scale
    make? d.negative m scale

end Decimal

end Bookshelf
