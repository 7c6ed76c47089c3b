namespace Bookshelf

/-!
# Decimal numbers

A decimal has a sign, a mantissa of 96 bits and up to 28 places after the
point. The places are part of the number as it is written, so `4.1` and `4.10`
are two decimals, but they compare as the same quantity.
-/

structure Decimal where
  negative : Bool
  mantissa : Nat
  scale : Nat
  mantissa_lt : mantissa < Nat.pow 2 96
  scale_le : scale ≤ 28
deriving DecidableEq

namespace Decimal

def maxScale : Nat := 28

/-- A decimal with the given parts, if they fit. -/
def make? (negative : Bool) (mantissa scale : Nat) : Option Decimal :=
  if h : mantissa < Nat.pow 2 96 ∧ scale ≤ 28 then some ⟨negative, mantissa, scale, h.1, h.2⟩ else none

@[simp] theorem make?_self (d : Decimal) : make? d.negative d.mantissa d.scale = some d :=
  dif_pos ⟨d.mantissa_lt, d.scale_le⟩

def zero : Decimal := ⟨false, 0, 0, by decide, by decide⟩

def ofWord (n : UInt64) : Decimal :=
  ⟨false, n.toNat, 0, Nat.lt_trans n.toNat_lt (by decide), by decide⟩

def signed (d : Decimal) : Int :=
  if d.negative then -d.mantissa else d.mantissa

/-- The order of the quantities, whatever their places. -/
instance : LE Decimal :=
  ⟨fun a b => a.signed * Nat.pow 10 b.scale ≤ b.signed * Nat.pow 10 a.scale⟩

instance (a b : Decimal) : Decidable (a ≤ b) :=
  inferInstanceAs (Decidable (a.signed * Nat.pow 10 b.scale ≤ b.signed * Nat.pow 10 a.scale))

/-- The digits of the mantissa, at least one of them before the point. -/
def digits (d : Decimal) : List Char :=
  (Nat.toDigits 10 d.mantissa).leftpad (d.scale + 1) '0'

/-- Writes a decimal with all its places and no point when it has none. -/
def toChars (d : Decimal) : List Char :=
  let whole := d.digits.length - d.scale
  (if d.negative then ['-'] else [])
    ++ d.digits.take whole
    ++ (if d.scale = 0 then [] else '.' :: d.digits.drop whole)

instance : ToString Decimal := ⟨fun d => String.ofList d.toChars⟩

end Decimal

end Bookshelf
