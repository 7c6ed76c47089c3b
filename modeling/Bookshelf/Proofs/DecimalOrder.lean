import Bookshelf.Decimal
import Mathlib.Algebra.Order.Field.Basic
import Mathlib.Data.Rat.Cast.Order
import Mathlib.Tactic.Positivity

namespace Bookshelf

/-!
# The order of decimals

Decimals compare as the rational numbers that they write, whatever their
places. Two decimals that differ in trailing zeros have the same value.
-/

namespace Decimal

def value (d : Decimal) : ℚ :=
  d.signed / 10 ^ d.scale

theorem le_iff_value_le {a b : Decimal} : a ≤ b ↔ a.value ≤ b.value := by
  have ha : (0 : ℚ) < 10 ^ a.scale := by positivity
  have hb : (0 : ℚ) < 10 ^ b.scale := by positivity
  have hint : a ≤ b ↔ a.signed * (10 ^ b.scale : ℕ) ≤ b.signed * (10 ^ a.scale : ℕ) := Iff.rfl
  rw [hint, value, value, div_le_div_iff₀ ha hb]
  exact_mod_cast Iff.rfl

end Decimal

end Bookshelf
