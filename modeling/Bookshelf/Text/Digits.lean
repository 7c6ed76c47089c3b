namespace Bookshelf

/-!
# Digit strings

A natural number is written with one or more ASCII digits, possibly behind a
plus sign. Readers of bounded numbers refuse a value that reaches the bound.
-/

namespace Text

/-- The number that the digits write, unless there are none or one of them is no digit. -/
def digits? (cs : List Char) : Option Nat :=
  if cs ≠ [] ∧ cs.all Char.isDigit then some (Nat.ofDigitChars 10 cs 0) else none

/-- Drops one leading plus sign. -/
def dropPlus : List Char → List Char
  | '+' :: cs => cs
  | cs => cs

/-- Reads an optional plus sign and digits whose value stays below `bound`. -/
def natural? (bound : Nat) (cs : List Char) : Option Nat :=
  (digits? (dropPlus cs)).filter (· < bound)

theorem lt_of_natural? {bound n : Nat} {cs : List Char} (h : natural? bound cs = some n) :
    n < bound := by
  simpa using (Option.filter_eq_some_iff.1 h).2

@[simp] theorem digits?_toDigits (n : Nat) : digits? (Nat.toDigits 10 n) = some n := by
  have hall : (Nat.toDigits 10 n).all Char.isDigit = true :=
    List.all_eq_true.2 fun _ hc => Nat.isDigit_of_mem_toDigits (by decide) (by decide) hc
  simp [digits?, hall]

end Text

end Bookshelf
