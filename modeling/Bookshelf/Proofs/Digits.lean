import Bookshelf.Text.Blank
import Bookshelf.Text.Digits
import Mathlib.Data.List.Basic
import Mathlib.Data.List.TakeWhile

namespace Bookshelf

/-!
# Digits

The digits of a number are decimal digits without a superfluous zero in front,
and a decimal digit is one of ten characters, none of which is blank. So they
read back as the number.
-/

namespace Digits

theorem isDigit_of_mem_toDigits {n : Nat} : ∀ c ∈ Nat.toDigits 10 n, c.isDigit = true :=
  fun _ hc => Nat.isDigit_of_mem_toDigits (by decide) (by decide) hc

theorem notMem_of_isDigit {cs : List Char} (hcs : ∀ c ∈ cs, c.isDigit = true) {d : Char}
    (hd : d.isDigit = false) : d ∉ cs := by
  intro hmem
  rw [hcs d hmem] at hd
  cases hd

theorem head?_toDigits_ne_zero {n : Nat} (hn : 0 < n) : (Nat.toDigits 10 n).head? ≠ some '0' := by
  induction n using Nat.strongRecOn with
  | ind n ih =>
      by_cases hsmall : n < 10
      · rw [Nat.toDigits_of_lt_base hsmall]
        have hdigit : ∀ m < 10, 0 < m → [Nat.digitChar m].head? ≠ some '0' := by decide
        exact hdigit n hsmall hn
      · rw [Nat.toDigits_of_base_le (by decide) (by omega),
          List.head?_append_of_ne_nil _ Nat.toDigits_ne_nil]
        exact ih (n / 10) (by omega) (by omega)

theorem le_ofDigitChars (cs : List Char) (n : Nat) : n ≤ Nat.ofDigitChars 10 cs n := by
  rw [Nat.ofDigitChars_eq_ofDigitChars_zero]
  have hpow : 1 ≤ 10 ^ cs.length := Nat.one_le_pow _ _ (by decide)
  have hmul := Nat.mul_le_mul_right n hpow
  omega

theorem ofDigitChars_le_of_prefix {cs ds : List Char} (h : cs <+: ds) :
    Nat.ofDigitChars 10 cs 0 ≤ Nat.ofDigitChars 10 ds 0 := by
  obtain ⟨rest, rfl⟩ := h
  rw [Nat.ofDigitChars_append]
  exact le_ofDigitChars rest _

theorem exists_digitChar_of_isDigit {c : Char} (h : c.isDigit = true) :
    ∃ n < 10, Nat.digitChar n = c := by
  have hdigit : ∀ n < 10, Nat.digitChar n = Char.ofNat (48 + n) := by decide
  obtain ⟨hlower, hupper⟩ : 48 ≤ c.toNat ∧ c.toNat ≤ 57 := by
    simpa [Char.isDigit, UInt32.le_iff_toNat_le] using h
  refine ⟨c.toNat - 48, by omega, ?_⟩
  have hsum : 48 + (c.toNat - 48) = c.toNat := by omega
  rw [hdigit _ (by omega), hsum, Char.ofNat_toNat]

/-- What holds of the ten digits holds of every digit. -/
theorem of_isDigit {P : Char → Prop} (h : ∀ n < 10, P (Nat.digitChar n)) {c : Char}
    (hc : c.isDigit = true) : P c := by
  obtain ⟨n, hn, rfl⟩ := exists_digitChar_of_isDigit hc
  exact h n hn

theorem isBlank_eq_false_of_isDigit {c : Char} (h : c.isDigit = true) : Text.isBlank c = false :=
  of_isDigit (P := fun c => Text.isBlank c = false) (by decide) h

end Digits

namespace Text

theorem dropWhile_isBlank_of_forall {cs : List Char} (hcs : ∀ c ∈ cs, isBlank c = false) :
    cs.dropWhile isBlank = cs := by
  cases cs with
  | nil => rfl
  | cons c cs => exact List.dropWhile_cons_of_neg (by simp [hcs c List.mem_cons_self])

/-- Blanks around a text without blanks are trimmed. -/
theorem trim_append {front cs back : List Char} (hfront : ∀ c ∈ front, isBlank c = true)
    (hcs : ∀ c ∈ cs, isBlank c = false) (hback : ∀ c ∈ back, isBlank c = true) :
    trim (front ++ cs ++ back) = cs := by
  have hbackward : ∀ c ∈ back.reverse, isBlank c = true :=
    fun c hc => hback c (List.mem_reverse.mp hc)
  have hreverse : ∀ c ∈ cs.reverse, isBlank c = false :=
    fun c hc => hcs c (List.mem_reverse.mp hc)
  rw [trim, trimStart, List.append_assoc, List.dropWhile_append_of_pos hfront]
  cases cs with
  | nil =>
      rw [List.nil_append, List.dropWhile_eq_nil_iff.mpr hback]
      rfl
  | cons c cs =>
      have hc : ¬ isBlank c = true := by simp [hcs c List.mem_cons_self]
      rw [List.cons_append, List.dropWhile_cons_of_neg hc, ← List.cons_append, trimEnd,
        List.reverse_append, List.dropWhile_append_of_pos hbackward,
        dropWhile_isBlank_of_forall hreverse, List.reverse_reverse]

/-- A text without blanks is trimmed already. -/
theorem trim_eq_self {cs : List Char} (hcs : ∀ c ∈ cs, isBlank c = false) : trim cs = cs := by
  have h := trim_append (List.forall_mem_nil _) hcs (List.forall_mem_nil _)
  rwa [List.nil_append, List.append_nil] at h

theorem mem_of_mem_trim {cs : List Char} {c : Char} (h : c ∈ trim cs) : c ∈ cs := by
  have hend : c ∈ (trimStart cs).reverse.dropWhile isBlank := List.mem_reverse.mp h
  have hstart := List.mem_reverse.mp ((List.dropWhile_sublist isBlank).mem hend)
  exact (List.dropWhile_sublist isBlank).mem hstart

/-! ## Numbers, written and read -/

theorem dropPlus_cases (cs : List Char) : dropPlus cs = cs ∨ cs = '+' :: dropPlus cs := by
  unfold dropPlus
  split
  · exact Or.inr rfl
  · exact Or.inl rfl

theorem dropPlus_of_notMem {cs : List Char} (h : '+' ∉ cs) : dropPlus cs = cs := by
  rcases dropPlus_cases cs with hself | hplus
  · exact hself
  · exact (h (hplus ▸ List.mem_cons_self)).elim

theorem dropPlus_of_isDigit {cs : List Char} (hcs : ∀ c ∈ cs, c.isDigit = true) :
    dropPlus cs = cs :=
  dropPlus_of_notMem (Digits.notMem_of_isDigit hcs rfl)

theorem digits?_eq_some_iff {cs : List Char} {n : Nat} :
    digits? cs = some n ↔
      (cs ≠ [] ∧ ∀ c ∈ cs, c.isDigit = true) ∧ Nat.ofDigitChars 10 cs 0 = n := by
  rw [digits?, Option.ite_none_right_eq_some, List.all_eq_true, Option.some_inj]

theorem natural?_toDigits {bound n : Nat} (h : n < bound) :
    natural? bound (Nat.toDigits 10 n) = some n := by
  rw [natural?, dropPlus_of_isDigit Digits.isDigit_of_mem_toDigits, digits?_toDigits,
    Option.filter_some]
  simp only [decide_eq_true h, if_true]

end Text

end Bookshelf
