import Bookshelf.Decimal.Reader
import Bookshelf.Proofs.Digits
import Mathlib.Algebra.Order.Ring.Nat
import Mathlib.Data.List.TakeWhile

namespace Bookshelf

/-!
# Decimals, written and read

A decimal is written with all its places, so the reader never runs out of
places or out of the range of a mantissa: nothing is rounded and the decimal
comes back with the same mantissa and scale. Only the sign of a zero is lost.
-/

namespace Decimal

variable {cs : List Char} {c : Char}

namespace Reading

theorem step_of_isDigit (hc : c.isDigit = true) (m s : Nat) (point started : Bool)
    (hroom : point = true → s < maxScale) (hzero : point = false → s = 0)
    (hfits : 10 * m + (c.toNat - '0'.toNat) < Nat.pow 2 96) :
    step ⟨m, s, point, started, false⟩ c =
      some ⟨10 * m + (c.toNat - '0'.toNat), if point then s + 1 else s, point, true, false⟩ := by
  rw [step, if_pos hc]
  generalize c.toNat - '0'.toNat = d at hfits ⊢
  cases point with
  | false =>
      obtain rfl := hzero rfl
      simp only [digit, Bool.false_eq_true, false_and, if_false, if_pos hfits]
  | true =>
      have hs : s ≠ maxScale := (hroom rfl).ne
      simp only [digit, Bool.false_eq_true, hs, and_false, if_false, if_true, if_pos hfits]

theorem foldlM_step_of_isDigit (hcs : ∀ c ∈ cs, c.isDigit = true) (m s : Nat)
    (point started : Bool) (hroom : point = true → s + cs.length ≤ maxScale)
    (hzero : point = false → s = 0) (hfits : Nat.ofDigitChars 10 cs m < Nat.pow 2 96) :
    cs.foldlM step ⟨m, s, point, started, false⟩ =
      some ⟨Nat.ofDigitChars 10 cs m, if point then s + cs.length else s, point,
        started || !cs.isEmpty, false⟩ := by
  induction cs generalizing m s started with
  | nil => cases point <;> simp
  | cons c cs ih =>
      obtain ⟨hc, hcs⟩ := List.forall_mem_cons.mp hcs
      rw [Nat.ofDigitChars_cons] at hfits ⊢
      have hroom' : point = true → s + 1 + cs.length ≤ maxScale := by
        intro hpoint
        have h := hroom hpoint
        rw [List.length_cons] at h
        omega
      have hroom₁ : point = true → s < maxScale := by
        intro hpoint
        have h := hroom' hpoint
        omega
      have hfits₁ := (Digits.le_ofDigitChars cs _).trans_lt hfits
      rw [List.foldlM_cons, step_of_isDigit hc m s point started hroom₁ hzero hfits₁]
      cases point with
      | false =>
          have h := ih hcs _ s true (by simp) hzero hfits
          simpa using h
      | true =>
          have h := ih hcs _ (s + 1) true hroom' (by simp) hfits
          rw [List.length_cons]
          simpa [Nat.add_assoc, Nat.add_comm 1] using h

theorem foldlM_step_eq_none (hc : c ∈ cs) (hdigit : c.isDigit = false) (hpoint : c ≠ '.')
    (hunderscore : c ≠ '_') (p : Reading) : cs.foldlM step p = none := by
  induction cs generalizing p with
  | nil => cases hc
  | cons d cs ih =>
      rw [List.foldlM_cons]
      rcases List.mem_cons.mp hc with rfl | hc
      · have hstep : p.step c = none := by simp [step, hdigit, hpoint, hunderscore]
        rw [hstep]
        rfl
      · cases p.step d with
        | none => rfl
        | some q => exact ih hc q

end Reading

/-- A character that no decimal has spoils the text, also behind the places that fit. -/
theorem plain?_eq_none_of_mem (hc : c ∈ (splitSign cs).2) (hdigit : c.isDigit = false)
    (hpoint : c ≠ '.') (hunderscore : c ≠ '_') : plain? cs = none := by
  unfold plain?
  simp only [Reading.foldlM_step_eq_none hc hdigit hpoint hunderscore]
  rfl

example : plain? "4.12345678901234567890123456789 stars".toList = none := by decide

/-! ## The text of a decimal -/

theorem isDigit_of_mem_digits {d : Decimal} : ∀ c ∈ d.digits, c.isDigit = true := by
  intro c hc
  rcases List.mem_append.mp hc with hc | hc
  · obtain rfl := List.eq_of_mem_replicate hc
    rfl
  · exact Nat.isDigit_of_mem_toDigits (by decide) (by decide) hc

theorem ofDigitChars_digits (d : Decimal) : Nat.ofDigitChars 10 d.digits 0 = d.mantissa := by
  rw [digits, List.leftpad, Nat.ofDigitChars_append, Nat.ofDigitChars_replicate_zero, Nat.mul_zero,
    Nat.ofDigitChars_ten_toDigits]

theorem scale_lt_length_digits (d : Decimal) : d.scale < d.digits.length := by
  have hlength : d.digits.length = max (d.scale + 1) (Nat.toDigits 10 d.mantissa).length :=
    List.length_leftpad
  omega

def wholeDigits (d : Decimal) : List Char :=
  d.digits.take (d.digits.length - d.scale)

def places (d : Decimal) : List Char :=
  d.digits.drop (d.digits.length - d.scale)

theorem wholeDigits_append_places (d : Decimal) : d.wholeDigits ++ d.places = d.digits :=
  List.take_append_drop _ _

theorem isDigit_of_mem_wholeDigits {d : Decimal} (h : c ∈ d.wholeDigits) : c.isDigit = true :=
  isDigit_of_mem_digits c (List.mem_of_mem_take h)

theorem isDigit_of_mem_places {d : Decimal} (h : c ∈ d.places) : c.isDigit = true :=
  isDigit_of_mem_digits c (List.mem_of_mem_drop h)

theorem length_places (d : Decimal) : d.places.length = d.scale := by
  have hscale := d.scale_lt_length_digits
  rw [places, List.length_drop]
  omega

theorem wholeDigits_ne_nil (d : Decimal) : d.wholeDigits ≠ [] := by
  have hscale := d.scale_lt_length_digits
  have hlength : d.wholeDigits.length = d.digits.length - d.scale := by
    rw [wholeDigits, List.length_take]
    omega
  intro hnil
  rw [hnil, List.length_nil] at hlength
  omega

/-- The text behind the sign. -/
def unsignedChars (d : Decimal) : List Char :=
  d.wholeDigits ++ if d.scale = 0 then [] else '.' :: d.places

theorem toChars_eq (d : Decimal) :
    d.toChars = (if d.negative then ['-'] else []) ++ d.unsignedChars := by
  rw [toChars, unsignedChars, List.append_assoc]
  rfl

theorem splitSign_toChars (d : Decimal) : splitSign d.toChars = (d.negative, d.unsignedChars) := by
  rw [toChars_eq]
  cases hsign : d.negative with
  | true => rfl
  | false =>
      obtain ⟨c, cs, hcons⟩ := List.exists_cons_of_ne_nil d.wholeDigits_ne_nil
      have hc : c.isDigit = true := by
        refine isDigit_of_mem_wholeDigits (d := d) ?_
        rw [hcons]
        exact List.mem_cons_self
      have hminus : c ≠ '-' := by
        rintro rfl
        cases hc
      have hplus : c ≠ '+' := by
        rintro rfl
        cases hc
      rw [unsignedChars, hcons]
      simp [splitSign, hminus, hplus]

theorem ofDigitChars_places (d : Decimal) :
    Nat.ofDigitChars 10 d.places (Nat.ofDigitChars 10 d.wholeDigits 0) = d.mantissa := by
  rw [← Nat.ofDigitChars_append, wholeDigits_append_places, ofDigitChars_digits]

theorem ofDigitChars_wholeDigits_le (d : Decimal) :
    Nat.ofDigitChars 10 d.wholeDigits 0 ≤ d.mantissa := by
  rw [← ofDigitChars_places]
  exact Digits.le_ofDigitChars _ _

theorem foldlM_step_wholeDigits (d : Decimal) :
    d.wholeDigits.foldlM Reading.step Reading.start =
      some ⟨Nat.ofDigitChars 10 d.wholeDigits 0, 0, false, true, false⟩ := by
  have h := Reading.foldlM_step_of_isDigit (fun _ => isDigit_of_mem_wholeDigits) 0 0 false false
    (by simp) (fun _ => rfl) (d.ofDigitChars_wholeDigits_le.trans_lt d.mantissa_lt)
  rw [List.isEmpty_eq_false_iff.mpr d.wholeDigits_ne_nil] at h
  exact h

theorem foldlM_step_places (d : Decimal) :
    d.places.foldlM Reading.step ⟨Nat.ofDigitChars 10 d.wholeDigits 0, 0, true, true, false⟩ =
      some ⟨d.mantissa, d.scale, true, true, false⟩ := by
  have hroom : 0 + d.places.length ≤ maxScale := by
    rw [length_places, Nat.zero_add]
    exact d.scale_le
  have hfits :
      Nat.ofDigitChars 10 d.places (Nat.ofDigitChars 10 d.wholeDigits 0) < Nat.pow 2 96 := by
    rw [ofDigitChars_places]
    exact d.mantissa_lt
  have h := Reading.foldlM_step_of_isDigit (fun _ => isDigit_of_mem_places) _ 0 true true
    (fun _ => hroom) (by simp) hfits
  rw [ofDigitChars_places, length_places] at h
  simpa using h

theorem foldlM_step_unsignedChars (d : Decimal) :
    ∃ point, d.unsignedChars.foldlM Reading.step Reading.start =
      some ⟨d.mantissa, d.scale, point, true, false⟩ := by
  have hplaces := d.ofDigitChars_places
  rw [unsignedChars]
  by_cases hscale : d.scale = 0
  · have hnil : d.places = [] := by
      rw [← List.length_eq_zero_iff, length_places, hscale]
    rw [hnil, Nat.ofDigitChars_nil] at hplaces
    refine ⟨false, ?_⟩
    rw [if_pos hscale, List.append_nil, foldlM_step_wholeDigits, hplaces, hscale]
  · have hpoint : Reading.step ⟨Nat.ofDigitChars 10 d.wholeDigits 0, 0, false, true, false⟩ '.' =
        some ⟨Nat.ofDigitChars 10 d.wholeDigits 0, 0, true, true, false⟩ := rfl
    refine ⟨true, ?_⟩
    rw [if_neg hscale, List.foldlM_append, foldlM_step_wholeDigits]
    simpa [hpoint] using d.foldlM_step_places

def isNegativeZero (d : Decimal) : Bool :=
  d.negative && d.mantissa == 0

/-- The decimal without the sign of a zero. Both are the same number, so they
rank alike. -/
def unsignZero (d : Decimal) : Decimal :=
  { d with negative := d.negative && d.mantissa != 0 }

theorem unsignZero_eq_self {d : Decimal} (h : d.isNegativeZero = false) : d.unsignZero = d := by
  have hsign : (d.negative && d.mantissa != 0) = d.negative := by
    cases hnegative : d.negative with
    | false => rfl
    | true => simpa [isNegativeZero, hnegative] using h
  rw [unsignZero, hsign]

theorem plain?_toChars (d : Decimal) : plain? d.toChars = some d.unsignZero := by
  obtain ⟨point, hread⟩ := d.foldlM_step_unsignedChars
  have hmake := make?_self d.unsignZero
  rw [unsignZero] at hmake
  rw [plain?, splitSign_toChars]
  simpa [hread, unsignZero] using hmake

theorem isBlank_eq_false_of_mem_toChars {d : Decimal} :
    ∀ c ∈ d.toChars, Text.isBlank c = false := by
  have hwhole : ∀ c ∈ d.wholeDigits, Text.isBlank c = false :=
    fun _ hc => Digits.isBlank_eq_false_of_isDigit (isDigit_of_mem_wholeDigits hc)
  have hplaces : ∀ c ∈ d.places, Text.isBlank c = false :=
    fun _ hc => Digits.isBlank_eq_false_of_isDigit (isDigit_of_mem_places hc)
  rw [toChars_eq, unsignedChars]
  refine List.forall_mem_append.mpr ⟨?_, List.forall_mem_append.mpr ⟨hwhole, ?_⟩⟩
  · split
    · exact List.forall_mem_singleton.mpr rfl
    · exact List.forall_mem_nil _
  · split
    · exact List.forall_mem_nil _
    · exact List.forall_mem_cons.mpr ⟨rfl, hplaces⟩

/-- A decimal reads back from its text, but a zero without its sign. -/
theorem read?_toString_eq_unsignZero (d : Decimal) : read? (toString d) = some d.unsignZero := by
  have htext : (toString d).toList = d.toChars := String.toList_ofList
  rw [read?, htext, Text.trim_eq_self isBlank_eq_false_of_mem_toChars, plain?_toChars]
  rfl

theorem toString_ofWord (n : UInt64) : toString (ofWord n) = toString n.toNat := by
  have hdigits : (ofWord n).digits = Nat.toDigits 10 n.toNat := by
    have hne : 1 ≤ (Nat.toDigits 10 n.toNat).length := List.length_pos_iff.mpr Nat.toDigits_ne_nil
    have hnone : 1 - (Nat.toDigits 10 n.toNat).length = 0 := by omega
    rw [digits, List.leftpad, ofWord, Nat.zero_add, hnone]
    rfl
  have hchars : (ofWord n).toChars = Nat.toDigits 10 n.toNat := by
    rw [toChars, hdigits]
    simp [ofWord]
  exact congrArg String.ofList hchars

theorem read?_toString_toNat (n : UInt64) : read? (toString n.toNat) = some (ofWord n) := by
  rw [← toString_ofWord, read?_toString_eq_unsignZero]
  rfl

end Decimal

end Bookshelf
