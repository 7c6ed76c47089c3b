import Bookshelf.Genre
import Mathlib.Data.List.Basic

namespace Bookshelf

/-!
# Blanks in lower case

The small letters of a character are blank exactly if the character is. So a
genre has a blank key exactly if all of its characters are blank.
-/

namespace Text

/-- The ranges of code points in which the blanks lie. -/
def blankRanges : List (Nat × Nat) :=
  [(0x09, 0x0D), (0x20, 0x20), (0x85, 0x85), (0xA0, 0xA0), (0x1680, 0x1680), (0x2000, 0x200A),
    (0x2028, 0x2029), (0x202F, 0x202F), (0x205F, 0x205F), (0x3000, 0x3000)]

/-- No blank lies between the two code points. -/
def IsBlankFree (first last : Nat) : Prop :=
  ∀ r ∈ blankRanges, last < r.1 ∨ r.2 < first

instance (first last : Nat) : Decidable (IsBlankFree first last) :=
  List.decidableBAll _ blankRanges

variable {c d : Char}

theorem isBlank_eq_any (c : Char) :
    isBlank c = blankRanges.any fun r => decide (r.1 ≤ c.toNat ∧ c.toNat ≤ r.2) := by
  rw [Bool.eq_iff_iff]
  simp only [isBlank, blankRanges, List.any_cons, List.any_nil, Bool.or_eq_true, Bool.and_eq_true,
    beq_iff_eq, decide_eq_true_eq, Bool.or_false]
  omega

theorem isBlank_eq_false_of_isBlankFree {first last : Nat} (h : IsBlankFree first last)
    (hfirst : first ≤ c.toNat) (hlast : c.toNat ≤ last) : isBlank c = false := by
  rw [isBlank_eq_any, List.any_eq_false]
  intro r hr
  have hapart := h r hr
  rw [decide_eq_true_eq]
  omega

theorem isBlankFree_capitals : ∀ r ∈ capitals,
    IsBlankFree r.first r.last ∧ IsBlankFree r.target (r.target + (r.last - r.first)) := by
  decide +kernel

theorem forall_ascii {P : Char → Prop} (h : ∀ n < 0x80, P (Char.ofNat n)) (hc : c.toNat < 0x80) :
    P c := by
  have hcode := h c.toNat hc
  rwa [Char.ofNat_toNat] at hcode

theorem isBlank_toLower_of_lt (h : c.toNat < 0x80) : isBlank c.toLower = isBlank c :=
  forall_ascii (P := fun c => isBlank c.toLower = isBlank c) (by decide) h

theorem toNat_ofNat {n : Nat} (h : n.isValidChar) : (Char.ofNat n).toNat = n := by
  rw [Char.ofNat, dif_pos h]
  rfl

theorem isBlank_ofNat_eq_false {n first last : Nat} (h : IsBlankFree first last)
    (hfirst : first ≤ n) (hlast : n ≤ last) : isBlank (Char.ofNat n) = false := by
  by_cases hn : n.isValidChar
  · have hcode := toNat_ofNat hn
    exact isBlank_eq_false_of_isBlankFree h (by omega) (by omega)
  · -- A number that is no code point stands for the null character.
    have hcode : (Char.ofNat n).toNat = 0 := by
      rw [Char.ofNat, dif_neg hn]
      rfl
    have hnull : IsBlankFree 0 0 := by decide
    exact isBlank_eq_false_of_isBlankFree hnull (by omega) (by omega)

theorem bounds_of_covers {r : Capitals} {n : Nat} (h : r.covers n = true) :
    r.first ≤ n ∧ n ≤ r.last := by
  simp only [Capitals.covers, Bool.and_eq_true, decide_eq_true_eq] at h
  exact h.1

theorem isBlank_of_mem_lower (h : d ∈ lower c) : isBlank d = isBlank c := by
  unfold lower at h
  split at h
  · next hascii =>
      obtain rfl := List.mem_singleton.mp h
      exact isBlank_toLower_of_lt hascii
  · split at h
    · next hdotted =>
        have hfree : IsBlankFree 0x130 0x130 := by decide
        have hletters : ∀ d ∈ ['i', Char.ofNat 0x307], isBlank d = false :=
          List.forall_mem_cons.mpr ⟨rfl, List.forall_mem_singleton.mpr rfl⟩
        rw [hletters d h, isBlank_eq_false_of_isBlankFree hfree (by omega) (by omega)]
    · split at h
      · next r hr =>
          obtain rfl := List.mem_singleton.mp h
          have hcovers := List.find?_some hr
          obtain ⟨hfirst, hlast⟩ := bounds_of_covers hcovers
          obtain ⟨hcapital, hsmall⟩ := isBlankFree_capitals r (List.mem_of_find?_eq_some hr)
          rw [isBlank_eq_false_of_isBlankFree hcapital hfirst hlast]
          exact isBlank_ofNat_eq_false hsmall (Nat.le_add_right _ _)
            (Nat.add_le_add_left (Nat.sub_le_sub_right hlast _) _)
      · obtain rfl := List.mem_singleton.mp h
        rfl

end Text

namespace Genre

open Text

theorem isBlankKey_key (name : String) : isBlankKey (key name) = name.toList.all isBlank := by
  rw [Bool.eq_iff_iff, isBlankKey, key, lowered, List.all_eq_true, List.all_eq_true]
  constructor
  · intro h c hc
    obtain ⟨d, hd⟩ := List.exists_mem_of_ne_nil (lower c) (lower_ne_nil c)
    rw [← isBlank_of_mem_lower hd]
    exact h d (List.mem_flatMap.mpr ⟨c, hc, hd⟩)
  · intro h d hd
    obtain ⟨c, hc, hd⟩ := List.mem_flatMap.mp hd
    rw [isBlank_of_mem_lower hd]
    exact h c hc

end Genre

end Bookshelf
