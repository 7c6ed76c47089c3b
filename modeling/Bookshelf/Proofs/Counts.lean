import Bookshelf.Count
import Bookshelf.Proofs.Digits

namespace Bookshelf

/-!
# Counts in a text

A count and a threshold are read from the same texts by different rules. The
digits of the threshold are the first ones of the count, so it is never larger.
Where a number is written with commas, zeros in front and blanks around it, both
readers find all of its digits and differ only beyond the largest count.
-/

namespace Count

open Text

/-! ## The digits of a count -/

section

variable {t : String} {n : UInt64}

/-- A trimmed text without its separators. -/
def content (t : String) : List Char :=
  (trim t.toList).filter (!isSeparator ·)

theorem content_eq (t : String) :
    content t = ((trim t.toList).filter (· != ',')).filter (· != '_') := by
  rw [content, List.filter_filter]
  apply List.filter_congr
  intro c _
  simp [isSeparator, Bool.and_comm, bne]

theorem read?_of_digits? {m : Nat} (h : digits? (dropPlus (content t)) = some m) :
    read? t = if m < UInt64.size then some (UInt64.ofNat m) else none := by
  rw [read?, natural?, ← content, h, Option.filter_some]
  simp only [decide_eq_true_eq]
  split <;> rfl

theorem digits?_of_read? (h : read? t = some n) :
    digits? (dropPlus (content t)) = some n.toNat := by
  obtain ⟨m, hnatural, rfl⟩ := Option.map_eq_some_iff.mp h
  obtain ⟨hdigits, hm⟩ := Option.filter_eq_some_iff.mp hnatural
  rw [decide_eq_true_eq] at hm
  rw [UInt64.toNat_ofNat_of_lt' hm]
  exact hdigits

/-! ## The digits of a threshold -/

theorem toNat_threshold (t : String) :
    (threshold t).toNat = min (Nat.ofDigitChars 10 (leadingDigits t) 0) (UInt64.size - 1) := by
  rw [threshold]
  generalize Nat.ofDigitChars 10 (leadingDigits t) 0 = m
  have hsize : 0 < UInt64.size := by decide
  by_cases hm : m < UInt64.size
  · rw [UInt64.toNat_ofNatClamp_of_lt hm]
    omega
  · rw [UInt64.toNat_ofNatClamp_of_le (Nat.le_of_not_lt hm)]
    omega

theorem isDigit_of_mem_leadingDigits : ∀ c ∈ leadingDigits t, c.isDigit = true :=
  fun _ hc => List.mem_takeWhile_imp hc

theorem leadingDigits_prefix_content (t : String) : leadingDigits t <+: content t := by
  have hunderscore : '_' ∉ leadingDigits t :=
    Digits.notMem_of_isDigit isDigit_of_mem_leadingDigits rfl
  rw [content_eq, ← List.filter_bne_eq_self_of_not_mem hunderscore]
  apply List.IsPrefix.filter
  exact List.takeWhile_prefix _

/-- A plus sign in front of a count leaves a threshold without digits. -/
theorem leadingDigits_prefix_dropPlus (t : String) :
    leadingDigits t <+: dropPlus (content t) := by
  have hprefix := leadingDigits_prefix_content t
  rcases dropPlus_cases (content t) with hself | hplus
  · rwa [hself]
  · -- No digit is a plus sign, so nothing stands in front of it.
    rw [hplus] at hprefix
    rcases List.prefix_cons_iff.mp hprefix with hnil | ⟨ds, hds, -⟩
    · rw [hnil]
      exact List.nil_prefix
    · cases isDigit_of_mem_leadingDigits '+' (hds ▸ List.mem_cons_self)

theorem threshold_le_of_read? (h : read? t = some n) : threshold t ≤ n := by
  obtain ⟨-, hvalue⟩ := digits?_eq_some_iff.mp (digits?_of_read? h)
  rw [UInt64.le_iff_toNat_le, toNat_threshold, ← hvalue]
  -- Clamping only lowers the value of the digits.
  apply (Nat.min_le_left _ _).trans
  exact Digits.ofDigitChars_le_of_prefix (leadingDigits_prefix_dropPlus t)

/-- Without underscores and plus signs, a threshold has all digits of the count. -/
theorem leadingDigits_eq_dropPlus (hunderscore : '_' ∉ t.toList) (hplus : '+' ∉ t.toList)
    (hdigits : ∀ c ∈ dropPlus (content t), c.isDigit = true) :
    leadingDigits t = dropPlus (content t) := by
  have hcontent : content t = (trim t.toList).filter (· != ',') := by
    rw [content_eq]
    apply List.filter_bne_eq_self_of_not_mem
    exact fun hmem => hunderscore (mem_of_mem_trim (List.mem_of_mem_filter hmem))
  have hdrop : dropPlus (content t) = content t := by
    apply dropPlus_of_notMem
    exact fun hmem => hplus (mem_of_mem_trim (List.mem_of_mem_filter hmem))
  rw [hdrop] at hdigits ⊢
  rw [leadingDigits, ← hcontent]
  exact List.takeWhile_eq_self_iff.mpr hdigits

theorem threshold_eq_of_read? (h : read? t = some n) (hunderscore : '_' ∉ t.toList)
    (hplus : '+' ∉ t.toList) : threshold t = n := by
  obtain ⟨⟨-, hdigits⟩, hvalue⟩ := digits?_eq_some_iff.mp (digits?_of_read? h)
  have hn : n.toNat < UInt64.size := n.toNat_lt
  apply UInt64.toNat_inj.mp
  rw [toNat_threshold, leadingDigits_eq_dropPlus hunderscore hplus hdigits, hvalue]
  apply Nat.min_eq_left
  omega

/-- A sign or an underscore is read past in a count, and ends a threshold. -/
example : read? "+1_000" = some 1000 ∧ threshold "1_000" = 1 ∧ threshold "+1_000" = 0 := by decide

end

/-! ## Numbers with commas -/

/-- A way to write a number: blanks around it, zeros in front of it, and commas
anywhere among its digits. -/
structure Spelling (n : Nat) where
  front : List Char
  zeros : Nat
  spaced : List Char
  back : List Char
  isBlank_front : ∀ c ∈ front, isBlank c = true
  isBlank_back : ∀ c ∈ back, isBlank c = true
  filter_spaced : spaced.filter (· != ',') = List.replicate zeros '0' ++ Nat.toDigits 10 n

namespace Spelling

variable {m : Nat}

def digits (s : Spelling m) : List Char :=
  List.replicate s.zeros '0' ++ Nat.toDigits 10 m

def text (s : Spelling m) : String :=
  String.ofList (s.front ++ s.spaced ++ s.back)

/-- The digits alone, as few as there can be. -/
def plain (m : Nat) : Spelling m where
  front := []
  zeros := 0
  spaced := Nat.toDigits 10 m
  back := []
  isBlank_front := List.forall_mem_nil _
  isBlank_back := List.forall_mem_nil _
  filter_spaced := by
    apply List.filter_bne_eq_self_of_not_mem
    exact Digits.notMem_of_isDigit Digits.isDigit_of_mem_toDigits rfl

theorem text_plain (m : Nat) : (plain m).text = toString m := by
  rw [text, plain, List.nil_append, List.append_nil]
  exact Nat.toString_eq_ofList_toDigits.symm

theorem isDigit_of_mem_digits (s : Spelling m) : ∀ c ∈ s.digits, c.isDigit = true := by
  intro c hc
  rcases List.mem_append.mp hc with hzero | hdigit
  · rw [List.eq_of_mem_replicate hzero]
    rfl
  · exact Digits.isDigit_of_mem_toDigits c hdigit

theorem ofDigitChars_digits (s : Spelling m) : Nat.ofDigitChars 10 s.digits 0 = m := by
  rw [digits, Nat.ofDigitChars_append, Nat.ofDigitChars_replicate_zero, Nat.mul_zero,
    Nat.ofDigitChars_ten_toDigits]

theorem digits?_digits (s : Spelling m) : digits? s.digits = some m := by
  apply digits?_eq_some_iff.mpr
  refine ⟨⟨?_, s.isDigit_of_mem_digits⟩, s.ofDigitChars_digits⟩
  simp [digits]

theorem isBlank_eq_false_of_mem_spaced (s : Spelling m) : ∀ c ∈ s.spaced, isBlank c = false := by
  intro c hc
  by_cases hcomma : c = ','
  · rw [hcomma]
    rfl
  · have hmem : c ∈ s.spaced.filter (· != ',') := List.mem_filter.mpr ⟨hc, bne_iff_ne.mpr hcomma⟩
    rw [s.filter_spaced] at hmem
    exact Digits.isBlank_eq_false_of_isDigit (s.isDigit_of_mem_digits c hmem)

theorem filter_trim_text (s : Spelling m) :
    (trim s.text.toList).filter (· != ',') = s.digits := by
  rw [text, String.toList_ofList,
    trim_append s.isBlank_front s.isBlank_eq_false_of_mem_spaced s.isBlank_back]
  exact s.filter_spaced

theorem content_text (s : Spelling m) : content s.text = s.digits := by
  rw [content_eq, filter_trim_text]
  apply List.filter_bne_eq_self_of_not_mem
  exact Digits.notMem_of_isDigit s.isDigit_of_mem_digits rfl

theorem leadingDigits_text (s : Spelling m) : leadingDigits s.text = s.digits := by
  rw [leadingDigits, filter_trim_text]
  exact List.takeWhile_eq_self_iff.mpr s.isDigit_of_mem_digits

theorem read?_text (s : Spelling m) :
    read? s.text = if m < UInt64.size then some (UInt64.ofNat m) else none := by
  apply read?_of_digits?
  rw [content_text, dropPlus_of_isDigit s.isDigit_of_mem_digits, digits?_digits]

theorem toNat_threshold_text (s : Spelling m) :
    (threshold s.text).toNat = min m (UInt64.size - 1) := by
  rw [toNat_threshold, leadingDigits_text, ofDigitChars_digits]

end Spelling

theorem read?_toString_toNat (n : UInt64) : read? (toString n.toNat) = some n := by
  rw [← Spelling.text_plain, Spelling.read?_text, if_pos n.toNat_lt, UInt64.ofNat_toNat]

end Count

end Bookshelf
