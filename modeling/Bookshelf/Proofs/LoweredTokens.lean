import Bookshelf.Proofs.Casing
import Bookshelf.Proofs.EntryTexts

namespace Bookshelf

/-!
# Tokens in lower case

A text in lower case has the tokens of the text, with their genres in lower
case, and so has a list of entries. For lower case neither makes nor removes a
blank or a parenthesis, and among the letters of the operators only ASCII
capitals are lowered to one.
-/

namespace Text

variable {c d : Char}

def lowercase (s : String) : String :=
  String.ofList (lowered s.toList)

theorem toList_lowercase (s : String) : (lowercase s).toList = lowered s.toList :=
  String.toList_ofList

/-! ## The letters that other letters are lowered to -/

/-- Of the small letters of capitals beyond ASCII, only `k` is an ASCII letter. -/
theorem target_capitals : ∀ r ∈ capitals,
    (0x80 ≤ r.target ∨ r.target = 'k'.toNat ∧ r.first = r.last) ∧
      (r.target + (r.last - r.first) < 0xD800 ∨
        0xDFFF < r.target ∧ r.target + (r.last - r.first) < 0x110000) := by
  decide +kernel

theorem ofNat_small_of_mem_capitals {r : Capitals} (hr : r ∈ capitals) {n : Nat}
    (hn : r.covers n = true) :
    0x80 ≤ (Char.ofNat (r.small n)).toNat ∨ Char.ofNat (r.small n) = 'k' := by
  obtain ⟨htarget, hvalid⟩ := target_capitals r hr
  obtain ⟨hfirst, hlast⟩ := bounds_of_covers hn
  have hsmall : r.small n = r.target + (n - r.first) := rfl
  have hcode : (r.small n).isValidChar := by
    rcases hvalid with hlow | ⟨hlow, hhigh⟩
    · exact Or.inl (by omega)
    · exact Or.inr ⟨by omega, by omega⟩
  rcases htarget with htarget | ⟨htarget, hsingle⟩
  · rw [toNat_ofNat hcode]
    exact Or.inl (by omega)
  · have hk : r.small n = 'k'.toNat := by omega
    rw [hk, Char.ofNat_toNat]
    exact Or.inr rfl

theorem toNat_of_mem_lower (hc : 0x80 ≤ c.toNat) (hd : d ∈ lower c) :
    0x80 ≤ d.toNat ∨ d = 'i' ∨ d = 'k' := by
  rw [lower, if_neg (by omega)] at hd
  split at hd
  · rcases List.mem_cons.mp hd with rfl | hd
    · exact Or.inr (Or.inl rfl)
    · rw [List.mem_singleton.mp hd]
      exact Or.inl (by decide)
  · split at hd
    · next r hr =>
        rw [List.mem_singleton.mp hd]
        have hcovers := List.find?_some hr
        rcases ofNat_small_of_mem_capitals (List.mem_of_find?_eq_some hr) hcovers with h | h
        · exact Or.inl h
        · exact Or.inr (Or.inr h)
    · rw [List.mem_singleton.mp hd]
      exact Or.inl hc

theorem lower_of_lt (hc : c.toNat < 0x80) : lower c = [c.toLower] :=
  if_pos hc

theorem toLower_of_le (hc : 0x80 ≤ c.toNat) : c.toLower = c := by
  have hz : ¬(c.val ≥ 'A'.val ∧ c.val ≤ 'Z'.val) := by
    rintro ⟨-, hz⟩
    have hle : c.toNat ≤ 'Z'.toNat := hz
    have hZ : 'Z'.toNat = 0x5A := rfl
    omega
  exact dif_neg hz

/-- A blank is no capital. -/
theorem lower_of_isBlank (hc : isBlank c = true) : lower c = [c] := by
  by_cases hascii : c.toNat < 0x80
  · have htoLower : isBlank c = true → c.toLower = c :=
      forall_ascii (P := fun c => isBlank c = true → c.toLower = c) (by decide) hascii
    rw [lower_of_lt hascii, htoLower hc]
  · have hdotted : c.toNat ≠ 0x130 := by
      intro hcode
      have hfree : IsBlankFree 0x130 0x130 := by decide
      rw [isBlank_eq_false_of_isBlankFree hfree hcode.ge hcode.le] at hc
      cases hc
    have hfind : capitals.find? (·.covers c.toNat) = none := by
      rw [List.find?_eq_none]
      intro r hr hcovers
      obtain ⟨hfirst, hlast⟩ := bounds_of_covers hcovers
      rw [isBlank_eq_false_of_isBlankFree (isBlankFree_capitals r hr).1 hfirst hlast] at hc
      cases hc
    rw [lower, if_neg hascii, if_neg hdotted, hfind]

/-! ## Trimming -/

theorem dropWhile_isBlank_flatMap {f : Char → List Char} (hne : ∀ c, f c ≠ [])
    (hblank : ∀ c, ∀ d ∈ f c, isBlank d = isBlank c) (cs : List Char) :
    (cs.flatMap f).dropWhile isBlank = (cs.dropWhile isBlank).flatMap f := by
  induction cs with
  | nil => rfl
  | cons c cs ih =>
      rw [List.flatMap_cons]
      cases hc : isBlank c with
      | true =>
          have hall : ∀ d ∈ f c, isBlank d = true := fun d hd => (hblank c d hd).trans hc
          rw [List.dropWhile_append_of_pos hall, ih, List.dropWhile_cons_of_pos hc]
      | false =>
          obtain ⟨d, ds, hds⟩ := List.exists_cons_of_ne_nil (hne c)
          have hd : isBlank d = false := (hblank c d (by simp [hds])).trans hc
          rw [List.dropWhile_cons_of_neg (by simp [hc]), List.flatMap_cons, hds, List.cons_append,
            List.dropWhile_cons_of_neg (by simp [hd])]

theorem trim_lowered (cs : List Char) : trim (lowered cs) = lowered (trim cs) := by
  have hstart : trimStart (lowered cs) = lowered (trimStart cs) :=
    dropWhile_isBlank_flatMap lower_ne_nil (fun c d => isBlank_of_mem_lower) cs
  have hend : ∀ cs, trimEnd (lowered cs) = lowered (trimEnd cs) := by
    intro cs
    have hne : ∀ c, (List.reverse ∘ lower) c ≠ [] := fun c => by simp [lower_ne_nil]
    have hblank : ∀ c, ∀ d ∈ (List.reverse ∘ lower) c, isBlank d = isBlank c :=
      fun c d hd => isBlank_of_mem_lower (List.mem_reverse.mp hd)
    rw [trimEnd, lowered, List.reverse_flatMap, dropWhile_isBlank_flatMap hne hblank,
      ← List.flatMap_reverse]
    rfl
  rw [trim, hstart, hend, trim]

end Text

namespace Token

open Text

variable {c d : Char} {w : List Char}

/-! ## Separating characters and operator words -/

theorem separates_toLower (hc : c.toNat < 0x80) : separates c.toLower = separates c :=
  forall_ascii (P := fun c => separates c.toLower = separates c) (by decide) hc

theorem separates_eq_isBlank (hopening : c ≠ '(') (hclosing : c ≠ ')') :
    separates c = isBlank c := by
  rw [separates, beq_false_of_ne hopening, beq_false_of_ne hclosing, Bool.or_false, Bool.or_false]

theorem separates_of_mem_lower (hd : d ∈ lower c) : separates d = separates c := by
  by_cases hascii : c.toNat < 0x80
  · rw [lower_of_lt hascii] at hd
    rw [List.mem_singleton.mp hd, separates_toLower hascii]
  · -- Beyond ASCII no character is a parenthesis, nor are its small letters.
    have hne : ∀ p : Char, p.toNat < 0x80 → p ≠ 'i' → p ≠ 'k' → d ≠ p ∧ c ≠ p := by
      intro p hp hi hk
      refine ⟨?_, ?_⟩
      · rintro rfl
        rcases toNat_of_mem_lower (Nat.le_of_not_lt hascii) hd with h | h | h
        · omega
        · exact hi h
        · exact hk h
      · rintro rfl
        exact hascii hp
    obtain ⟨hdopening, hcopening⟩ := hne '(' (by decide) (by decide) (by decide)
    obtain ⟨hdclosing, hcclosing⟩ := hne ')' (by decide) (by decide) (by decide)
    rw [separates_eq_isBlank hdopening hdclosing, separates_eq_isBlank hcopening hcclosing,
      isBlank_of_mem_lower hd]

theorem lower_of_separates (hc : separates c = true) : lower c = [c] := by
  rcases separates_cases hc with hblank | rfl | rfl
  · exact lower_of_isBlank hblank
  · rfl
  · rfl

theorem separates_of_mem_lowered (hw : ∀ d ∈ w, separates d = false) :
    ∀ d ∈ lowered w, separates d = false := by
  intro d hd
  obtain ⟨c, hc, hd⟩ := List.mem_flatMap.mp hd
  rw [separates_of_mem_lower hd, hw c hc]

theorem lowered_eq_nil_iff : lowered w = [] ↔ w = [] := by
  cases w with
  | nil => rfl
  | cons c w => simp [lower_ne_nil]

theorem lowered_eq_singleton_iff (hc : separates c = true) : lowered w = [c] ↔ w = [c] := by
  constructor
  · intro h
    cases w with
    | nil => cases h
    | cons d w =>
        have hmem : c ∈ lower d := by
          obtain ⟨x, xs, hx⟩ := List.exists_cons_of_ne_nil (lower_ne_nil d)
          rw [lowered_cons, hx, List.cons_append] at h
          rw [hx, (List.cons.inj h).1]
          exact List.mem_cons_self
        have hd : separates d = true := (separates_of_mem_lower hmem).symm.trans hc
        rw [lowered_cons, lower_of_separates hd, List.singleton_append] at h
        obtain ⟨rfl, hnil⟩ := List.cons.inj h
        rw [lowered_eq_nil_iff.mp hnil]
  · rintro rfl
    rw [lowered_cons, lower_of_separates hc, lowered_nil, List.append_nil]

/-- The letters of the operators come from their own capitals only. -/
theorem map_toLower_lowered_iff {u : List Char}
    (hu : ∀ d ∈ u, d.toNat < 0x80 ∧ d ≠ 'i' ∧ d ≠ 'k') (w : List Char) :
    (lowered w).map Char.toLower = u ↔ w.map Char.toLower = u := by
  induction w generalizing u with
  | nil => rfl
  | cons c w ih =>
      by_cases hascii : c.toNat < 0x80
      · have htoLower : c.toLower.toLower = c.toLower :=
          forall_ascii (P := fun c => c.toLower.toLower = c.toLower) (by decide) hascii
        rw [lowered_cons, lower_of_lt hascii, List.singleton_append, List.map_cons, List.map_cons,
          htoLower]
        cases u with
        | nil => exact iff_of_false (List.cons_ne_nil _ _) (List.cons_ne_nil _ _)
        | cons d u =>
            rw [List.cons.injEq, List.cons.injEq, ih (List.forall_mem_cons.mp hu).2]
      · have hc := Nat.le_of_not_lt hascii
        apply iff_of_false
        · rintro rfl
          obtain ⟨d, hd⟩ := List.exists_mem_of_ne_nil (lower c) (lower_ne_nil c)
          obtain ⟨hlow, hi, hk⟩ := hu d.toLower
            (List.mem_map_of_mem (List.mem_append_left _ hd))
          rcases toNat_of_mem_lower hc hd with h | rfl | rfl
          · rw [toLower_of_le h] at hlow
            omega
          · exact hi rfl
          · exact hk rfl
        · rintro rfl
          obtain ⟨hlow, -⟩ := hu c.toLower List.mem_cons_self
          rw [toLower_of_le hc] at hlow
          exact hascii hlow

theorem operator?_eq (w : List Char) :
    operator? w =
      if w.map Char.toLower = ['a', 'n', 'd'] then some .and
      else if w.map Char.toLower = ['o', 'r'] then some .or
      else if w.map Char.toLower = ['n', 'o', 't'] then some .not
      else none := by
  unfold operator?
  split
  · next hand => exact (if_pos hand).symm
  · next hor =>
      rw [hor]
      rfl
  · next hnot =>
      rw [hnot]
      rfl
  · next hand hor hnot => rw [if_neg hand, if_neg hor, if_neg hnot]

theorem operator?_lowered (w : List Char) : operator? (lowered w) = operator? w := by
  have hand := map_toLower_lowered_iff (u := ['a', 'n', 'd']) (by simp) w
  have hor := map_toLower_lowered_iff (u := ['o', 'r']) (by simp) w
  have hnot := map_toLower_lowered_iff (u := ['n', 'o', 't']) (by simp) w
  simp only [operator?_eq, hand, hor, hnot]

/-! ## Texts and entries in lower case -/

theorem map_of_operator? {op : Token String} (h : operator? w = some op) (f : String → String) :
    op.map f = op := by
  rcases operator?_cases h with rfl | rfl | rfl <;> rfl

theorem map_lowercase_genre (w : List Char) :
    (Token.genre (String.ofList w)).map lowercase = .genre (String.ofList (lowered w)) := by
  rw [Token.map, lowercase, String.toList_ofList]

theorem ofWord_lowered (w : List Char) (next : Option Char) :
    ofWord (lowered w) next = (ofWord w next).map lowercase := by
  rw [ofWord, ofWord, operator?_lowered]
  split
  · exact (map_lowercase_genre w).symm
  · cases hop : operator? w with
    | none => exact (map_lowercase_genre w).symm
    | some op => exact (map_of_operator? hop lowercase).symm

theorem map_punctuation (c : Char) (f : String → String) :
    (punctuation c).map (Token.map f) = punctuation c := by
  have hfixed : ∀ t ∈ punctuation c, t.map f = t := by
    intro t ht
    rcases punctuation_cases ht with rfl | rfl <;> rfl
  rw [List.map_congr_left hfixed, List.map_id']

theorem tokensBefore_lowered_word (hw : ∀ d ∈ w, separates d = false) (next : Option Char) :
    tokensBefore next (lowered w) = (tokensBefore next w).map (Token.map lowercase) := by
  rw [tokensBefore_of_forall hw, tokensBefore_of_forall (separates_of_mem_lowered hw)]
  by_cases hnil : w = []
  · rw [if_pos hnil, if_pos (lowered_eq_nil_iff.mpr hnil), List.map_nil]
  · rw [if_neg hnil, if_neg (mt lowered_eq_nil_iff.mp hnil), ofWord_lowered, List.map_singleton]

/-- Lower case commutes with cutting a text into tokens. -/
theorem tokensBefore_lowered (next : Option Char) (cs : List Char) :
    tokensBefore next (lowered cs) = (tokensBefore next cs).map (Token.map lowercase) := by
  induction cs using text_induction with
  | word w hw => exact tokensBefore_lowered_word hw next
  | cut w c rest hw hc ih =>
      rw [lowered_append, lowered_cons, lower_of_separates hc, List.singleton_append,
        tokensBefore_append hc, tokensBefore_append hc, tokensBefore_lowered_word hw, ih,
        List.map_append, List.map_append, map_punctuation]

theorem ofText_lowercase (text : String) :
    ofText (lowercase text) = (ofText text).map (Token.map lowercase) := by
  rw [ofText_eq_tokensBefore, toList_lowercase, tokensBefore_lowered, ofText_eq_tokensBefore]

theorem ofEntry_lowered (w : List Char) : ofEntry (lowered w) = (ofEntry w).map lowercase := by
  by_cases hopening : w = ['(']
  · rw [hopening]
    rfl
  · by_cases hclosing : w = [')']
    · rw [hclosing]
      rfl
    · have hopening' := mt (lowered_eq_singleton_iff (c := '(') rfl).mp hopening
      have hclosing' := mt (lowered_eq_singleton_iff (c := ')') rfl).mp hclosing
      rw [ofEntry_of_ne hopening' hclosing', ← ofWord_none, ofEntry_of_ne hopening hclosing,
        ← ofWord_none, ofWord_lowered]

theorem ofEntries_cons (entry : String) (entries : List String) :
    ofEntries (entry :: entries) =
      (if trim entry.toList = [] then [] else [ofEntry (trim entry.toList)]) ++
        ofEntries entries := by
  by_cases hblank : trim entry.toList = [] <;> simp [ofEntries, hblank]

theorem ofEntries_lowercase (entries : List String) :
    ofEntries (entries.map lowercase) = (ofEntries entries).map (Token.map lowercase) := by
  induction entries with
  | nil => rfl
  | cons entry entries ih =>
      rw [List.map_cons, ofEntries_cons, ofEntries_cons, ih, List.map_append, toList_lowercase,
        trim_lowered, ofEntry_lowered]
      by_cases hblank : trim entry.toList = []
      · rw [if_pos hblank, if_pos (lowered_eq_nil_iff.mpr hblank), List.map_nil]
      · rw [if_neg hblank, if_neg (mt lowered_eq_nil_iff.mp hblank), List.map_singleton]

end Token

end Bookshelf
