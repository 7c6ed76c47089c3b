import Bookshelf.Proofs.Words
import Mathlib.Data.List.Induction

namespace Bookshelf

/-!
# Tokens of texts put together

Blanks and parentheses end the word before them, so the tokens on their two
sides are found apart. Only one character of what follows a text matters for its
tokens: the one behind its last word.
-/

namespace Token

/-- Characters that end the word before them. -/
def separates (c : Char) : Bool :=
  Text.isBlank c || c == '(' || c == ')'

/-- The token that a separating character is by itself, unless it is blank. -/
def punctuation (c : Char) : List (Token String) :=
  if c = '(' then [.opening] else if c = ')' then [.closing] else []

/-- The characters behind the last separating one. -/
def lastWord (cs : List Char) : List Char :=
  (cs.reverse.takeWhile fun c => !separates c).reverse

/-- The tokens of a text that a character follows, or nothing. -/
def tokensBefore (next : Option Char) (cs : List Char) : List (Token String) :=
  ((cs.foldl Scan.step .start).endWord next).reverse

theorem ofText_eq_tokensBefore (text : String) : ofText text = tokensBefore none text.toList :=
  rfl

variable {c : Char} {cs w : List Char}

theorem separates_eq_false_iff :
    separates c = false ↔ Text.isBlank c = false ∧ c ≠ '(' ∧ c ≠ ')' := by
  simp [separates, and_assoc]

theorem separates_cases (h : separates c = true) : Text.isBlank c = true ∨ c = '(' ∨ c = ')' := by
  simpa [separates, or_assoc] using h

theorem separates_of_isBlank (h : Text.isBlank c = true) : separates c = true := by
  simp [separates, h]

theorem punctuation_of_isBlank (h : Text.isBlank c = true) : punctuation c = [] := by
  have hopening : c ≠ '(' := by
    rintro rfl
    cases h
  have hclosing : c ≠ ')' := by
    rintro rfl
    cases h
  rw [punctuation, if_neg hopening, if_neg hclosing]

theorem punctuation_cases {t : Token String} (ht : t ∈ punctuation c) :
    t = .opening ∨ t = .closing := by
  unfold punctuation at ht
  split at ht
  · exact Or.inl (List.mem_singleton.mp ht)
  · split at ht
    · exact Or.inr (List.mem_singleton.mp ht)
    · cases ht

namespace Scan

theorem step_of_separates (h : separates c = true) (s : Scan) :
    s.step c = ⟨punctuation c ++ s.endWord c, []⟩ := by
  rcases separates_cases h with hblank | rfl | rfl
  · simp [step, hblank, punctuation_of_isBlank hblank]
  · rfl
  · rfl

theorem step_of_not_separates (h : separates c = false) (s : Scan) :
    s.step c = ⟨s.done, c :: s.word⟩ := by
  obtain ⟨hblank, hopening, hclosing⟩ := separates_eq_false_iff.mp h
  simp [step, hblank, hopening, hclosing]

theorem endWord_append (done older : List (Token String)) (w : List Char) (next : Option Char) :
    endWord ⟨done ++ older, w⟩ next = endWord ⟨done, w⟩ next ++ older := by
  by_cases hw : w = [] <;> simp [endWord, hw]

/-- Tokens that were found before stay below those that a scan finds. -/
theorem foldl_step_append (cs : List Char) (done older : List (Token String)) (w : List Char) :
    cs.foldl step ⟨done ++ older, w⟩ =
      ⟨(cs.foldl step ⟨done, w⟩).done ++ older, (cs.foldl step ⟨done, w⟩).word⟩ := by
  induction cs generalizing done w with
  | nil => rfl
  | cons c cs ih =>
      cases hc : separates c with
      | true =>
          rw [List.foldl_cons, List.foldl_cons, step_of_separates hc, step_of_separates hc,
            endWord_append, ← List.append_assoc, ih]
      | false =>
          rw [List.foldl_cons, List.foldl_cons, step_of_not_separates hc,
            step_of_not_separates hc, ih]

theorem reverse_endWord_foldl_step (done : List (Token String)) (cs : List Char)
    (next : Option Char) :
    ((cs.foldl step ⟨done, []⟩).endWord next).reverse = done.reverse ++ tokensBefore next cs := by
  have h := foldl_step_append cs [] done []
  rw [List.nil_append] at h
  rw [h, endWord_append, List.reverse_append]
  rfl

theorem reverse_word_foldl_step (cs : List Char) :
    (cs.foldl step start).word.reverse = lastWord cs := by
  induction cs using List.reverseRecOn with
  | nil => rfl
  | append_singleton cs c ih =>
      rw [List.foldl_append, List.foldl_cons, List.foldl_nil, lastWord, List.reverse_append,
        List.reverse_singleton, List.singleton_append]
      cases hc : separates c with
      | true => simp [step_of_separates hc, hc]
      | false =>
          rw [step_of_not_separates hc, List.takeWhile_cons_of_pos (by simp [hc])]
          simp [ih, lastWord]

end Scan

/-! ## Cutting a text -/

@[simp] theorem tokensBefore_nil (next : Option Char) : tokensBefore next [] = [] := rfl

theorem tokensBefore_append (hc : separates c = true) (next : Option Char) (a b : List Char) :
    tokensBefore next (a ++ c :: b) =
      tokensBefore (some c) a ++ (punctuation c ++ tokensBefore next b) := by
  have hpunctuation : (punctuation c).reverse = punctuation c := by
    unfold punctuation
    split
    · rfl
    · split <;> rfl
  rw [tokensBefore, List.foldl_append, List.foldl_cons, Scan.step_of_separates hc,
    Scan.reverse_endWord_foldl_step, List.reverse_append, hpunctuation, List.append_assoc]
  rfl

theorem tokensBefore_cons (hc : separates c = true) (next : Option Char) (cs : List Char) :
    tokensBefore next (c :: cs) = punctuation c ++ tokensBefore next cs :=
  tokensBefore_append hc next [] cs

theorem tokensBefore_append_of_isBlank {gap : List Char} (hgap : ∀ c ∈ gap, Text.isBlank c = true)
    (next : Option Char) (cs : List Char) :
    tokensBefore next (gap ++ cs) = tokensBefore next cs := by
  induction gap with
  | nil => rfl
  | cons c gap ih =>
      obtain ⟨hc, hgap⟩ := List.forall_mem_cons.mp hgap
      rw [List.cons_append, tokensBefore_cons (separates_of_isBlank hc),
        punctuation_of_isBlank hc, List.nil_append, ih hgap]

/-- All tokens but the last word are found without looking ahead. -/
theorem exists_tokensBefore_eq (cs : List Char) :
    ∃ ts, ∀ next, tokensBefore next cs =
      ts ++ if lastWord cs = [] then [] else [ofWord (lastWord cs) next] := by
  refine ⟨(cs.foldl Scan.step .start).done.reverse, ?_⟩
  intro next
  rw [tokensBefore, Scan.endWord, Scan.reverse_word_foldl_step]
  have hword : (cs.foldl Scan.step .start).word = [] ↔ lastWord cs = [] := by
    rw [← Scan.reverse_word_foldl_step, List.reverse_eq_nil_iff]
  by_cases hnil : lastWord cs = []
  · simp [hnil, hword.mpr hnil]
  · simp [hnil, mt hword.mp hnil]

theorem tokensBefore_word (hne : w ≠ []) (hw : ∀ c ∈ w, separates c = false)
    (next : Option Char) : tokensBefore next w = [ofWord w next] := by
  have hscan : w.foldl Scan.step .start = ⟨[], w.reverse⟩ := by
    have h := Scan.foldl_step_of_forall (fun c hc => separates_eq_false_iff.mp (hw c hc)) .start
    rwa [Scan.start, List.append_nil] at h
  rw [tokensBefore, hscan]
  simp [Scan.endWord, hne]

/-! ## The character behind the last word -/

theorem ofWord_none (w : List Char) :
    ofWord w none = (operator? w).getD (.genre (String.ofList w)) := rfl

theorem ofWord_of_isWideBlank (h : Text.isWideBlank c = true) (w : List Char) :
    ofWord w (some c) = .genre (String.ofList w) := by
  simp [ofWord, h]

theorem ofWord_eq_ofWord_none {next : Option Char}
    (h : next.any Text.isWideBlank = false ∨ operator? w = none) :
    ofWord w next = ofWord w none := by
  rcases h with hnext | hw
  · simp [ofWord, hnext]
  · simp [ofWord, hw]

/-- Looking ahead matters only for an operator word right before a blank beyond ASCII. -/
theorem tokensBefore_eq_tokensBefore_none {next : Option Char}
    (h : next.any Text.isWideBlank = false ∨ operator? (lastWord cs) = none) :
    tokensBefore next cs = tokensBefore none cs := by
  obtain ⟨ts, hts⟩ := exists_tokensBefore_eq cs
  rw [hts, hts, ofWord_eq_ofWord_none h]

/-- At its end a text has an operator where it has a genre before a blank beyond ASCII. -/
theorem exists_tokensBefore_of_operator? {op : Token String}
    (h : operator? (lastWord cs) = some op) :
    ∃ ts, tokensBefore none cs = ts ++ [op] ∧ ∀ c, Text.isWideBlank c = true →
      tokensBefore (some c) cs = ts ++ [.genre (String.ofList (lastWord cs))] := by
  obtain ⟨ts, hts⟩ := exists_tokensBefore_eq cs
  have hne : lastWord cs ≠ [] := by
    intro hnil
    rw [hnil] at h
    cases h
  refine ⟨ts, ?_, ?_⟩
  · rw [hts, if_neg hne, ofWord_none, h, Option.getD_some]
  · intro c hwide
    rw [hts, if_neg hne, ofWord_of_isWideBlank hwide]

theorem operator?_cases {op : Token String} (h : operator? w = some op) :
    op = .and ∨ op = .or ∨ op = .not := by
  unfold operator? at h
  split at h
  · exact Or.inl (Option.some.inj h).symm
  · exact Or.inr (Or.inl (Option.some.inj h).symm)
  · exact Or.inr (Or.inr (Option.some.inj h).symm)
  · cases h

theorem ne_genre_of_operator? {op : Token String} (h : operator? w = some op) (name : String) :
    op ≠ .genre name := by
  rintro rfl
  rcases operator?_cases h with heq | heq | heq <;> cases heq

end Token

end Bookshelf
