import Bookshelf.Json.Lexeme

namespace Bookshelf

/-!
# Lexemes in any surrounding

A text whose quotation marks are all closed has the same lexemes wherever it
stands, as long as a separating character follows. So the lexemes of texts put
together are the lexemes of the texts, put together.
-/

namespace Json

/-- Characters that end the word before them. -/
def Lexeme.separates (c : Char) : Bool :=
  isSpace c || c == '"' || (punctuation? c).isSome

namespace Scan

/-- The scan that has found other lexemes before. -/
def onto (s : Scan) (older : List Lexeme) : Scan :=
  ⟨s.done ++ older, s.pending⟩

theorem addWord_append (w : List Char) (done older : List Lexeme) :
    addWord w (done ++ older) = addWord w done ++ older := by
  by_cases hw : w = [] <;> simp [addWord, hw]

@[simp] theorem addWord_nil (done : List Lexeme) : addWord [] done = done := rfl

theorem step_onto (s : Scan) (older : List Lexeme) (c : Char) :
    (s.onto older).step c = (s.step c).onto older := by
  obtain ⟨done, pending⟩ := s
  cases pending with
  | word w =>
      simp only [onto, step, stepWord, addWord_append]
      split
      · rfl
      · split
        · rfl
        · split <;> rfl
  | quoted w =>
      simp only [onto, step]
      split
      · rfl
      · split <;> rfl
  | escape w => rfl

theorem foldl_step_onto (s : Scan) (older : List Lexeme) (cs : List Char) :
    cs.foldl step (s.onto older) = (cs.foldl step s).onto older := by
  induction cs generalizing s with
  | nil => rfl
  | cons c cs ih => rw [List.foldl_cons, step_onto, ih, List.foldl_cons]

theorem finish_onto (s : Scan) (older : List Lexeme) :
    (s.onto older).finish = older.reverse ++ s.finish := by
  obtain ⟨done, pending⟩ := s
  cases pending <;> simp [onto, finish, addWord_append]

/-- Between two words, what follows is scanned as at the start of a text. -/
theorem finish_foldl_step (done : List Lexeme) (cs : List Char) :
    (cs.foldl step ⟨done, .word []⟩).finish = done.reverse ++ lexemes cs := by
  have hstart : (⟨done, .word []⟩ : Scan) = start.onto done := rfl
  rw [hstart, foldl_step_onto, finish_onto, lexemes]

theorem step_of_separates {c : Char} (h : Lexeme.separates c = true) (done : List Lexeme)
    (w : List Char) :
    step ⟨done, .word w⟩ c = step ⟨addWord w done, .word []⟩ c := by
  simp only [step, stepWord, addWord_nil]
  split
  · rfl
  · split
    · rfl
    · next hspace hquote =>
        have hpunctuation : (Lexeme.punctuation? c).isSome = true := by
          simpa [Lexeme.separates, hspace, hquote] using h
        obtain ⟨p, hp⟩ := Option.isSome_iff_exists.mp hpunctuation
        rw [hp]

theorem exists_word_of_unclosed_notMem {s : Scan} (h : .unclosed ∉ s.finish) :
    ∃ done w, s = ⟨done, .word w⟩ := by
  obtain ⟨done, pending⟩ := s
  cases pending with
  | word w => exact ⟨done, w, rfl⟩
  | quoted w => exact (h (by simp [finish])).elim
  | escape w => exact (h (by simp [finish])).elim

theorem finish_step_of_isSpace {c : Char} (hc : Lexeme.isSpace c = true) (s : Scan) :
    (s.step c).finish = s.finish := by
  have hquote : c ≠ '"' := by
    rintro rfl
    cases hc
  obtain ⟨done, pending⟩ := s
  cases pending with
  | word w => simp [step, stepWord, hc, finish]
  | quoted w =>
      -- The quotation stays open, so what has been found stays the same.
      simp only [step, hquote, if_false]
      split <;> rfl
  | escape w => rfl

end Scan

open Scan Lexeme

variable {a b : List Char} {c : Char}

theorem lexemes_append (ha : .unclosed ∉ lexemes a) (hc : separates c = true) :
    lexemes (a ++ c :: b) = lexemes a ++ lexemes (c :: b) := by
  obtain ⟨done, w, hscan⟩ := exists_word_of_unclosed_notMem ha
  have hlexemes : lexemes a = (addWord w done).reverse := by rw [lexemes, hscan, finish]
  calc lexemes (a ++ c :: b)
      = (b.foldl step (step ⟨done, .word w⟩ c)).finish := by
        rw [lexemes, List.foldl_append, hscan, List.foldl_cons]
    _ = ((c :: b).foldl step ⟨addWord w done, .word []⟩).finish := by
        rw [step_of_separates hc, List.foldl_cons]
    _ = lexemes a ++ lexemes (c :: b) := by rw [finish_foldl_step, hlexemes]

theorem lexemes_cons_of_isSpace (hc : isSpace c = true) (cs : List Char) :
    lexemes (c :: cs) = lexemes cs := by
  have hstep : step start c = start := by simp [start, step, stepWord, hc]
  rw [lexemes, List.foldl_cons, hstep, lexemes]

theorem lexemes_cons_of_punctuation {p : Lexeme} (hc : punctuation? c = some p) (cs : List Char) :
    lexemes (c :: cs) = p :: lexemes cs := by
  have hspace : isSpace c = false := by
    unfold punctuation? at hc
    split at hc <;> first | rfl | cases hc
  have hquote : c ≠ '"' := by
    rintro rfl
    cases hc
  have hstep : step start c = ⟨[p], .word []⟩ := by
    simp [start, step, stepWord, hspace, hquote, hc]
  rw [lexemes, List.foldl_cons, hstep, finish_foldl_step]
  rfl

theorem lexemes_word (hne : a ≠ []) (ha : ∀ c ∈ a, separates c = false) :
    lexemes a = [.word a] := by
  have hscan : ∀ w, a.foldl step ⟨[], .word w⟩ = ⟨[], .word (a.reverse ++ w)⟩ := by
    clear hne
    induction a with
    | nil => exact fun _ => rfl
    | cons c a ih =>
        intro w
        obtain ⟨hc, ha⟩ := List.forall_mem_cons.mp ha
        have hstep : step ⟨[], .word w⟩ c = ⟨[], .word (c :: w)⟩ := by
          simp only [separates, Bool.or_eq_false_iff, beq_eq_false_iff_ne, ne_eq,
            Option.isSome_eq_false_iff, Option.isNone_iff_eq_none] at hc
          obtain ⟨⟨hspace, hquote⟩, hpunctuation⟩ := hc
          simp [step, stepWord, hspace, hquote, hpunctuation]
        rw [List.foldl_cons, hstep, ih ha, List.reverse_cons, List.append_assoc]
        rfl
  simp [lexemes, start, hscan, finish, addWord, hne]

theorem lexemes_concat_of_isSpace (hc : isSpace c = true) (cs : List Char) :
    lexemes (cs ++ [c]) = lexemes cs := by
  rw [lexemes, List.foldl_append, List.foldl_cons, List.foldl_nil, finish_step_of_isSpace hc,
    lexemes]

end Json

end Bookshelf
