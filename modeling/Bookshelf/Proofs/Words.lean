import Bookshelf.Expression.Parser

namespace Bookshelf

/-!
# Genres that are one token

A name without blanks around it is one entry of a token list, and a name
without any blanks and parentheses is one word of a text. Unless it names an
operator or a parenthesis, both read it as a genre.
-/

namespace Token

/-- A name that no operator and no parenthesis has. -/
def IsGenreName (name : String) : Prop :=
  name ∉ ["(", ")"] ∧ name.toList.map Char.toLower ∉ ["and", "or", "not"].map String.toList

/-- A name that a text does not cut into parts. -/
def IsWord (name : String) : Prop :=
  ∀ c ∈ name.toList, Text.isBlank c = false ∧ c ≠ '(' ∧ c ≠ ')'

instance (name : String) : Decidable (IsGenreName name) :=
  instDecidableAnd

instance (name : String) : Decidable (IsWord name) :=
  List.decidableBAll _ name.toList

variable {name : String}

theorem IsGenreName.operator?_eq_none (h : IsGenreName name) : operator? name.toList = none := by
  have hne : ∀ word ∈ ["and", "or", "not"], name.toList.map Char.toLower ≠ word.toList :=
    fun word hword heq => h.2 (heq ▸ List.mem_map.mpr ⟨word, hword, rfl⟩)
  unfold operator?
  split
  · next hand => exact (hne "and" (by simp) hand).elim
  · next hor => exact (hne "or" (by simp) hor).elim
  · next hnot => exact (hne "not" (by simp) hnot).elim
  · rfl

theorem ofEntry_of_ne {w : List Char} (hopening : w ≠ ['(']) (hclosing : w ≠ [')']) :
    ofEntry w = (operator? w).getD (.genre (String.ofList w)) := by
  unfold ofEntry
  split
  · exact (hopening rfl).elim
  · exact (hclosing rfl).elim
  · rfl

theorem IsGenreName.ofEntry (h : IsGenreName name) : ofEntry name.toList = .genre name := by
  have hopening : name.toList ≠ ['('] := fun heq =>
    h.1 (by simp [← String.toList_inj, heq])
  have hclosing : name.toList ≠ [')'] := fun heq =>
    h.1 (by simp [← String.toList_inj, heq])
  rw [ofEntry_of_ne hopening hclosing, h.operator?_eq_none, Option.getD_none,
    String.ofList_toList]

theorem IsGenreName.ofEntries (h : IsGenreName name) (htrim : Text.trimmed name = name)
    (hne : name ≠ "") : ofEntries [name] = [.genre name] := by
  have hchars : Text.trim name.toList = name.toList := by rw [← Text.toList_trimmed, htrim]
  simp [Token.ofEntries, hchars, hne, h.ofEntry]

theorem Scan.foldl_step_of_forall {cs : List Char}
    (h : ∀ c ∈ cs, Text.isBlank c = false ∧ c ≠ '(' ∧ c ≠ ')') (s : Scan) :
    cs.foldl Scan.step s = ⟨s.done, cs.reverse ++ s.word⟩ := by
  induction cs generalizing s with
  | nil => rfl
  | cons c cs ih =>
      obtain ⟨hblank, hopening, hclosing⟩ := h c List.mem_cons_self
      have hstep : s.step c = ⟨s.done, c :: s.word⟩ := by
        simp [Scan.step, hblank, hopening, hclosing]
      rw [List.foldl_cons, hstep, ih fun d hd => h d (List.mem_cons_of_mem c hd)]
      simp

theorem IsGenreName.ofText (h : IsGenreName name) (hword : IsWord name) (hne : name ≠ "") :
    ofText name = [.genre name] := by
  rw [Token.ofText, Scan.foldl_step_of_forall hword, Scan.finish]
  simp [Scan.endWord, Scan.start, hne, ofWord, h.operator?_eq_none]

end Token

end Bookshelf
