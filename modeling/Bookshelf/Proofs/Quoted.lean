import Bookshelf.Json.Document
import Bookshelf.Json.Reader
import Bookshelf.Proofs.Lexemes

namespace Bookshelf

/-!
# Quoted text, written and read

A character is written in one of three ways: as itself, as a backslash and a
letter, or as the escape of its code. Each is one item to the reader, lies
within one pair of quotation marks, and holds no control character.
-/

namespace Json.Quoted

theorem exists_letter {c e : Char} {n : Nat} (hc : c.toNat = n)
    (he : e ≠ 'u' ∧ 0x20 ≤ e.toNat ∧ escaped? e = some (Char.ofNat n)) :
    ∃ x, x ≠ 'u' ∧ 0x20 ≤ x.toNat ∧ escaped? x = some c ∧ ['\\', e] = ['\\', x] := by
  obtain ⟨hu, hlower, hescaped⟩ := he
  rw [← hc, Char.ofNat_toNat] at hescaped
  exact ⟨e, hu, hlower, hescaped, rfl⟩

/-- The three ways to write a character. -/
theorem encodeChar_cases (c : Char) :
    (mustEscape c = false ∧ encodeChar c = [c]) ∨
    (∃ e, e ≠ 'u' ∧ 0x20 ≤ e.toNat ∧ escaped? e = some c ∧ encodeChar c = ['\\', e]) ∨
    (c.toNat < 0x20 ∧ encodeChar c =
      ['\\', 'u', '0', '0', Nat.digitChar (c.toNat / 16), Nat.digitChar (c.toNat % 16)]) := by
  by_cases hquote : c = '"'
  · subst hquote
    exact Or.inr (Or.inl ⟨'"', by decide, by decide, rfl, rfl⟩)
  by_cases hbackslash : c = '\\'
  · subst hbackslash
    exact Or.inr (Or.inl ⟨'\\', by decide, by decide, rfl, rfl⟩)
  by_cases hcontrol : c.toNat < 0x20
  · simp only [encodeChar, hquote, hbackslash, hcontrol, if_true, if_false]
    split
    · next h => exact Or.inr (Or.inl (exists_letter h (by decide)))
    · next h => exact Or.inr (Or.inl (exists_letter h (by decide)))
    · next h => exact Or.inr (Or.inl (exists_letter h (by decide)))
    · next h => exact Or.inr (Or.inl (exists_letter h (by decide)))
    · next h => exact Or.inr (Or.inl (exists_letter h (by decide)))
    · exact Or.inr (Or.inr ⟨trivial, rfl⟩)
  · refine Or.inl ⟨?_, ?_⟩
    · simp [mustEscape, hquote, hbackslash, hcontrol]
    · simp [encodeChar, hquote, hbackslash, hcontrol]

/-! ## Reading what was written -/

theorem unit?_code : ∀ n < 0x20,
    unit? '0' '0' (Nat.digitChar (n / 16)) (Nat.digitChar (n % 16)) = some n := by
  decide

theorem ofUnit_toNat {c : Char} (h : c.toNat < 0x20) : Item.ofUnit c.toNat = .char c := by
  have hhalf : ¬(0xD800 ≤ c.toNat ∧ c.toNat < 0xE000) := by omega
  rw [Item.ofUnit, if_neg hhalf, Char.ofNat_toNat]

theorem itemsBehind?_encodeChar (done : List Item) (c : Char) (rest : List Char) :
    itemsBehind? done (encodeChar c ++ rest) = itemsBehind? (.char c :: done) rest := by
  rcases encodeChar_cases c with ⟨hplain, h⟩ | ⟨e, hu, -, hescaped, h⟩ | ⟨hcontrol, h⟩
  · have hbackslash : c ≠ '\\' := by
      rintro rfl
      cases hplain
    rw [h, List.singleton_append]
    simp [itemsBehind?, hbackslash, hplain]
  · rw [h, List.cons_append, List.singleton_append]
    simp [itemsBehind?, hu, hescaped]
  · rw [h]
    simp only [List.cons_append, List.nil_append, itemsBehind?, unit?_code _ hcontrol,
      ofUnit_toNat hcontrol]

theorem itemsBehind?_encode (done : List Item) (cs : List Char) :
    itemsBehind? done (encode cs) = some (done.reverse ++ cs.map .char) := by
  induction cs generalizing done with
  | nil => simp [encode, itemsBehind?]
  | cons c cs ih =>
      have hcons : encode (c :: cs) = encodeChar c ++ encode cs := List.flatMap_cons
      rw [hcons, itemsBehind?_encodeChar, ih, List.reverse_cons, List.append_assoc]
      rfl

theorem textBehind?_map_char (done cs : List Char) :
    textBehind? done (cs.map .char) = some (done.reverse ++ cs) := by
  induction cs generalizing done with
  | nil => simp [textBehind?]
  | cons c cs ih => simp [textBehind?, ih]

theorem items?_encode (cs : List Char) : items? (encode cs) = some (cs.map .char) :=
  itemsBehind?_encode [] cs

theorem text?_map_char (cs : List Char) : text? (cs.map .char) = some cs :=
  textBehind?_map_char [] cs

/-! ## No control characters -/

theorem le_toNat_of_mem_encode {cs : List Char} : ∀ x ∈ encode cs, 0x20 ≤ x.toNat := by
  have hdigit : ∀ n < 0x10, 0x20 ≤ (Nat.digitChar n).toNat := by decide
  intro x hx
  obtain ⟨c, -, hx⟩ := List.mem_flatMap.mp hx
  rcases encodeChar_cases c with ⟨hplain, h⟩ | ⟨e, -, he, -, h⟩ | ⟨hcontrol, h⟩
  · rw [h] at hx
    obtain rfl := List.mem_singleton.mp hx
    simp only [mustEscape, Bool.or_eq_false_iff, decide_eq_false_iff_not] at hplain
    omega
  · rw [h] at hx
    simp only [List.mem_cons, List.not_mem_nil, or_false] at hx
    rcases hx with rfl | rfl
    · decide
    · exact he
  · rw [h] at hx
    simp only [List.mem_cons, List.not_mem_nil, or_false] at hx
    have hhigh := hdigit (c.toNat / 16) (by omega)
    have hlow := hdigit (c.toNat % 16) (by omega)
    rcases hx with rfl | rfl | rfl | rfl | rfl | rfl
    · decide
    · decide
    · decide
    · decide
    · exact hhigh
    · exact hlow

/-! ## Between quotation marks -/

theorem foldl_step_encodeChar (done : List Lexeme) (w : List Char) (c : Char) :
    (encodeChar c).foldl Scan.step ⟨done, .quoted w⟩ =
      ⟨done, .quoted ((encodeChar c).reverse ++ w)⟩ := by
  have hdigit : ∀ n < 0x10, Nat.digitChar n ≠ '"' ∧ Nat.digitChar n ≠ '\\' := by decide
  rcases encodeChar_cases c with ⟨hplain, h⟩ | ⟨e, -, -, -, h⟩ | ⟨hcontrol, h⟩
  · simp only [mustEscape, Bool.or_eq_false_iff, beq_eq_false_iff_ne, ne_eq] at hplain
    simp [h, Scan.step, hplain.1.1, hplain.1.2]
  · simp [h, Scan.step]
  · obtain ⟨hquote, hbackslash⟩ := hdigit (c.toNat / 16) (by omega)
    obtain ⟨hquote', hbackslash'⟩ := hdigit (c.toNat % 16) (by omega)
    simp [h, Scan.step, hquote, hbackslash, hquote', hbackslash']

theorem foldl_step_encode (done : List Lexeme) (w cs : List Char) :
    (encode cs).foldl Scan.step ⟨done, .quoted w⟩ = ⟨done, .quoted ((encode cs).reverse ++ w)⟩ := by
  induction cs generalizing w with
  | nil => rfl
  | cons c cs ih =>
      have hcons : encode (c :: cs) = encodeChar c ++ encode cs := List.flatMap_cons
      rw [hcons, List.foldl_append, foldl_step_encodeChar, ih, List.reverse_append,
        List.append_assoc]

end Json.Quoted

namespace Json

open Quoted

theorem textOf?_encode (s : String) : textOf? (encode s.toList) = some (some s) := by
  rw [textOf?, items?_encode, Option.map_some, text?_map_char, Option.map_some,
    String.ofList_toList]

theorem lexemes_quote (s : String) (cs : List Char) :
    lexemes (Document.quote s ++ cs) = .quoted (encode s.toList) :: lexemes cs := by
  have hquote : Document.quote s ++ cs = '"' :: (encode s.toList ++ '"' :: cs) := by
    simp [Document.quote]
  have hopen : Scan.step Scan.start '"' = ⟨[], .quoted []⟩ := rfl
  have hclose : Scan.step ⟨[], .quoted (encode s.toList).reverse⟩ '"' =
      ⟨[.quoted (encode s.toList)], .word []⟩ := by
    simp [Scan.step]
  rw [hquote, lexemes, List.foldl_cons, hopen, List.foldl_append, foldl_step_encode,
    List.append_nil, List.foldl_cons, hclose, Scan.finish_foldl_step]
  rfl

end Json

end Bookshelf
