import Bookshelf.Proofs.Digits
import Bookshelf.Proofs.TextCuts

namespace Bookshelf

/-!
# Texts and lists of entries

A list of words and parentheses, written with spaces in between, has the same
tokens as the list. Conversely the tokens of a text, displayed one by one, are a
list of entries with these tokens, unless the text has an operator word right
before a blank beyond ASCII. That word is a genre in the text, but as an entry it
is the operator.
-/

namespace Token

open Text

variable {w : List Char} {c : Char}

/-- An entry that a text does not cut into parts: a parenthesis or a word. -/
def IsPiece (entry : String) : Prop :=
  entry = "(" ∨ entry = ")" ∨ entry ≠ "" ∧ IsWord entry

instance (entry : String) : Decidable (IsPiece entry) :=
  instDecidableOr

theorem isWord_iff {name : String} : IsWord name ↔ ∀ d ∈ name.toList, separates d = false :=
  forall₂_congr fun _ _ => separates_eq_false_iff.symm

theorem ofEntry_eq_ofWord (hw : ∀ d ∈ w, separates d = false) : ofEntry w = ofWord w none := by
  rw [ofWord_none]
  apply ofEntry_of_ne
  · rintro rfl
    cases hw '(' List.mem_cons_self
  · rintro rfl
    cases hw ')' List.mem_cons_self

theorem IsPiece.trim_eq_self {entry : String} (h : IsPiece entry) :
    trim entry.toList = entry.toList := by
  rcases h with rfl | rfl | ⟨-, hword⟩
  · rfl
  · rfl
  · exact Text.trim_eq_self fun c hc => (hword c hc).1

theorem IsPiece.toList_ne_nil {entry : String} (h : IsPiece entry) : entry.toList ≠ [] := by
  rcases h with rfl | rfl | ⟨hne, -⟩
  · exact List.cons_ne_nil _ _
  · exact List.cons_ne_nil _ _
  · exact mt String.toList_eq_nil_iff.mp hne

theorem ofEntries_of_forall {entries : List String} (h : ∀ e ∈ entries, IsPiece e) :
    ofEntries entries = entries.map fun e => ofEntry e.toList := by
  have htrim : entries.map (fun e => trim e.toList) = entries.map String.toList :=
    List.map_congr_left fun e he => (h e he).trim_eq_self
  have hfilter : (entries.map String.toList).filter (· ≠ []) = entries.map String.toList := by
    apply List.filter_eq_self.mpr
    intro cs hcs
    obtain ⟨e, he, rfl⟩ := List.mem_map.mp hcs
    exact decide_eq_true (h e he).toList_ne_nil
  rw [ofEntries, htrim, hfilter, List.map_map]
  rfl

/-! ## Entries written as a text -/

theorem tokensBefore_piece {entry : String} (h : IsPiece entry) {next : Option Char}
    (hnext : next.any isWideBlank = false) :
    tokensBefore next entry.toList = [ofEntry entry.toList] := by
  rcases h with rfl | rfl | ⟨hne, hword⟩
  · rfl
  · rfl
  · have hw := isWord_iff.mp hword
    rw [tokensBefore_word (mt String.toList_eq_nil_iff.mp hne) hw, ofEntry_eq_ofWord hw,
      ofWord_eq_ofWord_none (Or.inl hnext)]

theorem ofText_intercalate {entries : List String} (h : ∀ e ∈ entries, IsPiece e) :
    ofText (" ".intercalate entries) = ofEntries entries := by
  have hspace : " ".toList = [' '] := rfl
  have hnext : (some ' ').any isWideBlank = false := rfl
  rw [ofEntries_of_forall h, ofText_eq_tokensBefore, String.toList_intercalate, hspace]
  induction entries with
  | nil => rfl
  | cons e entries ih =>
      obtain ⟨he, hentries⟩ := List.forall_mem_cons.mp h
      cases entries with
      | nil =>
          rw [List.map_singleton, List.map_singleton, List.intercalate_singleton]
          exact tokensBefore_piece he Option.any_none
      | cons e' entries =>
          rw [List.map_cons, List.map_cons, List.intercalate_cons_cons, List.append_assoc,
            List.singleton_append, ← List.map_cons, tokensBefore_append (separates_of_isBlank rfl),
            tokensBefore_piece he hnext, punctuation_of_isBlank rfl, List.nil_append, ih hentries]
          rfl

/-! ## Tokens displayed as entries -/

/-- No operator word of the text has a blank beyond ASCII right behind it. -/
def NoHiddenOperator (cs : List Char) : Prop :=
  ∀ a c b, cs = a ++ c :: b → isWideBlank c = true → operator? (lastWord a) = none

theorem separates_of_isWideBlank (hc : isWideBlank c = true) : separates c = true :=
  separates_of_isBlank (isBlank_of_isWideBlank hc)

theorem noHiddenOperator_of_forall (hw : ∀ d ∈ w, separates d = false) : NoHiddenOperator w := by
  rintro a c b rfl hwide
  have hc := hw c (List.mem_append_right a List.mem_cons_self)
  rw [separates_of_isWideBlank hwide] at hc
  cases hc

/-- A separating character of a text stands right behind its first word or further behind. -/
theorem cut_cases (hw : ∀ d ∈ w, separates d = false) {rest a b : List Char} {d : Char}
    (hd : separates d = true) (heq : w ++ c :: rest = a ++ d :: b) :
    a = w ∧ d = c ∨ ∃ front, a = w ++ c :: front ∧ rest = front ++ d :: b := by
  have hfront : ∃ front, a = w ++ front ∧ c :: rest = front ++ d :: b := by
    rcases List.append_eq_append_iff.mp heq with hfront | ⟨front, rfl, hback⟩
    · exact hfront
    · -- Inside the word there is no separating character.
      cases front with
      | nil => exact ⟨[], by simp, hback.symm⟩
      | cons x front =>
          obtain ⟨rfl, -⟩ := List.cons.inj hback
          rw [hw d (List.mem_append_right a List.mem_cons_self)] at hd
          cases hd
  obtain ⟨front, rfl, hback⟩ := hfront
  cases front with
  | nil =>
      obtain ⟨rfl, -⟩ := List.cons.inj hback
      exact Or.inl ⟨List.append_nil w, rfl⟩
  | cons x front =>
      obtain ⟨rfl, rfl⟩ := List.cons.inj hback
      exact Or.inr ⟨front, rfl, rfl⟩

theorem noHiddenOperator_cut (hw : ∀ d ∈ w, separates d = false) (hc : separates c = true)
    (rest : List Char) :
    NoHiddenOperator (w ++ c :: rest) ↔
      (isWideBlank c = true → operator? w = none) ∧ NoHiddenOperator rest := by
  constructor
  · intro h
    constructor
    · intro hwide
      have hword := h w c rest rfl hwide
      rwa [lastWord_of_forall hw] at hword
    · rintro a d b rfl hwide
      have hrest := h (w ++ c :: a) d b (by simp) hwide
      rwa [lastWord_append_cons hc] at hrest
  · rintro ⟨hword, hrest⟩ a d b heq hwide
    rcases cut_cases hw (separates_of_isWideBlank hwide) heq with ⟨rfl, rfl⟩ | ⟨front, rfl, rfl⟩
    · rw [lastWord_of_forall hw]
      exact hword hwide
    · rw [lastWord_append_cons hc]
      exact hrest front d b rfl hwide

theorem ofEntry_render_of_operator? {op : Token String} (h : operator? w = some op) :
    ofEntry op.render.toList = op := by
  rcases operator?_cases h with rfl | rfl | rfl <;> rfl

theorem ofEntry_render_ofWord_none (hw : ∀ d ∈ w, separates d = false) :
    ofEntry (ofWord w none).render.toList = ofWord w none := by
  cases hop : operator? w with
  | none =>
      have hgenre : ofWord w none = .genre (String.ofList w) := by
        rw [ofWord_none, hop, Option.getD_none]
      have htext : (ofWord w none).render.toList = w := by
        rw [hgenre]
        exact String.toList_ofList
      rw [htext, ofEntry_eq_ofWord hw]
  | some op =>
      rw [ofWord_none, hop, Option.getD_some]
      exact ofEntry_render_of_operator? hop

/-- A word in front of a character reads the same as an entry, unless it hides an operator. -/
theorem ofEntry_render_ofWord_iff (hw : ∀ d ∈ w, separates d = false) :
    ofEntry (ofWord w (some c)).render.toList = ofWord w (some c) ↔
      (isWideBlank c = true → operator? w = none) := by
  cases hwide : isWideBlank c with
  | false =>
      have hnext : (some c).any isWideBlank = false := hwide
      rw [ofWord_eq_ofWord_none (Or.inl hnext)]
      exact iff_of_true (ofEntry_render_ofWord_none hw) (fun h => nomatch h)
  | true =>
      have htext : (Token.genre (String.ofList w)).render.toList = w := String.toList_ofList
      rw [ofWord_of_isWideBlank hwide, htext, ofEntry_eq_ofWord hw, ofWord_none]
      cases hop : operator? w with
      | none => simp
      | some op => simpa using ne_genre_of_operator? hop (String.ofList w)

/-- Displayed and read as an entry, each token of a text comes back if the text hides
no operator. -/
theorem forall_ofEntry_render_iff (cs : List Char) :
    (∀ t ∈ tokensBefore none cs, ofEntry t.render.toList = t) ↔ NoHiddenOperator cs := by
  induction cs using text_induction with
  | word w hw =>
      refine iff_of_true ?_ (noHiddenOperator_of_forall hw)
      rw [tokensBefore_of_forall hw]
      split
      · exact List.forall_mem_nil _
      · exact List.forall_mem_singleton.mpr (ofEntry_render_ofWord_none hw)
  | cut w c rest hw hc ih =>
      have hpunctuation : ∀ t ∈ punctuation c, ofEntry t.render.toList = t := by
        intro t ht
        rcases punctuation_cases ht with rfl | rfl <;> rfl
      rw [tokensBefore_append hc, List.forall_mem_append, List.forall_mem_append, ih,
        noHiddenOperator_cut hw hc, and_iff_right hpunctuation, tokensBefore_of_forall hw]
      apply and_congr_left'
      split
      · next hnil => simp [hnil, operator?]
      · rw [List.forall_mem_singleton]
        exact ofEntry_render_ofWord_iff hw

theorem isPiece_render_of_operator? {op : Token String} (h : operator? w = some op) :
    IsPiece op.render := by
  refine Or.inr (Or.inr ?_)
  rcases operator?_cases h with rfl | rfl | rfl
  · exact ⟨by decide, by decide⟩
  · exact ⟨by decide, by decide⟩
  · exact ⟨by decide, by decide⟩

theorem isPiece_render_ofWord (hw : ∀ d ∈ w, separates d = false) (hne : w ≠ [])
    (next : Option Char) : IsPiece (ofWord w next).render := by
  have hgenre : IsPiece (Token.genre (String.ofList w)).render := by
    refine Or.inr (Or.inr ⟨?_, ?_⟩)
    · intro hempty
      exact hne (String.ofList_eq_empty_iff.mp hempty)
    · rw [isWord_iff, render, String.toList_ofList]
      exact hw
  unfold ofWord
  split
  · exact hgenre
  · cases hop : operator? w with
    | none => exact hgenre
    | some op => exact isPiece_render_of_operator? hop

theorem isPiece_render {t : Token String} {next : Option Char} {cs : List Char}
    (ht : t ∈ tokensBefore next cs) : IsPiece t.render := by
  induction cs using text_induction with
  | word w hw =>
      obtain ⟨hne, rfl⟩ := (mem_tokensBefore_of_forall hw).mp ht
      exact isPiece_render_ofWord hw hne next
  | cut w c rest hw hc ih =>
      rw [tokensBefore_append hc, List.mem_append, List.mem_append,
        mem_tokensBefore_of_forall hw] at ht
      rcases ht with ⟨hne, rfl⟩ | ht | ht
      · exact isPiece_render_ofWord hw hne (some c)
      · rcases punctuation_cases ht with rfl | rfl
        · exact Or.inl rfl
        · exact Or.inr (Or.inl rfl)
      · exact ih ht

/-- The tokens of a text, displayed and read as a list of entries. -/
theorem ofEntries_map_render_eq_iff (text : String) :
    ofEntries ((ofText text).map render) = ofText text ↔ NoHiddenOperator text.toList := by
  have hpieces : ∀ e ∈ (ofText text).map render, IsPiece e := by
    intro e he
    obtain ⟨t, ht, rfl⟩ := List.mem_map.mp he
    exact isPiece_render ht
  have hid : ofText text = (ofText text).map fun t => t := (List.map_id'' (fun _ => rfl) _).symm
  rw [ofEntries_of_forall hpieces, List.map_map, ← forall_ofEntry_render_iff,
    ← ofText_eq_tokensBefore]
  conv_lhs => rhs; rw [hid]
  exact List.map_inj_left

end Token

namespace Vocabulary

open Token

/-- A list of pieces reads the same as a text, and so do the tokens of a text as a list, exactly
where no operator word is hidden by the blank behind it. -/
theorem tokenizeList_agrees (v : Vocabulary) :
    (∀ entries : List String, (∀ e ∈ entries, IsPiece e) →
      v.tokenize (" ".intercalate entries) = v.tokenizeList entries) ∧
    ∀ text : String, v.tokenizeList ((v.tokenize text).map display) = v.tokenize text ↔
      ∀ a c b, text.toList = a ++ c :: b → Text.isWideBlank c = true →
        operator? (lastWord a) = none := by
  constructor
  · intro entries h
    rw [tokenize, ofText_intercalate h, tokenizeList]
  · intro text
    rw [map_display_tokenize, tokenizeList, tokenize, v.resolveTokens_injective.eq_iff]
    exact ofEntries_map_render_eq_iff text

theorem tokenizeList_agrees_horrors :
    let v := empty.record "Horror"
    let entries := ["(", "HORROR", "aNd", "nOt", "drama", ")"]
    (∀ e ∈ entries, IsPiece e) ∧
      v.tokenize (" ".intercalate entries) = v.tokenizeList entries ∧
      v.tokenizeList ((v.tokenize "horror or\u2003x").map display) ≠
        v.tokenize "horror or\u2003x" := by
  intro v entries
  obtain ⟨hentries, htext⟩ := v.tokenizeList_agrees
  have hpieces : ∀ e ∈ entries, IsPiece e := by decide
  refine ⟨hpieces, hentries entries hpieces, ?_⟩
  intro heq
  have hnone := (htext "horror or\u2003x").mp heq "horror or".toList '\u2003' ['x'] rfl rfl
  have hsome : operator? (lastWord "horror or".toList) = some .or := by decide
  rw [hsome] at hnone
  cases hnone

end Vocabulary

end Bookshelf
