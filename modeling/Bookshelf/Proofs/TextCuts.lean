import Bookshelf.Proofs.Trimming
import Mathlib.Data.List.Forall2

namespace Bookshelf

/-!
# Texts cut in two

A text can be cut at any blank or parenthesis: it has the tokens of the two
parts, with the parenthesis between them. Only a blank beyond ASCII right behind
an operator word is different. In front of it the word is a genre, while at the
end of a text it is the operator. Displayed one after the other, the tokens of a
text spell all of its characters but the blanks.
-/

namespace Text

variable {c : Char}

theorem isBlank_of_isWideBlank (hc : isWideBlank c = true) : isBlank c = true := by
  rw [isWideBlank, Bool.and_eq_true] at hc
  exact hc.1

theorem isWideBlank_eq_false_of_lt (hc : c.toNat < 0x80) : isWideBlank c = false := by
  have hlow : decide (0x80 ≤ c.toNat) = false := decide_eq_false (by omega)
  rw [isWideBlank, hlow, Bool.and_false]

end Text

namespace Token

variable {c : Char} {w : List Char}

/-- A text is a word, or a word in front of a separating character and a shorter text. -/
@[elab_as_elim]
theorem text_induction {P : List Char → Prop}
    (word : ∀ w, (∀ d ∈ w, separates d = false) → P w)
    (cut : ∀ w c rest, (∀ d ∈ w, separates d = false) → separates c = true → P rest →
      P (w ++ c :: rest))
    (cs : List Char) : P cs := by
  -- The word in front takes the characters one by one until it is cut off.
  have hfront : ∀ w, (∀ d ∈ w, separates d = false) → P (w ++ cs) := by
    induction cs with
    | nil =>
        intro w hw
        rw [List.append_nil]
        exact word w hw
    | cons c cs ih =>
        intro w hw
        cases hc : separates c with
        | true =>
            apply cut w c cs hw hc
            exact ih [] (List.forall_mem_nil _)
        | false =>
            rw [List.append_cons]
            apply ih
            intro d hd
            rcases List.mem_append.mp hd with hd | hd
            · exact hw d hd
            · rwa [List.mem_singleton.mp hd]
  exact hfront [] (List.forall_mem_nil _)

theorem tokensBefore_of_forall (hw : ∀ d ∈ w, separates d = false) (next : Option Char) :
    tokensBefore next w = if w = [] then [] else [ofWord w next] := by
  split
  · next hnil => rw [hnil, tokensBefore_nil]
  · next hne => exact tokensBefore_word hne hw next

theorem mem_tokensBefore_of_forall {t : Token String} {next : Option Char}
    (hw : ∀ d ∈ w, separates d = false) :
    t ∈ tokensBefore next w ↔ w ≠ [] ∧ t = ofWord w next := by
  by_cases hnil : w = [] <;> simp [tokensBefore_of_forall hw, hnil]

theorem lastWord_of_forall (hw : ∀ d ∈ w, separates d = false) : lastWord w = w := by
  have hall : ∀ d ∈ w.reverse, (!separates d) = true := by
    intro d hd
    rw [hw d (List.mem_reverse.mp hd), Bool.not_false]
  rw [lastWord, List.takeWhile_eq_self_iff.mpr hall, List.reverse_reverse]

theorem lastWord_append_cons (hc : separates c = true) (a b : List Char) :
    lastWord (a ++ c :: b) = lastWord b := by
  have hrest := Scan.foldl_step_append b []
    (punctuation c ++ (a.foldl Scan.step .start).endWord c) []
  rw [List.nil_append] at hrest
  rw [← Scan.reverse_word_foldl_step, List.foldl_append, List.foldl_cons,
    Scan.step_of_separates hc, hrest]
  exact Scan.reverse_word_foldl_step b

/-! ## What the tokens display -/

/-- Characters spell a displayed token if they are its text, or name the same operator in
another case. -/
def Spells (w : List Char) (name : String) : Prop :=
  name.toList = w ∨ ∃ op, operator? w = some op ∧ name = op.render

theorem spells_render_ofWord (w : List Char) (next : Option Char) :
    Spells w (ofWord w next).render := by
  have hgenre : Spells w (Token.genre (String.ofList w)).render := Or.inl String.toList_ofList
  unfold ofWord
  split
  · exact hgenre
  · cases hop : operator? w with
    | none => exact hgenre
    | some op => exact Or.inr ⟨op, hop, rfl⟩

theorem exists_spells_word (hw : ∀ d ∈ w, separates d = false) (next : Option Char) :
    ∃ pieces : List (List Char), pieces.flatten = w ∧
      List.Forall₂ Spells pieces ((tokensBefore next w).map render) := by
  rw [tokensBefore_of_forall hw]
  split
  · next hnil => exact ⟨[], hnil.symm, .nil⟩
  · exact ⟨[w], by simp, .cons (spells_render_ofWord w next) .nil⟩

theorem exists_spells_punctuation (hc : separates c = true) :
    ∃ pieces : List (List Char), pieces.flatten = [c].filter (!Text.isBlank ·) ∧
      List.Forall₂ Spells pieces ((punctuation c).map render) := by
  rcases separates_cases hc with hblank | rfl | rfl
  · exact ⟨[], by simp [hblank], by simp [punctuation_of_isBlank hblank]⟩
  · exact ⟨[['(']], rfl, .cons (Or.inl rfl) .nil⟩
  · exact ⟨[[')']], rfl, .cons (Or.inl rfl) .nil⟩

theorem filter_isBlank_of_forall (hw : ∀ d ∈ w, separates d = false) :
    w.filter (!Text.isBlank ·) = w := by
  apply List.filter_eq_self.mpr
  intro d hd
  rw [(separates_eq_false_iff.mp (hw d hd)).1, Bool.not_false]

/-- Each token is spelled by a piece of the text, and the pieces are all of it but the blanks. -/
theorem exists_spells (next : Option Char) (cs : List Char) :
    ∃ pieces : List (List Char), pieces.flatten = cs.filter (!Text.isBlank ·) ∧
      List.Forall₂ Spells pieces ((tokensBefore next cs).map render) := by
  induction cs using text_induction generalizing next with
  | word w hw =>
      rw [filter_isBlank_of_forall hw]
      exact exists_spells_word hw next
  | cut w c rest hw hc ih =>
      obtain ⟨front, hfront, hfrontSpells⟩ := exists_spells_word hw (some c)
      obtain ⟨middle, hmiddle, hmiddleSpells⟩ := exists_spells_punctuation hc
      obtain ⟨back, hback, hbackSpells⟩ := ih next
      refine ⟨front ++ (middle ++ back), ?_, ?_⟩
      · rw [List.flatten_append, List.flatten_append, hfront, hmiddle, hback,
          List.append_cons, List.filter_append, List.filter_append, filter_isBlank_of_forall hw,
          List.append_assoc]
      · rw [tokensBefore_append hc, List.map_append, List.map_append]
        exact List.rel_append hfrontSpells (List.rel_append hmiddleSpells hbackSpells)

theorem display_map_literal (v : Vocabulary) (t : Token String) :
    (t.map v.literal).display = t.render := by
  cases t <;> rfl

end Token

namespace Vocabulary

open Token

variable {c : Char}

theorem map_display_tokenize (v : Vocabulary) (text : String) :
    (v.tokenize text).map display = (ofText text).map render := by
  rw [tokenize, resolveTokens, List.map_map]
  apply List.map_congr_left
  intro t _
  exact display_map_literal v t

theorem resolveTokens_append (v : Vocabulary) (ts us : List (Token String)) :
    v.resolveTokens (ts ++ us) = v.resolveTokens ts ++ v.resolveTokens us :=
  List.map_append

/-- The tokens of a text that is cut at a separating character. -/
theorem tokenize_cut (v : Vocabulary) (hc : separates c = true) (a b : String) :
    v.tokenize (a.push c ++ b) =
      v.resolveTokens (tokensBefore (some c) a.toList) ++
        (v.resolveTokens (punctuation c) ++ v.tokenize b) := by
  have htext : (a.push c ++ b).toList = a.toList ++ c :: b.toList := by simp
  rw [tokenize, ofText_eq_tokensBefore, htext, tokensBefore_append hc, resolveTokens_append,
    resolveTokens_append, ← ofText_eq_tokensBefore, ← tokenize]

theorem tokenize_cut_of_blank (v : Vocabulary) (hc : Text.isBlank c = true) (a b : String) :
    v.tokenize (a.push c ++ b) =
      v.resolveTokens (tokensBefore (some c) a.toList) ++ v.tokenize b := by
  rw [tokenize_cut v (separates_of_isBlank hc), punctuation_of_isBlank hc]
  rfl

/-- Most cuts leave the tokens in front as they are. -/
theorem resolveTokens_tokensBefore (v : Vocabulary) {a : String}
    (h : Text.isWideBlank c = false ∨ operator? (lastWord a.toList) = none) :
    v.resolveTokens (tokensBefore (some c) a.toList) = v.tokenize a := by
  have hnext : (some c).any Text.isWideBlank = false ∨ operator? (lastWord a.toList) = none := h
  rw [tokensBefore_eq_tokensBefore_none hnext, ← ofText_eq_tokensBefore, ← tokenize]

/-- Right before a blank beyond ASCII an operator word is a genre, and only this token differs. -/
theorem exists_tokenize_cut_eq (v : Vocabulary) (hc : Text.isWideBlank c = true) {a : String}
    {op : Token String} (ha : operator? (lastWord a.toList) = some op) (b : String) :
    ∃ ts, v.tokenize a ++ v.tokenize b = ts ++ op.map v.literal :: v.tokenize b ∧
      v.tokenize (a.push c ++ b) =
        ts ++ .genre (v.literal (String.ofList (lastWord a.toList))) :: v.tokenize b := by
  obtain ⟨ts, hend, hbefore⟩ := exists_tokensBefore_of_operator? ha
  refine ⟨v.resolveTokens ts, ?_, ?_⟩
  · rw [tokenize, ofText_eq_tokensBefore, hend, resolveTokens_append, List.append_assoc]
    rfl
  · rw [tokenize_cut_of_blank v (Text.isBlank_of_isWideBlank hc), hbefore c hc,
      resolveTokens_append, List.append_assoc]
    rfl

theorem tokenize_cut_eq_iff (v : Vocabulary) (hc : Text.isWideBlank c = true) (a b : String) :
    v.tokenize (a.push c ++ b) = v.tokenize a ++ v.tokenize b ↔
      operator? (lastWord a.toList) = none := by
  constructor
  · intro heq
    by_contra hsome
    obtain ⟨op, hop⟩ := Option.ne_none_iff_exists'.mp hsome
    obtain ⟨ts, hparts, hwhole⟩ := v.exists_tokenize_cut_eq hc hop b
    rw [hparts, hwhole, List.append_cancel_left_eq, List.cons.injEq] at heq
    rcases operator?_cases hop with rfl | rfl | rfl <;> cases heq.1
  · intro hnone
    rw [tokenize_cut_of_blank v (Text.isBlank_of_isWideBlank hc),
      resolveTokens_tokensBefore v (Or.inr hnone)]

/-- How the tokens of a text follow from those of the parts before and behind a character, and
what they spell. -/
theorem tokenize_push_append (v : Vocabulary) (a b : String) :
    (∀ c, Text.isBlank c = true → c.toNat < 0x80 →
      v.tokenize (a.push c ++ b) = v.tokenize a ++ v.tokenize b) ∧
    v.tokenize (a.push '(' ++ b) = v.tokenize a ++ [.opening] ++ v.tokenize b ∧
    v.tokenize (a.push ')' ++ b) = v.tokenize a ++ [.closing] ++ v.tokenize b ∧
    (∀ c, Text.isWideBlank c = true →
      (v.tokenize (a.push c ++ b) = v.tokenize a ++ v.tokenize b ↔
        operator? (lastWord a.toList) = none) ∧
      ∀ op, operator? (lastWord a.toList) = some op →
        ∃ ts, v.tokenize a ++ v.tokenize b = ts ++ op.map v.literal :: v.tokenize b ∧
          v.tokenize (a.push c ++ b) =
            ts ++ .genre (v.literal (String.ofList (lastWord a.toList))) :: v.tokenize b) ∧
    ∃ pieces : List (List Char), pieces.flatten = a.toList.filter (!Text.isBlank ·) ∧
      List.Forall₂ Spells pieces ((v.tokenize a).map display) := by
  refine ⟨?_, ?_, ?_, ?_, ?_⟩
  · intro c hblank hascii
    have hwide := Text.isWideBlank_eq_false_of_lt hascii
    rw [tokenize_cut_of_blank v hblank, resolveTokens_tokensBefore v (Or.inl hwide)]
  · rw [tokenize_cut v rfl, resolveTokens_tokensBefore v (Or.inl rfl), List.append_assoc]
    rfl
  · rw [tokenize_cut v rfl, resolveTokens_tokensBefore v (Or.inl rfl), List.append_assoc]
    rfl
  · intro c hwide
    exact ⟨v.tokenize_cut_eq_iff hwide a b, fun op hop => v.exists_tokenize_cut_eq hwide hop b⟩
  · rw [map_display_tokenize, ofText_eq_tokensBefore]
    exact exists_spells none a.toList

theorem tokenize_push_append_hiddenNot :
    let v := empty.record "Horror"
    let a := "(HORROR)And nOt"
    Text.isBlank '\t' = true ∧
      v.tokenize (a.push '\t' ++ "horror") = v.tokenize a ++ v.tokenize "horror" ∧
      Text.isWideBlank '\u3000' = true ∧ operator? (lastWord a.toList) = some .not ∧
      v.tokenize (a.push '\u3000' ++ "horror") ≠ v.tokenize a ++ v.tokenize "horror" ∧
      ∃ ts, v.tokenize a ++ v.tokenize "horror" = ts ++ .not :: v.tokenize "horror" ∧
        v.tokenize (a.push '\u3000' ++ "horror") =
          ts ++ .genre ⟨"nOt", none⟩ :: v.tokenize "horror" := by
  intro v a
  obtain ⟨hascii, -, -, hwide, -⟩ := v.tokenize_push_append a "horror"
  obtain ⟨hiff, hdiffer⟩ := hwide '\u3000' rfl
  have hnot : operator? (lastWord a.toList) = some .not := by decide
  have hgenre : v.literal (String.ofList (lastWord a.toList)) = ⟨"nOt", none⟩ := by decide
  refine ⟨rfl, hascii '\t' rfl (by decide), rfl, hnot, ?_, ?_⟩
  · rw [ne_eq, hiff, hnot]
    exact Option.some_ne_none _
  · rw [← hgenre]
    exact hdiffer .not hnot

end Vocabulary

end Bookshelf
