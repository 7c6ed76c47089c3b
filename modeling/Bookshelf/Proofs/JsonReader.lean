import Bookshelf.Json.Reader
import Bookshelf.Proofs.Lexemes
import Mathlib.Data.List.Forall2

namespace Bookshelf

/-!
# Reading values in any surrounding

The reader treats a value the same wherever it stands: what is open around it
waits below and is not looked at before the value is complete. So texts that
are values of their own make an array when they are put between brackets.
-/

namespace Json

namespace ReadState

/-- The state with more that is open around it. -/
def within (outer : List Open) : ReadState → ReadState
  | .due inner => .due (inner ++ outer)
  | .item inner => .item (inner ++ outer)
  | .member inner => .member (inner ++ outer)
  | .key inner members => .key (inner ++ outer) members
  | .colon inner members name => .colon (inner ++ outer) members name
  | .filled inner value => .filled (inner ++ outer) value

variable {s t : ReadState} {l : Lexeme} {outer : List Open}

theorem open?_within {inner : List Open} (h : open? inner l = some t) :
    open? (inner ++ outer) l = some (t.within outer) := by
  cases l with
  | word w | quoted content =>
      obtain ⟨v, hv, rfl⟩ := Option.map_eq_some_iff.mp h
      exact Option.map_eq_some_iff.mpr ⟨v, hv, rfl⟩
  | openBracket | openBrace =>
      obtain rfl := Option.some.inj h
      rfl
  | closeBracket | closeBrace | comma | colon | unclosed => cases h

theorem key?_within {inner : List Open} {members : List (Option String × Json)}
    (h : key? inner members l = some t) :
    key? (inner ++ outer) members l = some (t.within outer) := by
  cases l with
  | quoted content =>
      obtain ⟨name, hname, rfl⟩ := Option.map_eq_some_iff.mp h
      exact Option.map_eq_some_iff.mpr ⟨name, hname, rfl⟩
  | word | openBracket | openBrace | closeBracket | closeBrace | comma | colon | unclosed => cases h

theorem close?_within {inner : List Open} {value : Json} (h : close? value inner l = some t) :
    close? value (inner ++ outer) l = some (t.within outer) := by
  unfold close? at h
  split at h <;> cases h <;> rfl

theorem step_item_of_ne {open' : List Open} (hl : l ≠ .closeBracket) :
    step (.item open') l = open? (.array [] :: open') l := by
  cases l with
  | closeBracket => exact (hl rfl).elim
  | _ => rfl

theorem step_member_of_ne {open' : List Open} (hl : l ≠ .closeBrace) :
    step (.member open') l = key? open' [] l := by
  cases l with
  | closeBrace => exact (hl rfl).elim
  | _ => rfl

theorem step_within (h : s.step l = some t) :
    (s.within outer).step l = some (t.within outer) := by
  cases s with
  | due inner => exact open?_within h
  | item inner =>
      by_cases hl : l = .closeBracket
      · subst hl
        obtain rfl := Option.some.inj h
        rfl
      · rw [step_item_of_ne hl] at h
        rw [within, step_item_of_ne hl, ← List.cons_append]
        exact open?_within h
  | member inner =>
      by_cases hl : l = .closeBrace
      · subst hl
        obtain rfl := Option.some.inj h
        rfl
      · rw [step_member_of_ne hl] at h
        rw [within, step_member_of_ne hl]
        exact key?_within h
  | key inner members => exact key?_within h
  | colon inner members name =>
      cases l with
      | colon =>
          obtain rfl := Option.some.inj h
          rfl
      | _ => cases h
  | filled inner value => exact close?_within h

theorem run_cons (s : ReadState) (l : Lexeme) (ls : List Lexeme) :
    s.run (l :: ls) = (s.step l).bind fun t => t.run ls := rfl

theorem run_within {ls : List Lexeme} (h : s.run ls = some t) :
    (s.within outer).run ls = some (t.within outer) := by
  induction ls generalizing s with
  | nil =>
      obtain rfl : s = t := Option.some.inj h
      rfl
  | cons l ls ih =>
      rw [run_cons] at h
      obtain ⟨u, hu, ht⟩ := Option.bind_eq_some_iff.mp h
      rw [run_cons, step_within hu]
      exact ih ht

theorem unclosed_notMem_of_run {ls : List Lexeme} (h : s.run ls = some t) : .unclosed ∉ ls := by
  induction ls generalizing s with
  | nil => exact List.not_mem_nil
  | cons l ls ih =>
      rw [run_cons] at h
      obtain ⟨u, hu, ht⟩ := Option.bind_eq_some_iff.mp h
      have hl : .unclosed ≠ l := by
        rintro rfl
        cases s with
        | filled inner value => cases inner with
          | nil => cases hu
          | cons o inner => cases o <;> cases hu
        | _ => cases hu
      exact fun hmem => (List.mem_cons.mp hmem).elim hl (ih ht)

theorem run_item_of_run_due {ls : List Lexeme} (hne : ls ≠ [])
    (h : (due (.array [] :: outer)).run ls = some t) : (item outer).run ls = some t := by
  cases ls with
  | nil => exact (hne rfl).elim
  | cons l ls =>
      -- The first item of an array is read like a later one, but it may be missing.
      have hl : l ≠ .closeBracket := by
        rintro rfl
        cases h
      rw [run_cons, step_item_of_ne hl]
      exact h

end ReadState

/-- The lexemes are one whole value. -/
def Spells (ls : List Lexeme) (v : Json) : Prop :=
  (ReadState.due []).run ls = some (.filled [] v)

section

open ReadState

variable {ls : List Lexeme} {v : Json}

theorem read?_eq_some_iff {text : String} :
    read? text = some v ↔ Spells (lexemes text.toList) v := by
  rw [read?, Spells, Option.bind_eq_some_iff]
  constructor
  · rintro ⟨s, hrun, hfinish⟩
    unfold finish at hfinish
    split at hfinish
    · obtain rfl := Option.some.inj hfinish
      exact hrun
    · cases hfinish
  · intro hrun
    exact ⟨_, hrun, rfl⟩

theorem Spells.ne_nil (h : Spells ls v) : ls ≠ [] := by
  rintro rfl
  cases h

theorem Spells.unclosed_notMem (h : Spells ls v) : .unclosed ∉ ls :=
  unclosed_notMem_of_run h

theorem Spells.run (h : Spells ls v) (outer : List Open) :
    (due outer).run ls = some (.filled outer v) :=
  run_within (s := .due []) h

/-! ## Arrays -/

theorem run_intercalate_comma (h : Spells ls v) {lss : List (List Lexeme)} {vs : List Json}
    (hs : List.Forall₂ Spells lss vs) (items : List Json) (outer : List Open) :
    (due (.array items :: outer)).run ([.comma].intercalate (ls :: lss) ++ [.closeBracket]) =
      some (.filled outer (.array (items.reverse ++ v :: vs))) := by
  induction hs generalizing ls v items with
  | nil =>
      rw [List.intercalate_singleton, run_append, h.run, Option.bind_some]
      simp [run_cons, step, close?]
  | cons h' hs ih =>
      rw [List.intercalate_cons_cons, List.append_assoc, List.append_assoc, run_append, h.run,
        Option.bind_some, List.singleton_append, run_cons]
      have hcomma : step (.filled (.array items :: outer) v) .comma =
          some (.due (.array (v :: items) :: outer)) := rfl
      rw [hcomma, Option.bind_some, ih h']
      simp

theorem Spells.brackets {lss : List (List Lexeme)} {vs : List Json}
    (hs : List.Forall₂ Spells lss vs) :
    Spells (.openBracket :: ([.comma].intercalate lss ++ [.closeBracket])) (.array vs) := by
  cases hs with
  | nil => rfl
  | cons h hs =>
      have hrun := run_intercalate_comma h hs [] []
      exact run_item_of_run_due (by simp) hrun

theorem lexemes_intercalate_comma {css : List (List Char)}
    (hcss : ∀ cs ∈ css, .unclosed ∉ lexemes cs) :
    lexemes ([','].intercalate css ++ [']']) =
      [.comma].intercalate (css.map lexemes) ++ [.closeBracket] := by
  have hbracket : lexemes [']'] = [.closeBracket] := rfl
  induction css with
  | nil => rfl
  | cons cs css ih =>
      obtain ⟨hcs, hcss⟩ := List.forall_mem_cons.mp hcss
      cases css with
      | nil =>
          rw [List.intercalate_singleton, List.map_singleton, List.intercalate_singleton,
            lexemes_append hcs rfl, hbracket]
      | cons cs' css =>
          rw [List.intercalate_cons_cons, List.map_cons, List.map_cons, List.intercalate_cons_cons,
            List.append_assoc, List.append_assoc, List.singleton_append, lexemes_append hcs rfl,
            lexemes_cons_of_punctuation rfl, ih hcss]
          simp

theorem unclosed_notMem_of_isSome_read? {text : String} (h : (read? text).isSome) :
    .unclosed ∉ lexemes text.toList := by
  obtain ⟨v, hv⟩ := Option.isSome_iff_exists.mp h
  exact (read?_eq_some_iff.mp hv).unclosed_notMem

theorem forall₂_spells_filterMap {ts : List String} (hts : ∀ t ∈ ts, (read? t).isSome) :
    List.Forall₂ Spells (ts.map fun t => lexemes t.toList) (ts.filterMap read?) := by
  induction ts with
  | nil => exact .nil
  | cons t ts ih =>
      obtain ⟨ht, hts⟩ := List.forall_mem_cons.mp hts
      obtain ⟨v, hv⟩ := Option.isSome_iff_exists.mp ht
      rw [List.map_cons, List.filterMap_cons_some hv]
      exact .cons (read?_eq_some_iff.mp hv) (ih hts)

/-- Texts that are values make an array between brackets. -/
theorem read?_brackets {ts : List String} (hts : ∀ t ∈ ts, (read? t).isSome) :
    read? ("[" ++ ",".intercalate ts ++ "]") = some (.array (ts.filterMap read?)) := by
  have hclosed : ∀ cs ∈ ts.map String.toList, .unclosed ∉ lexemes cs :=
    List.forall_mem_map.mpr fun t ht => unclosed_notMem_of_isSome_read? (hts t ht)
  have htext : ("[" ++ ",".intercalate ts ++ "]").toList =
      '[' :: ([','].intercalate (ts.map String.toList) ++ [']']) := by
    simp [String.toList_intercalate]
  rw [read?_eq_some_iff, htext, lexemes_cons_of_punctuation rfl, lexemes_intercalate_comma hclosed,
    List.map_map]
  exact Spells.brackets (forall₂_spells_filterMap hts)

end

end Json

end Bookshelf
