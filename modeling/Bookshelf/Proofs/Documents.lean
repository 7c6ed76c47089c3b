import Bookshelf.Proofs.Digits
import Bookshelf.Proofs.JsonReader
import Bookshelf.Proofs.Quoted
import Mathlib.Data.List.TakeWhile

namespace Bookshelf

/-!
# Documents, written and read

A document that is written in any layout of white space reads back as its
value. A part of it is followed by a comma, a closing bracket or white space,
so it has its own lexemes, and the reader takes them in any surrounding.
-/

namespace Json

/-! ## Natural numbers -/

open Digits

theorem separates_eq_false_of_isDigit {c : Char} (h : c.isDigit = true) :
    Lexeme.separates c = false :=
  of_isDigit (P := fun c => Lexeme.separates c = false) (by decide) h

/-- What the digits of a natural number stand for: a word, or a double where the
number does not fit. -/
def ofNatural (n : Nat) : Json :=
  match (Numeral.mk false (Nat.toDigits 10 n) none none).number? with
  | some value => .number value
  | none => .unreadable

theorem ofNatural_toNat (n : UInt64) : ofNatural n.toNat = .number (.word n) := by
  have hword : (Numeral.mk false (Nat.toDigits 10 n.toNat) none none).word? = some n := by
    have hlt : n.toNat < UInt64.size := n.toNat_lt
    simp [Numeral.word?, hlt]
  rw [ofNatural, Numeral.number?, hword]

theorem ofNatural_of_lt {n : Nat} (h : n < UInt64.size) :
    ofNatural n = .number (.word (UInt64.ofNat n)) := by
  have hnat : (UInt64.ofNat n).toNat = n := UInt64.toNat_ofNat_of_lt' h
  rw [← ofNatural_toNat, hnat]

theorem Numeral.splitMinus_of_isDigit {cs : List Char} (hcs : ∀ c ∈ cs, c.isDigit = true) :
    splitMinus cs = (false, cs) := by
  unfold splitMinus
  split
  · have hminus := hcs '-' List.mem_cons_self
    cases hminus
  · rfl

theorem Numeral.spanDigits_of_isDigit {cs : List Char} (hcs : ∀ c ∈ cs, c.isDigit = true) :
    spanDigits cs = (cs, []) := by
  rw [spanDigits, List.takeWhile_eq_self_iff.mpr hcs, List.dropWhile_eq_nil_iff.mpr hcs]

theorem Numeral.isWhole_toDigits (n : Nat) : isWhole (Nat.toDigits 10 n) = true := by
  rcases Nat.eq_zero_or_pos n with rfl | hn
  · rfl
  · have hhead := head?_toDigits_ne_zero hn
    unfold isWhole
    split
    · next hnil => exact (Nat.toDigits_ne_nil hnil).elim
    · rfl
    · next hcons =>
        rw [hcons] at hhead
        simpa using hhead

theorem Numeral.read?_toDigits (n : Nat) :
    Numeral.read? (Nat.toDigits 10 n) = some ⟨false, Nat.toDigits 10 n, none, none⟩ := by
  rw [read?, splitMinus_of_isDigit isDigit_of_mem_toDigits]
  simp only [spanDigits_of_isDigit isDigit_of_mem_toDigits, isWhole_toDigits, if_true]
  rfl

theorem ofWord?_toDigits (n : Nat) : ofWord? (Nat.toDigits 10 n) = some (ofNatural n) := by
  have hne : ∀ w : List Char, w.all Char.isDigit = false → Nat.toDigits 10 n ≠ w := by
    rintro w hw rfl
    have hall : (Nat.toDigits 10 n).all Char.isDigit = true :=
      List.all_eq_true.mpr isDigit_of_mem_toDigits
    rw [hall] at hw
    cases hw
  rw [ofWord?, if_neg (hne _ rfl), if_neg (hne _ rfl), if_neg (hne _ rfl), Numeral.read?_toDigits]
  rfl

/-! ## Documents -/

namespace Document

mutual

def value : Document → Json
  | .null => .null
  | .natural n => ofNatural n
  | .text s => .text s
  | .list items => .array (values items)
  | .record fields => .object (members fields)

def values : List Document → List Json
  | [] => []
  | d :: ds => d.value :: values ds

def members : List (String × Document) → List (Option String × Json)
  | [] => []
  | (key, d) :: fs => (some key, d.value) :: members fs

end

theorem values_eq_map (ds : List Document) : values ds = ds.map value := by
  induction ds with
  | nil => rfl
  | cons d ds ih => rw [values, ih, List.map_cons]

end Document

/-- A layout that puts only white space between the parts. -/
structure Layout.IsBlank (l : Layout) : Prop where
  gap : ∀ depth, ∀ c ∈ l.gap depth, Lexeme.isSpace c = true
  colonGap : ∀ c ∈ l.colonGap, Lexeme.isSpace c = true

theorem Layout.isBlank_compact : Layout.compact.IsBlank where
  gap := fun _ _ hc => (List.not_mem_nil hc).elim
  colonGap := fun _ hc => (List.not_mem_nil hc).elim

theorem Layout.isBlank_indented : Layout.indented.IsBlank where
  gap := by
    intro depth c hc
    rcases List.mem_cons.mp hc with rfl | hc
    · rfl
    · obtain rfl := List.eq_of_mem_replicate hc
      rfl
  colonGap := by
    intro c hc
    obtain rfl := List.mem_singleton.mp hc
    rfl

theorem lexemes_append_of_isSpace {gap : List Char} (hgap : ∀ c ∈ gap, Lexeme.isSpace c = true)
    (cs : List Char) : lexemes (gap ++ cs) = lexemes cs := by
  induction gap with
  | nil => rfl
  | cons c gap ih =>
      obtain ⟨hc, hgap⟩ := List.forall_mem_cons.mp hgap
      rw [List.cons_append, lexemes_cons_of_isSpace hc, ih hgap]

/-- The text starts with a character that ends the word before it. -/
def StartsApart (cs : List Char) : Prop :=
  ∃ c rest, cs = c :: rest ∧ Lexeme.separates c = true

theorem startsApart_gap {gap : List Char} (hgap : ∀ c ∈ gap, Lexeme.isSpace c = true) {c : Char}
    (hc : Lexeme.separates c = true) (cs : List Char) : StartsApart (gap ++ c :: cs) := by
  cases gap with
  | nil => exact ⟨c, cs, rfl, hc⟩
  | cons d gap =>
      refine ⟨d, gap ++ c :: cs, rfl, ?_⟩
      simp [Lexeme.separates, hgap d List.mem_cons_self]

theorem lexemes_append_of_startsApart {a b : List Char} (ha : .unclosed ∉ lexemes a)
    (hb : StartsApart b) : lexemes (a ++ b) = lexemes a ++ lexemes b := by
  obtain ⟨c, rest, rfl, hc⟩ := hb
  exact lexemes_append ha hc

namespace Document

open ReadState

variable {l : Layout}

theorem startsApart_writeItems (hl : l.IsBlank) (depth : Nat) (ds : List Document) :
    StartsApart (writeItems l depth ds) := by
  cases ds with
  | nil =>
      rw [writeItems]
      exact startsApart_gap (hl.gap depth) rfl []
  | cons d ds =>
      rw [writeItems]
      exact ⟨',', _, rfl, rfl⟩

theorem startsApart_writeFields (hl : l.IsBlank) (depth : Nat) (fs : List (String × Document)) :
    StartsApart (writeFields l depth fs) := by
  cases fs with
  | nil =>
      rw [writeFields]
      exact startsApart_gap (hl.gap depth) rfl []
  | cons f fs =>
      rw [writeFields]
      exact ⟨',', _, rfl, rfl⟩

section

variable {cs rest : List Char} {v : Json}

theorem lexemes_item (hl : l.IsBlank) (depth : Nat) (hcs : .unclosed ∉ lexemes cs)
    (hrest : StartsApart rest) :
    lexemes (l.gap depth ++ cs ++ rest) = lexemes cs ++ lexemes rest := by
  rw [List.append_assoc, lexemes_append_of_isSpace (hl.gap depth),
    lexemes_append_of_startsApart hcs hrest]

theorem lexemes_field (hl : l.IsBlank) (depth : Nat) (label : String)
    (hcs : .unclosed ∉ lexemes cs) (hrest : StartsApart rest) :
    lexemes (l.gap depth ++ quote label ++ ':' :: l.colonGap ++ cs ++ rest) =
      .quoted (Quoted.encode label.toList) :: .colon :: (lexemes cs ++ lexemes rest) := by
  simp only [List.append_assoc, List.cons_append]
  rw [lexemes_append_of_isSpace (hl.gap depth), lexemes_quote, lexemes_cons_of_punctuation rfl,
    lexemes_append_of_isSpace hl.colonGap, lexemes_append_of_startsApart hcs hrest]

theorem run_field {ls : List Lexeme} (h : Spells ls v) (outer : List Open)
    (done : List (Option String × Json)) (label : String) (more : List Lexeme) :
    (key outer done).run (.quoted (Quoted.encode label.toList) :: .colon :: (ls ++ more)) =
      (filled (.object done (some label) :: outer) v).run more := by
  have hkey : step (key outer done) (.quoted (Quoted.encode label.toList)) =
      some (.colon outer done (some label)) := by
    rw [step, key?, textOf?_encode]
    rfl
  have hcolon : step (colon outer done (some label)) .colon =
      some (.due (.object done (some label) :: outer)) := rfl
  rw [run_cons, hkey, Option.bind_some, run_cons, hcolon, Option.bind_some, run_append, h.run,
    Option.bind_some]

end

-- By the structure of the document. A list or record that has begun with one part
-- is a state of the reader, and the parts behind it are runs from there.
mutual

theorem spells_write (hl : l.IsBlank) (depth : Nat) :
    (d : Document) → Spells (lexemes (d.write l depth)) d.value
  | .null => rfl
  | .natural n => by
      have hword : lexemes (Nat.toDigits 10 n) = [.word (Nat.toDigits 10 n)] :=
        lexemes_word Nat.toDigits_ne_nil fun c hc =>
          separates_eq_false_of_isDigit (isDigit_of_mem_toDigits c hc)
      rw [write, hword, Spells, run_cons, step, open?, ofWord?_toDigits]
      rfl
  | .text s => by
      have hquote : lexemes (quote s) = [.quoted (Quoted.encode s.toList)] := by
        have h := lexemes_quote s []
        rwa [List.append_nil] at h
      rw [write, hquote, Spells, run_cons, step, open?, ofQuoted?, textOf?_encode]
      rfl
  | .list [] => rfl
  | .list (d :: ds) => by
      have hd := spells_write hl (depth + 1) d
      have hds := run_writeItems hl depth [] d.value [] ds
      have hitem : (due [.array []]).run
          (lexemes (d.write l (depth + 1)) ++ lexemes (writeItems l depth ds)) =
          some (.filled [] (.list (d :: ds) : Document).value) := by
        rw [run_append, hd.run, Option.bind_some, hds]
        rfl
      rw [write, lexemes_cons_of_punctuation rfl,
        lexemes_item hl _ hd.unclosed_notMem (startsApart_writeItems hl depth ds)]
      exact run_item_of_run_due (by simp [hd.ne_nil]) hitem
  | .record [] => rfl
  | .record ((label, d) :: fs) => by
      have hd := spells_write hl (depth + 1) d
      have hfs := run_writeFields hl depth [] (some label) d.value [] fs
      rw [write, lexemes_cons_of_punctuation rfl,
        lexemes_field hl _ label hd.unclosed_notMem (startsApart_writeFields hl depth fs)]
      exact (run_field hd [] [] label _).trans hfs

theorem run_writeItems (hl : l.IsBlank) (depth : Nat) (items : List Json) (v : Json)
    (outer : List Open) : (ds : List Document) →
    (filled (.array items :: outer) v).run (lexemes (writeItems l depth ds)) =
      some (.filled outer (.array (items.reverse ++ v :: values ds)))
  | [] => by
      rw [writeItems, lexemes_append_of_isSpace (hl.gap depth), lexemes_cons_of_punctuation rfl,
        values, ← List.reverse_cons]
      rfl
  | d :: ds => by
      have hd := spells_write hl (depth + 1) d
      have hds := run_writeItems hl depth (v :: items) d.value outer ds
      have hcomma : step (filled (.array items :: outer) v) .comma =
          some (.due (.array (v :: items) :: outer)) := rfl
      rw [writeItems, lexemes_cons_of_punctuation rfl,
        lexemes_item hl _ hd.unclosed_notMem (startsApart_writeItems hl depth ds), run_cons, hcomma,
        Option.bind_some, run_append, hd.run, Option.bind_some, hds, List.reverse_cons,
        List.append_assoc]
      rfl

theorem run_writeFields (hl : l.IsBlank) (depth : Nat) (done : List (Option String × Json))
    (name : Option String) (v : Json) (outer : List Open) : (fs : List (String × Document)) →
    (filled (.object done name :: outer) v).run (lexemes (writeFields l depth fs)) =
      some (.filled outer (.object (done.reverse ++ (name, v) :: members fs)))
  | [] => by
      rw [writeFields, lexemes_append_of_isSpace (hl.gap depth), lexemes_cons_of_punctuation rfl,
        members, ← List.reverse_cons]
      rfl
  | (label, d) :: fs => by
      have hd := spells_write hl (depth + 1) d
      have hfs := run_writeFields hl depth ((name, v) :: done) (some label) d.value outer fs
      have hcomma : step (filled (.object done name :: outer) v) .comma =
          some (.key outer ((name, v) :: done)) := rfl
      rw [writeFields, lexemes_cons_of_punctuation rfl,
        lexemes_field hl _ label hd.unclosed_notMem (startsApart_writeFields hl depth fs), run_cons,
        hcomma, Option.bind_some, run_field hd, hfs, List.reverse_cons, List.append_assoc]
      rfl

end

/-- What is written reads back. -/
theorem read?_render (hl : l.IsBlank) (d : Document) : read? (d.render l) = some d.value := by
  rw [read?_eq_some_iff, render, String.toList_ofList]
  exact spells_write hl 0 d

end Document

theorem read?_toString_toNat (n : UInt64) :
    read? (toString n.toNat) = some (.number (.word n)) := by
  have hrender : (Document.natural n.toNat).render .compact = toString n.toNat := by
    rw [Document.render, Document.write]
    rfl
  rw [← hrender, Document.read?_render Layout.isBlank_compact, Document.value, ofNatural_toNat]

end Json

end Bookshelf
