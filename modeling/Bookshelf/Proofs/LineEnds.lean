import Bookshelf.Proofs.Digits
import Bookshelf.Proofs.JsonReader
import Bookshelf.Proofs.Lines
import Mathlib.Data.List.TakeWhile

namespace Bookshelf

/-!
# Line ends

A text of lines loads as its lines, each as a text of its own, whichever way
the lines end and whether or not the last one does. So texts joined by a line
end load one after the other. A line of blanks holds no book, not even when its
blanks are none to the reader of JSON.
-/

namespace Catalog

inductive LineEnd where
  | lineFeed
  | returnLineFeed
deriving DecidableEq, Repr

def LineEnd.text : LineEnd → String
  | .lineFeed => "\n"
  | .returnLineFeed => "\r\n"

/-- Lines with an end behind each of them. -/
def ended : List (String × LineEnd) → String
  | [] => ""
  | (line, e) :: ls => line ++ e.text ++ ended ls

/-! ## Two texts -/

namespace LineScan

def book? (line : List Char) : Option Book :=
  Book.ofText? (String.ofList line)

theorem book?_append_return (line : List Char) : book? (line ++ ['\r']) = book? line := by
  refine Book.ofText?_congr ?_
  rw [String.toList_ofList, String.toList_ofList, Json.lexemes_concat_of_isSpace rfl]

theorem book?_dropReturn (w : List Char) : book? (dropReturn w).reverse = book? w.reverse := by
  unfold dropReturn
  split
  · rw [List.reverse_cons, book?_append_return]
  · rfl

/-- The books on the lines of a scan. What follows the last line end is a line. -/
def books (s : LineScan) : List Book :=
  s.done.reverse.filterMap book? ++ (book? s.line.reverse).toList

theorem filterMap_finish (s : LineScan) : s.finish.filterMap book? = s.books := by
  rw [finish, books]
  split
  · next hline => simp [hline, book?, Book.ofText?_empty]
  · rw [List.reverse_cons, List.filterMap_append]
    congr 1

theorem books_foldl_step (cs : List Char) (done : List (List Char)) :
    (cs.foldl step ⟨done, []⟩).books =
      done.reverse.filterMap book? ++ (cs.foldl step ⟨[], []⟩).books := by
  have h := foldl_step_done cs [] done []
  rw [List.nil_append] at h
  rw [h]
  simp [books]

/-- A line feed ends a line, and what follows is scanned as a text of its own. -/
theorem books_foldl_step_newline (s : LineScan) (cs : List Char) :
    (cs.foldl step (s.step '\n')).books = s.books ++ (cs.foldl step ⟨[], []⟩).books := by
  have hstep : s.step '\n' = ⟨(dropReturn s.line).reverse :: s.done, []⟩ := rfl
  have hline : ((dropReturn s.line).reverse :: s.done).reverse.filterMap book? = s.books := by
    rw [List.reverse_cons, List.filterMap_append, books, ← book?_dropReturn]
    congr 1
  rw [hstep, books_foldl_step, hline]

theorem books_step_return (s : LineScan) : (s.step '\r').books = s.books := by
  have hstep : s.step '\r' = ⟨s.done, '\r' :: s.line⟩ := rfl
  rw [hstep, books, List.reverse_cons, book?_append_return, books]

end LineScan

open LineScan

theorem books_ofLines (text : String) :
    (ofLines text).books = (text.toList.foldl step ⟨[], []⟩).books := by
  rw [← filterMap_finish]
  exact List.filterMap_map

theorem books_ofLines_append_newline (a b : String) :
    (ofLines (a ++ "\n" ++ b)).books = (ofLines a).books ++ (ofLines b).books := by
  have htext : (a ++ "\n" ++ b).toList = a.toList ++ '\n' :: b.toList := by simp
  rw [books_ofLines, htext, List.foldl_append, List.foldl_cons, books_foldl_step_newline,
    books_ofLines, books_ofLines]

theorem books_ofLines_append_return (a : String) :
    (ofLines (a ++ "\r")).books = (ofLines a).books := by
  have htext : (a ++ "\r").toList = a.toList ++ ['\r'] := by simp
  rw [books_ofLines, htext, List.foldl_append, List.foldl_cons, List.foldl_nil, books_step_return,
    books_ofLines]

theorem books_ofLines_append_lineEnd (a : String) (e : LineEnd) (b : String) :
    (ofLines (a ++ e.text ++ b)).books = (ofLines a).books ++ (ofLines b).books := by
  cases e with
  | lineFeed => exact books_ofLines_append_newline a b
  | returnLineFeed =>
      have htext : a ++ LineEnd.returnLineFeed.text ++ b = a ++ "\r" ++ "\n" ++ b := by
        rw [@String.append_assoc a "\r" "\n"]
        rfl
      rw [htext, books_ofLines_append_newline, books_ofLines_append_return]

theorem books_ofLines_ended (ls : List (String × LineEnd)) (last : String) :
    (ofLines (ended ls ++ last)).books =
      ls.flatMap (fun l => (ofLines l.1).books) ++ (ofLines last).books := by
  induction ls with
  | nil => rw [ended, String.empty_append, List.flatMap_nil, List.nil_append]
  | cons l ls ih =>
      obtain ⟨line, e⟩ := l
      rw [ended, String.append_assoc, books_ofLines_append_lineEnd, ih, List.flatMap_cons,
        List.append_assoc]

theorem books_ofLines_of_notMem {line : String} (hline : '\n' ∉ line.toList) :
    (ofLines line).books = (Book.ofText? line).toList := by
  rw [books_ofLines, foldl_step_of_notMem hline, LineScan.books, List.append_nil,
    List.reverse_reverse, book?, String.ofList_toList]
  rfl

end Catalog

/-! ## Blank lines -/

namespace Json

open Lexeme

variable {c : Char} {cs : List Char}

theorem separates_of_isBlank (hc : Text.isBlank c = true) (hspace : isSpace c = false) :
    separates c = false := by
  have hquote : c ≠ '"' := by
    rintro rfl
    cases hc
  have hpunctuation : punctuation? c = none := by
    unfold punctuation?
    split <;> first | rfl | cases hc
  simp [separates, hspace, hquote, hpunctuation]

theorem ofWord?_of_isBlank (hc : Text.isBlank c = true) (w : List Char) :
    ofWord? (c :: w) = none := by
  have hdigit : c.isDigit = false := by
    cases hdigit : c.isDigit with
    | false => rfl
    | true =>
        rw [Digits.isBlank_eq_false_of_isDigit hdigit] at hc
        cases hc
  have hne : ∀ d, Text.isBlank d = false → c ≠ d := by
    rintro d hd rfl
    rw [hd] at hc
    cases hc
  have hminus : Numeral.splitMinus (c :: w) = (false, c :: w) := by
    unfold Numeral.splitMinus
    split
    · next heq => exact (hne '-' rfl (List.cons.inj heq).1).elim
    · rfl
  have hread : Numeral.read? (c :: w) = none := by
    simp [Numeral.read?, hminus, Numeral.spanDigits, hdigit, Numeral.isWhole]
  simp [ofWord?, hread, hne 'n' rfl, hne 't' rfl, hne 'f' rfl]

/-- The first lexeme of blanks, if there is one, is a word that starts with a blank. -/
theorem exists_lexemes_of_isBlank (h : ∀ c ∈ cs, Text.isBlank c = true) :
    lexemes cs = [] ∨
      ∃ c w ls, Text.isBlank c = true ∧ lexemes cs = .word (c :: w) :: ls := by
  induction cs with
  | nil => exact Or.inl rfl
  | cons c cs ih =>
      obtain ⟨hc, hcs⟩ := List.forall_mem_cons.mp h
      by_cases hspace : isSpace c = true
      · rw [lexemes_cons_of_isSpace hspace]
        exact ih hcs
      · refine Or.inr ⟨c, cs.takeWhile (!separates ·), ?_⟩
        have hword : ∀ d ∈ c :: cs.takeWhile (!separates ·), separates d = false := by
          refine List.forall_mem_cons.mpr
            ⟨separates_of_isBlank hc (eq_false_of_ne_true hspace), ?_⟩
          intro d hd
          simpa using List.mem_takeWhile_imp hd
        have hlexemes := lexemes_word (List.cons_ne_nil _ _) hword
        have hsplit : c :: cs =
            (c :: cs.takeWhile (!separates ·)) ++ cs.dropWhile (!separates ·) := by
          rw [List.cons_append, List.takeWhile_append_dropWhile]
        cases hrest : cs.dropWhile (!separates ·) with
        | nil =>
            rw [hsplit, hrest, List.append_nil, hlexemes]
            exact ⟨[], hc, rfl⟩
        | cons d rest =>
            have hd : separates d = true := by
              have hhead := List.head_dropWhile_not (!separates ·) (hrest ▸ List.cons_ne_nil d rest)
              simpa [hrest] using hhead
            have hclosed : .unclosed ∉ lexemes (c :: cs.takeWhile (!separates ·)) := by
              simp [hlexemes]
            rw [hsplit, hrest, lexemes_append hclosed hd, hlexemes]
            exact ⟨_, hc, rfl⟩

/-- A text of blanks is no value. -/
theorem read?_of_isBlank {text : String} (h : ∀ c ∈ text.toList, Text.isBlank c = true) :
    read? text = none := by
  rw [read?]
  obtain hnil | ⟨c, w, ls, hc, hcons⟩ := exists_lexemes_of_isBlank h
  · rw [hnil]
    rfl
  · have hopen : (ReadState.due []).step (.word (c :: w)) = none := by
      rw [ReadState.step, ReadState.open?, ofWord?_of_isBlank hc]
      rfl
    rw [hcons, ReadState.run_cons, hopen]
    rfl

end Json

namespace Text

theorem isBlank_of_trim_eq_nil {cs : List Char} (h : trim cs = []) :
    ∀ c ∈ cs, isBlank c = true := by
  rw [trim, trimEnd, List.reverse_eq_nil_iff, List.dropWhile_eq_nil_iff] at h
  rw [← List.dropWhile_eq_nil_iff]
  -- What is left of a text without its leading blanks starts with no blank, if with anything.
  cases hstart : cs.dropWhile isBlank with
  | nil => rfl
  | cons c rest =>
      have hhead := List.head_dropWhile_not isBlank (hstart ▸ List.cons_ne_nil c rest)
      have hblank := h c (by simp [trimStart, hstart])
      simp [hstart, hblank] at hhead

end Text

namespace Catalog

theorem ofText?_of_trim_eq_nil {line : String} (h : Text.trim line.toList = []) :
    Book.ofText? line = none := by
  rw [Book.ofText?, Json.read?_of_isBlank (Text.isBlank_of_trim_eq_nil h)]

/-- A text loads line by line, whatever stands on the lines and however they end. -/
theorem ofLines_line_by_line :
    (∀ ls : List (String × LineEnd), (ofLines (ended ls)).books =
      ls.flatMap fun l => (ofLines l.1).books) ∧
    (∀ (ls : List (String × LineEnd)) (last : String), (ofLines (ended ls ++ last)).books =
      ls.flatMap (fun l => (ofLines l.1).books) ++ (ofLines last).books) ∧
    (∀ (a : String) (e : LineEnd) (b : String),
      (ofLines (a ++ e.text ++ b)).books = (ofLines a).books ++ (ofLines b).books) ∧
    (∀ line : String, '\n' ∉ line.toList → (ofLines line).books = (Book.ofText? line).toList) ∧
    ∀ text : String, ofLines text =
      ⟨((lines text).filter fun line => Text.trim line.toList ≠ []).filterMap Book.ofText?⟩ := by
  refine ⟨?_, books_ofLines_ended, books_ofLines_append_lineEnd, ?_, ?_⟩
  · intro ls
    have hempty : (ofLines "").books = [] := rfl
    have h := books_ofLines_ended ls ""
    rwa [String.append_empty, hempty, List.append_nil] at h
  · intro line hline
    exact books_ofLines_of_notMem hline
  · intro text
    rw [ofLines, List.filterMap_filter]
    congr 2
    funext line
    by_cases hblank : Text.trim line.toList = []
    · simp [hblank, ofText?_of_trim_eq_nil hblank]
    · simp [hblank]

def emmaLine : String := "\x7b\"Title\": \"Emma\"\x7d\r"

theorem ofLines_line_by_line_return :
    '\n' ∉ emmaLine.toList ∧ (ofLines emmaLine).books = (Book.ofText? emmaLine).toList ∧
      (ofLines (ended [("[1", .lineFeed), (emmaLine, .returnLineFeed)] ++ "\u00A0")).books =
        [{ title := "Emma" }] := by
  have hline : '\n' ∉ emmaLine.toList := by decide
  have hopen : (ofLines "[1").books = [] := rfl
  have hbook : (ofLines emmaLine).books = [{ title := "Emma" }] := by decide +kernel
  have hblank : (ofLines "\u00A0").books = [] := rfl
  obtain ⟨-, hlast, -, hsingle, -⟩ := ofLines_line_by_line
  have hbooks := hlast [("[1", .lineFeed), (emmaLine, .returnLineFeed)] "\u00A0"
  rw [List.flatMap_cons, List.flatMap_cons, List.flatMap_nil, hopen, hbook, hblank] at hbooks
  exact ⟨hline, hsingle emmaLine hline, hbooks⟩

end Catalog

end Bookshelf
