import Bookshelf.Catalog
import Bookshelf.Proofs.Lexemes

namespace Bookshelf

/-!
# Loading by lines

A line is read as a text of its own, whatever stands on the other lines. The
carriage return of a line end is white space to the reader, and an empty last
line holds no book, so it does not matter that both are dropped.
-/

namespace Catalog

namespace LineScan

variable {cs : List Char}

theorem foldl_step_of_notMem (hcs : '\n' ∉ cs) (done : List (List Char)) (w : List Char) :
    cs.foldl step ⟨done, w⟩ = ⟨done, cs.reverse ++ w⟩ := by
  induction cs generalizing w with
  | nil => rfl
  | cons c cs ih =>
      obtain ⟨hc, hcs⟩ := List.ne_and_not_mem_of_not_mem_cons hcs
      have hstep : step ⟨done, w⟩ c = ⟨done, c :: w⟩ := if_neg hc.symm
      rw [List.foldl_cons, hstep, ih hcs, List.reverse_cons, List.append_assoc]
      rfl

theorem foldl_step_done (cs : List Char) (done older : List (List Char)) (w : List Char) :
    cs.foldl step ⟨done ++ older, w⟩ =
      ⟨(cs.foldl step ⟨done, w⟩).done ++ older, (cs.foldl step ⟨done, w⟩).line⟩ := by
  induction cs generalizing done w with
  | nil => rfl
  | cons c cs ih =>
      by_cases hc : c = '\n'
      · simpa [step, hc] using ih ((dropReturn w).reverse :: done) []
      · simpa [step, hc] using ih done (c :: w)

theorem finish_foldl_step (cs : List Char) (line : List Char) :
    (cs.foldl step ⟨[line], []⟩).finish = line :: (cs.foldl step ⟨[], []⟩).finish := by
  have h := foldl_step_done cs [] [line] []
  rw [List.nil_append] at h
  rw [h]
  simp only [finish]
  split <;> simp

end LineScan

open LineScan

/-- A line without the carriage return of its end. -/
def chomp (line : String) : String :=
  String.ofList (dropReturn line.toList.reverse).reverse

variable {line : String}

theorem lines_append_newline (hline : '\n' ∉ line.toList) (rest : String) :
    lines (line ++ "\n" ++ rest) = chomp line :: lines rest := by
  have hscan : (line ++ "\n" ++ rest).toList.foldl step ⟨[], []⟩ =
      rest.toList.foldl step ⟨[(dropReturn line.toList.reverse).reverse], []⟩ := by
    simp [foldl_step_of_notMem hline, step]
  rw [lines, hscan, finish_foldl_step, List.map_cons, chomp, lines]

theorem lines_of_notMem (hline : '\n' ∉ line.toList) :
    lines line = if line = "" then [] else [line] := by
  rw [lines, foldl_step_of_notMem hline, finish]
  by_cases hempty : line = ""
  · simp [hempty]
  · have hne : line.toList ≠ [] := by simpa using hempty
    simp [hempty, hne]

end Catalog

namespace Book

theorem ofText?_congr {s t : String} (h : Json.lexemes s.toList = Json.lexemes t.toList) :
    ofText? s = ofText? t := by
  rw [ofText?, ofText?, Json.read?, Json.read?, h]

theorem ofText?_chomp (line : String) : ofText? (Catalog.chomp line) = ofText? line := by
  refine ofText?_congr ?_
  rw [Catalog.chomp, String.toList_ofList]
  cases h : line.toList.reverse with
  | nil => simp [Catalog.LineScan.dropReturn, List.reverse_eq_nil_iff.mp h]
  | cons c w =>
      have hline : line.toList = w.reverse ++ [c] := by
        rw [← List.reverse_reverse line.toList, h, List.reverse_cons]
      by_cases hc : c = '\r'
      · subst hc
        rw [hline, Json.lexemes_concat_of_isSpace rfl]
        rfl
      · have hdrop : Catalog.LineScan.dropReturn (c :: w) = c :: w := by
          unfold Catalog.LineScan.dropReturn
          split
          · next heq =>
              obtain ⟨rfl, -⟩ := List.cons.inj heq
              exact (hc rfl).elim
          · rfl
        rw [hdrop, hline, List.reverse_cons]

theorem ofText?_empty : ofText? "" = none :=
  rfl

end Book

namespace Catalog

/-- Texts joined by line feeds are loaded one by one. -/
theorem ofLines_intercalate {ts : List String} (hts : ∀ t ∈ ts, '\n' ∉ t.toList) :
    ofLines ("\n".intercalate ts) = ⟨ts.filterMap Book.ofText?⟩ := by
  rw [ofLines]
  congr 1
  induction ts with
  | nil => rfl
  | cons t ts ih =>
      obtain ⟨ht, hts⟩ := List.forall_mem_cons.mp hts
      cases ts with
      | nil =>
          rw [String.intercalate_singleton, lines_of_notMem ht]
          by_cases hempty : t = ""
          · simp [hempty, Book.ofText?_empty]
          · simp [hempty]
      | cons t' ts =>
          rw [String.intercalate_cons_cons, lines_append_newline ht, List.filterMap_cons, ih hts,
            Book.ofText?_chomp, ← List.filterMap_cons]

end Catalog

end Bookshelf
