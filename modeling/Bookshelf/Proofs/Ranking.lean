import Bookshelf.Proofs.DecimalOrder
import Bookshelf.Report
import Mathlib.Data.List.Pairwise

namespace Bookshelf

/-!
# What a report holds

A report is determined by its books: it lists each selected position once, and
its order is strict, because books of equal rating are told apart by their
positions. So two reports with the same positions are equal, and selecting
further from a report keeps its order.
-/

/-- A sort keeps equal elements in the order in which a relation has them. -/
theorem pairwise_mergeSort_of_pairwise {α : Type} {le : α → α → Bool}
    (trans : ∀ a b c, le a b → le b c → le a c) (total : ∀ a b, le a b || le b a)
    {r : α → α → Prop} {l : List α} (h : l.Pairwise r) :
    (l.mergeSort le).Pairwise fun a b => le a b ∧ (le b a → r a b) := by
  induction l with
  | nil => simp
  | cons a l ih =>
      obtain ⟨ha, hl⟩ := List.pairwise_cons.mp h
      obtain ⟨l₁, l₂, hsort, hrest, hlt⟩ := List.mergeSort_cons trans total a l
      have hsorted := List.pairwise_mergeSort trans total (a :: l)
      have ih := ih hl
      rw [hsort] at hsorted ⊢
      rw [hrest] at ih
      obtain ⟨h₁, h₂, h₁₂⟩ := List.pairwise_append.mp ih
      obtain ⟨-, hsorted₂, -⟩ := List.pairwise_append.mp hsorted
      have hmem : ∀ b ∈ l₂, b ∈ l := fun b hb =>
        List.mem_mergeSort.mp (hrest ▸ List.mem_append_right l₁ hb)
      refine List.pairwise_append.mpr ⟨h₁, List.pairwise_cons.mpr ⟨?_, h₂⟩, ?_⟩
      · intro b hb
        exact ⟨(List.pairwise_cons.mp hsorted₂).1 b hb, fun _ => ha b (hmem b hb)⟩
      · intro b hb c hc
        rcases List.mem_cons.mp hc with rfl | hc
        · have hcb : le c b = false := by simpa using hlt b hb
          have hbc : le b c = true := by simpa [hcb] using total b c
          exact ⟨hbc, fun hle => by simp [hcb] at hle⟩
        · exact h₁₂ b hb c hc

namespace Report

/-- A better rated book comes first, and of equally rated ones the one that
stands first in the list. -/
def Precedes (a b : Book × Nat) : Prop :=
  b.1.averageRating.value < a.1.averageRating.value ∨
    a.1.averageRating.value = b.1.averageRating.value ∧ a.2 < b.2

theorem Precedes.asymm {a b : Book × Nat} (h : Precedes a b) : ¬ Precedes b a := by
  rcases h with h | ⟨heq, h⟩ <;> rintro (h' | ⟨heq', h'⟩)
  · exact lt_asymm h h'
  · exact h.ne heq'
  · exact h'.ne heq
  · omega

theorem ranksBefore_iff {a b : Book × Nat} :
    ranksBefore a b = true ↔ b.1.averageRating.value ≤ a.1.averageRating.value := by
  simp [ranksBefore, Decimal.le_iff_value_le]

theorem ranksBefore_trans (a b c : Book × Nat) (hab : ranksBefore a b) (hbc : ranksBefore b c) :
    ranksBefore a c := by
  rw [ranksBefore_iff] at *
  exact hbc.trans hab

theorem ranksBefore_total (a b : Book × Nat) : ranksBefore a b || ranksBefore b a := by
  rw [Bool.or_eq_true, ranksBefore_iff, ranksBefore_iff]
  exact le_total _ _

variable {books : List Book} {keep : Book → Bool}

theorem mem_rank {p : Book × Nat} :
    p ∈ rank books keep ↔ books[p.2]? = some p.1 ∧ keep p.1 := by
  simp [rank, List.mem_zipIdx_iff_getElem?]

theorem length_rank (books : List Book) (keep : Book → Bool) :
    (rank books keep).length = books.countP keep := by
  rw [rank, List.length_mergeSort, ← List.countP_eq_length_filter]
  conv_rhs => rw [← List.zipIdx_map_fst 0 books, List.countP_map]
  rfl

/-- Selected books that stand in the order of their ratings are ranked as they stand. -/
theorem rank_of_pairwise {l : List (Book × Nat)}
    (hfilter : (books.zipIdx.filter fun p => keep p.1) = l)
    (hl : l.Pairwise fun a b => ranksBefore a b = true) : rank books keep = l := by
  subst hfilter
  exact List.mergeSort_of_pairwise hl

theorem pairwise_rank (books : List Book) (keep : Book → Bool) :
    (rank books keep).Pairwise Precedes := by
  have hindex : books.zipIdx.Pairwise fun a b => a.2 < b.2 := by
    rw [← List.pairwise_map (f := Prod.snd) (R := (· < ·)), List.zipIdx_map_snd]
    exact List.pairwise_lt_range'
  have hsorted := pairwise_mergeSort_of_pairwise ranksBefore_trans ranksBefore_total
    (hindex.filter fun p => keep p.1)
  refine hsorted.imp ?_
  rintro a b ⟨hab, htie⟩
  rw [ranksBefore_iff] at hab htie
  rcases hab.lt_or_eq with hlt | heq
  · exact Or.inl hlt
  · exact Or.inr ⟨heq.symm, htie heq.ge⟩

theorem eq_of_pairwise_precedes {l l' : List (Book × Nat)} (h : l.Pairwise Precedes)
    (h' : l'.Pairwise Precedes) (hmem : ∀ p, p ∈ l ↔ p ∈ l') : l = l' := by
  have hne : ∀ a b : Book × Nat, Precedes a b → a ≠ b := fun a b hab heq =>
    hab.asymm (heq ▸ hab)
  have hperm : l.Perm l' :=
    (List.perm_ext_iff_of_nodup (h.imp (hne _ _)) (h'.imp (hne _ _))).mpr hmem
  exact hperm.eq_of_pairwise (fun a b _ _ hab hba => (hab.asymm hba).elim) h h'

/-- Where a ranking corresponds to another one entry by entry, in the same
order, it is the image of that one. -/
theorem eq_map_of_precedes {l l' : List (Book × Nat)} {g : Book × Nat → Book × Nat}
    (h : l.Pairwise Precedes) (h' : l'.Pairwise Precedes)
    (hg : ∀ p ∈ l, ∀ q ∈ l, Precedes p q → Precedes (g p) (g q))
    (hmem : ∀ p, p ∈ l' ↔ ∃ q ∈ l, g q = p) : l' = l.map g := by
  have hmap : (l.map g).Pairwise Precedes :=
    List.pairwise_map.mpr (h.imp_of_mem fun hp hq hpq => hg _ hp _ hq hpq)
  apply eq_of_pairwise_precedes h' hmap
  intro p
  rw [hmem, List.mem_map]

/-- Selecting further from a report is the same as selecting by both conditions. -/
theorem filter_rank (books : List Book) (keep more : Book → Bool) :
    (rank books keep).filter (fun p => more p.1) = rank books fun b => keep b && more b := by
  refine eq_of_pairwise_precedes ((pairwise_rank books keep).filter _) (pairwise_rank books _) ?_
  intro p
  simp [mem_rank, and_assoc]

/-! ## Filtering -/

/-- Whether a book is selected by the outcome of parsing. A blank expression
and one that does not parse select every book. -/
def Qualifies (parsed : Except Expression.ParseError (Option Expression)) (b : Book) : Prop :=
  match parsed with
  | .ok (some t) => t.holds b.genres
  | _ => True

structure Answers (r : Report) (books : List Book)
    (parsed : Except Expression.ParseError (Option Expression)) (minimum : UInt64) : Prop where
  error_iff : ∀ e, r.error = some e ↔ parsed = .error e
  mem_positions_iff : ∀ i, i ∈ r.positions ↔
    ∃ b, books[i]? = some b ∧ minimum ≤ b.ratingCount ∧ Qualifies parsed b
  nodup_positions : r.positions.Nodup
  pairwise_ranked : r.ranked.Pairwise Precedes
  getElem?_of_mem_ranked : ∀ p ∈ r.ranked, books[p.2]? = some p.1

def passes (e : Option Expression) (minimum : UInt64) (b : Book) : Bool :=
  satisfies e b && minimum ≤ b.ratingCount

theorem search_of_ok {ts : List (Token Literal)} {e : Option Expression}
    (h : Expression.parse? ts = .ok e) (books : List Book) (minimum : UInt64) :
    search books ts minimum = ⟨rank books (passes e minimum), none⟩ := by
  rw [search, h]
  rfl

theorem search_of_error {ts : List (Token Literal)} {err : Expression.ParseError}
    (h : Expression.parse? ts = .error err) (books : List Book) (minimum : UInt64) :
    search books ts minimum = ⟨rank books (passes none minimum), some err⟩ := by
  rw [search, h]
  rfl

theorem mem_positions_rank {books : List Book} {keep : Book → Bool}
    {err : Option Expression.ParseError} {i : Nat} :
    i ∈ (Report.mk (rank books keep) err).positions ↔ ∃ b, books[i]? = some b ∧ keep b := by
  simp [positions, mem_rank]

theorem nodup_positions_rank (books : List Book) (keep : Book → Bool)
    (err : Option Expression.ParseError) :
    (Report.mk (rank books keep) err).positions.Nodup := by
  refine List.pairwise_map.mpr ((pairwise_rank books keep).imp_of_mem ?_)
  intro a b ha hb hab heq
  have hbook : some a.1 = some b.1 := by
    rw [← (mem_rank.mp ha).1, ← (mem_rank.mp hb).1, heq]
  obtain rfl : a = b := Prod.ext (Option.some.inj hbook) heq
  exact hab.asymm hab

theorem answers_rank {books : List Book} {keep : Book → Bool} {minimum : UInt64}
    {parsed : Except Expression.ParseError (Option Expression)}
    {err : Option Expression.ParseError} (herr : ∀ e, err = some e ↔ parsed = .error e)
    (hkeep : ∀ b, keep b ↔ minimum ≤ b.ratingCount ∧ Qualifies parsed b) :
    Answers ⟨rank books keep, err⟩ books parsed minimum where
  error_iff := herr
  mem_positions_iff i := by simp only [mem_positions_rank, hkeep]
  nodup_positions := nodup_positions_rank books keep err
  pairwise_ranked := pairwise_rank books keep
  getElem?_of_mem_ranked p hp := (mem_rank.mp hp).1

theorem answers_search (books : List Book) (ts : List (Token Literal)) (minimum : UInt64) :
    Answers (search books ts minimum) books (Expression.parse? ts) minimum := by
  cases h : Expression.parse? ts with
  | error err =>
      rw [search_of_error h]
      exact answers_rank (by simp) fun b => by simp [passes, satisfies, Qualifies]
  | ok e =>
      rw [search_of_ok h]
      refine answers_rank (by simp) fun b => ?_
      cases e <;> simp [passes, satisfies, Qualifies, and_comm]

/-- Filtering by a text and by entries gives the report that parsing asks for. -/
theorem answers_filter :
    (∀ (books : List Book) (v : Vocabulary) (text : String) (minimum : UInt64),
      Answers (filter books v text minimum) books (v.parse text) minimum) ∧
    ∀ (c : Catalog) (entries : List String) (minimum : UInt64),
      Answers (c.filterEntries entries minimum) c.books
        (if c.vocabulary.tokenizeList entries = [] then .ok none
          else (Expression.parseTokens (c.vocabulary.tokenizeList entries)).map some) minimum := by
  constructor
  · intro books v text minimum
    exact answers_search books (v.tokenize text) minimum
  · intro c entries minimum
    have h : Answers (c.filterEntries entries minimum) c.books
        (Expression.parse? (c.vocabulary.tokenizeList entries)) minimum :=
      answers_search c.books (c.vocabulary.tokenizeList entries) minimum
    split
    · next hnil =>
        rw [hnil] at h
        exact h
    · next hne =>
        rw [Expression.parse?_of_ne_nil hne] at h
        exact h

end Report

end Bookshelf
