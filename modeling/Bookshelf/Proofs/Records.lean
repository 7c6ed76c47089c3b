import Bookshelf.Catalog

namespace Bookshelf

/-!
# What a vocabulary has recorded

A vocabulary answers two questions about a key: the name under which it was
first recorded, and how often it was recorded. One record changes the answers
for its own key only. The vocabulary of a catalog follows by going through the
books: a key has the name that occurs first in them, and it counts the books
that carry it.
-/

namespace Genre

variable {k : List Char}

theorem not_same_of_key {g a : String} (hg : key g ≠ k) (ha : key a = k) : same g a = false := by
  simpa [same, ha] using hg

theorem find?_distinct (gs : List String) :
    (distinct gs).find? (key · == k) = gs.find? (key · == k) := by
  induction gs with
  | nil => rfl
  | cons g gs ih =>
      by_cases hg : key g = k
      · simp [distinct, hg]
      · have hfilter : ((distinct gs).filter (!same g ·)).find? (key · == k) =
            (distinct gs).find? (key · == k) := by
          rw [List.find?_filter]
          congr 1
          funext a
          by_cases ha : key a = k
          · simp [not_same_of_key hg ha, ha]
          · simp [ha]
        simp [distinct, hg, hfilter, ih]

theorem countP_distinct (gs : List String) :
    (distinct gs).countP (key · == k) = if k ∈ gs.map key then 1 else 0 := by
  induction gs with
  | nil => rfl
  | cons g gs ih =>
      rw [distinct, List.countP_cons, List.countP_filter]
      by_cases hg : key g = k
      · have hnone : (distinct gs).countP (fun a => key a == k && !same g a) = 0 := by
          rw [List.countP_eq_zero]
          intro a _
          by_cases ha : key a = k <;> simp [same, hg, ha]
        simp [hg, hnone]
      · have hsame : (distinct gs).countP (fun a => key a == k && !same g a) =
            (distinct gs).countP (key · == k) := by
          apply List.countP_congr
          intro a _
          by_cases ha : key a = k
          · simp [not_same_of_key hg ha, ha]
          · simp [ha]
        rw [hsame, ih]
        simp [hg, Ne.symm hg]

end Genre

namespace Vocabulary

variable {v : Vocabulary} {k : List Char}

/-- The name under which a key was first recorded. -/
def name? (v : Vocabulary) (k : List Char) : Option String :=
  (v.find? k).map Entry.name

/-- How often a key was recorded. -/
def count (v : Vocabulary) (k : List Char) : Nat :=
  ((v.find? k).map Entry.books).getD 0

theorem resolve_eq_name? (v : Vocabulary) (name : String) :
    v.resolve name = v.name? (Genre.key name) := rfl

theorem key_of_find? {e : Entry} (h : v.find? k = some e) : e.key = k := by
  simpa using List.find?_some h

theorem key_of_name? {name : String} (h : v.name? k = some name) : Genre.key name = k := by
  obtain ⟨e, he, rfl⟩ := Option.map_eq_some_iff.mp h
  rw [← v.key_eq e (List.mem_of_find?_eq_some he), key_of_find? he]

theorem find?_of_isBlankKey (h : Genre.isBlankKey k = true) : v.find? k = none := by
  cases hk : v.find? k with
  | none => rfl
  | some e =>
      have hblank := v.not_blank e (List.mem_of_find?_eq_some hk)
      simp [key_of_find? hk, h] at hblank

theorem name?_of_isBlankKey (h : Genre.isBlankKey k = true) : v.name? k = none := by
  simp [name?, find?_of_isBlankKey h]

/-! ## One record -/

variable {name : String}

theorem record_of_isBlankKey (h : Genre.isBlankKey (Genre.key name) = true) :
    v.record name = v := by
  simp [record, h]

theorem entries_record_of_eq_none (hblank : Genre.isBlankKey (Genre.key name) = false)
    (h : v.find? (Genre.key name) = none) :
    (v.record name).entries = v.entries ++ [⟨Genre.key name, name, 1⟩] := by
  simp [record, hblank, h]

theorem entries_record_of_eq_some {e : Entry} (h : v.find? (Genre.key name) = some e) :
    (v.record name).entries = v.entries.map (Entry.count (Genre.key name)) := by
  have hblank : Genre.isBlankKey (Genre.key name) = false := by
    rw [← key_of_find? h]
    exact v.not_blank e (List.mem_of_find?_eq_some h)
  simp [record, hblank, h]

theorem find?_map_count (l : List Entry) (k' : List Char) :
    (l.map (Entry.count k')).find? (·.key == k) =
      (l.find? (·.key == k)).map (Entry.count k') := by
  have hkey : (fun e : Entry => e.key == k) ∘ Entry.count k' = fun e => e.key == k := by
    funext e
    simp
  rw [List.find?_map, hkey]

/-- One record changes the entry of its own key only. -/
theorem find?_record_of_ne (hne : Genre.key name ≠ k) : (v.record name).find? k = v.find? k := by
  cases hblank : Genre.isBlankKey (Genre.key name) with
  | true => rw [record_of_isBlankKey hblank]
  | false =>
      cases h : v.find? (Genre.key name) with
      | none =>
          rw [find?, entries_record_of_eq_none hblank h]
          simp [find?, List.find?_append, hne]
      | some e =>
          -- Every entry is mapped, but only the one of the name's key is counted up.
          rw [find?, entries_record_of_eq_some h, find?_map_count, ← find?]
          cases hk : v.find? k with
          | none => rfl
          | some d =>
              have hd : d.key ≠ Genre.key name := by
                rw [key_of_find? hk]
                exact hne.symm
              simp [Entry.count, hd]

theorem find?_record_self (hblank : Genre.isBlankKey (Genre.key name) = false) :
    (v.record name).find? (Genre.key name) =
      some ⟨Genre.key name, (v.name? (Genre.key name)).getD name,
        v.count (Genre.key name) + 1⟩ := by
  cases h : v.find? (Genre.key name) with
  | none =>
      have hnone : v.entries.find? (·.key == Genre.key name) = none := h
      rw [find?, entries_record_of_eq_none hblank h]
      simp [List.find?_append, hnone, name?, count, h]
  | some e =>
      rw [find?, entries_record_of_eq_some h, find?_map_count, ← find?, h]
      simp [name?, count, h, Entry.count, key_of_find? h]

theorem name?_record (v : Vocabulary) (name : String) (hk : Genre.isBlankKey k = false) :
    (v.record name).name? k =
      (v.name? k).or (if Genre.key name = k then some name else none) := by
  by_cases h : Genre.key name = k
  · subst h
    rw [name?, find?_record_self hk]
    cases v.name? (Genre.key name) <;> simp
  · simp [name?, find?_record_of_ne h, h]

theorem count_record (v : Vocabulary) (name : String) (hk : Genre.isBlankKey k = false) :
    (v.record name).count k = v.count k + if Genre.key name = k then 1 else 0 := by
  by_cases h : Genre.key name = k
  · subst h
    simp [count, find?_record_self hk]
  · simp [count, find?_record_of_ne h, h]

/-! ## Many records -/

theorem name?_foldl_record (gs : List String) (v : Vocabulary)
    (hk : Genre.isBlankKey k = false) :
    (gs.foldl record v).name? k = (v.name? k).or (gs.find? (Genre.key · == k)) := by
  induction gs generalizing v with
  | nil => simp
  | cons g gs ih =>
      rw [List.foldl_cons, ih, name?_record v g hk, Option.or_assoc]
      by_cases hg : Genre.key g = k <;> simp [hg]

theorem count_foldl_record (gs : List String) (v : Vocabulary)
    (hk : Genre.isBlankKey k = false) :
    (gs.foldl record v).count k = v.count k + gs.countP (Genre.key · == k) := by
  induction gs generalizing v with
  | nil => simp
  | cons g gs ih =>
      rw [List.foldl_cons, ih, count_record v g hk, List.countP_cons]
      by_cases hg : Genre.key g = k
      · simp [hg]
        omega
      · simp [hg]

theorem name?_recordBook (v : Vocabulary) (gs : List String) (hk : Genre.isBlankKey k = false) :
    (v.recordBook gs).name? k = (v.name? k).or (gs.find? (Genre.key · == k)) := by
  rw [recordBook, name?_foldl_record _ v hk, Genre.find?_distinct]

theorem count_recordBook (v : Vocabulary) (gs : List String) (hk : Genre.isBlankKey k = false) :
    (v.recordBook gs).count k = v.count k + if k ∈ gs.map Genre.key then 1 else 0 := by
  rw [recordBook, count_foldl_record _ v hk, Genre.countP_distinct]

def recordBooks (v : Vocabulary) (books : List Book) : Vocabulary :=
  books.foldl (fun v b => v.recordBook b.genres) v

theorem recordBooks_cons (v : Vocabulary) (b : Book) (books : List Book) :
    v.recordBooks (b :: books) = (v.recordBook b.genres).recordBooks books := rfl

theorem name?_recordBooks (books : List Book) (v : Vocabulary) (hk : Genre.isBlankKey k = false) :
    (v.recordBooks books).name? k =
      (v.name? k).or ((books.flatMap Book.genres).find? (Genre.key · == k)) := by
  induction books generalizing v with
  | nil => simp [recordBooks]
  | cons b books ih =>
      rw [recordBooks_cons, ih, name?_recordBook v b.genres hk, Option.or_assoc,
        List.flatMap_cons, List.find?_append]

theorem count_recordBooks (books : List Book) (v : Vocabulary) (hk : Genre.isBlankKey k = false) :
    (v.recordBooks books).count k =
      v.count k + books.countP fun b => k ∈ b.genres.map Genre.key := by
  induction books generalizing v with
  | nil => simp [recordBooks]
  | cons b books ih =>
      rw [recordBooks_cons, ih, count_recordBook v b.genres hk, List.countP_cons]
      simp only [decide_eq_true_eq]
      omega

end Vocabulary

/-- A book carries the keys of its genres, unless they are blank. -/
def Book.Carries (b : Book) (k : List Char) : Prop :=
  k ∈ b.genres.map Genre.key ∧ Genre.isBlankKey k = false

namespace Catalog

variable {k : List Char}

theorem name?_vocabulary (c : Catalog) (hk : Genre.isBlankKey k = false) :
    c.vocabulary.name? k = (c.books.flatMap Book.genres).find? (Genre.key · == k) :=
  Vocabulary.name?_recordBooks c.books .empty hk

theorem count_vocabulary (c : Catalog) (hk : Genre.isBlankKey k = false) :
    c.vocabulary.count k = c.books.countP fun b => k ∈ b.genres.map Genre.key := by
  have hempty : Vocabulary.empty.count k = 0 := rfl
  have h := Vocabulary.count_recordBooks c.books .empty hk
  rwa [hempty, Nat.zero_add] at h

theorem isSome_name?_vocabulary_iff {c : Catalog} :
    (c.vocabulary.name? k).isSome ↔ ∃ b ∈ c.books, b.Carries k := by
  cases hk : Genre.isBlankKey k with
  | true => simp [Vocabulary.name?_of_isBlankKey hk, Book.Carries, hk]
  | false => simp [c.name?_vocabulary hk, Book.Carries, hk]

theorem contains_vocabulary_iff {c : Catalog} {name : String} :
    c.vocabulary.contains name ↔ ∃ b ∈ c.books, b.Carries (Genre.key name) :=
  isSome_name?_vocabulary_iff

end Catalog

end Bookshelf
