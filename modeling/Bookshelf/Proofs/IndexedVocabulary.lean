import Bookshelf.Proofs.Recording

namespace Bookshelf

/-!
# The vocabulary as a map beside a list

`Vocabulary` finds an entry by going through its entries. Here a hash map gives
the place of each key among them, and an entry is found and counted at that
place. The two answer alike: recording a genre keeps them at the same entries,
and all they resolve, list and measure is read off the entries.
-/

namespace Vocabulary

variable {k : List Char}

def Entry.addBook (e : Entry) : Entry :=
  { e with books := e.books + 1 }

theorem Entry.count_of_key_eq {e : Entry} (h : e.key = k) : e.count k = e.addBook := by
  rw [count, if_pos h, addBook]

theorem Entry.count_of_key_ne {e : Entry} (h : e.key ≠ k) : e.count k = e := by
  rw [count, if_neg h]

theorem map_count_of_notMem {entries : List Entry} (h : k ∉ entries.map Entry.key) :
    entries.map (Entry.count k) = entries := by
  have hcount : ∀ e ∈ entries, e.count k = id e := by
    intro e he
    exact Entry.count_of_key_ne fun hk => h (List.mem_map.mpr ⟨e, he, hk⟩)
  rw [List.map_congr_left hcount, List.map_id]

theorem map_key_modify (entries : List Entry) (i : Nat) :
    (entries.modify i Entry.addBook).map Entry.key = entries.map Entry.key := by
  induction entries generalizing i with
  | nil => simp
  | cons e entries ih =>
      cases i with
      | zero => simp [Entry.addBook]
      | succ i => simp [ih]

/-- No key is repeated, so the entry at the place of a key is the only one that
counts under it. -/
theorem modify_eq_map_count {entries : List Entry} (hd : (entries.map Entry.key).Nodup) {i : Nat}
    (hi : (entries.map Entry.key).findIdx? (· == k) = some i) :
    entries.modify i Entry.addBook = entries.map (Entry.count k) := by
  induction entries generalizing i with
  | nil => simp at hi
  | cons e entries ih =>
      obtain ⟨he, hd⟩ := List.nodup_cons.mp hd
      rw [List.map_cons, List.findIdx?_cons] at hi
      by_cases hk : e.key = k
      · subst hk
        obtain rfl : 0 = i := by simpa using hi
        rw [List.modify_zero_cons, List.map_cons, map_count_of_notMem he,
          Entry.count_of_key_eq rfl]
      · have hsucc : ∃ j, (entries.map Entry.key).findIdx? (· == k) = some j ∧ j + 1 = i := by
          simpa [hk] using hi
        obtain ⟨j, hj, rfl⟩ := hsucc
        rw [List.modify_succ_cons, List.map_cons, ih hd hj, Entry.count_of_key_ne hk]

end Vocabulary

structure IndexedVocabulary where
  places : Std.HashMap String Nat
  entries : List Vocabulary.Entry
  /-- The map knows the keys of the entries, each at its first place. -/
  getElem?_places : ∀ k : List Char,
    places[String.ofList k]? = (entries.map Vocabulary.Entry.key).findIdx? (· == k)

namespace IndexedVocabulary

open Vocabulary

variable {t : IndexedVocabulary} {v : Vocabulary} {k : List Char} {name : String} {i : Nat}

def empty : IndexedVocabulary where
  places := ∅
  entries := []
  getElem?_places := by simp

def place? (t : IndexedVocabulary) (k : List Char) : Option Nat :=
  t.places[String.ofList k]?

theorem place?_eq_findIdx? (t : IndexedVocabulary) (k : List Char) :
    t.place? k = (t.entries.map Entry.key).findIdx? (· == k) :=
  t.getElem?_places k

theorem place?_eq_none_iff : t.place? k = none ↔ k ∉ t.entries.map Entry.key := by
  rw [place?_eq_findIdx?, List.findIdx?_eq_none_iff]
  simp

theorem lt_length_of_place? (h : t.place? k = some i) : i < t.entries.length := by
  rw [place?_eq_findIdx?] at h
  simpa using (List.findIdx?_eq_some_iff_getElem.mp h).1

/-- Adds an entry without books behind the others. -/
def push (t : IndexedVocabulary) (k : List Char) (name : String) (h : t.place? k = none) :
    IndexedVocabulary where
  places := t.places.insert (String.ofList k) t.entries.length
  entries := t.entries ++ [⟨k, name, 0⟩]
  getElem?_places := by
    intro x
    rw [place?_eq_findIdx?] at h
    rw [Std.HashMap.getElem?_insert, List.map_append, List.findIdx?_append, t.getElem?_places]
    by_cases hx : k = x
    · subst hx
      simp [h]
    · simp [hx, String.ofList_inj]

/-- The place of a key, after an entry for it has been added if there was none. -/
def enter (t : IndexedVocabulary) (k : List Char) (name : String) : IndexedVocabulary × Nat :=
  match h : t.place? k with
  | some i => (t, i)
  | none => (t.push k name h, t.entries.length)

def addBook (t : IndexedVocabulary) (i : Nat) : IndexedVocabulary where
  places := t.places
  entries := t.entries.modify i Entry.addBook
  getElem?_places := by
    intro k
    rw [map_key_modify, t.getElem?_places]

def record (t : IndexedVocabulary) (name : String) : IndexedVocabulary :=
  if Genre.isBlankKey (Genre.key name) then t
  else
    let (entered, i) := t.enter (Genre.key name) name
    entered.addBook i

def resolve (t : IndexedVocabulary) (name : String) : Option String :=
  match h : t.place? (Genre.key name) with
  | some i => some (t.entries.get ⟨i, lt_length_of_place? h⟩).name
  | none => none

def size (t : IndexedVocabulary) : Nat :=
  t.entries.length

def listing (t : IndexedVocabulary) : List Entry :=
  t.entries.mergeSort fun a b => decide ¬b.key < a.key

def recordBook (t : IndexedVocabulary) (genres : List String) : IndexedVocabulary :=
  (Genre.distinct genres).foldl record t

def ofBooks (books : List Book) : IndexedVocabulary :=
  books.foldl (fun t b => t.recordBook b.genres) empty

/-! ## The same entries -/

/-- The entries of a vocabulary, with the place of each key. -/
def Represents (t : IndexedVocabulary) (v : Vocabulary) : Prop :=
  t.entries = v.entries

theorem represents_empty : empty.Represents .empty := rfl

theorem entries_record_of_none (hblank : Genre.isBlankKey (Genre.key name) = false)
    (h : t.place? (Genre.key name) = none) :
    (t.record name).entries = t.entries ++ [⟨Genre.key name, name, 1⟩] := by
  have henter : t.enter (Genre.key name) name =
      (t.push (Genre.key name) name h, t.entries.length) := by
    unfold enter
    split
    · next i hi => simp [h] at hi
    · rfl
  rw [record, if_neg (by simp [hblank]), henter]
  simp [addBook, push, List.modify_eq_take_drop, Entry.addBook]

theorem entries_record_of_some (hblank : Genre.isBlankKey (Genre.key name) = false)
    (h : t.place? (Genre.key name) = some i) :
    (t.record name).entries = t.entries.modify i Entry.addBook := by
  have henter : t.enter (Genre.key name) name = (t, i) := by
    unfold enter
    split
    · next j hj => rw [Option.some.inj (hj.symm.trans h)]
    · next hnone => simp [h] at hnone
  rw [record, if_neg (by simp [hblank]), henter]
  rfl

theorem represents_record (ht : t.Represents v) (name : String) :
    (t.record name).Represents (v.record name) := by
  unfold Represents at ht ⊢
  cases hblank : Genre.isBlankKey (Genre.key name) with
  | true => rw [record, if_pos hblank, record_of_isBlankKey hblank, ht]
  | false =>
      cases hplace : t.place? (Genre.key name) with
      | none =>
          have hnone : v.find? (Genre.key name) = none := by
            rwa [find?_eq_none_iff, ← ht, ← place?_eq_none_iff]
          rw [entries_record_of_none hblank hplace, entries_record_of_eq_none hblank hnone, ht]
      | some i =>
          have hsome : v.find? (Genre.key name) ≠ none := by
            rw [ne_eq, find?_eq_none_iff, ← ht, ← place?_eq_none_iff, hplace]
            simp
          obtain ⟨e, he⟩ := Option.ne_none_iff_exists'.mp hsome
          rw [entries_record_of_some hblank hplace, entries_record_of_eq_some he, ← ht]
          rw [place?_eq_findIdx?] at hplace
          exact modify_eq_map_count (ht ▸ v.distinct) hplace

theorem represents_foldl_record (gs : List String) (ht : t.Represents v) :
    (gs.foldl record t).Represents (gs.foldl Vocabulary.record v) := by
  induction gs generalizing t v with
  | nil => exact ht
  | cons g gs ih => exact ih (represents_record ht g)

theorem represents_foldl_recordBook (books : List Book) (ht : t.Represents v) :
    (books.foldl (fun t b => t.recordBook b.genres) t).Represents (v.recordBooks books) := by
  induction books generalizing t v with
  | nil => exact ht
  | cons b books ih => exact ih (represents_foldl_record (Genre.distinct b.genres) ht)

theorem represents_ofBooks (c : Catalog) : (ofBooks c.books).Represents c.vocabulary :=
  represents_foldl_recordBook c.books represents_empty

/-! ## The same answers -/

theorem resolve_eq_map_find? (t : IndexedVocabulary) (name : String) :
    t.resolve name = (t.entries.find? (·.key == Genre.key name)).map Entry.name := by
  have hplace := t.place?_eq_findIdx? (Genre.key name)
  rw [List.findIdx?_map, Function.comp_def] at hplace
  rw [List.find?_eq_bind_findIdx?_getElem?, ← hplace]
  unfold resolve
  split
  · next i hi => simp [hi, lt_length_of_place? hi]
  · next hnone => simp [hnone]

theorem answers_of_represents (ht : t.Represents v) :
    (∀ name, t.resolve name = v.resolve name) ∧ t.size = v.size ∧ t.listing = v.listing := by
  refine ⟨fun name => ?_, ?_, ?_⟩
  · rw [resolve_eq_map_find?, ht, Vocabulary.resolve, find?]
  · rw [size, ht, Vocabulary.size]
  · rw [listing, ht, Vocabulary.listing]

theorem answers_foldl_record (gs : List String) :
    (∀ name, (gs.foldl record empty).resolve name = (recordAll gs).resolve name) ∧
      (gs.foldl record empty).size = (recordAll gs).size ∧
      (gs.foldl record empty).listing = (recordAll gs).listing :=
  answers_of_represents (represents_foldl_record gs represents_empty)

theorem answers_ofBooks (c : Catalog) :
    (∀ name, (ofBooks c.books).resolve name = c.vocabulary.resolve name) ∧
      (ofBooks c.books).size = c.vocabulary.size ∧
      (ofBooks c.books).listing = c.vocabulary.listing :=
  answers_of_represents (represents_ofBooks c)

end IndexedVocabulary

end Bookshelf
