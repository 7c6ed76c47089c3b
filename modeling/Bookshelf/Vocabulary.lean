import Bookshelf.Genre

namespace Bookshelf

/-!
# The genres of a set of books

A vocabulary lists the distinct genres in the order in which they were first
recorded. It keeps the first spelling of each and the number of books that
carry it, and finds a genre by its key.
-/

namespace Vocabulary

structure Entry where
  key : List Char
  name : String
  books : Nat
deriving DecidableEq, Repr

/-- Counts one more book on the entry of a key. -/
def Entry.count (k : List Char) (e : Entry) : Entry :=
  if e.key = k then { e with books := e.books + 1 } else e

@[simp] theorem Entry.key_count (k : List Char) (e : Entry) : (e.count k).key = e.key := by
  unfold Entry.count
  split <;> rfl

@[simp] theorem Entry.name_count (k : List Char) (e : Entry) : (e.count k).name = e.name := by
  unfold Entry.count
  split <;> rfl

end Vocabulary

structure Vocabulary where
  entries : List Vocabulary.Entry
  key_eq : ∀ e ∈ entries, e.key = Genre.key e.name
  not_blank : ∀ e ∈ entries, Genre.isBlankKey e.key = false
  distinct : (entries.map Vocabulary.Entry.key).Nodup

namespace Vocabulary

def empty : Vocabulary where
  entries := []
  key_eq := by simp
  not_blank := by simp
  distinct := by simp

def find? (v : Vocabulary) (k : List Char) : Option Entry :=
  v.entries.find? (·.key == k)

theorem find?_eq_none_iff {v : Vocabulary} {k : List Char} :
    v.find? k = none ↔ k ∉ v.entries.map Entry.key := by
  simp [find?, List.find?_eq_none]

/-- Records one more book that carries the genre. -/
def record (v : Vocabulary) (name : String) : Vocabulary :=
  if hb : Genre.isBlankKey (Genre.key name) = true then v
  else
    if hk : v.find? (Genre.key name) = none then
      { entries := v.entries ++ [⟨Genre.key name, name, 1⟩]
        key_eq := by
          intro e he
          rcases List.mem_append.1 he with he | he
          · exact v.key_eq e he
          · obtain rfl := List.mem_singleton.1 he
            rfl
        not_blank := by
          intro e he
          rcases List.mem_append.1 he with he | he
          · exact v.not_blank e he
          · obtain rfl := List.mem_singleton.1 he
            simpa using hb
        distinct := by
          rw [List.map_append, List.nodup_append]
          refine ⟨v.distinct, by simp, ?_⟩
          intro a ha b hb heq
          obtain rfl : b = Genre.key name := by simpa using hb
          exact find?_eq_none_iff.1 hk (heq ▸ ha) }
    else
      { entries := v.entries.map (Entry.count (Genre.key name))
        key_eq := by
          intro e he
          obtain ⟨d, hd, rfl⟩ := List.mem_map.1 he
          simpa using v.key_eq d hd
        not_blank := by
          intro e he
          obtain ⟨d, hd, rfl⟩ := List.mem_map.1 he
          simpa using v.not_blank d hd
        distinct := by
          have h : Entry.key ∘ Entry.count (Genre.key name) = Entry.key :=
            funext fun e => by simp
          rw [List.map_map, h]
          exact v.distinct }

/-- Records a book: a genre it lists twice, in any case, counts once. -/
def recordBook (v : Vocabulary) (genres : List String) : Vocabulary :=
  (Genre.distinct genres).foldl record v

/-- The spelling under which a genre was first recorded. -/
def resolve (v : Vocabulary) (name : String) : Option String :=
  (v.find? (Genre.key name)).map Entry.name

def contains (v : Vocabulary) (name : String) : Bool :=
  (v.resolve name).isSome

def size (v : Vocabulary) : Nat :=
  v.entries.length

/-- All entries, sorted by key. -/
def listing (v : Vocabulary) : List Entry :=
  v.entries.mergeSort fun a b => decide ¬b.key < a.key

end Vocabulary

end Bookshelf
