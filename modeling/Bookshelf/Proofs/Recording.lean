import Bookshelf.Proofs.Casing
import Bookshelf.Proofs.Listing
import Mathlib.Data.List.Dedup

namespace Bookshelf

/-!
# Vocabularies from a sequence of records

All that a vocabulary answers is determined by the sequence of records that it
comes from: the first spelling of each key, and how often the key occurs. The
entries have the keys that occur and are not blank, each of them once.
-/

namespace Vocabulary

open Genre

variable {v : Vocabulary} {e : Entry} {gs : List String} {k : List Char}

def recordAll (gs : List String) : Vocabulary :=
  gs.foldl record empty

theorem recordAll_append (gs : List String) (g : String) :
    recordAll (gs ++ [g]) = (recordAll gs).record g := by
  rw [recordAll, List.foldl_append, List.foldl_cons, List.foldl_nil, recordAll]

theorem name?_recordAll (gs : List String) (hk : isBlankKey k = false) :
    (recordAll gs).name? k = gs.find? (key · == k) :=
  name?_foldl_record gs empty hk

theorem count_recordAll (gs : List String) (hk : isBlankKey k = false) :
    (recordAll gs).count k = gs.countP (key · == k) := by
  have hempty : empty.count k = 0 := rfl
  rw [recordAll, count_foldl_record gs empty hk, hempty, Nat.zero_add]

theorem resolve_recordAll (gs : List String) (name : String) :
    (recordAll gs).resolve name =
      if isBlankKey (key name) then none else gs.find? (key · == key name) := by
  rw [resolve_eq_name?]
  split
  · next hblank => exact name?_of_isBlankKey hblank
  · next hblank => exact name?_recordAll gs (Bool.eq_false_iff.mpr hblank)

/-! ## The entries -/

theorem mem_keys_iff : k ∈ v.entries.map Entry.key ↔ (v.name? k).isSome := by
  rw [name?, Option.isSome_map, Option.isSome_iff_ne_none, ne_eq, find?_eq_none_iff, not_not]

theorem mem_keys_recordAll :
    k ∈ (recordAll gs).entries.map Entry.key ↔ k ∈ gs.map key ∧ isBlankKey k = false := by
  rw [mem_keys_iff]
  cases hk : isBlankKey k with
  | true => simp [name?_of_isBlankKey hk]
  | false => simp [name?_recordAll gs hk]

theorem size_recordAll (gs : List String) :
    (recordAll gs).size = ((gs.map key).filter fun k => !isBlankKey k).dedup.length := by
  have hperm : ((recordAll gs).entries.map Entry.key).Perm
      ((gs.map key).filter fun k => !isBlankKey k).dedup := by
    rw [List.perm_ext_iff_of_nodup (recordAll gs).distinct (List.nodup_dedup _)]
    intro k
    rw [mem_keys_recordAll, List.mem_dedup, List.mem_filter, Bool.not_eq_true']
  rw [size, ← hperm.length_eq, List.length_map]

theorem isBlankKey_of_mem_listing (he : e ∈ v.listing) : isBlankKey (key e.name) = false := by
  rw [← key_eq_of_mem_listing he]
  exact v.not_blank e (mem_listing.mp he)

theorem mem_map_key_listing :
    k ∈ v.listing.map (fun e => key e.name) ↔ k ∈ v.entries.map Entry.key := by
  have hkeys : v.listing.map (fun e => key e.name) = v.listing.map Entry.key :=
    List.map_congr_left fun e he => (key_eq_of_mem_listing he).symm
  rw [hkeys]
  exact ((List.mergeSort_perm v.entries _).map Entry.key).mem_iff

theorem find?_of_mem_listing_recordAll (he : e ∈ (recordAll gs).listing) :
    gs.find? (key · == key e.name) = some e.name := by
  rw [← name?_recordAll gs (isBlankKey_of_mem_listing he), name?, find?_of_mem_listing he]
  rfl

theorem books_of_mem_listing_recordAll (he : e ∈ (recordAll gs).listing) :
    e.books = gs.countP (key · == key e.name) := by
  rw [← count_recordAll gs (isBlankKey_of_mem_listing he), count, find?_of_mem_listing he]
  rfl

/-! ## Further records -/

theorem foldl_record_filter_isBlank (gs : List String) (v : Vocabulary) :
    (gs.filter fun g => !g.toList.all Text.isBlank).foldl record v = gs.foldl record v := by
  induction gs generalizing v with
  | nil => rfl
  | cons g gs ih =>
      cases hblank : g.toList.all Text.isBlank with
      | true =>
          have hrecord : v.record g = v := record_of_isBlankKey ((isBlankKey_key g).trans hblank)
          simp [hblank, ih, hrecord]
      | false => simp [hblank, ih]

theorem resolve_record_of_eq_some {x name : String} (h : v.resolve x = some name) (g : String) :
    (v.record g).resolve x = some name := by
  rw [resolve_eq_name?] at h ⊢
  have hblank : isBlankKey (key x) = false := by
    cases hblank : isBlankKey (key x) with
    | true => simp [name?_of_isBlankKey hblank] at h
    | false => rfl
  rw [name?_record v g hblank, h, Option.some_or]

theorem resolve_resolve {x name : String} (h : v.resolve x = some name) :
    v.resolve name = some name := by
  rw [resolve_eq_name?, key_of_resolve h, ← resolve_eq_name?, h]

/-- What a vocabulary resolves, counts and lists, as functions of its records. -/
theorem observations_recordAll (gs : List String) :
    (∀ x, (recordAll gs).resolve x =
      if isBlankKey (key x) then none else gs.find? (key · == key x)) ∧
    (recordAll gs).size = ((gs.map key).filter fun k => !isBlankKey k).dedup.length ∧
    ((recordAll gs).listing.Pairwise fun a b => key a.name < key b.name) ∧
    (∀ k, k ∈ (recordAll gs).listing.map (fun e => key e.name) ↔
      k ∈ gs.map key ∧ isBlankKey k = false) ∧
    (∀ e ∈ (recordAll gs).listing, gs.find? (key · == key e.name) = some e.name ∧
      e.books = gs.countP (key · == key e.name)) ∧
    recordAll (gs.filter fun g => !g.toList.all Text.isBlank) = recordAll gs ∧
    ∀ x name, (recordAll gs).resolve x = some name →
      (recordAll gs).resolve name = some name ∧
        ∀ g, (recordAll (gs ++ [g])).resolve x = some name := by
  refine ⟨resolve_recordAll gs, size_recordAll gs, (recordAll gs).pairwise_key_listing, ?_, ?_,
    foldl_record_filter_isBlank gs empty, ?_⟩
  · intro k
    rw [mem_map_key_listing, mem_keys_recordAll]
  · intro e he
    exact ⟨find?_of_mem_listing_recordAll he, books_of_mem_listing_recordAll he⟩
  · intro x name hname
    refine ⟨resolve_resolve hname, fun g => ?_⟩
    rw [recordAll_append]
    exact resolve_record_of_eq_some hname g

example : (recordAll ["fantasy", " ", "Fantasy"]).resolve "FANTASY" = some "fantasy" := by decide

end Vocabulary

end Bookshelf
