import Bookshelf.Proofs.Queries
import Bookshelf.Proofs.Words
import Mathlib.Data.List.Sort

namespace Bookshelf

/-!
# The listing of a catalog

The listing has one entry for each key that the books carry, in the order of
the keys. Its count is the number of books of which the genre holds as an
expression, and asking for the genre by its name selects these books.
-/

namespace Vocabulary

variable {v : Vocabulary} {e : Entry}

theorem mem_listing : e ∈ v.listing ↔ e ∈ v.entries :=
  List.mem_mergeSort

theorem key_eq_of_mem_listing (he : e ∈ v.listing) : e.key = Genre.key e.name :=
  v.key_eq e (mem_listing.mp he)

theorem find?_of_mem_listing (he : e ∈ v.listing) : v.find? (Genre.key e.name) = some e := by
  rw [← key_eq_of_mem_listing he]
  have hentry := mem_listing.mp he
  cases h : v.find? e.key with
  | none => exact (find?_eq_none_iff.mp h (List.mem_map.mpr ⟨e, hentry, rfl⟩)).elim
  | some d =>
      have hd : d ∈ v.entries := List.mem_of_find?_eq_some h
      rw [List.inj_on_of_nodup_map v.distinct hd hentry (key_of_find? h)]

theorem nodup_keys_listing (v : Vocabulary) : (v.listing.map Entry.key).Nodup :=
  ((List.mergeSort_perm v.entries _).map Entry.key).nodup_iff.mpr v.distinct

theorem pairwise_listing (v : Vocabulary) : v.listing.Pairwise (·.key < ·.key) := by
  have hsorted : v.listing.Pairwise fun a b => (decide ¬b.key < a.key) = true := by
    apply List.pairwise_mergeSort
    · intro a b c hab hbc
      simp only [decide_eq_true_eq, List.not_lt] at hab hbc ⊢
      exact List.le_trans hab hbc
    · intro a b
      rw [Bool.or_eq_true, decide_eq_true_eq, decide_eq_true_eq, List.not_lt, List.not_lt]
      exact List.le_total a.key b.key
  have hne : v.listing.Pairwise (·.key ≠ ·.key) := List.pairwise_map.mp v.nodup_keys_listing
  apply (hsorted.and hne).imp
  rintro a b ⟨hle, hab⟩
  by_contra hlt
  simp only [decide_eq_true_eq, List.not_lt] at hle hlt
  exact hab (List.le_antisymm hle hlt)

theorem pairwise_key_listing (v : Vocabulary) :
    v.listing.Pairwise fun a b => Genre.key a.name < Genre.key b.name := by
  apply v.pairwise_listing.imp_of_mem
  intro a b ha hb hab
  rwa [key_eq_of_mem_listing ha, key_eq_of_mem_listing hb] at hab

end Vocabulary

theorem Expression.countP_holds_genre (books : List Book) (name : String) :
    books.countP (fun b => (Expression.genre name).holds b.genres) =
      books.countP fun b => Genre.key name ∈ b.genres.map Genre.key := by
  apply List.countP_congr
  intro b _
  simp [holds]

namespace Catalog

open Vocabulary

variable {c : Catalog} {e : Entry} {k : List Char}

theorem carries_of_mem_listing (he : e ∈ c.vocabulary.listing) :
    ∃ b ∈ c.books, b.Carries (Genre.key e.name) := by
  rw [← isSome_name?_vocabulary_iff, name?, find?_of_mem_listing he]
  rfl

theorem exists_mem_listing {b : Book} (hb : b ∈ c.books) (hk : b.Carries k) :
    ∃ e ∈ c.vocabulary.listing, Genre.key e.name = k ∧ c.vocabulary.name? k = some e.name := by
  have hsome : (c.vocabulary.name? k).isSome := isSome_name?_vocabulary_iff.mpr ⟨b, hb, hk⟩
  obtain ⟨name, hname⟩ := Option.isSome_iff_exists.mp hsome
  obtain ⟨e, he, rfl⟩ := Option.map_eq_some_iff.mp hname
  exact ⟨e, mem_listing.mpr (List.mem_of_find?_eq_some he), key_of_name? hname, hname⟩

theorem books_of_mem_listing (he : e ∈ c.vocabulary.listing) :
    e.books = c.books.countP fun b => Genre.key e.name ∈ b.genres.map Genre.key := by
  obtain ⟨b, -, -, hblank⟩ := carries_of_mem_listing he
  have hcount : c.vocabulary.count (Genre.key e.name) = e.books := by
    simp [count, find?_of_mem_listing he]
  rw [← hcount, count_vocabulary c hblank]

theorem parse_of_mem_listing (he : e ∈ c.vocabulary.listing) {q : Query}
    (hq : q.tokens = [.genre e.name]) : q.parse c.vocabulary = .ok (some (.genre e.name)) := by
  have hresolve : c.vocabulary.resolve e.name = some e.name := by
    simp [resolve, find?_of_mem_listing he]
  have htokens : c.vocabulary.resolveTokens q.tokens = [.genre ⟨e.name, some e.name⟩] := by
    simp [hq, resolveTokens, Token.map, literal, hresolve]
  rw [q.parse_eq_parse?, htokens, Expression.parse?_eq_run]
  rfl

end Catalog

namespace Report

/-- A report whose matches are the books that an entry of a listing counts. -/
structure Selects (r : Report) (c : Catalog) (e : Vocabulary.Entry) : Prop where
  error_eq : r.error = none
  size_eq : r.size = e.books
  mem_positions_iff : ∀ i, i ∈ r.positions ↔
    ∃ b, c.books[i]? = some b ∧ (Expression.genre e.name).holds b.genres

theorem selects_of_tokens {c : Catalog} {e : Vocabulary.Entry} (he : e ∈ c.vocabulary.listing)
    {q : Query} (hq : q.tokens = [.genre e.name]) : (q.results c 0).Selects c e := by
  have hpasses : passes (some (.genre e.name)) 0 =
      fun b => (Expression.genre e.name).holds b.genres := by
    funext b
    simp [passes, satisfies]
  rw [Query.results_of_parse_eq_ok (Catalog.parse_of_mem_listing he hq), hpasses]
  constructor
  · rfl
  · rw [size, length_rank, Expression.countP_holds_genre, Catalog.books_of_mem_listing he]
  · intro i
    exact mem_positions_rank

end Report

namespace Catalog

open Vocabulary

theorem mem_map_listing_iff {c : Catalog} {p : List Char × Nat} :
    p ∈ c.vocabulary.listing.map (fun e => (Genre.key e.name, e.books)) ↔
      (∃ b ∈ c.books, b.Carries p.1) ∧
        p.2 = c.books.countP fun b => p.1 ∈ b.genres.map Genre.key := by
  constructor
  · intro hp
    obtain ⟨e, he, rfl⟩ := List.mem_map.mp hp
    exact ⟨carries_of_mem_listing he, books_of_mem_listing he⟩
  · rintro ⟨⟨b, hb, hcarries⟩, hn⟩
    obtain ⟨e, he, hkey, -⟩ := exists_mem_listing hb hcarries
    refine List.mem_map.mpr ⟨e, he, Prod.ext hkey ?_⟩
    rw [hn, ← hkey, books_of_mem_listing he]

theorem map_listing_eq_of_perm {books books' : List Book} (h : books.Perm books') :
    (Catalog.mk books).vocabulary.listing.map (fun e => (Genre.key e.name, e.books)) =
      (Catalog.mk books').vocabulary.listing.map (fun e => (Genre.key e.name, e.books)) := by
  have hasymm : Std.Asymm fun p q : List Char × Nat => p.1 < q.1 := ⟨fun _ _ => List.lt_asymm⟩
  have hpairwise : ∀ v : Vocabulary,
      (v.listing.map fun e => (Genre.key e.name, e.books)).Pairwise (·.1 < ·.1) :=
    fun v => List.pairwise_map.mpr v.pairwise_key_listing
  -- Both lists have strictly increasing keys, so their members determine them.
  apply (hpairwise _).eq_of_mem_iff (hpairwise _)
  intro p
  rw [mem_map_listing_iff, mem_map_listing_iff, h.countP_eq]
  simp only [h.mem_iff]

/-- The listing, the resolver, the evaluation of a genre and the search for it
agree on the genres of every catalog. -/
theorem listing_agrees (c : Catalog) :
    let listing := c.vocabulary.listing
    (listing.map fun e => Genre.key e.name).Nodup ∧
    (∀ k, k ∈ listing.map (fun e => Genre.key e.name) ↔ ∃ b ∈ c.books, b.Carries k) ∧
    (∀ e ∈ listing, e.books = c.books.countP fun b => (Expression.genre e.name).holds b.genres) ∧
    (∀ b ∈ c.books, ∀ g ∈ b.genres, Genre.isBlankKey (Genre.key g) = false →
      ∃ e ∈ listing, Genre.key e.name = Genre.key g ∧ c.vocabulary.resolve g = some e.name) ∧
    (∀ e ∈ listing, Token.IsGenreName e.name →
      (Text.trimmed e.name = e.name → (c.filterEntries [e.name] 0).Selects c e) ∧
      (Token.IsWord e.name → (c.filter e.name 0).Selects c e)) ∧
    ∀ books, books.Perm c.books →
      (Catalog.mk books).vocabulary.listing.map (fun e => (Genre.key e.name, e.books)) =
        listing.map (fun e => (Genre.key e.name, e.books)) := by
  intro listing
  have hkeys : listing.map (fun e => Genre.key e.name) = listing.map Entry.key := by
    apply List.map_congr_left
    intro e he
    rw [key_eq_of_mem_listing he]
  have hname : ∀ e ∈ listing, e.name ≠ "" := by
    intro e he hempty
    obtain ⟨b, -, -, hblank⟩ := carries_of_mem_listing he
    rw [hempty] at hblank
    cases hblank
  refine ⟨?_, ?_, ?_, ?_, ?_, fun books h => map_listing_eq_of_perm h⟩
  · rw [hkeys]
    exact c.vocabulary.nodup_keys_listing
  · intro k
    constructor
    · intro hk
      obtain ⟨e, he, rfl⟩ := List.mem_map.mp hk
      exact carries_of_mem_listing he
    · rintro ⟨b, hb, hcarries⟩
      obtain ⟨e, he, hkey, -⟩ := exists_mem_listing hb hcarries
      exact List.mem_map.mpr ⟨e, he, hkey⟩
  · intro e he
    rw [Expression.countP_holds_genre, books_of_mem_listing he]
  · intro b hb g hg hblank
    exact exists_mem_listing hb ⟨List.mem_map.mpr ⟨g, hg, rfl⟩, hblank⟩
  · intro e he hgenre
    constructor
    · intro htrim
      exact Report.selects_of_tokens (q := .entries [e.name]) he
        (hgenre.ofEntries htrim (hname e he))
    · intro hword
      exact Report.selects_of_tokens (q := .text e.name) he (hgenre.ofText hword (hname e he))

def twoHorrors : Catalog where
  books := [{ title := "Dracula", genres := ["Horror", "horror", " "] },
    { title := "It", genres := ["Fiction", "HORROR"] }]

theorem listing_agrees_twoHorrors :
    let horror : Entry := ⟨Genre.key "Horror", "Horror", 2⟩
    (horror ∈ twoHorrors.vocabulary.listing ∧ Token.IsGenreName "Horror" ∧
      Text.trimmed "Horror" = "Horror" ∧ Token.IsWord "Horror") ∧
    (twoHorrors.filterEntries ["Horror"] 0).Selects twoHorrors horror ∧
    (twoHorrors.filter "Horror" 0).Selects twoHorrors horror ∧
    (∃ e ∈ twoHorrors.vocabulary.listing, twoHorrors.vocabulary.resolve "HORROR" = some e.name) ∧
    (Catalog.mk twoHorrors.books.reverse).vocabulary.listing.map
        (fun e => (Genre.key e.name, e.books)) =
      twoHorrors.vocabulary.listing.map fun e => (Genre.key e.name, e.books) := by
  intro horror
  have he : horror ∈ twoHorrors.vocabulary.listing := mem_listing.mpr (by decide)
  have hgenre : Token.IsGenreName "Horror" := by decide
  have htrim : Text.trimmed "Horror" = "Horror" := by decide
  have hword : Token.IsWord "Horror" := by decide
  obtain ⟨-, -, -, hresolve, hselects, hperm⟩ := twoHorrors.listing_agrees
  obtain ⟨hentries, htext⟩ := hselects horror he hgenre
  obtain ⟨e, hlisted, -, hname⟩ := hresolve _ (List.mem_cons_of_mem _ List.mem_cons_self) "HORROR"
    (by decide) (by decide)
  exact ⟨⟨he, hgenre, htrim, hword⟩, hentries htrim, htext hword, ⟨e, hlisted, hname⟩,
    hperm _ (List.reverse_perm _)⟩

end Catalog

end Bookshelf
