import Bookshelf.Proofs.Queries
import Mathlib.Data.List.NodupEquivFin

namespace Bookshelf

/-!
# Smaller and larger datasets

A query that a dataset can answer keeps its meaning in every larger one. So
the matches of a report are the matches among themselves, although their
vocabulary is smaller, and a dataset that grows keeps what a query said about
its old books.
-/

namespace Report

theorem pairwise_zipIdx_map_fst {l : List (Book × Nat)} (h : l.Pairwise Precedes) :
    (l.map Prod.fst).zipIdx.Pairwise Precedes := by
  rw [List.pairwise_iff_getElem]
  intro i j hi hj hij
  have hlen : (l.map Prod.fst).zipIdx.length = l.length := by simp
  have hprec := List.pairwise_iff_getElem.mp h i j (hlen ▸ hi) (hlen ▸ hj) hij
  rw [List.getElem_zipIdx, List.getElem_zipIdx, List.getElem_map, List.getElem_map]
  rcases hprec with hlt | ⟨heq, -⟩
  · exact Or.inl hlt
  · exact Or.inr ⟨heq, Nat.add_lt_add_left hij 0⟩

/-- The matches of a report, ranked again, stay in their order. -/
theorem rank_map_fst {books : List Book} {keep keep' : Book → Bool}
    (h : ∀ b, keep b → keep' b) :
    rank ((rank books keep).map Prod.fst) keep' = ((rank books keep).map Prod.fst).zipIdx := by
  apply eq_of_pairwise_precedes (pairwise_rank _ keep')
    (pairwise_zipIdx_map_fst (pairwise_rank books keep))
  intro p
  rw [mem_rank, List.mem_zipIdx_iff_getElem?]
  constructor
  · exact And.left
  · intro hp
    refine ⟨hp, h p.1 ?_⟩
    obtain ⟨q, hq, hqp⟩ := List.mem_map.mp (List.mem_of_getElem? hp)
    rw [← hqp]
    exact (mem_rank.mp hq).2

end Report

namespace Query

open Expression Report

variable {q : Query} {c d : Catalog} {e : Option Expression} {minimum : UInt64}

/-- A query that a smaller dataset can answer has the same tree over a larger
one, in the spelling of the larger one. -/
theorem parse_of_subset (h : ∀ b ∈ d.books, b ∈ c.books) (hd : q.parse d.vocabulary = .ok e) :
    q.parse c.vocabulary = .ok (e.map (respell c.vocabulary.respelling)) := by
  rw [parse_eq_parse?] at hd ⊢
  apply Vocabulary.parse?_resolveTokens_of_subset ?_ hd
  intro name hname
  obtain ⟨b, hb, hcarries⟩ := Catalog.contains_vocabulary_iff.mp hname
  exact Catalog.contains_vocabulary_iff.mpr ⟨b, h b hb, hcarries⟩

theorem mem_books_of_mem_matched {b : Book} (hb : b ∈ (q.results c minimum).matched) :
    b ∈ c.books := by
  rw [matched, ranked_results] at hb
  obtain ⟨p, hp, rfl⟩ := List.mem_map.mp hb
  exact List.mem_of_getElem? (mem_rank.mp hp).1

/-- In a smaller dataset a query selects no less: it is in error there, or it
has the same meaning. -/
theorem passes_of_subset (h : ∀ b ∈ d.books, b ∈ c.books) {b : Book}
    (hb : passes (q.condition c.vocabulary) minimum b) :
    passes (q.condition d.vocabulary) minimum b := by
  cases hd : q.parse d.vocabulary with
  | ok e =>
      have hc := parse_of_subset h hd
      rw [condition_of_parse_eq_ok hc, passes_respell c.vocabulary.key_respelling] at hb
      rwa [condition_of_parse_eq_ok hd]
  | error err =>
      have hcondition : q.condition d.vocabulary = none := by
        simp [condition, hd, Except.toOption]
      rw [hcondition]
      exact ratingCount_of_passes hb

/-- Filtering the matches of a report by the same query changes nothing. -/
theorem results_matched (q : Query) (c : Catalog) (minimum : UInt64) :
    let again := q.results ⟨(q.results c minimum).matched⟩ minimum
    again.matched = (q.results c minimum).matched ∧
      ((q.results c minimum).error ≠ none → again.error ≠ none) := by
  intro again
  have hsubset : ∀ b ∈ (q.results c minimum).matched, b ∈ c.books :=
    fun b hb => mem_books_of_mem_matched hb
  constructor
  · -- The smaller vocabulary may turn the query into an error, which selects more, never less.
    have hpasses : ∀ b, passes (q.condition c.vocabulary) minimum b →
        passes (q.condition (Catalog.mk (q.results c minimum).matched).vocabulary) minimum b :=
      fun b hb => passes_of_subset hsubset hb
    have hmatched : (q.results c minimum).matched =
        (rank c.books (passes (q.condition c.vocabulary) minimum)).map Prod.fst := by
      rw [matched, ranked_results]
    have hranked : again.ranked = (q.results c minimum).matched.zipIdx := by
      rw [ranked_results, hmatched]
      rw [hmatched] at hpasses
      exact rank_map_fst hpasses
    rw [matched, hranked, List.zipIdx_map_fst]
  · intro herror hagain
    obtain ⟨e, he⟩ := error_results_eq_none_iff.mp hagain
    exact herror (error_results_eq_none_iff.mpr ⟨_, parse_of_subset hsubset he⟩)

def emma : Book := { title := "Emma", genres := ["Romance", "classics"] }

def dracula : Book := { title := "Dracula", genres := ["Horror", "Classics"] }

theorem results_matched_novels :
    let c : Catalog := ⟨[emma, dracula]⟩
    let known : Query := .text "NOT horror"
    let unknown : Query := .entries ["classics", "AND", "vampires"]
    known.results c 0 = ⟨[(emma, 0)], none⟩ ∧
      (known.results ⟨(known.results c 0).matched⟩ 0).error = some (.unknownGenre "horror") ∧
      (known.results ⟨(known.results c 0).matched⟩ 0).matched = [emma] ∧
      unknown.results c 0 = ⟨[(emma, 0), (dracula, 1)], some (.unknownGenre "vampires")⟩ ∧
      (unknown.results ⟨(unknown.results c 0).matched⟩ 0).matched = [emma, dracula] ∧
      (unknown.results ⟨(unknown.results c 0).matched⟩ 0).error ≠ none := by
  intro c known unknown
  have hknown : known.results c 0 = ⟨[(emma, 0)], none⟩ := by
    have hparse : known.parse c.vocabulary = .ok (some (.not (.genre "Horror"))) := by
      rw [parse_eq_parse?, parse?_eq_run]
      decide +kernel
    rw [results_of_parse_eq_ok hparse,
      rank_of_pairwise (l := [(emma, 0)]) (by decide +kernel) (List.pairwise_singleton _ _)]
  have hshrunk : (known.results ⟨(known.results c 0).matched⟩ 0).error =
      some (.unknownGenre "horror") := by
    have hparse : known.parse (Catalog.mk [emma]).vocabulary = .error (.unknownGenre "horror") := by
      rw [parse_eq_parse?, parse?_eq_run]
      decide +kernel
    rw [hknown]
    exact congrArg Report.error (results_of_parse_eq_error hparse 0)
  have hunknown : unknown.results c 0 =
      ⟨[(emma, 0), (dracula, 1)], some (.unknownGenre "vampires")⟩ := by
    have hparse : unknown.parse c.vocabulary = .error (.unknownGenre "vampires") := by
      rw [parse_eq_parse?, parse?_eq_run]
      decide +kernel
    rw [results_of_parse_eq_error hparse,
      rank_of_pairwise (l := [(emma, 0), (dracula, 1)]) (by decide +kernel) (by decide +kernel)]
  have herror : (unknown.results c 0).error ≠ none := by
    rw [hunknown]
    exact Option.some_ne_none _
  have hmatched := (known.results_matched c 0).1
  obtain ⟨hmatched', hagain⟩ := unknown.results_matched c 0
  refine ⟨hknown, hshrunk, ?_, hunknown, ?_, hagain herror⟩
  · exact hmatched.trans (congrArg Report.matched hknown)
  · exact hmatched'.trans (congrArg Report.matched hunknown)

end Query

/-! ## Larger datasets -/

/-- The books of a list stand in another list, at the positions that `f` gives
them and in the same order. -/
structure Embeds (f : Nat → Nat) (bs cs : List Book) : Prop where
  strictMono : StrictMono f
  getElem?_eq : ∀ i < bs.length, cs[f i]? = bs[i]?

theorem exists_embeds {bs cs : List Book} (h : bs.Sublist cs) : ∃ f, Embeds f bs cs := by
  obtain ⟨f, hf⟩ := List.sublist_iff_exists_orderEmbedding_getElem?_eq.mp h
  exact ⟨f, f.strictMono, fun i _ => (hf i).symm⟩

namespace Report

theorem filter_rank_of_embeds {f : Nat → Nat} {bs cs : List Book} (h : Embeds f bs cs)
    (keep : Book → Bool) :
    (rank cs keep).filter (fun p => ∃ i < bs.length, f i = p.2) =
      (rank bs keep).map fun p => (p.1, f p.2) := by
  apply eq_map_of_precedes (pairwise_rank bs keep) ((pairwise_rank cs keep).filter _)
  · rintro p - q - (hlt | ⟨heq, hlt⟩)
    · exact Or.inl hlt
    · exact Or.inr ⟨heq, h.strictMono hlt⟩
  · intro p
    rw [List.mem_filter, mem_rank, decide_eq_true_eq]
    constructor
    · rintro ⟨⟨hbook, hkeep⟩, i, hi, hip⟩
      refine ⟨(p.1, i), mem_rank.mpr ⟨?_, hkeep⟩, by rw [hip]⟩
      rw [← h.getElem?_eq i hi, hip, hbook]
    · rintro ⟨q, hq, rfl⟩
      obtain ⟨hbook, hkeep⟩ := mem_rank.mp hq
      have hlt : q.2 < bs.length := (List.getElem?_eq_some_iff.mp hbook).1
      exact ⟨⟨by rw [h.getElem?_eq q.2 hlt, hbook], hkeep⟩, q.2, hlt, rfl⟩

end Report

namespace Catalog

/-- Books behind the others change no name that is known already. -/
theorem resolve_of_append {c d : Catalog} (h : d.books <+: c.books) {name : String}
    (hd : d.vocabulary.contains name) : d.vocabulary.resolve name = c.vocabulary.resolve name := by
  cases hblank : Genre.isBlankKey (Genre.key name) with
  | true => simp [Vocabulary.resolve_eq_name?, Vocabulary.name?_of_isBlankKey hblank]
  | false =>
      obtain ⟨more, hmore⟩ := h
      rw [Vocabulary.contains, Vocabulary.resolve_eq_name?, name?_vocabulary d hblank] at hd
      obtain ⟨n, hn⟩ := Option.isSome_iff_exists.mp hd
      rw [Vocabulary.resolve_eq_name?, Vocabulary.resolve_eq_name?, name?_vocabulary d hblank,
        name?_vocabulary c hblank, ← hmore, List.flatMap_append, List.find?_append, hn,
        Option.some_or]

end Catalog

namespace Query

open Expression Report

theorem parse_of_append {q : Query} {c d : Catalog} {e : Option Expression}
    (h : d.books <+: c.books) (hd : q.parse d.vocabulary = .ok e) :
    q.parse c.vocabulary = .ok e := by
  rw [parse_eq_parse?] at hd ⊢
  rw [← hd]
  apply congrArg
  apply Vocabulary.resolveTokens_congr
  intro x hx
  exact (Catalog.resolve_of_append h (Vocabulary.contains_of_parse? hd hx)).symm

/-- A dataset that grows keeps what a query said about its old books. -/
theorem results_of_sublist {bs cs : List Book} (h : bs.Sublist cs) {q : Query} {minimum : UInt64}
    (herror : (q.results ⟨bs⟩ minimum).error = none) :
    (q.results ⟨cs⟩ minimum).error = none ∧
      (∃ f, Embeds f bs cs) ∧
      (∀ f, Embeds f bs cs →
        (q.results ⟨cs⟩ minimum).ranked.filter (fun p => ∃ i < bs.length, f i = p.2) =
          (q.results ⟨bs⟩ minimum).ranked.map fun p => (p.1, f p.2)) ∧
      (bs <+: cs →
        q.parse (Catalog.mk cs).vocabulary = q.parse (Catalog.mk bs).vocabulary) := by
  obtain ⟨e, he⟩ := error_results_eq_none_iff.mp herror
  have hcs := parse_of_subset (c := ⟨cs⟩) h.subset he
  rw [results_of_parse_eq_ok hcs, results_of_parse_eq_ok he,
    passes_respell (Vocabulary.key_respelling _)]
  refine ⟨rfl, exists_embeds h, ?_, ?_⟩
  · intro f hf
    exact filter_rank_of_embeds hf (passes e minimum)
  · intro hmore
    rw [he, parse_of_append hmore he]

theorem results_of_sublist_novels :
    let q : Query := .text "CLASSICS"
    let old := [emma]
    let new := [emma, dracula, emma]
    (old.Sublist new ∧ (q.results ⟨old⟩ 0).error = none ∧ Embeds (· + 2) old new ∧ old <+: new) ∧
      (q.results ⟨new⟩ 0).error = none ∧
      (q.results ⟨old⟩ 0).ranked = [(emma, 0)] ∧
      (q.results ⟨new⟩ 0).ranked.filter (fun p => ∃ i < old.length, i + 2 = p.2) = [(emma, 2)] ∧
      q.parse (Catalog.mk new).vocabulary = q.parse (Catalog.mk old).vocabulary := by
  intro q old new
  have hmore : old <+: new := ⟨[dracula, emma], rfl⟩
  have hold : q.results ⟨old⟩ 0 = ⟨[(emma, 0)], none⟩ := by
    have hparse : q.parse (Catalog.mk old).vocabulary = .ok (some (.genre "classics")) := by
      rw [parse_eq_parse?, parse?_eq_run]
      decide +kernel
    rw [results_of_parse_eq_ok hparse,
      rank_of_pairwise (l := [(emma, 0)]) (by decide +kernel) (List.pairwise_singleton _ _)]
  have herror : (q.results ⟨old⟩ 0).error = none := congrArg Report.error hold
  have hranked : (q.results ⟨old⟩ 0).ranked = [(emma, 0)] := congrArg Report.ranked hold
  have hlast : Embeds (· + 2) old new := by
    constructor
    · intro i j hij
      exact Nat.add_lt_add_right hij 2
    · intro i hi
      obtain rfl : i = 0 := Nat.lt_one_iff.mp hi
      decide +kernel
  obtain ⟨hnew, -, hfilter, hparse⟩ := results_of_sublist hmore.sublist herror
  refine ⟨⟨hmore.sublist, herror, hlast, hmore⟩, hnew, hranked, ?_, hparse hmore⟩
  refine (hfilter _ hlast).trans ?_
  rw [hranked]
  rfl

end Query

end Bookshelf
