import Bookshelf.Proofs.JsonReader
import Bookshelf.Proofs.Lines

namespace Bookshelf

/-!
# The two ways to load a catalog

A dataset is one array of books or one book a line. An array is read as a
whole and its items are taken from the value; a line is read as a text of its
own. Both take a book out of a value in the same way, so they differ only in
what they refuse: an array one unsound item, a line its repeated fields.
-/

namespace Book

/-- No field is given twice. -/
def IsPlain : Json → Prop
  | .object members => ∀ f : Field, members.countP (·.1 == some f.key) ≤ 1
  | _ => True

theorem isSome_key_of_membersReadable {members : List (Option String × Json)}
    (h : Json.membersReadable members = true) : ∀ m ∈ members, m.1.isSome = true := by
  induction members with
  | nil => exact fun m hm => (List.not_mem_nil hm).elim
  | cons m members ih =>
      obtain ⟨key, v⟩ := m
      simp only [Json.membersReadable, Bool.and_eq_true] at h
      obtain ⟨⟨hkey, -⟩, hmembers⟩ := h
      exact List.forall_mem_cons.mpr ⟨hkey, ih hmembers⟩

/-- A readable value without repeated fields is the same book as a text of its
own and as an item of an array. -/
theorem ofText?_of_read? {t : String} {v : Json} (hread : Json.read? t = some v)
    (hreadable : v.isReadable = true) (hplain : IsPlain v) : ofText? t = ofJson? v := by
  rw [ofText?, hread]
  cases v with
  | object members =>
      have hkeys : hasPlainKeys members = true := by
        rw [hasPlainKeys, Bool.and_eq_true, List.all_eq_true, List.all_eq_true]
        rw [Json.isReadable] at hreadable
        refine ⟨isSome_key_of_membersReadable hreadable, ?_⟩
        intro f _
        exact decide_eq_true (hplain f)
      exact if_pos hkeys
  | _ => rfl

end Book

namespace Json

theorem itemsDepth_le_iff {room : Nat} {vs : List Json} :
    itemsDepth vs ≤ room ↔ ∀ v ∈ vs, v.depth ≤ room := by
  induction vs with
  | nil => simp [itemsDepth]
  | cons v vs ih => rw [itemsDepth, List.forall_mem_cons, ← ih, Nat.max_le]

theorem areReadable_iff {vs : List Json} :
    areReadable vs = true ↔ ∀ v ∈ vs, v.isReadable = true := by
  induction vs with
  | nil => simp [areReadable]
  | cons v vs ih => simp [areReadable, ih]

theorem isSound_iff {room : Nat} {v : Json} :
    v.isSound room = true ↔ v.isReadable = true ∧ v.depth ≤ room := by
  simp [isSound]

theorem isSound_array_iff {room : Nat} {vs : List Json} :
    (Json.array vs).isSound (room + 1) = true ↔ ∀ v ∈ vs, v.isSound room = true := by
  simp only [isSound_iff, isReadable, depth, Nat.add_le_add_iff_right, areReadable_iff,
    itemsDepth_le_iff, forall_and]

end Json

namespace Catalog

/-- An array of sound values, one level below the limit, always loads. -/
theorem ofJson_of_read? {t : String} {vs : List Json} (hread : Json.read? t = some (.array vs))
    (hvs : ∀ v ∈ vs, v.isSound (maxDepth - 1) = true) :
    ofJson t = .ok ⟨vs.filterMap Book.ofJson?⟩ := by
  have hsound : (Json.array vs).isSound maxDepth = true := Json.isSound_array_iff.mpr hvs
  rw [ofJson, hread]
  simp only [hsound, if_true]

theorem ofJson_of_isReadable_eq_false {t : String} {v : Json} (hread : Json.read? t = some v)
    (hv : v.isReadable = false) : ofJson t = .error .malformedJson := by
  rw [ofJson, hread]
  simp [Json.isSound, hv]

theorem ofJson_brackets {ts : List String}
    (hts : ∀ t ∈ ts, ∃ v, Json.read? t = some v ∧ v.isSound (maxDepth - 1) = true) :
    ofJson ("[" ++ ",".intercalate ts ++ "]") =
      .ok ⟨ts.filterMap fun t => (Json.read? t).bind Book.ofJson?⟩ := by
  have hread : ∀ t ∈ ts, (Json.read? t).isSome = true := by
    intro t ht
    obtain ⟨v, hv, -⟩ := hts t ht
    exact Option.isSome_of_eq_some hv
  have hitems : ∀ v ∈ ts.filterMap Json.read?, v.isSound (maxDepth - 1) = true := by
    intro v hv
    obtain ⟨t, ht, hv⟩ := List.mem_filterMap.mp hv
    obtain ⟨w, hw, hsound⟩ := hts t ht
    obtain rfl : v = w := Option.some.inj (hv.symm.trans hw)
    exact hsound
  rw [ofJson_of_read? (Json.read?_brackets hread) hitems, List.filterMap_filterMap]

/-- Readable values on lines of their own and the same values in one array are
the same catalog, and the entry of a value is kept by both or by neither. -/
theorem ofJson_brackets_eq_ofLines {ts : List String} (hlines : ∀ t ∈ ts, '\n' ∉ t.toList)
    (hvalues : ∀ t ∈ ts, ∃ v, Json.read? t = some v ∧ v.depth ≤ 126 ∧ v.isReadable = true ∧
      Book.IsPlain v) :
    ofJson ("[" ++ ",".intercalate ts ++ "]") = .ok (ofLines ("\n".intercalate ts)) ∧
      ofLines ("\n".intercalate ts) = ⟨ts.filterMap Book.ofText?⟩ ∧
      ∀ t ∈ ts, (Json.read? t).bind Book.ofJson? = Book.ofText? t := by
  have hentry : ∀ t ∈ ts, (Json.read? t).bind Book.ofJson? = Book.ofText? t := by
    intro t ht
    obtain ⟨v, hread, -, hreadable, hplain⟩ := hvalues t ht
    rw [Book.ofText?_of_read? hread hreadable hplain, hread, Option.bind_some]
  have hsound : ∀ t ∈ ts, ∃ v, Json.read? t = some v ∧ v.isSound (maxDepth - 1) = true := by
    intro t ht
    obtain ⟨v, hread, hdepth, hreadable, -⟩ := hvalues t ht
    exact ⟨v, hread, Json.isSound_iff.mpr ⟨hreadable, hdepth⟩⟩
  have hlines := ofLines_intercalate hlines
  refine ⟨?_, hlines, hentry⟩
  rw [ofJson_brackets hsound, hlines, List.filterMap_congr hentry]

def mixedEntries : List String :=
  ["\x7b\"Genres\": null, \"Shelf\": [[\"A\"]], \"Num Ratings\": -0.0\x7d\r",
    "[\"Emma\", \"Austen\"]", " null", "\x7b\"Title\": 5\x7d"]

theorem ofJson_brackets_eq_ofLines_mixedEntries :
    (∀ t ∈ mixedEntries, '\n' ∉ t.toList) ∧
      (∀ t ∈ mixedEntries, ∃ v, Json.read? t = some v ∧ v.depth ≤ 126 ∧ v.isReadable = true ∧
        Book.IsPlain v) ∧
      ofLines ("\n".intercalate mixedEntries) =
        ⟨[{ title := "" }, { title := "Emma", author := "Austen" }]⟩ ∧
      ofJson ("[" ++ ",".intercalate mixedEntries ++ "]") =
        .ok ⟨[{ title := "" }, { title := "Emma", author := "Austen" }]⟩ := by
  have hlines : ∀ t ∈ mixedEntries, '\n' ∉ t.toList := by decide
  have hmembers : Json.read?
        "\x7b\"Genres\": null, \"Shelf\": [[\"A\"]], \"Num Ratings\": -0.0\x7d\r" =
      some (.object [(some "Genres", .null), (some "Shelf", .array [.array [.text "A"]]),
        (some "Num Ratings", .number (.double (Double.zero true)))]) := rfl
  have hfields : Json.read? "[\"Emma\", \"Austen\"]" =
      some (.array [.text "Emma", .text "Austen"]) := rfl
  have hnull : Json.read? " null" = some .null := rfl
  have htitle : Json.read? "\x7b\"Title\": 5\x7d" =
      some (.object [(some "Title", .number (.word 5))]) := rfl
  have hvalues : ∀ t ∈ mixedEntries, ∃ v, Json.read? t = some v ∧ v.depth ≤ 126 ∧
      v.isReadable = true ∧ Book.IsPlain v := by
    simp only [mixedEntries, List.forall_mem_cons]
    refine ⟨⟨_, hmembers, by decide, rfl, ?_⟩, ⟨_, hfields, by decide, rfl, trivial⟩,
      ⟨_, hnull, by decide, rfl, trivial⟩, ⟨_, htitle, by decide, rfl, ?_⟩, List.forall_mem_nil _⟩
    · intro f
      cases f <;> decide
    · intro f
      cases f <;> decide
  have hbooks : ofLines ("\n".intercalate mixedEntries) =
      ⟨[{ title := "" }, { title := "Emma", author := "Austen" }]⟩ := by decide +kernel
  obtain ⟨hload, -, -⟩ := ofJson_brackets_eq_ofLines hlines hvalues
  exact ⟨hlines, hvalues, hbooks, hload.trans (congrArg Except.ok hbooks)⟩

/-- A book with a number that is beyond all doubles. -/
def hugeNumber : String := "\x7b\"Title\": \"A\", \"x\": 1e400\x7d"

/-- A book with half of a surrogate pair. -/
def halfPair : String := "\x7b\"Title\": \"A\", \"x\": \"\\ud800\"\x7d"

/-- On a line a member that is no field needs no meaning, while one unreadable
scalar spoils the whole array. -/
theorem ofJson_brackets_ne_ofLines_unreadable :
    (∀ t ∈ [hugeNumber, halfPair], '\n' ∉ t.toList ∧
      ∃ v, Json.read? t = some v ∧ v.depth ≤ 126 ∧ Book.IsPlain v) ∧
    ofJson ("[" ++ ",".intercalate [hugeNumber] ++ "]") = .error .malformedJson ∧
    ofLines ("\n".intercalate [hugeNumber]) = ⟨[{ title := "A" }]⟩ ∧
    ofJson ("[" ++ ",".intercalate [halfPair] ++ "]") = .error .malformedJson ∧
    ofLines ("\n".intercalate [halfPair]) = ⟨[{ title := "A" }]⟩ := by
  let v : Json := .object [(some "Title", .text "A"), (some "x", .unreadable)]
  have hread : ∀ t ∈ [hugeNumber, halfPair], Json.read? t = some v :=
    List.forall_mem_cons.mpr ⟨rfl, List.forall_mem_singleton.mpr rfl⟩
  have hplain : Book.IsPlain v := by
    intro f
    cases f <;> decide
  have harray : ∀ t ∈ [hugeNumber, halfPair],
      ofJson ("[" ++ ",".intercalate [t] ++ "]") = .error .malformedJson := by
    intro t ht
    have hsome : ∀ u ∈ [t], (Json.read? u).isSome = true :=
      List.forall_mem_singleton.mpr (Option.isSome_of_eq_some (hread t ht))
    refine ofJson_of_isReadable_eq_false (Json.read?_brackets hsome) ?_
    rw [List.filterMap_cons, hread t ht]
    rfl
  have hlines : ∀ t ∈ [hugeNumber, halfPair], '\n' ∉ t.toList := by decide
  refine ⟨fun t ht => ⟨hlines t ht, v, hread t ht, by decide, hplain⟩, ?_, ?_, ?_, ?_⟩
  · exact harray hugeNumber List.mem_cons_self
  · decide +kernel
  · exact harray halfPair (List.mem_cons_of_mem _ List.mem_cons_self)
  · decide +kernel

end Catalog

end Bookshelf
