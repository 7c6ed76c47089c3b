import Bookshelf.Proofs.DecimalText
import Bookshelf.Proofs.Documents
import Bookshelf.Proofs.Loaders
import Mathlib.Data.List.Nodup

namespace Bookshelf

/-!
# Books, written and loaded

A book is written as one line of JSON and every field of it comes back. The
average rating is written as text, so its places come back as well; only a
negative zero would lose its sign.
-/

namespace Book

/-- The value that a book is written for. -/
def json (b : Book) : Json :=
  .object
    [(some Field.title.key, .text b.title),
      (some Field.author.key, .text b.author),
      (some Field.link.key, .text b.link),
      (some Field.averageRating.key, .text (toString b.averageRating)),
      (some Field.ratingCount.key, .number (.word b.ratingCount)),
      (some Field.genres.key, .array (b.genres.map .text))]

theorem value_document (b : Book) : b.document.value = b.json := by
  have hgenres : Json.Document.values (b.genres.map .text) = b.genres.map .text := by
    rw [Json.Document.values_eq_map, List.map_map]
    refine List.map_congr_left ?_
    intro s _
    simp only [Function.comp_apply, Json.Document.value]
  simp only [document, json, Json.Document.value, Json.Document.members, Json.ofNatural_toNat,
    hgenres]

theorem read?_toJson (b : Book) : Json.read? b.toJson = some b.json := by
  rw [toJson, Json.Document.read?_render Json.Layout.isBlank_compact, value_document]

theorem isReadable_json (b : Book) : b.json.isReadable = true := by
  have hgenres : Json.areReadable (b.genres.map .text) = true := by
    refine Json.areReadable_iff.mpr ?_
    intro v hv
    obtain ⟨s, -, rfl⟩ := List.mem_map.mp hv
    rfl
  simp [json, Json.isReadable, Json.membersReadable, hgenres]

theorem isSound_json (b : Book) : b.json.isSound 126 = true := by
  have hgenres : Json.itemsDepth (b.genres.map .text) ≤ 0 := by
    refine Json.itemsDepth_le_iff.mpr ?_
    intro v hv
    obtain ⟨s, -, rfl⟩ := List.mem_map.mp hv
    exact le_rfl
  have hdepth : b.json.depth ≤ 126 := by
    simp [json, Json.depth, Json.membersDepth, Nat.le_zero.mp hgenres]
  exact Json.isSound_iff.mpr ⟨b.isReadable_json, hdepth⟩

theorem isPlain_json (b : Book) : IsPlain b.json := by
  intro f
  have hkeys : (Field.all.map fun f => some f.key).Nodup := by decide
  have hcount := List.nodup_iff_count_le_one.mp hkeys (some f.key)
  rw [List.count_eq_countP] at hcount
  exact hcount

theorem mapM_readText?_map_text (genres : List String) :
    (genres.map Json.text).mapM readText? = some genres := by
  induction genres with
  | nil => rfl
  | cons g gs ih => simp [ih, readText?]

variable {b : Book}

/-- The book without the sign of an average rating of zero. -/
def unsignZero (b : Book) : Book :=
  { b with averageRating := b.averageRating.unsignZero }

theorem unsignZero_eq_self (h : b.averageRating.isNegativeZero = false) : b.unsignZero = b := by
  rw [unsignZero, Decimal.unsignZero_eq_self h]

theorem ofJson?_json_eq_unsignZero (b : Book) : ofJson? b.json = some b.unsignZero := by
  have haverage : readAverage? (.text (toString b.averageRating)) =
      some b.averageRating.unsignZero := by
    rw [readAverage?, Decimal.read?_toString_eq_unsignZero]
    rfl
  have hgenres : readGenres? (.array (b.genres.map .text)) = some b.genres :=
    mapM_readText?_map_text b.genres
  simp [ofJson?, json, ofFields?, Json.last?, Field.key, readOr, readText?, haverage, readCount?,
    hgenres, unsignZero]

theorem ofJson?_json (h : b.averageRating.isNegativeZero = false) :
    ofJson? b.json = some b := by
  rw [ofJson?_json_eq_unsignZero, unsignZero_eq_self h]

theorem ofText?_toJson (h : b.averageRating.isNegativeZero = false) :
    ofText? b.toJson = some b := by
  rw [ofText?_of_read? b.read?_toJson b.isReadable_json b.isPlain_json, ofJson?_json h]

end Book

/-! ## One line -/

namespace Json.Document

theorem le_toNat_of_mem_of_all {cs : List Char}
    (hcs : cs.all (fun c => decide (0x20 ≤ c.toNat)) = true) : ∀ c ∈ cs, 0x20 ≤ c.toNat := by
  intro c hc
  exact of_decide_eq_true (List.all_eq_true.mp hcs c hc)

theorem le_toNat_of_mem_quote {s : String} : ∀ c ∈ quote s, 0x20 ≤ c.toNat := by
  refine List.forall_mem_cons.mpr ⟨by decide, List.forall_mem_append.mpr ⟨?_, ?_⟩⟩
  · exact Quoted.le_toNat_of_mem_encode
  · exact List.forall_mem_singleton.mpr (by decide)

theorem le_toNat_of_mem_field (label : String) {cs : List Char} (hcs : ∀ c ∈ cs, 0x20 ≤ c.toNat) :
    ∀ c ∈ quote label ++ [':'] ++ cs, 0x20 ≤ c.toNat := by
  refine List.forall_mem_append.mpr ⟨List.forall_mem_append.mpr ⟨le_toNat_of_mem_quote, ?_⟩, hcs⟩
  exact List.forall_mem_singleton.mpr (by decide)

mutual

/-- Without a layout no control character is written, so no line ends. -/
theorem le_toNat_of_mem_write (depth : Nat) :
    (d : Document) → ∀ c ∈ d.write .compact depth, 0x20 ≤ c.toNat
  | .null => by
      rw [write]
      exact le_toNat_of_mem_of_all rfl
  | .natural n => by
      intro c hc
      rw [write] at hc
      have hdigit := Digits.isDigit_of_mem_toDigits c hc
      exact Digits.of_isDigit (P := fun c => 0x20 ≤ c.toNat) (by decide) hdigit
  | .text s => by
      rw [write]
      exact le_toNat_of_mem_quote
  | .list [] => by
      rw [write]
      exact le_toNat_of_mem_of_all rfl
  | .list (d :: ds) => by
      have hd := le_toNat_of_mem_write (depth + 1) d
      have hds := le_toNat_of_mem_writeItems depth ds
      rw [write]
      exact List.forall_mem_cons.mpr ⟨by decide, List.forall_mem_append.mpr ⟨hd, hds⟩⟩
  | .record [] => by
      rw [write]
      exact le_toNat_of_mem_of_all rfl
  | .record ((label, d) :: fs) => by
      have hd := le_toNat_of_mem_write (depth + 1) d
      have hfs := le_toNat_of_mem_writeFields depth fs
      rw [write]
      refine List.forall_mem_cons.mpr ⟨by decide, List.forall_mem_append.mpr ⟨?_, hfs⟩⟩
      exact le_toNat_of_mem_field label hd

theorem le_toNat_of_mem_writeItems (depth : Nat) :
    (ds : List Document) → ∀ c ∈ writeItems .compact depth ds, 0x20 ≤ c.toNat
  | [] => by
      rw [writeItems]
      exact List.forall_mem_singleton.mpr (by decide)
  | d :: ds => by
      have hd := le_toNat_of_mem_write (depth + 1) d
      have hds := le_toNat_of_mem_writeItems depth ds
      rw [writeItems]
      exact List.forall_mem_cons.mpr ⟨by decide, List.forall_mem_append.mpr ⟨hd, hds⟩⟩

theorem le_toNat_of_mem_writeFields (depth : Nat) :
    (fs : List (String × Document)) → ∀ c ∈ writeFields .compact depth fs, 0x20 ≤ c.toNat
  | [] => by
      rw [writeFields]
      exact List.forall_mem_singleton.mpr (by decide)
  | (label, d) :: fs => by
      have hd := le_toNat_of_mem_write (depth + 1) d
      have hfs := le_toNat_of_mem_writeFields depth fs
      rw [writeFields]
      refine List.forall_mem_cons.mpr ⟨by decide, List.forall_mem_append.mpr ⟨?_, hfs⟩⟩
      exact le_toNat_of_mem_field label hd

end

end Json.Document

namespace Book

theorem newline_notMem_toJson (b : Book) : '\n' ∉ b.toJson.toList := by
  intro hmem
  rw [toJson, Json.Document.render, String.toList_ofList] at hmem
  have hcontrol := Json.Document.le_toNat_of_mem_write 0 b.document '\n' hmem
  exact absurd hcontrol (by decide)

end Book

namespace Catalog

/-- Books that are written as JSON, on lines or in an array, load as they were. -/
theorem load_toJson {books : List Book}
    (hbooks : ∀ b ∈ books, b.averageRating.isNegativeZero = false) :
    ofLines ("\n".intercalate (books.map Book.toJson)) = ⟨books⟩ ∧
      ofJson ("[" ++ ",".intercalate (books.map Book.toJson) ++ "]") = .ok ⟨books⟩ := by
  have hlines : ∀ t ∈ books.map Book.toJson, '\n' ∉ t.toList := by
    intro t ht
    obtain ⟨b, -, rfl⟩ := List.mem_map.mp ht
    exact b.newline_notMem_toJson
  have hsound : ∀ t ∈ books.map Book.toJson,
      ∃ v, Json.read? t = some v ∧ v.isSound (maxDepth - 1) = true := by
    intro t ht
    obtain ⟨b, -, rfl⟩ := List.mem_map.mp ht
    exact ⟨b.json, b.read?_toJson, b.isSound_json⟩
  constructor
  · have hload : ∀ b ∈ books, (Book.ofText? ∘ Book.toJson) b = some b := by
      intro b hb
      rw [Function.comp_apply, Book.ofText?_toJson (hbooks b hb)]
    rw [ofLines_intercalate hlines, List.filterMap_map, List.filterMap_congr hload,
      List.filterMap_some]
  · have hload : ∀ b ∈ books,
        ((fun t => (Json.read? t).bind Book.ofJson?) ∘ Book.toJson) b = some b := by
      intro b hb
      rw [Function.comp_apply, b.read?_toJson, Option.bind_some, Book.ofJson?_json (hbooks b hb)]
    rw [ofJson_brackets hsound, List.filterMap_map, List.filterMap_congr hload, List.filterMap_some]

def awkwardBooks : List Book :=
  [{ title := "], \"Title\": \n\r", author := "\\u0041 \u2028", link := "\u0001",
     averageRating := ⟨true, 79228162514264337593543950335, 28, by decide, by decide⟩,
     ratingCount := 18446744073709551615, genres := ["", ",", "Fran\u00E7ais"] },
    { title := "", averageRating := ⟨false, 410, 2, by decide, by decide⟩ }]

theorem load_toJson_awkwardBooks :
    (∀ b ∈ awkwardBooks, b.averageRating.isNegativeZero = false) ∧
      ofLines ("\n".intercalate (awkwardBooks.map Book.toJson)) = ⟨awkwardBooks⟩ ∧
      ofJson ("[" ++ ",".intercalate (awkwardBooks.map Book.toJson) ++ "]") = .ok ⟨awkwardBooks⟩ := by
  have hbooks : ∀ b ∈ awkwardBooks, b.averageRating.isNegativeZero = false := by decide
  exact ⟨hbooks, load_toJson hbooks⟩

end Catalog

end Bookshelf
