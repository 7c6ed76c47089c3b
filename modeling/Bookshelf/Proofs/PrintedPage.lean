import Bookshelf.CommandLine.Program
import Bookshelf.Proofs.BookText
import Bookshelf.Proofs.Invocations
import Bookshelf.Proofs.Queries
import Bookshelf.Proofs.SessionHistory

namespace Bookshelf

/-!
# Printed pages, loaded again

A page that is printed as JSON is a record of its view, and its list of books
is a dataset: it loads as the books of the page. The pages from the first to
the last together hold all results, so what they print does so as well. The
average rating is the one field that may change: a negative zero is loaded as
zero.
-/

namespace CommandLine

/-- A file that has been written is loaded as its text. -/
theorem Host.ofFile_write {path text : String} (hway : Directory.way? path = some [path.toList])
    (d : Directory) :
    Catalog.ofFile path ((Host.ofDirectory (d.write path text.toUTF8)).read? path) =
      if Catalog.isLineFile path then .ok (Catalog.ofLines text) else Catalog.ofJson text := by
  have hdecode : String.fromUTF8? text.toUTF8 = some text := dif_pos text.isValidUTF8
  rw [read?_ofDirectory, d.read?_write _ hway hway, Catalog.ofFile, Option.bind_some, hdecode]

/-! ## The value of a page -/

def pageValue (v : View) : Json :=
  .object
    [(some "total_books", .ofNatural v.totalBooks),
      (some "filtered_books", .ofNatural v.filteredBooks),
      (some "page", .ofNatural v.page),
      (some "total_pages", .ofNatural v.totalPages),
      (some "error", (v.report.error.map fun e => Json.text e.message).getD .null),
      (some "books", .array (v.books.map Book.json))]

theorem values_map_document (books : List Book) :
    Json.Document.values (books.map Book.document) = books.map Book.json := by
  rw [Json.Document.values_eq_map, List.map_map]
  exact List.map_congr_left fun b _ => b.value_document

theorem value_pageDocument (v : View) : (pageDocument v).value = pageValue v := by
  have herror : ((v.report.error.map fun e => Json.Document.text e.message).getD .null).value =
      (v.report.error.map fun e => Json.text e.message).getD .null := by
    cases v.report.error <;> rfl
  simp only [pageDocument, pageValue, Json.Document.value, Json.Document.members,
    values_map_document, herror]

theorem read?_pageJson (v : View) : Json.read? (pageJson v) = some (pageValue v) := by
  have hlexemes : Json.lexemes (pageJson v).toList =
      Json.lexemes ((pageDocument v).render .indented).toList := by
    rw [pageJson, String.toList_append]
    exact Json.lexemes_concat_of_isSpace rfl _
  rw [Json.read?, hlexemes, ← Json.read?,
    Json.Document.read?_render Json.Layout.isBlank_indented, value_pageDocument]

/-! ## Loading it -/

/-- The text is a JSON object, and its list of books, in any spelling, is a
dataset of these books. -/
def Reloads (stdout : String) (books : List Book) : Prop :=
  ∃ members list, Json.read? stdout = some (.object members) ∧
    Json.last? members "books" = some list ∧ (∃ t, Json.read? t = some list) ∧
      ∀ t, Json.read? t = some list → Catalog.ofJson t = .ok ⟨books⟩

theorem Reloads.unique {stdout : String} {books books' : List Book} (h : Reloads stdout books)
    (h' : Reloads stdout books') : books = books' := by
  obtain ⟨members, list, hread, hlist, ⟨t, ht⟩, hload⟩ := h
  obtain ⟨members', list', hread', hlist', -, hload'⟩ := h'
  obtain rfl : members = members' := by
    have hsome := hread.symm.trans hread'
    simpa using hsome
  obtain rfl : list = list' := Option.some.inj (hlist.symm.trans hlist')
  have hok := (hload t ht).symm.trans (hload' t ht)
  simpa using hok

theorem reloads_pageJson (v : View) : Reloads (pageJson v) (v.books.map Book.unsignZero) := by
  have hlist : Json.read? ((Json.Document.list (v.books.map Book.document)).render .compact) =
      some (.array (v.books.map Book.json)) := by
    rw [Json.Document.read?_render Json.Layout.isBlank_compact, Json.Document.value,
      values_map_document]
  refine ⟨_, _, read?_pageJson v, rfl, ⟨_, hlist⟩, ?_⟩
  intro t ht
  have hsound : ∀ w ∈ v.books.map Book.json, w.isSound (Catalog.maxDepth - 1) = true := by
    intro w hw
    obtain ⟨b, -, rfl⟩ := List.mem_map.mp hw
    exact b.isSound_json
  have hbook : Book.ofJson? ∘ Book.json = some ∘ Book.unsignZero := by
    funext b
    exact b.ofJson?_json_eq_unsignZero
  rw [Catalog.ofJson_of_read? ht hsound, List.filterMap_map, hbook, List.filterMap_eq_map]

/-! ## Running a filter -/

section

variable {c : Catalog} {request : Request} {query : Query} {minimumRatings : String}
  {page pageSize : Nat}

theorem exists_query?_of_isQuery (h : IsQuery request) : ∃ query, request.query? = some query := by
  cases request with
  | expression text => exact ⟨.text (Text.trimmed text), rfl⟩
  | tokens entries => exact ⟨.entries entries, rfl⟩
  | minimumRatings text => exact h.elim
  | page number => exact h.elim
  | clear => exact h.elim

/-- The page comes last, so no later request goes back to the first one. -/
theorem browse_eq (hquery : request.query? = some query) :
    let report := query.results c (Count.threshold minimumRatings)
    let pages := Pagination.ofSize report.size pageSize
    browse c request minimumRatings page pageSize = ⟨report, pages, pages.clamp page, c.size⟩ := by
  have hhistory : browse c request minimumRatings page pageSize =
      ((Session.start c pageSize).submitAll
        [request, .minimumRatings minimumRatings, .page page]).view := rfl
  have hminimum : request.minimum? = none := by
    cases request with
    | minimumRatings text => cases hquery
    | _ => rfl
  have hlastQuery : Session.lastQuery [request, .minimumRatings minimumRatings, .page page] =
      query := by
    rw [Session.lastQuery, List.filterMap_cons, hquery]
    rfl
  have hlastMinimum : Session.lastMinimum [request, .minimumRatings minimumRatings, .page page] =
      Count.threshold minimumRatings := by
    rw [Session.lastMinimum, List.filterMap_cons, hminimum]
    rfl
  have hpage : Session.requestedPage [request, .minimumRatings minimumRatings, .page page] =
      page := by
    simp [Session.requestedPage, Session.sinceChange, Request.query?, Request.minimum?,
      Request.page?]
  rw [hhistory, Session.submitAll_start, Session.view_afterHistory, hlastQuery, hlastMinimum, hpage]

theorem books_browse (hquery : request.query? = some query) :
    let report := query.results c (Count.threshold minimumRatings)
    (browse c request minimumRatings page pageSize).books =
      (Pagination.ofSize report.size pageSize).slice report.matched page := by
  intro report
  rw [browse_eq hquery]
  exact Pagination.slice_clamp _ _ _

/-- The pages from the first to the last hold all results. -/
theorem flatMap_books_browse (hquery : request.query? = some query) :
    (List.range' 1 (browse c request minimumRatings page pageSize).totalPages).flatMap
        (fun n => (browse c request minimumRatings n pageSize).books) =
      (query.results c (Count.threshold minimumRatings)).matched := by
  have hpages : (browse c request minimumRatings page pageSize).totalPages =
      (Pagination.ofSize (query.results c (Count.threshold minimumRatings)).size
        pageSize).totalPages := by
    rw [browse_eq hquery]
    rfl
  simp only [hpages, books_browse hquery]
  rw [Pagination.flatMap_slice_totalPages]
  exact List.take_of_length_le (Report.length_matched _).le

/-- The numbers of a page are words, as long as the dataset can be counted by one. -/
theorem numbers_browse (hquery : request.query? = some query) (hsize : c.size < UInt64.size) :
    let view := browse c request minimumRatings page pageSize
    ∀ n ∈ [view.totalBooks, view.filteredBooks, view.page, view.totalPages],
      ∃ w : UInt64, w.toNat = n ∧ Json.ofNatural n = .number (.word w) := by
  intro view n hn
  let report := query.results c (Count.threshold minimumRatings)
  let pages := Pagination.ofSize report.size pageSize
  have hview : view = ⟨report, pages, pages.clamp page, c.size⟩ := browse_eq hquery
  have hreport : report.size ≤ c.size := query.size_results_le c _
  have htotal : pages.totalPages ≤ report.size := pages.totalPages_le_totalItems
  have hpage : pages.clamp page ≤ max pages.totalPages 1 := pages.clamp_le_lastPage page
  have hone : 1 < UInt64.size := by decide
  have hlt : n < UInt64.size := by
    simp only [hview, List.mem_cons, List.not_mem_nil, or_false] at hn
    rcases hn with rfl | rfl | rfl | rfl
    · exact hsize
    · exact hreport.trans_lt hsize
    · exact hpage.trans_lt (max_lt (htotal.trans_lt (hreport.trans_lt hsize)) hone)
    · exact htotal.trans_lt (hreport.trans_lt hsize)
  exact ⟨UInt64.ofNat n, UInt64.toNat_ofNat_of_lt' hlt, Json.ofNatural_of_lt hlt⟩

theorem run_filter {args : List String} {host : Host} {data : String}
    (hargs : Invocation.parse args = .ok ⟨data, .filter request minimumRatings page pageSize true⟩)
    (hload : Catalog.ofFile data (host.read? data) = .ok c) :
    (run args host).code = 0 ∧
      (run args host).stdout = pageJson (browse c request minimumRatings page pageSize) := by
  rw [run, hargs]
  dsimp only [Invocation.run]
  rw [hload]
  exact ⟨rfl, rfl⟩

end

def shelfArguments : List String :=
  ["filter", "--tokens", "CLASSICS", "--page=2", "--page-size", "1", "--data=shelf.jl", "--json"]

def shelfText : String :=
  "[\"Emma\", \"Austen\", \"\", 4, 9, [\"Classics\"]]\nnothing\n\x7b\"Title\": \"It\"\x7d\r\n"

def shelfBooks : List Book :=
  [{ title := "Emma", author := "Austen", averageRating := Decimal.ofWord 4, ratingCount := 9,
     genres := ["Classics"] }, { title := "It" }]

def zeroArguments : List String :=
  ["--data=d.json", "filter", "--json"]

def zeroText : String :=
  "[\x7b\"Title\": \"Emma\", \"Avg Rating\": -0.0\x7d]"

def zeroBook : Book :=
  { title := "Emma", averageRating := { Decimal.zero with negative := true } }

end CommandLine

end Bookshelf
