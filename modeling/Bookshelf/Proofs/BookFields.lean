import Bookshelf.Proofs.BookText

namespace Bookshelf

/-!
# Which fields make a book

A book is put together from the values of its fields, where there are any.
Every field is read on its own, so each field of a book depends on one value,
and there is a book when every field is missing or holds a value of the right
kind.
-/

namespace Book

def IsRating (v : Json) : Prop :=
  v = .null ∨ (∃ n, v = .number n) ∨ ∃ s, v = .text s

namespace Field

/-- The values that a field may hold. -/
def Accepts : Field → Json → Prop
  | .title, v | .author, v | .link, v => ∃ s, v = .text s
  | .averageRating, v | .ratingCount, v => IsRating v
  | .genres, v => v = .null ∨ ∃ genres : List String, v = .array (genres.map .text)

/-- Whether a field has the same value in a book as it is read from a value, if there is one. -/
def Reads (b : Book) (v : Option Json) : Field → Prop
  | .title => readOr "" readText? v = some b.title
  | .author => readOr "" readText? v = some b.author
  | .link => readOr "" readText? v = some b.link
  | .averageRating => readOr Decimal.zero readAverage? v = some b.averageRating
  | .ratingCount => readOr 0 readCount? v = some b.ratingCount
  | .genres => readOr [] readGenres? v = some b.genres

/-- A book with one field taken from another one. -/
def copy (source target : Book) : Field → Book
  | .title => { target with title := source.title }
  | .author => { target with author := source.author }
  | .link => { target with link := source.link }
  | .averageRating => { target with averageRating := source.averageRating }
  | .ratingCount => { target with ratingCount := source.ratingCount }
  | .genres => { target with genres := source.genres }

variable {f g : Field} {b source target : Book} {v : Option Json}

theorem copy_copy (f : Field) : f.copy (f.copy source target) target = f.copy source target := by
  cases f <;> rfl

theorem reads_copy_self (f : Field) : f.Reads (f.copy source target) v ↔ f.Reads source v := by
  cases f <;> rfl

theorem reads_copy_of_ne (h : g ≠ f) : g.Reads (f.copy source target) v ↔ g.Reads target v := by
  cases f <;> cases g <;> first | exact (h rfl).elim | rfl

end Field

theorem readText?_eq_some_iff {v : Json} {s : String} : readText? v = some s ↔ v = .text s := by
  cases v <;> simp [readText?]

theorem exists_readAverage?_iff {v : Json} : (∃ d, readAverage? v = some d) ↔ IsRating v := by
  cases v with
  | number n => cases n <;> simp [readAverage?, IsRating]
  | _ => simp [readAverage?, IsRating]

theorem exists_readCount?_iff {v : Json} : (∃ n, readCount? v = some n) ↔ IsRating v := by
  cases v with
  | number n => cases n <;> simp [readCount?, IsRating]
  | _ => simp [readCount?, IsRating]

theorem mapM_readText?_eq_some_iff {items : List Json} {genres : List String} :
    items.mapM readText? = some genres ↔ items = genres.map .text := by
  constructor
  · intro h
    induction items generalizing genres with
    | nil =>
        obtain rfl : [] = genres := Option.some.inj h
        rfl
    | cons v items ih =>
        rw [List.mapM_cons] at h
        obtain ⟨s, hs, h⟩ := Option.bind_eq_some_iff.mp h
        obtain ⟨rest, hrest, h⟩ := Option.bind_eq_some_iff.mp h
        obtain rfl := Option.some.inj h
        rw [List.map_cons, readText?_eq_some_iff.mp hs, ih hrest]
  · rintro rfl
    exact mapM_readText?_map_text genres

theorem exists_readGenres?_iff {v : Json} :
    (∃ genres, readGenres? v = some genres) ↔ Field.genres.Accepts v := by
  cases v with
  | null => simp [readGenres?, Field.Accepts]
  | array items => simp [readGenres?, Field.Accepts, mapM_readText?_eq_some_iff]
  | _ => simp [readGenres?, Field.Accepts]

namespace Field

/-- Some book has a given value in a field, so it has any value that is read there. -/
theorem exists_eq_some_iff {α : Type} {value : Book → α} (hvalue : Function.Surjective value)
    (read : Option α) : (∃ b, read = some (value b)) ↔ ∃ a, read = some a := by
  rw [hvalue.exists]

/-- A field can be read where it is missing or holds an accepted value. -/
theorem exists_reads_iff {f : Field} {v : Option Json} :
    (∃ b, f.Reads b v) ↔ ∀ w, v = some w → f.Accepts w := by
  cases v with
  | none =>
      have hdefault : f.Reads { title := "" } none := by cases f <;> rfl
      exact iff_of_true ⟨_, hdefault⟩ (by simp)
  | some w =>
      have htext : (∃ s, readText? w = some s) ↔ ∃ s, w = .text s :=
        exists_congr fun _ => readText?_eq_some_iff
      simp only [Option.some.injEq, forall_eq']
      cases f with
      | title =>
          exact (exists_eq_some_iff (fun s => ⟨{ title := s }, rfl⟩) _).trans htext
      | author =>
          exact (exists_eq_some_iff (fun s => ⟨{ title := "", author := s }, rfl⟩) _).trans htext
      | link =>
          exact (exists_eq_some_iff (fun s => ⟨{ title := "", link := s }, rfl⟩) _).trans htext
      | averageRating =>
          exact (exists_eq_some_iff (fun d => ⟨{ title := "", averageRating := d }, rfl⟩) _).trans
            exists_readAverage?_iff
      | ratingCount =>
          exact (exists_eq_some_iff (fun n => ⟨{ title := "", ratingCount := n }, rfl⟩) _).trans
            exists_readCount?_iff
      | genres =>
          exact (exists_eq_some_iff (fun gs => ⟨{ title := "", genres := gs }, rfl⟩) _).trans
            exists_readGenres?_iff

end Field

/-! ## Fields, one by one -/

variable {field field' : Field → Option Json} {b : Book} {f : Field}

theorem ofFields?_eq_some_iff : ofFields? field = some b ↔ ∀ f : Field, f.Reads b (field f) := by
  constructor
  · intro h
    simp only [ofFields?, Option.bind_eq_bind, Option.bind_eq_some_iff, Option.pure_def,
      Option.some.injEq] at h
    obtain ⟨title, htitle, author, hauthor, link, hlink, average, haverage, count, hcount, genres,
      hgenres, rfl⟩ := h
    intro f
    cases f <;> assumption
  · intro h
    have htitle := h .title
    have hauthor := h .author
    have hlink := h .link
    have haverage := h .averageRating
    have hcount := h .ratingCount
    have hgenres := h .genres
    simp only [Field.Reads] at htitle hauthor hlink haverage hcount hgenres
    simp [ofFields?, htitle, hauthor, hlink, haverage, hcount, hgenres]

theorem ofFields?_congr (h : ∀ (f : Field) (b : Book), f.Reads b (field f) ↔ f.Reads b (field' f)) :
    ofFields? field = ofFields? field' := by
  refine Option.ext ?_
  intro b
  rw [ofFields?_eq_some_iff, ofFields?_eq_some_iff]
  exact forall_congr' fun f => h f b

theorem isSome_ofFields?_iff :
    (ofFields? field).isSome = true ↔ ∀ (f : Field) (v : Json), field f = some v → f.Accepts v := by
  rw [Option.isSome_iff_exists]
  simp only [ofFields?_eq_some_iff, ← Field.exists_reads_iff]
  constructor
  · rintro ⟨b, hb⟩ f
    exact ⟨b, hb f⟩
  · intro h
    choose source hsource using h
    refine ⟨⟨(source .title).title, (source .author).author, (source .link).link,
      (source .averageRating).averageRating, (source .ratingCount).ratingCount,
      (source .genres).genres⟩, ?_⟩
    intro f
    have h := hsource f
    cases f <;> exact h

/-- Another accepted value in a field changes this field of the book and no other. -/
theorem exists_ofFields?_eq_copy (hothers : ∀ g, g ≠ f → field' g = field g)
    (haccepts : ∀ v, field' f = some v → f.Accepts v) (hb : ofFields? field = some b) :
    ∃ b', ofFields? field' = some b' ∧ b' = f.copy b' b := by
  obtain ⟨source, hsource⟩ := Field.exists_reads_iff.mpr haccepts
  refine ⟨f.copy source b, ofFields?_eq_some_iff.mpr ?_, (f.copy_copy).symm⟩
  intro g
  by_cases hg : g = f
  · subst hg
    exact g.reads_copy_self.mpr hsource
  · rw [Field.reads_copy_of_ne hg, hothers g hg]
    exact ofFields?_eq_some_iff.mp hb g

end Book

end Bookshelf
