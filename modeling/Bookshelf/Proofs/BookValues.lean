import Bookshelf.Proofs.BookFields
import Bookshelf.Proofs.Counts

namespace Bookshelf

/-!
# Which values are books

A value is a book when each of its fields is missing or holds a value of the
right kind; what a rating says does not matter. A book depends on the last
value of each field alone, and another value in a field changes that field and
nothing else.
-/

namespace Json

variable {members front back : List (Option String × Json)} {key : String}

theorem last?_eq (members : List (Option String × Json)) (key : String) :
    last? members key = (members.filter (·.1 == some key)).getLast?.map (·.2) := by
  rw [last?, ← List.head?_filter, List.filter_reverse, List.head?_reverse]

theorem last?_replace_self (front back : List (Option String × Json)) (key : String) (v : Json) :
    last? (front ++ (some key, v) :: back) key = some ((last? back key).getD v) := by
  simp only [last?_eq, List.filter_append, List.filter_cons, beq_self_eq_true, if_true,
    List.getLast?_append, List.getLast?_cons]
  cases (back.filter (·.1 == some key)).getLast? <;> rfl

theorem last?_replace_of_ne {name : Option String} (h : name ≠ some key) (v : Json) :
    last? (front ++ (name, v) :: back) key = last? (front ++ back) key := by
  have hkey : (name == some key) = false := beq_eq_false_iff_ne.mpr h
  simp only [last?_eq, List.filter_append, List.filter_cons, hkey, Bool.false_eq_true, if_false]

theorem last?_zip_eq_none {keys : List (Option String)} (h : some key ∉ keys) (items : List Json) :
    last? (keys.zip items) key = none := by
  have hnone : (keys.zip items).filter (·.1 == some key) = [] := by
    rw [List.filter_eq_nil_iff]
    intro m hm hkey
    exact h (beq_iff_eq.mp hkey ▸ (List.of_mem_zip hm).1)
  rw [last?_eq, hnone]
  rfl

/-- Among different keys in order, a key has the item at its own place. -/
theorem last?_zip {keys : List (Option String)} (hkeys : keys.Nodup) {i : Nat}
    (hi : keys[i]? = some (some key)) (items : List Json) :
    last? (keys.zip items) key = items[i]? := by
  induction keys generalizing i items with
  | nil => cases hi
  | cons name keys ih =>
      obtain ⟨hname, hkeys⟩ := List.nodup_cons.mp hkeys
      cases items with
      | nil => rfl
      | cons v items =>
          rw [List.zip_cons_cons]
          cases i with
          | zero =>
              obtain rfl : name = some key := Option.some.inj hi
              have hself := last?_replace_self [] (keys.zip items) key v
              rw [last?_zip_eq_none hname] at hself
              exact hself
          | succ i =>
              have hne : name ≠ some key := by
                rintro rfl
                exact hname (List.mem_of_getElem? hi)
              have hskip : last? ([] ++ (name, v) :: keys.zip items) key =
                  last? (keys.zip items) key := last?_replace_of_ne hne v
              exact hskip.trans (ih hkeys hi items)

end Json

namespace Book

open Json

variable {members members' : List (Option String × Json)}

theorem Field.key_injective {f g : Field} (h : f.key = g.key) : f = g := by
  cases f <;> cases g <;> first | rfl | exact absurd h (by decide)

/-- The values that are given to a field, in order. -/
def given (members : List (Option String × Json)) (f : Field) : List (Option String × Json) :=
  members.filter (·.1 == some f.key)

def isField (member : Option String × Json) : Bool :=
  Field.all.any fun f => member.1 == some f.key

theorem ofJson?_object (members : List (Option String × Json)) :
    ofJson? (.object members) = ofFields? fun f => last? members f.key := rfl

theorem ofJson?_object_congr (h : ∀ f, given members f = given members' f) :
    ofJson? (.object members) = ofJson? (.object members') := by
  have hlast : ∀ f : Field, last? members f.key = last? members' f.key := by
    intro f
    rw [last?_eq, last?_eq]
    exact congrArg (fun ms => ms.getLast?.map (·.2)) (h f)
  exact congrArg ofFields? (funext hlast)

theorem given_filter_isField (members : List (Option String × Json)) (f : Field) :
    given (members.filter isField) f = given members f := by
  rw [given, List.filter_filter, given]
  refine List.filter_congr ?_
  intro m _
  by_cases hkey : (m.1 == some f.key) = true
  · have hfield : isField m = true :=
      List.any_eq_true.mpr ⟨f, by cases f <;> decide, hkey⟩
    rw [hkey, hfield, Bool.and_self]
  · rw [eq_false_of_ne_true hkey, Bool.false_and]

theorem given_eq_of_perm (hperm : members.Perm members') (hplain : IsPlain (.object members))
    (f : Field) : given members f = given members' f := by
  have hgiven : (given members f).Perm (given members' f) := hperm.filter _
  have hlength : (given members f).length ≤ 1 := by
    rw [given, ← List.countP_eq_length_filter]
    exact hplain f
  cases hms : given members f with
  | nil => exact (List.nil_perm.mp (hms ▸ hgiven)).symm
  | cons m ms =>
      rw [hms, List.length_cons] at hlength
      obtain rfl : ms = [] := List.eq_nil_of_length_eq_zero (by omega)
      exact List.singleton_perm.mp (hms ▸ hgiven)

/-- The members that an array of fields stands for. -/
def keyed (items : List Json) : List (Option String × Json) :=
  (Field.all.map fun f => some f.key).zip items

theorem last?_keyed (items : List Json) (f : Field) :
    last? (keyed items) f.key = items[f.index]? := by
  have hkeys : (Field.all.map fun f => some f.key).Nodup := by decide
  refine last?_zip hkeys ?_ items
  cases f <;> rfl

theorem ofJson?_array (items : List Json) :
    ofJson? (.array items) =
      if items.length ≤ Field.all.length then ofFields? fun f => items[f.index]? else none := rfl

/-- An array of fields is read as the object that gives its items the keys of the fields. -/
theorem ofJson?_array_eq_keyed (items : List Json) :
    ofJson? (.array items) =
      if items.length ≤ 6 then ofJson? (.object (keyed items)) else none := by
  have hobject : ofJson? (.object (keyed items)) = ofFields? fun f => items[f.index]? :=
    congrArg ofFields? (funext (last?_keyed items))
  rw [hobject, ofJson?_array]
  rfl

theorem isSome_ofJson?_object_iff :
    (ofJson? (.object members)).isSome = true ↔
      ∀ (f : Field) (v : Json), last? members f.key = some v → f.Accepts v := by
  rw [ofJson?_object, isSome_ofFields?_iff]

/-! ## Another value in a field -/

variable {front back : List (Option String × Json)} {before behind : List Json} {f : Field}
  {w v : Json} {b : Book}

theorem Field.index_injective {f g : Field} (h : f.index = g.index) : f = g := by
  cases f <;> cases g <;> first | rfl | cases h

theorem getElem?_replace_self (hbefore : before.length = f.index) (v : Json) :
    (before ++ v :: behind)[f.index]? = some v := by
  rw [← hbefore, List.getElem?_append_right le_rfl, Nat.sub_self, List.getElem?_cons_zero]

theorem getElem?_replace_of_ne {g : Field} (hbefore : before.length = f.index) (hg : g ≠ f)
    (v w : Json) : (before ++ v :: behind)[g.index]? = (before ++ w :: behind)[g.index]? := by
  have hne : g.index ≠ before.length := by
    rw [hbefore]
    exact fun h => hg (Field.index_injective h)
  rw [List.getElem?_append, List.getElem?_append]
  split
  · rfl
  · obtain ⟨k, hk⟩ : ∃ k, g.index - before.length = k + 1 := ⟨g.index - before.length - 1, by omega⟩
    rw [hk, List.getElem?_cons_succ, List.getElem?_cons_succ]

theorem length_replace (before behind : List Json) (v w : Json) :
    (before ++ v :: behind).length = (before ++ w :: behind).length := by
  rw [List.length_append, List.length_append, List.length_cons, List.length_cons]

/-- A value of one field does not count for another. -/
theorem last?_replace_of_field_ne {g : Field} (hg : g ≠ f) (w : Json) :
    last? (front ++ (some f.key, w) :: back) g.key = last? (front ++ back) g.key := by
  have hne : some f.key ≠ some g.key := by
    intro h
    exact hg (Field.key_injective (Option.some.inj h)).symm
  exact last?_replace_of_ne hne w

theorem exists_ofJson?_replace_object (hv : f.Accepts v)
    (hb : ofJson? (.object (front ++ (some f.key, w) :: back)) = some b) :
    ∃ b', ofJson? (.object (front ++ (some f.key, v) :: back)) = some b' ∧ b' = f.copy b' b := by
  rw [ofJson?_object] at hb ⊢
  refine exists_ofFields?_eq_copy ?_ ?_ hb
  · intro g hg
    rw [last?_replace_of_field_ne hg, last?_replace_of_field_ne hg]
  · -- A later value of the same field counts instead, and it has been accepted.
    intro u hu
    rw [last?_replace_self] at hu
    cases hlast : last? back f.key with
    | none =>
        rw [hlast] at hu
        obtain rfl : v = u := Option.some.inj hu
        exact hv
    | some u' =>
        rw [hlast] at hu
        obtain rfl : u' = u := Option.some.inj hu
        refine isSome_ofFields?_iff.mp (Option.isSome_of_eq_some hb) f u' ?_
        rw [last?_replace_self, hlast]
        rfl

theorem exists_ofJson?_replace_array (hbefore : before.length = f.index) (hv : f.Accepts v)
    (hb : ofJson? (.array (before ++ w :: behind)) = some b) :
    ∃ b', ofJson? (.array (before ++ v :: behind)) = some b' ∧ b' = f.copy b' b := by
  rw [ofJson?_array] at hb
  rw [ofJson?_array, length_replace before behind v w]
  split at hb
  · next hle =>
      rw [if_pos hle]
      refine exists_ofFields?_eq_copy ?_ ?_ hb
      · intro g hg
        exact getElem?_replace_of_ne hbefore hg v w
      · intro u hu
        rw [getElem?_replace_self hbefore] at hu
        obtain rfl : v = u := Option.some.inj hu
        exact hv
  · cases hb

end Book

/-! ## Integers and their digits -/

namespace Book

open Json

/-- The two fields that hold ratings. -/
def Field.HoldsRating (f : Field) : Prop :=
  f = .averageRating ∨ f = .ratingCount

theorem Field.HoldsRating.reads_digits {f : Field} (hf : f.HoldsRating) (n : UInt64) (b : Book) :
    f.Reads b (some (.number (.word n))) ↔ f.Reads b (some (.text (toString n.toNat))) := by
  rcases hf with rfl | rfl
  · have hread : readAverage? (.text (toString n.toNat)) = some (Decimal.ofWord n) := by
      simp only [readAverage?, Decimal.read?_toString_toNat, Option.getD_some]
    simp only [Reads, readOr, hread]
    rfl
  · have hread : readCount? (.text (toString n.toNat)) = some n := by
      simp only [readCount?, Count.read?_toString_toNat, Option.getD_some]
    simp only [Reads, readOr, hread]
    rfl

theorem ofJson?_digits_object {f : Field} (hf : f.HoldsRating) (n : UInt64)
    (front back : List (Option String × Json)) :
    ofJson? (.object (front ++ (some f.key, .number (.word n)) :: back)) =
      ofJson? (.object (front ++ (some f.key, .text (toString n.toNat)) :: back)) := by
  rw [ofJson?_object, ofJson?_object]
  refine ofFields?_congr ?_
  intro g b
  by_cases hg : g = f
  · subst hg
    rw [last?_replace_self, last?_replace_self]
    cases last? back g.key with
    | none => exact hf.reads_digits n b
    | some v => rfl
  · rw [last?_replace_of_field_ne hg, last?_replace_of_field_ne hg]

theorem ofJson?_digits_array {f : Field} (hf : f.HoldsRating) (n : UInt64)
    {before : List Json} (hbefore : before.length = f.index) (behind : List Json) :
    ofJson? (.array (before ++ .number (.word n) :: behind)) =
      ofJson? (.array (before ++ .text (toString n.toNat) :: behind)) := by
  rw [ofJson?_array, ofJson?_array, length_replace before behind _ (.text (toString n.toNat))]
  split
  · refine ofFields?_congr ?_
    intro g b
    by_cases hg : g = f
    · subst hg
      rw [getElem?_replace_self hbefore, getElem?_replace_self hbefore]
      exact hf.reads_digits n b
    · rw [getElem?_replace_of_ne hbefore hg _ (.text (toString n.toNat))]
  · rfl

theorem ofJson?_of_ne (hobject : ∀ members, v ≠ .object members)
    (harray : ∀ items, v ≠ .array items) : ofJson? v = none := by
  cases v with
  | object members => exact (hobject members rfl).elim
  | array items => exact (harray items rfl).elim
  | _ => rfl

end Book

namespace Catalog

open Book

theorem ofJson_eq_ok_iff {text : String} {c : Catalog} :
    ofJson text = .ok c ↔ ∃ vs, Json.read? text = some (.array vs) ∧
      (Json.array vs).isSound maxDepth = true ∧ c.books = vs.filterMap Book.ofJson? := by
  constructor
  · intro h
    unfold ofJson at h
    split at h
    · next v hread =>
        split at h
        · next hsound =>
            split at h
            · next vs =>
                obtain rfl := Except.ok.inj h
                exact ⟨vs, hread, hsound, rfl⟩
            · cases h
        · cases h
    · cases h
  · rintro ⟨vs, hread, hsound, hbooks⟩
    obtain ⟨books⟩ := c
    obtain rfl : books = vs.filterMap Book.ofJson? := hbooks
    simp only [ofJson, hread, hsound, if_true]

/-- Which entries of an array are books, and what their books depend on. -/
theorem entries_decoded :
    (∀ (text : String) (c : Catalog), ofJson text = .ok c ↔ ∃ vs,
      Json.read? text = some (.array vs) ∧ (Json.array vs).isSound maxDepth = true ∧
        c.books = vs.filterMap Book.ofJson?) ∧
    (∀ members, (Book.ofJson? (.object members)).isSome = true ↔
      ∀ (f : Field) (v : Json), Json.last? members f.key = some v → f.Accepts v) ∧
    (∀ items, Book.ofJson? (.array items) =
      if items.length ≤ 6 then Book.ofJson? (.object (keyed items)) else none) ∧
    (∀ v, (∀ members, v ≠ .object members) → (∀ items, v ≠ .array items) →
      Book.ofJson? v = none) ∧
    (∀ members members', (∀ f, given members f = given members' f) →
      Book.ofJson? (.object members) = Book.ofJson? (.object members')) ∧
    (∀ members members', members.Perm members' → IsPlain (.object members) →
      Book.ofJson? (.object members) = Book.ofJson? (.object members')) ∧
    (∀ members, Book.ofJson? (.object (members.filter isField)) = Book.ofJson? (.object members)) ∧
    (∀ (f : Field) (v : Json), f.Accepts v →
      (∀ front w back b, Book.ofJson? (.object (front ++ (some f.key, w) :: back)) = some b →
        ∃ b', Book.ofJson? (.object (front ++ (some f.key, v) :: back)) = some b' ∧
          b' = f.copy b' b) ∧
      ∀ before w behind b, before.length = f.index →
        Book.ofJson? (.array (before ++ w :: behind)) = some b →
          ∃ b', Book.ofJson? (.array (before ++ v :: behind)) = some b' ∧ b' = f.copy b' b) ∧
    ∀ (f : Field) (n : UInt64), f.HoldsRating →
      Json.read? (toString n.toNat) = some (.number (.word n)) ∧
      (∀ front back, Book.ofJson? (.object (front ++ (some f.key, .number (.word n)) :: back)) =
        Book.ofJson? (.object (front ++ (some f.key, .text (toString n.toNat)) :: back))) ∧
      ∀ before behind, before.length = f.index →
        Book.ofJson? (.array (before ++ .number (.word n) :: behind)) =
          Book.ofJson? (.array (before ++ .text (toString n.toNat) :: behind)) := by
  refine ⟨fun _ _ => ofJson_eq_ok_iff, fun _ => isSome_ofJson?_object_iff, ofJson?_array_eq_keyed,
    fun _ => ofJson?_of_ne, fun _ _ => ofJson?_object_congr, ?_, ?_, ?_, ?_⟩
  · intro members members' hperm hplain
    exact ofJson?_object_congr (given_eq_of_perm hperm hplain)
  · intro members
    exact ofJson?_object_congr (given_filter_isField members)
  · intro f v hv
    constructor
    · intro front w back b hb
      exact exists_ofJson?_replace_object hv hb
    · intro before w behind b hbefore hb
      exact exists_ofJson?_replace_array hbefore hv hb
  · intro f n hf
    refine ⟨Json.read?_toString_toNat n, ofJson?_digits_object hf n, ?_⟩
    intro before behind hbefore
    exact ofJson?_digits_array hf n hbefore behind

def emma : Book :=
  { title := "Emma", author := "Jane Austen", link := "/books/emma",
    averageRating := ⟨false, 40500, 4, by decide, by decide⟩, ratingCount := 5,
    genres := ["Classics", "Romance"] }

def emmaMembers : List (Option String × Json) :=
  [(some "Num Ratings", .number (.word 5)),
    (some "Genres", .array [.text "Classics", .text "Romance"]), (some "Title", .text "Emma"),
    (some "Link", .text "/books/emma"), (some "Avg Rating", .text "4.0500"),
    (some "Author", .text "Jane Austen")]

theorem entries_decoded_emma :
    Book.ofJson? .null = none ∧
      IsPlain (.object emmaMembers) ∧
      Book.ofJson? (.object emmaMembers) = some emma ∧
      Book.ofJson? (.object emmaMembers.reverse) = some emma ∧
      Field.ratingCount.Accepts (.text "N/A") ∧
      (∃ b', Book.ofJson? (.object ((some "Num Ratings", .text "N/A") :: emmaMembers.tail)) =
          some b' ∧ b' = { emma with ratingCount := b'.ratingCount }) ∧
      Field.averageRating.HoldsRating ∧
      Book.ofJson? (.array [.text "Emma", .text "", .text "", .number (.word 5)]) =
        Book.ofJson? (.array [.text "Emma", .text "", .text "", .text "5"]) := by
  have hplain : IsPlain (.object emmaMembers) := by
    intro f
    cases f <;> decide
  have hcount : Field.ratingCount.Accepts (.text "N/A") := Or.inr (Or.inr ⟨"N/A", rfl⟩)
  have hemma : Book.ofJson? (.object emmaMembers) = some emma := rfl
  have haverage : Field.averageRating.HoldsRating := Or.inl rfl
  obtain ⟨-, -, -, hother, -, horder, -, hreplace, hdigits⟩ := entries_decoded
  have hreverse := horder _ _ (List.reverse_perm emmaMembers).symm hplain
  exact ⟨hother .null nofun nofun, hplain, hemma, hreverse.symm.trans hemma, hcount,
    (hreplace _ _ hcount).1 [] _ _ _ hemma, haverage,
    (hdigits _ 5 haverage).2.2 [.text "Emma", .text "", .text ""] [] rfl⟩

end Catalog

end Bookshelf
