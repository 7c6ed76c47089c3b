import Bookshelf.CommandLine.Arguments
import Bookshelf.Proofs.Digits
import Bookshelf.Proofs.Outcome

namespace Bookshelf

/-!
# What can be typed

The arguments are read one at a time, and whatever they set stays within the
bounds of the options: a dataset has a name, a token list has a token, and a
number is a 64-bit word. These bounds are all there is: an invocation within
them is read back from arguments that spell it out.
-/

namespace CommandLine

/-! ## The bounds of the options -/

namespace Settings

variable {g g' : Settings}

/-- What options can set. -/
structure IsTyped (g : Settings) : Prop where
  data : g.data ≠ some ""
  tokens : g.tokens ≠ some []
  page : ∀ n, g.page = some n → n < Nat.pow 2 64
  pageSize : ∀ n, g.pageSize = some n → n < Nat.pow 2 64

theorem isTyped_empty : IsTyped {} :=
  ⟨nofun, nofun, nofun, nofun⟩

theorem once_eq_ok_iff {α : Type} {old : Option α} {new : α} {x : Option α} :
    once old new = .ok x ↔ old = none ∧ some new = x := by
  cases old <;> simp [once]

theorem lt_of_number {text : String} {n : Nat} (h : number text = .ok n) : n < Nat.pow 2 64 := by
  unfold number at h
  split at h
  · next hread =>
      obtain rfl := Except.ok.inj h
      exact Text.lt_of_natural? hread
  · cases h

theorem isTyped_give (hg : g.IsTyped) {o : Setting} {value : String}
    (h : g.give o value = .ok g') : g'.IsTyped := by
  cases o with
  | data =>
      rw [give] at h
      split at h
      · cases h
      · next hne =>
          obtain ⟨x, hx, rfl⟩ := map_eq_ok_iff.mp h
          obtain ⟨-, rfl⟩ := once_eq_ok_iff.mp hx
          exact { hg with data := fun heq => hne (Option.some.inj heq) }
  | expression =>
      obtain ⟨x, -, rfl⟩ := map_eq_ok_iff.mp h
      exact ⟨hg.data, hg.tokens, hg.page, hg.pageSize⟩
  | tokens =>
      obtain rfl := Except.ok.inj h
      exact ⟨hg.data, by simp, hg.page, hg.pageSize⟩
  | minimumRatings =>
      obtain ⟨x, -, rfl⟩ := map_eq_ok_iff.mp h
      exact ⟨hg.data, hg.tokens, hg.page, hg.pageSize⟩
  | page =>
      obtain ⟨n, hn, h⟩ := bind_eq_ok_iff.mp h
      obtain ⟨x, hx, h⟩ := bind_eq_ok_iff.mp h
      obtain rfl := Except.ok.inj h
      obtain ⟨-, rfl⟩ := once_eq_ok_iff.mp hx
      exact { hg with page := fun m hm => Option.some.inj hm ▸ lt_of_number hn }
  | pageSize =>
      obtain ⟨n, hn, h⟩ := bind_eq_ok_iff.mp h
      obtain ⟨x, hx, h⟩ := bind_eq_ok_iff.mp h
      obtain rfl := Except.ok.inj h
      obtain ⟨-, rfl⟩ := once_eq_ok_iff.mp hx
      exact { hg with pageSize := fun m hm => Option.some.inj hm ▸ lt_of_number hn }
  | json => cases h
  | help => cases h
  | version => cases h

theorem isTyped_flag (hg : g.IsTyped) {o : Setting} (h : g.flag o = .ok g') : g'.IsTyped := by
  cases o with
  | json =>
      rw [flag] at h
      split at h
      · cases h
      · obtain rfl := Except.ok.inj h
        exact ⟨hg.data, hg.tokens, hg.page, hg.pageSize⟩
  | _ => cases h

end Settings

namespace State

variable {s t : State}

structure IsTyped (s : State) : Prop where
  outerData : s.outerData ≠ some ""
  settings : s.settings.IsTyped

theorem isTyped_start : start.IsTyped :=
  ⟨nofun, Settings.isTyped_empty⟩

theorem isTyped_enter (hs : s.IsTyped) (level : Level) : (s.enter level).IsTyped :=
  ⟨hs.settings.data, Settings.isTyped_empty⟩

theorem isTyped_settle (hs : s.IsTyped) (h : s.settle = .ok t) : t.IsTyped := by
  unfold settle at h
  split at h
  · cases h
  · obtain rfl := Except.ok.inj h
    exact ⟨hs.outerData, hs.settings⟩

theorem isTyped_takeOption (hs : s.IsTyped) {o : Setting} {attached : Option String}
    (h : s.takeOption o attached = .ok t) : t.IsTyped := by
  obtain ⟨u, hu, h⟩ := bind_eq_ok_iff.mp h
  have hu := isTyped_settle hs hu
  cases attached with
  | some value =>
      obtain ⟨g, hg, h⟩ := bind_eq_ok_iff.mp h
      obtain rfl := Except.ok.inj h
      exact ⟨hu.outerData, Settings.isTyped_give hu.settings hg⟩
  | none =>
      dsimp only at h
      split at h
      · obtain rfl := Except.ok.inj h
        exact ⟨hu.outerData, hu.settings⟩
      · obtain ⟨g, hg, h⟩ := bind_eq_ok_iff.mp h
        obtain rfl := Except.ok.inj h
        exact ⟨hu.outerData, Settings.isTyped_flag hu.settings hg⟩

theorem isTyped_takeValue (hs : s.IsTyped) {value : String} (h : s.takeValue value = .ok t) :
    t.IsTyped := by
  unfold takeValue at h
  split at h
  · obtain ⟨g, hg, rfl⟩ := map_eq_ok_iff.mp h
    exact ⟨hs.outerData, Settings.isTyped_give hs.settings hg⟩
  · obtain ⟨g, hg, rfl⟩ := map_eq_ok_iff.mp h
    exact ⟨hs.outerData, Settings.isTyped_give hs.settings hg⟩
  · cases h

theorem isTyped_takeArgument (hs : s.IsTyped) {arg : String} (h : s.takeArgument arg = .ok t) :
    t.IsTyped := by
  unfold takeArgument at h
  split at h
  · obtain rfl := Except.ok.inj h
    exact ⟨hs.outerData, hs.settings⟩
  · dsimp only at h
    split at h
    · exact isTyped_takeOption hs h
    · cases h
  · split at h
    · exact isTyped_takeOption hs h
    · cases h
  · exact isTyped_takeValue hs h

theorem isTyped_read (hs : s.IsTyped) {args : List String} (h : s.read args = .ok t) :
    t.IsTyped := by
  -- By the arguments. A command starts with settings of its own and keeps only the
  -- dataset from before, which is why the invariant has that apart.
  induction args generalizing s with
  | nil => exact isTyped_settle hs h
  | cons arg args ih =>
      rw [read] at h
      split at h
      · cases h
      · split at h
        · exact ih (isTyped_enter hs _) h
        · split at h
          · cases h
          · split at h
            · next u hu => exact ih (isTyped_takeArgument hs hu) h
            · cases h

end State

/-- A request that an option makes. -/
def IsQuery : Request → Prop
  | .expression _ => True
  | .tokens entries => entries ≠ []
  | .minimumRatings _ | .page _ | .clear => False

def Command.IsTyped : Command → Prop
  | .filter query _ page pageSize _ =>
    IsQuery query ∧ page < Nat.pow 2 64 ∧ pageSize < Nat.pow 2 64
  | .genres => True

structure Invocation.IsTyped (i : Invocation) : Prop where
  data : i.data ≠ ""
  command : i.command.IsTyped

namespace Invocation

variable {i : Invocation}

theorem data_ne_empty {s : State} (hs : s.IsTyped) :
    (s.settings.data.or s.outerData).getD defaultData ≠ "" := by
  cases hdata : s.settings.data with
  | some name =>
      intro h
      exact hs.settings.data (hdata.trans (congrArg some h))
  | none =>
      cases houter : s.outerData with
      | some name =>
          intro h
          exact hs.outerData (houter.trans (congrArg some h))
      | none => decide

theorem getD_lt {number : Option Nat} {default : Nat} (hdefault : default < Nat.pow 2 64)
    (h : ∀ n, number = some n → n < Nat.pow 2 64) : number.getD default < Nat.pow 2 64 := by
  cases number with
  | none => exact hdefault
  | some n => exact h n rfl

theorem isTyped_ofState {s : State} (hs : s.IsTyped) (h : ofState s = .ok i) : i.IsTyped := by
  have hdata := data_ne_empty hs
  have hpage : s.settings.page.getD 1 < Nat.pow 2 64 := getD_lt (by decide) hs.settings.page
  have hpageSize : s.settings.pageSize.getD Pagination.defaultPageSize < Nat.pow 2 64 :=
    getD_lt (by decide) hs.settings.pageSize
  unfold ofState at h
  dsimp only at h
  split at h
  · cases h
  · obtain rfl := Except.ok.inj h
    exact ⟨hdata, trivial⟩
  · split at h
    · cases h
    · next htokens _ =>
        obtain rfl := Except.ok.inj h
        have hquery := fun hnil => hs.settings.tokens (htokens.trans (congrArg some hnil))
        exact ⟨hdata, hquery, hpage, hpageSize⟩
    · obtain rfl := Except.ok.inj h
      exact ⟨hdata, trivial, hpage, hpageSize⟩

theorem isTyped_of_parse {args : List String} (h : parse args = .ok i) : i.IsTyped := by
  obtain ⟨s, hread, hstate⟩ := bind_eq_ok_iff.mp h
  exact isTyped_ofState (State.isTyped_read State.isTyped_start hread) hstate

end Invocation

/-! ## Spelling an invocation out -/

/-- An option with its value behind an equals sign. -/
def option (name value : String) : String :=
  String.ofList ('-' :: '-' :: (name.toList ++ '=' :: value.toList))

def queryArguments : Request → List String
  | .expression text => [option "expression" text]
  | .tokens entries => entries.map (option "tokens")
  | .minimumRatings _ | .page _ | .clear => []

def Command.arguments : Command → List String
  | .genres => ["genres"]
  | .filter query minimumRatings page pageSize json =>
    "filter" :: (queryArguments query ++
      [option "min-ratings" minimumRatings, option "page" (toString page),
        option "page-size" (toString pageSize)] ++ if json then ["--json"] else [])

/-- Arguments for an invocation, with every option that it has. -/
def Invocation.arguments (i : Invocation) : List String :=
  option "data" i.data :: i.command.arguments

namespace State

variable {level : Level} {outer : Option String} {g g' : Settings} {args : List String}

theorem splitEquals_append {name value : List Char} (hname : '=' ∉ name) :
    splitEquals (name ++ '=' :: value) = (String.ofList name, some (String.ofList value)) := by
  have hall : ∀ c ∈ name, (c != '=') = true := by
    intro c hc
    exact bne_iff_ne.mpr (ne_of_mem_of_not_mem hc hname)
  rw [splitEquals, List.dropWhile_append_of_pos hall, List.takeWhile_append_of_pos hall,
    List.dropWhile_cons_of_neg (by simp), List.takeWhile_cons_of_neg (by simp), List.append_nil]

theorem takeArgument_option {name value : String} {o : Setting} (hname : '=' ∉ name.toList)
    (hlong : Setting.ofLong? level name = some o) (hgive : g.give o value = .ok g') :
    takeArgument ⟨level, outer, g, none, false, false⟩ (option name value) =
      .ok ⟨level, outer, g', none, false, false⟩ := by
  have hsplit : splitEquals (name.toList ++ '=' :: value.toList) = (name, some value) := by
    rw [splitEquals_append hname, String.ofList_toList, String.ofList_toList]
  unfold takeArgument
  rw [option, String.toList_ofList]
  -- Something stands behind the two hyphens, so they do not end the options.
  cases hchars : name.toList ++ '=' :: value.toList with
  | nil => simp at hchars
  | cons c cs =>
      rw [hchars] at hsplit
      simp only [hsplit, hlong]
      rw [takeOption, settle]
      simp [hgive, bind, Except.bind, pure, Except.pure]

theorem option_ne {name value word : String} (hword : word.toList.head? ≠ some '-') :
    option name value ≠ word := by
  rintro rfl
  rw [option, String.toList_ofList] at hword
  exact hword rfl

theorem command?_option (name value : String) : command? (option name value) = none := by
  have hfilter : option name value ≠ "filter" := option_ne (by decide)
  have hgenres : option name value ≠ "genres" := option_ne (by decide)
  unfold command?
  split
  · next h => exact (hfilter h).elim
  · next h => exact (hgenres h).elim
  · rfl

theorem read_option {name value : String} {o : Setting} (hname : '=' ∉ name.toList)
    (hlong : Setting.ofLong? level name = some o) (hgive : g.give o value = .ok g') :
    read ⟨level, outer, g, none, false, false⟩ (option name value :: args) =
      read ⟨level, outer, g', none, false, false⟩ args := by
  have hhelp : option name value ≠ "help" := option_ne (by decide)
  rw [read, takeArgument_option hname hlong hgive]
  simp [hhelp, command?_option]

theorem read_tokens {entries ts : List String} (htokens : g.tokens = some ts) :
    read ⟨.filter, outer, g, none, false, false⟩ (entries.map (option "tokens") ++ args) =
      read ⟨.filter, outer, { g with tokens := some (ts ++ entries) }, none, false, false⟩
        args := by
  induction entries generalizing g ts with
  | nil => rw [List.map_nil, List.nil_append, List.append_nil, ← htokens]
  | cons e entries ih =>
      have hgive : g.give .tokens e = .ok { g with tokens := some (ts ++ [e]) } := by
        rw [Settings.give, htokens]
        rfl
      rw [List.map_cons, List.cons_append, read_option (by decide) rfl hgive, ih rfl,
        List.append_assoc, List.singleton_append]

theorem read_command {word : String} (hword : word ≠ "help")
    (hcommand : command? word = some level) :
    read ⟨.program, none, g, none, false, false⟩ (word :: args) =
      read ⟨level, g.data, {}, none, false, false⟩ args := by
  rw [read]
  simp [hword, hcommand, awaitsCommand, enter, start]

end State

theorem Settings.number_toString {n : Nat} (h : n < Nat.pow 2 64) :
    number (toString n) = .ok n := by
  have hchars : (toString n).toList = Nat.toDigits 10 n := Nat.toList_repr
  rw [number, hchars, Text.natural?_toDigits h]

namespace Invocation

open State

/-- The options behind the query, read in their order. -/
theorem read_rest {outer : Option String} {g : Settings} {minimumRatings : String}
    {page pageSize : Nat} {json : Bool} (hpage : page < Nat.pow 2 64)
    (hpageSize : pageSize < Nat.pow 2 64)
    (hnone : g.minimumRatings = none ∧ g.page = none ∧ g.pageSize = none ∧ g.json = false) :
    read ⟨.filter, outer, g, none, false, false⟩
        ([option "min-ratings" minimumRatings, option "page" (toString page),
          option "page-size" (toString pageSize)] ++ if json then ["--json"] else []) =
      .ok ⟨.filter, outer,
        ⟨g.data, g.expression, g.tokens, some minimumRatings, some page, some pageSize, json⟩,
        none, false, false⟩ := by
  obtain ⟨data, expression, tokens, _, _, _, _⟩ := g
  obtain ⟨rfl, rfl, rfl, rfl⟩ := hnone
  have hminimum : Settings.give ⟨data, expression, tokens, none, none, none, false⟩
      .minimumRatings minimumRatings =
      .ok ⟨data, expression, tokens, some minimumRatings, none, none, false⟩ := rfl
  have hpage : Settings.give ⟨data, expression, tokens, some minimumRatings, none, none, false⟩
      .page (toString page) =
      .ok ⟨data, expression, tokens, some minimumRatings, some page, none, false⟩ := by
    rw [Settings.give, Settings.number_toString hpage]
    rfl
  have hpageSize : Settings.give
      ⟨data, expression, tokens, some minimumRatings, some page, none, false⟩
      .pageSize (toString pageSize) =
      .ok ⟨data, expression, tokens, some minimumRatings, some page, some pageSize, false⟩ := by
    rw [Settings.give, Settings.number_toString hpageSize]
    rfl
  rw [List.cons_append, List.cons_append, List.cons_append, read_option (by decide) rfl hminimum,
    read_option (by decide) rfl hpage, read_option (by decide) rfl hpageSize]
  cases json <;> rfl

theorem parse_arguments {i : Invocation} (h : i.IsTyped) : parse i.arguments = .ok i := by
  obtain ⟨data, command⟩ := i
  obtain ⟨hdata, hcommand⟩ := h
  have hgive : ({} : Settings).give .data data = .ok { data := some data } := by
    rw [Settings.give, if_neg hdata]
    rfl
  have hstart (args : List String) : start.read (option "data" data :: args) =
      read ⟨.program, none, { data := some data }, none, false, false⟩ args :=
    read_option (by decide) rfl hgive
  rw [parse, arguments, hstart]
  cases command with
  | genres => rfl
  | filter query minimumRatings page pageSize json =>
      obtain ⟨hquery, hpage, hpageSize⟩ := hcommand
      rw [Command.arguments, read_command (by decide) rfl, List.append_assoc]
      cases query with
      | expression text =>
          have hexpression : ({} : Settings).give .expression text =
              .ok { expression := some text } := rfl
          rw [queryArguments, List.singleton_append, read_option (by decide) rfl hexpression,
            read_rest hpage hpageSize ⟨rfl, rfl, rfl, rfl⟩]
          rfl
      | tokens entries =>
          obtain ⟨e, entries, rfl⟩ := List.exists_cons_of_ne_nil hquery
          have htokens : ({} : Settings).give .tokens e = .ok { tokens := some [e] } := rfl
          rw [queryArguments, List.map_cons, List.cons_append,
            read_option (by decide) rfl htokens, read_tokens rfl,
            read_rest hpage hpageSize ⟨rfl, rfl, rfl, rfl⟩]
          rfl
      | minimumRatings text => exact hquery.elim
      | page number => exact hquery.elim
      | clear => exact hquery.elim

/-- The invocations that can be typed are those within the bounds of the options. -/
theorem exists_parse_eq_ok_iff {i : Invocation} : (∃ args, parse args = .ok i) ↔ i.IsTyped := by
  constructor
  · rintro ⟨args, h⟩
    exact isTyped_of_parse h
  · intro h
    exact ⟨i.arguments, parse_arguments h⟩

/-- What can be typed for one page can be typed for any other. -/
theorem exists_parse_page {args : List String} {data minimumRatings : String} {query : Request}
    {page pageSize : Nat} {json : Bool}
    (h : parse args = .ok ⟨data, .filter query minimumRatings page pageSize json⟩) {number : Nat}
    (hnumber : number < Nat.pow 2 64) :
    ∃ args', parse args' = .ok ⟨data, .filter query minimumRatings number pageSize json⟩ := by
  obtain ⟨hdata, hquery, -, hpageSize⟩ := isTyped_of_parse h
  exact exists_parse_eq_ok_iff.mpr ⟨hdata, hquery, hnumber, hpageSize⟩

end Invocation

end CommandLine

end Bookshelf
