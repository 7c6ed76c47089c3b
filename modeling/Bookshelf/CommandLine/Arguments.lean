import Bookshelf.Session
import Bookshelf.Text.Digits

namespace Bookshelf

/-!
# Command line arguments

The program has two commands, each with options of its own. An option gets its
value from behind an equals sign or from the next argument, which then must not
look like an option. The dataset may be named before or after the command, and
the later one counts.
-/

namespace CommandLine

/-- Why the program ends without a dataset. -/
inductive Stop where
  | usage
  | help
  | version
deriving DecidableEq, Repr

/-- The part of the command line that options belong to. -/
inductive Level where
  | program
  | filter
  | genres
deriving DecidableEq, Repr

inductive Setting where
  | data
  | expression
  | tokens
  | minimumRatings
  | page
  | pageSize
  | json
  | help
  | version
deriving DecidableEq, Repr

namespace Setting

def ofLong? (level : Level) (name : String) : Option Setting :=
  match level, name with
  | _, "data" => some .data
  | _, "help" => some .help
  | .program, "version" => some .version
  | .filter, "expression" => some .expression
  | .filter, "tokens" => some .tokens
  | .filter, "min-ratings" => some .minimumRatings
  | .filter, "page" => some .page
  | .filter, "page-size" => some .pageSize
  | .filter, "json" => some .json
  | _, _ => none

def ofShort? (level : Level) (c : Char) : Option Setting :=
  match level, c with
  | _, 'h' => some .help
  | .program, 'V' => some .version
  | .filter, 'e' => some .expression
  | _, _ => none

def takesValue : Setting → Bool
  | .json | .help | .version => false
  | _ => true

end Setting

/-- What the options of one level have set. -/
structure Settings where
  data : Option String := none
  expression : Option String := none
  tokens : Option (List String) := none
  minimumRatings : Option String := none
  page : Option Nat := none
  pageSize : Option Nat := none
  json : Bool := false
deriving DecidableEq, Repr

namespace Settings

/-- Fills a setting that may be given once. -/
def once {α : Type} (old : Option α) (new : α) : Except Stop (Option α) :=
  match old with
  | none => .ok (some new)
  | some _ => .error .usage

/-- Reads a page number or size, a 64-bit word. -/
def number (text : String) : Except Stop Nat :=
  match Text.natural? (Nat.pow 2 64) text.toList with
  | some n => .ok n
  | none => .error .usage

/-- Gives an option one value. Only token lists take more than one. -/
def give (g : Settings) (o : Setting) (value : String) : Except Stop Settings :=
  match o with
  | .data =>
    if value = "" then .error .usage
    else (once g.data value).map fun data => { g with data }
  | .expression => (once g.expression value).map fun expression => { g with expression }
  | .tokens => .ok { g with tokens := some (g.tokens.getD [] ++ [value]) }
  | .minimumRatings =>
    (once g.minimumRatings value).map fun minimumRatings => { g with minimumRatings }
  | .page => do
    let page ← once g.page (← number value)
    return { g with page }
  | .pageSize => do
    let pageSize ← once g.pageSize (← number value)
    return { g with pageSize }
  | .json | .help | .version => .error .usage

/-- Sets an option that takes no value. -/
def flag (g : Settings) (o : Setting) : Except Stop Settings :=
  match o with
  | .json => if g.json then .error .usage else .ok { g with json := true }
  | .help => .error .help
  | .version => .error .version
  | _ => .error .usage

end Settings

structure State where
  level : Level
  /-- The dataset named before the command. -/
  outerData : Option String
  settings : Settings
  /-- The option that takes the next argument. -/
  waiting : Option Setting
  /-- Whether the waiting option has got a value already. -/
  supplied : Bool
  /-- Set behind a double hyphen, where no argument is an option. -/
  ended : Bool

namespace State

def start : State := ⟨.program, none, {}, none, false, false⟩

/-- Lets go of the waiting option, which needs a value by then. -/
def settle (s : State) : Except Stop State :=
  if s.waiting.isSome ∧ ¬s.supplied then .error .usage
  else .ok { s with waiting := none, supplied := false }

def enter (s : State) (level : Level) : State :=
  { start with level, outerData := s.settings.data }

/-- Takes an option with the value that is attached to it, if any. -/
def takeOption (s : State) (o : Setting) (attached : Option String) : Except Stop State := do
  let s ← s.settle
  match attached with
  | some value => return { s with settings := ← s.settings.give o value }
  | none =>
    if o.takesValue then return { s with waiting := some o }
    else return { s with settings := ← s.settings.flag o }

/-- Takes an argument that is no option as a value. -/
def takeValue (s : State) (value : String) : Except Stop State :=
  match s.waiting with
  | some .tokens =>
    (s.settings.give .tokens value).map fun settings => { s with settings, supplied := true }
  | some o => (s.settings.give o value).map fun settings => { s with settings, waiting := none }
  | none => .error .usage

/-- Splits an option name from its value at the first equals sign. -/
def splitEquals (cs : List Char) : String × Option String :=
  match cs.dropWhile (· != '=') with
  | [] => (String.ofList cs, none)
  | _ :: value => (String.ofList (cs.takeWhile (· != '=')), some (String.ofList value))

def attachedValue : List Char → Option String
  | [] => none
  | '=' :: cs => some (String.ofList cs)
  | cs => some (String.ofList cs)

def command? : String → Option Level
  | "filter" => some .filter
  | "genres" => some .genres
  | _ => none

/-- Takes one argument that is no command. -/
def takeArgument (s : State) (arg : String) : Except Stop State :=
  match arg.toList with
  | ['-', '-'] => .ok { s with ended := true }
  | '-' :: '-' :: cs =>
    let (name, attached) := splitEquals cs
    match Setting.ofLong? s.level name with
    | some o => s.takeOption o attached
    | none => .error .usage
  | '-' :: c :: cs =>
    match Setting.ofShort? s.level c with
    | some o => s.takeOption o (if o.takesValue then attachedValue cs else none)
    | none => .error .usage
  | _ => s.takeValue arg

/-- Whether an argument may name a command. -/
def awaitsCommand (s : State) : Bool :=
  s.level == .program && s.waiting.isNone && !s.ended

def help : List String → Stop
  | [] => .help
  | [name] => if name = "help" || (command? name).isSome then .help else .usage
  | _ => .usage

/-- Reads all arguments. -/
def read (s : State) : List String → Except Stop State
  | [] => s.settle
  | arg :: args =>
    if s.awaitsCommand && arg = "help" then .error (help args)
    else
      match if s.awaitsCommand then command? arg else none with
      | some level => (s.enter level).read args
      | none =>
        if s.ended then .error .usage
        else
          match s.takeArgument arg with
          | .ok s => s.read args
          | .error stop => .error stop

end State

inductive Command where
  | filter (query : Request) (minimumRatings : String) (page pageSize : Nat) (json : Bool)
  | genres
deriving DecidableEq, Repr

structure Invocation where
  data : String
  command : Command
deriving DecidableEq, Repr

namespace Invocation

def defaultData : String := "goodreads-books-data.json"

/-- The command that the settings ask for. An expression and a token list
exclude each other. -/
def ofState (s : State) : Except Stop Invocation := do
  let g := s.settings
  let data := (g.data.or s.outerData).getD defaultData
  match s.level with
  | .program => .error .usage
  | .genres => return ⟨data, .genres⟩
  | .filter =>
    let query ←
      match g.expression, g.tokens with
      | some _, some _ => .error .usage
      | _, some tokens => .ok (Request.tokens tokens)
      | expression, none => .ok (Request.expression (expression.getD ""))
    return ⟨data,
      .filter query (g.minimumRatings.getD "0") (g.page.getD 1)
        (g.pageSize.getD Pagination.defaultPageSize) g.json⟩

def parse (args : List String) : Except Stop Invocation := do
  ofState (← State.start.read args)

end Invocation

end CommandLine

end Bookshelf
