import Bookshelf.CommandLine.Arguments
import Bookshelf.CommandLine.Output
import Bookshelf.Directory

namespace Bookshelf

/-!
# Running a command

An outcome is all that a run of the program leaves behind. It depends on the
arguments, on the bytes of the one file they name, and on some words about what
went wrong that are not the program's own.
-/

namespace CommandLine

/-- What a run finds outside the program. -/
structure Host where
  /-- The bytes behind a path, if there is a file that can be read. -/
  read? : String → Option ByteArray
  /-- Why the dataset at a path failed to load: the words of the file system or of
  the JSON reader. -/
  cause : String → Catalog.LoadError → String
  /-- The form in which a message that ends the program is printed. -/
  report : String → String
  /-- What the reader of arguments prints when they ask for help or are in error. -/
  notice : List String → String

/-- A host with the files of one directory and no words. -/
def Host.ofDirectory (d : Directory) : Host where
  read? := d.read?
  cause _ _ := ""
  report := id
  notice _ := ""

@[simp] theorem Host.read?_ofDirectory (d : Directory) (path : String) :
    (Host.ofDirectory d).read? path = d.read? path := rfl

instance : Coe Directory Host := ⟨Host.ofDirectory⟩

structure Outcome where
  code : UInt8
  stdout : String
  stderr : String
deriving DecidableEq, Repr

def versionText : String := "book-filter 0.1.0"

def Stop.outcome (notice : String) : Stop → Outcome
  | .usage => ⟨2, "", notice⟩
  | .help => ⟨0, notice, ""⟩
  | .version => ⟨0, unlines [versionText], ""⟩

/-- The page that the arguments of a filter ask for. -/
def browse (c : Catalog) (query : Request) (minimumRatings : String) (page pageSize : Nat) :
    View :=
  ((((Session.start c pageSize).submit query).submit (.minimumRatings minimumRatings)).submit
    (.page page)).view

def Command.run (c : Catalog) : Command → Outcome
  | .genres => ⟨0, genreList c, ""⟩
  | .filter query minimumRatings page pageSize json =>
    let view := browse c query minimumRatings page pageSize
    let complaint := (view.report.error.map fun e => ["Parse error: " ++ e.message]).getD []
    ⟨0, if json then pageJson view else table view, unlines complaint⟩

/-- Runs a command on the dataset that it names. -/
def Invocation.run (i : Invocation) (host : Host) : Outcome :=
  match Catalog.ofFile i.data (host.read? i.data) with
  | .ok c => i.command.run c
  | .error e => ⟨1, "", host.report (e.describe i.data (host.cause i.data e))⟩

def run (args : List String) (host : Host) : Outcome :=
  match Invocation.parse args with
  | .ok i => i.run host
  | .error stop => stop.outcome (host.notice args)

end CommandLine

end Bookshelf
