import Bookshelf.CommandLine.Program

namespace Bookshelf

/-!
# The program

The program reads one file at most. All else about a run is decided by its
arguments and the bytes of that file.
-/

namespace CommandLine

/-- Reads a file. If that fails, the words of the system take its place. -/
def readFile (path : String) : IO (Except String ByteArray) := do
  try
    return .ok (← IO.FS.readBinFile path)
  catch e =>
    return .error (toString e)

/-- A reminder of the arguments, in place of what an argument parser would print. -/
def synopsis : String :=
  unlines
    ["usage: book-filter [--data FILE] filter [-e EXPRESSION | --tokens TOKEN...]",
      "                   [--min-ratings N] [--page N] [--page-size N] [--json]",
      "       book-filter [--data FILE] genres"]

/-- Why a dataset failed to load, given what came of reading its file. -/
def causeOf (file : Except String ByteArray) : Catalog.LoadError → String
  | .unreadableFile =>
    match file with
    | .ok _ => "stream did not contain valid UTF-8"
    | .error e => e
  | _ => "text that is no JSON"

/-- Runs the program on the files of the working directory. -/
def perform (args : List String) : IO Outcome := do
  let file ←
    match Invocation.parse args with
    | .ok i => readFile i.data
    | .error _ => pure (.error "")
  return run args
    { read? := fun _ => file.toOption
      cause := fun _ => causeOf file
      report := fun message => unlines ["Error: " ++ message]
      notice := fun _ => synopsis }

end CommandLine

end Bookshelf

def main (args : List String) : IO UInt32 := do
  let outcome ← Bookshelf.CommandLine.perform args
  IO.print outcome.stdout
  IO.eprint outcome.stderr
  return outcome.code.toUInt32
