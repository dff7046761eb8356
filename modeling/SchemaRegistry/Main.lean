import SchemaRegistry.CommandLine.Run

/-!
The inspector as a program: it reads the files and variables that settings may come from, runs the
command and prints what it leaves behind.
-/

namespace SchemaRegistry

open CommandLine (Command Outcome)
open Settings (Surroundings)

def readFile? (path : String) : IO (Option String) := do
  try return some (← IO.FS.readFile path) catch _ => return none

/-- What is at a path. Everything that is there and has no text counts as a directory. -/
def entry? (path : String) : IO (Option Directory.Entry) := do
  try return some (.file (← IO.FS.readFile path))
  catch
    | .noFileOrDirectory .. => return none
    | _ => return some .directory

def environment : IO (List (String × String)) := do
  let some text ← readFile? "/proc/self/environ" | return []
  return (Text.split (Char.ofNat 0) text.toList).filterMap fun entry =>
    (Text.splitFirst? '=' entry).map fun (name, value) => (String.ofList name, String.ofList value)

def userFile? : IO (Option String) := do
  let below (directory : String) : String := directory ++ "/registry-serde/serde.toml"
  match ← IO.getEnv "XDG_CONFIG_HOME" with
  | some directory => if directory.toList.head? = some '/' then return some (below directory)
  | none => pure ()
  return (← IO.getEnv "HOME").map fun home => below (home ++ "/.config")

/-- The file that a command asks for. -/
def askedFile? (args : List String) : Option String :=
  match Command.parse args with
  | .ok (.policy config _) => config
  | _ => none

/-- Everything around the process that settings may come from. -/
def surroundings (args : List String) : IO Surroundings := do
  let userFile? ← userFile?
  let mut entries : Table String Directory.Entry := .empty
  for path in Settings.searchedPaths userFile? (askedFile? args) do
    if let some entry ← entry? path then entries := entries.insert path entry
  return { entry? := entries.get?, userFile?, «variables» := ← environment }

end SchemaRegistry

def main (args : List String) : IO UInt32 := do
  let outcome := SchemaRegistry.CommandLine.run (← SchemaRegistry.surroundings args) args
  IO.print outcome.stdout
  IO.eprint outcome.stderr
  return outcome.exit.toUInt32
