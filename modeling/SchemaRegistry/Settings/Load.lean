import SchemaRegistry.Directory
import SchemaRegistry.Settings.Layer
import SchemaRegistry.Toml.Document

/-!
Where settings come from: files in the working directory, the user's file, a file that is asked for,
and environment variables, each layer above the ones before it.
-/

namespace SchemaRegistry.Settings

/-- What a program finds around it. -/
structure Surroundings where
  /-- What is at a path, seen from the working directory. -/
  entry? : String → Option Directory.Entry
  /-- The path of the user's own file. -/
  userFile? : Option String := none
  «variables» : List (String × String) := []

/-- The text of a file; none for a path that is no file. -/
def Surroundings.read? (s : Surroundings) (path : String) : Option String :=
  match s.entry? path with
  | some (.file text) => some text
  | _ => none

inductive FileFormat where
  | toml
  | json
  deriving DecidableEq, Repr

namespace FileFormat

def all : List FileFormat := [.toml, .json]

def fileExtension : FileFormat → String
  | .toml => "toml"
  | .json => "json"

def parse? : FileFormat → String → Option Layer
  | .toml, text => do return (← Toml.parse? text).map fun (k, v) => (k, Value.ofToml v)
  | .json, text =>
    match Json.parse? text with
    | some (.object ms) => some (ms.map fun (k, v) => (k, Value.ofJson v))
    | _ => none

end FileFormat

/-- The path with an extension added to its last name. Behind a name there may be slashes and dots
that stand for the same place; a path that ends in none has no extension. -/
def withExtension? (path fileExtension : String) : Option String :=
  let parts := ((Text.split '/' path.toList).reverse.dropWhile fun part =>
    part.isEmpty || part = ['.']).reverse
  match parts.getLast? with
  | none | some ['.', '.'] => none
  | some _ => some (String.ofList (List.intercalate ['/'] parts) ++ "." ++ fileExtension)

def fileName (path : String) : List Char :=
  ((Text.split '/' path.toList).getLast?).getD []

/-- The part of a file's name behind its last dot, unless the name begins there. -/
def extension? (path : String) : Option String :=
  match (Text.split '.' (fileName path)).reverse with
  | last :: before :: others =>
    if before.isEmpty ∧ others.isEmpty then none else some (String.ofList last)
  | _ => none

/-- The format of the file with this name. -/
def formatOf? (path : String) : Option FileFormat :=
  FileFormat.all.find? fun f => some f.fileExtension = extension? path

/-- Finds a file under the very path, or with an extension added to it; none of a known format is
an error only if it must be there. -/
def fileLayer (s : Surroundings) (required : Bool) (path : String) : Except Error Layer :=
  let missing : Except Error Layer := if required then .error .settings else .ok []
  let parsed (f : FileFormat) (text : String) : Except Error Layer :=
    match f.parse? text with
    | some layer => .ok layer
    | none => .error .settings
  match s.read? path with
  | some text =>
    match formatOf? path with
    | some f => parsed f text
    | none => missing
  | none =>
    let found := FileFormat.all.findSome? fun f => do
      let path ← withExtension? path f.fileExtension
      return (f, ← s.read? path)
    match found with
    | some (f, text) => parsed f text
    | none => missing

def defaultPaths : List String := ["serde.toml", ".serde.toml", "config/serde.toml"]

/-- The layer of the user's file, which is left out when nothing is at its path. -/
def userLayer (s : Surroundings) : Except Error Layer :=
  match s.userFile? with
  | some path => if (s.entry? path).isSome then fileLayer s false path else .ok []
  | none => .ok []

/-- Every path at which a file is looked for. -/
def searchedPaths (userFile? path : Option String) : List String :=
  (defaultPaths ++ userFile?.toList ++ path.toList).flatMap fun p =>
    p :: FileFormat.all.filterMap fun f => withExtension? p f.fileExtension

/-- All layers, the lowest first. -/
def layers (s : Surroundings) (path : Option String) : Except Error (List Layer) := do
  let defaults ← defaultPaths.mapM (fileLayer s false)
  let user ← userLayer s
  let asked ← match path with
    | some p => fileLayer s true p
    | none => .ok []
  return defaults ++ [user, asked, ofVariables s.variables]

/-- Loads settings; the file at `path` must be there. -/
def load (s : Surroundings) (path : Option String) : Except Error Settings := do
  ofValues ((← layers s path).foldl overlay .empty)

/-- Saves settings to a file whose directory is there. -/
def save (s : Settings) (d : Directory) (path : String) (here : List String := []) :
    Except Error Directory :=
  match d.write? here path s.toml with
  | some d => .ok d
  | none => .error .io

end SchemaRegistry.Settings
