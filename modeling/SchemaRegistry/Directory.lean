import SchemaRegistry.Table
import SchemaRegistry.Text.Basic

/-!
Directories and files below the root. Paths lead to them from there, or from a working directory.
-/

namespace SchemaRegistry

/-- What is at a path. -/
inductive Directory.Entry where
  | file (text : String)
  | directory
  deriving DecidableEq, Repr

instance : Coe String Directory.Entry := ⟨.file⟩

/-- The root directory: what is in it and below it, by the parts of paths from it. A directory is
there if it is listed, or if something below it is. -/
structure Directory where
  entries : Table (List String) Directory.Entry := .empty

namespace Directory

def isDirectory (d : Directory) (path : List String) : Bool :=
  path.isEmpty || d.entries.get? path = some .directory ||
    d.entries.keys.any fun k => path.isPrefixOf k && path.length < k.length

/-- Whether a text can be the name of a file. -/
def isName (part : String) : Bool :=
  part.utf8ByteSize ≤ 255 && part.toList.all fun c => c ≠ '/' && c ≠ Char.ofNat 0

/-- Takes one step of a path. Steps lead out of directories only; the root is above itself. -/
def step (d : Directory) (path : List String) (part : String) : Option (List String) :=
  if ¬ d.isDirectory path ∨ ¬ isName part then none
  else if part = "" ∨ part = "." then some path
  else if part = ".." then some path.dropLast
  else some (path ++ [part])

/-- Where a path starts: at the root if a slash is in front, else in the working directory. -/
def start (here : List String) (path : String) : List String :=
  if path.toList.head? = some '/' then [] else here

/-- Follows a path step by step. The empty path leads nowhere. -/
def follow? (d : Directory) (here : List String) (path : String) : Option (List String) :=
  if path.isEmpty then none
  else ((Text.split '/' path.toList).map String.ofList).foldlM d.step (start here path)

/-- What is at a path, seen from a working directory. -/
def entry? (d : Directory) (here : List String := []) (path : String) : Option Entry := do
  let parts ← d.follow? here path
  if d.isDirectory parts then some .directory else d.entries.get? parts

def read? (d : Directory) (path : String) (here : List String := []) : Option String :=
  match d.entry? here path with
  | some (.file text) => some text
  | _ => none

/-- Writes a file whose directory is there; none where a directory is. -/
def write? (d : Directory) (here : List String) (path text : String) : Option Directory := do
  let parts ← d.follow? here path
  if d.isDirectory parts then none else some ⟨d.entries.insert parts text⟩

end Directory

end SchemaRegistry
