import SchemaRegistry.Schema.Fingerprint
import SchemaRegistry.Text.Word

/-!
The name that a schema declares. A Protobuf source has that of its first message at the start of a
line, inside its package. Declarations are found line by line in the raw text; comments are not told
apart.
-/

namespace SchemaRegistry.Protobuf

open SchemaRegistry.Text

/-- The text from each line feed on, without the line feed. -/
def laterLines : List Char → List (List Char)
  | [] => []
  | c :: cs => if c = '\n' then cs :: laterLines cs else laterLines cs

/-- The rest of the text from the start of each line. -/
def lines (cs : List Char) : List (List Char) := cs :: laterLines cs

/-- What follows a keyword and at least one blank. -/
def afterKeyword? (keyword cs : List Char) : Option (List Char) :=
  if keyword.isPrefixOf cs then
    match cs.drop keyword.length with
    | c :: r => if isBlank c then some (trimLeft r) else none
    | [] => none
  else none

/-- The longest identifier at the front and what follows it; `more` are its later characters. -/
def identifier? (more : Char → Bool) : List Char → Option (List Char × List Char)
  | [] => none
  | c :: cs =>
    if isIdentifierStart c then some (c :: cs.takeWhile more, cs.dropWhile more) else none

/-- The name of a message whose declaration the line starts with. -/
def messageAt? (line : List Char) : Option (List Char) := do
  let (name, _) ← identifier? isWord (← afterKeyword? "message".toList line)
  return name

/-- The name in a package clause that comes next after blanks, up to its semicolon. -/
def packageAt? (line : List Char) : Option (List Char) := do
  let rest ← afterKeyword? "package".toList (trimLeft line)
  let (name, rest) ← identifier? (fun c => isWord c || c = '.') rest
  match trimLeft rest with
  | ';' :: _ => some name
  | _ => none

def message? (source : String) : Option String :=
  ((lines source.toList).findSome? messageAt?).map String.ofList

def package? (source : String) : Option String :=
  ((lines source.toList).findSome? packageAt?).map String.ofList

/-- The first message with its package in front. -/
def recordName? (source : String) : Option String := do
  let name ← message? source
  match package? source with
  | some p => some (p ++ "." ++ name)
  | none => some name

end SchemaRegistry.Protobuf

namespace SchemaRegistry.Schema

/-- The `name` of an object in its `namespace`; a name with a dot is full as it stands. -/
def avroName? (v : Json) : Option String := do
  let name ← (← v.get? "name").text?
  if name.toList.contains '.' then return name
  match (v.get? "namespace").bind Json.text? with
  | some space => return if space.isEmpty then name else space ++ "." ++ name
  | none => return name

/-- The full name of the record that a schema declares, if it declares one. -/
def recordName? (s : Schema) : Option String :=
  match s.format with
  | .avro => s.json?.bind avroName?
  | .json => do (← (← s.json?).get? "title").text?
  | .protobuf => Protobuf.recordName? s.text

/-- The type name that a message factory is given. A JSON schema has none. -/
def typeName (s : Schema) : String :=
  match s.format with
  | .json => ""
  | _ => s.recordName?.getD ""

end SchemaRegistry.Schema
