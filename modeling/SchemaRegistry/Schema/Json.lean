import SchemaRegistry.Json.Record
import SchemaRegistry.Json.Value
import SchemaRegistry.Schema

/-!
Schemas and references as JSON records. Written records have their members in declaration order;
the list of references is left out when it is empty.
-/

namespace SchemaRegistry

open Json (Document)
open Json.Document (required optional fields?)

/-! ### Writing -/

namespace Json

def ofInt (i : Int) : Json := .number (Text.ofInt i)

end Json

def Reference.toJson (r : Reference) : Json :=
  .object [("name", .string r.name), ("subject", .string r.subject),
    ("version", .ofInt r.version.toInt)]

namespace Schema

def members (s : Schema) : List (String × Json) :=
  [("schema", .string s.text), ("schemaType", .string s.format.name)] ++
    if s.references.isEmpty then [] else [("references", .array (s.references.map Reference.toJson))]

def toJson (s : Schema) : Json := .object s.members

end Schema

def Registered.toJson (m : Registered) : Json :=
  .object ([("id", .ofInt m.id.toNat), ("subject", .string m.subject),
    ("version", .ofInt m.version.toInt)] ++ m.schema.members)

/-! ### Reading -/

/-- A format is its name, or an object whose one member has this name and is null. -/
def Format.ofDocument? : Document → Option Format
  | .string t => t.bind ofName?
  | .object [(k, .null)] => k.bind ofName?
  | _ => none

def Reference.ofDocument? (d : Document) : Option Reference := do
  match ← d.fields? ["name", "subject", "version"] with
  | [name, subject, version] =>
    return {
      name := ← required Document.text? name
      subject := ← required Document.text? subject
      version := ← required Document.int32? version }
  | _ => none

def Reference.listOfDocument? (d : Document) : Option (List Reference) := do
  (← d.items?).mapM ofDocument?

def Schema.ofFields? (text format references : Option Document) : Option Schema := do
  return {
    text := ← required Document.text? text
    format := ← optional Format.ofDocument? .avro format
    references := ← optional Reference.listOfDocument? [] references }

def Schema.ofDocument? (d : Document) : Option Schema := do
  match ← d.fields? ["schema", "schemaType", "references"] with
  | [text, format, references] => ofFields? text format references
  | _ => none

def Registered.ofDocument? (d : Document) : Option Registered := do
  match ← d.fields? ["id", "subject", "version", "schema", "schemaType", "references"] with
  | [id, subject, version, text, format, references] =>
    return {
      id := ← required Document.uint32? id
      subject := ← required Document.text? subject
      version := ← required Document.int32? version
      schema := ← Schema.ofFields? text format references }
  | _ => none

def Json.read {α : Type} (ofDocument? : Document → Option α) (text : String) : Option α :=
  (Document.parse? text).bind ofDocument?

end SchemaRegistry
