import SchemaRegistry.Text.Basic

/-!
Schemas, the references between them, and schemas as a registry knows them.
-/

namespace SchemaRegistry

inductive Format where
  | avro
  | json
  | protobuf
  deriving DecidableEq, Repr, Inhabited

namespace Format

def name : Format → String
  | .avro => "AVRO"
  | .json => "JSON"
  | .protobuf => "PROTOBUF"

def ofName? : String → Option Format
  | "AVRO" => some .avro
  | "JSON" => some .json
  | "PROTOBUF" => some .protobuf
  | _ => none

/-- Whether the text of a schema in this format is a JSON document. -/
def isJsonText : Format → Bool
  | .avro | .json => true
  | .protobuf => false

end Format

structure Key where
  subject : String
  version : Int32
  deriving DecidableEq, Repr

def Key.label (k : Key) : String := k.subject ++ "@" ++ Text.ofInt k.version.toInt

/-- A dependency on a version of a subject, under the name that the schema uses for it. -/
structure Reference where
  name : String
  subject : String
  version : Int32
  deriving DecidableEq, Repr

namespace Reference

def key (r : Reference) : Key := ⟨r.subject, r.version⟩

def label (r : Reference) : String := r.name ++ " (" ++ r.key.label ++ ")"

end Reference

structure Schema where
  text : String := ""
  format : Format := .avro
  references : List Reference := []
  deriving DecidableEq, Repr, Inhabited

/-- The schema that a reader names when it does not know the writer's. -/
def Schema.empty : Schema := {}

/-- A schema as a version of a subject. -/
structure Registered where
  id : UInt32
  subject : String
  version : Int32
  schema : Schema
  deriving DecidableEq, Repr

def Registered.key (m : Registered) : Key := ⟨m.subject, m.version⟩

end SchemaRegistry
