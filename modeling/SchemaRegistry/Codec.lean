import SchemaRegistry.Avro.Linked
import SchemaRegistry.Reference.Walk

/-!
Codecs turn messages into payloads and back. They see the schema in use, and its references resolved
as far as they ask for.
-/

namespace SchemaRegistry

/-- How much a codec wants resolved. -/
inductive Linking where
  | skip
  | sources
  | avro
  deriving DecidableEq, Repr, Inhabited

/-- The references of a schema, resolved. -/
inductive Linked where
  | unresolved
  | sources (m : Sources)
  | avro (l : Avro.Linked)

def Linking.link (mode : Linking) (s : Schema) : Session Linked :=
  match mode with
  | .skip => return .unresolved
  | .sources => .sources <$> Sources.resolve s
  | .avro => .avro <$> Avro.resolve s

/-- What a codec is told about the schema of a message. -/
structure SchemaContext where
  subject : String
  id : UInt32
  schema : Schema
  linked : Linked

structure Encoder (μ : Type) where
  /-- The schema of a message. -/
  schemaOf : μ → Except Error Schema
  linking : Linking := .skip
  /-- The payload of a message. -/
  encode : μ → SchemaContext → Except Error (List UInt8)

structure Decoder (μ : Type) where
  linking : Linking := .skip
  /-- Fills a message from a payload; also a failure may leave it changed. -/
  decode : List UInt8 → SchemaContext → μ → Except Error Unit × μ

/-- Makes the message that a payload is decoded into, from its subject and type name. -/
abbrev MessageFactory (μ : Type) := String → String → Except Error μ

end SchemaRegistry
