import SchemaRegistry.Codec
import SchemaRegistry.Endpoint
import SchemaRegistry.Envelope

/-!
Deserializers: from an envelope to a message, by way of the schema that it was written with.
-/

namespace SchemaRegistry

structure Deserializer (μ : Type) where
  endpoint : Endpoint
  decoder : Decoder μ
  factory : Option (MessageFactory μ) := none

namespace Deserializer

variable {μ : Type}

/-- The subject of a topic when the schema is not known. -/
def subject (d : Deserializer μ) (topic : String) : String := d.endpoint.subject topic .empty

def getSchema (d : Deserializer μ) (topic : String) (bytes : List UInt8) : Session Schema := do
  let e ← Envelope.parse bytes
  Client.bySubjectAndId (d.subject topic) e.schemaId

/-- Everything that comes before the message: the payload and what the decoder is told. -/
def receive (d : Deserializer μ) (topic : String) (bytes : List UInt8) :
    Session (List UInt8 × SchemaContext) := do
  let e ← Envelope.parse bytes
  let schema ← Client.bySubjectAndId (d.subject topic) e.schemaId
  let linked ← d.decoder.linking.link schema
  return (e.payload, ⟨d.subject topic, e.schemaId, schema, linked⟩)

def deserialize (d : Deserializer μ) (topic : String) (bytes : List UInt8) : Session μ := do
  let some make := d.factory | throw (.messageFactory "no message factory set")
  let (payload, context) ← d.receive topic bytes
  let message ← make context.subject context.schema.typeName
  let (outcome, message) := d.decoder.decode payload context message
  outcome
  return message

/-- Deserializes into a message that is there; it stays as it was unless the decoder is reached. -/
def deserializeInto (d : Deserializer μ) (topic : String) (bytes : List UInt8) (target : μ) :
    StateM Client (Except Error Unit × μ) := do
  match ← (d.receive topic bytes).run with
  | .ok (payload, context) => return d.decoder.decode payload context target
  | .error e => return (.error e, target)

end Deserializer

end SchemaRegistry
