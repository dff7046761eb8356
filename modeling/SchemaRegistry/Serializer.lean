import SchemaRegistry.Codec
import SchemaRegistry.Endpoint
import SchemaRegistry.Envelope
import SchemaRegistry.Policy

/-!
Serializers: from a message to an envelope with the ID of its schema.
-/

namespace SchemaRegistry

structure Serializer (μ : Type) where
  endpoint : Endpoint
  encoder : Encoder μ

namespace Serializer

variable {μ : Type}

def policy (s : Serializer μ) : IdPolicy := .select s.endpoint.settings

def getId (s : Serializer μ) (topic : String) (schema : Schema) : Session UInt32 :=
  s.policy.resolve (s.endpoint.subject topic schema) schema s.endpoint.settings.normalize

/-- Everything that comes before the encoder: the schema, its subject, its ID, its references. -/
def prepare (s : Serializer μ) (topic : String) (message : μ) : Session SchemaContext := do
  let schema ← s.encoder.schemaOf message
  let subject := s.endpoint.subject topic schema
  let id ← s.policy.resolve subject schema s.endpoint.settings.normalize
  let linked ← s.encoder.linking.link schema
  return ⟨subject, id, schema, linked⟩

def serialize (s : Serializer μ) (topic : String) (message : μ) : Session (List UInt8) := do
  let context ← s.prepare topic message
  let body ← s.encoder.encode message context
  return Envelope.write ⟨context.id, body⟩

end Serializer

end SchemaRegistry
