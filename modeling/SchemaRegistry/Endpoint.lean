import SchemaRegistry.Schema.Name
import SchemaRegistry.Settings

/-!
Naming strategies, from a topic, the side of the message and a schema to a subject; and the endpoints
of a topic, which are what serializers and deserializers have in common.
-/

namespace SchemaRegistry

/-- The part of a message that a payload is. -/
inductive Side where
  | key
  | value
  deriving DecidableEq, Repr, Inhabited

abbrev SubjectNaming := String → Side → Schema → String

namespace SubjectNaming

def topicSuffix : Side → String
  | .key => "-key"
  | .value => "-value"

/-- The topic and the side; the only strategy here that a reader can follow without the schema. -/
def byTopic : SubjectNaming := fun topic side _ => topic ++ topicSuffix side

/-- The record's name, or the topic's subject when the schema declares none. -/
def byRecord : SubjectNaming := fun topic side schema =>
  schema.recordName?.getD (byTopic topic side schema)

/-- Topic and record's name, or the topic's subject when the schema declares none. -/
def byTopicRecord : SubjectNaming := fun topic side schema =>
  match schema.recordName? with
  | some name => topic ++ "-" ++ name
  | none => byTopic topic side schema

def default : SubjectNaming := byTopic

def constant (subject : String) : SubjectNaming := fun _ _ _ => subject

end SubjectNaming

structure Endpoint where
  settings : Settings := {}
  side : Side := .value
  naming : SubjectNaming := .default

namespace Endpoint

def configure (o : Options) (side : Side) : Except Error Endpoint := do
  return { settings := ← Settings.ofOptions o, side }

def subject (e : Endpoint) (topic : String) (s : Schema) : String := e.naming topic e.side s

def isKey (e : Endpoint) : Bool := e.side = .key

def describe (e : Endpoint) : String :=
  "Serde \x7b config: " ++ e.settings.describe ++ ", is_key: " ++ Settings.boolText e.isKey ++
    ", .. \x7d"

end Endpoint

end SchemaRegistry
