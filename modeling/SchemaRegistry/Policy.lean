import SchemaRegistry.Client
import SchemaRegistry.Settings

/-!
Which schema ID a serializer embeds, and how it gets it from the registry.
-/

namespace SchemaRegistry

inductive IdPolicy where
  | autoRegister
  | pinned (id : UInt32)
  | latestVersion
  | lookup
  deriving DecidableEq, Repr

namespace IdPolicy

/-- Registering comes first, then a pinned ID, then the latest version. -/
def select (s : Settings) : IdPolicy :=
  if s.autoRegister then .autoRegister
  else match s.pinned? with
    | some id => .pinned id
    | none => if s.latestVersion then .latestVersion else .lookup

def name : IdPolicy → String
  | .autoRegister => "auto-register"
  | .pinned _ => "use-schema-id"
  | .latestVersion => "use-latest-version"
  | .lookup => "lookup"

/-- The name, with the ID of a policy that has one. -/
def label : IdPolicy → String
  | .pinned id => (pinned id).name ++ "(" ++ Text.ofNat id.toNat ++ ")"
  | p => p.name

def mutates : IdPolicy → Bool
  | .autoRegister => true
  | _ => false

/-- Asks the registry for the ID. A schema that came from the registry is looked up as it is. -/
def resolve (p : IdPolicy) (subject : String) (s : Schema) (normalize : Bool) : Session UInt32 :=
  match p with
  | .autoRegister => Client.register subject s normalize
  | .pinned id => do
    let found ← Client.bySubjectAndId subject id
    Client.idOf subject found false
  | .latestVersion => do
    let m ← Client.latest subject
    Client.idOf subject m.schema false
  | .lookup => Client.idOf subject s normalize

end IdPolicy

end SchemaRegistry
