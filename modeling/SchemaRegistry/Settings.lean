import SchemaRegistry.Json.Record
import SchemaRegistry.Settings.Options

/-!
Settings of serializers and deserializers.
-/

namespace SchemaRegistry

structure Settings where
  /-- Register the schema of every message that is serialized. -/
  autoRegister : Bool := true
  /-- Always use the schema with this ID; a negative number asks for none. -/
  schemaId : Int64 := -1
  /-- Use the subject's latest version. -/
  latestVersion : Bool := false
  /-- Leave layout and member order out of comparisons of schemas. -/
  normalize : Bool := false
  deriving DecidableEq, Repr, Inhabited

namespace Settings

def maxId : Int := 4294967295

def pinned? (s : Settings) : Option UInt32 :=
  let i := s.schemaId.toInt
  if 0 ≤ i ∧ i ≤ maxId then some (UInt32.ofNat i.toNat) else none

/-- Refuses an ID that no schema can have. -/
def validate (s : Settings) : Except Error Settings :=
  if maxId < s.schemaId.toInt then
    .error (.option "use.schema.id" "schema id in 0..=4294967295 or negative"
      (Text.ofInt s.schemaId.toInt))
  else .ok s

/-- Reads the options that settings are made of; all others are left alone. -/
def ofOptions (o : Options) : Except Error Settings := do
  let autoRegister ← o.getBool "auto.register.schemas" true
  let schemaId ← o.getInt "use.schema.id" (-1)
  let latestVersion ← o.getBool "use.latest.version" false
  let normalize ← o.getBool "normalize.schemas" false
  validate { autoRegister, schemaId, latestVersion, normalize }

open Json (Document)
open Json.Document (optional)

/-- Reads settings from a JSON record. Every field may be left out. -/
def ofDocument? (d : Document) : Option Settings := do
  match ← d.fields? ["auto_register_schemas", "use_schema_id", "use_latest_version",
      "normalize_schemas"] with
  | [autoRegister, schemaId, latestVersion, normalize] =>
    return {
      autoRegister := ← optional Document.bool? true autoRegister
      schemaId := ← optional Document.int64? (-1) schemaId
      latestVersion := ← optional Document.bool? false latestVersion
      normalize := ← optional Document.bool? false normalize }
  | _ => none

def boolText (b : Bool) : String := if b then "true" else "false"

/-- The settings by name, in declaration order. -/
def entries (s : Settings) : List (String × String) :=
  [("auto_register_schemas", boolText s.autoRegister),
    ("use_schema_id", Text.ofInt s.schemaId.toInt),
    ("use_latest_version", boolText s.latestVersion),
    ("normalize_schemas", boolText s.normalize)]

def toml (s : Settings) : String :=
  String.join (s.entries.map fun (name, value) => name ++ " = " ++ value ++ "\n")

def describe (s : Settings) : String :=
  "SerdeConfig \x7b " ++ ", ".intercalate (s.entries.map fun (name, value) => name ++ ": " ++ value)
    ++ " \x7d"

end Settings

end SchemaRegistry
