import SchemaRegistry.Schema
import SchemaRegistry.Text.Hex

/-!
Everything that can go wrong, by cause, and the texts that tell it.
-/

namespace SchemaRegistry

/-- What a registry answers when it cannot answer. -/
inductive RegistryError where
  | subjectNotFound (subject : String)
  | versionNotFound (key : Key)
  | schemaNotFound (subject : String) (id : UInt32)
  | schemaNotRegistered (subject : String)
  | transport (text : String)
  deriving DecidableEq, Repr

def RegistryError.message : RegistryError → String
  | .subjectNotFound s => "Subject not found: " ++ s
  | .versionNotFound k =>
    "Version not found: " ++ k.subject ++ " version " ++ Text.ofInt k.version.toInt
  | .schemaNotFound s id =>
    "Schema " ++ Text.ofNat id.toNat ++ " not found under subject '" ++ s ++ "'"
  | .schemaNotRegistered s => "Schema not registered under subject '" ++ s ++ "'"
  | .transport t => "Registry request failed: " ++ t

/-- What can be wrong with the text of an AVRO schema, names that nothing defines apart. -/
inductive Avro.Fault where
  | notJson
  | notASchema
  | missingType
  | missingName
  | invalidName (text : String)
  | invalidNamespace (text : String)
  | reservedName (text : String)
  | missingFields
  | invalidFieldName (text : String)
  | duplicateField (name : String)
  | invalidDefault (field : String)
  | missingSymbols
  | invalidSymbol (text : String)
  | duplicateSymbol (text : String)
  | invalidEnumDefault
  | invalidSize
  | invalidFixedDefault
  | missingItems
  | missingValues
  | nestedUnion
  | duplicateBranch
  | invalidLogicalType
  | definitionWithoutName
  | duplicateDefinition (name : String)
  deriving DecidableEq, Repr

inductive Error where
  /-- An option has a value of the wrong type or out of range. -/
  | option (key expected found : String)
  /-- A source of settings cannot be read, or a value in it is of no use. -/
  | settings
  | unknownMagicByte (byte : UInt8)
  | truncated (length : Nat)
  | registry (cause : RegistryError)
  | cyclicReference (key : Key)
  | unresolvedReference (name : String)
  | avro (fault : Avro.Fault)
  | codec (text : String)
  | messageFactory (text : String)
  | io
  | json
  deriving DecidableEq, Repr

namespace Error

/-- The text of an error; none where a reader of some other format words it. -/
def message? : Error → Option String
  | .option key expected found =>
    some ("Invalid configuration value for '" ++ key ++ "': expected " ++ expected ++ ", got " ++ found)
  | .unknownMagicByte b => some ("Unknown magic byte: 0x" ++ String.ofList (Text.Hex.ofByte b))
  | .truncated n => some ("Truncated wire envelope: " ++ Text.ofNat n ++ " bytes, need at least 5")
  | .registry e => some ("Registry error: " ++ e.message)
  | .cyclicReference k =>
    some ("Cyclic schema reference: " ++ k.subject ++ " version " ++ Text.ofInt k.version.toInt)
  | .unresolvedReference n => some ("Unresolved schema reference: " ++ n)
  | .codec t => some ("Codec error: " ++ t)
  | .messageFactory t => some ("Message factory error: " ++ t)
  | .settings | .avro _ | .io | .json => none

/-- A missing or malformed envelope. -/
def isWireFormat : Error → Bool
  | .unknownMagicByte _ | .truncated _ => true
  | _ => false

def isRegistry : Error → Bool
  | .registry _ => true
  | _ => false

/-- The references of a schema do not make a usable schema. -/
def isResolution : Error → Bool
  | .cyclicReference _ | .unresolvedReference _ | .avro _ => true
  | _ => false

end Error

end SchemaRegistry
