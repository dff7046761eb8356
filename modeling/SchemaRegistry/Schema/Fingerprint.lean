import SchemaRegistry.Digest.Sha256
import SchemaRegistry.Json.Value
import SchemaRegistry.Schema
import SchemaRegistry.Text.Hex

/-!
Fingerprints of schema texts, and what makes two schemas the same for a registry.
-/

namespace SchemaRegistry

/-- The SHA-256 hash of a text in UTF-8. -/
structure Fingerprint where
  hash : Digest.Sha256.State
  deriving DecidableEq, Repr

namespace Fingerprint

def ofText (s : String) : Fingerprint := ⟨Digest.Sha256.hash (Text.utf8 s)⟩

def hex (f : Fingerprint) : String := Text.Hex.encode f.hash.bytes

/-- The bytes of the hash as decimal numbers. -/
def describe (f : Fingerprint) : String :=
  "Checksum([" ++ ", ".intercalate (f.hash.bytes.map fun b => Text.ofNat b.toNat) ++ "])"

end Fingerprint

namespace Schema

def json? (s : Schema) : Option Json := if s.format.isJsonText then Json.parse? s.text else none

/-- The text without layout and with sorted members; any other text as it is. -/
def canonicalText (s : Schema) : String :=
  match s.json? with
  | some v => v.compact
  | none => s.text

def fingerprint (s : Schema) : Fingerprint := .ofText s.text

/-- Does not see the layout of a JSON text nor the order of its members. -/
def normalizedFingerprint (s : Schema) : Fingerprint := .ofText s.canonicalText

def referenceLabels (s : Schema) : String := ",".intercalate (s.references.map Reference.label)

/-- Format, fingerprint and references on one line, which is all of a schema that counts for its
identity. -/
def identityText (s : Schema) (normalize : Bool) : String :=
  s.format.name ++ "|" ++
    (if normalize then s.normalizedFingerprint else s.fingerprint).describe ++ "|" ++
    s.referenceLabels

/-- Two schemas with one identity share an ID. -/
def identity (s : Schema) (normalize : Bool) : Fingerprint := .ofText (s.identityText normalize)

end Schema

end SchemaRegistry
