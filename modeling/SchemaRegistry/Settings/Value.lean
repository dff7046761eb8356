import SchemaRegistry.Json.Value
import SchemaRegistry.Text.Decimal
import SchemaRegistry.Toml.Value

/-!
What a source of settings gives for a name, before it is known which type the setting has.
-/

namespace SchemaRegistry.Settings

inductive Value where
  | bool (b : Bool)
  | int (i : Int64)
  | float (x : Float)
  | text (s : String)
  /-- A table of other values, of which no setting is made. -/
  | table (isEmpty : Bool)
  /-- A list, a date or null, of which no setting is made. -/
  | other

namespace Value

def ofToml : Toml.Value → Value
  | .bool b => .bool b
  | .int i => .int i
  | .float x => .float x
  | .text s => .text s
  | .date => .other
  | .array _ => .other
  | .table es => .table es.isEmpty

/-- An integer that has no place in 64 bits is a floating-point number. -/
def ofNumber (text : String) : Value :=
  match Text.int64? text.toList with
  | some i => .int i
  | none => (Text.float? text.toList).elim .other .float

def ofJson : Json → Value
  | .null => .other
  | .bool b => .bool b
  | .number t => ofNumber t
  | .string s => .text s
  | .array _ => .other
  | .object ms => .table ms.isEmpty

def ofVariable (s : String) : Value :=
  if s.toLower = "true" then .bool true
  else if s.toLower = "false" then .bool false
  else match Text.int64? s.toList with
    | some i => .int i
    | none => (Text.float? s.toList).elim (.text s) .float

def yes : List String := ["true", "on", "yes"]

def no : List String := ["false", "off", "no"]

def toBool? : Value → Option Bool
  | .bool b => some b
  | .int i => some (i ≠ 0)
  | .float x => some (x != 0.0)
  | .text s =>
    let t := s.toLower
    if t = "1" ∨ yes.contains t then some true
    else if t = "0" ∨ no.contains t then some false
    else none
  | _ => none

def toInt? : Value → Option Int64
  | .bool b => some (if b then 1 else 0)
  | .int i => some i
  | .float x => some (Text.toInt64 x)
  | .text s =>
    let t := s.toLower
    if yes.contains t then some 1
    else if no.contains t then some 0
    else Text.int64? s.toList
  | _ => none

end Value

end SchemaRegistry.Settings
