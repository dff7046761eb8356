import SchemaRegistry.Error
import SchemaRegistry.Table
import SchemaRegistry.Text.Basic

/-!
Options as a producer or consumer passes them: dotted keys with a truth value, an integer or a text.
-/

namespace SchemaRegistry

inductive OptionValue where
  | bool (b : Bool)
  | int (i : Int64)
  | text (s : String)
  deriving DecidableEq, Repr

namespace OptionValue

def typeName : OptionValue → String
  | .bool _ => "bool"
  | .int _ => "int"
  | .text _ => "string"

/-- A text stands in quotes, as it is. -/
def display : OptionValue → String
  | .bool b => if b then "true" else "false"
  | .int i => Text.ofInt i.toInt
  | .text s => "\"" ++ s ++ "\""

end OptionValue

abbrev Options := Table String OptionValue

namespace Options

def mismatch (key expected : String) (v : OptionValue) : Error :=
  .option key expected (v.typeName ++ " " ++ v.display)

/-- A truth value, also as a text with blanks around it. -/
def getBool (o : Options) (key : String) (default : Bool) : Except Error Bool :=
  match o.get? key with
  | none => .ok default
  | some v =>
    match v with
    | .bool b => .ok b
    | .text s =>
      if Text.trim s = "true" then .ok true
      else if Text.trim s = "false" then .ok false
      else .error (mismatch key "bool" v)
    | .int _ => .error (mismatch key "bool" v)

/-- An integer, also as a text with blanks around it. -/
def getInt (o : Options) (key : String) (default : Int64) : Except Error Int64 :=
  match o.get? key with
  | none => .ok default
  | some v =>
    match v with
    | .int i => .ok i
    | .text s =>
      match Text.int64? (Text.trim s).toList with
      | some i => .ok i
      | none => .error (mismatch key "int" v)
    | .bool _ => .error (mismatch key "int" v)

end Options

end SchemaRegistry
