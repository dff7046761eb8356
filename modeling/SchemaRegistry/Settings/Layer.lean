import SchemaRegistry.Settings
import SchemaRegistry.Settings.Value
import SchemaRegistry.Table

/-!
Layers of settings: files and environment variables, where a later layer replaces what an earlier
one gave for the same name. Upper and lower case are the same in names.
-/

namespace SchemaRegistry.Settings

/-- Names and values in the order of a source. -/
abbrev Layer := List (String × Value)

/-- The values so far, by name. -/
abbrev Values := Table String Value

/-! ### Names -/

def isNameChar (c : Char) : Bool := c.isAlphanum || ['_', '-', ' '].contains c

/-- A letter in lower case. The Kelvin sign is the one letter outside ASCII with a name's letter as
its lower case. -/
def lowerChar (c : Char) : Char := if c = '\u212a' then 'k' else c.toLower

def lower (s : String) : String := String.ofList (s.toList.map lowerChar)

/-- The place in a name with steps into the value: `.key`, or an index of 64 bits in brackets, with
blanks around it or not. -/
inductive Place where
  | dot
  | key
  | bracket
  | minus
  | index (isNegative : Bool) (value : Nat)
  | gap
  | closed
  deriving DecidableEq, Repr

def isGap (c : Char) : Bool := c = ' ' || c = '\t'

def Place.digit (isNegative : Bool) (value : Nat) (c : Char) : Option Place := do
  let value := value * 10 + (← Text.digit? c)
  (Text.toInt64? (if isNegative then -value else value)).map fun _ => .index isNegative value

def Place.next : Place → Char → Option Place
  | .dot, c => if isNameChar c then some .key else none
  | .key, c =>
    if isNameChar c then some .key
    else if c = '.' then some .dot
    else if c = '[' then some .bracket
    else none
  | .bracket, c =>
    if isGap c then some .bracket else if c = '-' then some .minus else digit false 0 c
  | .minus, c => digit true 0 c
  | .index isNegative value, c =>
    if isGap c then some .gap else if c = ']' then some .closed else digit isNegative value c
  | .gap, c => if isGap c then some .gap else if c = ']' then some .closed else none
  | .closed, c => if c = '.' then some .dot else if c = '[' then some .bracket else none

/-- The name in front of steps into its value. -/
def stepped? (name : String) : Option String :=
  let cs := name.toList
  match cs.foldlM Place.next .dot with
  | some .key | some .closed =>
    if cs.all isNameChar then none else some (String.ofList (cs.takeWhile isNameChar))
  | _ => none

/-- Sets a value. With a step into it the value becomes a table; an empty table changes nothing
that is there. -/
def assign (vs : Values) (name : String) (v : Value) : Values :=
  let name := lower name
  match stepped? name with
  | some outer => vs.insert outer (.table false)
  | none =>
    match v with
    | .table true => if vs.contains name then vs else vs.insert name v
    | _ => vs.insert name v

def overlay (vs : Values) (layer : Layer) : Values :=
  layer.foldl (fun vs e => assign vs e.1 e.2) vs

/-! ### Environment variables -/

def variablePrefix : List Char := "serde__".toList

/-- Every double underscore as a dot. -/
def dotted : List Char → List Char
  | '_' :: '_' :: cs => '.' :: dotted cs
  | c :: cs => c :: dotted cs
  | [] => []

/-- The name that a variable sets. -/
def ofVariableName? (name : String) : Option String :=
  let cs := (lower name).toList
  if variablePrefix.isPrefixOf cs then
    some (String.ofList (dotted (cs.drop variablePrefix.length)))
  else none

def ofVariables (pairs : List (String × String)) : Layer :=
  pairs.filterMap fun (name, text) => do return (← ofVariableName? name, .ofVariable text)

/-! ### The result -/

/-- Converts the value of a name, or takes the default when there is none. -/
def convert {α : Type} (vs : Values) (name : String) (read? : Value → Option α) (default : α) :
    Except Error α :=
  match vs.get? name with
  | none => .ok default
  | some v =>
    match read? v with
    | some a => .ok a
    | none => .error .settings

def ofValues (vs : Values) : Except Error Settings := do
  let autoRegister ← convert vs "auto_register_schemas" Value.toBool? true
  let schemaId ← convert vs "use_schema_id" Value.toInt? (-1)
  let latestVersion ← convert vs "use_latest_version" Value.toBool? false
  let normalize ← convert vs "normalize_schemas" Value.toBool? false
  validate { autoRegister, schemaId, latestVersion, normalize }

end SchemaRegistry.Settings
