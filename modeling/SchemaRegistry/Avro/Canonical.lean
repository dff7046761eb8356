import SchemaRegistry.Avro.Shape

/-!
The parsing canonical form of an AVRO schema: a JSON text with full names, members in a fixed order
and nothing that does not matter to a reader of data. A name is defined once; after that the name
alone stands for it.
-/

namespace SchemaRegistry.Avro

/-! ### A schema as JSON -/

def namedObject (word : String) (name : Name) (parts : Members) (attributes : Attributes) : Members :=
  (match name.space with | some s => [("namespace", .string s)] | none => []) ++
    [("type", .string word), ("name", .string name.simple)] ++ parts ++ attributes

def natural (n : Nat) : Json := .number (Text.ofNat n)

def Fixed.members (f : Fixed) : Members :=
  namedObject "fixed" f.name [("size", natural f.size)] f.attributes

def durationBase : Fixed := ⟨⟨"duration", none⟩, 12, []⟩

def Logical.members (l : Logical) : Members :=
  let base := match l.base? with
    | some p => .string p.name
    | none => .ofMembers durationBase.members
  [("type", base), ("logicalType", .string l.name)]

mutual

def Shape.toJson : Shape → Json
  | .primitive p => .string p.name
  | .logical l => .ofMembers l.members
  | .decimal precision scale base =>
    let inner := match base with
      | some f => f.members
      | none => [("type", .string Primitive.bytes.name)]
    .ofMembers (inner ++ [("logicalType", .string "decimal"), ("scale", natural scale),
      ("precision", natural precision)])
  | .array items attributes =>
    .ofMembers ([("type", .string "array"), ("items", items.toJson)] ++ attributes)
  | .map values attributes =>
    .ofMembers ([("type", .string "map"), ("values", values.toJson)] ++ attributes)
  | .union branches => .array (branchesToJson branches)
  | .record name fields attributes =>
    .ofMembers (namedObject "record" name [("fields", .array (fieldsToJson fields))] attributes)
  | .enum e =>
    .ofMembers (namedObject "enum" e.name [("symbols", .array (e.symbols.map .string))]
      e.attributes)
  | .fixed f => .ofMembers f.members
  | .ref name => .string name.full

def branchesToJson : List Shape → List Json
  | [] => []
  | s :: ss => s.toJson :: branchesToJson ss

def fieldsToJson : List (Field × Shape) → List Json
  | [] => []
  | (f, s) :: fs =>
    .ofMembers ([("name", .string f.name), ("type", s.toJson)] ++ f.attributes) :: fieldsToJson fs

end

/-! ### Canonical text -/

/-- The members that matter, in the order in which they are written. Those that only the order of
data, a reader's defaults or a meaning depend on have a place but are not written. -/
def memberOrder : List String :=
  ["name", "type", "fields", "symbols", "items", "values", "logicalType", "size", "order", "doc",
    "aliases", "default", "precision", "scale"]

def isStripped (key : String) : Bool :=
  !memberOrder.contains key || ["default", "doc", "aliases", "logicalType"].contains key

def isNumeric (key : String) : Bool := ["size", "precision", "scale"].contains key

def inQuotes (s : String) : String := "\"" ++ s ++ "\""

def integerText (v : Json) : String :=
  match v with
  | .number t | .string t => (Text.int? t.toList).elim t Text.ofInt
  | _ => v.compact

/-- The full name that an object defines, if its `type` is one that has a name. -/
def definedName? (ms : Members) : Option String := do
  let word ← ms.text? "type"
  if ["record", "enum", "fixed", "ref"].contains word then
    let name := (ms.text? "name").getD ""
    match ms.text? "namespace" with
    | some s => some (s ++ "." ++ name)
    | none => some name
  else none

/-- The word that stands for an object with nothing but a `type`. -/
def soleType? : Members → Option String
  | [("type", .string s)] => some s
  | _ => none

mutual

/-- Writes a schema; the state holds the names that are defined so far. -/
def canonical : Json → StateM (List String) String
  | .string s => return inQuotes s
  | .array vs => return "[" ++ ",".intercalate (← canonicalItems vs) ++ "]"
  | .object ms => do
    let name := definedName? ms
    if let some n := name then
      if (← get).contains n then return inQuotes n
      modify (n :: ·)
    if let some word := soleType? ms then return inQuotes word
    let parts ← canonicalMembers name ms
    let ordered := parts.mergeSort fun a b => a.1 ≤ b.1
    return "\x7b" ++ ",".intercalate (ordered.map Prod.snd) ++ "\x7d"
  | v => return v.compact

def canonicalItems : List Json → StateM (List String) (List String)
  | [] => return []
  | v :: vs => do
    let s ← canonical v
    let ss ← canonicalItems vs
    return s :: ss

/-- The members that are written, each with its place in the order. -/
def canonicalMembers (name : Option String) : Members → StateM (List String) (List (Nat × String))
  | [] => return []
  | (key, v) :: ms => do
    if isStripped key then canonicalMembers name ms
    else
      let text ←
        if key = "name" ∧ name.isSome then pure (inQuotes (name.getD ""))
        else if isNumeric key then pure (integerText v)
        else canonical v
      let rest ← canonicalMembers name ms
      return (memberOrder.idxOf key, inQuotes key ++ ":" ++ text) :: rest

end

/-- The parsing canonical form of a schema. -/
def Shape.canonicalText (s : Shape) : String := (canonical s.toJson |>.run []).1

end SchemaRegistry.Avro
