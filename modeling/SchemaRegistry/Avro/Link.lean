import SchemaRegistry.Avro.Default
import SchemaRegistry.Error

/-!
Reading AVRO schemas against definitions of the names that they use. A definition is read when its
turn comes or when a name first asks for it; a name can be used inside its own definition.
-/

namespace SchemaRegistry.Avro

/-- What is known of names while schemas are read. -/
structure Scope where
  /-- Shapes of the names whose definitions are complete, aliases included. -/
  defined : Table Name Shape := .empty
  /-- Names and aliases that are being defined, with the name proper. -/
  unfinished : Table Name Name := .empty
  /-- Definitions that have not been read. -/
  pending : Table Name Json := .empty

abbrev Reading := StateT Scope (Except Error)

def fault {α : Type} (f : Fault) : Reading α := throw (.avro f)

def orFault {α : Type} (o : Option α) (f : Fault) : Reading α :=
  match o with
  | some a => return a
  | none => fault f

namespace Scope

def start (s : Scope) (name : Name) (aliases : List Name) : Scope :=
  { s with unfinished := (name :: aliases).foldl (fun t n => t.insert n name) s.unfinished }

def define (s : Scope) (name : Name) (shape : Shape) : Scope :=
  { s with defined := s.defined.insert name shape, unfinished := s.unfinished.erase name }

def finish (s : Scope) (name : Name) (aliases : List Name) (shape : Shape) : Scope :=
  (name :: aliases).foldl (fun s n => s.define n shape) s

end Scope

/-! ### Names -/

/-- Words that name no shape by themselves. -/
def isReserved (s : String) : Bool := ["record", "enum", "fixed"].contains s

/-- The name under which a definition is stored. -/
def storedName (name : Name) (v : Json) : Option Name :=
  match v with
  | .object ms =>
    match Members.innerName? ms with
    | some inner => Name.used? none inner
    | none => some name
  | _ => some name

def store (name : Name) (v : Json) (shape : Shape) : Reading Unit := do
  let name ← orFault (storedName name v) (.invalidName name.full)
  modify fun s => { s with defined := s.defined.insert name shape }

/-- The shape that a name stands for. A definition that nobody has read yet is read by `define`, in
no namespace. -/
def lookUp (define : Json → Reading Shape) (space : Option String) (text : String) :
    Reading Shape := do
  let name ← orFault (Name.used? space text) (.invalidName text)
  let scope ← get
  if scope.defined.contains name then return .ref name
  if let some proper := scope.unfinished.get? name then return .ref proper
  if isReserved name.simple then fault (.reservedName text)
  match scope.pending.get? name with
  | none => throw (.unresolvedReference name.full)
  | some v =>
    set { scope with pending := scope.pending.erase name }
    let shape ← define v
    store name v shape
    return shape.used

def readName (define : Json → Reading Shape) (space : Option String) (text : String) :
    Reading Shape :=
  match Primitive.ofName? text with
  | some p => return .primitive p
  | none => lookUp define space text

/-- What the word in `type` was defined as, if it happens to be a name. -/
def seen? (space : Option String) (word : String) : Reading (Option Shape) := do
  let scope ← get
  let name : Name := ⟨word, space⟩
  return ((scope.unfinished.get? name).map .ref) <|> scope.defined.get? name

/-- The aliases of a definition, in its namespace unless they carry their own. -/
def readAliases (name : Name) (ms : Members) : Reading (List Name) :=
  ms.aliases.mapM fun a => orFault (Name.used? name.space a) (.invalidName a)

def declaredName (space : Option String) (ms : Members) : Reading Name :=
  match ms.declaredName space with
  | .ok name => return name
  | .error f => fault f

/-! ### Shapes without parts -/

/-- The members that say nothing about the shape; `used` are the shape's own. -/
def Members.attributes (ms : Members) (used : List String) : Attributes :=
  ms.filter fun m => !(["type", "name", "namespace", "doc", "aliases"] ++ used).contains m.1

def nat? (v : Json) : Option Nat :=
  match v with
  | .number t => (Text.nat? t.toList).filter (· < UInt64.size)
  | _ => none

def readFixed (space : Option String) (ms : Members) : Reading Shape := do
  let size := ms.lookup "size"
  if size.isNone then
    if let some s ← seen? space "fixed" then return s
  let size ← orFault (size.bind nat?) .invalidSize
  if let some d := ms.text? "default" then
    if (Text.utf8 d).length ≠ size then fault .invalidFixedDefault
  let name ← declaredName space ms
  let aliases ← readAliases name ms
  let shape : Shape := .fixed ⟨name, size, ms.attributes ["size"]⟩
  modify fun s => s.finish name aliases shape
  return shape

/-- Symbols are identifiers, no two the same. -/
def checkSymbols : List String → Reading Unit
  | [] => return
  | s :: ss => do
    checkSymbols ss
    unless isIdentifier s.toList do fault (.invalidSymbol s)
    if ss.contains s then fault (.duplicateSymbol s)

def readEnumeration (space : Option String) (ms : Members) : Reading Shape := do
  let symbols := ms.lookup "symbols"
  if symbols.isNone then
    if let some s ← seen? space "enum" then return s
  let name ← declaredName space ms
  let aliases ← readAliases name ms
  let symbols ← orFault (symbols.bind Json.items?) .missingSymbols
  let symbols ← orFault (symbols.mapM Json.text?) .missingSymbols
  checkSymbols symbols
  let default := ms.text? "default"
  if (ms.lookup "default").isSome then
    unless default.any fun d => symbols.contains d do fault .invalidEnumDefault
  let shape : Shape := .enum ⟨name, symbols, default, ms.attributes ["symbols", "default"]⟩
  modify fun s => s.finish name aliases shape
  return shape

/-! ### Logical types -/

/-- What `logicalType` asks for, if it is known. -/
inductive Meaning where
  | decimal
  | logical (l : Logical)

def Meaning.ofName? (s : String) : Option Meaning :=
  if s = "decimal" then some .decimal else (Logical.ofName? s).map .logical

/-- A natural number of 64 bits; minus zero is one. -/
def digits? (v : Json) : Option Nat :=
  match v with
  | .number t => if t = "-0" then some 0 else nat? v
  | _ => none

/-- Precision and scale of a decimal. The precision is at least one and not less than the scale. -/
def precisionAndScale? (ms : Members) : Option (Nat × Nat) := do
  let precision ← digits? (← ms.lookup "precision")
  let scale ← match ms.lookup "scale" with
    | some v => digits? v
    | none => some 0
  if 1 ≤ precision ∧ scale ≤ precision then some (precision, scale) else none

/-- Whether data of a shape can have the meaning. -/
def Logical.fits (l : Logical) : Shape → Bool
  | .fixed f => l = .duration || (l = .uuid && f.size = 16)
  | .primitive p => l.base? = some p
  | _ => false

/-- Gives a shape a meaning; one that does not fit is ignored. -/
def Meaning.apply (a : Meaning) (ms : Members) (shape : Shape) : Shape :=
  match a with
  | .logical l => if l.fits shape then .logical l else shape
  | .decimal =>
    match precisionAndScale? ms, shape with
    | some (p, s), .primitive .bytes => .decimal p s none
    | some (p, s), .fixed f => .decimal p s (some f)
    | _, _ => shape

/-! ### Shapes with parts -/

theorem sizeOf_lt_of_lookup {ms : Members} {key : String} {v : Json}
    (h : ms.lookup key = some v) : sizeOf v < sizeOf ms := by
  have hm := List.sizeOf_lt_of_mem (Table.mem_of_lookup h)
  simp only [Prod.mk.sizeOf_spec] at hm
  omega

/-- Members of a field that have a meaning for it. -/
def Members.fieldAttributes (ms : Members) (shape : Shape) : Attributes :=
  let used := ["type", "name", "doc", "default", "order", "position", "aliases", "logicalType"] ++
    match shape with
    | .enum _ => ["symbols"]
    | .fixed _ => ["size"]
    | _ => []
  ms.filter fun m => !used.contains m.1

/-- The aliases of a field; entries that are no texts are skipped. -/
def Members.fieldAliases (ms : Members) : List String :=
  match (ms.lookup "aliases").bind Json.items? with
  | some xs => xs.filterMap Json.text?
  | none => []

/-- A field may not have the name or an alias of an earlier one. -/
def checkFields (taken : List String) : List Field → Reading Unit
  | [] => return
  | f :: fs => do
    if taken.contains f.name then fault (.duplicateField f.name)
    checkFields (f.name :: f.aliases ++ taken) fs

mutual

/-- The shape that a JSON value describes in a namespace. -/
def readShape (define : Json → Reading Shape) (space : Option String) (v : Json) : Reading Shape :=
  match v with
  | .string t => readName define space t
  | .object ms => readObject define space false ms
  | .array vs => do
    let branches ← readBranches define space vs
    if branches.any fun b => b.kind = .union then fault .nestedUnion
    unless Shape.areDistinct branches do fault .duplicateBranch
    return .union branches
  | _ => fault .notASchema
termination_by (sizeOf v, 0)

def readBranches (define : Json → Reading Shape) (space : Option String) (vs : List Json) :
    Reading (List Shape) :=
  match vs with
  | [] => return []
  | v :: vs => do
    let s ← readShape define space v
    let ss ← readBranches define space vs
    return s :: ss
termination_by (sizeOf vs, 0)

/-- Reads an object. A field is read as one too, but cannot itself be a record. -/
def readObject (define : Json → Reading Shape) (space : Option String) (isField : Bool)
    (ms : Members) : Reading Shape := do
  let meaning ← match ms.lookup "logicalType" with
    | none => pure none
    | some (.string s) => pure (Meaning.ofName? s)
    | some _ => fault .invalidLogicalType
  match meaning with
  | some a =>
    match _ : ms.lookup "type" with
    | none => fault .missingType
    | some (.string "fixed") => return a.apply ms (← readFixed space ms)
    | some v => return a.apply ms (← readShape define space v)
  | none =>
    match _ : ms.lookup "type" with
    | none => fault .missingType
    | some (.string "record") =>
      if isField then lookUp define space "record" else readRecord define space ms
    | some (.string "enum") => readEnumeration space ms
    | some (.string "fixed") => readFixed space ms
    | some (.string "array") =>
      match _ : ms.lookup "items" with
      | none => fault .missingItems
      | some v => do
        let items ← readShape define space v
        return .array items (ms.attributes ["items"])
    | some (.string "map") =>
      match _ : ms.lookup "values" with
      | none => fault .missingValues
      | some v => do
        let values ← readShape define space v
        return .map values (ms.attributes ["values"])
    | some v => readShape define space v
termination_by (sizeOf ms, 1)
decreasing_by
  · exact .left _ _ (sizeOf_lt_of_lookup ‹_›)
  · exact .right _ Nat.zero_lt_one
  · exact .left _ _ (sizeOf_lt_of_lookup ‹ms.lookup "items" = _›)
  · exact .left _ _ (sizeOf_lt_of_lookup ‹ms.lookup "values" = _›)
  · exact .left _ _ (sizeOf_lt_of_lookup ‹_›)

def readRecord (define : Json → Reading Shape) (space : Option String) (ms : Members) :
    Reading Shape := do
  match _ : ms.lookup "fields" with
  | none =>
    if let some s ← seen? space "record" then return s else fault .missingFields
  | some (.array vs) =>
    let name ← declaredName space ms
    let aliases ← readAliases name ms
    modify fun s => s.start name aliases
    let fields ← readFields define name.space vs
    checkFields [] (fields.map Prod.fst)
    let shape : Shape := .record name fields (ms.attributes ["fields"])
    modify fun s => s.finish name aliases shape
    return shape
  | some _ => fault .missingFields
termination_by (sizeOf ms, 0)
decreasing_by
  refine .left _ _ (Nat.lt_trans ?_ (sizeOf_lt_of_lookup ‹_›))
  simp

def readFields (define : Json → Reading Shape) (space : Option String) (vs : List Json) :
    Reading (List (Field × Shape)) :=
  match vs with
  | [] => return []
  | .object ms :: vs => do
    let f ← readField define space ms
    let fs ← readFields define space vs
    return f :: fs
  | _ :: vs => readFields define space vs
termination_by (sizeOf vs, 0)

def readField (define : Json → Reading Shape) (space : Option String) (ms : Members) :
    Reading (Field × Shape) := do
  let name ← orFault (ms.text? "name") .missingName
  unless isIdentifier name.toList do fault (.invalidFieldName name)
  let shape ← readObject define space true ms
  if let some d := ms.lookup "default" then
    unless Default.isDefault (← get).defined shape d do fault (.invalidDefault name)
  return (⟨name, ms.fieldAliases, ms.fieldAttributes shape, ms.lookup "default"⟩, shape)
termination_by (sizeOf ms, 2)

end

/-- Reads a definition. At most `depth` definitions are read one inside the other; a definition is
not pending while it is read, so as many as there are is enough. -/
def readDefinition : Nat → Json → Reading Shape
  | 0, _ => fault .notASchema
  | depth + 1, v => readShape (readDefinition depth) none v

def readPending (depth : Nat) : List Name → Reading Unit
  | [] => return
  | name :: names => do
    let scope ← get
    if let some v := scope.pending.get? name then
      set { scope with pending := scope.pending.erase name }
      let shape ← readDefinition depth v
      store name v shape
    readPending depth names

end SchemaRegistry.Avro
