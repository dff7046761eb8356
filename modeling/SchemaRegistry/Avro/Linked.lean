import SchemaRegistry.Avro.Link
import SchemaRegistry.Avro.Canonical
import SchemaRegistry.Reference.Walk

/-!
An AVRO schema with the schemas that it references. Every referenced version is one definition,
after the definitions of what it references itself; the schema is read against all of them.
-/

namespace SchemaRegistry.Avro

structure Linked where
  /-- The referenced schemas, dependencies first. -/
  dependencies : List Shape
  root : Shape
  deriving Repr

namespace Linked

/-- All shapes, the root last. -/
def all (l : Linked) : List Shape := l.dependencies ++ [l.root]

def dependencyNames (l : Linked) : List String :=
  l.dependencies.filterMap fun s => s.name?.map Name.full

end Linked

def parseJson (text : String) : Except Error Json :=
  match Json.parse? text with
  | some v => .ok v
  | none => .error (.avro .notJson)

/-- A definition is an object with a name. -/
def parseDefinition (text : String) : Except Error (Name × Json) := do
  match ← parseJson text with
  | .object ms =>
    match Members.definitionName ms with
    | .ok name => return (name, .object ms)
    | .error f => throw (.avro f)
  | _ => throw (.avro .definitionWithoutName)

/-- Definitions by name; no name may have two. -/
def parseDefinitions (found : Table Name Json) : List String → Except Error (Table Name Json)
  | [] => return found
  | text :: texts => do
    let (name, v) ← parseDefinition text
    if found.contains name then throw (.avro (.duplicateDefinition name.full))
    parseDefinitions (found.insert name v) texts

def readAll (names : List Name) (root : String) : Reading Linked := do
  let depth := names.length
  readPending depth names
  let v ← (parseJson root : Except Error Json)
  let shape ← readShape (readDefinition depth) none v
  let scope ← get
  let dependencies ← names.mapM fun n => orFault (scope.defined.get? n) .definitionWithoutName
  return ⟨dependencies, shape⟩

def link (root : String) (definitions : List String) : Except Error Linked := do
  let found ← parseDefinitions .empty definitions
  let (linked, _) ← (readAll found.keys root).run { pending := found }
  return linked

/-! ### Referenced definitions -/

/-- What a walk visited, each version where it came first. -/
def firstVisits (seen : List Key) : List (Reference × Registered) → List Registered
  | [] => []
  | (_, m) :: vs =>
    if m.key ∈ seen then firstVisits seen vs else m :: firstVisits (m.key :: seen) vs

/-- The texts of everything that a walk visited, each version once. -/
def definitions (vs : List (Reference × Registered)) : List String :=
  (firstVisits [] vs).map fun m => m.schema.text

/-- Fetches everything that a schema references and reads the schema against it. -/
def resolve (s : Schema) : Session Linked := fun c =>
  let w := c.walkFrom s
  (w.outcome.bind fun _ => link s.text (definitions w.visits), c.askedFor w.asked)

end SchemaRegistry.Avro
