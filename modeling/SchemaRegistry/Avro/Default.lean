import SchemaRegistry.Avro.Datum
import SchemaRegistry.Table

/-!
Which JSON values are defaults of which shapes.
-/

namespace SchemaRegistry.Avro

namespace Default

/-- How deep values and the shapes that take them nest at most. -/
def maxDepth : Nat := 10000

/-- The branch of a union that takes a value. A branch of the value's own kind that has no name
decides; else it is the first one that can take it. -/
def branch? (take? : Option String → Shape → Datum → Option Datum) (space : Option String)
    (branches : List Shape) (d : Datum) : Option Shape :=
  match branches.find? fun b => !b.kind.isNamed && b.kind = d.kind with
  | some b => some b
  | none => branches.find? fun b => (take? (b.space <|> space) b d).isSome

/-- What stands for a field that is missing. The first branch of a union takes the default. -/
def missing? (take? : Shape → Datum → Option Datum) (f : Field) (s : Shape) : Option Datum := do
  let v ← f.default
  match s with
  | .union (b :: _) =>
    if b.kind = .primitive .null then some (.union .null)
    else (take? b (← Datum.ofJson? v)).map .union
  | _ => Datum.ofJson? v

/-- The value that a shape makes of another one; its names stand in `names` or in the namespace
`space`. -/
def take? (names : Table Name Shape) : Nat → Option String → Shape → Datum → Option Datum
  | 0, _, _, _ => none
  | depth + 1, space, shape, d =>
    let take? := take? names depth
    match shape with
    | .primitive p => d.inner.toPrimitive? p
    | .logical l => d.inner.toLogical? l
    | .decimal precision _ base => d.inner.toDecimal? precision base
    | .enum e => (d.inner.toSymbol? e).map .enum
    | .fixed f => (d.inner.toFixed? f.size).map .fixed
    | .ref n => do
      let n := n.within space
      take? n.space (← names.get? n) d.inner
    | .array items _ =>
      match d.inner with
      | .array ds => (ds.mapM (take? space items)).map .array
      | _ => none
    | .map values _ =>
      match d.inner with
      | .map es => (es.mapM fun e => (take? space values e.2).map fun v => (e.1, v)).map .map
      | _ => none
    | .union branches => do
      let b ← branch? take? space branches d.inner
      return .union (← take? space b d.inner)
    | .record _ fields _ => do
      let es ← d.inner.entries?
      let es ← fields.mapM fun (f, s) => do
        let d ← match es.lookup f.name with
          | some d => some d
          | none => missing? (take? space) f s
        return (f.name, ← take? space s d)
      return .record es

/-- Whether a value is a default of a field with this shape: for a union, of any of its branches. -/
def isDefault (names : Table Name Shape) (shape : Shape) (v : Json) : Bool :=
  match Datum.ofJson? v with
  | none => false
  | some d =>
    match shape with
    | .union branches => branches.any fun b => (take? names maxDepth b.space b d).isSome
    | _ => (take? names maxDepth shape.space shape d).isSome

end Default

end SchemaRegistry.Avro
