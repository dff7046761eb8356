import SchemaRegistry.Json.Document

/-!
Records in JSON. A record is an object with a member for each field, in any order and among other
members, or an array of the fields in their order. A field that is left out is told apart from one
that is null.
-/

namespace SchemaRegistry.Json.Document

def text? : Document → Option String
  | .string t => t
  | _ => none

def bool? : Document → Option Bool
  | .bool b => some b
  | _ => none

def items? : Document → Option (List Document)
  | .array ds => some ds
  | _ => none

/-- The value of an integer literal. Minus zero is none, nor is a number with a point or exponent. -/
def integer? : Document → Option Int
  | .number t => if t = "-0" then none else Text.int? t.toList
  | _ => none

def int64? (d : Document) : Option Int64 := do Text.toInt64? (← d.integer?)

def int32? (d : Document) : Option Int32 := do Text.toInt32? (← d.integer?)

def uint32? (d : Document) : Option UInt32 := do Text.toUInt32? (← d.integer?)

/-- The only member with this key, if there is any; refuses two of them. -/
def onlyMember? (ms : List Member) (key : String) : Option (Option Document) :=
  match ms.filter fun m => m.1 = some key with
  | [] => some none
  | [m] => some (some m.2)
  | _ => none

/-- The fields with these names. The last ones of an array may be left out. -/
def fields? (names : List String) : Document → Option (List (Option Document))
  | .object ms => if ms.all fun m => m.1.isSome then names.mapM (onlyMember? ms) else none
  | .array ds =>
    if ds.length ≤ names.length then
      some (ds.map some ++ List.replicate (names.length - ds.length) none)
    else none
  | _ => none

def required {α : Type} (read : Document → Option α) (field : Option Document) : Option α :=
  field.bind read

def optional {α : Type} (read : Document → Option α) (default : α) : Option Document → Option α
  | none => some default
  | some d => read d

end SchemaRegistry.Json.Document
