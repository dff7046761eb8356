import SchemaRegistry.Toml.Value

/-!
Tables in the making. A table can be extended as long as it stands only for the path to another
one: a header may complete a table that other headers implied, and dotted keys may add to tables
that dotted keys made. Everything else is written once.
-/

namespace SchemaRegistry.Toml

/-- How a table came about. -/
inductive Origin where
  /-- On the path of a header. -/
  | implied
  /-- On the path of a dotted key. -/
  | dotted
  /-- By its own header. -/
  | header
  deriving DecidableEq, Repr

inductive Node where
  | value (v : Value)
  | table (origin : Origin) (entries : List (String × Node))
  /-- An array of tables, the last one first. -/
  | tables (last : List (String × Node)) (before : List (List (String × Node)))

/-- The entries of a table, in the order in which they were made. -/
abbrev Entries := List (String × Node)

namespace Entries

/-- Puts an entry at the end, or in place of the one with its key. -/
def put (key : String) (n : Node) : Entries → Entries
  | [] => [(key, n)]
  | (k, m) :: es => if k = key then (key, n) :: es else (k, m) :: put key n es

/-- Changes the table at the end of a path. Tables that are missing are made with `made`; the path
goes through the last table of an array. -/
def at? (made : Origin) (change : Origin → Entries → Option Entries) :
    Origin → List String → Entries → Option Entries
  | origin, [], es => change origin es
  | _, key :: path, es =>
    match es.lookup key with
    | none => do return es.put key (.table made (← at? made change made path []))
    | some (.value _) => none
    | some (.tables last before) => do
      return es.put key (.tables (← at? made change .header path last) before)
    | some (.table origin inner) =>
      if made = .dotted ∧ origin = .header then none
      else do return es.put key (.table origin (← at? made change origin path inner))

/-- Adds a value. A dotted key ends in a table that dotted keys made. -/
def addValue? (path : List String) (key : String) (v : Value) (es : Entries) : Option Entries :=
  at? .dotted
    (fun origin es =>
      if (¬ path.isEmpty ∧ origin ≠ .dotted) ∨ (es.lookup key).isSome then none
      else some (es.put key (.value v)))
    .header path es

def without (key : String) (es : Entries) : Entries := es.filter fun e => e.1 ≠ key

/-- Opens a table with a header: one that is new, or that other headers implied. Either way it comes
last: a table that its header completes moves behind the others. -/
def openTable? (path : List String) (key : String) (es : Entries) : Option Entries :=
  at? .implied
    (fun _ es =>
      match es.lookup key with
      | none => some (es.put key (.table .header []))
      | some (.table .implied inner) => some ((es.without key).put key (.table .header inner))
      | _ => none)
    .header path es

/-- Opens the next table of an array of tables. -/
def openArray? (path : List String) (key : String) (es : Entries) : Option Entries :=
  at? .implied
    (fun _ es =>
      match es.lookup key with
      | none => some (es.put key (.tables [] []))
      | some (.tables last before) => some (es.put key (.tables [] (last :: before)))
      | _ => none)
    .header path es

/-- Adds a value to the table that the last header opened; `path` leads there. -/
def addBelow? (opened : List String) (path : List String) (key : String) (v : Value) (es : Entries) :
    Option Entries :=
  at? .implied (fun _ es => es.addValue? path key v) .header opened es

end Entries

mutual

def Node.toValue? : Node → Option Value
  | .value v => some v
  | .table _ es => do Value.ofEntries? (← entriesToValues? es)
  | .tables last before => do
    let v ← Value.ofEntries? (← entriesToValues? last)
    return .array (← tablesToValues? before [v])

def entriesToValues? : List (String × Node) → Option (List (String × Value))
  | [] => some []
  | (k, n) :: es => do return (k, ← n.toValue?) :: (← entriesToValues? es)

/-- The tables of an array in order; `later` follow. -/
def tablesToValues? : List (List (String × Node)) → List Value → Option (List Value)
  | [], later => some later
  | es :: before, later => do
    let v ← Value.ofEntries? (← entriesToValues? es)
    tablesToValues? before (v :: later)

end

def Entries.toValue? (es : Entries) : Option Value := do Value.ofEntries? (← entriesToValues? es)

end SchemaRegistry.Toml
