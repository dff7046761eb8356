import SchemaRegistry.Client

/-!
The depth-first walk over the references of a schema. It keeps the keys on its path and fails when
one is entered again, so it ends in every registry; reaching a version along two paths is no cycle.
A reference is visited after everything that its target references. What it visits gives the texts
that a schema depends on, by the names under which schemas reference them.
-/

namespace SchemaRegistry

/-- What a walk did: the versions it asked for and the references it visited, both in order. -/
structure Walk where
  asked : List Key := []
  visits : List (Reference × Registered) := []
  outcome : Except Error Unit := .ok ()

namespace Walk

def stop (e : Error) : Walk := { outcome := .error e }

/-- The walk `w` with `k` asked for before everything else. -/
def ask (k : Key) (w : Walk) : Walk := { w with asked := k :: w.asked }

/-- Visits a reference after the walk below it, then goes on; a walk that failed stays as it is. -/
def visit (below : Walk) (v : Reference × Registered) (after : Unit → Walk) : Walk :=
  match below.outcome with
  | .error _ => below
  | .ok _ =>
    let rest := after ()
    { asked := below.asked ++ rest.asked
      visits := below.visits ++ v :: rest.visits
      outcome := rest.outcome }

end Walk

namespace Client

/-- Registered keys that are not on a path. -/
def offPath (c : Client) (path : List Key) : List Key := c.registry.keys.filter fun k => k ∉ path

theorem length_offPath_lt {c : Client} {path : List Key} {k : Key} (hk : k ∈ c.registry.keys)
    (hp : k ∉ path) : (c.offPath (k :: path)).length < (c.offPath path).length := by
  unfold offPath
  have h : (c.registry.keys.filter fun a => a ∉ k :: path) =
      (c.registry.keys.filter fun a => a ∉ path).filter fun a => a ≠ k := by
    rw [List.filter_filter]
    congr 1
    funext a
    simp
  rw [h]
  refine List.length_filter_lt_length_iff_exists.mpr ⟨k, ?_, by simp⟩
  simp [hk, hp]

/-- Walks over references whose path from the root is `path`. -/
def walk (c : Client) (path : List Key) : List Reference → Walk
  | [] => {}
  | r :: rs =>
    if _ : r.key ∈ path then .stop (.cyclicReference r.key)
    else
      match _ : c.answer r.key with
      | .error e => .ask r.key (.stop (.registry e))
      | .ok m =>
        .ask r.key
          (.visit (c.walk (r.key :: path) m.schema.references) (r, m) fun _ => c.walk path rs)
termination_by rs => ((c.offPath path).length, rs.length)
decreasing_by
  · next hp hm => exact Prod.Lex.left _ _ (length_offPath_lt (mem_keys_of_answer hm) hp)
  · exact Prod.Lex.right _ (by simp)

/-- Walks over everything that a schema references, directly or through others. -/
def walkFrom (c : Client) (s : Schema) : Walk := c.walk [] s.references

end Client

/-- Texts by reference name, and the names in the order in which they were first resolved. The two are
kept apart and written one after the other. -/
@[ext] structure Sources where
  names : List String := []
  texts : Table String String := .empty
  deriving DecidableEq, Repr

namespace Sources

def empty : Sources := {}

/-- A repeated name keeps its place and takes the newer text. -/
def insert (m : Sources) (name text : String) : Sources :=
  let names := if m.texts.contains name then m.names else m.names ++ [name]
  { names, texts := m.texts.insert name text }

def get? (m : Sources) (name : String) : Option String := m.texts.get? name

def contains (m : Sources) (name : String) : Bool := m.texts.contains name

def size (m : Sources) : Nat := m.names.length

def isEmpty (m : Sources) : Bool := m.names.isEmpty

/-- Each name with its text, in order. -/
def entries (m : Sources) : List (String × String) :=
  m.names.filterMap fun name => (m.get? name).map fun text => (name, text)

def add (m : Sources) (v : Reference × Registered) : Sources := m.insert v.1.name v.2.schema.text

def addAll (m : Sources) (vs : List (Reference × Registered)) : Sources := vs.foldl add m

/-- Resolves into a map that is there. When a step fails the map keeps what was added before it. -/
def resolveInto (s : Schema) (m : Sources) : StateM Client (Except Error Unit × Sources) :=
  fun c =>
    let w := c.walkFrom s
    ((w.outcome, m.addAll w.visits), c.askedFor w.asked)

/-- Resolves into a fresh map, which is given only when every step succeeds. -/
def resolve (s : Schema) : Session Sources := fun c =>
  let ((outcome, m), c') := resolveInto s .empty c
  (outcome.map fun _ => m, c')

end Sources

end SchemaRegistry
