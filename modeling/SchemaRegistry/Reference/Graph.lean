import SchemaRegistry.Reference.Walk

/-!
The graph of everything that a schema references. Building it follows each version once and does
not fail on cycles.
-/

namespace SchemaRegistry

/-- The schema asked about, or a version that it reaches. -/
inductive Vertex where
  | root
  | version (key : Key)
  deriving DecidableEq, Repr

/-- Each schema has an edge to each schema that it references, one for every reference. -/
structure Graph where
  /-- The versions reached, with their IDs, in the order found. -/
  versions : Table Key UInt32 := .empty
  /-- Source and target of each edge, the newest edge first. -/
  edges : List (Vertex × Vertex) := []
  deriving Repr

namespace Vertex

def label : Vertex → String
  | .root => "<root>"
  | .version k => k.label

/-- The subject and version that stand for a vertex in an error. -/
def key : Vertex → Key
  | .root => ⟨"", 0⟩
  | .version k => k

end Vertex

namespace Graph

def vertices (g : Graph) : List Vertex := .root :: g.versions.keys.map .version

def dependencyCount (g : Graph) : Nat := g.versions.size

def contains (g : Graph) (k : Key) : Bool := g.versions.contains k

def id? (g : Graph) : Vertex → Option UInt32
  | .root => none
  | .version k => g.versions.get? k

/-- Targets of the edges from a vertex, newest edge first. -/
def successors (g : Graph) (v : Vertex) : List Vertex :=
  g.edges.filterMap fun e => if e.1 = v then some e.2 else none

/-- Sources of the edges to a vertex, newest edge first. -/
def predecessors (g : Graph) (v : Vertex) : List Vertex :=
  g.edges.filterMap fun e => if e.2 = v then some e.1 else none

def dependencies (g : Graph) (k : Key) : List Vertex :=
  if g.contains k then g.successors (.version k) else []

def dependents (g : Graph) (k : Key) : List Vertex :=
  if g.contains k then g.predecessors (.version k) else []

/-! ### Building -/

/-- A graph in progress: the schemas that are still to be expanded, the last found first, and the
versions asked for, the last one first. -/
structure Building where
  graph : Graph := {}
  pending : List (Vertex × Schema) := []
  asked : List Key := []

namespace Building

/-- Registered keys that the graph does not have yet. -/
def unseen (b : Building) (c : Client) : List Key := c.offPath b.graph.versions.keys

def addEdge (b : Building) (source target : Vertex) : Building :=
  { b with graph := { b.graph with edges := (source, target) :: b.graph.edges } }

/-- Adds a version that was fetched and leaves its schema for later. -/
def addVersion (b : Building) (k : Key) (m : Registered) : Building :=
  { b with
    graph := { b.graph with versions := b.graph.versions.insert k m.id }
    pending := (.version k, m.schema) :: b.pending }

def ask (b : Building) (k : Key) : Building := { b with asked := k :: b.asked }

/-- Adds the edges of a vertex, fetching what is new. -/
def expand (c : Client) (source : Vertex) (b : Building) : List Reference → Building × Option Error
  | [] => (b, none)
  | r :: rs =>
    if r.key ∈ b.graph.versions.keys then expand c source (b.addEdge source (.version r.key)) rs
    else
      match c.answer r.key with
      | .error e => (b.ask r.key, some (.registry e))
      | .ok m =>
        expand c source (((b.ask r.key).addVersion r.key m).addEdge source (.version r.key)) rs

/-- How much work is left at most. -/
def size (b : Building) (c : Client) : Nat := (b.unseen c).length + b.pending.length

theorem size_addVersion_le {c : Client} {b : Building} {k : Key} {m : Registered}
    (hk : k ∈ c.registry.keys) (hb : k ∉ b.graph.versions.keys) :
    (b.addVersion k m).size c ≤ b.size c := by
  have hkeys : (b.addVersion k m).graph.versions.keys = b.graph.versions.keys ++ [k] := by
    simp [addVersion, Table.keys_insert, hb]
  have h := Client.length_offPath_lt hk hb
  have e : (b.addVersion k m).unseen c = c.offPath (k :: b.graph.versions.keys) := by
    unfold unseen Client.offPath
    rw [hkeys]
    congr 1
    funext a
    simp [or_comm]
  unfold size
  rw [e]
  have hp : (b.addVersion k m).pending.length = b.pending.length + 1 := rfl
  have hu : b.unseen c = c.offPath b.graph.versions.keys := rfl
  rw [hp, hu]
  omega

theorem size_expand_le (c : Client) (source : Vertex) (b : Building) (rs : List Reference) :
    (expand c source b rs).1.size c ≤ b.size c := by
  induction rs generalizing b with
  | nil => exact Nat.le_refl _
  | cons r rs ih =>
    unfold expand
    split
    · exact ih _
    · next hb =>
      split
      · exact Nat.le_refl _
      · next m hm =>
        refine Nat.le_trans (ih _) ?_
        have := @size_addVersion_le c (b.ask r.key) r.key m (Client.mem_keys_of_answer hm) hb
        exact this

/-- Expands what is pending, the last found first. -/
def run (c : Client) (b : Building) : Building × Except Error Unit :=
  match _ : b.pending with
  | [] => (b, .ok ())
  | (v, s) :: rest =>
    match _ : expand c v { b with pending := rest } s.references with
    | (b', some e) => (b', .error e)
    | (b', none) => run c b'
termination_by b.size c
decreasing_by
  have h := size_expand_le c v { b with pending := rest } s.references
  rw [‹expand c v _ _ = _›] at h
  have hs : Building.size { b with pending := rest } c < b.size c := by
    unfold size
    rw [‹b.pending = _›]
    exact Nat.lt_succ_self _
  exact Nat.lt_of_le_of_lt h hs

end Building

/-- Fetches every version that a schema reaches, each once. -/
def build (s : Schema) : Session Graph := fun c =>
  let (b, outcome) := Building.run c { pending := [(.root, s)] }
  (outcome.map fun _ => b.graph, c.askedFor b.asked.reverse)

end Graph

end SchemaRegistry
