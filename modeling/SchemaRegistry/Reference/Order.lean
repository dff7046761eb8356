import SchemaRegistry.Reference.Graph

/-!
Cycles in a reference graph, and its vertices in an order where every schema comes after all that it
references.
-/

namespace SchemaRegistry.Graph

/-! ### Cycles -/

/-- The vertices of a set with a successor in the set. -/
def peel (g : Graph) (vs : List Vertex) : List Vertex :=
  vs.filter fun v => (g.successors v).any fun w => w ∈ vs

/-- What is left of a set after peeling it `n` times. -/
def core (g : Graph) : Nat → List Vertex → List Vertex
  | 0, vs => vs
  | n + 1, vs => core g n (g.peel vs)

/-- A finite graph has a cycle when peeling it once for each vertex leaves something over. -/
def hasCycle (g : Graph) : Bool := !(g.core g.vertices.length g.vertices).isEmpty

/-! ### Order -/

/-- A step of the depth-first search that is still due. -/
inductive Step where
  | enter (v : Vertex)
  | leave (v : Vertex)
  deriving DecidableEq, Repr

/-- The vertices in the order in which a depth-first search leaves them, behind the ones in `left`,
which are reversed. The oldest edge is followed first. A vertex with an edge to itself ends the
search when it is entered. -/
def search (g : Graph) (fresh : List Vertex) (steps : List Step) (left : List Vertex) :
    Except Vertex (List Vertex) :=
  match steps with
  | [] => .ok left.reverse
  | .leave v :: rest => search g fresh rest (v :: left)
  | .enter v :: rest =>
    if v ∈ fresh then
      if v ∈ g.successors v then .error v
      else search g (fresh.erase v)
        ((g.successors v).reverse.map .enter ++ .leave v :: rest) left
    else search g fresh rest left
termination_by (fresh.length, steps.length)
decreasing_by
  · exact Prod.Lex.right _ (by simp)
  · next h _ =>
    refine Prod.Lex.left _ _ ?_
    rw [List.length_erase_of_mem h]
    have := List.length_pos_of_mem h
    omega
  · exact Prod.Lex.right _ (by simp)

/-- Goes over an order from its end; `later` has come already. A vertex with a predecessor that has
not come breaks the order, and the one on its oldest edge is named. -/
def checkFrom (g : Graph) (later : List Vertex) : List Vertex → Except Vertex Unit
  | [] => .ok ()
  | v :: before =>
    match ((g.predecessors v).filter fun w => w ∉ v :: later).getLast? with
    | some w => .error w
    | none => checkFrom g (v :: later) before

/-- All vertices, every schema after what it references and the root last. -/
def order (g : Graph) : Except Vertex (List Vertex) := do
  let vs ← g.search g.vertices (g.vertices.map .enter) []
  g.checkFrom [] vs.reverse
  return vs

/-- The order, or the cycle that forbids it. -/
def resolutionOrder (g : Graph) : Except Error (List Vertex) :=
  g.order.mapError fun v => .cyclicReference v.key

end SchemaRegistry.Graph
