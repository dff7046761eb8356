import SchemaRegistry.Proofs.Reference.Walk

/-!
The references of a schema, unfolded into trees. A walk succeeds if there are such trees, and then
it goes through them once: it asks for versions in pre-order and visits references in post-order,
so that a reference is visited after all references of its target.
-/

namespace SchemaRegistry

open Relation

/-- A reference with the version that it leads to, over the references of that version. -/
inductive Unfolding where
  | node (visit : Reference × Registered) (below : List Unfolding)

namespace Unfolding

mutual

/-- A node before what is below it. -/
def preorderOf : Unfolding → List (Reference × Registered)
  | node v below => v :: preorder below

def preorder : List Unfolding → List (Reference × Registered)
  | [] => []
  | t :: after => preorderOf t ++ preorder after

end

mutual

/-- A node after what is below it. -/
def postorderOf : Unfolding → List (Reference × Registered)
  | node v below => postorder below ++ [v]

def postorder : List Unfolding → List (Reference × Registered)
  | [] => []
  | t :: after => postorderOf t ++ postorder after

end

variable (v : Reference × Registered) (below after : List Unfolding)

@[simp] lemma preorder_nil : preorder [] = [] := rfl

@[simp] lemma preorder_cons :
    preorder (node v below :: after) = v :: (preorder below ++ preorder after) := rfl

@[simp] lemma postorder_nil : postorder [] = [] := rfl

@[simp] lemma postorder_cons :
    postorder (node v below :: after) = postorder below ++ v :: postorder after := by
  simp [postorder, postorderOf]

end Unfolding

open Unfolding

/-- The trees that unfold references: one for each of them, in order. -/
inductive Unfolds (fetch : Key → Except RegistryError Registered) :
    List Reference → List Unfolding → Prop where
  | nil : Unfolds fetch [] []
  | cons {r : Reference} {m : Registered} {rs : List Reference} {below after : List Unfolding}
      (hm : fetch r.key = .ok m) (hbelow : Unfolds fetch m.schema.references below)
      (hafter : Unfolds fetch rs after) : Unfolds fetch (r :: rs) (.node (r, m) below :: after)

/-- Every visit comes after visits of all references of its target. -/
def DependenciesFirst (vs : List (Reference × Registered)) : Prop :=
  ∀ before v after, vs = before ++ v :: after → v.2.schema.references ⊆ before.map Prod.fst

/-- A visit may stand between visits, if the references of its target were all visited before. -/
lemma DependenciesFirst.insert {below after : List (Reference × Registered)}
    {v : Reference × Registered} (hbelow : DependenciesFirst below)
    (hv : v.2.schema.references ⊆ below.map Prod.fst) (hafter : DependenciesFirst after) :
    DependenciesFirst (below ++ v :: after) := by
  intro before u rest h
  rcases List.append_eq_append_iff.mp h with ⟨l, rfl, hl⟩ | ⟨l, rfl, hl⟩
  · rcases List.cons_eq_append_iff.mp hl with ⟨rfl, hl⟩ | ⟨l', rfl, rfl⟩
    · cases hl
      simpa using hv
    · refine List.Subset.trans (hafter l' u rest rfl) ?_
      simp
  · rcases List.cons_eq_append_iff.mp hl with ⟨rfl, hl⟩ | ⟨l', rfl, hl⟩
    · cases hl
      simpa using hv
    · exact hbelow before u l' rfl

lemma DependenciesFirst.subset {vs : List (Reference × Registered)} (h : DependenciesFirst vs)
    {v : Reference × Registered} (hv : v ∈ vs) : v.2.schema.references ⊆ vs.map Prod.fst := by
  obtain ⟨before, after, rfl⟩ := List.append_of_mem hv
  refine List.Subset.trans (h before v after rfl) ?_
  rw [List.map_append]
  exact List.subset_append_left _ _

lemma DependenciesFirst.idxOf_lt {β : Type} [DecidableEq β] {vs : List (Reference × Registered)}
    (h : DependenciesFirst vs) {f : Reference → β} {b : β} {v : Reference × Registered}
    (hv : vs.find? (fun v => f v.1 = b) = some v) {r : Reference} (hr : r ∈ v.2.schema.references) :
    (vs.map fun v => f v.1).idxOf (f r) < (vs.map fun v => f v.1).idxOf b := by
  obtain ⟨hb, before, after, rfl, hfirst⟩ := List.find?_eq_some_iff_append.mp hv
  have hmem : f r ∈ before.map fun v => f v.1 := by
    obtain ⟨u, hu, rfl⟩ := List.mem_map.mp (h before v after rfl hr)
    exact List.mem_map_of_mem hu
  have hnot : b ∉ before.map fun v => f v.1 := by
    intro hmem
    obtain ⟨u, hu, rfl⟩ := List.mem_map.mp hmem
    simpa using hfirst u hu
  rw [List.map_append, List.idxOf_append_of_mem hmem, List.idxOf_append_of_notMem hnot]
  exact Nat.lt_add_right _ (List.idxOf_lt_length_iff.mpr hmem)

namespace Unfolds

variable {fetch : Key → Except RegistryError Registered} {rs : List Reference}
  {ts ts' : List Unfolding}

lemma unique (h : Unfolds fetch rs ts) (h' : Unfolds fetch rs ts') : ts' = ts := by
  induction h generalizing ts' with
  | nil =>
    cases h'
    rfl
  | cons hm _ _ ihbelow ihafter =>
    cases h' with
    | cons hm' hbelow hafter =>
      cases hm.symm.trans hm'
      rw [ihbelow hbelow, ihafter hafter]

lemma fetched (h : Unfolds fetch rs ts) : ∀ v ∈ preorder ts, fetch v.1.key = .ok v.2 := by
  induction h with
  | nil => simp
  | cons hm _ _ ihbelow ihafter =>
    intro v hv
    rw [preorder_cons, List.mem_cons, List.mem_append] at hv
    rcases hv with rfl | hv | hv
    · exact hm
    · exact ihbelow v hv
    · exact ihafter v hv

lemma not_cyclic (h : Unfolds fetch rs ts) {k : Key} (hk : Reaches fetch rs k) :
    (∃ m, fetch k = .ok m) ∧ ¬ Cyclic fetch k := by
  induction h with
  | nil =>
    obtain ⟨r, hr, -⟩ := hk
    cases hr
  | @cons r m rs _ _ hm _ _ ihbelow ihafter =>
    obtain ⟨r', hr', hpath⟩ := hk
    rcases List.mem_cons.mp hr' with rfl | hr'
    · have hbelow : ∀ {k'}, TransGen (References fetch) r'.key k' →
          Reaches fetch m.schema.references k' := by
        intro k' hk'
        obtain ⟨_, ⟨m', hm', r'', hr'', rfl⟩, hrest⟩ := TransGen.head'_iff.mp hk'
        cases hm.symm.trans hm'
        exact ⟨r'', hr'', hrest⟩
      rcases reflTransGen_iff_eq_or_transGen.mp hpath with rfl | hpath
      · exact ⟨⟨m, hm⟩, fun hc => (ihbelow (hbelow hc)).2 hc⟩
      · exact ihbelow (hbelow hpath)
    · exact ihafter ⟨r', hr', hpath⟩

lemma dependenciesFirst (h : Unfolds fetch rs ts) :
    rs ⊆ (postorder ts).map Prod.fst ∧ DependenciesFirst (postorder ts) := by
  induction h with
  | nil => exact ⟨List.nil_subset _, fun before v after h => by simp at h⟩
  | @cons r m rs below after hm _ _ ihbelow ihafter =>
    rw [postorder_cons]
    refine ⟨?_, ihbelow.2.insert ihbelow.1 ihafter.2⟩
    rw [List.map_append, List.map_cons]
    refine List.cons_subset.mpr ⟨by simp, List.Subset.trans ihafter.1 ?_⟩
    exact List.subset_append_of_subset_right _ (List.subset_cons_self _ _)

end Unfolds

namespace Client

variable {c : Client} {path : List Key} {rs : List Reference} {s : Schema} {ts : List Unfolding}

lemma exists_unfolds (h : (c.walk path rs).outcome = .ok ()) :
    ∃ ts, Unfolds c.answer rs ts ∧
      c.walk path rs = ⟨(preorder ts).map fun v => v.1.key, postorder ts, .ok ()⟩ := by
  induction path, rs using walk.induct c with
  | case1 path => exact ⟨[], .nil, by simp⟩
  | case2 path r rs hp =>
    rw [walk_of_mem hp] at h
    cases h
  | case3 path r rs hp e he =>
    rw [walk_of_error hp he] at h
    cases h
  | case4 path r rs hp m hm ihbelow ihafter =>
    obtain ⟨-, ⟨m', hm', hbelow⟩, hafter⟩ := outcome_walk_cons_eq_ok_iff.mp h
    cases hm.symm.trans hm'
    obtain ⟨below, hubelow, hwbelow⟩ := ihbelow hbelow
    obtain ⟨after, huafter, hwafter⟩ := ihafter hafter
    refine ⟨.node (r, m) below :: after, .cons hm hubelow huafter, ?_⟩
    rw [walk_of_ok hp hm, Walk.visit_of_ok hbelow, hwbelow, hwafter]
    simp [Walk.ask]

/-- **What a walk goes through.** It succeeds if the references of the schema unfold into finitely
many nodes. -/
theorem outcome_walkFrom_eq_ok_iff_unfolds (c : Client) (s : Schema) :
    (c.walkFrom s).outcome = .ok () ↔ ∃ ts, Unfolds c.answer s.references ts := by
  constructor
  · intro h
    obtain ⟨ts, hts, -⟩ := exists_unfolds h
    exact ⟨ts, hts⟩
  · rintro ⟨ts, hts⟩
    exact (c.outcome_walkFrom_eq_ok_iff s).mpr fun k hk => hts.not_cyclic hk

/-- It asks for the nodes in pre-order and visits them in post-order. -/
lemma walkFrom_of_unfolds (h : Unfolds c.answer s.references ts) :
    c.walkFrom s = ⟨(preorder ts).map fun v => v.1.key, postorder ts, .ok ()⟩ := by
  obtain ⟨ts', hts', hwalk⟩ :=
    exists_unfolds ((c.outcome_walkFrom_eq_ok_iff_unfolds s).mpr ⟨ts, h⟩)
  cases h.unique hts'
  exact hwalk

end Client

end SchemaRegistry
