import Mathlib.Data.Fintype.Card
import Mathlib.Data.Set.Finite.Basic
import Mathlib.Order.WellFounded
import SchemaRegistry.Proofs.Reference.Graph
import SchemaRegistry.Reference.Order

/-!
Cycles and the order of the vertices. Peeling a graph leaves something over if the graph has a
cycle, and its vertices have an order if it has none.
-/

namespace SchemaRegistry.Graph

open Relation

variable {g : Graph} {v w : Vertex} {vs fresh : List Vertex}

lemma edge_iff : g.Edge v w ↔ (v, w) ∈ g.edges := by
  simp [Edge, successors]

lemma mem_predecessors : w ∈ g.predecessors v ↔ g.Edge w v := by
  simp [edge_iff, predecessors]

/-- Edges join vertices of the graph, and no vertex is listed twice. -/
structure WellFormed (g : Graph) : Prop where
  source : ∀ {v w}, g.Edge v w → v ∈ g.vertices
  target : ∀ {v w}, g.Edge v w → w ∈ g.vertices
  nodup : g.vertices.Nodup

lemma Traces.wellFormed {c : Client} {s : Schema} (h : Traces c s g) : g.WellFormed where
  source := by
    intro v w e
    by_contra hv
    rw [Edge, h.outside v hv] at e
    cases e
  target := by
    intro v w e
    obtain ⟨k, rfl, hk⟩ := h.edge_target e
    exact version_mem_vertices.mpr hk
  nodup := by
    have hinj : Function.Injective Vertex.version := fun _ _ e => Vertex.version.inj e
    simp [vertices, h.nodup.map hinj]

/-! ### Peeling -/

lemma mem_peel : v ∈ g.peel vs ↔ v ∈ vs ∧ ∃ w ∈ vs, g.Edge v w := by
  simp [peel, Edge, and_comm]

/-- Peeling leaves the vertices that always have a successor among them. -/
lemma mem_core_of_persistent {p : Vertex → Prop} (h : ∀ v, p v → ∃ w, p w ∧ g.Edge v w)
    (hvs : ∀ v, p v → v ∈ vs) (n : ℕ) (hv : p v) : v ∈ g.core n vs := by
  induction n generalizing vs with
  | zero => exact hvs v hv
  | succ n ih =>
    refine ih fun u hu => mem_peel.mpr ⟨hvs u hu, ?_⟩
    obtain ⟨w, hw, e⟩ := h u hu
    exact ⟨w, hvs w hw, e⟩

lemma core_of_peel_eq (h : g.peel vs = vs) (n : ℕ) : g.core n vs = vs := by
  induction n with
  | zero => rfl
  | succ n ih => rw [core, h, ih]

lemma peel_core {n : ℕ} (hn : vs.length ≤ n) : g.peel (g.core n vs) = g.core n vs := by
  induction n generalizing vs with
  | zero =>
    obtain rfl := List.length_eq_zero_iff.mp (Nat.le_zero.mp hn)
    rfl
  | succ n ih =>
    by_cases h : g.peel vs = vs
    · rw [core_of_peel_eq h, h]
    · refine ih ?_
      have hsub : (g.peel vs).Sublist vs := List.filter_sublist
      have hlt : (g.peel vs).length ≠ vs.length := fun e => h (hsub.eq_of_length e)
      have := hsub.length_le
      omega

lemma exists_cycle_of_persistent {us : List Vertex} (hne : us ≠ [])
    (h : ∀ v ∈ us, ∃ w ∈ us, g.Edge v w) : ∃ v, TransGen g.Edge v v := by
  -- without a cycle paths would order the set, and its least element would have no successor
  by_contra hacyclic
  let r : {v // v ∈ us} → {v // v ∈ us} → Prop := fun w v => TransGen g.Edge v w
  have htrans : IsTrans _ r := ⟨fun a b c hab hbc => TransGen.trans hbc hab⟩
  have hirrefl : Std.Irrefl r := ⟨fun a ha => hacyclic ⟨a, ha⟩⟩
  have hfinite : Finite {v // v ∈ us} := us.finite_toSet
  have hwf : WellFounded r := Finite.wellFounded_of_trans_of_irrefl r
  obtain ⟨u, hu⟩ := List.exists_mem_of_ne_nil us hne
  obtain ⟨v, -, hv⟩ := hwf.has_min Set.univ ⟨⟨u, hu⟩, trivial⟩
  obtain ⟨w, hw, e⟩ := h v v.2
  exact hv ⟨w, hw⟩ trivial (.single e)

/-- **When a graph has a cycle.** What is left of it after peeling tells. -/
theorem hasCycle_iff (hg : g.WellFormed) : g.hasCycle = true ↔ ∃ v, TransGen g.Edge v v := by
  have hcore : g.hasCycle = true ↔ g.core g.vertices.length g.vertices ≠ [] := by
    simp [hasCycle]
  rw [hcore]
  constructor
  · intro hne
    refine exists_cycle_of_persistent hne fun v hv => ?_
    rw [← peel_core le_rfl] at hv
    exact (mem_peel.mp hv).2
  · rintro ⟨v, hv⟩
    have hpersistent : ∀ u, TransGen g.Edge u u → ∃ w, TransGen g.Edge w w ∧ g.Edge u w := by
      intro u hu
      obtain ⟨w, e, hback⟩ := TransGen.head'_iff.mp hu
      exact ⟨w, .tail' hback e, e⟩
    have hvertices : ∀ u, TransGen g.Edge u u → u ∈ g.vertices := by
      intro u hu
      obtain ⟨w, e, -⟩ := TransGen.head'_iff.mp hu
      exact hg.source e
    exact List.ne_nil_of_mem (mem_core_of_persistent hpersistent hvertices _ hv)

lemma hasCycle_eq_false_iff (hg : g.WellFormed) :
    g.hasCycle = false ↔ ¬ ∃ v, TransGen g.Edge v v := by
  rw [Bool.eq_false_iff, ne_eq, hasCycle_iff hg]

/-! ### Searching -/

@[simp] lemma search_nil (g : Graph) (fresh left : List Vertex) :
    g.search fresh [] left = .ok left.reverse := by
  rw [search]

lemma search_leave (g : Graph) (fresh : List Vertex) (v : Vertex) (rest : List Step)
    (left : List Vertex) :
    g.search fresh (.leave v :: rest) left = g.search fresh rest (v :: left) := by
  rw [search]

lemma search_enter_of_notMem {rest : List Step} {left : List Vertex} (hv : v ∉ fresh) :
    g.search fresh (.enter v :: rest) left = g.search fresh rest left := by
  rw [search, if_neg hv]

lemma search_enter_of_loop {rest : List Step} {left : List Vertex} (hv : v ∈ fresh)
    (e : g.Edge v v) : g.search fresh (.enter v :: rest) left = .error v := by
  have hloop : v ∈ g.successors v := e
  rw [search, if_pos hv, if_pos hloop]

lemma search_enter {rest : List Step} {left : List Vertex} (hv : v ∈ fresh) (e : ¬ g.Edge v v) :
    g.search fresh (.enter v :: rest) left = g.search (fresh.erase v)
      ((g.successors v).reverse.map .enter ++ .leave v :: rest) left := by
  have hloop : v ∉ g.successors v := e
  rw [search, if_pos hv, if_neg hloop]

/-- Entering `vs` one by one leaves the vertices `new`, the last one first. -/
structure Leaves (g : Graph) (fresh vs new : List Vertex) : Prop where
  sub : ∀ v ∈ new, v ∈ fresh
  nodup : new.Nodup
  entered : ∀ v ∈ vs, v ∈ fresh → v ∈ new
  closed : ∀ v ∈ new, ∀ w, g.Edge v w → w ∈ fresh → w ∈ new
  reached : ∀ w ∈ new, ∃ v ∈ vs, ReflTransGen g.Edge v w
  loopless : ∀ v ∈ new, ¬ g.Edge v v
  /-- An edge that does not lead to a vertex left before closes a cycle. -/
  ordered : new.Pairwise fun v w => g.Edge w v → ReflTransGen g.Edge v w

lemma Leaves.nil (g : Graph) (fresh : List Vertex) : g.Leaves fresh [] [] := by
  constructor <;> simp

lemma Leaves.cons_of_notMem {new : List Vertex} (hv : v ∉ fresh) (h : g.Leaves fresh vs new) :
    g.Leaves fresh (v :: vs) new where
  __ := h
  entered := by
    intro u hu hfresh
    rcases List.mem_cons.mp hu with rfl | hu
    · exact absurd hfresh hv
    · exact h.entered u hu hfresh
  reached := by
    intro w hw
    obtain ⟨u, hu, huw⟩ := h.reached w hw
    exact ⟨u, List.mem_cons_of_mem _ hu, huw⟩

lemma Leaves.cons {below after : List Vertex} (hnodup : fresh.Nodup) (hv : v ∈ fresh)
    (hloop : ¬ g.Edge v v) (hbelow : g.Leaves (fresh.erase v) (g.successors v).reverse below)
    (hafter : g.Leaves ((fresh.erase v).filter (· ∉ below)) vs after) :
    g.Leaves fresh (v :: vs) (after ++ v :: below) := by
  have herase : ∀ {u}, u ∈ fresh.erase v ↔ u ≠ v ∧ u ∈ fresh := hnodup.mem_erase_iff
  have hrest : ∀ {u}, u ∈ (fresh.erase v).filter (· ∉ below) ↔ (u ≠ v ∧ u ∈ fresh) ∧ u ∉ below := by
    intro u
    rw [List.mem_filter, herase, decide_eq_true_eq]
  have hsucc : ∀ {w}, g.Edge v w → w ∈ fresh → w ∈ below := by
    intro w e hw
    have hne : w ≠ v := by
      rintro rfl
      exact hloop e
    exact hbelow.entered w (List.mem_reverse.mpr e) (herase.mpr ⟨hne, hw⟩)
  -- a vertex that is left later was not left below `v`, so no edge leads to it from there
  have hnoedge : ∀ u ∈ after, ∀ w ∈ v :: below, ¬ g.Edge w u := by
    intro u hu w hw e
    obtain ⟨hfresh, hnew⟩ := hrest.mp (hafter.sub u hu)
    rcases List.mem_cons.mp hw with rfl | hw
    · exact hnew (hsucc e hfresh.2)
    · exact hnew (hbelow.closed w hw u e (herase.mpr hfresh))
  have hpath : ∀ w ∈ below, ReflTransGen g.Edge v w := by
    intro w hw
    obtain ⟨u, hu, huw⟩ := hbelow.reached w hw
    exact .head (List.mem_reverse.mp hu) huw
  have hmem : ∀ {u}, u ∈ after ++ v :: below ↔ u ∈ after ∨ u = v ∨ u ∈ below := by simp
  constructor
  case sub =>
    intro u hu
    rcases hmem.mp hu with hu | rfl | hu
    · exact (hrest.mp (hafter.sub u hu)).1.2
    · exact hv
    · exact (herase.mp (hbelow.sub u hu)).2
  case nodup =>
    refine List.nodup_append.mpr ⟨hafter.nodup, List.nodup_cons.mpr ⟨?_, hbelow.nodup⟩, ?_⟩
    · exact fun hu => (herase.mp (hbelow.sub v hu)).1 rfl
    · rintro u hu w hw rfl
      obtain ⟨hfresh, hnew⟩ := hrest.mp (hafter.sub u hu)
      rcases List.mem_cons.mp hw with rfl | hw
      · exact hfresh.1 rfl
      · exact hnew hw
  case entered =>
    intro u hu hfresh
    by_cases hub : u ∈ v :: below
    · exact List.mem_append_right _ hub
    · obtain ⟨hne, hnew⟩ := not_or.mp (mt List.mem_cons.mpr hub)
      have hu : u ∈ vs := (List.mem_cons.mp hu).resolve_left hne
      exact List.mem_append_left _ (hafter.entered u hu (hrest.mpr ⟨⟨hne, hfresh⟩, hnew⟩))
  case closed =>
    intro u hu w e hfresh
    by_cases hwb : w ∈ v :: below
    · exact List.mem_append_right _ hwb
    · obtain ⟨hne, hnew⟩ := not_or.mp (mt List.mem_cons.mpr hwb)
      rcases hmem.mp hu with hu | rfl | hu
      · exact List.mem_append_left _ (hafter.closed u hu w e (hrest.mpr ⟨⟨hne, hfresh⟩, hnew⟩))
      · exact absurd (hsucc e hfresh) hnew
      · exact absurd (hbelow.closed u hu w e (herase.mpr ⟨hne, hfresh⟩)) hnew
  case reached =>
    intro w hw
    rcases hmem.mp hw with hw | rfl | hw
    · obtain ⟨u, hu, huw⟩ := hafter.reached w hw
      exact ⟨u, List.mem_cons_of_mem _ hu, huw⟩
    · exact ⟨w, List.mem_cons_self, .refl⟩
    · exact ⟨v, List.mem_cons_self, hpath w hw⟩
  case loopless =>
    intro u hu
    rcases hmem.mp hu with hu | rfl | hu
    · exact hafter.loopless u hu
    · exact hloop
    · exact hbelow.loopless u hu
  case ordered =>
    refine List.pairwise_append.mpr ⟨hafter.ordered, List.pairwise_cons.mpr ⟨?_, hbelow.ordered⟩, ?_⟩
    · exact fun w hw _ => hpath w hw
    · exact fun u hu w hw e => absurd e (hnoedge u hu w hw)

lemma filter_after (hnodup : fresh.Nodup) (v : Vertex) (below after : List Vertex) :
    ((fresh.erase v).filter (· ∉ below)).filter (· ∉ after) =
      fresh.filter (· ∉ after ++ v :: below) := by
  rw [hnodup.erase_eq_filter, List.filter_filter, List.filter_filter]
  refine List.filter_congr fun u _ => ?_
  rw [Bool.eq_iff_iff]
  simp only [Bool.and_eq_true, decide_eq_true_eq, bne_iff_ne, List.mem_append, List.mem_cons]
  tauto

/-- The search in one stroke. Entering vertices comes to an end, whatever is due after it: at a
vertex with an edge to itself, or when everything that can be entered from them has been left. -/
lemma search_enter_all (g : Graph) {fresh : List Vertex} (hnodup : fresh.Nodup) (vs : List Vertex) :
    (∃ v, g.Edge v v ∧ ∀ rest left,
      g.search fresh (vs.map .enter ++ rest) left = .error v) ∨
    ∃ new, g.Leaves fresh vs new ∧ ∀ rest left,
      g.search fresh (vs.map .enter ++ rest) left =
        g.search (fresh.filter (· ∉ new)) rest (new ++ left) := by
  induction hn : fresh.length using Nat.strong_induction_on generalizing fresh vs with
  | _ n ihn =>
    induction vs with
    | nil =>
      right
      exact ⟨[], .nil g fresh, by simp⟩
    | cons v vs ih =>
      simp only [List.map_cons, List.cons_append]
      by_cases hv : v ∈ fresh
      · by_cases hloop : g.Edge v v
        · exact .inl ⟨v, hloop, fun rest left => search_enter_of_loop hv hloop⟩
        · simp only [search_enter hv hloop]
          -- both what is below `v` and what comes after it is searched with fewer fresh vertices
          have hbelowlt : (fresh.erase v).length < n := by
            have := List.length_pos_of_mem hv
            rw [List.length_erase_of_mem hv]
            omega
          rcases ihn _ hbelowlt (hnodup.erase v) (g.successors v).reverse rfl with
            ⟨u, hu, herror⟩ | ⟨below, hbelow, hstep⟩
          · exact .inl ⟨u, hu, fun rest left => herror _ left⟩
          · simp only [hstep, search_leave]
            have hafterlt : ((fresh.erase v).filter (· ∉ below)).length < n :=
              (List.length_filter_le _ _).trans_lt hbelowlt
            rcases ihn _ hafterlt ((hnodup.erase v).filter _) vs rfl with
              ⟨u, hu, herror⟩ | ⟨after, hafter, hstep'⟩
            · exact .inl ⟨u, hu, fun rest left => herror rest _⟩
            · right
              refine ⟨after ++ v :: below, .cons hnodup hv hloop hbelow hafter, fun rest left => ?_⟩
              rw [hstep', filter_after hnodup, List.append_assoc, List.cons_append]
      · simp only [search_enter_of_notMem hv]
        rcases ih with herror | ⟨new, hnew, hstep⟩
        · exact .inl herror
        · exact .inr ⟨new, hnew.cons_of_notMem hv, hstep⟩

/-! ### Order -/

lemma checkFrom_eq_ok_iff {later : List Vertex} (hnodup : (later ++ vs).Nodup)
    (hsource : ∀ v ∈ vs, ∀ w, g.Edge w v → w ∈ later ++ vs) :
    g.checkFrom later vs = .ok () ↔ vs.Pairwise fun v w => ¬ g.Edge w v := by
  induction vs generalizing later with
  | nil => simp [checkFrom]
  | cons v before ih =>
    have hnodup' : ((v :: later) ++ before).Nodup := by
      refine (List.Perm.nodup_iff ?_).mp hnodup
      exact List.perm_middle
    have hsource' : ∀ u ∈ before, ∀ w, g.Edge w u → w ∈ (v :: later) ++ before := by
      intro u hu w e
      have := hsource u (List.mem_cons_of_mem _ hu) w e
      exact List.perm_middle.subset this
    -- a predecessor is among the vertices, so one that has not come yet still stands in front
    have hnone : ((g.predecessors v).filter fun w => w ∉ v :: later).getLast? = none ↔
        ∀ w ∈ before, ¬ g.Edge w v := by
      simp only [List.getLast?_eq_none_iff, List.filter_eq_nil_iff, mem_predecessors,
        decide_eq_true_eq, not_not]
      constructor
      · exact fun h w hw e => List.disjoint_of_nodup_append hnodup' (h w e) hw
      · intro h w e
        have hw : w ∈ (v :: later) ++ before :=
          List.perm_middle.subset (hsource v List.mem_cons_self w e)
        rcases List.mem_append.mp hw with hw | hw
        · exact hw
        · exact absurd e (h w hw)
    rw [checkFrom, List.pairwise_cons, ← hnone]
    split
    · next w hw =>
      rw [hw]
      simp
    · next hw =>
      rw [hw]
      simp [ih hnodup' hsource']

/-- What an order is: each vertex once, and after everything that it leads to. -/
structure Orders (g : Graph) (vs : List Vertex) : Prop where
  nodup : vs.Nodup
  mem : ∀ v, v ∈ vs ↔ v ∈ g.vertices
  loopless : ∀ v, ¬ g.Edge v v
  sorted : vs.Pairwise fun v w => ¬ g.Edge v w

lemma Orders.idxOf_lt (hg : g.WellFormed) (h : g.Orders vs) (e : g.Edge v w) :
    vs.idxOf w < vs.idxOf v := by
  have hv := List.idxOf_lt_length_iff.mpr ((h.mem v).mpr (hg.source e))
  have hw := List.idxOf_lt_length_iff.mpr ((h.mem w).mpr (hg.target e))
  by_contra hle
  rcases Nat.lt_or_eq_of_le (Nat.not_lt.mp hle) with hlt | heq
  · have := List.pairwise_iff_getElem.mp h.sorted _ _ hv hw hlt
    simp only [List.getElem_idxOf] at this
    exact this e
  · have : v = w := List.idxOf_inj ((h.mem v).mpr (hg.source e)) |>.mp heq
    exact h.loopless v (this ▸ e)

lemma Orders.idxOf_lt_of_transGen (hg : g.WellFormed) (h : g.Orders vs) (hp : TransGen g.Edge v w) :
    vs.idxOf w < vs.idxOf v := by
  induction hp with
  | single e => exact h.idxOf_lt hg e
  | tail _ e ih => exact (h.idxOf_lt hg e).trans ih

lemma Orders.acyclic (hg : g.WellFormed) (h : g.Orders vs) : ¬ ∃ v, TransGen g.Edge v v := by
  rintro ⟨v, hv⟩
  exact lt_irrefl _ (h.idxOf_lt_of_transGen hg hv)

lemma order_cases (hg : g.WellFormed) :
    (∃ v, g.Edge v v ∧ g.order = .error v) ∨
    ∃ new, g.Leaves g.vertices g.vertices new ∧
      g.order = (g.checkFrom [] new).map fun _ => new.reverse := by
  rcases search_enter_all g hg.nodup g.vertices with ⟨v, e, herror⟩ | ⟨new, hnew, hstep⟩
  · have hs := herror [] []
    rw [List.append_nil] at hs
    refine .inl ⟨v, e, ?_⟩
    rw [order, hs]
    rfl
  · have hs := hstep [] []
    rw [List.append_nil, List.append_nil, search_nil] at hs
    refine .inr ⟨new, hnew, ?_⟩
    rw [order, hs]
    simp only [bind, Except.bind, List.reverse_reverse]
    cases g.checkFrom [] new <;> rfl

lemma Leaves.mem_iff {new : List Vertex} (h : g.Leaves g.vertices g.vertices new) :
    v ∈ new ↔ v ∈ g.vertices :=
  ⟨h.sub v, fun hv => h.entered v hv hv⟩

lemma Leaves.checkFrom_eq_ok_iff (hg : g.WellFormed) {new : List Vertex}
    (h : g.Leaves g.vertices g.vertices new) :
    g.checkFrom [] new = .ok () ↔ new.Pairwise fun v w => ¬ g.Edge w v :=
  Graph.checkFrom_eq_ok_iff h.nodup fun _ _ _ e => h.mem_iff.mpr (hg.source e)

lemma orders_of_order_eq_ok (hg : g.WellFormed) (h : g.order = .ok vs) : g.Orders vs := by
  rcases order_cases hg with ⟨v, -, herror⟩ | ⟨new, hnew, horder⟩
  · cases h.symm.trans herror
  · cases hc : g.checkFrom [] new with
    | error v =>
      rw [horder, hc] at h
      cases h
    | ok u =>
      rw [horder, hc] at h
      cases h
      have hsorted := (hnew.checkFrom_eq_ok_iff hg).mp hc
      exact {
        nodup := List.nodup_reverse.mpr hnew.nodup
        mem := fun v => List.mem_reverse.trans hnew.mem_iff
        loopless := fun v e => hnew.loopless v (hnew.mem_iff.mpr (hg.source e)) e
        sorted := List.pairwise_reverse.mpr hsorted }

/-- **When the vertices have an order.** They do if the graph has no cycle. -/
theorem exists_order_iff (hg : g.WellFormed) :
    (∃ vs, g.order = .ok vs) ↔ ¬ ∃ v, TransGen g.Edge v v := by
  constructor
  · rintro ⟨vs, h⟩
    exact (orders_of_order_eq_ok hg h).acyclic hg
  · intro hacyclic
    rcases order_cases hg with ⟨v, e, -⟩ | ⟨new, hnew, horder⟩
    · exact absurd ⟨v, .single e⟩ hacyclic
    · have hsorted : new.Pairwise fun v w => ¬ g.Edge w v := by
        refine hnew.ordered.imp ?_
        intro v w hpath e
        exact hacyclic ⟨w, .head' e (hpath e)⟩
      rw [horder, (hnew.checkFrom_eq_ok_iff hg).mpr hsorted]
      exact ⟨_, rfl⟩

lemma resolutionOrder_eq_ok_iff : g.resolutionOrder = .ok vs ↔ g.order = .ok vs := by
  unfold resolutionOrder
  cases g.order <;> simp [Except.mapError]

lemma exists_resolutionOrder_iff (hg : g.WellFormed) :
    (∃ vs, g.resolutionOrder = .ok vs) ↔ ¬ ∃ v, TransGen g.Edge v v := by
  simp only [resolutionOrder_eq_ok_iff, exists_order_iff hg]

end SchemaRegistry.Graph
