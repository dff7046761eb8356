import SchemaRegistry.Proofs.Reference.Traversal

/-!
The order of a built graph. It comes to an end at the root, since everything in the graph is reached
from there, and where there is none the error names a version on a cycle.
-/

namespace SchemaRegistry.Graph

open Relation

variable {c : Client} {s : Schema} {g : Graph} {v w : Vertex} {vs : List Vertex} {k : Key}

/-! ### Failure -/

/-- The check over an order names a vertex on a cycle: an edge leads from it to a vertex that came
later, and from there a path leads back. -/
lemma cyclic_of_checkFrom_eq_error {later : List Vertex}
    (hsource : ∀ v ∈ vs, ∀ w, g.Edge w v → w ∈ later ++ vs)
    (hordered : vs.Pairwise fun v w => g.Edge w v → ReflTransGen g.Edge v w)
    (h : g.checkFrom later vs = .error w) : TransGen g.Edge w w := by
  induction vs generalizing later with
  | nil => cases h
  | cons v before ih =>
    obtain ⟨hback, hbefore⟩ := List.pairwise_cons.mp hordered
    rw [checkFrom] at h
    split at h
    · next u hu =>
      cases h
      obtain ⟨hpred, hnew⟩ := List.mem_filter.mp (List.mem_of_getLast? hu)
      have e : g.Edge w v := mem_predecessors.mp hpred
      have hw : w ∈ (v :: later) ++ before :=
        List.perm_middle.subset (hsource v List.mem_cons_self w e)
      have hw : w ∈ before := (List.mem_append.mp hw).resolve_left (of_decide_eq_true hnew)
      exact .head' e (hback w hw e)
    · refine ih (fun u hu w e => ?_) hbefore h
      have := hsource u (List.mem_cons_of_mem _ hu) w e
      exact List.perm_middle.subset this

lemma cyclic_of_order_eq_error (hg : g.WellFormed) (h : g.order = .error v) :
    TransGen g.Edge v v := by
  rcases order_cases hg with ⟨u, e, herror⟩ | ⟨new, hnew, horder⟩
  · cases h.symm.trans herror
    exact .single e
  · rw [horder] at h
    cases hc : g.checkFrom [] new with
    | ok u =>
      rw [hc] at h
      cases h
    | error u =>
      rw [hc] at h
      cases h
      exact cyclic_of_checkFrom_eq_error (fun _ _ _ e => hnew.mem_iff.mpr (hg.source e))
        hnew.ordered hc

lemma resolutionOrder_eq_error_iff {e : Error} :
    g.resolutionOrder = .error e ↔ ∃ v, g.order = .error v ∧ e = .cyclicReference v.key := by
  unfold resolutionOrder
  cases g.order <;> simp [Except.mapError, eq_comm]

/-! ### The root -/

lemma Traces.transGen_root (h : Traces c s g) (hk : k ∈ g.versions.keys) :
    TransGen g.Edge .root (.version k) := by
  refine ((h.keys k).mp hk).induction (fun r hr => ?_) fun k k' hk hpath href => ?_
  · obtain ⟨t, ht, hedges⟩ := h.edges .root (root_mem_vertices g)
    cases ht
    refine .single ?_
    rw [Edge, hedges, List.mem_reverse]
    exact List.mem_map_of_mem hr
  · exact hpath.tail (h.edge_version_iff.mpr ⟨hk, k', rfl, href⟩)

lemma Orders.getLast?_eq (hg : g.WellFormed) (h : g.Orders vs) (hv : v ∈ g.vertices)
    (htop : ∀ w ∈ g.vertices, w ≠ v → TransGen g.Edge v w) : vs.getLast? = some v := by
  have hmem : v ∈ vs := (h.mem v).mpr hv
  obtain rfl | ⟨front, last, rfl⟩ := List.eq_nil_or_concat' vs
  · cases hmem
  · rw [List.getLast?_concat]
    by_contra hne
    have hlast : last ∈ g.vertices := (h.mem last).mp (by simp)
    have hlt := h.idxOf_lt_of_transGen hg (htop last hlast fun e => hne (by rw [e]))
    have hfront : v ∈ front := by
      rcases List.mem_append.mp hmem with hmem | hmem
      · exact hmem
      · exact absurd (by rw [List.mem_singleton.mp hmem]) hne
    have hnew : last ∉ front := fun hmem =>
      List.disjoint_of_nodup_append h.nodup hmem (List.mem_singleton_self last)
    rw [List.idxOf_append_of_mem hfront, List.idxOf_append_of_notMem hnew] at hlt
    have := List.idxOf_lt_length_iff.mpr hfront
    omega

/-- **What the order of a built graph is.** There is one if the graph has no cycle. It has all
vertices, each once and after everything that its schema references, and ends with the root.
Otherwise the error names a version on a cycle that the registry has. That is never the root:
nothing references it, and while numbers do not wrap around no version has its number either. -/
theorem resolutionOrder_of_build (os : List Operation) (s : Schema) (g : Graph)
    (h : (build s (Client.reached os)).1 = .ok g) :
    let c := Client.reached os
    ((∃ vs, g.resolutionOrder = .ok vs) ↔ g.hasCycle = false) ∧
    (∀ vs, g.resolutionOrder = .ok vs →
      vs.Nodup ∧ vs.Perm g.vertices ∧ vs.getLast? = some .root ∧
      ∀ v ∈ vs, ∃ t, c.schemaAt s v = some t ∧
        ∀ r ∈ t.references, vs.idxOf r.target < vs.idxOf v) ∧
    ∀ e, g.resolutionOrder = .error e → ∃ k, e = .cyclicReference k ∧
      .version k ∈ g.vertices ∧ TransGen g.Edge (.version k) (.version k) ∧
      (∃ m, c.answer k = .ok m ∧ m.key = k) ∧
      (registerCalls os < 2 ^ 31 → k ≠ Vertex.root.key) := by
  intro c
  obtain ⟨htraces, hfetched⟩ := traces_of_build h
  have hwf := htraces.wellFormed
  refine ⟨?_, ?_, ?_⟩
  · rw [exists_resolutionOrder_iff hwf, hasCycle_eq_false_iff hwf]
  · intro vs hvs
    have horders := orders_of_order_eq_ok hwf (resolutionOrder_eq_ok_iff.mp hvs)
    have hperm : vs.Perm g.vertices :=
      (List.perm_ext_iff_of_nodup horders.nodup hwf.nodup).mpr horders.mem
    have hlast : vs.getLast? = some .root := by
      refine horders.getLast?_eq hwf (root_mem_vertices g) fun w hw hne => ?_
      cases w with
      | root => exact absurd rfl hne
      | version k => exact htraces.transGen_root (version_mem_vertices.mp hw)
    refine ⟨horders.nodup, hperm, hlast, fun v hv => ?_⟩
    obtain ⟨t, ht, hedges⟩ := htraces.edges v ((horders.mem v).mp hv)
    refine ⟨t, ht, fun r hr => horders.idxOf_lt hwf ?_⟩
    rw [Edge, hedges, List.mem_reverse]
    exact List.mem_map_of_mem hr
  · intro e he
    obtain ⟨v, hv, rfl⟩ := resolutionOrder_eq_error_iff.mp he
    have hcycle := cyclic_of_order_eq_error hwf hv
    obtain ⟨u, -, hedge⟩ := TransGen.tail'_iff.mp hcycle
    obtain ⟨k, rfl, hk⟩ := htraces.edge_target hedge
    obtain ⟨m, hm⟩ := hfetched k ((htraces.keys k).mp hk)
    refine ⟨k, rfl, version_mem_vertices.mpr hk, hcycle,
      ⟨m, hm, Client.key_of_answer_reached hm⟩, fun calls hroot => ?_⟩
    -- versions are numbered from one
    obtain ⟨-, hm⟩ := Client.answerTo_eq_ok_iff.mp hm
    have hroom := Nat.lt_of_le_of_lt (Client.lastId_reached_le calls) calls
    have hnumber := ((Client.sound_reached calls).version_isOk_iff hroom k.subject k.version).mp
      ⟨m, hm⟩
    rw [hroot] at hnumber
    exact absurd hnumber.1 (by decide)

/-- A version that references itself stands in the way of an order, if it is reached. -/
theorem resolutionOrder_of_build_beside_loop :
    let text (rs : List Reference) : Schema := ⟨"message M", .protobuf, rs⟩
    let c := Client.reached [.register ⟨"c", text [], false⟩,
      .register ⟨"a", text [⟨"A", "a", 1⟩], false⟩]
    (∃ g vs, (build (text [⟨"C", "c", 1⟩]) c).1 = .ok g ∧ g.resolutionOrder = .ok vs ∧
      vs.getLast? = some .root ∧ vs.idxOf (.version ⟨"c", 1⟩) < vs.idxOf .root) ∧
    ∃ g, (build (text [⟨"C", "c", 1⟩, ⟨"A", "a", 1⟩]) c).1 = .ok g ∧
      g.resolutionOrder = .error (.cyclicReference ⟨"a", 1⟩) := by
  intro text c
  obtain ⟨hc, ha⟩ : c.answer ⟨"c", 1⟩ = .ok ⟨1, "c", 1, text []⟩ ∧
      c.answer ⟨"a", 1⟩ = .ok ⟨2, "a", 1, text [⟨"A", "a", 1⟩]⟩ := by
    decide +kernel
  have hcnone : ∀ k, ¬ References c.answer ⟨"c", 1⟩ k := by
    rintro k ⟨m, hm, r, hr, -⟩
    cases hc.symm.trans hm
    cases hr
  have hcacyclic : ¬ Cyclic c.answer ⟨"c", 1⟩ := by
    intro h
    obtain ⟨k, href, -⟩ := TransGen.head'_iff.mp h
    exact hcnone k href
  constructor
  · have hreach : ∀ k, Reaches c.answer [⟨"C", "c", 1⟩] k → k = ⟨"c", 1⟩ := by
      intro k hk
      refine hk.induction (by simp [Reference.key]) fun k k' _ e href => ?_
      rw [e] at href
      exact absurd href (hcnone k')
    obtain ⟨g, hg, hacyclic⟩ := (exists_graph_iff_resolvable (s := text [⟨"C", "c", 1⟩])
      fun g => hasCycle_eq_false_iff).mpr fun k hk => by
        rw [hreach k hk]
        exact ⟨⟨_, hc⟩, hcacyclic⟩
    obtain ⟨hiff, hok, -⟩ := resolutionOrder_of_build _ _ g hg
    obtain ⟨vs, hvs⟩ := hiff.mpr hacyclic
    obtain ⟨-, hperm, hlast, horder⟩ := hok vs hvs
    obtain ⟨t, ht, hbefore⟩ := horder .root (hperm.mem_iff.mpr (root_mem_vertices g))
    cases ht
    exact ⟨g, vs, hg, hvs, hlast, hbefore ⟨"C", "c", 1⟩ List.mem_cons_self⟩
  · have hreach : ∀ k, Reaches c.answer [⟨"C", "c", 1⟩, ⟨"A", "a", 1⟩] k →
        k = ⟨"c", 1⟩ ∨ k = ⟨"a", 1⟩ := by
      intro k hk
      refine hk.induction (by simp [Reference.key]) ?_
      rintro k k' - (rfl | rfl) href
      · exact absurd href (hcnone k')
      · obtain ⟨m, hm, r, hr, rfl⟩ := href
        cases ha.symm.trans hm
        rw [List.mem_singleton.mp hr]
        exact .inr rfl
    obtain ⟨g, hg⟩ := (build_isOk_iff (text [⟨"C", "c", 1⟩, ⟨"A", "a", 1⟩]) c).mpr fun k hk => by
      rcases hreach k hk with rfl | rfl
      · exact ⟨_, hc⟩
      · exact ⟨_, ha⟩
    obtain ⟨htraces, -⟩ := traces_of_build hg
    obtain ⟨hiff, -, herror⟩ := resolutionOrder_of_build _ _ g hg
    refine ⟨g, hg, ?_⟩
    cases ho : g.resolutionOrder with
    | ok vs =>
      have hacyclic := (hasCycle_eq_false_iff htraces.wellFormed).mp (hiff.mp ⟨vs, ho⟩)
      have hra : Reaches c.answer [⟨"C", "c", 1⟩, ⟨"A", "a", 1⟩] ⟨"a", 1⟩ :=
        .head (r := ⟨"A", "a", 1⟩) (by simp)
      have hloop : References c.answer ⟨"a", 1⟩ ⟨"a", 1⟩ := ⟨_, ha, _, List.mem_cons_self, rfl⟩
      exact absurd (.single hloop) ((acyclic_iff_resolvable hg).mp hacyclic _ hra).2
    | error e =>
      obtain ⟨k, rfl, -, hback, -⟩ := herror e ho
      obtain ⟨hk, k', hkk, hcyclic⟩ := htraces.transGen_edge_iff.mp hback
      cases hkk
      rcases hreach k hk with rfl | rfl
      · exact absurd hcyclic hcacyclic
      · rfl

end SchemaRegistry.Graph
