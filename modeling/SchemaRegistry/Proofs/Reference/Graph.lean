import SchemaRegistry.Proofs.Reference.Walk
import SchemaRegistry.Reference.Graph

/-!
What a built graph has. Building fails if something that is reached cannot be fetched. Otherwise the
graph has the versions that are reached, and from each vertex an edge for each reference of its
schema, so that its cycles are those of the references.
-/

namespace SchemaRegistry

open Relation

/-- The schema that a vertex stands for. -/
def Client.schemaAt (c : Client) (s : Schema) : Vertex → Option Schema
  | .root => some s
  | .version k => (c.answer k).toOption.map Registered.schema

lemma Client.schemaAt_version_eq_some_iff {c : Client} {s t : Schema} {k : Key} :
    c.schemaAt s (.version k) = some t ↔ ∃ m, c.answer k = .ok m ∧ m.schema = t := by
  cases h : c.answer k <;> simp [schemaAt, h, Except.toOption]

/-- The vertex that a reference leads to. -/
def Reference.target (r : Reference) : Vertex := .version r.key

namespace Graph

/-- The edges of a graph as a relation. -/
def Edge (g : Graph) (v w : Vertex) : Prop := w ∈ g.successors v

variable {g : Graph} {v w : Vertex} {k : Key}

lemma version_mem_vertices : Vertex.version k ∈ g.vertices ↔ k ∈ g.versions.keys := by
  simp [vertices]

lemma root_mem_vertices (g : Graph) : Vertex.root ∈ g.vertices := List.mem_cons_self

namespace Building

variable {c : Client} {s : Schema} {b : Building} {source : Vertex} {r : Reference}
  {rs : List Reference} {m : Registered} {rest : List (Vertex × List Reference)}

/-- The references that are still to be followed. -/
def work (b : Building) : List (Vertex × List Reference) :=
  b.pending.map fun p => (p.1, p.2.references)

lemma successors_addEdge (b : Building) (v w u : Vertex) :
    (b.addEdge v w).graph.successors u =
      if u = v then w :: b.graph.successors u else b.graph.successors u := by
  unfold successors addEdge
  by_cases h : u = v
  · subst h
    simp
  · have h' : v ≠ u := fun e => h e.symm
    simp [h, h']

lemma keys_addVersion (h : k ∉ b.graph.versions.keys) :
    (b.addVersion k m).graph.versions.keys = b.graph.versions.keys ++ [k] := by
  simp [addVersion, Table.keys_insert, h]

lemma successors_addVersion (b : Building) (k : Key) (m : Registered) (u : Vertex) :
    (b.addVersion k m).graph.successors u = b.graph.successors u := rfl

/-- A graph in progress, with the references that are still to be followed. -/
structure Traced (c : Client) (s : Schema) (b : Building) (todo : List (Vertex × List Reference)) :
    Prop where
  reached : ∀ k ∈ b.graph.versions.keys, Reaches c.answer s.references k
  asked : b.asked = b.graph.versions.keys.reverse
  nodup : b.graph.versions.keys.Nodup
  listed : ∀ v ∈ todo.map Prod.fst, v ∈ b.graph.vertices
  distinct : (todo.map Prod.fst).Nodup
  /-- A vertex has edges for the references of its schema that were followed. -/
  followed : ∀ v ∈ b.graph.vertices, ∃ t done, c.schemaAt s v = some t ∧
    t.references = done ++ (todo.lookup v).getD [] ∧
    b.graph.successors v = (done.map Reference.target).reverse ∧
    ∀ r ∈ done, r.key ∈ b.graph.versions.keys
  /-- Nothing else has edges. -/
  outside : ∀ v, v ∉ b.graph.vertices → b.graph.successors v = []

lemma traced_init (c : Client) (s : Schema) :
    Traced c s { pending := [(.root, s)] } [(.root, s.references)] := by
  refine ⟨by simp [Table.keys, Table.empty], by simp [Table.keys, Table.empty],
    by simp [Table.keys, Table.empty], by simp [vertices], by simp, ?_, by simp [successors]⟩
  intro v hv
  obtain rfl : v = .root := by simpa [vertices, Table.keys, Table.empty] using hv
  exact ⟨s, [], rfl, by simp, rfl, by simp⟩

lemma Traced.done (h : Traced c s b ((source, []) :: rest)) : Traced c s b rest := by
  refine ⟨h.reached, h.asked, h.nodup, fun v hv => h.listed v (List.mem_cons_of_mem _ hv),
    (List.nodup_cons.mp h.distinct).2, ?_, h.outside⟩
  intro v hv
  obtain ⟨t, done, ht, hrefs, hedges, hdone⟩ := h.followed v hv
  refine ⟨t, done, ht, ?_, hedges, hdone⟩
  rw [hrefs, Table.lookup_cons]
  by_cases e : v = source
  · have hnone : rest.lookup v = none := by
      rw [← Option.not_isSome_iff_eq_none, Table.isSome_lookup_iff, e]
      exact (List.nodup_cons.mp h.distinct).1
    rw [if_pos e, hnone]
    rfl
  · rw [if_neg e]

section Step

variable (h : Traced c s b ((source, r :: rs) :: rest))

include h

lemma Traced.reaches : Reaches c.answer s.references r.key := by
  have hsource : source ∈ b.graph.vertices := h.listed _ List.mem_cons_self
  obtain ⟨t, done, ht, hrefs, -⟩ := h.followed source hsource
  rw [Table.lookup_cons, if_pos rfl, Option.getD_some] at hrefs
  have hr : r ∈ t.references := by
    rw [hrefs]
    simp
  cases source with
  | root =>
    cases ht
    exact .head hr
  | version k =>
    obtain ⟨m, hm, rfl⟩ := Client.schemaAt_version_eq_some_iff.mp ht
    exact (h.reached k (version_mem_vertices.mp hsource)).tail ⟨m, hm, r, hr, rfl⟩

lemma Traced.addEdge (hk : r.key ∈ b.graph.versions.keys) :
    Traced c s (b.addEdge source r.target) ((source, rs) :: rest) := by
  refine ⟨h.reached, h.asked, h.nodup, h.listed, h.distinct, ?_, ?_⟩
  · intro v hv
    obtain ⟨t, done, ht, hrefs, hedges, hdone⟩ := h.followed v hv
    rw [Table.lookup_cons] at hrefs
    rw [successors_addEdge, Table.lookup_cons]
    by_cases e : v = source
    · rw [if_pos e] at hrefs
      rw [if_pos e, if_pos e]
      refine ⟨t, done ++ [r], ht, by simpa using hrefs, by simp [hedges], ?_⟩
      intro r' hr'
      rcases List.mem_append.mp hr' with hr' | hr'
      · exact hdone r' hr'
      · rw [List.mem_singleton.mp hr']
        exact hk
    · rw [if_neg e] at hrefs
      rw [if_neg e, if_neg e]
      exact ⟨t, done, ht, hrefs, hedges, hdone⟩
  · intro v hv
    have hne : v ≠ source := by
      rintro rfl
      exact hv (h.listed _ List.mem_cons_self)
    rw [successors_addEdge, if_neg hne]
    exact h.outside v hv

lemma Traced.addVersion (hk : r.key ∉ b.graph.versions.keys) (hm : c.answer r.key = .ok m) :
    Traced c s ((b.ask r.key).addVersion r.key m)
      ((source, r :: rs) :: (r.target, m.schema.references) :: rest) := by
  have hkeys : ((b.ask r.key).addVersion r.key m).graph.versions.keys =
      b.graph.versions.keys ++ [r.key] := keys_addVersion hk
  have hvertices : ∀ v, v ∈ ((b.ask r.key).addVersion r.key m).graph.vertices ↔
      v ∈ b.graph.vertices ∨ v = r.target := by
    intro v
    simp [vertices, hkeys, Reference.target, or_assoc]
  have hnew : r.target ∉ b.graph.vertices := fun hv => hk (version_mem_vertices.mp hv)
  have hold : ∀ v ∈ source :: rest.map Prod.fst, v ≠ r.target :=
    fun v hv e => hnew (e ▸ h.listed v hv)
  refine ⟨?reached, ?asked, Table.nodup_keys_insert h.nodup _ _, ?listed, ?distinct, ?followed, ?outside⟩
  case reached =>
    intro k hk'
    rw [hkeys] at hk'
    rcases List.mem_append.mp hk' with hk' | hk'
    · exact h.reached k hk'
    · rw [List.mem_singleton.mp hk']
      exact h.reaches
  case asked =>
    rw [hkeys, List.reverse_append]
    exact congrArg (r.key :: ·) h.asked
  case listed =>
    intro v hv
    rw [hvertices]
    simp only [List.map_cons, List.mem_cons] at hv
    rcases hv with rfl | rfl | hv
    · exact .inl (h.listed _ List.mem_cons_self)
    · exact .inr rfl
    · exact .inl (h.listed v (List.mem_cons_of_mem _ hv))
  case distinct =>
    obtain ⟨hsource, hrest⟩ := List.nodup_cons.mp h.distinct
    simp only [List.map_cons, List.nodup_cons, List.mem_cons, not_or]
    exact ⟨⟨hold source List.mem_cons_self, hsource⟩,
      fun hv => hold _ (List.mem_cons_of_mem _ hv) rfl, hrest⟩
  case followed =>
    intro v hv
    rw [successors_addVersion, hkeys]
    -- a vertex that was there keeps what it followed; the new one has followed nothing yet
    rcases (hvertices v).mp hv with hv | rfl
    · obtain ⟨t, done, ht, hrefs, hedges, hdone⟩ := h.followed v hv
      refine ⟨t, done, ht, ?_, hedges, fun r' hr' => List.mem_append_left _ (hdone r' hr')⟩
      have hne : v ≠ r.target := fun e => hnew (e ▸ hv)
      rw [hrefs, Table.lookup_cons, Table.lookup_cons, Table.lookup_cons, if_neg hne]
    · refine ⟨m.schema, [], Client.schemaAt_version_eq_some_iff.mpr ⟨m, hm, rfl⟩, ?_,
        h.outside _ hnew, by simp⟩
      rw [Table.lookup_cons, if_neg (hold source List.mem_cons_self).symm, Table.lookup_cons,
        if_pos rfl]
      rfl
  case outside =>
    intro v hv
    rw [successors_addVersion]
    exact h.outside v fun hv' => hv ((hvertices v).mpr (.inl hv'))

end Step

/-- How building ends when a version cannot be fetched: it is the last that was asked for. -/
structure Stopped (c : Client) (s : Schema) (b : Building) (e : Error) : Prop where
  reached : ∀ k ∈ b.graph.versions.keys, Reaches c.answer s.references k
  nodup : b.graph.versions.keys.Nodup
  answered : ∀ k ∈ b.graph.versions.keys, ∃ m, c.answer k = .ok m
  cause : ∃ k e', e = .registry e' ∧ c.answer k = .error e' ∧ Reaches c.answer s.references k ∧
    b.asked = k :: b.graph.versions.keys.reverse

lemma Traced.answered {todo : List (Vertex × List Reference)} (h : Traced c s b todo) :
    ∀ k ∈ b.graph.versions.keys, ∃ m, c.answer k = .ok m := by
  intro k hk
  obtain ⟨t, -, ht, -⟩ := h.followed (.version k) (version_mem_vertices.mpr hk)
  obtain ⟨m, hm, -⟩ := Client.schemaAt_version_eq_some_iff.mp ht
  exact ⟨m, hm⟩

lemma Traced.expand (h : Traced c s b ((source, rs) :: b.work)) {b' : Building}
    {failure : Option Error} (he : expand c source b rs = (b', failure)) :
    (failure = none → Traced c s b' b'.work) ∧ ∀ e, failure = some e → Stopped c s b' e := by
  induction rs generalizing b with
  | nil =>
    cases he
    exact ⟨fun _ => h.done, nofun⟩
  | cons r rs ih =>
    unfold Building.expand at he
    split at he
    · next hk => exact ih (h.addEdge hk) he
    · next hk =>
      split at he
      · next e hm =>
        cases he
        refine ⟨nofun, ?_⟩
        rintro _ ⟨⟩
        exact ⟨h.reached, h.nodup, h.answered, r.key, e, rfl, hm, h.reaches,
          congrArg (r.key :: ·) h.asked⟩
      · next m hm =>
        refine ih ?_ he
        refine Traced.addEdge (h.addVersion hk hm) ?_
        rw [keys_addVersion (b := b.ask r.key) hk]
        simp

lemma Traced.pop {t : Schema} {pending : List (Vertex × Schema)} (h : Traced c s b b.work)
    (hp : b.pending = (source, t) :: pending) :
    Traced c s { b with pending } ((source, t.references) :: work { b with pending }) := by
  rw [work, hp] at h
  exact ⟨h.reached, h.asked, h.nodup, h.listed, h.distinct, h.followed, h.outside⟩

lemma run_of_nil (hp : b.pending = []) : run c b = (b, .ok ()) := by
  rw [run]
  split
  · rfl
  · next hp' => cases hp.symm.trans hp'

lemma run_of_failure {t : Schema} {pending : List (Vertex × Schema)} {b' : Building} {e : Error}
    (hp : b.pending = (source, t) :: pending)
    (he : expand c source { b with pending } t.references = (b', some e)) :
    run c b = (b', .error e) := by
  rw [run]
  split
  · next hp' => cases hp.symm.trans hp'
  · next hp' =>
    cases hp.symm.trans hp'
    split
    · next he' =>
      cases he.symm.trans he'
      rfl
    · next he' => cases he.symm.trans he'

lemma run_of_expanded {t : Schema} {pending : List (Vertex × Schema)} {b' : Building}
    (hp : b.pending = (source, t) :: pending)
    (he : expand c source { b with pending } t.references = (b', none)) :
    run c b = run c b' := by
  rw [run]
  split
  · next hp' => cases hp.symm.trans hp'
  · next hp' =>
    cases hp.symm.trans hp'
    split
    · next he' => cases he.symm.trans he'
    · next he' =>
      cases he.symm.trans he'
      rfl

/-- Building comes to an end where nothing is left to be followed, or where it is stopped. -/
lemma Traced.run (h : Traced c s b b.work) :
    ((run c b).2 = .ok () → Traced c s (run c b).1 []) ∧
      ∀ e, (run c b).2 = .error e → Stopped c s (run c b).1 e := by
  induction b using run.induct c with
  | case1 b hp =>
    rw [work, hp] at h
    rw [run_of_nil hp]
    exact ⟨fun _ => h, nofun⟩
  | case2 b v t rest hp b' e he =>
    rw [run_of_failure hp he]
    refine ⟨nofun, ?_⟩
    rintro _ ⟨⟩
    exact ((h.pop hp).expand he).2 e rfl
  | case3 b v t rest hp b' he ih =>
    rw [run_of_expanded hp he]
    exact ih (((h.pop hp).expand he).1 rfl)

end Building

/-! ### What was built -/

/-- The graph of what a schema reaches. -/
structure Traces (c : Client) (s : Schema) (g : Graph) : Prop where
  nodup : g.versions.keys.Nodup
  keys : ∀ k, k ∈ g.versions.keys ↔ Reaches c.answer s.references k
  /-- A vertex has one edge for each reference of its schema, the last one first. -/
  edges : ∀ v ∈ g.vertices, ∃ t, c.schemaAt s v = some t ∧
    g.successors v = (t.references.map Reference.target).reverse
  outside : ∀ v, v ∉ g.vertices → g.successors v = []

variable {c : Client} {s : Schema}

lemma Building.Traced.traces {b : Building} (h : b.Traced c s []) : Traces c s b.graph := by
  have hdone : ∀ v ∈ b.graph.vertices, ∃ t, c.schemaAt s v = some t ∧
      b.graph.successors v = (t.references.map Reference.target).reverse ∧
      ∀ r ∈ t.references, r.key ∈ b.graph.versions.keys := by
    intro v hv
    obtain ⟨t, done, ht, hrefs, hedges, hkeys⟩ := h.followed v hv
    obtain rfl : t.references = done := by simpa using hrefs
    exact ⟨t, ht, hedges, hkeys⟩
  refine ⟨h.nodup, fun k => ⟨h.reached k, fun hk => ?_⟩, ?_, h.outside⟩
  · refine hk.induction (fun r hr => ?_) fun k k' _ hk href => ?_
    · obtain ⟨t, ht, -, hkeys⟩ := hdone .root (root_mem_vertices _)
      cases ht
      exact hkeys r hr
    · obtain ⟨m, hm, r', hr', rfl⟩ := href
      obtain ⟨t, ht, -, hkeys⟩ := hdone _ (version_mem_vertices.mpr hk)
      obtain ⟨m', hm', rfl⟩ := Client.schemaAt_version_eq_some_iff.mp ht
      cases hm.symm.trans hm'
      exact hkeys r' hr'
  · intro v hv
    obtain ⟨t, ht, hedges, -⟩ := hdone v hv
    exact ⟨t, ht, hedges⟩

lemma build_fst (s : Schema) (c : Client) :
    (build s c).1 = (Building.run c { pending := [(.root, s)] }).2.map fun _ =>
      (Building.run c { pending := [(.root, s)] }).1.graph :=
  rfl

lemma build_snd (s : Schema) (c : Client) :
    (build s c).2 = c.askedFor (Building.run c { pending := [(.root, s)] }).1.asked.reverse :=
  rfl

/-- A graph that was built has all that the schema reaches, and each of it could be fetched. -/
lemma traces_of_build {g : Graph} (h : (build s c).1 = .ok g) :
    Traces c s g ∧ ∀ k, Reaches c.answer s.references k → ∃ m, c.answer k = .ok m := by
  rw [build_fst] at h
  cases ho : (Building.run c { pending := [(.root, s)] }).2 with
  | error e =>
    rw [ho] at h
    cases h
  | ok u =>
    rw [ho] at h
    cases h
    have hdone := (Building.traced_init c s).run.1 ho
    refine ⟨hdone.traces, fun k hk => hdone.answered k ((hdone.traces.keys k).mpr hk)⟩

/-- **When a graph is built.** It is if everything that the schema reaches can be fetched. -/
theorem build_isOk_iff (s : Schema) (c : Client) :
    (∃ g, (build s c).1 = .ok g) ↔ ∀ k, Reaches c.answer s.references k → ∃ m, c.answer k = .ok m := by
  constructor
  · rintro ⟨g, hg⟩
    exact (traces_of_build hg).2
  · intro h
    rw [build_fst]
    cases ho : (Building.run c { pending := [(.root, s)] }).2 with
    | ok u => exact ⟨_, rfl⟩
    | error e =>
      obtain ⟨k, e', -, he, hk, -⟩ := ((Building.traced_init c s).run.2 e ho).cause
      obtain ⟨m, hm⟩ := h k hk
      cases hm.symm.trans he

/-! ### Cycles -/

namespace Traces

variable {g : Graph} {v w : Vertex} {k : Key} (h : Traces c s g)

include h

lemma edge_version_iff : g.Edge (.version k) w ↔
    Reaches c.answer s.references k ∧ ∃ k', w = .version k' ∧ References c.answer k k' := by
  unfold Edge
  by_cases hk : k ∈ g.versions.keys
  · obtain ⟨t, ht, hedges⟩ := h.edges _ (version_mem_vertices.mpr hk)
    obtain ⟨m, hm, rfl⟩ := Client.schemaAt_version_eq_some_iff.mp ht
    rw [hedges, List.mem_reverse, List.mem_map]
    constructor
    · rintro ⟨r, hr, rfl⟩
      exact ⟨(h.keys k).mp hk, r.key, rfl, m, hm, r, hr, rfl⟩
    · rintro ⟨-, k', rfl, m', hm', r, hr, rfl⟩
      cases hm.symm.trans hm'
      exact ⟨r, hr, rfl⟩
  · rw [h.outside _ fun hv => hk (version_mem_vertices.mp hv)]
    simp [← h.keys, hk]

lemma edge_target (e : g.Edge v w) : ∃ k, w = .version k ∧ k ∈ g.versions.keys := by
  cases v with
  | root =>
    obtain ⟨t, ht, hedges⟩ := h.edges .root (root_mem_vertices g)
    cases ht
    rw [Edge, hedges, List.mem_reverse, List.mem_map] at e
    obtain ⟨r, hr, rfl⟩ := e
    exact ⟨r.key, rfl, (h.keys _).mpr (.head hr)⟩
  | version k =>
    obtain ⟨hk, k', rfl, href⟩ := h.edge_version_iff.mp e
    exact ⟨k', rfl, (h.keys k').mpr (hk.tail href)⟩

lemma transGen_edge_iff : TransGen g.Edge (.version k) w ↔
    Reaches c.answer s.references k ∧ ∃ k', w = .version k' ∧ TransGen (References c.answer) k k' := by
  constructor
  · intro hw
    induction hw with
    | single e =>
      obtain ⟨hk, k', rfl, href⟩ := h.edge_version_iff.mp e
      exact ⟨hk, k', rfl, .single href⟩
    | tail _ e ih =>
      obtain ⟨hk, k', rfl, href⟩ := ih
      obtain ⟨-, k'', rfl, href'⟩ := h.edge_version_iff.mp e
      exact ⟨hk, k'', rfl, href.tail href'⟩
  · rintro ⟨hk, k', rfl, href⟩
    have hreach : ∀ {k'}, TransGen (References c.answer) k k' →
        Reaches c.answer s.references k' := by
      intro k' href
      obtain ⟨r, hr, hk⟩ := hk
      exact ⟨r, hr, hk.trans href.to_reflTransGen⟩
    induction href with
    | single href => exact .single (h.edge_version_iff.mpr ⟨hk, _, rfl, href⟩)
    | tail hpath href ih => exact ih.tail (h.edge_version_iff.mpr ⟨hreach hpath, _, rfl, href⟩)

lemma exists_cycle_iff : (∃ v, TransGen g.Edge v v) ↔
    ∃ k, Reaches c.answer s.references k ∧ Cyclic c.answer k := by
  constructor
  · rintro ⟨v, hv⟩
    obtain ⟨w, -, e⟩ := TransGen.tail'_iff.mp hv
    obtain ⟨k, rfl, -⟩ := h.edge_target e
    obtain ⟨hk, k', hkk, hcycle⟩ := h.transGen_edge_iff.mp hv
    cases hkk
    exact ⟨k, hk, hcycle⟩
  · rintro ⟨k, hk, hcycle⟩
    exact ⟨.version k, h.transGen_edge_iff.mpr ⟨hk, k, rfl, hcycle⟩⟩

end Traces

end Graph

end SchemaRegistry
