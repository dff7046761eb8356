import Mathlib.Data.Set.Card
import SchemaRegistry.Proofs.Reference.Traversal

/-!
What building a graph asks for and what it makes of the answers. Each version that is reached is
asked for once and becomes a vertex with its ID, and from one version to another there are as many
edges as the schema of the one has references to the other.
-/

namespace SchemaRegistry.Graph

open Relation

variable {c : Client} {s : Schema} {g : Graph} {k d : Key} {m : Registered}

/-! ### IDs -/

namespace Building

variable {b : Building}

/-- The IDs of a graph in progress are those of the versions that were fetched. -/
def Identified (c : Client) (b : Building) : Prop :=
  ∀ k id, b.graph.versions.get? k = some id → ∃ m, c.answer k = .ok m ∧ m.id = id

lemma Identified.addVersion (h : b.Identified c) (hm : c.answer k = .ok m) :
    (b.addVersion k m).Identified c := by
  intro k' id hid
  rw [Building.addVersion, Table.get?_insert] at hid
  split at hid
  · next e =>
    cases hid
    exact ⟨m, e ▸ hm, rfl⟩
  · exact h k' id hid

lemma Identified.expand (h : b.Identified c) (source : Vertex) (rs : List Reference) :
    (expand c source b rs).1.Identified c := by
  induction rs generalizing b with
  | nil => exact h
  | cons r rs ih =>
    unfold Building.expand
    split
    · exact ih h
    · split
      · exact h
      · next m hm =>
        have hadd : ((b.ask r.key).addVersion r.key m).Identified c :=
          Identified.addVersion (b := b.ask r.key) h hm
        exact ih hadd

lemma Identified.run (h : b.Identified c) : (run c b).1.Identified c := by
  induction b using run.induct c with
  | case1 b hp =>
    rw [run_of_nil hp]
    exact h
  | case2 b v t rest hp b' e he =>
    have hexpand := Identified.expand (b := { b with pending := rest }) h v t.references
    rw [he] at hexpand
    rw [run_of_failure hp he]
    exact hexpand
  | case3 b v t rest hp b' he ih =>
    have hexpand := Identified.expand (b := { b with pending := rest }) h v t.references
    rw [he] at hexpand
    rw [run_of_expanded hp he]
    exact ih hexpand

end Building

lemma id?_of_build (h : (build s c).1 = .ok g) (hk : k ∈ g.versions.keys) :
    ∃ m, c.answer k = .ok m ∧ g.id? (.version k) = some m.id := by
  have hids : (Building.run c { pending := [(.root, s)] }).1.Identified c :=
    Building.Identified.run fun k id hid => by cases hid
  rw [build_fst] at h
  cases ho : (Building.run c { pending := [(.root, s)] }).2 with
  | error e =>
    rw [ho] at h
    cases h
  | ok u =>
    rw [ho] at h
    cases h
    obtain ⟨id, hid⟩ := Option.isSome_iff_exists.mp (Table.mem_keys_iff.mp hk)
    obtain ⟨m, hm, rfl⟩ := hids k id hid
    exact ⟨m, hm, hid⟩

/-! ### What is asked for -/

lemma exists_asked_of_build_ok (h : (build s c).1 = .ok g) :
    ∃ ks, (build s c).2 = c.askedFor ks ∧ ks.Nodup ∧ ∀ k, k ∈ ks ↔ Reaches c.answer s.references k := by
  obtain ⟨hok, -⟩ := (Building.traced_init c s).run
  refine ⟨_, build_snd s c, ?_⟩
  rw [build_fst] at h
  cases ho : (Building.run c { pending := [(.root, s)] }).2 with
  | error e =>
    rw [ho] at h
    cases h
  | ok u =>
    have hdone := hok ho
    rw [hdone.asked, List.reverse_reverse]
    exact ⟨hdone.nodup, hdone.traces.keys⟩

/-- Building that failed asked for versions that the schema reaches, for none of them twice, and
ended with the first that was not answered. -/
lemma exists_asked_of_build_error {e : Error} (h : (build s c).1 = .error e) :
    ∃ ks k err, (build s c).2 = c.askedFor (ks ++ [k]) ∧ (ks ++ [k]).Nodup ∧
      (∀ k' ∈ ks ++ [k], Reaches c.answer s.references k') ∧
      (∀ k' ∈ ks, ∃ m, c.answer k' = .ok m) ∧ c.answer k = .error err ∧ e = .registry err := by
  obtain ⟨-, herror⟩ := (Building.traced_init c s).run
  rw [build_fst] at h
  cases ho : (Building.run c { pending := [(.root, s)] }).2 with
  | ok u =>
    rw [ho] at h
    cases h
  | error e' =>
    rw [ho] at h
    cases h
    have hstop := herror e ho
    obtain ⟨k, err, he, hk, hreach, hasked⟩ := hstop.cause
    -- what the graph has was answered, so the last question was a new one
    have hnew : k ∉ (Building.run c { pending := [(.root, s)] }).1.graph.versions.keys := by
      intro hmem
      obtain ⟨m, hm⟩ := hstop.answered k hmem
      cases hm.symm.trans hk
    refine ⟨_, k, err, ?_, ?_, ?_, hstop.answered, hk, he⟩
    · rw [build_snd, hasked, List.reverse_cons, List.reverse_reverse]
    · rw [List.nodup_append]
      refine ⟨hstop.nodup, List.nodup_singleton k, fun x hx y hy => ?_⟩
      rintro rfl
      exact hnew (List.mem_singleton.mp hy ▸ hx)
    · intro k' hk'
      rcases List.mem_append.mp hk' with hk' | hk'
      · exact hstop.reached k' hk'
      · exact List.mem_singleton.mp hk' ▸ hreach

/-! ### Edges -/

lemma contains_iff : g.contains k ↔ k ∈ g.versions.keys := Table.mem_keys_iff.symm

lemma count_successors (g : Graph) (v w : Vertex) :
    (g.successors v).count w = g.edges.count (v, w) := by
  unfold successors
  rw [List.count, List.count, List.countP_filterMap]
  refine List.countP_congr fun e _ => ?_
  obtain ⟨x, y⟩ := e
  by_cases hx : x = v <;> simp [hx]

lemma count_predecessors (g : Graph) (v w : Vertex) :
    (g.predecessors w).count v = g.edges.count (v, w) := by
  unfold predecessors
  rw [List.count, List.count, List.countP_filterMap]
  refine List.countP_congr fun e _ => ?_
  obtain ⟨x, y⟩ := e
  by_cases hy : y = w <;> simp [hy]

namespace Traces

variable (h : Traces c s g)

include h

lemma count_edges (hk : k ∈ g.versions.keys) (hm : c.answer k = .ok m) (d : Key) :
    g.edges.count (.version k, .version d) = m.schema.references.countP fun r => r.key = d := by
  obtain ⟨t, ht, hedges⟩ := h.edges _ (version_mem_vertices.mpr hk)
  obtain ⟨m', hm', rfl⟩ := Client.schemaAt_version_eq_some_iff.mp ht
  cases hm.symm.trans hm'
  rw [← count_successors, hedges, List.count_reverse, List.count, List.countP_map]
  refine List.countP_congr fun r _ => ?_
  simp [Reference.target]

lemma count_dependencies (hk : k ∈ g.versions.keys) (hm : c.answer k = .ok m) (d : Key) :
    (g.dependencies k).count (.version d) = m.schema.references.countP fun r => r.key = d := by
  rw [dependencies, if_pos (contains_iff.mpr hk), count_successors, h.count_edges hk hm]

lemma count_dependents (hk : k ∈ g.versions.keys) (hm : c.answer k = .ok m) (d : Key) :
    (g.dependents d).count (.version k) = m.schema.references.countP fun r => r.key = d := by
  unfold dependents
  split
  · rw [count_predecessors, h.count_edges hk hm]
  · next hd =>
    have hnone : ∀ r ∈ m.schema.references, ¬ r.key = d := by
      rintro r hr rfl
      have hreach := ((h.keys k).mp hk).tail ⟨m, hm, r, hr, rfl⟩
      exact hd (contains_iff.mpr ((h.keys r.key).mpr hreach))
    rw [List.count_nil, eq_comm, List.countP_eq_zero]
    simpa using hnone

end Traces

/-- **What a built graph is.** Building succeeds if every version that the schema reaches can be
fetched. Its calls are then one request for each of these versions; if it fails they are requests for
some of them, for none twice, and the last one is the only one that was not answered. The versions
are the vertices besides the root, each with its key and ID, and between two of them there are as
many edges, seen from either end, as the one has references to the other. -/
theorem build_exact (os : List Operation) (s : Schema) :
    let c := Client.reached os
    let fetch := c.answer
    ((∃ g, (build s c).1 = .ok g) ↔ ∀ k, Reaches fetch s.references k → ∃ m, fetch k = .ok m) ∧
    (∀ g, (build s c).1 = .ok g → ∃ ks : List Key, ks.Nodup ∧
      (∀ k, k ∈ ks ↔ Reaches fetch s.references k) ∧
      (build s c).2 = { c with calls := c.calls ++ ks.map fun k => ⟨.version k, none⟩ } ∧
      (build s c).2.requests = c.requests ++ ks.map .version) ∧
    (∀ e, (build s c).1 = .error e → ∃ (ks : List Key) (k : Key) (err : RegistryError),
      (ks ++ [k]).Nodup ∧ (∀ k' ∈ ks ++ [k], Reaches fetch s.references k') ∧
      fetch k = .error err ∧ e = .registry err ∧
      (build s c).2 = { c with
        calls := c.calls ++ ks.map (fun k => ⟨.version k, none⟩) ++ [⟨.version k, some err⟩] }) ∧
    ∀ g, (build s c).1 = .ok g →
      ({k | Reaches fetch s.references k}.Finite ∧
        g.dependencyCount = {k | Reaches fetch s.references k}.ncard) ∧
      (∀ k id, g.id? (.version k) = some id ↔
        Reaches fetch s.references k ∧ ∃ m, fetch k = .ok m ∧ m.key = k ∧ m.id = id) ∧
      (∀ k m, Reaches fetch s.references k → fetch k = .ok m → ∀ d,
        (g.dependencies k).count (.version d) = m.schema.references.countP (fun r => r.key = d) ∧
        (g.dependents d).count (.version k) = m.schema.references.countP fun r => r.key = d) ∧
      ∀ k, ¬ Reaches fetch s.references k →
        g.dependencies k = [] ∧ g.dependents k = [] ∧ ∀ d, .version k ∉ g.dependents d := by
  intro c fetch
  refine ⟨build_isOk_iff s c, ?_, ?_, ?_⟩
  · intro g hg
    obtain ⟨ks, hasked, hnodup, hkeys⟩ := exists_asked_of_build_ok hg
    have hanswered : ∀ k ∈ ks, ∃ m, c.answer k = .ok m :=
      fun k hk => (build_isOk_iff s c).mp ⟨g, hg⟩ k ((hkeys k).mp hk)
    exact ⟨ks, hnodup, hkeys, hasked.trans (Client.askedFor_of_answered hanswered),
      hasked ▸ Client.requests_askedFor_of_answered hanswered⟩
  · intro e he
    obtain ⟨ks, k, err, hasked, hnodup, hreached, hanswered, hk, he⟩ := exists_asked_of_build_error he
    exact ⟨ks, k, err, hnodup, hreached, hk, he,
      hasked.trans (Client.askedFor_concat_of_error hanswered hk)⟩
  · intro g hg
    obtain ⟨htraces, -⟩ := traces_of_build hg
    -- what is reached are the keys of a table, so it can be counted
    have hset : {k | Reaches fetch s.references k} = ↑g.versions.keys.toFinset := by
      ext k
      rw [Finset.mem_coe, List.mem_toFinset]
      exact (htraces.keys k).symm
    refine ⟨⟨?_, ?_⟩, ?_, ?_, ?_⟩
    · rw [hset]
      exact Finset.finite_toSet _
    · rw [hset, Set.ncard_coe_finset, List.toFinset_card_of_nodup htraces.nodup]
      simp [dependencyCount, Table.size, Table.keys]
    · intro k id
      constructor
      · intro hid
        have hk : k ∈ g.versions.keys := Table.mem_keys_iff.mpr (Option.isSome_of_eq_some hid)
        obtain ⟨m, hm, hid'⟩ := id?_of_build hg hk
        rw [hid', Option.some.injEq] at hid
        exact ⟨(htraces.keys k).mp hk, m, hm, Client.key_of_answer_reached hm, hid⟩
      · rintro ⟨hk, m, hm, -, rfl⟩
        obtain ⟨m', hm', hid⟩ := id?_of_build hg ((htraces.keys k).mpr hk)
        cases hm.symm.trans hm'
        exact hid
    · intro k m hk hm d
      have hk := (htraces.keys k).mpr hk
      exact ⟨htraces.count_dependencies hk hm d, htraces.count_dependents hk hm d⟩
    · intro k hk
      have hout : k ∉ g.versions.keys := fun hmem => hk ((htraces.keys k).mp hmem)
      have hcontains : ¬ g.contains k := fun h => hout (contains_iff.mp h)
      refine ⟨if_neg hcontains, if_neg hcontains, fun d hd => ?_⟩
      unfold dependents at hd
      split at hd
      · exact hout (version_mem_vertices.mp (htraces.wellFormed.source (mem_predecessors.mp hd)))
      · cases hd

/-- A version that references itself, and another one twice, which leads back; and a version that is
not there. -/
theorem build_exact_of_parallel_references :
    let text (rs : List Reference) : Schema := ⟨"message M", .protobuf, rs⟩
    let a : Key := ⟨"a", 1⟩
    let b : Key := ⟨"b", 1⟩
    let z : Key := ⟨"z", 1⟩
    let c := Client.reached
      [.register ⟨"a", text [⟨"B", "b", 1⟩, ⟨"A", "a", 1⟩, ⟨"C", "b", 1⟩], false⟩,
        .register ⟨"b", text [⟨"A", "a", 1⟩], false⟩]
    let s := text [⟨"A", "a", 1⟩]
    let missing := text [⟨"Z", "z", 1⟩]
    (∃ g, (build s c).1 = .ok g ∧ g.dependencyCount = 2 ∧ g.id? (.version b) = some 2 ∧
      (g.dependencies a).count (.version b) = 2 ∧ (g.dependents b).count (.version a) = 2 ∧
      (g.dependents a).count (.version a) = 1) ∧
    (∃ ks : List Key, ks.Perm [a, b] ∧
      (build s c).2.calls = c.calls ++ ks.map fun k => ⟨.version k, none⟩) ∧
    (build missing c).1 = .error (.registry (.subjectNotFound "z")) ∧
    (build missing c).2.calls = c.calls ++ [⟨.version z, some (.subjectNotFound "z")⟩] := by
  intro text a b z c s missing
  let os : List Operation :=
    [.register ⟨"a", text [⟨"B", "b", 1⟩, ⟨"A", "a", 1⟩, ⟨"C", "b", 1⟩], false⟩,
      .register ⟨"b", text [⟨"A", "a", 1⟩], false⟩]
  obtain ⟨ha, hb, hz⟩ :
      c.answer a = .ok ⟨1, "a", 1, text [⟨"B", "b", 1⟩, ⟨"A", "a", 1⟩, ⟨"C", "b", 1⟩]⟩ ∧
      c.answer b = .ok ⟨2, "b", 1, text [⟨"A", "a", 1⟩]⟩ ∧
      c.answer z = .error (.subjectNotFound "z") := by
    decide +kernel
  have hra : Reaches c.answer s.references a := .head (r := ⟨"A", "a", 1⟩) (by simp [s, text])
  have hrb : Reaches c.answer s.references b :=
    hra.tail ⟨_, ha, ⟨"B", "b", 1⟩, by simp [text], rfl⟩
  have hreach : ∀ k, Reaches c.answer s.references k ↔ k = a ∨ k = b := by
    intro k
    constructor
    · intro hk
      refine hk.induction (by simp [s, text, a, Reference.key]) ?_
      rintro k k' - (rfl | rfl) ⟨m, hm, r, hr, rfl⟩
      · cases ha.symm.trans hm
        revert r
        decide
      · cases hb.symm.trans hm
        revert r
        decide
    · rintro (rfl | rfl)
      · exact hra
      · exact hrb
  have hreachz : ∀ k, Reaches c.answer missing.references k → k = z := by
    intro k hk
    refine hk.induction (by simp [missing, text, z, Reference.key]) ?_
    rintro k k' - rfl ⟨m, hm, -⟩
    cases hz.symm.trans hm
  obtain ⟨hok, hcalls, -, hgraph⟩ := build_exact os s
  obtain ⟨g, hg⟩ := hok.mpr fun k hk => by
    rcases (hreach k).mp hk with rfl | rfl
    · exact ⟨_, ha⟩
    · exact ⟨_, hb⟩
  refine ⟨⟨g, hg, ?graph⟩, ?calls, ?missing⟩
  case graph =>
    obtain ⟨⟨-, hcount⟩, hids, hedges, -⟩ := hgraph g hg
    refine ⟨?_, (hids b 2).mpr ⟨hrb, _, hb, rfl, rfl⟩, (hedges a _ hra ha b).1,
      (hedges a _ hra ha b).2, (hedges a _ hra ha a).2⟩
    have hset : {k | Reaches c.answer s.references k} = {a, b} := by
      ext k
      exact hreach k
    rw [hcount, hset, Set.ncard_pair (by decide)]
  case calls =>
    obtain ⟨ks, hnodup, hkeys, hclient, -⟩ := hcalls g hg
    refine ⟨ks, (List.perm_ext_iff_of_nodup hnodup (by decide)).mpr fun k => ?_,
      congrArg Client.calls hclient⟩
    rw [hkeys, hreach]
    simp
  case missing =>
    obtain ⟨hok, -, hcalls, -⟩ := build_exact os missing
    cases hbuild : (build missing c).1 with
    | ok g =>
      obtain ⟨m, hm⟩ := hok.mp ⟨g, hbuild⟩ z (.head (r := ⟨"Z", "z", 1⟩) (by simp [missing, text]))
      cases hz.symm.trans hm
    | error e =>
      obtain ⟨ks, k, err, hnodup, hreached, hk, rfl, hclient⟩ := hcalls e hbuild
      obtain rfl : k = z := hreachz k (hreached k (by simp))
      obtain rfl : ks = [] := by
        cases ks with
        | nil => rfl
        | cons k' ks =>
          have hk' : k' = z := hreachz k' (hreached k' List.mem_cons_self)
          rw [hk', List.cons_append, List.nodup_cons] at hnodup
          exact absurd (List.mem_append_right ks List.mem_cons_self) hnodup.1
      cases hz.symm.trans hk
      rw [List.map_nil, List.append_nil] at hclient
      exact ⟨rfl, congrArg Client.calls hclient⟩

end SchemaRegistry.Graph
