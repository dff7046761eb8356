import SchemaRegistry.Avro.Linked
import SchemaRegistry.Proofs.Reference.Order
import SchemaRegistry.Proofs.Registry.Contents
import SchemaRegistry.Proofs.Session

/-!
The traversals of what a schema references, side by side. Resolving, linking and building a graph
that has an order succeed together, and then they come upon the same versions.
-/

namespace SchemaRegistry

open Relation

lemma Client.key_of_answer_reached {os : List Operation} {k : Key} {m : Registered}
    (h : (reached os).answer k = .ok m) : m.key = k := by
  obtain ⟨-, hm⟩ := answerTo_eq_ok_iff.mp h
  rw [registry_reached] at hm
  exact Registry.key_of_version hm

/-! ### What is linked -/

namespace Avro

/-- The versions that a schema is linked against: those that the walk visits, each where it came
first. -/
def gather (s : Schema) : Session (List Registered) := fun c =>
  let w := c.walkFrom s
  (w.outcome.map fun _ => firstVisits [] w.visits, c.askedFor w.asked)

/-- Linking comes after gathering, and sees nothing but the texts that were gathered. -/
lemma resolve_eq_gather (s : Schema) :
    resolve s = gather s >>= fun ms => liftM (link s.text (ms.map fun m => m.schema.text)) := by
  funext c
  cases h : (c.walkFrom s).outcome with
  | error e =>
    have hg : gather s c = (.error e, c.askedFor (c.walkFrom s).asked) := by
      simp [gather, h, Except.map]
    rw [Session.bind_of_error hg]
    simp [resolve, h, Except.bind]
  | ok u =>
    have hg : gather s c =
        (.ok (firstVisits [] (c.walkFrom s).visits), c.askedFor (c.walkFrom s).asked) := by
      simp [gather, h, Except.map]
    rw [Session.bind_of_ok hg, Session.lift_apply]
    simp [resolve, h, Except.bind, definitions]

lemma gather_eq_ok_iff {s : Schema} {c : Client} {ms : List Registered} :
    (gather s c).1 = .ok ms ↔
      (c.walkFrom s).outcome = .ok () ∧ ms = firstVisits [] (c.walkFrom s).visits := by
  have hfst : (gather s c).1 =
      (c.walkFrom s).outcome.map fun _ => firstVisits [] (c.walkFrom s).visits := rfl
  rw [hfst]
  cases (c.walkFrom s).outcome <;> simp [Except.map, eq_comm]

lemma mem_keys_firstVisits {seen : List Key} {vs : List (Reference × Registered)} {k : Key} :
    k ∈ (firstVisits seen vs).map Registered.key ↔ k ∈ vs.map (fun v => v.2.key) ∧ k ∉ seen := by
  induction vs generalizing seen with
  | nil => simp [firstVisits]
  | cons v vs ih =>
    obtain ⟨r, m⟩ := v
    unfold firstVisits
    split
    · next h =>
      rw [ih, List.map_cons, List.mem_cons]
      constructor
      · exact fun hk => ⟨.inr hk.1, hk.2⟩
      · rintro ⟨rfl | hk, hseen⟩
        · exact absurd h hseen
        · exact ⟨hk, hseen⟩
    · next h =>
      rw [List.map_cons, List.mem_cons, ih, List.map_cons, List.mem_cons, List.mem_cons, not_or]
      constructor
      · rintro (rfl | ⟨hk, -, hseen⟩)
        · exact ⟨.inl rfl, h⟩
        · exact ⟨.inr hk, hseen⟩
      · rintro ⟨hk, hseen⟩
        by_cases e : k = m.key
        · exact .inl e
        · exact .inr ⟨hk.resolve_left e, e, hseen⟩

end Avro

/-! ### Success -/

section Success

variable {c : Client} {s : Schema}

lemma resolve_isOk_iff_resolvable : (∃ m, (Sources.resolve s c).1 = .ok m) ↔ c.Resolvable s := by
  rw [Sources.resolve_eq_ok_iff, Client.outcome_walkFrom_eq_ok_iff]

lemma gather_isOk_iff_resolvable : (∃ ms, (Avro.gather s c).1 = .ok ms) ↔ c.Resolvable s := by
  simp only [Avro.gather_eq_ok_iff, exists_and_left, exists_eq, and_true]
  exact c.outcome_walkFrom_eq_ok_iff s

lemma acyclic_iff_resolvable {g : Graph} (hg : (Graph.build s c).1 = .ok g) :
    (¬ ∃ v, TransGen g.Edge v v) ↔ c.Resolvable s := by
  obtain ⟨htraces, hm⟩ := Graph.traces_of_build hg
  rw [htraces.exists_cycle_iff]
  constructor
  · exact fun h k hk => ⟨hm k hk, fun hc => h ⟨k, hk, hc⟩⟩
  · rintro h ⟨k, hk, hc⟩
    exact (h k hk).2 hc

lemma exists_graph_iff_resolvable {p : Graph → Prop}
    (hp : ∀ g, g.WellFormed → (p g ↔ ¬ ∃ v, TransGen g.Edge v v)) :
    (∃ g, (Graph.build s c).1 = .ok g ∧ p g) ↔ c.Resolvable s := by
  constructor
  · rintro ⟨g, hg, h⟩
    have hwf := (Graph.traces_of_build hg).1.wellFormed
    exact (acyclic_iff_resolvable hg).mp ((hp g hwf).mp h)
  · intro h
    obtain ⟨g, hg⟩ := (Graph.build_isOk_iff s c).mpr fun k hk => (h k hk).1
    have hwf := (Graph.traces_of_build hg).1.wellFormed
    exact ⟨g, hg, (hp g hwf).mpr ((acyclic_iff_resolvable hg).mpr h)⟩

end Success

/-- **The traversals agree.** References resolve if and only if what is linked can be gathered, and
if and only if a graph is built that has no cycle, or that has an order. Then what the walk visits,
what is linked and what is in the graph besides the schema are the same versions. -/
theorem traversals_agree (os : List Operation) (s : Schema) :
    let c := Client.reached os
    Avro.resolve s = (Avro.gather s >>= fun ms =>
      liftM (Avro.link s.text (ms.map fun m => m.schema.text))) ∧
    ((∃ m, (Sources.resolve s c).1 = .ok m) ↔ ∃ ms, (Avro.gather s c).1 = .ok ms) ∧
    ((∃ m, (Sources.resolve s c).1 = .ok m) ↔
      ∃ g, (Graph.build s c).1 = .ok g ∧ g.hasCycle = false) ∧
    ((∃ m, (Sources.resolve s c).1 = .ok m) ↔
      ∃ g, (Graph.build s c).1 = .ok g ∧ ∃ vs, g.resolutionOrder = .ok vs) ∧
    ∀ ms g, (Avro.gather s c).1 = .ok ms → (Graph.build s c).1 = .ok g → ∀ k,
      (k ∈ (c.walkFrom s).visits.map (fun v => v.1.key) ↔ k ∈ ms.map Registered.key) ∧
      (k ∈ ms.map Registered.key ↔ .version k ∈ g.vertices) := by
  intro c
  refine ⟨Avro.resolve_eq_gather s, ?_, ?_, ?_, ?_⟩
  · rw [resolve_isOk_iff_resolvable, gather_isOk_iff_resolvable]
  · rw [resolve_isOk_iff_resolvable,
      exists_graph_iff_resolvable fun g => Graph.hasCycle_eq_false_iff]
  · rw [resolve_isOk_iff_resolvable,
      exists_graph_iff_resolvable fun g => Graph.exists_resolutionOrder_iff]
  · intro ms g hms hg k
    obtain ⟨hwalk, rfl⟩ := Avro.gather_eq_ok_iff.mp hms
    -- a visit is of the version that its reference names
    have hkeys : (c.walkFrom s).visits.map (fun v => v.2.key) =
        (c.walkFrom s).visits.map fun v => v.1.key := by
      refine List.map_congr_left fun v hv => ?_
      exact Client.key_of_answer_reached (Client.answer_of_mem_visits hv).1
    have hvisits : k ∈ (c.walkFrom s).visits.map (fun v => v.1.key) ↔
        Reaches c.answer s.references k := Client.mem_visits_iff hwalk
    have hlinked : k ∈ (Avro.firstVisits [] (c.walkFrom s).visits).map Registered.key ↔
        Reaches c.answer s.references k := by
      rw [Avro.mem_keys_firstVisits, hkeys, hvisits]
      simp
    rw [hvisits, hlinked, Graph.version_mem_vertices, (Graph.traces_of_build hg).1.keys]
    exact ⟨Iff.rfl, Iff.rfl⟩

/-- A version that is reached twice is linked once, and it is one vertex. -/
theorem traversals_agree_of_diamond :
    let text (rs : List Reference) : Schema := ⟨"message M", .protobuf, rs⟩
    let os := [.register ⟨"c", text [], false⟩, .register ⟨"d", text [⟨"C", "c", 1⟩], false⟩]
    let c := Client.reached os
    let diamond := text [⟨"D", "d", 1⟩, ⟨"C", "c", 1⟩]
    ∃ ms g, (Avro.gather diamond c).1 = .ok ms ∧
      ms.map Registered.key = [⟨"c", 1⟩, ⟨"d", 1⟩] ∧
      (Graph.build diamond c).1 = .ok g ∧ g.hasCycle = false ∧
      (∃ vs, g.resolutionOrder = .ok vs) ∧
      ∀ k, .version k ∈ g.vertices ↔ k = ⟨"c", 1⟩ ∨ k = ⟨"d", 1⟩ := by
  intro text os c diamond
  obtain ⟨hc, hd⟩ : c.answer ⟨"c", 1⟩ = .ok ⟨1, "c", 1, text []⟩ ∧
      c.answer ⟨"d", 1⟩ = .ok ⟨2, "d", 1, text [⟨"C", "c", 1⟩]⟩ := by
    decide +kernel
  have hwalkc (path : List Key) (hp : ⟨"c", 1⟩ ∉ path) : c.walk path [⟨"C", "c", 1⟩] =
      ⟨[⟨"c", 1⟩], [(⟨"C", "c", 1⟩, ⟨1, "c", 1, text []⟩)], .ok ()⟩ := by
    rw [Client.walk_of_ok hp hc]
    simp [text, Walk.ask, Walk.visit, Reference.key]
  have hwalk : c.walkFrom diamond = ⟨[⟨"d", 1⟩, ⟨"c", 1⟩, ⟨"c", 1⟩],
      [(⟨"C", "c", 1⟩, ⟨1, "c", 1, text []⟩),
        (⟨"D", "d", 1⟩, ⟨2, "d", 1, text [⟨"C", "c", 1⟩]⟩),
        (⟨"C", "c", 1⟩, ⟨1, "c", 1, text []⟩)], .ok ()⟩ := by
    rw [Client.walkFrom, Client.walk_of_ok (by simp) hd, hwalkc _ (by decide), hwalkc _ (by simp)]
    rfl
  have hgather : (Avro.gather diamond c).1 =
      .ok [⟨1, "c", 1, text []⟩, ⟨2, "d", 1, text [⟨"C", "c", 1⟩]⟩] := by
    rw [Avro.gather_eq_ok_iff, hwalk]
    exact ⟨rfl, by decide⟩
  obtain ⟨-, hlinked, hacyclic, hordered, hkeys⟩ := traversals_agree os diamond
  obtain ⟨g, hg, hcycle⟩ := hacyclic.mp (hlinked.mpr ⟨_, hgather⟩)
  obtain ⟨g', hg', horder⟩ := hordered.mp (hlinked.mpr ⟨_, hgather⟩)
  cases hg.symm.trans hg'
  refine ⟨_, g, hgather, rfl, hg, hcycle, horder, fun k => ?_⟩
  rw [← (hkeys _ g hgather hg k).2]
  simp [Registered.key]

end SchemaRegistry
