import SchemaRegistry.Proofs.Registry.Contents
import SchemaRegistry.Proofs.Registry.Identity

/-!
What calls leave as it is. A call changes and removes nothing and adds one version at most, so that
what was answered once is answered again, and a schema that was registered by its exact text keeps
its ID whatever is registered later.
-/

namespace SchemaRegistry

/-- Whether an operation only asks the registry. -/
def Operation.isLookUp : Operation → Bool
  | bySubjectAndId _ _ | idOf _ _ _ | latest _ | version _ => true
  | register _ | setFault _ _ | clearRequests => false

lemma registerCalls_append (os os' : List Operation) :
    registerCalls (os ++ os') = registerCalls os + registerCalls os' :=
  List.countP_append

lemma Client.reached_append (os os' : List Operation) :
    reached (os ++ os') = (reached os).run os' :=
  run_append _ _ _

lemma Registry.Grows.version {r r' : Registry} (h : r.Grows r') {k : Key} {m : Registered}
    (hm : r.version k = .ok m) : r'.version k = .ok m := by
  obtain ⟨ms, hms⟩ := h.versions k.subject
  apply version_of_find?
  rw [← hms, List.find?_append, find?_of_version hm]
  rfl

namespace Client

lemma grows_run {os later : List Operation} (calls : registerCalls os < 2 ^ 31)
    (room : registerCalls os + registerCalls later < 2 ^ 32) :
    (reached os).registry.Grows ((reached os).run later).registry := by
  have hlast := lastId_reached_le calls
  have hlen := length_registrations_le (reached os) later
  rw [registry_run]
  exact ((sound_reached calls).registerAll _ (by omega)).2.1

/-- A call adds one version at most. It is that of a registration and has the ID of its answer. -/
lemma versionsOf_apply (c : Client) (o : Operation) (u : String) :
    (o.apply c).registry.versionsOf u = c.registry.versionsOf u ∨
      ∃ q id, o = .register q ∧ q.subject = u ∧
        (register q.subject q.schema q.normalize c).1 = .ok id ∧
        (o.apply c).registry.versionsOf u =
          c.registry.versionsOf u ++ [c.registry.newVersion u q.schema id] := by
  cases o with
  | register q =>
    cases hf : c.fault? .register with
    | none =>
      obtain ⟨hid, hr⟩ := register_of_fault?_none hf q
      have hv := c.registry.versionsOf_register q.subject q.schema q.normalize u
      rw [Operation.apply, hr]
      split at hv
      · next hu =>
        obtain ⟨rfl, -⟩ := hu
        exact .inr ⟨q, _, rfl, rfl, hid, hv⟩
      · exact .inl hv
    | some e =>
      rw [Operation.apply, registry_register_of_fault? hf]
      exact .inl rfl
  | bySubjectAndId | idOf | latest | version | setFault | clearRequests => exact .inl rfl

lemma apply_of_isLookUp {o : Operation} (h : o.isLookUp) (c : Client) :
    ∃ q, o.apply c = c.log q := by
  cases o with
  | bySubjectAndId | idOf | latest | version => exact ⟨_, rfl⟩
  | register | setFault | clearRequests => cases h

/-- **A registry only grows.** A call keeps every schema under its ID and every version in its
place, and adds one version at most, to the subject of a registration; a look-up only writes the
log. What was answered for a version or for an ID of a subject is answered ever after. -/
theorem reached_grows (os : List Operation) (calls : registerCalls os < 2 ^ 31) :
    let c := reached os
    (∀ o : Operation,
      c.registry.Grows (o.apply c).registry ∧
      (∀ u, (o.apply c).registry.versionsOf u = c.registry.versionsOf u ∨
        ∃ q id, o = .register q ∧ q.subject = u ∧
          (register q.subject q.schema q.normalize c).1 = .ok id ∧
          (o.apply c).registry.versionsOf u =
            c.registry.versionsOf u ++ [c.registry.newVersion u q.schema id]) ∧
      (o.isLookUp → ∃ q, o.apply c = c.log q)) ∧
    ∀ later, registerCalls os + registerCalls later ≤ 2 ^ 31 →
      (∀ k m, (version k c).1 = .ok m → (c.run later).fault? .version = none →
        (version k (c.run later)).1 = .ok m) ∧
      (∀ u id s, (bySubjectAndId u id c).1 = .ok s →
        (c.run later).fault? .bySubjectAndId = none →
        (bySubjectAndId u id (c.run later)).1 = .ok s) := by
  intro c
  refine ⟨fun o => ⟨?_, versionsOf_apply c o, fun h => apply_of_isLookUp h c⟩, ?_⟩
  · have hone : registerCalls [o] ≤ 1 := List.countP_le_length
    have hgrow : c.registry.Grows (c.run [o]).registry := grows_run calls (by omega)
    exact hgrow
  · intro later room
    have hgrow : c.registry.Grows (c.run later).registry := grows_run calls (by omega)
    constructor
    · intro k m hm up
      obtain ⟨-, hm⟩ := send_eq_ok_iff.mp hm
      exact send_eq_ok_iff.mpr ⟨up, hgrow.version hm⟩
    · intro u id s hs up
      obtain ⟨-, hs⟩ := send_eq_ok_iff.mp hs
      exact send_eq_ok_iff.mpr ⟨up, hgrow.bySubjectAndId hs⟩

theorem reached_grows_after_reformatted :
    let s : Schema := ⟨"\"string\"", .avro, []⟩
    let t : Schema := ⟨" \"string\"", .avro, []⟩
    let os : List Operation := [.register ⟨"a", s, false⟩, .register ⟨"b", t, true⟩]
    let later : List Operation := [.register ⟨"b", t, false⟩, .setFault .register (some "down"),
      .register ⟨"a", t, false⟩, .latest "b"]
    (version ⟨"b", 1⟩ ((reached os).run later)).1 = .ok ⟨1, "b", 1, t⟩ ∧
      (bySubjectAndId "b" 1 ((reached os).run later)).1 = .ok s ∧
      ((Operation.register ⟨"b", t, false⟩).apply (reached os)).registry.versionsOf "a" =
        (reached os).registry.versionsOf "a" := by
  intro s t os later
  obtain ⟨hstep, hlater⟩ := reached_grows os (by decide)
  obtain ⟨hversion, hid⟩ := hlater later (by decide)
  refine ⟨hversion _ _ (by decide +kernel) (by decide +kernel),
    hid _ _ _ (by decide +kernel) (by decide +kernel), ?_⟩
  obtain ⟨-, hlonger, -⟩ := hstep (.register ⟨"b", t, false⟩)
  rcases hlonger "a" with h | ⟨q, id, hq, hu, -⟩
  · exact h
  · cases hq
    exact absurd hu (by decide)

/-! ### Registrations by exact text -/

lemma holds_of_register {before later : List Operation} {q : Registration} {id : UInt32}
    (calls : registerCalls (before ++ .register q :: later) < 2 ^ 31)
    (h : (register q.subject q.schema q.normalize (reached before)).1 = .ok id) :
    (reached (before ++ .register q :: later)).registry.Holds q.subject q.schema q.normalize
      id := by
  rw [List.append_cons, registerCalls_append] at calls
  have hbefore : registerCalls before ≤ registerCalls (before ++ [.register q]) := by
    rw [registerCalls_append]
    omega
  have hr := register_eq_ok (c := reached before) (Prod.ext h rfl)
  have hholds := (sound_reached (Nat.lt_of_le_of_lt hbefore (by omega))).holds_register
    q.subject q.schema q.normalize
  rw [hr] at hholds
  have hnext : (reached (before ++ [.register q])).registry.Holds q.subject q.schema q.normalize
      id := by
    rw [reached_append]
    exact hholds
  -- what comes later only lets the registry grow
  rw [List.append_cons, reached_append]
  exact (grows_run (by omega) (by omega)).holds hnext

/-- **What was registered by its exact text keeps its ID.** After any further calls looking it up
and registering it again, under any subject, answer with that ID, and registering it again where it
was changes nothing. -/
theorem register_exact_persists (before later : List Operation) (u : String) (s : Schema)
    (id : UInt32)
    (calls : registerCalls (before ++ .register ⟨u, s, false⟩ :: later) < 2 ^ 31)
    (sep : Fingerprint.Separates (hashed {} (before ++ .register ⟨u, s, false⟩ :: later)))
    (h : (register u s false (reached before)).1 = .ok id) :
    let c := reached (before ++ .register ⟨u, s, false⟩ :: later)
    (c.fault? .idOf = none → (idOf u s false c).1 = .ok id) ∧
    (c.fault? .register = none → ∀ v, (register v s false c).1 = .ok id) ∧
    (register u s false c).2.registry = c.registry := by
  intro c
  have hc : c.registry.Collected _ := collected_reached calls sep (List.Subset.refl _)
  have hholds : c.registry.Holds u s false id := holds_of_register calls h
  have hlookup : c.registry.lookup? s false = some id := hc.lookup?_of_holds hholds
  have hid : c.registry.idOf u s false = .ok id :=
    Registry.idOf_eq_ok_iff.mpr ⟨hlookup, hholds.version⟩
  refine ⟨fun up => send_eq_ok_iff.mpr ⟨up, hid⟩, ?_, ?_⟩
  · intro up v
    rw [(register_of_fault?_none up ⟨v, s, false⟩).1, Registry.register_of_lookup? hlookup]
  · cases hf : c.fault? .register with
    | none =>
      rw [(register_of_fault?_none hf ⟨u, s, false⟩).2, Registry.register_of_idOf hid]
    | some e => exact registry_register_of_fault? hf ⟨u, s, false⟩

theorem register_exact_persists_among_layouts :
    let s : Schema := ⟨"\"string\"", .avro, []⟩
    let t : Schema := ⟨" \"string\"", .avro, []⟩
    let before : List Operation := [.register ⟨"a", t, true⟩]
    let later : List Operation := [.register ⟨"b", t, true⟩, .setFault .latest (some "down")]
    let c := reached (before ++ .register ⟨"a", s, false⟩ :: later)
    (idOf "a" s false c).1 = .ok 2 ∧ (register "b" s false c).1 = .ok 2 ∧
      (register "a" s false c).2.registry.versionsOf "a" = c.registry.versionsOf "a" := by
  intro s t before later c
  have hsep : Fingerprint.Separates (s.hashed false ++ t.hashed false) := by decide +kernel
  have hsub : hashed {} (before ++ .register ⟨"a", s, false⟩ :: later) ⊆
      s.hashed false ++ t.hashed false :=
    hashed_subset_of_layouts (by decide +kernel) (by decide +kernel) rfl (by decide +kernel) rfl
  have h : (register "a" s false (reached before)).1 = .ok 2 := by decide +kernel
  obtain ⟨hid, hany, hsame⟩ :=
    register_exact_persists before later "a" s 2 (by decide) (hsep.mono hsub) h
  exact ⟨hid rfl, hany rfl "b", by rw [hsame]⟩

end Client

end SchemaRegistry
