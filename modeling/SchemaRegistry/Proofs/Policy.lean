import SchemaRegistry.Policy
import SchemaRegistry.Proofs.Session

/-!
How a policy gets an ID. It has a schema of its own, which it registers or looks up: the given one,
or the one that the registry has for a pinned ID or as the latest version.
-/

namespace SchemaRegistry.IdPolicy

/-- The schema whose ID a policy asks for. -/
def target? (p : IdPolicy) (r : Registry) (u : String) (s : Schema) : Option Schema :=
  match p with
  | .autoRegister | .lookup => some s
  | .pinned id => (r.bySubjectAndId u id).toOption
  | .latestVersion => (r.latest u).toOption.map Registered.schema

/-- A schema that came from the registry is looked up by its exact text. -/
def normalizes (p : IdPolicy) (n : Bool) : Bool :=
  match p with
  | .autoRegister | .lookup => n
  | .pinned _ | .latestVersion => false

/-- The ways from the schema of a policy to its ID and the registry afterwards. -/
inductive Resolves (p : IdPolicy) (r : Registry) (u : String) (w : Schema) (n : Bool) :
    UInt32 → Registry → Prop where
  | registers (h : p.mutates) : Resolves p r u w n (r.register u w n).1 (r.register u w n).2
  | finds {id : UInt32} (h : r.idOf u w n = .ok id) : Resolves p r u w n id r

lemma resolves_of_idOf {p : IdPolicy} {u : String} {w : Schema} {n : Bool} {c c' : Client}
    {id : UInt32} (h : Client.idOf u w n c = (.ok id, c')) :
    p.Resolves c.registry u w n id c'.registry := by
  obtain ⟨hid, hr⟩ := Client.send_eq_ok h
  rw [hr]
  exact .finds hid

/-- **What a policy did** when it came to an ID. -/
theorem resolves_of_resolve {p : IdPolicy} {u : String} {s : Schema} {n : Bool} {c c' : Client}
    {id : UInt32} (h : p.resolve u s n c = (.ok id, c')) :
    ∃ w, p.target? c.registry u s = some w ∧
      p.Resolves c.registry u w (p.normalizes n) id c'.registry := by
  cases p with
  | autoRegister =>
    have hr := Client.register_eq_ok (q := ⟨u, s, n⟩) h
    have hres := Resolves.registers (p := .autoRegister) (r := c.registry) (u := u) (w := s)
      (n := n) rfl
    rw [hr] at hres
    exact ⟨s, rfl, hres⟩
  | pinned i =>
    obtain ⟨w, c₁, hw, hid⟩ := Session.bind_eq_ok_iff.mp h
    obtain ⟨hw, hr⟩ := Client.send_eq_ok hw
    refine ⟨w, by rw [target?, hw]; rfl, ?_⟩
    rw [← hr]
    exact resolves_of_idOf hid
  | latestVersion =>
    obtain ⟨m, c₁, hm, hid⟩ := Session.bind_eq_ok_iff.mp h
    obtain ⟨hm, hr⟩ := Client.send_eq_ok hm
    refine ⟨m.schema, by rw [target?, hm]; rfl, ?_⟩
    rw [← hr]
    exact resolves_of_idOf hid
  | lookup => exact ⟨s, rfl, resolves_of_idOf h⟩

/-- A policy registers at most once. -/
lemma Resolves.registry_eq {p : IdPolicy} {r r' : Registry} {u : String} {w : Schema} {n : Bool}
    {id : UInt32} (h : p.Resolves r u w n id r') :
    ∃ qs : List Registration, r' = r.registerAll qs ∧ qs.length ≤ p.mutates.toNat := by
  cases h with
  | registers hp => exact ⟨[⟨u, w, n⟩], rfl, by rw [hp]; rfl⟩
  | finds => exact ⟨[], rfl, Nat.zero_le _⟩

lemma Resolves.holds {p : IdPolicy} {r r' : Registry} {u : String} {w : Schema} {n : Bool}
    {id : UInt32} (h : p.Resolves r u w n id r') (hr : r.Sound) : r'.Holds u w n id := by
  cases h with
  | registers => exact hr.holds_register u w n
  | finds hid => exact hr.holds_of_idOf hid

end SchemaRegistry.IdPolicy
