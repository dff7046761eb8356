import SchemaRegistry.Proofs.Registry.Canonical

/-!
Registering against looking up. What a look-up finds is registered without a change; anything else
gets a version, and an ID too if its identity is not in the index. Either way it is found afterwards.
-/

namespace SchemaRegistry

namespace Registry

lemma isSome_withId?_register (r : Registry) (u : String) (s : Schema) (n : Bool) :
    ((r.register u s n).2.withId? u (r.register u s n).1).isSome := by
  cases hl : r.lookup? s n with
  | some id =>
    rw [register_of_lookup? hl]
    exact isSome_withId?_addVersion r u s id
  | none =>
    rw [register_of_lookup?_none hl]
    exact isSome_withId?_addVersion (r.allocate s) u s _

lemma idOf_register (r : Registry) (u : String) (s : Schema) (n : Bool) :
    (r.register u s n).2.idOf u s n = .ok (r.register u s n).1 := by
  rw [idOf_eq_ok_iff, lookup?_register, if_pos rfl]
  exact ⟨rfl, r.isSome_withId?_register u s n⟩

section Sound

variable {r : Registry} (h : r.Sound) (room : r.lastId.toNat + 1 < 2 ^ 32)

include h room

lemma Sound.get?_schemas_register_eq_none_iff (u : String) (s : Schema) (n : Bool) :
    r.schemas.get? (r.register u s n).1 = none ↔ r.lookup? s n = none := by
  cases hl : r.lookup? s n with
  | some id =>
    obtain ⟨t, ht, -⟩ := h.filed hl
    simp [register_of_lookup? hl, ht]
  | none =>
    rw [register_of_lookup?_none hl, Option.eq_none_iff_forall_ne_some]
    simp only [iff_true]
    exact fun t ht => h.ne_nextId room ht rfl

lemma Sound.register_eq_self_iff {u : String} {s : Schema} {n : Bool} :
    (r.register u s n).2 = r ↔ ∃ id, r.idOf u s n = .ok id := by
  constructor
  · intro e
    rw [← h.versionsOf_register_eq_iff room, e]
  · rintro ⟨id, hid⟩
    rw [register_of_idOf hid]

lemma Sound.versionsOf_register_of_not_found {u : String} {s : Schema} {n : Bool}
    (hnone : ¬ ∃ id, r.idOf u s n = .ok id) (u' : String) :
    (r.register u s n).2.versionsOf u' =
      if u' = u then r.versionsOf u ++ [r.newVersion u s (r.register u s n).1]
      else r.versionsOf u' := by
  have hnew : r.withId? u (r.register u s n).1 = none := by
    rw [← Option.not_isSome_iff_eq_none, h.isSome_withId?_register_iff room]
    exact hnone
  rw [versionsOf_register]
  simp only [hnew, and_true]

end Sound

end Registry

namespace Client

/-- **Registering and looking up agree.** Registering changes nothing if a look-up finds the schema,
and only then, and gives out the ID that is found. Otherwise the subject gets one version and no
other subject gets any; the ID is a new one, which stands for the schema, if the index that the flag
picks does not have its identity, and only then. A look-up afterwards finds what was given out. -/
theorem register_agrees_with_idOf (os : List Operation) (calls : registerCalls os < 2 ^ 31)
    (u : String) (s : Schema) (n : Bool) :
    let r := (reached os).registry
    let id := (r.register u s n).1
    let r' := (r.register u s n).2
    (r' = r ↔ ∃ i, r.idOf u s n = .ok i) ∧
    (∀ i, r.idOf u s n = .ok i → id = i) ∧
    ((¬ ∃ i, r.idOf u s n = .ok i) →
      ∀ u', r'.versionsOf u' =
        if u' = u then r.versionsOf u ++ [r.newVersion u s id] else r.versionsOf u') ∧
    (r.schemas.get? id = none ↔ r.lookup? s n = none) ∧
    (∀ i, r'.schemas.get? i =
      if i = id ∧ r.lookup? s n = none then some s else r.schemas.get? i) ∧
    r'.lastId.toNat = r.lastId.toNat + (if r.lookup? s n = none then 1 else 0) ∧
    r'.idOf u s n = .ok id := by
  intro r id r'
  have h : r.Sound := sound_reached calls
  have hroom : r.lastId.toNat + 1 < 2 ^ 32 := room_reached calls
  refine ⟨h.register_eq_self_iff hroom, fun i hi => ?_, h.versionsOf_register_of_not_found hroom,
    h.get?_schemas_register_eq_none_iff hroom u s n, r.get?_schemas_register_eq_ite u s n,
    Registry.toNat_lastId_register hroom u s n, r.idOf_register u s n⟩
  exact congrArg Prod.fst (Registry.register_of_idOf hi)

theorem register_agrees_with_idOf_across_subjects :
    let s : Schema := ⟨"message M", .protobuf, []⟩
    let t : Schema := ⟨"message N", .protobuf, []⟩
    let os : List Operation := [.register ⟨"a", s, false⟩]
    let r := (reached os).registry
    (r.register "a" s true).2 = r ∧
      (r.register "b" s false).2.versionsOf "b" = [⟨1, "b", 1, s⟩] ∧
      r.schemas.get? (r.register "a" t true).1 = none ∧
      (r.register "a" t true).2.idOf "a" t true = .ok 2 := by
  intro s t os r
  obtain ⟨hsame, -⟩ := register_agrees_with_idOf os (by decide) "a" s true
  obtain ⟨-, -, hversion, -⟩ := register_agrees_with_idOf os (by decide) "b" s false
  obtain ⟨-, -, -, hnew, -, -, hfound⟩ := register_agrees_with_idOf os (by decide) "a" t true
  obtain ⟨ha, hb, hv, ht, hid⟩ : r.idOf "a" s true = .ok 1 ∧
      r.idOf "b" s false = .error (.subjectNotFound "b") ∧
      r.versionsOf "b" ++ [r.newVersion "b" s (r.register "b" s false).1] = [⟨1, "b", 1, s⟩] ∧
      r.lookup? t true = none ∧ (r.register "a" t true).1 = 2 := by
    decide +kernel
  have hmiss : ¬ ∃ i, r.idOf "b" s false = .ok i := by
    rw [hb]
    rintro ⟨i, hi⟩
    cases hi
  refine ⟨hsame.mpr ⟨1, ha⟩, ?_, hnew.mpr ht, ?_⟩
  · rw [hversion hmiss "b", if_pos rfl, hv]
  · rw [hfound, hid]

end Client

end SchemaRegistry
