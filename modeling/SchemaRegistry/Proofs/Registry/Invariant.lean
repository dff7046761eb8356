import Mathlib.Data.List.Perm.Subperm
import SchemaRegistry.Proofs.Registry.Growth

/-!
What holds of every registry that calls reach. IDs are given out one by one, an index only holds IDs
that were given out to a schema with the identity it files them under, and the versions of a subject
are numbered from one and have different IDs.
-/

namespace SchemaRegistry.Registry

/-- The list `ms` is a history of the subject `u`. -/
structure History (r : Registry) (u : String) (ms : List Registered) : Prop where
  numbered : ms.map Registered.version = (List.range ms.length).map fun i => Int32.ofNat (i + 1)
  owned : ∀ m ∈ ms, m.subject = u
  distinct : (ms.map Registered.id).Nodup
  /-- A version stores the schema of its own call, which shares an identity with the one that the
  ID was given to. -/
  known : ∀ m ∈ ms, ∃ t n, r.schemas.get? m.id = some t ∧ t.identity n = m.schema.identity n

lemma History.mono {r r' : Registry} {u : String} {ms : List Registered} (h : r.History u ms)
    (hr : r.Grows r') : r'.History u ms := by
  refine ⟨h.numbered, h.owned, h.distinct, ?_⟩
  intro m hm
  obtain ⟨t, n, ht, hn⟩ := h.known m hm
  exact ⟨t, n, hr.schemas ht, hn⟩

/-- The invariant of all calls. -/
structure Sound (r : Registry) : Prop where
  ids : ∀ id, (r.schemas.get? id).isSome ↔ 0 < id.toNat ∧ id.toNat ≤ r.lastId.toNat
  filed : ∀ {n k id}, (r.index n).get? k = some id →
    ∃ t, r.schemas.get? id = some t ∧ t.identity n = k
  indexed : ∀ {id t}, r.schemas.get? id = some t → ∀ n, ((r.index n).get? (t.identity n)).isSome
  histories : ∀ u, r.History u (r.versionsOf u)
  inhabited : ∀ {u ms}, r.subjects.get? u = some ms → ms ≠ []
  subjects : r.subjects.keys.Nodup

lemma sound_empty : Registry.empty.Sound := by
  refine ⟨?ids, ?filed, ?indexed, ?histories, ?inhabited, ?subjects⟩
  case ids =>
    intro id
    have h : ¬(0 < id.toNat ∧ id.toNat ≤ (0 : UInt32).toNat) := by
      have := UInt32.toNat_zero
      omega
    simpa [Registry.empty] using h
  case filed =>
    intro n k id h
    cases n <;> simp [Registry.empty, index] at h
  case indexed =>
    intro id t h
    simp [Registry.empty] at h
  case histories =>
    intro u
    exact ⟨rfl, by simp [Registry.empty, versionsOf], .nil, by simp [Registry.empty, versionsOf]⟩
  case inhabited =>
    intro u ms h
    simp [Registry.empty] at h
  case subjects =>
    simp [Registry.empty, Table.keys, Table.empty]

lemma Sound.id_le {r : Registry} (h : r.Sound) {id : UInt32} {t : Schema}
    (ht : r.schemas.get? id = some t) : id.toNat ≤ r.lastId.toNat :=
  ((h.ids id).mp (by rw [ht]; rfl)).2

/-- The subject has a version with the ID, and that was given to a schema with the identity of
`s`. -/
structure Holds (r : Registry) (u : String) (s : Schema) (n : Bool) (id : UInt32) : Prop where
  version : (r.withId? u id).isSome
  schema : ∃ t, r.schemas.get? id = some t ∧ t.identity n = s.identity n

/-! ### Giving out an ID -/

section Allocate

variable {r : Registry} (h : r.Sound) (room : r.lastId.toNat + 1 < 2 ^ 32)

include room in
lemma toNat_nextId : (r.lastId + 1).toNat = r.lastId.toNat + 1 := by
  rw [UInt32.toNat_add]
  exact Nat.mod_eq_of_lt (by rw [UInt32.toNat_one]; omega)

include h room in
lemma Sound.ne_nextId {id : UInt32} {t : Schema} (ht : r.schemas.get? id = some t) :
    id ≠ r.lastId + 1 := by
  intro e
  have hle := h.id_le ht
  rw [e, toNat_nextId room] at hle
  omega

@[simp] lemma index_allocate (r : Registry) (s : Schema) (n : Bool) :
    (r.allocate s).index n = (r.index n).insert (s.identity n) (r.lastId + 1) := by
  cases n <;> rfl

lemma get?_schemas_allocate (r : Registry) (s : Schema) (id : UInt32) :
    (r.allocate s).schemas.get? id = if id = r.lastId + 1 then some s else r.schemas.get? id :=
  Table.get?_insert _ _ _ _

include h room in
lemma Sound.grows_allocate (s : Schema) : r.Grows (r.allocate s) :=
  ⟨fun ht => by rw [get?_schemas_allocate, if_neg (h.ne_nextId room ht), ht],
    fun _ => List.prefix_rfl⟩

include h room in
lemma Sound.allocate (s : Schema) : (r.allocate s).Sound := by
  have hgrow := h.grows_allocate room s
  refine ⟨?ids, ?filed, ?indexed, fun u => (h.histories u).mono hgrow, h.inhabited, h.subjects⟩
  case ids =>
    intro id
    have hlast : (r.allocate s).lastId.toNat = r.lastId.toNat + 1 := toNat_nextId room
    rw [get?_schemas_allocate, hlast]
    split
    · next e =>
      have := toNat_nextId room
      simp [e, this]
    · next e =>
      have hne : id.toNat ≠ r.lastId.toNat + 1 := fun he =>
        e (UInt32.toNat_inj.mp (he.trans (toNat_nextId room).symm))
      rw [h.ids]
      omega
  case filed =>
    intro n k id hk
    rw [index_allocate, Table.get?_insert] at hk
    split at hk
    · next e =>
      cases hk
      exact ⟨s, by rw [get?_schemas_allocate, if_pos rfl], e.symm⟩
    · obtain ⟨t, ht, hn⟩ := h.filed hk
      exact ⟨t, hgrow.schemas ht, hn⟩
  case indexed =>
    intro id t ht n
    rw [index_allocate, Table.get?_insert]
    rw [get?_schemas_allocate] at ht
    split at ht
    · cases ht
      simp
    · split
      · rfl
      · exact h.indexed ht n

end Allocate

/-! ### Adding a version -/

lemma nextVersion_of_numbered {ms : List Registered}
    (h : ms.map Registered.version = (List.range ms.length).map fun i => Int32.ofNat (i + 1)) :
    nextVersion ms = Int32.ofNat (ms.length + 1) := by
  have hlast := congrArg List.getLast? h
  rw [List.getLast?_map, List.getLast?_map, List.getLast?_range] at hlast
  unfold nextVersion
  split
  · next m hm =>
    have hpos : ms.length ≠ 0 := by
      rintro h0
      rw [List.length_eq_zero_iff.mp h0] at hm
      simp at hm
    rw [hm, if_neg hpos, Option.map_some, Option.map_some, Option.some.injEq] at hlast
    rw [hlast, Nat.sub_add_cancel (by omega), Int32.ofNat_add]
    rfl
  · next hm =>
    rw [List.getLast?_eq_none_iff] at hm
    subst hm
    rfl

lemma History.snoc {r : Registry} {u : String} {ms : List Registered} (h : r.History u ms)
    {s t : Schema} {n : Bool} {id : UInt32} (hid : ∀ m ∈ ms, m.id ≠ id)
    (ht : r.schemas.get? id = some t) (hn : t.identity n = s.identity n) :
    r.History u (ms ++ [⟨id, u, nextVersion ms, s⟩]) := by
  refine ⟨?numbered, ?owned, ?distinct, ?known⟩
  case numbered =>
    rw [List.map_append, h.numbered, List.length_append, List.length_singleton, List.range_succ,
      List.map_append, List.map_singleton, List.map_singleton, nextVersion_of_numbered h.numbered]
  case owned =>
    intro m hm
    rcases List.mem_append.mp hm with hm | hm
    · exact h.owned m hm
    · rw [List.mem_singleton.mp hm]
  case distinct =>
    rw [List.map_append, List.nodup_append]
    refine ⟨h.distinct, by simp, ?_⟩
    intro a ha b hb
    obtain ⟨m, hm, rfl⟩ := List.mem_map.mp ha
    rw [List.map_singleton, List.mem_singleton] at hb
    subst hb
    exact hid m hm
  case known =>
    intro m hm
    rcases List.mem_append.mp hm with hm | hm
    · exact h.known m hm
    · rw [List.mem_singleton.mp hm]
      exact ⟨t, n, ht, hn⟩

lemma Sound.addVersion {r : Registry} (h : r.Sound) {u : String} {s t : Schema} {n : Bool}
    {id : UInt32} (ht : r.schemas.get? id = some t) (hn : t.identity n = s.identity n) :
    (r.addVersion u s id).Sound := by
  cases hid : r.withId? u id with
  | some m => rwa [addVersion_of_withId? hid]
  | none =>
    have hne : ∀ m ∈ r.versionsOf u, m.id ≠ id := by simpa using List.find?_eq_none.mp hid
    refine ⟨?ids, ?filed, ?indexed, ?histories, ?inhabited, ?subjects⟩
    case ids =>
      intro id'
      rw [schemas_addVersion, lastId_addVersion]
      exact h.ids id'
    case filed =>
      intro n k id' hk
      rw [index_addVersion] at hk
      rw [schemas_addVersion]
      exact h.filed hk
    case indexed =>
      intro id' t ht n
      rw [schemas_addVersion] at ht
      rw [index_addVersion]
      exact h.indexed ht n
    case histories =>
      intro u'
      refine History.mono ?_ (grows_addVersion r u s id)
      rw [versionsOf_addVersion hid]
      split
      · next e =>
        rw [e]
        exact (h.histories u).snoc hne ht hn
      · exact h.histories u'
    case inhabited =>
      intro u' ms hu
      rw [get?_subjects_addVersion hid] at hu
      split at hu
      · cases hu
        simp
      · exact h.inhabited hu
    case subjects =>
      simp only [Registry.addVersion, hid]
      exact Table.nodup_keys_insert h.subjects _ _

lemma holds_addVersion {r : Registry} {s t : Schema} {n : Bool} {id : UInt32}
    (ht : r.schemas.get? id = some t) (hn : t.identity n = s.identity n) (u : String) :
    (r.addVersion u s id).Holds u s n id :=
  ⟨isSome_withId?_addVersion r u s id, t, by rwa [schemas_addVersion], hn⟩

/-! ### Registering -/

lemma register_of_lookup? {r : Registry} {s : Schema} {n : Bool} {id : UInt32}
    (h : r.lookup? s n = some id) (u : String) :
    r.register u s n = (id, r.addVersion u s id) := by
  simp only [register, h]

lemma register_of_lookup?_none {r : Registry} {s : Schema} {n : Bool}
    (h : r.lookup? s n = none) (u : String) :
    r.register u s n = (r.lastId + 1, (r.allocate s).addVersion u s (r.lastId + 1)) := by
  simp only [register, h]

/-- A registration adds one version, to its own subject, if the ID that it gives out is new there. -/
lemma versionsOf_register (r : Registry) (u : String) (s : Schema) (n : Bool) (u' : String) :
    (r.register u s n).2.versionsOf u' =
      if u' = u ∧ r.withId? u (r.register u s n).1 = none then
        r.versionsOf u ++ [r.newVersion u s (r.register u s n).1]
      else r.versionsOf u' := by
  cases hl : r.lookup? s n with
  | some id =>
    rw [register_of_lookup? hl]
    exact r.versionsOf_addVersion_eq_ite u s id u'
  | none =>
    rw [register_of_lookup?_none hl]
    exact (r.allocate s).versionsOf_addVersion_eq_ite u s _ u'

/-- What is looked up after a registration: every schema with its identity has its ID. -/
lemma lookup?_register (r : Registry) (u : String) (s t : Schema) (n : Bool) :
    (r.register u s n).2.lookup? t n =
      if t.identity n = s.identity n then some (r.register u s n).1 else r.lookup? t n := by
  cases hl : r.lookup? s n with
  | some id =>
    rw [register_of_lookup? hl, lookup?, index_addVersion]
    split
    · next e =>
      rw [e]
      exact hl
    · rfl
  | none =>
    rw [register_of_lookup?_none hl, lookup?, index_addVersion, index_allocate, Table.get?_insert]
    rfl

lemma get?_schemas_register_eq_ite (r : Registry) (u : String) (s : Schema) (n : Bool)
    (i : UInt32) :
    (r.register u s n).2.schemas.get? i =
      if i = (r.register u s n).1 ∧ r.lookup? s n = none then some s else r.schemas.get? i := by
  cases hl : r.lookup? s n with
  | some id => simp [register_of_lookup? hl]
  | none => simp [register_of_lookup?_none hl, get?_schemas_allocate]

lemma get?_schemas_register {r : Registry} {u : String} {s t : Schema} {n : Bool}
    (ht : (r.register u s n).2.schemas.get? (r.register u s n).1 = some t) :
    t = s ∨ r.schemas.get? (r.register u s n).1 = some t := by
  rw [get?_schemas_register_eq_ite] at ht
  split at ht
  · exact .inl (Option.some.inj ht).symm
  · exact .inr ht

section Register

variable {r : Registry} (h : r.Sound) (room : r.lastId.toNat + 1 < 2 ^ 32)

include h room

lemma Sound.register (u : String) (s : Schema) (n : Bool) : (r.register u s n).2.Sound := by
  cases hl : r.lookup? s n with
  | some id =>
    obtain ⟨t, ht, hn⟩ := h.filed hl
    rw [register_of_lookup? hl]
    exact h.addVersion ht hn
  | none =>
    rw [register_of_lookup?_none hl]
    exact (h.allocate room s).addVersion (n := n) (by rw [get?_schemas_allocate, if_pos rfl]) rfl

lemma Sound.grows_register (u : String) (s : Schema) (n : Bool) :
    r.Grows (r.register u s n).2 := by
  cases hl : r.lookup? s n with
  | some id =>
    rw [register_of_lookup? hl]
    exact grows_addVersion r u s id
  | none =>
    rw [register_of_lookup?_none hl]
    exact (h.grows_allocate room s).trans (grows_addVersion _ u s _)

omit room in
/-- The answer of `register` is an ID that the subject holds for the schema. -/
lemma Sound.holds_register (u : String) (s : Schema) (n : Bool) :
    (r.register u s n).2.Holds u s n (r.register u s n).1 := by
  cases hl : r.lookup? s n with
  | some id =>
    obtain ⟨t, ht, hn⟩ := h.filed hl
    rw [register_of_lookup? hl]
    exact holds_addVersion ht hn u
  | none =>
    rw [register_of_lookup?_none hl]
    exact holds_addVersion (t := s) (by rw [get?_schemas_allocate, if_pos rfl]) rfl u

omit h in
lemma toNat_lastId_register (u : String) (s : Schema) (n : Bool) :
    (r.register u s n).2.lastId.toNat =
      r.lastId.toNat + if r.lookup? s n = none then 1 else 0 := by
  cases hl : r.lookup? s n with
  | some id => simp [register_of_lookup? hl]
  | none =>
    rw [register_of_lookup?_none hl, lastId_addVersion, if_pos rfl]
    exact toNat_nextId room

omit h in
lemma lastId_register_le (u : String) (s : Schema) (n : Bool) :
    (r.register u s n).2.lastId.toNat ≤ r.lastId.toNat + 1 := by
  rw [toNat_lastId_register room]
  split <;> omega

end Register

/-- Induction along registrations. The property may be about those that are still to come. -/
lemma Sound.registerAll_induction {P : List Registration → Registry → Prop}
    (step : ∀ {r : Registry} {q qs}, r.Sound → r.lastId.toNat + 1 < 2 ^ 32 → P (q :: qs) r →
      P qs (r.register q.subject q.schema q.normalize).2)
    {r : Registry} (h : r.Sound) {qs : List Registration}
    (room : r.lastId.toNat + qs.length < 2 ^ 32) (hr : P qs r) : P [] (r.registerAll qs) := by
  induction qs generalizing r with
  | nil => exact hr
  | cons q qs ih =>
    rw [List.length_cons] at room
    have hroom : r.lastId.toNat + 1 < 2 ^ 32 := by omega
    have hle := lastId_register_le hroom q.subject q.schema q.normalize
    rw [registerAll_cons]
    exact ih (h.register hroom _ _ _) (by omega) (step h hroom hr)

lemma Sound.registerAll {r : Registry} (h : r.Sound) (qs : List Registration)
    (room : r.lastId.toNat + qs.length < 2 ^ 32) :
    (r.registerAll qs).Sound ∧ r.Grows (r.registerAll qs) ∧
      (r.registerAll qs).lastId.toNat ≤ r.lastId.toNat + qs.length := by
  refine registerAll_induction (P := fun rest r' => r'.Sound ∧ r.Grows r' ∧
    r'.lastId.toNat + rest.length ≤ r.lastId.toNat + qs.length) ?_ h room ⟨h, .refl r, le_rfl⟩
  rintro r' q rest hs hroom ⟨-, hg, hle⟩
  have hlast := lastId_register_le hroom q.subject q.schema q.normalize
  rw [List.length_cons] at hle
  exact ⟨hs.register hroom _ _ _, hg.trans (hs.grows_register hroom _ _ _), by omega⟩

lemma lastId_empty : Registry.empty.lastId.toNat = 0 := rfl

lemma sound_registerAll {qs : List Registration} (room : qs.length < 2 ^ 31) :
    (Registry.empty.registerAll qs).Sound :=
  (sound_empty.registerAll qs (by rw [lastId_empty]; omega)).1

lemma lastId_registerAll_le {qs : List Registration} (room : qs.length < 2 ^ 31) :
    (Registry.empty.registerAll qs).lastId.toNat ≤ qs.length := by
  have h := (sound_empty.registerAll qs (by rw [lastId_empty]; omega)).2.2
  rwa [lastId_empty, Nat.zero_add] at h

/-- What a subject holds for a schema it holds ever after. -/
lemma Grows.holds {r r' : Registry} (h : r.Grows r') {u : String} {s : Schema} {n : Bool}
    {id : UInt32} (hs : r.Holds u s n id) : r'.Holds u s n id := by
  obtain ⟨m, hm⟩ := Option.isSome_iff_exists.mp hs.version
  obtain ⟨t, ht, hn⟩ := hs.schema
  exact ⟨by rw [h.withId? hm]; rfl, t, h.schemas ht, hn⟩

lemma holds_registerAll {qs qs' : List Registration} {q : Registration}
    (room : (qs ++ q :: qs').length < 2 ^ 31) :
    (Registry.empty.registerAll (qs ++ q :: qs')).Holds q.subject q.schema q.normalize
      ((Registry.empty.registerAll qs).register q.subject q.schema q.normalize).1 := by
  rw [List.length_append, List.length_cons] at room
  have hs : (Registry.empty.registerAll qs).Sound := sound_registerAll (by omega)
  have hle : (Registry.empty.registerAll qs).lastId.toNat ≤ qs.length :=
    lastId_registerAll_le (by omega)
  have hroom : (Registry.empty.registerAll qs).lastId.toNat + 1 < 2 ^ 32 := by omega
  have hstep := lastId_register_le hroom q.subject q.schema q.normalize
  have hgrow := ((hs.register hroom q.subject q.schema q.normalize).registerAll qs'
    (by omega)).2.1
  rw [registerAll_append, registerAll_cons]
  exact hgrow.holds (hs.holds_register _ _ _)

/-! ### Looking up -/

lemma idOf_eq_ok_iff {r : Registry} {u : String} {s : Schema} {n : Bool} {id : UInt32} :
    r.idOf u s n = .ok id ↔ r.lookup? s n = some id ∧ (r.withId? u id).isSome := by
  have hcontains : (r.withId? u id).isSome → r.subjects.contains u := by
    intro hm
    rw [Table.contains, Option.isSome_iff_ne_none]
    intro hu
    simp [withId?, versionsOf, hu] at hm
  unfold idOf
  split
  · next hc =>
    simp only [reduceCtorEq, false_iff, not_and]
    exact fun _ hm => hc (hcontains hm)
  · split
    · next id' hf =>
      rw [Option.filter_eq_some_iff] at hf
      simp only [Except.ok.injEq]
      constructor
      · rintro rfl
        exact hf
      · rintro ⟨hl, -⟩
        exact Option.some.inj (hf.1.symm.trans hl)
    · next hf =>
      simp only [reduceCtorEq, false_iff, not_and]
      intro hl hm
      rw [hl, Option.filter_some, if_pos hm] at hf
      cases hf

lemma register_of_idOf {r : Registry} {u : String} {s : Schema} {n : Bool} {id : UInt32}
    (h : r.idOf u s n = .ok id) : r.register u s n = (id, r) := by
  obtain ⟨hl, hm⟩ := idOf_eq_ok_iff.mp h
  obtain ⟨m, hm⟩ := Option.isSome_iff_exists.mp hm
  rw [register_of_lookup? hl, addVersion_of_withId? hm]

lemma Sound.holds_of_idOf {r : Registry} (h : r.Sound) {u : String} {s : Schema} {n : Bool}
    {id : UInt32} (hid : r.idOf u s n = .ok id) : r.Holds u s n id := by
  obtain ⟨hl, hm⟩ := idOf_eq_ok_iff.mp hid
  exact ⟨hm, h.filed hl⟩

lemma Holds.bySubjectAndId {r : Registry} {u : String} {s : Schema} {n : Bool} {id : UInt32}
    (h : r.Holds u s n id) :
    ∃ t, r.bySubjectAndId u id = .ok t ∧ t.identity n = s.identity n := by
  obtain ⟨t, ht, hn⟩ := h.schema
  exact ⟨t, bySubjectAndId_eq_ok_iff.mpr ⟨.inr h.version, ht⟩, hn⟩

end SchemaRegistry.Registry
