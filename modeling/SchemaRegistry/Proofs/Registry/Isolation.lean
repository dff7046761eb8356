import SchemaRegistry.Proofs.Registry.Invariant

/-!
What the history of a subject depends on. While schemas are registered by their exact texts, an ID
stands for one identity, so a version is added if its subject has none with the identity of the
schema. What is registered under other subjects only shifts the IDs.
-/

namespace SchemaRegistry.Registry

/-- The numbers and the schemas of a subject's versions; the IDs are left out. -/
def published (r : Registry) (u : String) : List (Int32 × Schema) :=
  (r.versionsOf u).map fun m => (m.version, m.schema)

/-- The number of the version after these. -/
def numberAfter (h : List (Int32 × Schema)) : Int32 :=
  match h.getLast? with
  | some p => p.1 + 1
  | none => 1

/-- Publishes a schema unless one with its identity is there. -/
def publish (h : List (Int32 × Schema)) (s : Schema) : List (Int32 × Schema) :=
  if ∃ p ∈ h, p.2.identity false = s.identity false then h else h ++ [(numberAfter h, s)]

lemma numberAfter_published (r : Registry) (u : String) :
    numberAfter (r.published u) = nextVersion (r.versionsOf u) := by
  unfold numberAfter published nextVersion
  rw [List.getLast?_map]
  cases (r.versionsOf u).getLast? <;> rfl

/-- Every version can be found by its own exact text. -/
def Traceable (r : Registry) : Prop :=
  ∀ u, ∀ m ∈ r.versionsOf u, r.lookup? m.schema false = some m.id

lemma traceable_empty : Registry.empty.Traceable := by
  simp [Traceable, empty, versionsOf]

lemma Traceable.id_register {r : Registry} (hr : r.Traceable) {u : String} {m : Registered}
    (hm : m ∈ r.versionsOf u) {s : Schema} (e : m.schema.identity false = s.identity false)
    (u' : String) : (r.register u' s false).1 = m.id := by
  have hl : r.lookup? s false = some m.id := by
    rw [← hr u m hm, lookup?, lookup?, e]
  rw [register_of_lookup? hl]

lemma Traceable.register {r : Registry} (hr : r.Traceable) (u : String) (s : Schema) :
    (r.register u s false).2.Traceable := by
  intro u' m hm
  have hold : ∀ m ∈ r.versionsOf u', (r.register u s false).2.lookup? m.schema false =
      some m.id := by
    intro m hm
    rw [lookup?_register]
    split
    · next e => rw [hr.id_register hm e]
    · exact hr u' m hm
  rw [versionsOf_register] at hm
  split at hm
  · next hu =>
    rcases List.mem_append.mp hm with hm | hm
    · exact hold m (hu.1 ▸ hm)
    · rw [List.mem_singleton.mp hm, lookup?_register, newVersion, if_pos rfl]
  · exact hold m hm

section Register

variable {r : Registry} (h : r.Sound) (hr : r.Traceable) (room : r.lastId.toNat + 1 < 2 ^ 32)

include h room in
lemma Sound.identity_eq_of_lookup? {s t : Schema} {u : String}
    (ht : r.lookup? t false = some (r.register u s false).1) :
    t.identity false = s.identity false := by
  obtain ⟨w, hw, htw⟩ := h.filed ht
  cases hl : r.lookup? s false with
  | some id =>
    rw [register_of_lookup? hl] at hw
    obtain ⟨w', hw', hsw⟩ := h.filed hl
    cases hw.symm.trans hw'
    exact htw.symm.trans hsw
  | none =>
    rw [register_of_lookup?_none hl] at hw
    exact absurd rfl (h.ne_nextId room hw)

include h hr room

lemma Sound.withId?_register_iff (u : String) (s : Schema) :
    r.withId? u (r.register u s false).1 = none ↔
      ¬ ∃ p ∈ r.published u, p.2.identity false = s.identity false := by
  rw [← Option.not_isSome_iff_eq_none, isSome_withId?_iff, not_iff_not]
  simp only [published, List.mem_map, exists_exists_and_eq_and]
  refine exists_congr fun m => and_congr_right fun hm => ?_
  constructor
  · intro e
    exact h.identity_eq_of_lookup? room (e ▸ hr u m hm)
  · intro e
    exact (hr.id_register hm e u).symm

lemma Sound.published_register (u : String) (s : Schema) (u' : String) :
    (r.register u s false).2.published u' =
      if u = u' then publish (r.published u') s else r.published u' := by
  by_cases hu : u = u'
  · subst hu
    rw [if_pos rfl, published, versionsOf_register, publish]
    by_cases hnew : r.withId? u (r.register u s false).1 = none
    · rw [if_pos ⟨rfl, hnew⟩, if_neg ((h.withId?_register_iff hr room u s).mp hnew),
        numberAfter_published, List.map_append]
      rfl
    · rw [if_neg fun hp => hnew hp.2,
        if_pos (not_not.mp (mt (h.withId?_register_iff hr room u s).mpr hnew))]
      rfl
  · rw [if_neg hu, published, versionsOf_register, if_neg fun hp => hu hp.1.symm]
    rfl

end Register

/-- **The history of a subject** comes from the registrations under it alone. -/
theorem Sound.published_registerAll {r : Registry} (h : r.Sound) (hr : r.Traceable)
    {qs : List Registration} (exact : ∀ q ∈ qs, q.normalize = false)
    (room : r.lastId.toNat + qs.length < 2 ^ 32) (u : String) :
    (r.registerAll qs).published u =
      ((qs.filter fun q => q.subject = u).map Registration.schema).foldl publish (r.published u) := by
  induction qs generalizing r with
  | nil => rfl
  | cons q qs ih =>
    rw [List.length_cons] at room
    have hroom : r.lastId.toNat + 1 < 2 ^ 32 := by omega
    have hle := lastId_register_le hroom q.subject q.schema false
    rw [registerAll_cons, exact q List.mem_cons_self,
      ih (h.register hroom _ _ _) (hr.register _ _)
        (fun q' hq' => exact q' (List.mem_cons_of_mem _ hq')) (by omega),
      h.published_register hr hroom]
    by_cases hu : q.subject = u
    · rw [if_pos hu, List.filter_cons_of_pos (by simpa using hu)]
      rfl
    · rw [if_neg hu, List.filter_cons_of_neg (by simpa using hu)]

end SchemaRegistry.Registry
