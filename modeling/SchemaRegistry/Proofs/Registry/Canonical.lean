import SchemaRegistry.Proofs.Registry.Identity

/-!
Schemas up to layout. A version and the schema that its ID was given to match. The index by
canonical text has the newest ID for each, in whichever subject that was given out, so a subject is
found to have a schema only if it has the newest of those that match it.
-/

namespace SchemaRegistry

namespace Schema

/-- Two schemas match if their formats, normalized fingerprints and joined references are the
same. -/
structure Matches (s t : Schema) : Prop where
  format : s.format = t.format
  normalizedFingerprint : s.normalizedFingerprint = t.normalizedFingerprint
  referenceLabels : s.referenceLabels = t.referenceLabels

lemma Matches.symm {s t : Schema} (h : s.Matches t) : t.Matches s :=
  ⟨h.format.symm, h.normalizedFingerprint.symm, h.referenceLabels.symm⟩

lemma Matches.trans {s t w : Schema} (h : s.Matches t) (h' : t.Matches w) : s.Matches w :=
  ⟨h.format.trans h'.format, h.normalizedFingerprint.trans h'.normalizedFingerprint,
    h.referenceLabels.trans h'.referenceLabels⟩

lemma Agrees.matches {s t : Schema} (h : s.Agrees t) : s.Matches t := by
  refine ⟨h.format, ?_, h.referenceLabels⟩
  rw [normalizedFingerprint, normalizedFingerprint, h.canonicalText]

lemma Matches.identity_eq {s t : Schema} (h : s.Matches t) : s.identity true = t.identity true := by
  unfold identity identityText
  rw [if_pos rfl, if_pos rfl, h.format, h.normalizedFingerprint, h.referenceLabels]

lemma matches_of_identity_eq {ts : List String} (hsep : Fingerprint.Separates ts) {s t : Schema}
    (hs : s.identityText true ∈ ts) (ht : t.identityText true ∈ ts)
    (h : s.identity true = t.identity true) : s.Matches t := by
  obtain ⟨hf, hp, hr⟩ := identityText_inj (hsep _ hs _ ht h)
  exact ⟨hf, hp, hr⟩

end Schema

namespace Registry

/-! ### Versions and the schemas of their IDs -/

section Collected

variable {ts : List String} {r : Registry} (hc : r.Collected ts)

include hc

lemma Collected.bySubjectAndId_of_mem (h : r.Sound) {u : String} {m : Registered}
    (hm : m ∈ r.versionsOf u) :
    ∃ t, r.bySubjectAndId m.subject m.id = .ok t ∧ t.Agrees m.schema := by
  obtain ⟨t, ht, hagree⟩ := hc.agrees m hm
  have hu : m.subject = u := (h.histories u).owned m hm
  have hid : (r.withId? m.subject m.id).isSome := by
    rw [hu, isSome_withId?_iff]
    exact ⟨m, hm, rfl⟩
  exact ⟨t, bySubjectAndId_eq_ok_iff.mpr ⟨.inr hid, ht⟩, hagree⟩

lemma Collected.matches_iff (hsep : Fingerprint.Separates ts) {s : Schema}
    (hs : s.identityText true ∈ ts) {u : String} {m : Registered} (hm : m ∈ r.versionsOf u) :
    m.schema.Matches s ↔ m.schema.identity true = s.identity true := by
  obtain ⟨t, ht, hagree⟩ := hc.agrees m hm
  have htext : t.identityText true ∈ ts := hc.hashed ht true (by simp [Schema.hashed])
  constructor
  · exact Schema.Matches.identity_eq
  · intro h
    have hmatch : t.Matches s :=
      Schema.matches_of_identity_eq hsep htext hs (hagree.identity_eq.trans h)
    exact hagree.matches.symm.trans hmatch

end Collected

/-! ### The newest ID of an identity -/

/-- What holds of the order in which IDs were given out. -/
structure Dated (r : Registry) : Prop where
  /-- A later ID takes the place of an earlier one in the index by canonical text. -/
  newest : ∀ {k i}, (r.index true).get? k = some i →
    ∀ {j t}, r.schemas.get? j = some t → t.identity true = k → j ≤ i
  /-- An ID is given out with a version. -/
  listed : ∀ {i t}, r.schemas.get? i = some t → ∃ u, ∃ m ∈ r.versionsOf u, m.id = i ∧ m.schema = t

lemma dated_empty : Registry.empty.Dated := by
  refine ⟨?_, ?_⟩
  · intro k i h
    simp [Registry.empty, index] at h
  · intro i t h
    simp [Registry.empty] at h

section Dated

variable {r : Registry} (hd : r.Dated) (h : r.Sound) (room : r.lastId.toNat + 1 < 2 ^ 32)

include hd in
lemma Dated.addVersion (u : String) (s : Schema) (id : UInt32) : (r.addVersion u s id).Dated := by
  refine ⟨?_, ?_⟩
  · intro k i hk j t ht
    rw [index_addVersion] at hk
    rw [schemas_addVersion] at ht
    exact hd.newest hk ht
  · intro i t ht
    rw [schemas_addVersion] at ht
    obtain ⟨v, m, hm, hi⟩ := hd.listed ht
    exact ⟨v, m, ((grows_addVersion r u s id).versions v).subset hm, hi⟩

include h room in
lemma Sound.withId?_nextId (u : String) : r.withId? u (r.lastId + 1) = none := by
  rw [Option.eq_none_iff_forall_ne_some]
  intro m hm
  obtain ⟨m', hm', hid⟩ := isSome_withId?_iff.mp (by rw [hm]; rfl)
  obtain ⟨t, -, ht, -⟩ := (h.histories u).known m' hm'
  exact h.ne_nextId room ht hid

include hd h room in
/-- The two steps of a registration on a miss: between them the new ID has no version yet. -/
lemma Dated.allocate (u : String) (s : Schema) :
    ((r.allocate s).addVersion u s (r.lastId + 1)).Dated := by
  have hnext : (r.allocate s).withId? u (r.lastId + 1) = none := h.withId?_nextId room u
  refine ⟨?_, ?_⟩
  · -- what the miss enters is greater than any ID before it, and it enters nothing else
    intro k i hk j t ht e
    rw [index_addVersion, index_allocate, Table.get?_insert] at hk
    rw [schemas_addVersion, get?_schemas_allocate] at ht
    have hle : j ≤ r.lastId + 1 := by
      rw [UInt32.le_iff_toNat_le, toNat_nextId room]
      split at ht
      · next ej => rw [ej, toNat_nextId room]
      · exact (h.id_le ht).trans (Nat.le_succ _)
    split at hk
    · cases hk
      exact hle
    · next hne =>
      split at ht
      · cases ht
        exact absurd e.symm hne
      · exact hd.newest hk ht e
  · intro i t ht
    rw [schemas_addVersion, get?_schemas_allocate] at ht
    split at ht
    · next e =>
      cases ht
      refine ⟨u, (r.allocate s).newVersion u s (r.lastId + 1), ?_, e.symm, rfl⟩
      rw [versionsOf_addVersion hnext, if_pos rfl]
      simp
    · obtain ⟨v, m, hm, hi⟩ := hd.listed ht
      have hsub := ((grows_addVersion (r.allocate s) u s (r.lastId + 1)).versions v).subset
      exact ⟨v, m, hsub hm, hi⟩

include hd h room in
lemma Dated.register (u : String) (s : Schema) (n : Bool) : (r.register u s n).2.Dated := by
  cases hl : r.lookup? s n with
  | some id =>
    rw [register_of_lookup? hl]
    exact hd.addVersion u s id
  | none =>
    rw [register_of_lookup?_none hl]
    exact hd.allocate h room u s

include hd h in
lemma Dated.registerAll {qs : List Registration} (room : r.lastId.toNat + qs.length < 2 ^ 32) :
    (r.registerAll qs).Dated := by
  refine Sound.registerAll_induction (P := fun _ r => r.Dated) ?_ h room hd
  exact fun h room hd => hd.register h room _ _ _

include hd h in
/-- A look-up by canonical text gives the greatest ID of the schema's identity. -/
lemma Dated.lookup?_eq_some_iff {s : Schema} {i : UInt32} :
    r.lookup? s true = some i ↔
      (∃ t, r.schemas.get? i = some t ∧ t.identity true = s.identity true) ∧
      ∀ {j t}, r.schemas.get? j = some t → t.identity true = s.identity true → j ≤ i := by
  constructor
  · intro hl
    exact ⟨h.filed hl, hd.newest hl⟩
  · rintro ⟨⟨t, ht, e⟩, hmax⟩
    have hsome := h.indexed ht true
    rw [e] at hsome
    obtain ⟨j, hj⟩ := Option.isSome_iff_exists.mp hsome
    obtain ⟨t', ht', e'⟩ := h.filed hj
    rw [lookup?, hj, UInt32.le_antisymm (hmax ht' e') (hd.newest hj ht e)]

end Dated

/-! ### Looking up by canonical text -/

/-- A subject is found to have a schema if it has the newest ID of its identity. The versions tell
which one that is: each ID was given out with one, and versions with one ID match. -/
lemma idOf_canonical_iff {ts : List String} {r : Registry} (hd : r.Dated) (h : r.Sound)
    (hc : r.Collected ts) (hsep : Fingerprint.Separates ts) {u : String} {s : Schema} {id : UInt32}
    (hs : s.identityText true ∈ ts) :
    r.idOf u s true = .ok id ↔
      (∃ m ∈ r.versionsOf u, m.id = id ∧ m.schema.Matches s) ∧
      ∀ v, ∀ m ∈ r.versionsOf v, m.schema.Matches s → m.id ≤ id := by
  have hgiven : ∀ {v}, ∀ m ∈ r.versionsOf v, ∃ t, r.schemas.get? m.id = some t ∧
      (t.identity true = s.identity true ↔ m.schema.Matches s) := by
    intro v m hm
    obtain ⟨t, ht, hagree⟩ := hc.agrees m hm
    exact ⟨t, ht, by rw [hagree.identity_eq, hc.matches_iff hsep hs hm]⟩
  rw [idOf_eq_ok_iff, hd.lookup?_eq_some_iff h, isSome_withId?_iff]
  constructor
  · rintro ⟨⟨⟨t, ht, e⟩, hmax⟩, m, hm, rfl⟩
    obtain ⟨t', ht', hiff⟩ := hgiven m hm
    obtain rfl : t = t' := Option.some.inj (ht.symm.trans ht')
    refine ⟨⟨m, hm, rfl, hiff.mp e⟩, fun v m' hm' hmatch => ?_⟩
    obtain ⟨t', ht', hiff'⟩ := hgiven m' hm'
    exact hmax ht' (hiff'.mpr hmatch)
  · rintro ⟨⟨m, hm, rfl, hmatch⟩, hmax⟩
    obtain ⟨t, ht, hiff⟩ := hgiven m hm
    refine ⟨⟨⟨t, ht, hiff.mpr hmatch⟩, fun {j t'} ht' e => ?_⟩, m, hm, rfl⟩
    obtain ⟨v, m', hm', rfl, rfl⟩ := hd.listed ht'
    exact hmax v m' hm' ((hc.matches_iff hsep hs hm').mpr e)

section Found

variable {r : Registry} (h : r.Sound) (room : r.lastId.toNat + 1 < 2 ^ 32) {u : String} {s : Schema}
  {n : Bool}

include h room

lemma Sound.isSome_withId?_register_iff :
    (r.withId? u (r.register u s n).1).isSome ↔ ∃ id, r.idOf u s n = .ok id := by
  constructor
  · intro hsome
    cases hl : r.lookup? s n with
    | some id =>
      rw [register_of_lookup? hl] at hsome
      exact ⟨id, idOf_eq_ok_iff.mpr ⟨hl, hsome⟩⟩
    | none =>
      rw [register_of_lookup?_none hl, h.withId?_nextId room] at hsome
      cases hsome
  · rintro ⟨id, hid⟩
    rw [register_of_idOf hid]
    exact (idOf_eq_ok_iff.mp hid).2

lemma Sound.versionsOf_register_eq_iff :
    (r.register u s n).2.versionsOf u = r.versionsOf u ↔ ∃ id, r.idOf u s n = .ok id := by
  rw [← h.isSome_withId?_register_iff room, versionsOf_register, Option.isSome_iff_ne_none]
  split
  · next hnew => simp [hnew.2]
  · next hold => simpa using hold

end Found

end Registry

namespace Client

lemma dated_reached {os : List Operation} (calls : registerCalls os < 2 ^ 31) :
    (reached os).registry.Dated := by
  have hlen := length_registrations_le {} os
  rw [registry_reached]
  exact Registry.dated_empty.registerAll Registry.sound_empty
    (by rw [Registry.lastId_empty]; omega)

/-- **Versions and IDs tell of one schema.** What the ID of a version stands for matches the schema
that the version stores. -/
theorem bySubjectAndId_matches_version (os : List Operation) (calls : registerCalls os < 2 ^ 31)
    (sep : Fingerprint.Separates (hashed {} os)) (u : String) (m : Registered)
    (hm : m ∈ (reached os).registry.versionsOf u) :
    ∃ t, (reached os).registry.bySubjectAndId m.subject m.id = .ok t ∧
      t.format = m.schema.format ∧
      t.normalizedFingerprint = m.schema.normalizedFingerprint ∧
      t.referenceLabels = m.schema.referenceLabels := by
  have hc := collected_reached calls sep (List.Subset.refl _)
  obtain ⟨t, ht, hagree⟩ := hc.bySubjectAndId_of_mem (sound_reached calls) hm
  have hmatch := hagree.matches
  exact ⟨t, ht, hmatch.format, hmatch.normalizedFingerprint, hmatch.referenceLabels⟩

theorem bySubjectAndId_matches_version_among_layouts :
    let s : Schema := ⟨"\"string\"", .avro, []⟩
    let t : Schema := ⟨" \"string\"", .avro, []⟩
    let os : List Operation := [.register ⟨"a", s, false⟩, .register ⟨"b", t, true⟩]
    let m : Registered := ⟨1, "b", 1, t⟩
    m ∈ (reached os).registry.versionsOf "b" ∧
      ∃ w, (reached os).registry.bySubjectAndId "b" 1 = .ok w ∧
        w.normalizedFingerprint = t.normalizedFingerprint := by
  intro s t os m
  have hsep : Fingerprint.Separates (s.hashed false ++ t.hashed false) := by decide +kernel
  have hsub : hashed {} os ⊆ s.hashed false ++ t.hashed false :=
    hashed_subset_of_layouts (by decide +kernel) (by decide +kernel) rfl (by decide +kernel) rfl
  have hm : m ∈ (reached os).registry.versionsOf "b" := by decide +kernel
  obtain ⟨w, hw, -, hp, -⟩ :=
    bySubjectAndId_matches_version os (by decide) (hsep.mono hsub) "b" m hm
  exact ⟨hm, w, hw, hp⟩

/-- **When a look-up by canonical text succeeds.** It does if the subject has a version that matches
the schema and none that matches, under any subject, has a greater ID. Where it does not,
registering adds a version. -/
theorem idOf_canonical_eq_ok_iff (os : List Operation) (calls : registerCalls os < 2 ^ 31)
    (u : String) (s : Schema) (sep : Fingerprint.Separates (hashed {} os ++ s.hashed true)) :
    let r := (reached os).registry
    (∀ id, r.idOf u s true = .ok id ↔
      (∃ m ∈ r.versionsOf u, m.id = id ∧ m.schema.Matches s) ∧
      ∀ v, ∀ m ∈ r.versionsOf v, m.schema.Matches s → m.id ≤ id) ∧
    ((r.register u s true).2.versionsOf u = r.versionsOf u ↔ ∃ id, r.idOf u s true = .ok id) := by
  intro r
  have hs : r.Sound := sound_reached calls
  have hc : r.Collected _ := collected_reached calls sep (List.subset_append_left _ _)
  have hroom : r.lastId.toNat + 1 < 2 ^ 32 := room_reached calls
  have htext : s.identityText true ∈ hashed {} os ++ s.hashed true := by simp [Schema.hashed]
  exact ⟨fun id => Registry.idOf_canonical_iff (dated_reached calls) hs hc sep htext,
    hs.versionsOf_register_eq_iff hroom⟩

theorem idOf_canonical_eq_ok_of_newest :
    let s : Schema := ⟨"\"string\"", .avro, []⟩
    let t : Schema := ⟨" \"string\"", .avro, []⟩
    let os : List Operation := [.register ⟨"b", s, false⟩, .register ⟨"a", t, false⟩]
    let r := (reached os).registry
    r.idOf "a" s true = .ok 2 ∧ (∀ v, ∀ m ∈ r.versionsOf v, m.schema.Matches s → m.id ≤ 2) ∧
      (r.register "a" s true).2.versionsOf "a" = r.versionsOf "a" := by
  intro s t os r
  have hsep : Fingerprint.Separates (s.hashed false ++ t.hashed false) := by decide +kernel
  have hs : s.canonicalText = s.text := by decide +kernel
  have hsub : hashed {} os ++ s.hashed true ⊆ s.hashed false ++ t.hashed false := by
    refine List.append_subset.mpr ⟨?_, ?_⟩
    · exact hashed_subset_of_layouts (by decide +kernel) hs rfl (by decide +kernel) rfl
    · rw [Schema.hashed_congr (n := true) (k := false) rfl hs rfl]
      exact List.subset_append_left _ _
  obtain ⟨hok, hsame⟩ := idOf_canonical_eq_ok_iff os (by decide) "a" s (hsep.mono hsub)
  have hid : r.idOf "a" s true = .ok 2 := by decide +kernel
  exact ⟨hid, ((hok 2).mp hid).2, hsame.mpr ⟨2, hid⟩⟩

/-- Another layout of a text that is registered later under another subject hides a schema from the
subject that has it: it is not found there, and registering it adds a version. -/
theorem idOf_canonical_hidden :
    let s : Schema := ⟨"\"string\"", .avro, []⟩
    let t : Schema := ⟨" \"string\"", .avro, []⟩
    let os : List Operation := [.register ⟨"a", s, false⟩, .register ⟨"b", t, false⟩]
    let r := (reached os).registry
    registerCalls os < 2 ^ 31 ∧ Fingerprint.Separates (hashed {} os) ∧
      (∃ m ∈ r.versionsOf "a", m.schema.format = s.format ∧
        m.schema.references = s.references ∧
        m.schema.normalizedFingerprint = s.normalizedFingerprint) ∧
      r.idOf "a" s true = .error (.schemaNotRegistered "a") ∧
      ((r.register "a" s true).2.versionsOf "a").length = (r.versionsOf "a").length + 1 := by
  intro s t os r
  have hsep : Fingerprint.Separates (s.hashed false ++ t.hashed false) := by decide +kernel
  have hsub : hashed {} os ⊆ s.hashed false ++ t.hashed false :=
    hashed_subset_of_layouts (by decide +kernel) (by decide +kernel) rfl (by decide +kernel) rfl
  obtain ⟨hversions, hmiss, hadd⟩ : r.versionsOf "a" = [⟨1, "a", 1, s⟩] ∧
      r.idOf "a" s true = .error (.schemaNotRegistered "a") ∧
      ((r.register "a" s true).2.versionsOf "a").length = 2 := by
    decide +kernel
  rw [hversions]
  exact ⟨by decide, hsep.mono hsub, ⟨_, List.mem_singleton_self _, rfl, rfl, rfl⟩, hmiss, hadd⟩

end Client

end SchemaRegistry
