import SchemaRegistry.Proofs.Client.Run
import SchemaRegistry.Proofs.Schema.Identity

/-!
When two registrations get one ID. The texts that a run hashes are collected along it. If no two of
them collide, each ID is the one that the exact index has for its schema, whichever of the two
indices a registration was looked up in.
-/

namespace SchemaRegistry

/-- The texts that registering hashes: those of the look-up, and those of both indices when the
schema is new. -/
def Registration.hashed (q : Registration) (r : Registry) : List String :=
  match r.lookup? q.schema q.normalize with
  | some _ => q.schema.hashed q.normalize
  | none => q.schema.hashed false ++ q.schema.hashed true

lemma Registration.hashed_subset (q : Registration) (r : Registry) :
    q.schema.hashed q.normalize ⊆ q.hashed r := by
  unfold hashed
  split
  · exact List.Subset.refl _
  · cases q.normalize with
    | false => exact List.subset_append_left _ _
    | true => exact List.subset_append_right _ _

namespace Registry

def hashedBy (r : Registry) : List Registration → List String
  | [] => []
  | q :: qs => q.hashed r ++ hashedBy (r.register q.subject q.schema q.normalize).2 qs

lemma hashed_subset_hashedBy {q : Registration} {qs : List Registration} (hq : q ∈ qs)
    (r : Registry) : q.schema.hashed q.normalize ⊆ r.hashedBy qs := by
  induction qs generalizing r with
  | nil => cases hq
  | cons q' qs ih =>
    rcases List.mem_cons.mp hq with rfl | hq
    · exact List.Subset.trans (q.hashed_subset r) (List.subset_append_left _ _)
    · exact List.Subset.trans (ih hq _) (List.subset_append_right _ _)

lemma hashedBy_subset {ts : List String} {qs : List Registration}
    (h : ∀ q ∈ qs, ∀ n, q.schema.hashed n ⊆ ts) (r : Registry) : r.hashedBy qs ⊆ ts := by
  induction qs generalizing r with
  | nil => exact List.nil_subset _
  | cons q qs ih =>
    have hq := h q List.mem_cons_self
    refine List.append_subset.mpr ⟨?_, ih (fun q' hq' => h q' (List.mem_cons_of_mem _ hq')) _⟩
    unfold Registration.hashed
    split
    · exact hq _
    · exact List.append_subset.mpr ⟨hq false, hq true⟩

/-- What holds of a registry whose hashed texts are among `ts`. -/
structure Collected (ts : List String) (r : Registry) : Prop where
  hashed : ∀ {id t}, r.schemas.get? id = some t → ∀ n, t.hashed n ⊆ ts
  /-- No later ID takes the place of one in the exact index, not even one that was given out on a
  miss in the other index. -/
  exact : ∀ {id t}, r.schemas.get? id = some t → r.lookup? t false = some id
  agrees : ∀ {u}, ∀ m ∈ r.versionsOf u, ∃ t, r.schemas.get? m.id = some t ∧ t.Agrees m.schema

lemma collected_empty (ts : List String) : Registry.empty.Collected ts := by
  refine ⟨?_, ?_, ?_⟩
  · intro id t h
    simp [Registry.empty] at h
  · intro id t h
    simp [Registry.empty] at h
  · intro u m h
    simp [Registry.empty, versionsOf] at h

section Collected

variable {ts : List String} {r : Registry} (hc : r.Collected ts) (h : r.Sound)
  (room : r.lastId.toNat + 1 < 2 ^ 32) (hsep : Fingerprint.Separates ts)

include hc in
lemma Collected.addVersion {s t : Schema} {id : UInt32} (ht : r.schemas.get? id = some t)
    (hs : t.Agrees s) (u : String) : (r.addVersion u s id).Collected ts := by
  cases hid : r.withId? u id with
  | some m => rwa [addVersion_of_withId? hid]
  | none =>
    refine ⟨?_, ?_, ?_⟩
    · intro id' t' ht'
      rw [schemas_addVersion] at ht'
      exact hc.hashed ht'
    · intro id' t' ht'
      rw [schemas_addVersion] at ht'
      rw [lookup?, index_addVersion]
      exact hc.exact ht'
    · intro u' m hm
      rw [versionsOf_addVersion hid] at hm
      rw [schemas_addVersion]
      split at hm
      · rcases List.mem_append.mp hm with hm | hm
        · exact hc.agrees m hm
        · rw [List.mem_singleton.mp hm]
          exact ⟨t, ht, hs⟩
      · exact hc.agrees m hm

include hc h hsep in
lemma Collected.identity_ne {s : Schema} {n : Bool} (hs : s.hashed false ⊆ ts)
    (hl : r.lookup? s n = none) {id : UInt32} {t : Schema} (ht : r.schemas.get? id = some t) :
    t.identity false ≠ s.identity false := by
  intro e
  have hn : t.identity n = s.identity n := by
    cases n with
    | false => exact e
    | true => exact (Schema.agrees_of_identity_eq hsep (hc.hashed ht false) hs e).identity_eq
  have hsome := h.indexed ht n
  rw [hn] at hsome
  rw [lookup?] at hl
  rw [hl] at hsome
  cases hsome

include hc h room hsep in
lemma Collected.allocate {s : Schema} {n : Bool} (hl : r.lookup? s n = none)
    (hs : ∀ n, s.hashed n ⊆ ts) : (r.allocate s).Collected ts := by
  refine ⟨?_, ?_, ?_⟩
  · intro id t ht
    rw [get?_schemas_allocate] at ht
    split at ht
    · cases ht
      exact hs
    · exact hc.hashed ht
  · intro id t ht
    rw [get?_schemas_allocate] at ht
    rw [lookup?, index_allocate, Table.get?_insert]
    split at ht
    · next e =>
      cases ht
      rw [if_pos rfl, e]
    · rw [if_neg (hc.identity_ne h hsep (hs false) hl ht)]
      exact hc.exact ht
  · intro u m hm
    obtain ⟨t, ht, ha⟩ := hc.agrees m hm
    exact ⟨t, (h.grows_allocate room s).schemas ht, ha⟩

include hc h room hsep in
lemma Collected.register {q : Registration} (hq : q.hashed r ⊆ ts) :
    (r.register q.subject q.schema q.normalize).2.Collected ts := by
  have hown := List.Subset.trans (q.hashed_subset r) hq
  cases hl : r.lookup? q.schema q.normalize with
  | some id =>
    obtain ⟨t, ht, hn⟩ := h.filed hl
    rw [register_of_lookup? hl]
    exact hc.addVersion ht (Schema.agrees_of_identity_eq hsep (hc.hashed ht _) hown hn) _
  | none =>
    have hboth : ∀ n, q.schema.hashed n ⊆ ts := by
      simp only [Registration.hashed, hl, List.append_subset] at hq
      intro n
      cases n with
      | false => exact hq.1
      | true => exact hq.2
    rw [register_of_lookup?_none hl]
    exact (hc.allocate h room hsep hl hboth).addVersion
      (by rw [get?_schemas_allocate, if_pos rfl]) (.refl _) _

end Collected

lemma Collected.registerAll {ts : List String} {r : Registry} (hc : r.Collected ts) (h : r.Sound)
    (hsep : Fingerprint.Separates ts) {qs : List Registration}
    (room : r.lastId.toNat + qs.length < 2 ^ 31) (hqs : r.hashedBy qs ⊆ ts) :
    (r.registerAll qs).Collected ts := by
  refine (Sound.registerAll_induction (P := fun rest r => r.Collected ts ∧ r.hashedBy rest ⊆ ts)
    ?_ h (by omega) ⟨hc, hqs⟩).1
  rintro r q rest h room ⟨hc, hqs⟩
  obtain ⟨hq, hrest⟩ := List.append_subset.mp hqs
  exact ⟨hc.register h room hsep hq, hrest⟩

lemma Collected.lookup?_of_holds {ts : List String} {r : Registry} (hc : r.Collected ts) {u : String}
    {s : Schema} {id : UInt32} (h : r.Holds u s false id) : r.lookup? s false = some id := by
  obtain ⟨t, ht, hn⟩ := h.schema
  have he := hc.exact ht
  rwa [lookup?, hn] at he

lemma Collected.id_eq_iff {ts : List String} {r : Registry} (hc : r.Collected ts) {u v : String}
    {s t : Schema} {i j : UInt32} (hs : r.Holds u s false i) (ht : r.Holds v t false j) :
    i = j ↔ s.identity false = t.identity false := by
  obtain ⟨s', hs', hsi⟩ := hs.schema
  obtain ⟨t', ht', hti⟩ := ht.schema
  constructor
  · rintro rfl
    rw [hs', Option.some.injEq] at ht'
    rw [← hsi, ← hti, ht']
  · intro e
    have hi := hc.lookup?_of_holds hs
    have hj := hc.lookup?_of_holds ht
    rw [lookup?, e] at hi
    rw [lookup?, hi] at hj
    exact Option.some.inj hj

lemma register_id_eq_iff (qs qs' : List Registration) {q q' : Registration}
    (hq : q.normalize = false) (hq' : q'.normalize = false)
    (room : (qs ++ q :: qs' ++ [q']).length < 2 ^ 31)
    (hsep : Fingerprint.Separates (Registry.empty.hashedBy (qs ++ q :: qs' ++ [q']))) :
    ((Registry.empty.registerAll qs).register q.subject q.schema q.normalize).1 =
        ((Registry.empty.registerAll (qs ++ q :: qs')).register q'.subject q'.schema
          q'.normalize).1 ↔
      q.schema.format = q'.schema.format ∧ q.schema.text = q'.schema.text ∧
        q.schema.referenceLabels = q'.schema.referenceLabels := by
  have hassoc : qs ++ q :: qs' ++ [q'] = qs ++ q :: (qs' ++ [q']) := by simp
  have hfirst := holds_registerAll (hassoc ▸ room)
  have hlast := holds_registerAll room
  rw [← hassoc, hq] at hfirst
  rw [hq'] at hlast
  have hc := (collected_empty _).registerAll sound_empty hsep (by rw [lastId_empty]; omega)
    (List.Subset.refl _)
  have hs : q.schema.hashed q.normalize ⊆ Registry.empty.hashedBy (qs ++ q :: qs' ++ [q']) :=
    hashed_subset_hashedBy (by simp) _
  have ht : q'.schema.hashed q'.normalize ⊆ Registry.empty.hashedBy (qs ++ q :: qs' ++ [q']) :=
    hashed_subset_hashedBy (by simp) _
  rw [hq] at hs ⊢
  rw [hq'] at ht ⊢
  rw [hc.id_eq_iff hfirst hlast]
  exact Schema.identity_eq_iff hsep hs ht

end Registry

namespace Client

def hashed (c : Client) (os : List Operation) : List String :=
  c.registry.hashedBy (c.registrations os)

lemma hashed_subset_of_layouts {os : List Operation} {s t : Schema}
    (h : ∀ q ∈ registrations {} os, q.schema = s ∨ q.schema = t) (hs : s.canonicalText = s.text)
    (hf : t.format = s.format) (ht : t.canonicalText = s.text)
    (hr : t.referenceLabels = s.referenceLabels) :
    hashed {} os ⊆ s.hashed false ++ t.hashed false := by
  refine Registry.hashedBy_subset (fun q hq n => ?_) _
  rcases h q hq with e | e
  · rw [e]
    refine List.Subset.trans (Schema.hashed_subset_of_canonicalText rfl hs rfl n) ?_
    exact List.append_subset.mpr ⟨List.subset_append_left _ _, List.subset_append_left _ _⟩
  · rw [e]
    exact Schema.hashed_subset_of_canonicalText hf ht hr n

lemma collected_reached {os : List Operation} (calls : registerCalls os < 2 ^ 31)
    {ts : List String} (hsep : Fingerprint.Separates ts) (hts : hashed {} os ⊆ ts) :
    (reached os).registry.Collected ts := by
  have hlen := length_registrations_le {} os
  rw [registry_reached]
  exact (Registry.collected_empty ts).registerAll Registry.sound_empty hsep
    (by rw [Registry.lastId_empty]; omega) hts

lemma registrations_snoc {c : Client} {os : List Operation} (h : (c.run os).fault? .register = none)
    (q : Registration) : c.registrations (os ++ [.register q]) = c.registrations os ++ [q] := by
  simp [registrations_append, registrations, Operation.registration?, h]

/-- **When two registrations get one ID.** By exact text they do if and only if their schemas have
the same format, the same text and references that read the same when joined. That is the same
schema if the references are plain. -/
theorem register_eq_iff (before between : List Operation) (q q' : Registration)
    (hq : q.normalize = false) (hq' : q'.normalize = false)
    (calls : registerCalls (before ++ .register q :: between ++ [.register q']) < 2 ^ 31)
    (sep : Fingerprint.Separates
      (hashed {} (before ++ .register q :: between ++ [.register q'])))
    (up : (reached before).fault? .register = none)
    (up' : (reached (before ++ .register q :: between)).fault? .register = none) :
    ∃ i j,
      (register q.subject q.schema q.normalize (reached before)).1 = .ok i ∧
      (register q'.subject q'.schema q'.normalize
        (reached (before ++ .register q :: between))).1 = .ok j ∧
      (i = j ↔ q.schema.format = q'.schema.format ∧ q.schema.text = q'.schema.text ∧
        q.schema.referenceLabels = q'.schema.referenceLabels) ∧
      ((∀ r ∈ q.schema.references, r.Plain) → (∀ r ∈ q'.schema.references, r.Plain) →
        (i = j ↔ q.schema = q'.schema)) := by
  obtain ⟨qs', hqs'⟩ : ∃ qs', registrations {} (before ++ .register q :: between) =
      registrations {} before ++ q :: qs' := by
    refine ⟨((reached before).run [.register q]).registrations between, ?_⟩
    rw [← List.singleton_append, ← List.append_assoc, registrations_append, registrations_snoc up,
      run_append, List.append_assoc]
    rfl
  have hqs : registrations {} (before ++ .register q :: between ++ [.register q']) =
      registrations {} before ++ q :: qs' ++ [q'] := by
    rw [registrations_snoc up', hqs']
  have hroom := Nat.lt_of_le_of_lt (length_registrations_le {} _) calls
  rw [hashed, hqs] at sep
  rw [hqs] at hroom
  have hiff := Registry.register_id_eq_iff (registrations {} before) qs' hq hq' hroom sep
  rw [← hqs', ← registry_reached, ← registry_reached] at hiff
  refine ⟨_, _, (register_of_fault?_none up q).1, (register_of_fault?_none up' q').1, hiff, ?_⟩
  intro hp hp'
  rw [hiff]
  constructor
  · rintro ⟨hf, hx, hr⟩
    exact Schema.ext hx hf (Schema.referenceLabels_inj hp hp' hr)
  · rintro e
    rw [e]
    exact ⟨rfl, rfl, rfl⟩

theorem register_eq_iff_after_canonical :
    let s : Schema := ⟨"message M", .protobuf, [⟨"A", "a", 1⟩, ⟨"B", "b", 1⟩]⟩
    let before : List Operation := [.register ⟨"b", s, true⟩, .setFault .latest (some "down")]
    let between : List Operation := [.register ⟨"c", s, true⟩, .clearRequests]
    ∃ i, (register "a" s false (reached before)).1 = .ok i ∧
      (register "b" s false (reached (before ++ .register ⟨"a", s, false⟩ :: between))).1 =
        .ok i := by
  intro s before between
  have hone : ∀ q ∈ registrations {}
      (before ++ .register ⟨"a", s, false⟩ :: between ++ [.register ⟨"b", s, false⟩]),
      q.schema = s := by
    decide +kernel
  have hsub : ∀ q ∈ registrations {}
      (before ++ .register ⟨"a", s, false⟩ :: between ++ [.register ⟨"b", s, false⟩]),
      ∀ n, q.schema.hashed n ⊆ s.hashed false := by
    intro q hq n
    rw [hone q hq]
    exact Schema.hashed_subset_of_json?_none rfl n
  have hsep : Fingerprint.Separates (s.hashed false) := by decide +kernel
  obtain ⟨i, j, hi, hj, -, hplain⟩ := register_eq_iff before between
    ⟨"a", s, false⟩ ⟨"b", s, false⟩ rfl rfl (by decide)
    (hsep.mono (Registry.hashedBy_subset hsub _))
    (by decide +kernel) (by decide +kernel)
  obtain rfl : i = j := (hplain (by decide) (by decide)).mpr rfl
  exact ⟨i, hi, hj⟩

/-- References that are not plain can read like others when they are joined. Then two schemas that
differ get one ID, and no hashes collided. -/
theorem register_eq_of_joined :
    let s : Schema := ⟨"message M", .protobuf, [⟨"A", "a", 1⟩, ⟨"B", "b", 1⟩]⟩
    let t : Schema := ⟨"message M", .protobuf, [⟨"A (a@1),B", "b", 1⟩]⟩
    let os : List Operation := [.register ⟨"u", s, false⟩, .register ⟨"u", t, false⟩]
    registerCalls os < 2 ^ 31 ∧ Fingerprint.Separates (hashed {} os) ∧
      s.format = t.format ∧ s.text = t.text ∧ s.references ≠ t.references ∧
      (register "u" s false (reached [])).1 = .ok 1 ∧
      (register "u" t false (reached [.register ⟨"u", s, false⟩])).1 = .ok 1 := by
  intro s t os
  have hst : t.hashed false = s.hashed false := by
    unfold Schema.hashed
    rw [Schema.identityText_congr (s := t) (t := s) rfl rfl (by decide)]
    rfl
  have hsub : ∀ q ∈ registrations {} os, ∀ n, q.schema.hashed n ⊆ s.hashed false := by
    intro q hq n
    have hone : q.schema = s ∨ q.schema = t := by
      revert q
      decide +kernel
    rcases hone with e | e
    · rw [e]
      exact Schema.hashed_subset_of_json?_none rfl n
    · rw [e, ← hst]
      exact Schema.hashed_subset_of_json?_none rfl n
  have hsep : Fingerprint.Separates (s.hashed false) := by decide +kernel
  refine ⟨by decide, hsep.mono (Registry.hashedBy_subset hsub _), rfl, rfl, by decide, ?_, ?_⟩
  · decide +kernel
  · decide +kernel

end Client

end SchemaRegistry
