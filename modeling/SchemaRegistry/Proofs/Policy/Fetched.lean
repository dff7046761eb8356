import SchemaRegistry.Proofs.Policy
import SchemaRegistry.Proofs.Registry.Canonical

/-!
Policies that look up what they fetched. A pinned ID leads back to itself: what is fetched by an ID
is the schema that the ID was given to. The latest version has the text of its own registration, and
by that text its ID is found only if the ID was given to a schema with just that text.
-/

namespace SchemaRegistry

namespace Registry

/-! ### Looking up by exact text -/

section Collected

variable {ts : List String} {r : Registry} (hc : r.Collected ts) (h : r.Sound)

include hc

lemma Collected.idOf_fetched_eq_ok_iff {u : String} {s : Schema} {p id : UInt32}
    (hs : r.schemas.get? p = some s) :
    r.idOf u s false = .ok id ↔ id = p ∧ (r.withId? u p).isSome := by
  rw [idOf_eq_ok_iff, hc.exact hs, Option.some.injEq]
  constructor
  · rintro ⟨rfl, hm⟩
    exact ⟨rfl, hm⟩
  · rintro ⟨rfl, hm⟩
    exact ⟨rfl, hm⟩

include h in
lemma Collected.idOf_exact_eq_ok_iff {u : String} {s : Schema} {id : UInt32} :
    r.idOf u s false = .ok id ↔ r.Holds u s false id :=
  ⟨h.holds_of_idOf, fun hs => idOf_eq_ok_iff.mpr ⟨hc.lookup?_of_holds hs, hs.version⟩⟩

lemma Collected.holds_exact_iff (hsep : Fingerprint.Separates ts) {u : String} {s : Schema}
    {id : UInt32} (hs : s.hashed false ⊆ ts) :
    r.Holds u s false id ↔ (∃ m ∈ r.versionsOf u, m.id = id) ∧
      ∃ t, r.bySubjectAndId u id = .ok t ∧ t.format = s.format ∧ t.text = s.text ∧
        t.referenceLabels = s.referenceLabels := by
  simp only [bySubjectAndId_eq_ok_iff, ← isSome_withId?_iff]
  constructor
  · rintro ⟨hm, t, ht, hn⟩
    exact ⟨hm, t, ⟨.inr hm, ht⟩, (Schema.identity_eq_iff hsep (hc.hashed ht false) hs).mp hn⟩
  · rintro ⟨hm, t, ⟨-, ht⟩, hsame⟩
    exact ⟨hm, t, ht, (Schema.identity_eq_iff hsep (hc.hashed ht false) hs).mpr hsame⟩

end Collected

lemma idOf_eq_error {r : Registry} {u : String} {s : Schema} {n : Bool}
    (hu : r.versionsOf u ≠ []) (hne : ∀ id, r.idOf u s n ≠ .ok id) :
    r.idOf u s n = .error (.schemaNotRegistered u) := by
  have hcontains : r.subjects.contains u := by
    rw [Table.contains, Option.isSome_iff_ne_none]
    intro hnone
    simp [versionsOf, hnone] at hu
  unfold idOf at hne ⊢
  rw [if_neg (not_not_intro hcontains)] at hne ⊢
  split
  · next id hid => exact absurd (by simp [hid]) (hne id)
  · rfl

lemma bySubjectAndId_eq_error {r : Registry} {u : String} {id : UInt32} (hu : u ≠ "")
    (hm : r.withId? u id = none) : r.bySubjectAndId u id = .error (.schemaNotFound u id) := by
  unfold bySubjectAndId
  rw [if_pos ⟨by simpa using hu, by rw [hm]; rfl⟩]

lemma latest_eq_ok_iff {r : Registry} {u : String} {m : Registered} :
    r.latest u = .ok m ↔ (r.versionsOf u).getLast? = some m := by
  unfold latest
  cases (r.versionsOf u).getLast? <;> simp

/-! ### Versions with the text of their IDs -/

/-- The IDs of the subject's versions were given to the texts that the versions have. -/
def Verbatim (r : Registry) (u : String) : Prop :=
  ∀ m ∈ r.versionsOf u, r.Holds u m.schema false m.id

lemma verbatim_empty (u : String) : Registry.empty.Verbatim u := by
  simp [Verbatim, Registry.empty, versionsOf]

section Verbatim

variable {r : Registry} {u : String} (hv : r.Verbatim u) (h : r.Sound)

include hv h

/-- A registration by exact text adds a version with the text of its ID. -/
lemma Verbatim.register {q : Registration} (room : r.lastId.toNat + 1 < 2 ^ 32)
    (hq : q.subject = u → q.normalize = false) :
    (r.register q.subject q.schema q.normalize).2.Verbatim u := by
  have hgrow := h.grows_register room q.subject q.schema q.normalize
  intro m hm
  rw [versionsOf_register] at hm
  split at hm
  · next e =>
    obtain ⟨rfl, -⟩ := e
    rcases List.mem_append.mp hm with hm | hm
    · exact hgrow.holds (hv m hm)
    · have hnew := h.holds_register q.subject q.schema q.normalize
      rw [List.mem_singleton.mp hm]
      rw [hq rfl] at hnew ⊢
      exact hnew
  · exact hgrow.holds (hv m hm)

lemma Verbatim.registerAll {qs : List Registration}
    (room : r.lastId.toNat + qs.length < 2 ^ 32)
    (hqs : ∀ q ∈ qs, q.subject = u → q.normalize = false) : (r.registerAll qs).Verbatim u := by
  refine (Sound.registerAll_induction (P := fun rest r => r.Verbatim u ∧
    ∀ q ∈ rest, q.subject = u → q.normalize = false) ?_ h room ⟨hv, hqs⟩).1
  rintro r q rest h room ⟨hv, hqs⟩
  obtain ⟨hq, hrest⟩ := List.forall_mem_cons.mp hqs
  exact ⟨hv.register h room hq, hrest⟩

end Verbatim

/-! ### Two layouts of one schema -/

lemma register_empty (u : String) (s : Schema) (n : Bool) :
    empty.register u s n = (1, ⟨Table.empty.insert 1 s, Table.empty.insert (s.identity false) 1,
      Table.empty.insert (s.identity true) 1, Table.empty.insert u [⟨1, u, 1, s⟩], 1⟩) := by
  cases n <;> rfl

section Layouts

variable {s t : Schema} {u v : String} (hst : s.Agrees t)
  (hne : s.identity false ≠ t.identity false) (huv : u ≠ v)

include hst in
lemma registerAll_layout :
    empty.registerAll [⟨u, s, false⟩, ⟨v, t, true⟩] =
      (empty.register u s false).2.addVersion v t 1 := by
  have hhit : (empty.register u s false).2.lookup? t true = some 1 := by
    simp [register_empty, lookup?, index, hst.identity_eq]
  rw [registerAll_cons, registerAll_cons, registerAll_nil, register_of_lookup? hhit]

include hst hne huv

lemma idOf_latest_layout :
    let r := empty.registerAll [⟨u, s, false⟩, ⟨v, t, true⟩]
    r.latest v = .ok ⟨1, v, 1, t⟩ ∧ r.idOf v t false = .error (.schemaNotRegistered v) := by
  intro r
  have hr : r = _ := registerAll_layout hst
  have hversions : r.versionsOf v = [⟨1, v, 1, t⟩] := by
    rw [hr]
    simp [register_empty, addVersion, withId?, versionsOf, huv.symm, nextVersion]
  have hmiss : r.lookup? t false = none := by
    rw [hr, lookup?, index_addVersion]
    simp [register_empty, index, hne.symm]
  refine ⟨latest_eq_ok_iff.mpr (by rw [hversions]; rfl), idOf_eq_error (by simp [hversions]) ?_⟩
  intro id hid
  rw [idOf_eq_ok_iff, hmiss] at hid
  cases hid.1

lemma idOf_latest_again :
    let r := empty.registerAll [⟨u, s, false⟩, ⟨v, t, false⟩, ⟨u, s, true⟩]
    r.latest u = .ok ⟨2, u, 2, s⟩ ∧ r.idOf u s false = .ok 1 := by
  intro r
  have hmiss : (empty.register u s false).2.lookup? t false = none := by
    simp [register_empty, lookup?, index, hne.symm]
  have hhit : ((empty.register u s false).2.register v t false).2.lookup? s true = some 2 := by
    rw [register_of_lookup?_none hmiss, lookup?, index_addVersion, index_allocate]
    simp [register_empty, hst.identity_eq]
  have hr : r = (((empty.register u s false).2.allocate t).addVersion v t 2).addVersion u s 2 := by
    simp only [r, registerAll_cons, registerAll_nil, register_of_lookup? hhit]
    rw [register_of_lookup?_none hmiss]
    simp [register_empty]
  have hversions : r.versionsOf u = [⟨1, u, 1, s⟩, ⟨2, u, 2, s⟩] := by
    rw [hr]
    simp [register_empty, addVersion, allocate, withId?, versionsOf, huv, huv.symm, nextVersion]
  have hfound : r.lookup? s false = some 1 := by
    rw [hr, lookup?, index_addVersion, index_addVersion, index_allocate]
    simp [register_empty, index, hne]
  refine ⟨latest_eq_ok_iff.mpr (by rw [hversions]; rfl), idOf_eq_ok_iff.mpr ⟨hfound, ?_⟩⟩
  rw [withId?, hversions]
  rfl

lemma versionsOf_layouts :
    let r := empty.registerAll [⟨u, s, false⟩, ⟨v, t, true⟩, ⟨v, t, false⟩]
    r.versionsOf u = [⟨1, u, 1, s⟩] ∧ r.versionsOf v = [⟨1, v, 1, t⟩, ⟨2, v, 2, t⟩] ∧
      (∀ w, w ≠ u → w ≠ v → r.versionsOf w = []) ∧ r.schemas.get? 2 = some t := by
  intro r
  have hmiss : ((empty.register u s false).2.addVersion v t 1).lookup? t false = none := by
    rw [lookup?, index_addVersion]
    simp [register_empty, index, hne.symm]
  have hr : r = (((empty.register u s false).2.addVersion v t 1).allocate t).addVersion v t 2 := by
    have happend : r = (empty.registerAll [⟨u, s, false⟩, ⟨v, t, true⟩]).registerAll
        [⟨v, t, false⟩] := registerAll_append _ [_, _] _
    rw [happend, registerAll_layout hst, registerAll_cons, registerAll_nil,
      register_of_lookup?_none hmiss]
    simp [register_empty]
  rw [hr]
  refine ⟨?_, ?_, fun w hu hv => ?_, ?_⟩
  · simp [register_empty, addVersion, allocate, withId?, versionsOf, huv, huv.symm]
  · simp [register_empty, addVersion, allocate, withId?, versionsOf, huv.symm, nextVersion]
  · simp [register_empty, addVersion, allocate, withId?, versionsOf, huv.symm, hu, hv]
  · rw [schemas_addVersion, get?_schemas_allocate, lastId_addVersion]
    simp [register_empty]

end Layouts

end Registry

namespace Client

lemma verbatim_reached {os : List Operation} (calls : registerCalls os < 2 ^ 31) {u : String}
    (hos : ∀ q ∈ registrations {} os, q.subject = u → q.normalize = false) :
    (reached os).registry.Verbatim u := by
  have hlen := length_registrations_le {} os
  rw [registry_reached]
  exact (Registry.verbatim_empty u).registerAll Registry.sound_empty
    (by rw [Registry.lastId_empty]; omega) hos

lemma send_bind_idOf_fst {α : Type} {q : Request} {f : Registry → Except RegistryError α}
    {c : Client} (up : c.fault? q.method = none) (up' : c.fault? .idOf = none) (u : String)
    (w : α → Schema) :
    ((send q f >>= fun a => idOf u (w a) false) c).1 =
      ((f c.registry).bind fun a => c.registry.idOf u (w a) false).mapError Error.registry := by
  have hsend : send q f c =
      ((f c.registry).mapError Error.registry, c.log ⟨q, failure? (f c.registry)⟩) := by
    unfold send
    rw [answerTo_of_fault?_none up]
  cases hf : f c.registry with
  | error e =>
    rw [hf] at hsend
    rw [Session.bind_of_error hsend]
    rfl
  | ok a =>
    rw [hf] at hsend
    rw [Session.bind_of_ok hsend, idOf, send]
    exact congrArg (Except.mapError Error.registry)
      (answerTo_of_fault?_none (c := c.log ⟨q, failure? (.ok a)⟩) up' _)

end Client

namespace IdPolicy

lemma mapError_eq_ok_iff {α β γ : Type} {f : α → β} {x : Except α γ} {a : γ} :
    x.mapError f = .ok a ↔ x = .ok a := by
  cases x <;> simp [Except.mapError]

lemma layouts_separate :
    let s : Schema := ⟨"\"string\"", .avro, []⟩
    let t : Schema := ⟨" \"string\"", .avro, []⟩
    s.Agrees t ∧ s.identity false ≠ t.identity false ∧
      ∀ os, (∀ q ∈ Client.registrations {} os, q.schema = s ∨ q.schema = t) →
        Fingerprint.Separates (Client.hashed {} os ++ t.hashed false) := by
  intro s t
  obtain ⟨hs, ht⟩ : s.canonicalText = s.text ∧ t.canonicalText = s.text := by decide +kernel
  have hsep : Fingerprint.Separates (s.hashed false ++ t.hashed false) := by decide +kernel
  refine ⟨⟨rfl, hs.trans ht.symm, rfl⟩, fun h => ?_, fun os hos => ?_⟩
  · obtain ⟨-, htext, -⟩ := (Schema.identity_eq_iff hsep (List.subset_append_left _ _)
      (List.subset_append_right _ _)).mp h
    exact absurd htext (by decide)
  · exact hsep.mono (List.append_subset.mpr
      ⟨Client.hashed_subset_of_layouts hos hs rfl ht rfl, List.subset_append_right _ _⟩)

/-! ### The latest version -/

lemma resolve_latestVersion_fst {c : Client} (up : c.fault? .latest = none)
    (up' : c.fault? .idOf = none) {u : String} {m : Registered} (hm : c.registry.latest u = .ok m)
    (s : Schema) (n : Bool) :
    (latestVersion.resolve u s n c).1 =
      (c.registry.idOf u m.schema false).mapError Error.registry := by
  have h := Client.send_bind_idOf_fst (q := .latest u) (f := fun r => r.latest u) up up' u
    Registered.schema
  rw [hm] at h
  exact h

/-- **What the policy of the latest version comes to**: an ID that the subject has and that was
given to a schema with the text of the latest version. That is the ID of the latest version itself
if and only if its own text is fetched by it, as when nothing was registered under the subject by
canonical text. If there is no such ID the schema is said not to be registered. -/
theorem resolve_latestVersion_eq_ok_iff (os : List Operation) (calls : registerCalls os < 2 ^ 31)
    (u : String) (m : Registered) (hm : (Client.reached os).registry.latest u = .ok m)
    (sep : Fingerprint.Separates (Client.hashed {} os ++ m.schema.hashed false)) (s : Schema)
    (n : Bool) (up : (Client.reached os).fault? .latest = none)
    (up' : (Client.reached os).fault? .idOf = none) :
    let r := (Client.reached os).registry
    let answer := (latestVersion.resolve u s n (Client.reached os)).1
    (∀ id, answer = .ok id ↔ (∃ m' ∈ r.versionsOf u, m'.id = id) ∧
      ∃ t, r.bySubjectAndId u id = .ok t ∧ t.format = m.schema.format ∧
        t.text = m.schema.text ∧ t.referenceLabels = m.schema.referenceLabels) ∧
    (answer = .ok m.id ↔ ∃ t, r.bySubjectAndId u m.id = .ok t ∧ t.text = m.schema.text) ∧
    ((∀ q ∈ Client.registrations {} os, q.subject = u → q.normalize = false) →
      answer = .ok m.id) ∧
    ((∀ id, answer ≠ .ok id) → answer = .error (.registry (.schemaNotRegistered u))) := by
  intro r answer
  have hs : r.Sound := Client.sound_reached calls
  have hc : r.Collected _ := Client.collected_reached calls sep (List.subset_append_left _ _)
  have hlast : (r.versionsOf u).getLast? = some m := Registry.latest_eq_ok_iff.mp hm
  have hmem : m ∈ r.versionsOf u := List.mem_of_getLast? hlast
  have hanswer : answer = (r.idOf u m.schema false).mapError Error.registry :=
    resolve_latestVersion_fst up up' hm s n
  have hholds : ∀ id, answer = .ok id ↔ r.Holds u m.schema false id := by
    intro id
    rw [hanswer, mapError_eq_ok_iff, hc.idOf_exact_eq_ok_iff hs]
  have hfetched := fun id => (hholds id).trans
    (hc.holds_exact_iff sep (List.subset_append_right _ _))
  refine ⟨hfetched, ?_, ?_, ?_⟩
  · -- format and references of a version are those of its ID anyway
    obtain ⟨t, ht, hagree⟩ := hc.agrees m hmem
    rw [hfetched]
    constructor
    · rintro ⟨-, t, ht, -, htext, -⟩
      exact ⟨t, ht, htext⟩
    · rintro ⟨t', ht', htext⟩
      obtain ⟨-, hget⟩ := Registry.bySubjectAndId_eq_ok_iff.mp ht'
      obtain rfl : t = t' := Option.some.inj (ht.symm.trans hget)
      exact ⟨⟨m, hmem, rfl⟩, t, ht', hagree.format, htext, hagree.referenceLabels⟩
  · intro hexact
    exact (hholds m.id).mpr (Client.verbatim_reached calls hexact m hmem)
  · intro hne
    have hmiss : ∀ id, r.idOf u m.schema false ≠ .ok id := by
      intro id hid
      exact hne id (by rw [hanswer, hid]; rfl)
    rw [hanswer, Registry.idOf_eq_error (List.ne_nil_of_mem hmem) hmiss]
    rfl

theorem resolve_latestVersion_eq_ok_of_exact :
    let s : Schema := ⟨"\"string\"", .avro, []⟩
    let t : Schema := ⟨" \"string\"", .avro, []⟩
    let os : List Operation := [.register ⟨"a", s, false⟩, .register ⟨"b", t, true⟩,
      .register ⟨"b", t, false⟩, .setFault .register (some "down")]
    (Client.reached os).registry.latest "b" = .ok ⟨2, "b", 2, t⟩ ∧
      (latestVersion.resolve "b" s true (Client.reached os)).1 = .ok 2 := by
  intro s t os
  obtain ⟨hst, hne, hsep⟩ := layouts_separate
  have hr : (Client.reached os).registry =
      Registry.empty.registerAll [⟨"a", s, false⟩, ⟨"b", t, true⟩, ⟨"b", t, false⟩] :=
    Client.registry_reached os
  obtain ⟨-, hversions, -, hschema⟩ :=
    Registry.versionsOf_layouts (u := "a") (v := "b") hst hne (by decide)
  rw [← hr] at hversions hschema
  have hlatest : (Client.reached os).registry.latest "b" = .ok ⟨2, "b", 2, t⟩ := by
    rw [Registry.latest_eq_ok_iff, hversions]
    rfl
  have hfound : (Client.reached os).registry.bySubjectAndId "b" 2 = .ok t := by
    rw [Registry.bySubjectAndId_eq_ok_iff, Registry.isSome_withId?_iff, hversions]
    exact ⟨.inr (by simp), hschema⟩
  obtain ⟨-, hown, -⟩ := resolve_latestVersion_eq_ok_iff os (by decide) "b" ⟨2, "b", 2, t⟩ hlatest
    (hsep os (by decide +kernel)) s true rfl rfl
  exact ⟨hlatest, hown.mpr ⟨t, hfound, rfl⟩⟩

/-- A version that was registered by its canonical text can have another text than its ID. The
policy of the latest version then finds nothing, or another version of the subject. -/
theorem resolve_latestVersion_ne_latest :
    let s : Schema := ⟨"\"string\"", .avro, []⟩
    let t : Schema := ⟨" \"string\"", .avro, []⟩
    let c := Client.reached [.register ⟨"a", s, false⟩, .register ⟨"b", t, true⟩]
    let c' := Client.reached [.register ⟨"a", s, false⟩, .register ⟨"b", t, false⟩,
      .register ⟨"a", s, true⟩]
    (c.registry.latest "b" = .ok ⟨1, "b", 1, t⟩ ∧
      (latestVersion.resolve "b" s false c).1 = .error (.registry (.schemaNotRegistered "b"))) ∧
    c'.registry.latest "a" = .ok ⟨2, "a", 2, s⟩ ∧
      (latestVersion.resolve "a" s false c').1 = .ok 1 := by
  intro s t c c'
  obtain ⟨hst, hne, -⟩ := layouts_separate
  have hr : c.registry = Registry.empty.registerAll [⟨"a", s, false⟩, ⟨"b", t, true⟩] :=
    Client.registry_reached _
  have hr' : c'.registry =
      Registry.empty.registerAll [⟨"a", s, false⟩, ⟨"b", t, false⟩, ⟨"a", s, true⟩] :=
    Client.registry_reached _
  obtain ⟨hb, hmiss⟩ := Registry.idOf_latest_layout (u := "a") (v := "b") hst hne (by decide)
  obtain ⟨ha, hother⟩ := Registry.idOf_latest_again (u := "a") (v := "b") hst hne (by decide)
  rw [← hr] at hb hmiss
  rw [← hr'] at ha hother
  refine ⟨⟨hb, ?_⟩, ha, ?_⟩
  · rw [resolve_latestVersion_fst rfl rfl hb, hmiss]
    rfl
  · rw [resolve_latestVersion_fst rfl rfl ha, hother]
    rfl

/-! ### A pinned ID -/

lemma resolve_pinned_fst {c : Client} (up : c.fault? .bySubjectAndId = none)
    (up' : c.fault? .idOf = none) (p : UInt32) (u : String) (s : Schema) (n : Bool) :
    ((pinned p).resolve u s n c).1 = ((c.registry.bySubjectAndId u p).bind fun t =>
      c.registry.idOf u t false).mapError Error.registry :=
  Client.send_bind_idOf_fst (q := .bySubjectAndId u p) (f := fun r => r.bySubjectAndId u p) up up' u
    id

/-- Whatever a policy with a pinned ID comes to, it is that ID, and the subject has it. -/
lemma eq_of_resolve_pinned {ts : List String} {c : Client} (hc : c.registry.Collected ts)
    {p id : UInt32} {u : String} {s : Schema} {n : Bool}
    (h : ((pinned p).resolve u s n c).1 = .ok id) :
    id = p ∧ (c.registry.withId? u p).isSome := by
  have hrun : (pinned p).resolve u s n c = (.ok id, ((pinned p).resolve u s n c).2) :=
    Prod.ext h rfl
  obtain ⟨t, c₁, ht, hid⟩ := Session.bind_eq_ok_iff.mp hrun
  obtain ⟨ht, hr⟩ := Client.send_eq_ok ht
  obtain ⟨hid, -⟩ := Client.send_eq_ok hid
  obtain ⟨-, hschema⟩ := Registry.bySubjectAndId_eq_ok_iff.mp ht
  rw [hr] at hid
  exact (hc.idOf_fetched_eq_ok_iff hschema).mp hid

/-- **What a policy with a pinned ID comes to**: that ID if it is one of a version of the subject,
and no other. If the subject has no such version the policy fails, and unless the subject is empty
the error says that the ID is not found there. -/
theorem resolve_pinned_eq_ok_iff (os : List Operation) (calls : registerCalls os < 2 ^ 31)
    (sep : Fingerprint.Separates (Client.hashed {} os)) (u : String) (p : UInt32) (s : Schema)
    (n : Bool) :
    let c := Client.reached os
    let answer := ((pinned p).resolve u s n c).1
    (∀ id, answer = .ok id → id = p ∧ ∃ m ∈ c.registry.versionsOf u, m.id = p) ∧
    (c.fault? .bySubjectAndId = none → c.fault? .idOf = none →
      (answer = .ok p ↔ ∃ m ∈ c.registry.versionsOf u, m.id = p) ∧
      ((¬ ∃ m ∈ c.registry.versionsOf u, m.id = p) →
        ∃ e, answer = .error (.registry e) ∧ (u ≠ "" → e = .schemaNotFound u p))) := by
  intro c answer
  have hs : c.registry.Sound := Client.sound_reached calls
  have hc : c.registry.Collected _ := Client.collected_reached calls sep (List.Subset.refl _)
  simp only [← Registry.isSome_withId?_iff]
  have honly : ∀ id, answer = .ok id → id = p ∧ (c.registry.withId? u p).isSome :=
    fun id h => eq_of_resolve_pinned hc h
  refine ⟨honly, fun up up' => ?_⟩
  have hanswer : answer = ((c.registry.bySubjectAndId u p).bind fun t =>
      c.registry.idOf u t false).mapError Error.registry := resolve_pinned_fst up up' p u s n
  refine ⟨⟨fun h => (honly p h).2, fun hm => ?_⟩, fun hm => ?_⟩
  · obtain ⟨m, hmem, rfl⟩ := Registry.isSome_withId?_iff.mp hm
    obtain ⟨t, ht, -⟩ := hc.agrees m hmem
    have hfetched := Registry.bySubjectAndId_eq_ok_iff.mpr ⟨.inr hm, ht⟩
    have hid := (hc.idOf_fetched_eq_ok_iff ht).mpr ⟨rfl, hm⟩
    rw [hanswer, hfetched]
    exact mapError_eq_ok_iff.mpr hid
  · cases ho : (c.registry.bySubjectAndId u p).bind fun t => c.registry.idOf u t false with
    | ok id =>
      rw [ho] at hanswer
      exact absurd (honly id hanswer).2 hm
    | error e =>
      rw [ho] at hanswer
      refine ⟨e, hanswer, fun hu => ?_⟩
      rw [Registry.bySubjectAndId_eq_error hu (Option.not_isSome_iff_eq_none.mp hm)] at ho
      cases ho
      rfl

theorem resolve_pinned_eq_ok_of_layouts :
    let s : Schema := ⟨"\"string\"", .avro, []⟩
    let t : Schema := ⟨" \"string\"", .avro, []⟩
    let c := Client.reached [.register ⟨"a", s, false⟩, .register ⟨"b", t, true⟩,
      .register ⟨"b", t, false⟩, .setFault .register (some "down")]
    ((pinned 1).resolve "b" t true c).1 = .ok 1 ∧
      ((pinned 2).resolve "a" t true c).1 = .error (.registry (.schemaNotFound "a" 2)) ∧
      ∃ e, ((pinned 1).resolve "" t true c).1 = .error (.registry e) := by
  intro s t c
  obtain ⟨hst, hne, hsep⟩ := layouts_separate
  have hr : c.registry =
      Registry.empty.registerAll [⟨"a", s, false⟩, ⟨"b", t, true⟩, ⟨"b", t, false⟩] :=
    Client.registry_reached _
  obtain ⟨ha, hb, hnone, -⟩ :=
    Registry.versionsOf_layouts (u := "a") (v := "b") hst hne (by decide)
  rw [← hr] at ha hb hnone
  have hall := fun u p => (resolve_pinned_eq_ok_iff [.register ⟨"a", s, false⟩,
      .register ⟨"b", t, true⟩, .register ⟨"b", t, false⟩, .setFault .register (some "down")]
    (by decide) ((hsep _ (by decide +kernel)).mono (List.subset_append_left _ _)) u p t true).2
    rfl rfl
  obtain ⟨e, he, hcause⟩ := (hall "a" 2).2 (by rw [ha]; decide)
  obtain rfl := hcause (by decide)
  obtain ⟨e, he', -⟩ := (hall "" 1).2 (by rw [hnone "" (by decide) (by decide)]; simp)
  exact ⟨(hall "b" 1).1.mpr (by rw [hb]; simp), he, e, he'⟩

end IdPolicy

end SchemaRegistry
