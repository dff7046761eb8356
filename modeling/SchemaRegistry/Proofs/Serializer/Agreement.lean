import SchemaRegistry.Proofs.Endpoint
import SchemaRegistry.Proofs.Envelope
import SchemaRegistry.Proofs.Registry.Identity

/-!
Which schema an envelope's ID stands for. It is one that agrees with the schema of the policy: with
the message's own schema if that was registered or looked up, and with the registry's if the policy
took it from there without a look at the message.
-/

namespace SchemaRegistry

namespace IdPolicy.Resolves

variable {ts : List String} {p : IdPolicy} {r r' : Registry} {u : String} {w : Schema} {n : Bool}
  {id : UInt32}

lemma agrees (h : p.Resolves r u w n id r') (hr : r.Sound) (hc : r.Collected ts)
    (hsep : Fingerprint.Separates ts) (hw : w.hashed n ⊆ ts) :
    ∃ t, r'.bySubjectAndId u id = .ok t ∧ t.Agrees w := by
  obtain ⟨t, hfound, hn⟩ := (h.holds hr).bySubjectAndId
  obtain ⟨-, ht⟩ := Registry.bySubjectAndId_eq_ok_iff.mp hfound
  refine ⟨t, hfound, ?_⟩
  cases h with
  | registers =>
    rcases Registry.get?_schemas_register ht with rfl | ht
    · exact .refl t
    · exact Schema.agrees_of_identity_eq hsep (hc.hashed ht n) hw hn
  | finds => exact Schema.agrees_of_identity_eq hsep (hc.hashed ht n) hw hn

end IdPolicy.Resolves

namespace Serializer

variable {μ : Type}

/-- The schema that the policy of a serializer asks an ID for. -/
def target? (s : Serializer μ) (r : Registry) (topic : String) (schema : Schema) : Option Schema :=
  s.policy.target? r (s.endpoint.subject topic schema) schema

/-- The texts that the policy of a serializer has hashed to look its schema up. -/
def hashed (s : Serializer μ) (r : Registry) (topic : String) (schema : Schema) : List String :=
  ((s.target? r topic schema).map fun w =>
    w.hashed (s.policy.normalizes s.endpoint.settings.normalize)).getD []

/-- **Which schema the ID of an envelope stands for**: one with the format, the normalized
fingerprint and the joined references of the policy's schema, which is the message's if the policy
registers or looks up. Plain references are the same. -/
theorem serialize_agrees (s : Serializer μ) (before : List Operation)
    (calls : registerCalls before < 2 ^ 31) (topic : String) (message : μ) (bytes : List UInt8)
    (c : Client) (h : s.serialize topic message (Client.reached before) = (.ok bytes, c))
    (sep : ∀ schema, s.encoder.schemaOf message = .ok schema →
      Fingerprint.Separates (Client.hashed {} before ++
        s.hashed (Client.reached before).registry topic schema)) :
    ∃ context w t,
      s.prepare topic message (Client.reached before) = (.ok context, c) ∧
      s.encoder.schemaOf message = .ok context.schema ∧
      s.target? (Client.reached before).registry topic context.schema = some w ∧
      (s.policy = .autoRegister ∨ s.policy = .lookup → w = context.schema) ∧
      c.registry.bySubjectAndId context.subject context.id = .ok t ∧
      t.format = w.format ∧ t.normalizedFingerprint = w.normalizedFingerprint ∧
      ((∀ r ∈ t.references, r.Plain) → (∀ r ∈ w.references, r.Plain) →
        t.references = w.references) := by
  obtain ⟨context, body, hprepare, -, -⟩ := serialize_eq_ok_iff.mp h
  obtain ⟨hschema, hsubject, w, hw, hres⟩ := resolves_of_prepare hprepare
  have htarget : s.target? (Client.reached before).registry topic context.schema = some w := by
    rw [target?, ← hsubject, hw]
  have hown : s.policy = .autoRegister ∨ s.policy = .lookup → w = context.schema := by
    rintro (hp | hp) <;>
    · rw [hp] at hw
      exact (Option.some.inj hw).symm
  have hsep := sep _ hschema
  have hlookup : w.hashed (s.policy.normalizes s.endpoint.settings.normalize) ⊆
      Client.hashed {} before ++
        s.hashed (Client.reached before).registry topic context.schema := by
    rw [hashed, htarget]
    exact List.subset_append_right _ _
  obtain ⟨t, ht, hagree⟩ := hres.agrees (Client.sound_reached calls)
    (Client.collected_reached calls hsep (List.subset_append_left _ _)) hsep hlookup
  refine ⟨context, w, t, hprepare, hschema, htarget, hown, ht, hagree.format, ?_,
    fun htp hwp => Schema.referenceLabels_inj htp hwp hagree.referenceLabels⟩
  rw [Schema.normalizedFingerprint, Schema.normalizedFingerprint, hagree.canonicalText]

theorem serialize_agrees_of_lookup :
    let w : Schema := ⟨"message M", .protobuf, [⟨"A", "a", 1⟩]⟩
    let s : Serializer (List UInt8) := ⟨{ settings := ⟨false, -1, false, true⟩ },
      ⟨fun _ => .ok w, .skip, fun m _ => .ok m⟩⟩
    let before : List Operation := [.register ⟨"t-value", w, false⟩]
    ∃ context c t, s.prepare "t" [7] (Client.reached before) = (.ok context, c) ∧
      c.registry.bySubjectAndId context.subject context.id = .ok t ∧
      t.normalizedFingerprint = w.normalizedFingerprint := by
  intro w s before
  have h : (s.serialize "t" [7] (Client.reached before)).1 = .ok [0, 0, 0, 0, 1, 7] := by
    decide +kernel
  have hw : Fingerprint.Separates (w.hashed false) := by decide +kernel
  have hone : ∀ q ∈ Client.registrations {} before, q.schema = w := by decide +kernel
  have hbefore : Client.hashed {} before ⊆ w.hashed false := by
    refine Registry.hashedBy_subset (fun q hq n => ?_) _
    rw [hone q hq]
    exact Schema.hashed_subset_of_json?_none rfl n
  have sep : ∀ schema, s.encoder.schemaOf [7] = .ok schema →
      Fingerprint.Separates (Client.hashed {} before ++
        s.hashed (Client.reached before).registry "t" schema) := by
    rintro _ ⟨⟩
    exact hw.mono
      (List.append_subset.mpr ⟨hbefore, Schema.hashed_subset_of_json?_none (s := w) rfl true⟩)
  obtain ⟨context, w', t, hp, -, -, hown, ht, -, hf, -⟩ :=
    serialize_agrees s before (by decide) "t" [7] _ _ (Prod.ext h rfl) sep
  have hschema : context.schema = w := by
    obtain ⟨hs, -⟩ := resolves_of_prepare hp
    exact (Except.ok.inj hs).symm
  rw [hown (.inr rfl), hschema] at hf
  exact ⟨context, _, t, hp, ht, hf⟩

/-- A serializer that was told an ID embeds it whatever the schema of the message is. -/
theorem serialize_pinned_disagrees :
    let w : Schema := ⟨"message M", .protobuf, []⟩
    let s : Serializer (List UInt8) := ⟨{ settings := ⟨false, 1, false, false⟩ },
      ⟨fun _ => .ok ⟨"message N", .protobuf, []⟩, .skip, fun m _ => .ok m⟩⟩
    let before : List Operation := [.register ⟨"t-value", w, false⟩]
    (s.serialize "t" [7] (Client.reached before)).1 = .ok [0, 0, 0, 0, 1, 7] ∧
    ∃ context c, s.prepare "t" [7] (Client.reached before) = (.ok context, c) ∧
      c.registry.bySubjectAndId context.subject context.id = .ok w ∧
      w.normalizedFingerprint ≠ context.schema.normalizedFingerprint := by
  intro w s before
  have h : (s.serialize "t" [7] (Client.reached before)).1 = .ok [0, 0, 0, 0, 1, 7] := by
    decide +kernel
  refine ⟨h, ?_⟩
  obtain ⟨context, body, hp, -, hbytes⟩ := serialize_eq_ok_iff.mp (Prod.ext h rfl)
  have hparse := Envelope.parse_write ⟨context.id, body⟩
  rw [hbytes] at hparse
  have hid : context.id = 1 := (congrArg Envelope.schemaId (Except.ok.inj hparse)).symm
  obtain ⟨hs, hsubject, -⟩ := resolves_of_prepare hp
  have hschema : context.schema = ⟨"message N", .protobuf, []⟩ := (Except.ok.inj hs).symm
  have hheld : (s.serialize "t" [7] (Client.reached before)).2.registry.bySubjectAndId
      (s.endpoint.subject "t" .empty) 1 = .ok w := by
    decide +kernel
  refine ⟨context, _, hp, ?_, ?_⟩
  · rw [hsubject, hid]
    exact hheld
  · rw [hschema]
    decide +kernel

end Serializer

end SchemaRegistry
