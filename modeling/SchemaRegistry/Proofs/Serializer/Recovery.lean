import SchemaRegistry.Proofs.Endpoint
import SchemaRegistry.Proofs.Envelope

/-!
What was serialized can be deserialized, at once and after any other calls: the ID in the envelope
is one of a version of the subject, and that version stays.
-/

namespace SchemaRegistry

/-- A strategy that gives every schema on a side of a topic one subject. -/
def SubjectNaming.IgnoresSchema (naming : SubjectNaming) : Prop :=
  ∀ topic side s t, naming topic side s = naming topic side t

lemma Client.bySubjectAndId_of_held {c : Client} {u : String} {id : UInt32} {t : Schema}
    (up : c.fault? .bySubjectAndId = none) (h : c.registry.bySubjectAndId u id = .ok t) :
    ∃ c', Client.bySubjectAndId u id c = (.ok t, c') :=
  ⟨_, Prod.ext (send_eq_ok_iff.mpr ⟨up, h⟩) rfl⟩

namespace Deserializer

variable {ν : Type} {d : Deserializer ν} {topic : String} {bytes : List UInt8} {e : Envelope}
  {schema : Schema} {c : Client} (hparse : Envelope.parse bytes = .ok e)
  (up : c.fault? .bySubjectAndId = none)
  (h : c.registry.bySubjectAndId (d.subject topic) e.schemaId = .ok schema)

include hparse up h

lemma getSchema_eq_ok : (d.getSchema topic bytes c).1 = .ok schema := by
  obtain ⟨c', hc⟩ := Client.bySubjectAndId_of_held up h
  unfold getSchema
  rw [Session.bind_of_ok (Session.lift_of_ok hparse c)]
  exact congrArg Prod.fst hc

lemma receive_eq_ok (skip : d.decoder.linking = .skip) :
    ∃ c', d.receive topic bytes c =
      (.ok (e.payload, ⟨d.subject topic, e.schemaId, schema, .unresolved⟩), c') := by
  obtain ⟨c', hc⟩ := Client.bySubjectAndId_of_held up h
  have hlink : d.decoder.linking.link schema c' = (.ok .unresolved, c') := by
    rw [skip]
    rfl
  refine ⟨c', ?_⟩
  unfold receive
  rw [Session.bind_of_ok (Session.lift_of_ok hparse c), Session.bind_of_ok hc,
    Session.bind_of_ok hlink]
  rfl

lemma deserializeInto_eq (skip : d.decoder.linking = .skip) (target : ν) :
    (d.deserializeInto topic bytes target c).1 =
      d.decoder.decode e.payload ⟨d.subject topic, e.schemaId, schema, .unresolved⟩ target := by
  obtain ⟨c', hc⟩ := receive_eq_ok hparse up h skip
  rw [deserializeInto_of_received hc]

end Deserializer

namespace Serializer

variable {μ ν : Type}

lemma holds_of_prepare {s : Serializer μ} {topic : String} {message : μ} {c c' : Client}
    {context : SchemaContext} (h : s.prepare topic message c = (.ok context, c'))
    (hs : c.registry.Sound)
    (room : c.registry.lastId.toNat + s.policy.mutates.toNat < 2 ^ 31) :
    c'.registry.Sound ∧
      c'.registry.lastId.toNat ≤ c.registry.lastId.toNat + s.policy.mutates.toNat ∧
      ∃ w n, c'.registry.Holds context.subject w n context.id := by
  obtain ⟨-, -, w, -, hres⟩ := resolves_of_prepare h
  obtain ⟨qs, hqs, hlen⟩ := hres.registry_eq
  obtain ⟨hsound, -, hle⟩ := hs.registerAll qs (by omega)
  rw [← hqs] at hsound hle
  exact ⟨hsound, by omega, w, _, hres.holds hs⟩

/-- **What was serialized can be deserialized**, then and after any further calls. The schema that
is found stays the same, and the decoder gets the payload that the encoder made, under the subject
and with the ID of the serializer. -/
theorem serialize_recovers (s : Serializer μ) (d : Deserializer ν)
    (side : d.endpoint.side = s.endpoint.side) (naming : d.endpoint.naming = s.endpoint.naming)
    (ignores : s.endpoint.naming.IgnoresSchema) (before : List Operation)
    (calls : registerCalls before + s.policy.mutates.toNat < 2 ^ 31) (topic : String)
    (message : μ) (bytes : List UInt8) (c : Client)
    (h : s.serialize topic message (Client.reached before) = (.ok bytes, c)) :
    ∃ context body schema,
      s.prepare topic message (Client.reached before) = (.ok context, c) ∧
      s.encoder.encode message context = .ok body ∧
      bytes = Envelope.write ⟨context.id, body⟩ ∧
      ∀ later : List Operation,
        registerCalls before + s.policy.mutates.toNat + registerCalls later < 2 ^ 31 →
        (c.run later).fault? .bySubjectAndId = none →
        (d.getSchema topic bytes (c.run later)).1 = .ok schema ∧
        (d.decoder.linking = .skip → ∀ target,
          (d.deserializeInto topic bytes target (c.run later)).1 =
            d.decoder.decode body ⟨context.subject, context.id, schema, .unresolved⟩ target) := by
  obtain ⟨context, body, hprepare, hencode, rfl⟩ := serialize_eq_ok_iff.mp h
  -- the strategy does not look at the schema, so the reader asks under the writer's subject
  have hsubject : d.subject topic = context.subject := by
    obtain ⟨-, hsub, -⟩ := resolves_of_prepare hprepare
    rw [hsub, Deserializer.subject, Endpoint.subject, Endpoint.subject, side, naming]
    exact ignores _ _ _ _
  have hle : (Client.reached before).registry.lastId.toNat ≤ registerCalls before :=
    Client.lastId_reached_le (by omega)
  obtain ⟨hsound, hlast, w, n, hholds⟩ :=
    holds_of_prepare hprepare (Client.sound_reached (by omega)) (by omega)
  obtain ⟨schema, hschema, -⟩ := hholds.bySubjectAndId
  refine ⟨context, body, schema, hprepare, hencode, rfl, ?_⟩
  intro later room up
  have hqs := Client.length_registrations_le c later
  have hgrow : c.registry.Grows (c.run later).registry := by
    rw [Client.registry_run]
    exact (hsound.registerAll _ (by omega)).2.1
  have hfound :
      (c.run later).registry.bySubjectAndId (d.subject topic) context.id = .ok schema := by
    rw [hsubject]
    exact hgrow.bySubjectAndId hschema
  have hparse := Envelope.parse_write ⟨context.id, body⟩
  rw [← hsubject]
  exact ⟨Deserializer.getSchema_eq_ok hparse up hfound,
    Deserializer.deserializeInto_eq hparse up hfound⟩

theorem serialize_recovers_pinned :
    let older : Registration := ⟨"t-value", ⟨"message M", .protobuf, []⟩, false⟩
    let newer : Registration := ⟨"t-value", ⟨"message N", .protobuf, []⟩, true⟩
    let s : Serializer (List UInt8) :=
      ⟨{ settings := ⟨false, 1, false, true⟩ },
        ⟨fun _ => .ok newer.schema, .skip, fun m _ => .ok m⟩⟩
    let d : Deserializer (List UInt8) := ⟨{}, ⟨.skip, fun b _ _ => (.ok (), b)⟩, none⟩
    let c := (s.serialize "t" [7, 8] (Client.reached [.register older])).2
    let later := [.register newer, .setFault .register (some "down")]
    (∃ schema, (d.getSchema "t" [0, 0, 0, 0, 1, 7, 8] (c.run later)).1 = .ok schema) ∧
      (d.deserializeInto "t" [0, 0, 0, 0, 1, 7, 8] [] (c.run later)).1 = (.ok (), [7, 8]) := by
  intro older newer s d c later
  have h : (s.serialize "t" [7, 8] (Client.reached [.register older])).1 =
      .ok [0, 0, 0, 0, 1, 7, 8] := by
    decide +kernel
  obtain ⟨context, body, schema, -, hbody, -, hlater⟩ := serialize_recovers s d rfl rfl
    (fun _ _ _ _ => rfl) [.register older] (by decide) "t" [7, 8] _ c (Prod.ext h rfl)
  obtain ⟨hschema, hinto⟩ := hlater later (by decide) (by decide +kernel)
  cases hbody
  exact ⟨⟨schema, hschema⟩, hinto rfl []⟩

end Serializer

end SchemaRegistry
