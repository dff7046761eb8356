import SchemaRegistry.Deserializer
import SchemaRegistry.Proofs.Policy
import SchemaRegistry.Serializer

/-!
What serializers and deserializers did when they came to a result. The policy of a serializer came to
an ID under the subject of the message's schema, and nothing after that changed what the registry
holds. What a deserializer makes of a payload that it received does not see the registry.
-/

namespace SchemaRegistry.Serializer

variable {μ : Type} {s : Serializer μ} {topic : String} {message : μ} {c c' : Client}

/-- Preparing comes to the ID in the way that `getId` does. -/
lemma prepare_eq_getId (s : Serializer μ) (topic : String) (message : μ) :
    s.prepare topic message = do
      let schema ← s.encoder.schemaOf message
      let id ← s.getId topic schema
      let linked ← s.encoder.linking.link schema
      return ⟨s.endpoint.subject topic schema, id, schema, linked⟩ := rfl

lemma part_serialize {γ : Type} (part : Client → γ) (s : Serializer μ) (topic : String) (message : μ)
    (c : Client) : part (s.serialize topic message c).2 = part (s.prepare topic message c).2 :=
  Session.part_bind (fun _ => (Session.keeps_lift part _).bind fun _ => Session.keeps_pure part _) c

lemma serialize_of_no_schema {e : Error} (hs : s.encoder.schemaOf message = .error e) :
    s.serialize topic message c = (.error e, c) := by
  have hlift : (liftM (s.encoder.schemaOf message) : Session Schema) c = (.error e, c) := by
    rw [Session.lift_apply, hs]
  have hprepare : s.prepare topic message c = (.error e, c) := by
    rw [prepare, Session.bind_of_error hlift]
  rw [serialize, Session.bind_of_error hprepare]

/-- After the ID only referenced versions are asked for. -/
lemma exists_askedFor_serialize {schema : Schema} (hs : s.encoder.schemaOf message = .ok schema) :
    ∃ ks, (s.serialize topic message c).2 = (s.getId topic schema c).2.askedFor ks := by
  have hprepare : (s.serialize topic message c).2 = (s.prepare topic message c).2 :=
    part_serialize (fun c => c) s topic message c
  rw [hprepare, prepare_eq_getId, Session.bind_of_ok (Session.lift_of_ok hs c)]
  rcases h : s.getId topic schema c with ⟨e | id, c₁⟩
  · rw [Session.bind_of_error h]
    exact ⟨[], by simp [Client.askedFor]⟩
  · rw [Session.bind_of_ok h, Session.part_bind (fun _ => Session.keeps_pure (fun c => c) _)]
    exact s.encoder.linking.exists_askedFor schema c₁

lemma serialize_eq_ok_iff {bytes : List UInt8} :
    s.serialize topic message c = (.ok bytes, c') ↔
      ∃ context body, s.prepare topic message c = (.ok context, c') ∧
        s.encoder.encode message context = .ok body ∧
        Envelope.write ⟨context.id, body⟩ = bytes := by
  unfold serialize
  simp only [Session.bind_eq_ok_iff, Session.lift_eq_ok_iff, Session.pure_eq_ok_iff]
  constructor
  · rintro ⟨context, c₁, hp, body, c₂, ⟨hb, rfl⟩, hw, rfl⟩
    exact ⟨context, body, hp, hb, hw⟩
  · rintro ⟨context, body, hp, hb, hw⟩
    exact ⟨context, c', hp, body, c', ⟨hb, rfl⟩, hw, rfl⟩

lemma resolves_of_prepare {context : SchemaContext}
    (h : s.prepare topic message c = (.ok context, c')) :
    s.encoder.schemaOf message = .ok context.schema ∧
      context.subject = s.endpoint.subject topic context.schema ∧
      ∃ w, s.policy.target? c.registry context.subject context.schema = some w ∧
        s.policy.Resolves c.registry context.subject w
          (s.policy.normalizes s.endpoint.settings.normalize) context.id c'.registry := by
  unfold prepare at h
  simp only [Session.bind_eq_ok_iff, Session.lift_eq_ok_iff, Session.pure_eq_ok_iff] at h
  obtain ⟨schema, c₁, ⟨hs, rfl⟩, id, c₂, hid, linked, c₃, hl, rfl, rfl⟩ := h
  obtain ⟨w, hw, hres⟩ := IdPolicy.resolves_of_resolve hid
  have hr := Linking.registry_link s.encoder.linking schema c₂
  rw [hl] at hr
  change c₃.registry = c₂.registry at hr
  rw [← hr] at hres
  exact ⟨hs, rfl, w, hw, hres⟩

end SchemaRegistry.Serializer

namespace SchemaRegistry.Deserializer

variable {μ : Type} {d : Deserializer μ} {topic : String} {bytes : List UInt8} {c c' : Client}

lemma deserialize_of_no_factory (hd : d.factory = none) :
    d.deserialize topic bytes = throw (.messageFactory "no message factory set") := by
  rw [deserialize, hd]

lemma deserialize_of_factory {make : MessageFactory μ} (hd : d.factory = some make) :
    d.deserialize topic bytes = d.receive topic bytes >>= fun received =>
      liftM (make received.2.subject received.2.schema.typeName) >>= fun message =>
      liftM (d.decoder.decode received.1 received.2 message).1 >>= fun _ =>
      pure (d.decoder.decode received.1 received.2 message).2 := by
  rw [deserialize, hd]

lemma deserializeInto_of_received {received : List UInt8 × SchemaContext}
    (h : d.receive topic bytes c = (.ok received, c')) (target : μ) :
    d.deserializeInto topic bytes target c =
      (d.decoder.decode received.1 received.2 target, c') := by
  have hrun : ((d.receive topic bytes).run : StateM Client _) c = _ := h
  unfold deserializeInto
  simp only [bind, StateT.bind, hrun]
  rfl

lemma deserializeInto_of_error {e : Error}
    (h : d.receive topic bytes c = (.error e, c')) (target : μ) :
    d.deserializeInto topic bytes target c = ((.error e, target), c') := by
  have hrun : ((d.receive topic bytes).run : StateM Client _) c = _ := h
  unfold deserializeInto
  simp only [bind, StateT.bind, hrun]
  rfl

end SchemaRegistry.Deserializer
