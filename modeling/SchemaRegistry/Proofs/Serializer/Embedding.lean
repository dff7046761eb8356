import SchemaRegistry.Proofs.Endpoint
import SchemaRegistry.Proofs.Envelope

/-!
The ID that a serializer embeds. Serializing does what asking for the ID does, and ends where that
ends; after it only referenced versions are asked for, and the envelope has the ID as it was given.
-/

namespace SchemaRegistry

namespace Client

lemma requests_prefix_askedFor (c : Client) (ks : List Key) :
    c.requests <+: (c.askedFor ks).requests := by
  simp [requests, askedFor]

end Client

namespace Serializer

variable {μ : Type} {s : Serializer μ} {topic : String} {message : μ} {schema : Schema}
  {c c' c'' : Client}

lemma prepare_of_schema (hs : s.encoder.schemaOf message = .ok schema) :
    s.prepare topic message c = (do
      let id ← s.getId topic schema
      let linked ← s.encoder.linking.link schema
      return ⟨s.endpoint.subject topic schema, id, schema, linked⟩ : Session SchemaContext) c := by
  rw [prepare_eq_getId, Session.bind_of_ok (Session.lift_of_ok hs c)]

lemma serialize_of_getId_error {e : Error} (hs : s.encoder.schemaOf message = .ok schema)
    (h : s.getId topic schema c = (.error e, c')) :
    s.serialize topic message c = (.error e, c') := by
  have hprepare : s.prepare topic message c = (.error e, c') := by
    rw [prepare_of_schema hs, Session.bind_of_error h]
  rw [serialize, Session.bind_of_error hprepare]

lemma prepare_eq_ok_iff {id : UInt32} {context : SchemaContext}
    (hs : s.encoder.schemaOf message = .ok schema)
    (h : s.getId topic schema c = (.ok id, c')) :
    s.prepare topic message c = (.ok context, c'') ↔
      ∃ linked, s.encoder.linking.link schema c' = (.ok linked, c'') ∧
        context = ⟨s.endpoint.subject topic schema, id, schema, linked⟩ := by
  rw [prepare_of_schema hs, Session.bind_of_ok h]
  simp only [Session.bind_eq_ok_iff, Session.pure_eq_ok_iff]
  constructor
  · rintro ⟨linked, c₁, hl, rfl, rfl⟩
    exact ⟨linked, hl, rfl⟩
  · rintro ⟨linked, hl, rfl⟩
    exact ⟨linked, c'', hl, rfl, rfl⟩

/-- **Serializing embeds the ID that is asked for**, although it does not ask through `getId`. If that
fails, serializing fails with the same error and leaves the same client. If it gives an ID, serializing
makes the same calls first and then only asks for versions, so that it writes the same to the registry;
and its bytes are those of an envelope with that ID and the payload that the encoder makes in the
context of that ID. -/
theorem serialize_follows_getId (s : Serializer μ) (topic : String) (message : μ) (schema : Schema)
    (hs : s.encoder.schemaOf message = .ok schema) (c : Client) :
    (∀ e c', s.getId topic schema c = (.error e, c') →
      s.serialize topic message c = (.error e, c')) ∧
    ∀ id c', s.getId topic schema c = (.ok id, c') →
      let c'' := (s.serialize topic message c).2
      (∃ ks : List Key, c'' = { c' with
        calls := c'.calls ++ ks.map fun k => ⟨.version k, failure? (c'.answer k)⟩ }) ∧
      c''.registry = c'.registry ∧ c'.calls <+: c''.calls ∧ c'.requests <+: c''.requests ∧
      ∀ bytes, (s.serialize topic message c).1 = .ok bytes ↔
        ∃ linked body, s.encoder.linking.link schema c' = (.ok linked, c'') ∧
          s.encoder.encode message ⟨s.endpoint.subject topic schema, id, schema, linked⟩ =
            .ok body ∧
          bytes = Envelope.write ⟨id, body⟩ ∧ Envelope.schemaId? bytes = .ok id := by
  refine ⟨fun e c' h => serialize_of_getId_error hs h, fun id c' h => ?_⟩
  intro c''
  have hasked : ∃ ks, c'' = (s.getId topic schema c).2.askedFor ks := exists_askedFor_serialize hs
  rw [h] at hasked
  obtain ⟨ks, hks⟩ := hasked
  refine ⟨⟨ks, hks⟩, ?_, ?_, ?_, fun bytes => ?_⟩
  · rw [hks]
    rfl
  · rw [hks]
    exact List.prefix_append _ _
  · rw [hks]
    exact c'.requests_prefix_askedFor ks
  · have hpair : (s.serialize topic message c).1 = .ok bytes ↔
        s.serialize topic message c = (.ok bytes, c'') :=
      ⟨fun h => Prod.ext h rfl, fun h => congrArg Prod.fst h⟩
    rw [hpair, serialize_eq_ok_iff]
    simp only [prepare_eq_ok_iff hs h]
    constructor
    · rintro ⟨_, body, ⟨linked, hl, rfl⟩, hbody, rfl⟩
      exact ⟨linked, body, hl, hbody, rfl,
        Envelope.schemaId?_eq_ok_iff.mpr ⟨body, Envelope.parse_write _⟩⟩
    · rintro ⟨linked, body, hl, hbody, rfl, -⟩
      exact ⟨_, body, ⟨linked, hl, rfl⟩, hbody, rfl⟩

theorem serialize_follows_getId_of_lookup :
    let schema : Schema := ⟨"message M", .protobuf, []⟩
    let s : Serializer (List UInt8) :=
      ⟨{ settings := ⟨false, -1, false, false⟩ }, ⟨fun _ => .ok schema, .skip, fun m _ => .ok m⟩⟩
    let c := Client.reached [.register ⟨"t-value", schema, true⟩]
    let sent := s.serialize "t" [7] c
    s.serialize "u" [7] c = (.error (.registry (.subjectNotFound "u-value")),
        (s.getId "u" schema c).2) ∧
      sent.1 = .ok [0, 0, 0, 0, 1, 7] ∧ Envelope.schemaId? [0, 0, 0, 0, 1, 7] = .ok 1 ∧
      (s.getId "t" schema c).2.requests <+: sent.2.requests ∧
      sent.2.calls = [⟨.register "t-value", none⟩, ⟨.idOf "t-value", none⟩] := by
  intro schema s c sent
  obtain ⟨herror, -⟩ := serialize_follows_getId s "u" [7] schema rfl c
  obtain ⟨-, hok⟩ := serialize_follows_getId s "t" [7] schema rfl c
  obtain ⟨hmiss, hid, hbytes, hcalls⟩ :
      (s.getId "u" schema c).1 = .error (.registry (.subjectNotFound "u-value")) ∧
        (s.getId "t" schema c).1 = .ok 1 ∧ sent.1 = .ok [0, 0, 0, 0, 1, 7] ∧
        sent.2.calls = [⟨.register "t-value", none⟩, ⟨.idOf "t-value", none⟩] := by
    decide +kernel
  obtain ⟨-, -, -, hrequests, hwritten⟩ := hok 1 _ (Prod.ext hid rfl)
  obtain ⟨linked, body, -, -, -, hread⟩ := (hwritten _).mp hbytes
  exact ⟨herror _ _ (Prod.ext hmiss rfl), hbytes, hread, hrequests, hcalls⟩

end Serializer

end SchemaRegistry
