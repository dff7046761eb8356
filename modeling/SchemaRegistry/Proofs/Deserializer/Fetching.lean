import SchemaRegistry.Proofs.Endpoint
import SchemaRegistry.Proofs.Envelope
import SchemaRegistry.Proofs.Reference.Walk

/-!
What deserializers ask for. A message that is no envelope is refused before anything is asked for.
For an envelope the schema with its ID is asked for, once, and then the references of that schema;
only when all of them are there the payload is decoded.
-/

namespace SchemaRegistry

namespace Client

def schemaWithId (c : Client) (u : String) (id : UInt32) : Except RegistryError Schema :=
  c.answerTo .bySubjectAndId fun r => r.bySubjectAndId u id

def askedForId (c : Client) (u : String) (id : UInt32) : Client :=
  c.log ⟨.bySubjectAndId u id, failure? (c.schemaWithId u id)⟩

lemma bySubjectAndId_apply (c : Client) (u : String) (id : UInt32) :
    bySubjectAndId u id c = ((c.schemaWithId u id).mapError .registry, c.askedForId u id) := rfl

lemma bySubjectAndId_of_ok {c : Client} {u : String} {id : UInt32} {schema : Schema}
    (h : c.schemaWithId u id = .ok schema) :
    bySubjectAndId u id c = (.ok schema, c.askedForId u id) := by
  rw [bySubjectAndId_apply, h]
  rfl

lemma bySubjectAndId_of_error {c : Client} {u : String} {id : UInt32} {e : RegistryError}
    (h : c.schemaWithId u id = .error e) :
    bySubjectAndId u id c = (.error (.registry e), c.askedForId u id) := by
  rw [bySubjectAndId_apply, h]
  rfl

end Client

lemma Envelope.payload_of_parse {bytes : List UInt8} {e : Envelope} (h : parse bytes = .ok e) :
    e.payload = bytes.drop headerLength := by
  rw [← parse_eq_ok_iff.mp h]
  rfl

lemma Envelope.isWireFormat_of_parse {bytes : List UInt8} {e : Error}
    (h : parse bytes = .error e) : e.isWireFormat := by
  cases shape bytes with
  | foreign b r hb =>
    rw [parse_foreign hb r] at h
    cases h
    rfl
  | cut _ h0 short =>
    rw [parse_cut h0 short] at h
    cases h
    rfl
  | envelope e' =>
    rw [parse_write e'] at h
    cases h

namespace Deserializer

variable {μ : Type} {d : Deserializer μ} {topic : String} {bytes : List UInt8} {e : Envelope}
  {c : Client}

/-- The message that is made of a payload, once everything else is there. -/
def made (d : Deserializer μ) (make : MessageFactory μ) (payload : List UInt8)
    (context : SchemaContext) : Except Error μ := do
  let message ← make context.subject context.schema.typeName
  (d.decoder.decode payload context message).1
  return (d.decoder.decode payload context message).2

lemma deserialize_of_received {make : MessageFactory μ} (hd : d.factory = some make)
    {received : List UInt8 × SchemaContext} {c' : Client}
    (h : d.receive topic bytes c = (.ok received, c')) :
    d.deserialize topic bytes c = (d.made make received.1 received.2, c') := by
  rw [deserialize_of_factory hd, Session.bind_of_ok h]
  unfold made
  cases hm : make received.2.subject received.2.schema.typeName with
  | error err => rfl
  | ok message =>
    rw [Session.bind_of_ok (Session.lift_apply _ c')]
    cases ho : (d.decoder.decode received.1 received.2 message).1 with
    | error err =>
      rw [Session.bind_of_error (Session.lift_apply _ c')]
      simp [bind, Except.bind, ho]
    | ok u =>
      rw [Session.bind_of_ok (Session.lift_apply _ c'), Session.pure_apply]
      simp [bind, Except.bind, ho, pure, Except.pure]

lemma deserialize_of_error {make : MessageFactory μ} (hd : d.factory = some make) {err : Error}
    {c' : Client} (h : d.receive topic bytes c = (.error err, c')) :
    d.deserialize topic bytes c = (.error err, c') := by
  rw [deserialize_of_factory hd, Session.bind_of_error h]

/-! ### Messages that are no envelopes -/

lemma getSchema_of_refused {err : Error} (h : Envelope.parse bytes = .error err) :
    d.getSchema topic bytes c = (.error err, c) := by
  unfold getSchema
  rw [h]
  rfl

lemma receive_of_refused {err : Error} (h : Envelope.parse bytes = .error err) :
    d.receive topic bytes c = (.error err, c) := by
  unfold receive
  rw [h]
  rfl

/-! ### Envelopes -/

section Parsed

variable (hparse : Envelope.parse bytes = .ok e)

include hparse

lemma getSchema_of_parse :
    d.getSchema topic bytes c =
      ((c.schemaWithId (d.subject topic) e.schemaId).mapError .registry,
        c.askedForId (d.subject topic) e.schemaId) := by
  unfold getSchema
  rw [Session.bind_of_ok (Session.lift_of_ok hparse c)]
  rfl

lemma receive_of_schemaWithId_error {err : RegistryError}
    (h : c.schemaWithId (d.subject topic) e.schemaId = .error err) :
    d.receive topic bytes c =
      (.error (.registry err), c.askedForId (d.subject topic) e.schemaId) := by
  unfold receive
  rw [Session.bind_of_ok (Session.lift_of_ok hparse c),
    Session.bind_of_error (Client.bySubjectAndId_of_error h)]

lemma receive_of_schemaWithId {schema : Schema} {outcome : Except Error Linked} {c' : Client}
    (h : c.schemaWithId (d.subject topic) e.schemaId = .ok schema)
    (hlink : d.decoder.linking.link schema (c.askedForId (d.subject topic) e.schemaId) =
      (outcome, c')) :
    d.receive topic bytes c =
      (outcome.map fun linked => (e.payload, ⟨d.subject topic, e.schemaId, schema, linked⟩),
        c') := by
  unfold receive
  rw [Session.bind_of_ok (Session.lift_of_ok hparse c),
    Session.bind_of_ok (Client.bySubjectAndId_of_ok h)]
  cases outcome with
  | error err => rw [Session.bind_of_error hlink]; rfl
  | ok linked => rw [Session.bind_of_ok hlink]; rfl

end Parsed

/-- **Deserializing follows the envelope.** A message that is no envelope is refused with one error
by all operations, nothing is asked for, and the target stays. For an envelope the one call before
those for references asks for the schema with the envelope's ID, under the subject that the naming
gives without a schema. All operations have the answer to it: its error ends them, and what is asked
for after its schema are references of that schema. The target stays unless the decoder gets the
bytes behind the header, and is what the decoder makes of it then. Only `deserialize` needs a factory
for that. -/
theorem fetches_by_envelope (d : Deserializer μ) (topic : String) (bytes : List UInt8) (target : μ)
    (c : Client) :
    (∀ err, Envelope.parse bytes = .error err →
      err.isWireFormat ∧
      d.getSchema topic bytes c = (.error err, c) ∧
      (∀ make, d.factory = some make → d.deserialize topic bytes c = (.error err, c)) ∧
      d.deserializeInto topic bytes target c = ((.error err, target), c)) ∧
    ∀ e, Envelope.parse bytes = .ok e →
      let subject := d.endpoint.naming topic d.endpoint.side .empty
      let answer := c.schemaWithId subject e.schemaId
      let c₁ := { c with
        calls := c.calls ++ [⟨.bySubjectAndId subject e.schemaId, failure? answer⟩] }
      d.getSchema topic bytes c = (answer.mapError .registry, c₁) ∧
      (∀ err, answer = .error err →
        (∀ make, d.factory = some make →
          d.deserialize topic bytes c = (.error (.registry err), c₁)) ∧
        d.deserializeInto topic bytes target c = ((.error (.registry err), target), c₁)) ∧
      ∀ schema, answer = .ok schema →
        let linking := d.decoder.linking.link schema c₁
        (∃ ks : List Key, linking.2 = { c₁ with
          calls := c₁.calls ++ ks.map fun k => ⟨.version k, failure? (c₁.answer k)⟩ }) ∧
        (∀ err, linking.1 = .error err →
          (∀ make, d.factory = some make →
            d.deserialize topic bytes c = (.error err, linking.2)) ∧
          d.deserializeInto topic bytes target c = ((.error err, target), linking.2)) ∧
        ∀ linked, linking.1 = .ok linked →
          let payload := bytes.drop Envelope.headerLength
          let context : SchemaContext := ⟨subject, e.schemaId, schema, linked⟩
          (∀ make, d.factory = some make →
            d.deserialize topic bytes c = (d.made make payload context, linking.2)) ∧
          d.deserializeInto topic bytes target c =
            (d.decoder.decode payload context target, linking.2) := by
  refine ⟨fun err herr => ?refused, fun e hparse => ?envelope⟩
  case refused =>
    have hreceive : d.receive topic bytes c = (.error err, c) := receive_of_refused herr
    exact ⟨Envelope.isWireFormat_of_parse herr, getSchema_of_refused herr,
      fun _ hd => deserialize_of_error hd hreceive, deserializeInto_of_error hreceive target⟩
  case envelope =>
    intro subject answer c₁
    refine ⟨getSchema_of_parse hparse, fun err herr => ?unanswered, fun schema hschema => ?answered⟩
    case unanswered =>
      have hreceive := receive_of_schemaWithId_error hparse herr
      exact ⟨fun _ hd => deserialize_of_error hd hreceive, deserializeInto_of_error hreceive target⟩
    case answered =>
      intro linking
      have hlink : d.decoder.linking.link schema c₁ = (linking.1, linking.2) := rfl
      have hreceive := receive_of_schemaWithId hparse hschema hlink
      refine ⟨d.decoder.linking.exists_askedFor schema c₁, fun err herr => ?unlinked,
        fun linked hlinked => ?linked⟩
      case unlinked =>
        rw [herr] at hreceive
        exact ⟨fun _ hd => deserialize_of_error hd hreceive,
          deserializeInto_of_error hreceive target⟩
      case linked =>
        rw [hlinked] at hreceive
        rw [← Envelope.payload_of_parse hparse]
        exact ⟨fun _ hd => deserialize_of_received hd hreceive,
          deserializeInto_of_received hreceive target⟩

/-- A foreign message asks for nothing. One with an ID that is not there is refused after one call,
and of one whose schema refers to a version that is not there nothing is decoded, also without a
factory. -/
theorem fetches_by_envelope_of_missing_reference :
    let schema : Schema := ⟨"message M", .protobuf, [⟨"A", "a", 1⟩]⟩
    let make : MessageFactory (List UInt8) := fun _ _ => .ok []
    let d : Deserializer (List UInt8) := ⟨{}, ⟨.sources, fun bytes _ _ => (.ok (), bytes)⟩, make⟩
    let d' : Deserializer (List UInt8) := { d with factory := none }
    let c := Client.reached [.register ⟨"t-value", schema, false⟩, .clearRequests]
    (Envelope.parse [1, 0, 0, 0, 1] = .error (.unknownMagicByte 1) ∧
        d'.deserializeInto "t" [1, 0, 0, 0, 1] [7] c = ((.error (.unknownMagicByte 1), [7]), c)) ∧
      (Envelope.parse [0, 0, 0, 0, 2, 9] = .ok ⟨2, [9]⟩ ∧ d.factory = some make ∧
        d.deserialize "t" [0, 0, 0, 0, 2, 9] c =
          (.error (.registry (.schemaNotFound "t-value" 2)), { c with
            calls := [⟨.bySubjectAndId "t-value" 2, some (.schemaNotFound "t-value" 2)⟩] })) ∧
      Envelope.parse [0, 0, 0, 0, 1, 9] = .ok ⟨1, [9]⟩ ∧
        d'.getSchema "t" [0, 0, 0, 0, 1, 9] c =
          (.ok schema, { c with calls := [⟨.bySubjectAndId "t-value" 1, none⟩] }) ∧
        d'.deserializeInto "t" [0, 0, 0, 0, 1, 9] [7] c =
          ((.error (.registry (.subjectNotFound "a")), [7]), { c with
            calls := [⟨.bySubjectAndId "t-value" 1, none⟩,
              ⟨.version ⟨"a", 1⟩, some (.subjectNotFound "a")⟩] }) := by
  intro schema make d d' c
  obtain ⟨hmissing, hfound, ha, hcalls⟩ :
      c.schemaWithId "t-value" 2 = .error (.schemaNotFound "t-value" 2) ∧
        c.schemaWithId "t-value" 1 = .ok schema ∧
        c.answer ⟨"a", 1⟩ = .error (.subjectNotFound "a") ∧ c.calls = [] := by
    decide +kernel
  refine ⟨⟨rfl, ?foreign⟩, ⟨rfl, rfl, ?unknown⟩, rfl, ?known⟩
  case foreign => exact ((fetches_by_envelope d' "t" [1, 0, 0, 0, 1] [7] c).1 _ rfl).2.2.2
  case unknown =>
    obtain ⟨-, hunanswered, -⟩ := (fetches_by_envelope d "t" [0, 0, 0, 0, 2, 9] [7] c).2 _ rfl
    have hrefused : d.deserialize "t" [0, 0, 0, 0, 2, 9] c =
        (.error (.registry (.schemaNotFound "t-value" 2)), { c with calls := c.calls ++
          [⟨.bySubjectAndId "t-value" 2, failure? (c.schemaWithId "t-value" 2)⟩] }) :=
      (hunanswered _ hmissing).1 make rfl
    rw [hmissing, hcalls] at hrefused
    exact hrefused
  case known =>
    let c₁ : Client := { c with
      calls := c.calls ++ [⟨.bySubjectAndId "t-value" 1, failure? (c.schemaWithId "t-value" 1)⟩] }
    have hc₁ : c₁ = { c with calls := [⟨.bySubjectAndId "t-value" 1, none⟩] } := by
      simp only [c₁, hfound, hcalls]
      rfl
    have hwalk : c₁.walkFrom schema =
        ⟨[⟨"a", 1⟩], [], .error (.registry (.subjectNotFound "a"))⟩ :=
      Client.walk_of_error (by simp) ha
    have hlink : d'.decoder.linking.link schema c₁ =
        (.error (.registry (.subjectNotFound "a")), c₁.askedFor [⟨"a", 1⟩]) := by
      change Linking.sources.link schema c₁ = _
      rw [Linking.link_sources_of_error (congrArg Walk.outcome hwalk), hwalk]
    obtain ⟨hget, -, hlinked⟩ :=
      (fetches_by_envelope d' "t" [0, 0, 0, 0, 1, 9] [7] c).2 _ rfl
    have hget : d'.getSchema "t" [0, 0, 0, 0, 1, 9] c =
        ((c.schemaWithId "t-value" 1).mapError .registry, c₁) := hget
    have hinto : d'.deserializeInto "t" [0, 0, 0, 0, 1, 9] [7] c =
        ((.error (.registry (.subjectNotFound "a")), [7]),
          (d'.decoder.linking.link schema c₁).2) :=
      ((hlinked _ hfound).2.1 _ (congrArg Prod.fst hlink)).2
    rw [hfound, hc₁] at hget
    rw [hlink, hc₁] at hinto
    refine ⟨hget, hinto.trans ?_⟩
    have ha : Client.answer { c with calls := [⟨.bySubjectAndId "t-value" 1, none⟩] } ⟨"a", 1⟩ =
      .error (.subjectNotFound "a") := ha
    rw [Client.askedFor, List.map_singleton, ha]
    rfl

end Deserializer

end SchemaRegistry
