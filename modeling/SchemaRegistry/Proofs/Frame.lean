import SchemaRegistry.Proofs.Endpoint
import SchemaRegistry.Reference.Graph

/-!
What operations leave as it is. Only a serializer whose policy registers writes to the registry, by
one registration and whatever fails afterwards; everything else only reads.
-/

namespace SchemaRegistry

open Session

namespace Client

def registering (c : Client) : List Call := c.calls.filter fun q => q.request.method = .register

/-- What the registry holds, and the calls that were to change it. -/
def written (c : Client) : Registry × List Call := (c.registry, c.registering)

/-! ### Calls -/

lemma keeps_written_send {α : Type} {q : Request} (h : q.method ≠ .register)
    (f : Registry → Except RegistryError α) : Keeps written (send q f) := by
  intro c
  simp [written, registering, send, log, h]

lemma keeps_written_idOf (u : String) (s : Schema) (n : Bool) : Keeps written (idOf u s n) :=
  keeps_written_send (by simp [Request.method]) _

lemma keeps_written_bySubjectAndId (u : String) (id : UInt32) :
    Keeps written (bySubjectAndId u id) :=
  keeps_written_send (by simp [Request.method]) _

lemma written_askedFor (c : Client) (ks : List Key) : (c.askedFor ks).written = c.written := by
  simp [written, registering, askedFor, Request.method]

lemma written_register (u : String) (s : Schema) (n : Bool) (c : Client) :
    (register u s n c).2.written =
      ((if (c.fault? .register).isNone then (c.registry.register u s n).2 else c.registry),
        c.registering ++ [⟨.register u, c.fault? .register⟩]) := by
  cases h : c.fault? .register with
  | none =>
    simp [written, registering, register, answerTo_of_fault?_none h, log, failure?, Request.method]
  | some e =>
    simp [written, registering, register, answerTo_of_fault? h, log, failure?, Request.method]

end Client

/-! ### Traversals of references -/

lemma Linking.keeps_written_link (mode : Linking) (s : Schema) :
    Keeps Client.written (mode.link s) := by
  intro c
  obtain ⟨ks, hks⟩ := mode.exists_askedFor s c
  rw [hks, Client.written_askedFor]

lemma Graph.keeps_written_build (s : Schema) : Keeps Client.written (build s) :=
  fun c => c.written_askedFor _

lemma Sources.written_resolveInto (s : Schema) (m : Sources) (c : Client) :
    (resolveInto s m c).2.written = c.written :=
  c.written_askedFor _

lemma Sources.keeps_written_resolve (s : Schema) : Keeps Client.written (resolve s) :=
  fun c => c.written_askedFor _

lemma Avro.keeps_written_resolve (s : Schema) : Keeps Client.written (resolve s) :=
  fun c => c.written_askedFor _

/-! ### Serializers -/

lemma IdPolicy.written_resolve (p : IdPolicy) (u : String) (s : Schema) (n : Bool) (c : Client) :
    (p.resolve u s n c).2.written =
      if p.mutates then (Client.register u s n c).2.written else c.written := by
  cases p with
  | autoRegister => rfl
  | pinned id =>
    have h : Keeps Client.written ((pinned id).resolve u s n) :=
      (Client.keeps_written_bySubjectAndId u id).bind fun found =>
        Client.keeps_written_idOf u found false
    exact h c
  | latestVersion =>
    have h : Keeps Client.written (latestVersion.resolve u s n) :=
      (Client.keeps_written_send (by simp [Request.method]) _).bind fun m =>
        Client.keeps_written_idOf u m.schema false
    exact h c
  | lookup => exact Client.keeps_written_idOf u s n c

namespace Serializer

variable {μ : Type} (s : Serializer μ) (topic : String) (message : μ)

/-- What is registered for a message: its schema under its subject, if it has one and the policy of
the serializer may write. -/
def registration? : Option Registration :=
  match s.encoder.schemaOf message with
  | .ok schema =>
    if s.policy.mutates then
      some ⟨s.endpoint.subject topic schema, schema, s.endpoint.settings.normalize⟩
    else none
  | .error _ => none

lemma registration?_eq_some_iff {q : Registration} :
    s.registration? topic message = some q ↔
      ∃ schema, s.encoder.schemaOf message = .ok schema ∧ s.policy.mutates ∧
        q = ⟨s.endpoint.subject topic schema, schema, s.endpoint.settings.normalize⟩ := by
  unfold registration?
  cases s.encoder.schemaOf message with
  | error e => simp
  | ok schema => cases s.policy.mutates <;> simp [eq_comm]

lemma written_serialize (c : Client) :
    (s.serialize topic message c).2.written =
      ((match s.registration? topic message, c.fault? .register with
        | some q, none => (c.registry.register q.subject q.schema q.normalize).2
        | _, _ => c.registry),
      c.registering ++ (s.registration? topic message).toList.map fun q =>
        ⟨.register q.subject, c.fault? .register⟩) := by
  unfold registration?
  cases hs : s.encoder.schemaOf message with
  | error e =>
    rw [serialize_of_no_schema hs]
    simp [Client.written]
  | ok schema =>
    obtain ⟨ks, hks⟩ : ∃ ks, (s.serialize topic message c).2 =
        (s.getId topic schema c).2.askedFor ks := exists_askedFor_serialize hs
    rw [hks, Client.written_askedFor, getId, IdPolicy.written_resolve]
    cases s.policy.mutates with
    | false => simp [Client.written]
    | true =>
      rw [if_pos rfl, Client.written_register]
      cases c.fault? .register <;> rfl

end Serializer

/-! ### Deserializers -/

namespace Deserializer

variable {μ : Type} (d : Deserializer μ) (topic : String) (bytes : List UInt8)

lemma keeps_written_getSchema : Keeps Client.written (d.getSchema topic bytes) :=
  (keeps_lift _ _).bind fun _ => Client.keeps_written_bySubjectAndId _ _

lemma keeps_written_receive : Keeps Client.written (d.receive topic bytes) :=
  (keeps_lift _ _).bind fun _ => (Client.keeps_written_bySubjectAndId _ _).bind fun schema =>
    (d.decoder.linking.keeps_written_link schema).bind fun _ => keeps_pure _ _

lemma keeps_written_deserialize : Keeps Client.written (d.deserialize topic bytes) := by
  cases hd : d.factory with
  | none =>
    rw [deserialize_of_no_factory hd]
    exact keeps_lift _ (.error _)
  | some make =>
    rw [deserialize_of_factory hd]
    exact (d.keeps_written_receive topic bytes).bind fun _ => (keeps_lift _ _).bind fun _ =>
      (keeps_lift _ _).bind fun _ => keeps_pure _ _

lemma written_deserializeInto (target : μ) (c : Client) :
    (d.deserializeInto topic bytes target c).2.written = c.written := by
  have hc := d.keeps_written_receive topic bytes c
  rcases h : d.receive topic bytes c with ⟨e | received, c'⟩
  · rw [deserializeInto_of_error h, ← hc, h]
  · rw [deserializeInto_of_received h, ← hc, h]

end Deserializer

/-- **Only registering writes.** After serializing, whether or not it came to an envelope, the
registry is as it was, or as after the one registration of the message's schema under its subject.
The registration is asked for, once, exactly when the message has a schema and the policy may write,
and reaches the registry unless `register` fails. Getting an ID writes as the policy says, and no
deserializer, link of references or graph writes at all. -/
theorem only_registering_writes {μ ν : Type} (s : Serializer μ) (d : Deserializer ν)
    (topic : String) (message : μ) (bytes : List UInt8) (target : ν) (schema : Schema)
    (c : Client) :
    let c' := (s.serialize topic message c).2
    -- serializing
    (c'.registry = (match s.registration? topic message, c.fault? .register with
        | some q, none => (c.registry.register q.subject q.schema q.normalize).2
        | _, _ => c.registry) ∧
      c'.registering = c.registering ++ ((s.registration? topic message).toList.map fun q =>
        ⟨.register q.subject, c.fault? .register⟩) ∧
      ∀ q, s.registration? topic message = some q ↔
        ∃ schema, s.encoder.schemaOf message = .ok schema ∧ s.policy.mutates ∧
          q = ⟨s.endpoint.subject topic schema, schema, s.endpoint.settings.normalize⟩) ∧
    (∀ (p : IdPolicy) u n, (p.resolve u schema n c).2.written =
      if p.mutates then (Client.register u schema n c).2.written else c.written) ∧
    -- deserializing
    (Keeps Client.written (d.getSchema topic bytes) ∧
      Keeps Client.written (d.deserialize topic bytes) ∧
      (d.deserializeInto topic bytes target c).2.written = c.written) ∧
    -- references
    ((∀ mode : Linking, Keeps Client.written (mode.link schema)) ∧
      Keeps Client.written (Sources.resolve schema) ∧
      (∀ m, (Sources.resolveInto schema m c).2.written = c.written) ∧
      Keeps Client.written (Avro.resolve schema) ∧
      Keeps Client.written (Graph.build schema)) := by
  intro c'
  refine ⟨⟨?_, ?_, ?_⟩, fun p u n => p.written_resolve u schema n c,
    ⟨d.keeps_written_getSchema topic bytes, d.keeps_written_deserialize topic bytes,
      d.written_deserializeInto topic bytes target c⟩,
    ⟨fun mode => mode.keeps_written_link schema, Sources.keeps_written_resolve schema,
      fun m => Sources.written_resolveInto schema m c, Avro.keeps_written_resolve schema,
      Graph.keeps_written_build schema⟩⟩
  · exact congrArg Prod.fst (s.written_serialize topic message c)
  · exact congrArg Prod.snd (s.written_serialize topic message c)
  · exact fun q => s.registration?_eq_some_iff topic message

end SchemaRegistry
