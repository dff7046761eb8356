import SchemaRegistry.Proofs.Endpoint
import SchemaRegistry.Proofs.Session.FailFast

/-!
What operations do when a call fails. They end with the error of the call, before any codec is asked
for anything, and a serializer asks for its ID only as the policy that its settings select does.
-/

namespace SchemaRegistry

/-- A call failed on the way from `c` to `c'`. -/
def Client.Failed (c c' : Client) : Prop :=
  ∃ qs q e, c'.calls = c.calls ++ qs ∧ q ∈ qs ∧ q.failure = some e

lemma FailsFast.of_failed {α : Type} {c c' : Client} {outcome : Except Error α}
    (h : FailsFast c outcome c') (hf : c.Failed c') : ∃ e, outcome = .error (.registry e) := by
  obtain ⟨qs, q, e, hqs, hq, he⟩ := hf
  exact ⟨e, h.outcome_of_failed hqs hq he⟩

/-! ### Policies -/

/-- The requests of a policy under a subject, in order. -/
def IdPolicy.requests (p : IdPolicy) (u : String) : List Request :=
  match p with
  | .autoRegister => [.register u]
  | .pinned id => [.bySubjectAndId u id, .idOf u]
  | .latestVersion => [.latest u, .idOf u]
  | .lookup => [.idOf u]

/-- The requests of the calls between `c` and `c'` are the first ones of `qs`. -/
def Client.Requests (qs : List Request) (c c' : Client) : Prop :=
  ∃ made : List Call, c'.calls = c.calls ++ made ∧ made.map Call.request <+: qs

lemma Client.requests_send_bind {α β : Type} (q q' : Request)
    (f : Registry → Except RegistryError α) (g : α → Registry → Except RegistryError β)
    (c : Client) : c.Requests [q, q'] ((send q f >>= fun a => send q' (g a)) c).2 := by
  have hfirst : (send q f c).2.calls = c.calls ++ [⟨q, failure? (c.answerTo q.method f)⟩] := rfl
  rcases h : send q f c with ⟨_ | a, c'⟩
  · rw [Session.bind_of_error h]
    rw [h] at hfirst
    exact ⟨_, hfirst, by simp⟩
  · rw [Session.bind_of_ok h]
    rw [h] at hfirst
    refine ⟨_, (congrArg (· ++ _) hfirst).trans (List.append_assoc _ _ _), ?_⟩
    simp

namespace IdPolicy

lemma failsFast_resolve (p : IdPolicy) (u : String) (s : Schema) (n : Bool) :
    (p.resolve u s n).FailsFast := by
  cases p with
  | autoRegister => exact Client.failsFast_register u s n
  | pinned id =>
    exact (Client.failsFast_send _ _).bind fun _ => Client.failsFast_send _ _
  | latestVersion =>
    exact (Client.failsFast_send _ _).bind fun _ => Client.failsFast_send _ _
  | lookup => exact Client.failsFast_send _ _

lemma requests_resolve (p : IdPolicy) (u : String) (s : Schema) (n : Bool) (c : Client) :
    c.Requests (p.requests u) (p.resolve u s n c).2 := by
  cases p with
  | autoRegister => exact ⟨_, rfl, List.prefix_rfl⟩
  | pinned id => exact c.requests_send_bind _ _ _ _
  | latestVersion => exact c.requests_send_bind _ _ _ _
  | lookup => exact ⟨_, rfl, List.prefix_rfl⟩

end IdPolicy

/-! ### Serializers -/

namespace Serializer

variable {μ : Type} (s : Serializer μ) (topic : String) (message : μ)

lemma failsFast_getId (schema : Schema) : (s.getId topic schema).FailsFast :=
  s.policy.failsFast_resolve _ _ _

lemma failsFast_prepare : (s.prepare topic message).FailsFast :=
  (Session.failsFast_lift _).bind fun schema => (s.failsFast_getId topic schema).bind fun _ =>
    (s.encoder.linking.failsFast_link schema).bind fun _ => Session.failsFast_pure _

lemma failsFast_serialize : (s.serialize topic message).FailsFast :=
  (s.failsFast_prepare topic message).bind fun _ =>
    (Session.failsFast_lift _).bind fun _ => Session.failsFast_pure _

variable {s topic message} {c : Client}

lemma serialize_of_failed (h : c.Failed (s.serialize topic message c).2)
    (encode : μ → SchemaContext → Except Error (List UInt8)) :
    Serializer.serialize { s with encoder := { s.encoder with encode } } topic message c =
      s.serialize topic message c := by
  have hprepare : c.Failed (s.prepare topic message c).2 := by
    unfold Client.Failed at h ⊢
    rwa [part_serialize Client.calls] at h
  obtain ⟨e, he⟩ := (s.failsFast_prepare topic message c).of_failed hprepare
  have hs : s.prepare topic message c = (.error (.registry e), (s.prepare topic message c).2) :=
    Prod.ext he rfl
  have hs' : Serializer.prepare { s with encoder := { s.encoder with encode } } topic message c =
      (.error (.registry e), (s.prepare topic message c).2) := hs
  rw [serialize, serialize, Session.bind_of_error hs, Session.bind_of_error hs']

end Serializer

/-! ### Deserializers -/

namespace Deserializer

variable {μ : Type} (d : Deserializer μ) (topic : String) (bytes : List UInt8)

lemma failsFast_getSchema : (d.getSchema topic bytes).FailsFast :=
  (Session.failsFast_lift _).bind fun _ => Client.failsFast_send _ _

lemma failsFast_receive : (d.receive topic bytes).FailsFast :=
  (Session.failsFast_lift _).bind fun _ => (Client.failsFast_send _ _).bind fun schema =>
    (d.decoder.linking.failsFast_link schema).bind fun _ => Session.failsFast_pure _

variable {d topic bytes} {c : Client}

lemma failsFast_deserialize (d : Deserializer μ) (topic : String) (bytes : List UInt8) :
    (d.deserialize topic bytes).FailsFast := by
  cases hd : d.factory with
  | none =>
    rw [deserialize_of_no_factory hd]
    exact Session.failsFast_lift (.error _)
  | some make =>
    rw [deserialize_of_factory hd]
    exact (d.failsFast_receive topic bytes).bind fun _ => (Session.failsFast_lift _).bind fun _ =>
      (Session.failsFast_lift _).bind fun _ => Session.failsFast_pure _

lemma deserialize_of_failed (h : c.Failed (d.deserialize topic bytes c).2)
    (make : MessageFactory μ)
    (decode : List UInt8 → SchemaContext → μ → Except Error Unit × μ) :
    deserialize ⟨d.endpoint, { d.decoder with decode }, some make⟩ topic bytes c =
      d.deserialize topic bytes c := by
  cases hd : d.factory with
  | none =>
    rw [deserialize_of_no_factory hd] at h
    obtain ⟨e, he⟩ := (Session.failsFast_lift (.error (.messageFactory _)) c).of_failed h
    cases he
  | some make' =>
    have hsnd : (d.deserialize topic bytes c).2 = (d.receive topic bytes c).2 := by
      rw [deserialize_of_factory hd]
      exact Session.part_bind (fun _ => (Session.keeps_lift (fun c => c) _).bind fun _ =>
        (Session.keeps_lift _ _).bind fun _ => Session.keeps_pure _ _) c
    rw [hsnd] at h
    obtain ⟨e, he⟩ := (d.failsFast_receive topic bytes c).of_failed h
    have hr : d.receive topic bytes c = (.error (.registry e), (d.receive topic bytes c).2) :=
      Prod.ext he rfl
    have hr' : receive ⟨d.endpoint, { d.decoder with decode }, some make⟩ topic bytes c =
        (.error (.registry e), (d.receive topic bytes c).2) := hr
    rw [deserialize_of_factory hd, deserialize_of_factory rfl, Session.bind_of_error hr,
      Session.bind_of_error hr']

lemma failsFast_deserializeInto (d : Deserializer μ) (topic : String) (bytes : List UInt8)
    (target : μ) (c : Client) :
    FailsFast c (d.deserializeInto topic bytes target c).1.1
      (d.deserializeInto topic bytes target c).2 := by
  have hc := d.failsFast_receive topic bytes c
  rcases h : d.receive topic bytes c with ⟨e | received, c'⟩
  · rw [deserializeInto_of_error h]
    rw [h] at hc
    exact hc.map fun e' he' => by cases he'; rfl
  · rw [deserializeInto_of_received h]
    rw [h] at hc
    exact hc.trans (.of_calls_eq _ rfl)

lemma deserializeInto_of_failed {target : μ} (h : c.Failed (d.deserializeInto topic bytes target c).2)
    (decode : List UInt8 → SchemaContext → μ → Except Error Unit × μ) :
    (d.deserializeInto topic bytes target c).1.2 = target ∧
      deserializeInto { d with decoder := { d.decoder with decode } } topic bytes target c =
        d.deserializeInto topic bytes target c := by
  have hc := d.failsFast_receive topic bytes c
  rcases hr : d.receive topic bytes c with ⟨e | received, c'⟩
  · have hr' : receive { d with decoder := { d.decoder with decode } } topic bytes c =
        (.error e, c') := hr
    rw [deserializeInto_of_error hr, deserializeInto_of_error hr']
    exact ⟨rfl, rfl⟩
  · rw [deserializeInto_of_received hr] at h
    rw [hr] at hc
    obtain ⟨e, he⟩ := hc.of_failed h
    cases he

end Deserializer

/-- **Operations fail fast.** A call that fails is the last one of its operation, which ends with
the error of the call. Then neither encoder, decoder nor factory is used, and a message that was to
be filled stays as it was. For its ID a serializer makes the requests of the policy that its settings
select, under the subject of the schema, up to one that fails, and asks for referenced versions
afterwards. -/
theorem operations_fail_fast {μ : Type} (s : Serializer μ) (d : Deserializer μ) (topic : String)
    (message : μ) (bytes : List UInt8) (target : μ) (schema : Schema) (c : Client) :
    -- serializers
    ((∀ (p : IdPolicy) u n, (p.resolve u schema n).FailsFast) ∧
      (s.getId topic schema).FailsFast ∧
      (s.serialize topic message).FailsFast) ∧
    -- deserializers
    ((d.getSchema topic bytes).FailsFast ∧
      (d.deserialize topic bytes).FailsFast ∧
      FailsFast c (d.deserializeInto topic bytes target c).1.1
        (d.deserializeInto topic bytes target c).2) ∧
    -- traversals of references
    ((Sources.resolve schema).FailsFast ∧
      (∀ m, FailsFast c (Sources.resolveInto schema m c).1.1 (Sources.resolveInto schema m c).2) ∧
      (Avro.resolve schema).FailsFast ∧
      (Graph.build schema).FailsFast) ∧
    -- with any other encoder, decoder or factory it fails alike
    ((c.Failed (s.serialize topic message c).2 → ∀ encode,
        Serializer.serialize { s with encoder := { s.encoder with encode } } topic message c =
          s.serialize topic message c) ∧
      (c.Failed (d.deserialize topic bytes c).2 → ∀ make decode,
        Deserializer.deserialize ⟨d.endpoint, { d.decoder with decode }, some make⟩ topic bytes c =
          d.deserialize topic bytes c) ∧
      (c.Failed (d.deserializeInto topic bytes target c).2 → ∀ decode,
        (d.deserializeInto topic bytes target c).1.2 = target ∧
        Deserializer.deserializeInto { d with decoder := { d.decoder with decode } } topic bytes
          target c = d.deserializeInto topic bytes target c)) ∧
    -- the requests for the ID, and what comes after them
    (c.Requests ((IdPolicy.select s.endpoint.settings).requests (s.endpoint.subject topic schema))
        (s.getId topic schema c).2 ∧
      (∀ e, s.encoder.schemaOf message = .error e → s.serialize topic message c = (.error e, c)) ∧
      (s.encoder.schemaOf message = .ok schema → ∃ ks,
        (s.serialize topic message c).2 = (s.getId topic schema c).2.askedFor ks)) := by
  refine ⟨⟨?_, ?_, ?_⟩, ⟨?_, ?_, ?_⟩, ⟨?_, ?_, ?_, ?_⟩, ⟨?_, ?_, ?_⟩, ⟨?_, ?_, ?_⟩⟩
  · exact fun p u n => p.failsFast_resolve u schema n
  · exact s.failsFast_getId topic schema
  · exact s.failsFast_serialize topic message
  · exact d.failsFast_getSchema topic bytes
  · exact d.failsFast_deserialize topic bytes
  · exact d.failsFast_deserializeInto topic bytes target c
  · exact Sources.failsFast_resolve schema
  · exact fun m => Sources.failsFast_resolveInto schema m c
  · exact Avro.failsFast_resolve schema
  · exact Graph.failsFast_build schema
  · exact Serializer.serialize_of_failed
  · exact Deserializer.deserialize_of_failed
  · exact Deserializer.deserializeInto_of_failed
  · exact s.policy.requests_resolve _ _ _ c
  · exact fun e => Serializer.serialize_of_no_schema
  · exact Serializer.exists_askedFor_serialize

/-- A reference that is not registered stops a serializer below a reference that is. -/
theorem operations_fail_fast_below_reference :
    let text (rs : List Reference) : Schema := ⟨"message M", .protobuf, rs⟩
    let schema := text [⟨"A", "a", 1⟩, ⟨"C", "c", 1⟩]
    let s : Serializer Unit := ⟨{}, ⟨fun _ => .ok schema, .sources, fun _ _ => .ok []⟩⟩
    let c := Client.reached [.register ⟨"a", text [⟨"B", "b", 1⟩], false⟩, .clearRequests]
    let r := s.serialize "t" () c
    r.1 = .error (.registry (.subjectNotFound "b")) ∧
      r.2.calls = [⟨.register "t-value", none⟩, ⟨.version ⟨"a", 1⟩, none⟩,
        ⟨.version ⟨"b", 1⟩, some (.subjectNotFound "b")⟩] ∧
      ∀ encode, Serializer.serialize { s with encoder := { s.encoder with encode } } "t" () c = r := by
  intro text schema s c r
  let c₁ := (Client.register "t-value" schema false c).2
  obtain ⟨hid, ha, hb, hbefore⟩ : (s.getId "t" schema c).1 = .ok 2 ∧
      c₁.answer ⟨"a", 1⟩ = .ok ⟨1, "a", 1, text [⟨"B", "b", 1⟩]⟩ ∧
      c₁.answer ⟨"b", 1⟩ = .error (.subjectNotFound "b") ∧
      c₁.calls = [⟨.register "t-value", none⟩] := by
    decide +kernel
  have hid : s.getId "t" schema c = (.ok 2, c₁) := Prod.ext hid rfl
  have hwalk : c₁.walkFrom schema = ⟨[⟨"a", 1⟩, ⟨"b", 1⟩], [],
      .error (.registry (.subjectNotFound "b"))⟩ := by
    rw [Client.walkFrom, Client.walk_of_ok (by simp) ha,
      Client.walk_of_error (by simp [Reference.key]) hb]
    rfl
  have hlink : s.encoder.linking.link schema c₁ =
      (.error (.registry (.subjectNotFound "b")), c₁.askedFor [⟨"a", 1⟩, ⟨"b", 1⟩]) := by
    change Linking.sources.link schema c₁ = _
    rw [Linking.link_sources_of_error (congrArg Walk.outcome hwalk), hwalk]
  have hprepare : s.prepare "t" () c =
      (.error (.registry (.subjectNotFound "b")), c₁.askedFor [⟨"a", 1⟩, ⟨"b", 1⟩]) := by
    rw [Serializer.prepare_eq_getId, Session.bind_of_ok (Session.lift_of_ok rfl c),
      Session.bind_of_ok hid, Session.bind_of_error hlink]
  have hr : r = (.error (.registry (.subjectNotFound "b")), c₁.askedFor [⟨"a", 1⟩, ⟨"b", 1⟩]) := by
    change s.serialize "t" () c = _
    rw [Serializer.serialize, Session.bind_of_error hprepare]
  have hcalls : r.2.calls = [⟨.register "t-value", none⟩, ⟨.version ⟨"a", 1⟩, none⟩,
      ⟨.version ⟨"b", 1⟩, some (.subjectNotFound "b")⟩] := by
    rw [hr]
    simp [Client.askedFor, hbefore, ha, hb, failure?]
  have hfailed : c.Failed r.2 :=
    ⟨_, _, _, hcalls, List.mem_cons_of_mem _ (List.mem_cons_of_mem _ List.mem_cons_self), rfl⟩
  obtain ⟨-, -, -, ⟨hencode, -⟩, -⟩ := operations_fail_fast s
    (⟨{}, ⟨.skip, fun _ _ m => (.ok (), m)⟩, none⟩ : Deserializer Unit) "t" () [] () schema c
  exact ⟨congrArg Prod.fst hr, hcalls, hencode hfailed⟩

end SchemaRegistry
