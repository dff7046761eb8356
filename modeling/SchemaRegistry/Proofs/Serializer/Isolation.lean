import SchemaRegistry.Proofs.Endpoint
import SchemaRegistry.Proofs.Registry.Isolation

/-!
Topics do not interfere. A serializer that registers what it sends adds to the history of its own
subject only, and under the default naming every side of every topic has a subject of its own.
-/

namespace SchemaRegistry

lemma SubjectNaming.default_eq_iff {topic topic' : String} {side side' : Side} {s s' : Schema} :
    default topic side s = default topic' side' s' ↔ topic = topic' ∧ side = side' := by
  constructor
  · intro h
    have hlist : topic.toList ++ (topicSuffix side).toList =
        topic'.toList ++ (topicSuffix side').toList := by
      rw [← String.toList_append, ← String.toList_append]
      exact congrArg String.toList h
    have hside : side = side' := by
      -- the suffixes end in different letters
      have hlast := congrArg List.getLast? hlist
      cases side <;> cases side' <;> first | rfl | simp [topicSuffix] at hlast
    subst hside
    exact ⟨String.toList_injective (List.append_cancel_right hlist), rfl⟩
  · rintro ⟨rfl, rfl⟩
    rfl

/-! ### What a message changes -/

open Session

lemma IdPolicy.keeps_faults (p : IdPolicy) (u : String) (s : Schema) (n : Bool) :
    Keeps Client.faults (p.resolve u s n) := by
  have hsend {α : Type} (q : Request) (f : Registry → Except RegistryError α) :
      Keeps Client.faults (Client.send q f) := fun _ => rfl
  cases p with
  | autoRegister => exact fun _ => rfl
  | pinned id => exact (hsend _ _).bind fun _ => hsend _ _
  | latestVersion => exact (hsend _ _).bind fun _ => hsend _ _
  | lookup => exact hsend _ _

namespace Serializer

variable {μ : Type} (s : Serializer μ) (topic : String) (message : μ)

lemma keeps_faults_serialize : Keeps Client.faults (s.serialize topic message) := by
  intro c
  cases hs : s.encoder.schemaOf message with
  | error e => rw [serialize_of_no_schema hs]
  | ok schema =>
    obtain ⟨ks, hks⟩ := exists_askedFor_serialize hs
    rw [hks]
    exact s.policy.keeps_faults _ _ _ c

end Serializer

/-! ### Messages one after the other -/

/-- A message on its way to a topic, with the serializer that it goes through. -/
structure Sending where
  {Message : Type}
  serializer : Serializer Message
  topic : String
  message : Message

namespace Sending

def side (x : Sending) : Side := x.serializer.endpoint.side

def apply (c : Client) (x : Sending) : Client := (x.serializer.serialize x.topic x.message c).2

/-- The client after serializing messages one by one, from an empty registry. -/
def sendAll (xs : List Sending) : Client := xs.foldl apply {}

/-- The serializer has the default naming and registers schemas by their exact texts. -/
structure Registers (x : Sending) : Prop where
  naming : x.serializer.endpoint.naming = .default
  register : x.serializer.endpoint.settings.autoRegister = true
  exact : x.serializer.endpoint.settings.normalize = false

/-- What is registered on behalf of a message, if it has a schema. -/
def registration? (x : Sending) : Option Registration :=
  (x.serializer.encoder.schemaOf x.message).toOption.map fun s =>
    ⟨x.serializer.endpoint.subject x.topic s, s, false⟩

variable {x : Sending} {c : Client}

lemma registry_apply (h : x.Registers) (up : c.fault? .register = none) :
    (apply c x).registry = c.registry.registerAll x.registration?.toList := by
  have hpolicy : x.serializer.policy = .autoRegister := by
    simp [Serializer.policy, IdPolicy.select, h.register]
  cases hs : x.serializer.encoder.schemaOf x.message with
  | error e =>
    rw [apply, Serializer.serialize_of_no_schema hs, registration?, hs]
    rfl
  | ok schema =>
    obtain ⟨ks, hks⟩ := Serializer.exists_askedFor_serialize hs
    rw [apply, hks, Serializer.getId, hpolicy, h.exact, registration?, hs]
    exact (Client.register_of_fault?_none up
      ⟨x.serializer.endpoint.subject x.topic schema, schema, false⟩).2

lemma registry_sendAll {xs : List Sending} (h : ∀ x ∈ xs, x.Registers) :
    (sendAll xs).registry = Registry.empty.registerAll (xs.filterMap registration?) := by
  have hrun : ∀ {c : Client}, c.faults = [] → (xs.foldl apply c).registry =
      c.registry.registerAll (xs.filterMap registration?) := by
    induction xs with
    | nil => exact fun _ => rfl
    | cons x xs ih =>
      intro c hc
      have up : c.fault? .register = none := by simp [Client.fault?, hc]
      have hc' : (apply c x).faults = [] :=
        (x.serializer.keeps_faults_serialize x.topic x.message c).trans hc
      rw [List.foldl_cons, ih (fun y hy => h y (List.mem_cons_of_mem _ hy)) hc',
        registry_apply (h x List.mem_cons_self) up, ← Registry.registerAll_append,
        List.filterMap_cons]
      cases x.registration? <;> rfl
  exact hrun rfl

lemma subject_eq_iff_of_registration? (h : x.Registers) {q : Registration}
    (hq : x.registration? = some q) (topic : String) (side : Side) :
    q.subject = SubjectNaming.default topic side .empty ↔ x.topic = topic ∧ x.side = side := by
  obtain ⟨schema, -, rfl⟩ := Option.map_eq_some_iff.mp hq
  rw [Endpoint.subject, h.naming, SubjectNaming.default_eq_iff, Sending.side]

lemma filter_registrations {xs : List Sending} (h : ∀ x ∈ xs, x.Registers) (topic : String)
    (side : Side) :
    (xs.filterMap registration?).filter
        (fun q => q.subject = SubjectNaming.default topic side .empty) =
      (xs.filter fun x => x.topic = topic ∧ x.side = side).filterMap registration? := by
  rw [List.filter_filterMap, List.filterMap_filter]
  refine List.filterMap_congr fun x hx => ?_
  cases hq : x.registration? with
  | none => simp
  | some q => simp [Option.filter_some, subject_eq_iff_of_registration? (h x hx) hq]

lemma exact_of_mem_registrations {xs : List Sending} {q : Registration}
    (hq : q ∈ xs.filterMap registration?) : q.normalize = false := by
  obtain ⟨x, -, hx⟩ := List.mem_filterMap.mp hq
  obtain ⟨schema, -, rfl⟩ := Option.map_eq_some_iff.mp hx
  rfl

lemma published_sendAll {xs : List Sending} (room : xs.length < 2 ^ 31)
    (h : ∀ x ∈ xs, x.Registers) (topic : String) (side : Side) :
    (sendAll xs).registry.published (SubjectNaming.default topic side .empty) =
      (((xs.filter fun x => x.topic = topic ∧ x.side = side).filterMap registration?).map
        Registration.schema).foldl Registry.publish [] := by
  have hlen := List.length_filterMap_le registration? xs
  rw [registry_sendAll h, Registry.sound_empty.published_registerAll Registry.traceable_empty
    (fun q => exact_of_mem_registrations) (by rw [Registry.lastId_empty]; omega),
    filter_registrations h]
  rfl

/-- **Topics do not interfere.** What a side of a topic has published after any messages is what it
has published after its own messages, in the same order and with the same numbers. -/
theorem published_eq_of_own (xs : List Sending) (room : xs.length < 2 ^ 31)
    (h : ∀ x ∈ xs, x.Registers) (topic : String) (side : Side) :
    (sendAll xs).registry.published (SubjectNaming.default topic side .empty) =
      (sendAll (xs.filter fun x => x.topic = topic ∧ x.side = side)).registry.published
        (SubjectNaming.default topic side .empty) := by
  have hown : ∀ x ∈ xs.filter fun x => x.topic = topic ∧ x.side = side, x.Registers :=
    fun x hx => h x (List.mem_of_mem_filter hx)
  have hlen := List.length_filter_le (fun x : Sending => x.topic = topic ∧ x.side = side) xs
  rw [published_sendAll room h, published_sendAll (hlen.trans_lt room) hown, List.filter_filter]
  simp only [Bool.and_self]

/-- Another topic that registers a schema first changes the IDs, and nothing else. -/
theorem published_eq_of_own_after_other :
    let encoder : Encoder String :=
      ⟨fun text => .ok ⟨text, .protobuf, []⟩, .skip,
        fun text _ => if text = "message M" then .error (.codec "") else .ok []⟩
    let send (topic text : String) : Sending := ⟨⟨{}, encoder⟩, topic, text⟩
    let xs := [send "b" "message M", send "a" "message N", send "a" "message M"]
    let own := [send "a" "message N", send "a" "message M"]
    ((sendAll xs).registry.versionsOf "a-value").map Registered.id = [2, 1] ∧
      ((sendAll own).registry.versionsOf "a-value").map Registered.id = [1, 2] ∧
      (sendAll xs).registry.published "a-value" = (sendAll own).registry.published "a-value" := by
  intro encoder send xs own
  have h : ∀ x ∈ xs, x.Registers := by
    simp only [xs, send, List.forall_mem_cons]
    exact ⟨⟨rfl, rfl, rfl⟩, ⟨rfl, rfl, rfl⟩, ⟨rfl, rfl, rfl⟩, nofun⟩
  exact ⟨by decide +kernel, by decide +kernel, published_eq_of_own xs (by decide) h "a" .value⟩

end Sending

end SchemaRegistry
