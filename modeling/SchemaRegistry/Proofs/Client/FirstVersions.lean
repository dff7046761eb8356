import SchemaRegistry.Proofs.Client.Run
import SchemaRegistry.Proofs.Registry.Contents
import SchemaRegistry.Proofs.Registry.Isolation

/-!
Schemas that are registered under subjects of their own. Each is the first version of its subject,
whatever ID it has; one schema has one ID under all of them.
-/

namespace SchemaRegistry

namespace Registry

variable {r : Registry} {qs : List Registration} {u : String}

lemma versionsOf_empty (u : String) : Registry.empty.versionsOf u = [] := rfl

lemma versionsOf_register_of_new (h : r.versionsOf u = []) (s : Schema) (n : Bool) :
    (r.register u s n).2.versionsOf u = [⟨(r.register u s n).1, u, 1, s⟩] := by
  have hid : r.withId? u (r.register u s n).1 = none := by
    rw [withId?, h]
    rfl
  rw [versionsOf_register, if_pos ⟨rfl, hid⟩, newVersion, h]
  rfl

lemma versionsOf_registerAll_of_notMem (h : u ∉ qs.map Registration.subject) :
    (r.registerAll qs).versionsOf u = r.versionsOf u := by
  induction qs generalizing r with
  | nil => rfl
  | cons q qs ih =>
    rw [List.map_cons, List.mem_cons, not_or] at h
    rw [registerAll_cons, ih h.2, versionsOf_register, if_neg fun hu => h.1 hu.1]

lemma exists_versionsOf_registerAll (hnew : ∀ q ∈ qs, r.versionsOf q.subject = [])
    (hnodup : (qs.map Registration.subject).Nodup) {q : Registration} (hq : q ∈ qs) :
    ∃ id, (r.registerAll qs).versionsOf q.subject = [⟨id, q.subject, 1, q.schema⟩] := by
  induction qs generalizing r with
  | nil => cases hq
  | cons q' qs ih =>
    obtain ⟨hnew', hnew⟩ := List.forall_mem_cons.mp hnew
    rw [List.map_cons, List.nodup_cons] at hnodup
    rw [registerAll_cons]
    rcases List.mem_cons.mp hq with rfl | hq
    · rw [versionsOf_registerAll_of_notMem hnodup.1, versionsOf_register_of_new hnew']
      exact ⟨_, rfl⟩
    · refine ih (fun q hq => ?_) hnodup.2 hq
      have hne : q.subject ≠ q'.subject := fun e => hnodup.1 (e ▸ List.mem_map_of_mem hq)
      rw [versionsOf_register, if_neg fun h => hne h.1]
      exact hnew q hq

lemma exists_versionsOf_registerAll_same {v : String} (hu : r.versionsOf u = [])
    (hv : r.versionsOf v = []) (huv : u ≠ v) (s : Schema) :
    ∃ id, (r.registerAll [⟨u, s, false⟩, ⟨v, s, false⟩]).versionsOf u = [⟨id, u, 1, s⟩] ∧
      (r.registerAll [⟨u, s, false⟩, ⟨v, s, false⟩]).versionsOf v = [⟨id, v, 1, s⟩] := by
  have hfound : (r.register u s false).2.lookup? s false = some (r.register u s false).1 := by
    rw [lookup?_register, if_pos rfl]
  have hv' : (r.register u s false).2.versionsOf v = [] := by
    rw [versionsOf_register, if_neg fun h => huv h.1.symm, hv]
  refine ⟨(r.register u s false).1, ?_, ?_⟩
  · rw [registerAll_cons, versionsOf_registerAll_of_notMem (by simpa using huv)]
    exact versionsOf_register_of_new hu s false
  · rw [registerAll_cons, registerAll_cons, registerAll_nil, versionsOf_register_of_new hv',
      register_of_lookup? hfound]

end Registry

namespace Client

variable {c : Client} {qs : List Registration}

lemma faults_run_registers (c : Client) (qs : List Registration) :
    (c.run (qs.map .register)).faults = c.faults := by
  induction qs generalizing c with
  | nil => rfl
  | cons q qs ih => exact ih _

lemma registrations_registers (h : c.fault? .register = none) :
    c.registrations (qs.map .register) = qs := by
  induction qs generalizing c with
  | nil => rfl
  | cons q qs ih =>
    have hone : (Operation.register q).registration? c = some q := by
      rw [Operation.registration?, h]
      rfl
    have hup : ((Operation.register q).apply c).fault? .register = none := h
    rw [List.map_cons, registrations, hone, ih hup]
    rfl

lemma answer_of_versionsOf {u : String} {m : Registered}
    (h : (Registry.empty.registerAll qs).versionsOf u = [m]) :
    (reached (qs.map .register)).answer ⟨u, m.version⟩ = .ok m := by
  have hregistry : (reached (qs.map .register)).registry = Registry.empty.registerAll qs := by
    rw [registry_reached, registrations_registers rfl]
  have hup : (reached (qs.map .register)).fault? .version = none := by
    rw [fault?, reached, faults_run_registers]
    rfl
  refine answerTo_eq_ok_iff.mpr ⟨hup, ?_⟩
  rw [hregistry]
  refine Registry.version_of_find? ?_
  rw [h]
  simp

lemma exists_answer_of_registered (hnodup : (qs.map Registration.subject).Nodup)
    {q : Registration} (hq : q ∈ qs) :
    ∃ id, (reached (qs.map .register)).answer ⟨q.subject, 1⟩ =
      .ok ⟨id, q.subject, 1, q.schema⟩ := by
  obtain ⟨id, h⟩ := Registry.exists_versionsOf_registerAll
    (fun _ _ => Registry.versionsOf_empty _) hnodup hq
  exact ⟨id, answer_of_versionsOf h⟩

lemma exists_answer_of_registered_same {u v : String} (huv : u ≠ v) (s : Schema) :
    ∃ id, let c := reached ([⟨u, s, false⟩, ⟨v, s, false⟩].map .register)
      c.answer ⟨u, 1⟩ = .ok ⟨id, u, 1, s⟩ ∧ c.answer ⟨v, 1⟩ = .ok ⟨id, v, 1, s⟩ := by
  obtain ⟨id, hu, hv⟩ := Registry.exists_versionsOf_registerAll_same
    (Registry.versionsOf_empty u) (Registry.versionsOf_empty v) huv s
  exact ⟨id, answer_of_versionsOf hu, answer_of_versionsOf hv⟩

end Client

end SchemaRegistry
