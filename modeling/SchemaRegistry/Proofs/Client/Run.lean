import SchemaRegistry.Client
import SchemaRegistry.Proofs.Registry.Invariant

/-!
Runs of a client: any sequence of calls, with methods made to fail and to work again in between. The
registry at the end of a run is the one after the registrations that reached it.
-/

namespace SchemaRegistry

/-- What can happen to a client: a call of one of its methods, a method made to fail or to work
again, or its log emptied. -/
inductive Operation where
  | register (q : Registration)
  | bySubjectAndId (subject : String) (id : UInt32)
  | idOf (subject : String) (s : Schema) (normalize : Bool)
  | latest (subject : String)
  | version (key : Key)
  | setFault (method : Method) (text : Option String)
  | clearRequests
  deriving DecidableEq, Repr

namespace Operation

def apply (c : Client) : Operation → Client
  | register q => (Client.register q.subject q.schema q.normalize c).2
  | bySubjectAndId u id => (Client.bySubjectAndId u id c).2
  | idOf u s n => (Client.idOf u s n c).2
  | latest u => (Client.latest u c).2
  | version k => (Client.version k c).2
  | setFault m text => c.setFault m text
  | clearRequests => c.clearRequests

def isRegister : Operation → Bool
  | register _ => true
  | _ => false

/-- The registration that an operation is, when its call reaches the registry. -/
def registration? (c : Client) : Operation → Option Registration
  | register q => if (c.fault? .register).isNone then some q else none
  | _ => none

end Operation

def registerCalls (os : List Operation) : Nat := os.countP Operation.isRegister

namespace Client

def run (c : Client) (os : List Operation) : Client := os.foldl Operation.apply c

@[simp] lemma run_cons (c : Client) (o : Operation) (os : List Operation) :
    c.run (o :: os) = (o.apply c).run os := rfl

lemma run_append (c : Client) (os os' : List Operation) :
    c.run (os ++ os') = (c.run os).run os' := by
  simp [run, List.foldl_append]

/-- The client that a run from an empty registry leads to. -/
def reached (os : List Operation) : Client := ({} : Client).run os

/-- The registrations of a run that reach the registry. -/
def registrations (c : Client) : List Operation → List Registration
  | [] => []
  | o :: os => (o.registration? c).toList ++ registrations (o.apply c) os

/-! ### One call -/

@[simp] lemma registry_send {α : Type} (q : Request) (f : Registry → Except RegistryError α)
    (c : Client) : (send q f c).2.registry = c.registry := rfl

lemma answerTo_of_fault?_none {α : Type} {c : Client} {m : Method} (h : c.fault? m = none)
    (f : Registry → Except RegistryError α) : c.answerTo m f = f c.registry := by
  simp only [answerTo, h]

lemma answerTo_of_fault? {α : Type} {c : Client} {m : Method} {e : RegistryError}
    (h : c.fault? m = some e) (f : Registry → Except RegistryError α) :
    c.answerTo m f = .error e := by
  simp only [answerTo, h]

lemma answerTo_eq_ok_iff {α : Type} {c : Client} {m : Method}
    {f : Registry → Except RegistryError α} {a : α} :
    c.answerTo m f = .ok a ↔ c.fault? m = none ∧ f c.registry = .ok a := by
  cases h : c.fault? m with
  | none => simp [answerTo_of_fault?_none h]
  | some e => simp [answerTo_of_fault? h]

lemma send_eq_ok_iff {α : Type} {q : Request} {f : Registry → Except RegistryError α} {c : Client}
    {a : α} :
    (send q f c).1 = .ok a ↔ c.fault? q.method = none ∧ f c.registry = .ok a := by
  rw [← answerTo_eq_ok_iff]
  unfold send
  cases c.answerTo q.method f <;> simp [Except.mapError]

lemma send_eq_ok {α : Type} {q : Request} {f : Registry → Except RegistryError α} {c c' : Client}
    {a : α} (h : send q f c = (.ok a, c')) : f c.registry = .ok a ∧ c'.registry = c.registry := by
  obtain ⟨-, hf⟩ := send_eq_ok_iff.mp (congrArg Prod.fst h)
  exact ⟨hf, (congrArg (fun x => x.2.registry) h).symm.trans (registry_send q f c)⟩

lemma register_of_fault?_none {c : Client} (h : c.fault? .register = none) (q : Registration) :
    (register q.subject q.schema q.normalize c).1 =
        .ok (c.registry.register q.subject q.schema q.normalize).1 ∧
      (register q.subject q.schema q.normalize c).2.registry =
        (c.registry.register q.subject q.schema q.normalize).2 := by
  unfold register
  rw [answerTo_of_fault?_none h]
  exact ⟨rfl, rfl⟩

lemma register_of_fault? {c : Client} {e : RegistryError} (h : c.fault? .register = some e)
    (q : Registration) :
    (register q.subject q.schema q.normalize c).1 = .error (.registry e) := by
  unfold register
  rw [answerTo_of_fault? h]
  rfl

lemma register_eq_ok {q : Registration} {c c' : Client} {id : UInt32}
    (h : register q.subject q.schema q.normalize c = (.ok id, c')) :
    c.registry.register q.subject q.schema q.normalize = (id, c'.registry) := by
  cases hf : c.fault? .register with
  | none =>
    obtain ⟨h1, h2⟩ := register_of_fault?_none hf q
    rw [h] at h1 h2
    cases h1
    exact Prod.ext rfl h2.symm
  | some e =>
    have h1 := register_of_fault? hf q
    rw [h] at h1
    cases h1

lemma registry_register_of_fault? {c : Client} {e : RegistryError}
    (h : c.fault? .register = some e) (q : Registration) :
    (register q.subject q.schema q.normalize c).2.registry = c.registry := by
  simp only [register, answerTo_of_fault? h]

lemma registry_register (c : Client) (q : Registration) :
    (register q.subject q.schema q.normalize c).2.registry =
      c.registry.registerAll ((Operation.register q).registration? c).toList := by
  cases h : c.fault? .register with
  | none => simp [Operation.registration?, h, (register_of_fault?_none h q).2]
  | some e => simp [Operation.registration?, h, registry_register_of_fault? h q]

/-! ### Runs -/

lemma registry_apply (c : Client) (o : Operation) :
    (o.apply c).registry = c.registry.registerAll (o.registration? c).toList := by
  cases o with
  | register q => exact registry_register c q
  | bySubjectAndId | idOf | latest | version | setFault | clearRequests => rfl

lemma registry_run (c : Client) (os : List Operation) :
    (c.run os).registry = c.registry.registerAll (c.registrations os) := by
  induction os generalizing c with
  | nil => rfl
  | cons o os ih =>
    rw [run_cons, ih, registry_apply, registrations, Registry.registerAll_append]

lemma length_registrations_le (c : Client) (os : List Operation) :
    (c.registrations os).length ≤ registerCalls os := by
  induction os generalizing c with
  | nil => exact Nat.le_refl _
  | cons o os ih =>
    have hone : (o.registration? c).toList.length ≤ if o.isRegister then 1 else 0 := by
      cases o <;> simp only [Operation.registration?, Operation.isRegister]
      · split <;> simp
      all_goals simp
    have := ih (o.apply c)
    unfold registerCalls at this ⊢
    rw [registrations, List.length_append, List.countP_cons]
    omega

lemma registrations_append (c : Client) (os os' : List Operation) :
    c.registrations (os ++ os') = c.registrations os ++ (c.run os).registrations os' := by
  induction os generalizing c with
  | nil => rfl
  | cons o os ih => simp only [List.cons_append, registrations, ih, run_cons, List.append_assoc]

lemma registry_reached (os : List Operation) :
    (reached os).registry = Registry.empty.registerAll (({} : Client).registrations os) :=
  registry_run _ _

/-- Every registry that fewer than `2 ^ 31` calls of `register` reach is sound. -/
theorem sound_reached {os : List Operation} (h : registerCalls os < 2 ^ 31) :
    (reached os).registry.Sound := by
  rw [registry_reached]
  exact Registry.sound_registerAll
    (Nat.lt_of_le_of_lt (length_registrations_le _ os) h)

lemma lastId_reached_le {os : List Operation} (h : registerCalls os < 2 ^ 31) :
    (reached os).registry.lastId.toNat ≤ registerCalls os := by
  have hle := length_registrations_le {} os
  rw [registry_reached]
  exact (Registry.lastId_registerAll_le (Nat.lt_of_le_of_lt hle h)).trans hle

lemma room_reached {os : List Operation} (h : registerCalls os < 2 ^ 31) :
    (reached os).registry.lastId.toNat + 1 < 2 ^ 32 := by
  have hlast := lastId_reached_le h
  omega

end Client

end SchemaRegistry
