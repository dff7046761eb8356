import SchemaRegistry.Registry

/-!
Calls to a registry. A client keeps a log of its calls; a method can be made to fail before it
reaches the registry. Only `register` changes what the registry holds.
-/

namespace SchemaRegistry

inductive Method where
  | register
  | bySubjectAndId
  | idOf
  | latest
  | version
  deriving DecidableEq, Repr

namespace Method

def all : List Method := [.register, .bySubjectAndId, .idOf, .latest, .version]

def name : Method → String
  | .register => "register"
  | .bySubjectAndId => "get_by_subject_and_id"
  | .idOf => "get_id"
  | .latest => "get_latest_schema_metadata"
  | .version => "get_schema_metadata"

def ofName? (s : String) : Option Method := all.find? fun m => m.name = s

end Method

inductive Request where
  | register (subject : String)
  | bySubjectAndId (subject : String) (id : UInt32)
  | idOf (subject : String)
  | latest (subject : String)
  | version (key : Key)
  deriving DecidableEq, Repr

namespace Request

def method : Request → Method
  | .register _ => .register
  | .bySubjectAndId _ _ => .bySubjectAndId
  | .idOf _ => .idOf
  | .latest _ => .latest
  | .version _ => .version

def argument : Request → String
  | .register s | .idOf s | .latest s => s
  | .bySubjectAndId s id => s ++ ", " ++ Text.ofNat id.toNat
  | .version k => k.label

def label (q : Request) : String := q.method.name ++ "(" ++ q.argument ++ ")"

end Request

/-- A call of a method, with the error that was its answer if it failed. -/
structure Call where
  request : Request
  failure : Option RegistryError := none
  deriving DecidableEq, Repr

/-- A call that failed in transport did not reach the registry. -/
def Call.reached (q : Call) : Bool :=
  match q.failure with
  | some (.transport _) => false
  | _ => true

structure Client where
  registry : Registry := .empty
  /-- The calls so far, in order. -/
  calls : List Call := []
  /-- The methods that fail, each with the text of its failure. -/
  faults : List (Method × String) := []
  deriving Repr

/-- A computation that calls the registry; its effects stay when it fails. -/
abbrev Session := ExceptT Error (StateM Client)

def failure? {α : Type} : Except RegistryError α → Option RegistryError
  | .ok _ => none
  | .error e => some e

namespace Client

def fault? (c : Client) (m : Method) : Option RegistryError :=
  (c.faults.lookup m).map .transport

/-- Makes a method fail from now on, or work again. -/
def setFault (c : Client) (m : Method) (text : Option String) : Client :=
  let others := c.faults.filter fun f => f.1 ≠ m
  { c with faults := match text with | some t => (m, t) :: others | none => others }

/-- The requests that reached the registry, in order. -/
def requests (c : Client) : List Request := (c.calls.filter Call.reached).map Call.request

def clearRequests (c : Client) : Client := { c with calls := [] }

def callCount (c : Client) (method : String) : Nat :=
  c.requests.countP fun q => q.method.name = method

def log (c : Client) (q : Call) : Client := { c with calls := c.calls ++ [q] }

/-- The answer to a request; a fault of its method comes before the registry. -/
def answerTo {α : Type} (c : Client) (m : Method) (answer : Registry → Except RegistryError α) :
    Except RegistryError α :=
  match c.fault? m with
  | some e => .error e
  | none => answer c.registry

def send {α : Type} (q : Request) (answer : Registry → Except RegistryError α) : Session α :=
  fun c =>
    let r := c.answerTo q.method answer
    (r.mapError .registry, c.log ⟨q, failure? r⟩)

def register (subject : String) (s : Schema) (normalize : Bool) : Session UInt32 :=
  fun c =>
    let r := c.answerTo .register fun r => .ok (r.register subject s normalize)
    let registry := match r with
      | .ok (_, registry) => registry
      | .error _ => c.registry
    ((r.map Prod.fst).mapError .registry,
      { c.log ⟨.register subject, failure? r⟩ with registry })

def bySubjectAndId (subject : String) (id : UInt32) : Session Schema :=
  send (.bySubjectAndId subject id) fun r => r.bySubjectAndId subject id

def idOf (subject : String) (s : Schema) (normalize : Bool) : Session UInt32 :=
  send (.idOf subject) fun r => r.idOf subject s normalize

def latest (subject : String) : Session Registered :=
  send (.latest subject) fun r => r.latest subject

def version (k : Key) : Session Registered := send (.version k) fun r => r.version k

def answer (c : Client) (k : Key) : Except RegistryError Registered :=
  c.answerTo .version fun r => r.version k

/-- The client after asking for these versions one by one. -/
def askedFor (c : Client) (ks : List Key) : Client :=
  { c with calls := c.calls ++ ks.map fun k => ⟨.version k, failure? (c.answer k)⟩ }

/-! ### Asking one by one -/

theorem askedFor_nil (c : Client) : c.askedFor [] = c := by
  simp [askedFor]

/-- Having asked changes no answer. -/
@[simp] theorem answer_askedFor (c : Client) (ks : List Key) (k : Key) :
    (c.askedFor ks).answer k = c.answer k := rfl

theorem askedFor_append (c : Client) (ks ks' : List Key) :
    c.askedFor (ks ++ ks') = (c.askedFor ks).askedFor ks' := by
  simp [askedFor, answer, answerTo, fault?]

/-- What `version` does after other versions were asked for. -/
theorem version_askedFor (c : Client) (ks : List Key) (k : Key) :
    version k (c.askedFor ks) =
      ((c.answer k).mapError .registry, c.askedFor (ks ++ [k])) := by
  rw [askedFor_append]
  rfl

/-- **Asking for versions one by one** gives the answer for each of them, and leaves the client that
`askedFor` gives. -/
theorem mapM_version (c : Client) (ks : List Key) :
    (ks.mapM fun k => (version k).run : StateM Client _) c =
      (ks.map fun k => (c.answer k).mapError .registry, c.askedFor ks) := by
  have hfrom (before : List Key) :
      (ks.mapM fun k => (version k).run : StateM Client _) (c.askedFor before) =
        (ks.map fun k => (c.answer k).mapError .registry, c.askedFor (before ++ ks)) := by
    induction ks generalizing before with
    | nil =>
      rw [List.append_nil]
      rfl
    | cons k ks ih =>
      have hversion : (version k).run (c.askedFor before) = _ := c.version_askedFor before k
      simp only [List.mapM_cons, bind, StateT.bind, hversion, ih, List.append_assoc]
      rfl
  simpa [askedFor_nil] using hfrom []

/-- Versions that are answered leave calls without a failure. -/
theorem askedFor_of_answered {c : Client} {ks : List Key} (h : ∀ k ∈ ks, ∃ m, c.answer k = .ok m) :
    c.askedFor ks = { c with calls := c.calls ++ ks.map fun k => ⟨.version k, none⟩ } := by
  unfold askedFor
  congr 2
  refine List.map_congr_left fun k hk => ?_
  obtain ⟨m, hm⟩ := h k hk
  rw [hm]
  rfl

theorem askedFor_concat_of_error {c : Client} {ks : List Key} {k : Key} {e : RegistryError}
    (h : ∀ k ∈ ks, ∃ m, c.answer k = .ok m) (he : c.answer k = .error e) :
    c.askedFor (ks ++ [k]) = { c with
      calls := c.calls ++ ks.map (fun k => ⟨.version k, none⟩) ++ [⟨.version k, some e⟩] } := by
  have hlast : c.askedFor (ks ++ [k]) = (c.askedFor ks).log ⟨.version k, failure? (c.answer k)⟩ :=
    askedFor_append c ks [k]
  rw [hlast, he, askedFor_of_answered h]
  rfl

theorem requests_askedFor_of_answered {c : Client} {ks : List Key}
    (h : ∀ k ∈ ks, ∃ m, c.answer k = .ok m) :
    (c.askedFor ks).requests = c.requests ++ ks.map .version := by
  have hreached : ∀ q ∈ ks.map fun k => (⟨.version k, none⟩ : Call), q.reached := by
    simp [Call.reached]
  rw [askedFor_of_answered h, requests, List.filter_append, List.filter_eq_self.mpr hreached,
    List.map_append, List.map_map]
  rfl

theorem mem_keys_of_answer {c : Client} {k : Key} {m : Registered} (h : c.answer k = .ok m) :
    k ∈ c.registry.keys := by
  unfold answer answerTo at h
  split at h
  · cases h
  · exact Registry.mem_keys_of_version h

end Client

end SchemaRegistry
