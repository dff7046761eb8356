import SchemaRegistry.Error
import SchemaRegistry.Schema.Fingerprint
import SchemaRegistry.Table

/-!
A registry in memory. IDs are registry-wide: one schema under two subjects has one ID and a version
in each subject. Nothing is ever removed.
-/

namespace SchemaRegistry

structure Registry where
  /-- The schema as first registered under each ID. -/
  schemas : Table UInt32 Schema := .empty
  /-- IDs by identity with the exact text. -/
  exact : Table Fingerprint UInt32 := .empty
  /-- IDs by identity with the canonical text. -/
  normalized : Table Fingerprint UInt32 := .empty
  /-- The versions of each subject, oldest first. -/
  subjects : Table String (List Registered) := .empty
  /-- The ID given out last. -/
  lastId : UInt32 := 0
  deriving Repr

namespace Registry

def empty : Registry := {}

def versionsOf (r : Registry) (subject : String) : List Registered :=
  (r.subjects.get? subject).getD []

def withId? (r : Registry) (subject : String) (id : UInt32) : Option Registered :=
  (r.versionsOf subject).find? fun m => m.id = id

/-- The index that the flag picks. -/
def index (r : Registry) (normalize : Bool) : Table Fingerprint UInt32 :=
  if normalize then r.normalized else r.exact

def lookup? (r : Registry) (s : Schema) (normalize : Bool) : Option UInt32 :=
  (r.index normalize).get? (s.identity normalize)

/-- Gives a schema the next ID and enters it in both indices. -/
def allocate (r : Registry) (s : Schema) : Registry :=
  let id := r.lastId + 1
  { r with
    schemas := r.schemas.insert id s
    exact := r.exact.insert (s.identity false) id
    normalized := r.normalized.insert (s.identity true) id
    lastId := id }

def nextVersion (versions : List Registered) : Int32 :=
  match versions.getLast? with
  | some m => m.version + 1
  | none => 1

/-- Adds a version to a subject unless one of its versions has the ID. -/
def addVersion (r : Registry) (subject : String) (s : Schema) (id : UInt32) : Registry :=
  match r.withId? subject id with
  | some _ => r
  | none =>
    let versions := r.versionsOf subject
    let m : Registered := ⟨id, subject, nextVersion versions, s⟩
    { r with subjects := r.subjects.insert subject (versions ++ [m]) }

/-- Registers a schema under a subject. A schema that is known keeps its ID; the version still
stores the text of this call. -/
def register (r : Registry) (subject : String) (s : Schema) (normalize : Bool) :
    UInt32 × Registry :=
  match r.lookup? s normalize with
  | some id => (id, r.addVersion subject s id)
  | none => (r.lastId + 1, (r.allocate s).addVersion subject s (r.lastId + 1))

/-- The schema with an ID, which must be one of the subject's; the empty subject has them all. -/
def bySubjectAndId (r : Registry) (subject : String) (id : UInt32) : Except RegistryError Schema :=
  if ¬ subject.isEmpty ∧ (r.withId? subject id).isNone then .error (.schemaNotFound subject id)
  else match r.schemas.get? id with
    | some s => .ok s
    | none => .error (.schemaNotFound subject id)

/-- The ID of a schema that is registered under the subject. -/
def idOf (r : Registry) (subject : String) (s : Schema) (normalize : Bool) :
    Except RegistryError UInt32 :=
  if ¬ r.subjects.contains subject then .error (.subjectNotFound subject)
  else match (r.lookup? s normalize).filter fun id => (r.withId? subject id).isSome with
    | some id => .ok id
    | none => .error (.schemaNotRegistered subject)

def latest (r : Registry) (subject : String) : Except RegistryError Registered :=
  match (r.versionsOf subject).getLast? with
  | some m => .ok m
  | none => .error (.subjectNotFound subject)

def version (r : Registry) (k : Key) : Except RegistryError Registered :=
  match r.subjects.get? k.subject with
  | none => .error (.subjectNotFound k.subject)
  | some versions =>
    match versions.find? fun m => m.version = k.version with
    | some m => .ok m
    | none => .error (.versionNotFound k)

/-- All subjects in ascending order. -/
def subjectNames (r : Registry) : List String := r.subjects.keys.mergeSort fun a b => a ≤ b

def versionNumbers (r : Registry) (subject : String) : List Int32 :=
  (r.versionsOf subject).map Registered.version

/-- The keys under which `version` finds something. -/
def keys (r : Registry) : List Key :=
  r.subjects.entries.flatMap fun (subject, versions) => versions.map fun m => ⟨subject, m.version⟩

theorem mem_keys_of_version {r : Registry} {k : Key} {m : Registered} (h : r.version k = .ok m) :
    k ∈ r.keys := by
  unfold version at h
  split at h
  · cases h
  · next versions hs =>
    split at h
    · next m' hf =>
      have hm : m' ∈ versions := List.mem_of_find?_eq_some hf
      have hv : m'.version = k.version := by simpa using List.find?_some hf
      unfold keys
      rw [List.mem_flatMap]
      refine ⟨(k.subject, versions), Table.mem_entries_of_get? hs, ?_⟩
      rw [List.mem_map]
      exact ⟨m', hm, by rw [hv]⟩
    · cases h

end Registry

end SchemaRegistry
