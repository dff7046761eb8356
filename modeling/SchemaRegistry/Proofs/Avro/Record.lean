import Mathlib.Data.List.Basic
import SchemaRegistry.Proofs.Avro.Linked
import SchemaRegistry.Proofs.Json.Canonical

/-!
Reading records. A record whose fields have types that are defined is read without reading anything
else, and a pending definition of such a record becomes a definition.
-/

namespace SchemaRegistry.Avro

/-! ### One object -/

section Reading

variable {define : Json → Reading Shape} {space : Option String} {ms : Members} {t : String}
  {vs : List Json} {σ : Scope}

lemma readObject_of_record (hmeaning : ms.lookup "logicalType" = none)
    (htype : ms.lookup "type" = some (.string "record")) :
    readObject define space false ms = readRecord define space ms := by
  rw [readObject, hmeaning]
  simp only [pure_bind]
  split <;> simp_all

lemma readObject_of_name {isField : Bool} (hmeaning : ms.lookup "logicalType" = none)
    (htype : ms.lookup "type" = some (.string t))
    (hword : t ∉ ["record", "enum", "fixed", "array", "map"]) :
    readObject define space isField ms = readName define space t := by
  have hname : readShape define space (.string t) = readName define space t := by rw [readShape]
  rw [readObject, hmeaning]
  simp only [pure_bind]
  split <;> simp_all

lemma readRecord_of_fields (hfields : ms.lookup "fields" = some (.array vs)) :
    readRecord define space ms = (do
      let name ← declaredName space ms
      let aliases ← readAliases name ms
      modify fun s => s.start name aliases
      let fields ← readFields define name.space vs
      checkFields [] (fields.map Prod.fst)
      let shape : Shape := .record name fields (ms.attributes ["fields"])
      modify fun s => s.finish name aliases shape
      return shape) := by
  rw [readRecord]
  split <;> simp_all

end Reading

/-! ### Records of known fields -/

/-- A field that is named after its type. -/
def fieldOf (t : String) : Json := .object [("name", .string t), ("type", .string t)]

def recordMembers (n : String) (ts : List String) : Members :=
  [("fields", .array (ts.map fieldOf)), ("name", .string n), ("type", .string "record")]

def recordOf (n : String) (ts : List String) : Json := .object (recordMembers n ts)

/-- The text declares this name outside of all namespaces. -/
structure Declares (text : String) (n : Name) : Prop where
  declared : Name.declared? none text = some n
  space : isNamespace (n.space.getD "")

/-- A text that can name a field and is the name of something defined. -/
structure Known (σ : Scope) (space : Option String) (t : String) (n : Name) : Prop where
  identifier : isIdentifier t.toList
  word : t ∉ ["record", "enum", "fixed", "array", "map"]
  primitive : Primitive.ofName? t = none
  used : Name.used? space t = some n
  defined : σ.defined.contains n

/-- The field that is read from `fieldOf`, which only uses the name of its type. -/
def knownField (name : String → Name) (t : String) : Field × Shape :=
  (⟨t, [], [], none⟩, .ref (name t))

section Known

variable {define : Json → Reading Shape} {space : Option String} {t text : String} {n : Name}
  {σ : Scope} {name : String → Name} {ts taken : List String}

lemma Known.of_defined_eq {σ' : Scope} (h : Known σ space t n) (hσ : σ'.defined = σ.defined) :
    Known σ' space t n :=
  ⟨h.identifier, h.word, h.primitive, h.used, hσ ▸ h.defined⟩

lemma Known.readName (h : Known σ space t n) : readName define space t σ = .ok (.ref n, σ) := by
  have hlookup : lookUp define space t σ = .ok (.ref n, σ) := by
    rw [lookUp, h.used]
    change (if σ.defined.contains n then (pure (.ref n) : Reading Shape) else _) σ = _
    rw [if_pos h.defined]
    rfl
  rw [Avro.readName, h.primitive]
  exact hlookup

lemma Known.readField (h : Known σ space t (name t)) :
    readField define space [("name", .string t), ("type", .string t)] σ =
      .ok (knownField name t, σ) := by
  have hshape : readObject define space true [("name", .string t), ("type", .string t)] =
      Avro.readName define space t := readObject_of_name rfl rfl h.word
  have hattributes : Members.fieldAttributes [("name", .string t), ("type", .string t)]
      (.ref (name t)) = [] := by
    simp [Members.fieldAttributes]
  have hname : orFault (Members.text? [("name", .string t), ("type", .string t)] "name")
      .missingName = (pure t : Reading String) := rfl
  rw [Avro.readField, hshape, hname, pure_bind]
  simp only [h.identifier, if_true]
  rw [reading_bind_of_ok h.readName, knownField, ← hattributes]
  rfl

lemma readFields_of_known (h : ∀ t ∈ ts, Known σ space t (name t)) :
    readFields define space (ts.map fieldOf) σ = .ok (ts.map (knownField name), σ) := by
  induction ts with
  | nil =>
    rw [List.map_nil, readFields]
    rfl
  | cons t ts ih =>
    obtain ⟨ht, hts⟩ := List.forall_mem_cons.mp h
    rw [List.map_cons, fieldOf, readFields, reading_bind_of_ok ht.readField,
      reading_bind_of_ok (ih hts)]
    rfl

lemma checkFields_of_nodup (hnodup : ts.Nodup) (htaken : ∀ t ∈ ts, t ∉ taken) :
    checkFields taken ((ts.map (knownField name)).map Prod.fst) = pure () := by
  induction ts generalizing taken with
  | nil => rfl
  | cons t ts ih =>
    obtain ⟨hnew, hnodup⟩ := List.nodup_cons.mp hnodup
    obtain ⟨ht, hts⟩ := List.forall_mem_cons.mp htaken
    have hrest : ∀ t' ∈ ts, t' ∉ t :: taken := fun t' ht' hmem => by
      rcases List.mem_cons.mp hmem with rfl | hmem
      · exact hnew ht'
      · exact hts t' ht' hmem
    simpa [checkFields, knownField, ht] using ih hnodup hrest

def knownRecord (n : Name) (name : String → Name) (ts : List String) : Shape :=
  .record n (ts.map (knownField name)) []

/-- The scope after a record was read. -/
def Scope.withRecord (σ : Scope) (n : Name) (shape : Shape) : Scope :=
  (σ.start n []).finish n [] shape

lemma Declares.declaredName (h : Declares text n) (ts : List String) :
    declaredName none (recordMembers text ts) = pure n := by
  have htext : (recordMembers text ts).text? "name" = some text := rfl
  have hspace : (recordMembers text ts).space none = none := rfl
  have hname : (recordMembers text ts).declaredName none = .ok n := by
    rw [Members.declaredName, htext, hspace]
    simp only [h.declared, h.space, if_true]
    rfl
  rw [Avro.declaredName, hname]

lemma readShape_recordOf (hname : Declares text n) (hnodup : ts.Nodup)
    (h : ∀ t ∈ ts, Known σ n.space t (name t)) :
    readShape define none (recordOf text ts) σ =
      .ok (knownRecord n name ts, σ.withRecord n (knownRecord n name ts)) := by
  have hknown : ∀ t ∈ ts, Known (σ.start n []) n.space t (name t) :=
    fun t ht => (h t ht).of_defined_eq rfl
  have haliases : readAliases n (recordMembers text ts) = pure [] := rfl
  have hstart : (modify fun s => s.start n [] : Reading Unit) σ = .ok ((), σ.start n []) := rfl
  rw [recordOf, readShape, readObject_of_record rfl rfl, readRecord_of_fields rfl,
    hname.declaredName, pure_bind, haliases, pure_bind, reading_bind_of_ok hstart,
    reading_bind_of_ok (readFields_of_known hknown),
    checkFields_of_nodup hnodup fun _ _ => List.not_mem_nil, pure_bind]
  rfl

/-- The scope after a pending record was read and stored. -/
def Scope.withPending (σ : Scope) (n : Name) (shape : Shape) : Scope :=
  let σ' := { σ with pending := σ.pending.erase n }.withRecord n shape
  { σ' with defined := σ'.defined.insert n shape }

lemma readPending_recordOf {depth : Nat} {names : List Name}
    (hpending : σ.pending.get? n = some (recordOf text ts)) (hname : Declares text n)
    (hnodup : ts.Nodup) (h : ∀ t ∈ ts, Known σ n.space t (name t)) :
    readPending (depth + 1) (n :: names) σ =
      readPending (depth + 1) names (σ.withPending n (knownRecord n name ts)) := by
  let shape := knownRecord n name ts
  have hknown : ∀ t ∈ ts, Known { σ with pending := σ.pending.erase n } n.space t (name t) :=
    fun t ht => (h t ht).of_defined_eq rfl
  have hread : readDefinition (depth + 1) (recordOf text ts)
      { σ with pending := σ.pending.erase n } =
        .ok (shape, { σ with pending := σ.pending.erase n }.withRecord n shape) :=
    readShape_recordOf hname hnodup hknown
  have hget : (get : Reading Scope) σ = .ok (σ, σ) := rfl
  have hset : (set { σ with pending := σ.pending.erase n } : Reading PUnit) σ =
      .ok ((), { σ with pending := σ.pending.erase n }) := rfl
  rw [readPending, reading_bind_of_ok hget, hpending]
  simp only
  rw [reading_bind_of_ok hset, reading_bind_of_ok hread]
  rfl

end Known

/-! ### Texts of records -/

lemma ofDocument?_fieldOf (depth : Nat) (t : String) :
    Json.ofDocument? (depth + 1) (fieldOf t).document = some (fieldOf t) := by
  have hkeys : ["name", "type"].Pairwise (· < ·) := by decide
  refine Json.ofDocument?_object (List.pairwise_map.mp hkeys) rfl ?_
  exact List.forall_mem_cons.mpr ⟨rfl, List.forall_mem_singleton.mpr rfl⟩

lemma spelled_recordOf (n : String) (ts : List String) : (recordOf n ts).document.Spelled := by
  have hfield : ∀ t, (fieldOf t).document.Spelled := fun t => by
    simp [fieldOf, Json.document, Json.memberDocuments]
  simpa [recordOf, recordMembers, Json.document, Json.memberDocuments, Json.documents_eq_map] using
    fun t _ => hfield t

/-- A record can be read from its text. -/
lemma parse?_recordOf (n : String) (ts : List String) :
    Json.parse? (recordOf n ts).compact = some (recordOf n ts) := by
  have hkeys : ["fields", "name", "type"].Pairwise (· < ·) := by decide
  have hfields : Json.ofDocument? (125 + 1) (Json.array (ts.map fieldOf)).document =
      some (.array (ts.map fieldOf)) :=
    Json.ofDocument?_array (List.forall_mem_map.mpr fun t _ => ofDocument?_fieldOf 124 t)
  have hrecord : Json.ofDocument? (126 + 1) (recordOf n ts).document = some (recordOf n ts) := by
    refine Json.ofDocument?_object (List.pairwise_map.mp hkeys) rfl ?_
    exact List.forall_mem_cons.mpr ⟨hfields,
      List.forall_mem_cons.mpr ⟨rfl, List.forall_mem_singleton.mpr rfl⟩⟩
  rw [Json.parse?, Json.parse?_compact (spelled_recordOf n ts)]
  exact hrecord

end SchemaRegistry.Avro
