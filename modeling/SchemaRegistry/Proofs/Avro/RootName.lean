import SchemaRegistry.Proofs.Avro.Name
import SchemaRegistry.Proofs.Reference.Definitions
import SchemaRegistry.Proofs.Schema.Fingerprint

/-!
The name that a schema carries and the name of what it is linked to. The first is read off the
outermost object alone, whatever that describes.
-/

namespace SchemaRegistry.Avro

/-! ### What a reading gives -/

section Yields

variable {α β : Type} {σ : Scope} {x : Reading α} {f : α → Reading β} {P : α → Prop} {Q : β → Prop}

/-- Whatever is read in this scope has the property. -/
def Yields (σ : Scope) (x : Reading α) (P : α → Prop) : Prop := ∀ a σ', x σ = .ok (a, σ') → P a

namespace Yields

lemma pure {a : α} (h : P a) : Yields σ (pure a) P := by
  intro b σ' hb
  obtain ⟨rfl, -⟩ := reading_pure_eq_ok_iff.mp hb
  exact h

lemma fault {e : Fault} : Yields σ (fault e : Reading α) P := by
  intro b σ' hb
  cases hb

lemma bind (hx : Yields σ x P) (hf : ∀ a σ₁, P a → Yields σ₁ (f a) Q) : Yields σ (x >>= f) Q := by
  intro b σ' hb
  obtain ⟨a, σ₁, ha, hb⟩ := reading_bind_eq_ok_iff.mp hb
  exact hf a σ₁ (hx a σ₁ ha) b σ' hb

lemma step (hf : ∀ a σ₁, Yields σ₁ (f a) Q) : Yields σ (x >>= f) Q :=
  bind (P := fun _ => True) (fun _ _ _ => trivial) fun a σ₁ _ => hf a σ₁

lemma pure_step {a : α} (hf : Yields σ (f a) Q) : Yields σ (Pure.pure a >>= f) Q := by
  rwa [pure_bind]

lemma fault_step {e : Fault} : Yields σ (Avro.fault e >>= f) Q := by
  intro b σ' hb
  cases hb

lemma seen {space : Option String} {word : String} {f : Option Shape → Reading β}
    (hf : Yields {} (f none) Q) : Yields {} (seen? space word >>= f) Q := by
  intro b σ' hb
  obtain ⟨a, σ₁, ha, hb⟩ := reading_bind_eq_ok_iff.mp hb
  cases ha
  exact hf b σ' hb

end Yields

end Yields

/-- The members of the object that says what an object describes: one whose `type` is an object
again describes what that one does. -/
def Members.declaring (ms : Members) : Members :=
  match _ : ms.lookup "type" with
  | some (.object inner) => Members.declaring inner
  | _ => ms
termination_by sizeOf ms
decreasing_by
  refine Nat.lt_trans ?_ (sizeOf_lt_of_lookup ‹_›)
  simp

variable {define : Json → Reading Shape} {ms inner : Members} {shape : Shape} {σ : Scope}
  {n : Name}

lemma declaring_of_object (h : ms.lookup "type" = some (.object inner)) :
    ms.declaring = inner.declaring := by
  rw [Members.declaring]
  split
  · next i hi => rw [h] at hi; cases hi; rfl
  · next hne => exact absurd h (hne inner)

lemma declaring_of_word {w : String} (h : ms.lookup "type" = some (.string w)) :
    ms.declaring = ms := by
  rw [Members.declaring]
  split
  · next i hi => rw [h] at hi; cases hi
  · rfl

/-! ### Where a root has its name from

In the empty scope no word has a meaning of its own, so a shape with a name comes from a definition
at the end of a chain of objects, each the `type` of the one around it. -/

/-- A shape with a name has the one that these members declare, in no namespace but their own. -/
def NamedBy (ms : Members) (shape : Shape) : Prop :=
  ∀ n, shape.name? = some n → ms.declaredName none = .ok n

lemma namedBy_of_name?_eq_none (h : shape.name? = none) : NamedBy ms shape := by
  intro n hn
  rw [h] at hn
  cases hn

lemma yields_declaredName :
    Yields σ (declaredName none ms) fun n => ms.declaredName none = .ok n := by
  unfold declaredName
  cases h : ms.declaredName none with
  | ok n => exact .pure rfl
  | error f => exact .fault

lemma namedBy_of_declared {m : Name} (h : ms.declaredName none = .ok m) (hm : shape.name? = some m) :
    NamedBy ms shape := by
  intro n hn
  rw [hm] at hn
  cases hn
  exact h

lemma yields_readFixed : Yields {} (readFixed none ms) (NamedBy ms) := by
  unfold readFixed
  extract_lets size body
  have hbody : Yields {} (body ()) (NamedBy ms) := by
    refine .step fun size _ => ?_
    extract_lets declaration
    have hdeclaration (u : Unit) (σ : Scope) : Yields σ (declaration u) (NamedBy ms) :=
      .bind yields_declaredName fun n _ hn => .step fun _ _ => .step fun _ _ =>
        .pure (namedBy_of_declared hn rfl)
    split
    · split
      · exact .step hdeclaration
      · exact hdeclaration () _
    · exact hdeclaration () _
  split
  · exact .seen hbody
  · exact hbody

lemma yields_readEnumeration : Yields {} (readEnumeration none ms) (NamedBy ms) := by
  unfold readEnumeration
  extract_lets symbols default body
  have hbody : Yields {} (body ()) (NamedBy ms) := by
    refine .bind yields_declaredName fun n _ hn => .step fun _ _ => .step fun _ _ =>
      .step fun _ _ => .step fun _ _ => ?_
    extract_lets finishedShape finished
    have hfinished (u : Unit) (σ : Scope) : Yields σ (finished u) (NamedBy ms) :=
      .step fun _ _ => .pure (namedBy_of_declared hn rfl)
    split
    · split
      · exact hfinished () _
      · exact .step hfinished
    · exact hfinished () _
  split
  · exact .seen hbody
  · exact hbody

lemma yields_readRecord : Yields {} (readRecord define none ms) (NamedBy ms) := by
  unfold readRecord
  split
  · exact .seen .fault
  · refine .bind yields_declaredName fun n σ hn => .step fun aliases σ => .step fun _ σ => ?_
    refine .step fun fields σ => .step fun _ σ => .step fun _ σ => ?_
    exact .pure (namedBy_of_declared hn rfl)
  · exact .fault

lemma name?_of_apply {a : Meaning} (h : (a.apply ms shape).name? = some n) :
    shape.name? = some n := by
  cases a with
  | logical l =>
    simp only [Meaning.apply] at h
    split at h
    · cases h
    · exact h
  | decimal =>
    simp only [Meaning.apply] at h
    split at h
    · cases h
    · cases h
    · exact h

lemma NamedBy.apply {a : Meaning} {ns : Members} (h : NamedBy ns shape) :
    NamedBy ns (a.apply ms shape) :=
  fun n hn => h n (name?_of_apply hn)

lemma lookUp_empty (space : Option String) (w : String) :
    ∃ e, lookUp define space w {} = .error e := by
  unfold lookUp
  cases Name.used? space w with
  | none => exact ⟨_, rfl⟩
  | some name =>
    cases hreserved : isReserved name.simple with
    | false =>
      refine ⟨.unresolvedReference name.full, ?_⟩
      change (if isReserved name.simple then _ else _ : Reading Shape) {} = _
      rw [hreserved]
      rfl
    | true =>
      refine ⟨.avro (.reservedName w), ?_⟩
      change (if isReserved name.simple then _ else _ : Reading Shape) {} = _
      rw [hreserved]
      rfl

lemma yields_readName (w : String) (ns : Members) :
    Yields {} (readName define none w) (NamedBy ns) := by
  unfold readName
  split
  · exact .pure (namedBy_of_name?_eq_none rfl)
  · intro shape σ' h
    obtain ⟨e, he⟩ : ∃ e, lookUp define none w {} = .error e := lookUp_empty none w
    rw [he] at h
    cases h

lemma yields_readShape {v : Json} {ns : Members}
    (hobject : ∀ inner, v = .object inner →
      Yields {} (readObject define none false inner) (NamedBy ns)) :
    Yields {} (readShape define none v) (NamedBy ns) := by
  unfold readShape
  split
  · exact yields_readName _ ns
  · exact hobject _ rfl
  · refine .step fun branches _ => ?_
    have hunion : NamedBy ns (.union branches) := namedBy_of_name?_eq_none rfl
    extract_lets union checked
    have hchecked (u : Unit) (σ : Scope) : Yields σ (checked u) (NamedBy ns) := by
      unfold checked
      split
      · exact .pure hunion
      · exact .step fun _ _ => .pure hunion
    split
    · exact .step hchecked
    · exact hchecked () _
  · exact .fault

lemma yields_readObject_of_inner
    (hinner : ∀ inner, ms.lookup "type" = some (.object inner) →
      Yields {} (readObject define none false inner) (NamedBy ms.declaring)) :
    Yields {} (readObject define none false ms) (NamedBy ms.declaring) := by
  have hshape (v : Json) (hv : ms.lookup "type" = some v) :
      Yields {} (readShape define none v) (NamedBy ms.declaring) :=
    yields_readShape fun inner hinner' => hinner inner (hinner' ▸ hv)
  unfold readObject
  extract_lets body
  -- the meaning is told before the shape, so the cases of the shape are gone through for all of them
  have hbody (meaning : Option Meaning) : Yields {} (body meaning) (NamedBy ms.declaring) := by
    unfold body
    split
    · split
      · exact .fault
      · next htype =>
        rw [declaring_of_word htype]
        exact .bind yields_readFixed fun _ _ h => .pure h.apply
      · next v _ htype => exact .bind (hshape v htype) fun _ _ h => .pure h.apply
    · split
      · exact .fault
      · next htype =>
        rw [declaring_of_word htype]
        exact yields_readRecord
      · next htype =>
        rw [declaring_of_word htype]
        exact yields_readEnumeration
      · next htype =>
        rw [declaring_of_word htype]
        exact yields_readFixed
      · split
        · exact .fault
        · exact .step fun _ _ => .pure (namedBy_of_name?_eq_none rfl)
      · split
        · exact .fault
        · exact .step fun _ _ => .pure (namedBy_of_name?_eq_none rfl)
      · next v _ _ _ _ _ htype => exact hshape v htype
  split
  · exact .pure_step (hbody none)
  · next s _ => exact .pure_step (hbody (Meaning.ofName? s))
  · exact .fault_step

lemma yields_readObject (ms : Members) :
    Yields {} (readObject define none false ms) (NamedBy ms.declaring) := by
  induction ms using Members.declaring.induct with
  | case1 ms inner htype ih =>
    refine yields_readObject_of_inner fun inner' htype' => ?_
    rw [htype] at htype'
    cases htype'
    rw [declaring_of_object htype]
    exact ih
  | case2 ms hne => exact yields_readObject_of_inner fun inner htype => absurd htype (hne inner)

/-! ### The root of a schema -/

/-- The members of the object that says what a JSON value describes. -/
def declaration : Json → Members
  | .object ms => Members.declaring ms
  | _ => []

/-- The name that a value carries is that of a root described by it: the name of the object that
describes the root, without its dot, or none where the root has none. -/
def CarriesNameOf (root : Shape) (v : Json) : Prop :=
  match root.name? with
  | some _ => Schema.avroName? v = (Schema.avroName? (.object (declaration v))).map undotted
  | none => (v.get? "name").bind Json.text? = none

lemma avroName?_eq_none_iff (v : Json) :
    Schema.avroName? v = none ↔ (v.get? "name").bind Json.text? = none := by
  cases v with
  | object ms =>
    refine ⟨fun h => ?_, avroName?_eq_none⟩
    by_contra hname
    obtain ⟨text, htext⟩ := Option.ne_none_iff_exists'.mp hname
    by_cases hdot : '.' ∈ text.toList
    · rw [avroName?_of_dotted htext hdot] at h
      cases h
    · rw [avroName?_of_bare htext hdot] at h
      cases h
  | _ => exact ⟨fun _ => rfl, fun _ => rfl⟩

lemma yields_readShape_declaration (v : Json) :
    Yields {} (readShape define none v) (NamedBy (declaration v)) := by
  refine yields_readShape fun inner hv => ?_
  rw [hv]
  exact yields_readObject inner

variable {s : Schema} {c : Client} {l : Linked}

lemma resolve_eq_ok_iff (hrefs : s.references = []) :
    (resolve s c).1 = .ok l ↔ ∃ σ, (readAll [] s.text).run {} = .ok (l, σ) := by
  have hwalk : c.walkFrom s = {} := by rw [Client.walkFrom, hrefs, Client.walk_nil]
  have horigins : origins c s = [] := by
    rw [origins, hwalk]
    rfl
  rw [resolve_fst_of_walk (by rw [hwalk]), horigins, link_eq_ok_iff]
  constructor
  · rintro ⟨found, σ, hfound, hread⟩
    cases hfound
    exact ⟨σ, hread⟩
  · rintro ⟨σ, hread⟩
    exact ⟨.empty, σ, rfl, hread⟩

lemma readShape_of_resolve (hrefs : s.references = []) (h : (resolve s c).1 = .ok l) :
    ∃ v σ, Json.parse? s.text = some v ∧
      readShape (readDefinition 0) none v {} = .ok (l.root, σ) := by
  obtain ⟨scope, hread⟩ := (resolve_eq_ok_iff hrefs).mp h
  unfold readAll at hread
  obtain ⟨_, σ₁, hpending, hread⟩ := reading_bind_eq_ok_iff.mp hread
  cases hpending
  obtain ⟨v, σ₂, hparse, hread⟩ := reading_bind_eq_ok_iff.mp hread
  obtain ⟨shape, σ₃, hshape, hread⟩ := reading_bind_eq_ok_iff.mp hread
  obtain ⟨scope', σ₄, hscope, hread⟩ := reading_bind_eq_ok_iff.mp hread
  obtain ⟨shapes, σ₅, hshapes, hread⟩ := reading_bind_eq_ok_iff.mp hread
  obtain ⟨rfl, -⟩ := reading_pure_eq_ok_iff.mp hread
  unfold parseJson at hparse
  cases hv : Json.parse? s.text with
  | none =>
    rw [hv] at hparse
    cases hparse
  | some w =>
    rw [hv] at hparse
    cases hparse
    exact ⟨v, σ₃, rfl, hshape⟩

/-- **Whether a schema is called what its root is called.** Linking names the root after the object
that describes it, without a leading dot. The schema's own name is the same exactly if the outermost
object shows that name, or if it has no text for a name and the root has no name; then a message
factory is given the name of the root. -/
theorem recordName?_eq_root_iff (hformat : s.format = .avro) (hrefs : s.references = [])
    (h : (resolve s c).1 = .ok l) :
    ∃ v, s.json? = some v ∧
      (∀ n, l.root.name? = some n →
        (Schema.avroName? (.object (declaration v))).map undotted = some n.full) ∧
      (s.recordName? = l.root.name?.map Name.full ↔ CarriesNameOf l.root v) ∧
      (CarriesNameOf l.root v → s.typeName = (l.root.name?.map Name.full).getD "") := by
  obtain ⟨v, σ, hparse, hshape⟩ := readShape_of_resolve hrefs h
  have hjson : s.json? = some v := by
    rw [Schema.json?_of_isJsonText (by rw [hformat]; rfl), hparse]
  have hrecord : s.recordName? = Schema.avroName? v := by
    rw [Schema.recordName?, hformat, hjson]
    rfl
  have hnamed : ∀ n, l.root.name? = some n →
      (Schema.avroName? (.object (declaration v))).map undotted = some n.full := fun n hn =>
    undotted_avroName? (yields_readShape_declaration v l.root σ hshape n hn)
  have hiff : s.recordName? = l.root.name?.map Name.full ↔ CarriesNameOf l.root v := by
    rw [hrecord]
    unfold CarriesNameOf
    cases hroot : l.root.name? with
    | none => exact avroName?_eq_none_iff v
    | some n =>
      change _ ↔ _ = (Schema.avroName? (.object (declaration v))).map undotted
      rw [hnamed n hroot, Option.map_some]
  refine ⟨v, hjson, hnamed, hiff, fun hcarries => ?_⟩
  rw [Schema.typeName, hformat, ← hiff.mpr hcarries]

lemma readAll_nil_of_parse? {text : String} {v : Json} {shape : Shape} {σ : Scope}
    (hparse : Json.parse? text = some v)
    (hshape : readShape (readDefinition 0) none v {} = .ok (shape, σ)) :
    (readAll [] text).run {} = .ok (⟨[], shape⟩, σ) := by
  have hjson : (liftM (parseJson text) : Reading Json) {} = .ok (v, {}) := by
    rw [parseJson, hparse]
    rfl
  have hpending : readPending 0 [] {} = .ok ((), {}) := rfl
  change readAll [] text {} = _
  rw [readAll, List.length_nil, reading_bind_of_ok hpending, reading_bind_of_ok hjson,
    reading_bind_of_ok hshape]
  rfl

/-- A record with the namespace in its name. -/
theorem recordName?_eq_root_of_record :
    let s : Schema := ⟨(recordOf "com.shop.Order" []).compact, .avro, []⟩
    ∃ l, (resolve s {}).1 = .ok l ∧ l.root.name? = some ⟨"Order", some "com.shop"⟩ ∧
      s.recordName? = some "com.shop.Order" ∧ s.typeName = "com.shop.Order" := by
  intro s
  have hname : Declares "com.shop.Order" ⟨"Order", some "com.shop"⟩ :=
    ⟨by decide +kernel, by decide +kernel⟩
  have hknown : ∀ t ∈ [], Known {} (some "com.shop") t ⟨t, none⟩ := nofun
  have hrun := readAll_nil_of_parse? (parse?_recordOf "com.shop.Order" [])
    (readShape_recordOf hname List.nodup_nil hknown)
  have hl := (resolve_eq_ok_iff (s := s) (c := {}) rfl).mpr ⟨_, hrun⟩
  have hjson : s.json? = some (recordOf "com.shop.Order" []) :=
    (Schema.json?_of_isJsonText rfl).trans (parse?_recordOf _ _)
  obtain ⟨v, hv, hnamed, hiff, htype⟩ := recordName?_eq_root_iff rfl rfl hl
  obtain rfl := Option.some.inj (hv.symm.trans hjson)
  have hcarries := (hnamed _ rfl).symm
  exact ⟨_, hl, rfl, hiff.mpr hcarries, htype hcarries⟩

/-- A schema of texts, which have no name, that calls itself S. -/
theorem recordName?_of_string :
    let v : Json := .object [("name", .string "S"), ("type", .string "string")]
    let s : Schema := ⟨v.compact, .avro, []⟩
    s.text = "\x7b\"name\":\"S\",\"type\":\"string\"\x7d" ∧
    ∃ l, (resolve s {}).1 = .ok l ∧ l.root = .primitive .string ∧ l.root.name? = none ∧
      s.recordName? = some "S" ∧ s.typeName = "S" := by
  intro v s
  have hkeys : ["name", "type"].Pairwise (· < ·) := by decide
  have hvalue : Json.ofDocument? (126 + 1) v.document = some v := by
    refine Json.ofDocument?_object (List.pairwise_map.mp hkeys) rfl ?_
    exact List.forall_mem_cons.mpr ⟨rfl, List.forall_mem_singleton.mpr rfl⟩
  have hparse : Json.parse? v.compact = some v := by
    rw [Json.parse?, Json.parse?_compact (by simp [v, Json.document, Json.memberDocuments])]
    exact hvalue
  have hshape : readShape (readDefinition 0) none v {} = .ok (.primitive .string, {}) := by
    rw [readShape, readObject_of_name rfl rfl (by decide)]
    rfl
  have hread : (readAll [] s.text).run {} = .ok (⟨[], .primitive .string⟩, {}) :=
    readAll_nil_of_parse? hparse hshape
  have hjson : s.json? = some v := (Schema.json?_of_isJsonText rfl).trans hparse
  have hrecord : s.recordName? = some "S" := by
    rw [Schema.recordName?, hjson]
    rfl
  refine ⟨by decide +kernel, _, (resolve_eq_ok_iff rfl).mpr ⟨_, hread⟩, rfl, rfl, hrecord, ?_⟩
  rw [Schema.typeName, hrecord]
  rfl

end SchemaRegistry.Avro
