import SchemaRegistry.Proofs.Schema.Fingerprint
import SchemaRegistry.Endpoint

/-!
Names of schemas in JSON. A name is read off the value of the text and off nothing else, so texts
that the normalized fingerprint identifies are named alike. The one text that has the fingerprint of
a value without being read as it has no name.
-/

namespace SchemaRegistry.Schema

open SubjectNaming (byTopic byRecord byTopicRecord)

variable {s t : Schema}

/-- One name, one type name and one subject under each strategy, for all topics and sides. -/
structure NamedAlike (s t : Schema) : Prop where
  recordName : s.recordName? = t.recordName?
  typeName : s.typeName = t.typeName
  byTopic : ∀ topic side, byTopic topic side s = byTopic topic side t
  byRecord : ∀ topic side, byRecord topic side s = byRecord topic side t
  byTopicRecord : ∀ topic side, byTopicRecord topic side s = byTopicRecord topic side t

/-- No name: every strategy gives the topic's subject. -/
structure Nameless (s : Schema) : Prop where
  recordName : s.recordName? = none
  typeName : s.typeName = ""
  byRecord : ∀ topic side, byRecord topic side s = SubjectNaming.byTopic topic side s
  byTopicRecord : ∀ topic side, byTopicRecord topic side s = SubjectNaming.byTopic topic side s

lemma namedAlike_of_recordName?_eq (hformat : s.format = t.format)
    (h : s.recordName? = t.recordName?) : s.NamedAlike t where
  recordName := h
  typeName := by
    unfold typeName
    rw [hformat, h]
  byTopic _ _ := rfl
  byRecord topic side := by
    unfold SubjectNaming.byRecord
    rw [h]
    rfl
  byTopicRecord topic side := by
    unfold SubjectNaming.byTopicRecord
    rw [h]
    rfl

lemma nameless_of_recordName?_eq_none (h : s.recordName? = none) : s.Nameless where
  recordName := h
  typeName := by
    unfold typeName
    rw [h]
    cases s.format <;> rfl
  byRecord topic side := by
    unfold SubjectNaming.byRecord
    rw [h]
    rfl
  byTopicRecord topic side := by
    unfold SubjectNaming.byTopicRecord
    rw [h]

lemma Nameless.namedAlike (hformat : s.format = t.format) (hs : s.Nameless) (ht : t.Nameless) :
    s.NamedAlike t :=
  namedAlike_of_recordName?_eq hformat (hs.recordName.trans ht.recordName.symm)

/-! ### The name and the value -/

lemma exists_recordName?_eq_bind (hs : s.format.isJsonText) :
    ∃ name? : Json → Option String,
      ∀ t : Schema, t.format = s.format → t.recordName? = t.json?.bind name? := by
  cases hf : s.format with
  | avro =>
    refine ⟨avroName?, fun t ht => ?_⟩
    rw [recordName?, ht]
  | json =>
    refine ⟨fun v => (v.get? "title").bind Json.text?, fun t ht => ?_⟩
    rw [recordName?, ht]
    rfl
  | protobuf =>
    rw [hf] at hs
    cases hs

lemma recordName?_congr (hformat : s.format = t.format) (hs : s.format.isJsonText)
    (h : s.json? = t.json?) : s.recordName? = t.recordName? := by
  obtain ⟨name?, hname⟩ := exists_recordName?_eq_bind hs
  rw [hname s rfl, hname t hformat.symm, h]

lemma recordName?_of_json?_eq_none (hs : s.format.isJsonText) (h : s.json? = none) :
    s.recordName? = none := by
  obtain ⟨name?, hname⟩ := exists_recordName?_eq_bind hs
  rw [hname s rfl, h, Option.bind_none]

lemma SameContent.json?_eq (h : s.SameContent t) (hs : s.format.isJsonText)
    (ht : t.format.isJsonText) : s.json? = t.json? := by
  rcases h with h | ⟨v, w, hv, hw, hsame⟩
  · rw [json?_of_isJsonText hs, json?_of_isJsonText ht, h]
  · rw [hv, hw, hsame.eq (Json.canonical_of_parse? (parse?_of_json? hv))
      (Json.canonical_of_parse? (parse?_of_json? hw))]

lemma UnreadableFormOf.nameless (h : t.UnreadableFormOf s) (ht : t.format.isJsonText) :
    t.Nameless :=
  nameless_of_recordName?_eq_none
    (recordName?_of_json?_eq_none ht (h.json?_eq_none ht))

/-- **Reformatting keeps the names.** Texts of one format with one normalized fingerprint are named
alike, unless one of them is the unreadable form of the other, or their canonical texts have one
hash. An unreadable form has no name, so then they are named alike just when neither has one. -/
theorem namedAlike_of_normalizedFingerprint_eq {s t : Schema} (hformat : s.format = t.format)
    (hjson : s.format.isJsonText)
    (hsep : Fingerprint.Separates [s.canonicalText, t.canonicalText])
    (h : s.normalizedFingerprint = t.normalizedFingerprint) :
    (¬ t.UnreadableFormOf s → ¬ s.UnreadableFormOf t → s.NamedAlike t) ∧
      (t.UnreadableFormOf s → t.Nameless ∧ (s.NamedAlike t ↔ s.Nameless)) ∧
      (s.UnreadableFormOf t → s.Nameless ∧ (s.NamedAlike t ↔ t.Nameless)) := by
  have hjson' : t.format.isJsonText := hformat ▸ hjson
  refine ⟨fun ht hs => ?same, fun hu => ⟨hu.nameless hjson', ?right⟩,
    fun hu => ⟨hu.nameless hjson, ?left⟩⟩
  case same =>
    have hcanon : s.canonicalText = t.canonicalText :=
      hsep _ List.mem_cons_self _ (List.mem_cons_of_mem _ List.mem_cons_self) h
    have hcontent : s.SameContent t := by
      rcases (canonicalText_eq_iff hjson hjson').mp hcanon with hc | hu | hu
      · exact hc
      · exact absurd hu ht
      · exact absurd hu hs
    exact namedAlike_of_recordName?_eq hformat
      (recordName?_congr hformat hjson (hcontent.json?_eq hjson hjson'))
  case right =>
    have ht := hu.nameless hjson'
    exact ⟨fun ha => nameless_of_recordName?_eq_none (ha.recordName.trans ht.recordName),
      fun hs => hs.namedAlike hformat ht⟩
  case left =>
    have hs := hu.nameless hjson
    exact ⟨fun ha => nameless_of_recordName?_eq_none (ha.recordName.symm.trans hs.recordName),
      fun ht => hs.namedAlike hformat ht⟩

/-- An escaped letter, a member that a later one replaces, and blanks. -/
theorem namedAlike_of_layouts :
    let s : Schema := ⟨"\x7b\"name\":\"Old\",\"type\":\"record\",\"fields\":[],\"namespace\":\"shop\",\"name\":\"Ord\\u0065r\"\x7d", .avro, []⟩
    let t : Schema := ⟨"\x7b \"namespace\": \"shop\", \"name\": \"Order\", \"type\": \"record\", \"fields\": [ ] \x7d", .avro, []⟩
    s.text ≠ t.text ∧ s.normalizedFingerprint = t.normalizedFingerprint ∧
      s.recordName? = some "shop.Order" ∧ s.NamedAlike t := by
  intro s t
  have hcanon : s.canonicalText = t.canonicalText := by decide +kernel
  have hprint : s.normalizedFingerprint = t.normalizedFingerprint :=
    congrArg Fingerprint.ofText hcanon
  have hs : s.json?.isSome := by decide +kernel
  have ht : t.json?.isSome := by decide +kernel
  refine ⟨by decide, hprint, by decide +kernel, ?_⟩
  refine (namedAlike_of_normalizedFingerprint_eq (s := s) (t := t) rfl rfl
    (Fingerprint.separates_of_eq hcanon) hprint).1 (fun h => ?_) fun h => ?_
  · simp [h.json?_eq_none rfl] at ht
  · simp [h.json?_eq_none rfl] at hs

/-- In the canonical text the key of numbers begins the object: the text is not read, and the schema
moves from the record's subject to the topic's. -/
theorem recordName?_ne_of_unreadable :
    let s : Schema := ⟨"\x7b\"name\":\"R\",\"type\":\"record\",\"fields\":[],\"$serde_json::private::Number\":\"1\"\x7d", .avro, []⟩
    let t : Schema := ⟨"\x7b\"$serde_json::private::Number\":\"1\",\"fields\":[],\"name\":\"R\",\"type\":\"record\"\x7d", .avro, []⟩
    Fingerprint.Separates [s.canonicalText, t.canonicalText] ∧
      s.normalizedFingerprint = t.normalizedFingerprint ∧
      (s.recordName? = some "R" ∧ t.recordName? = none) ∧
      (s.typeName = "R" ∧ t.typeName = "") ∧
      (byRecord "t" .value s = "R" ∧ byRecord "t" .value t = "t-value") ∧
      byTopicRecord "t" .value s = "t-R" ∧ byTopicRecord "t" .value t = "t-value" := by
  intro s t
  have hcanon : s.canonicalText = t.canonicalText := by decide +kernel
  exact ⟨Fingerprint.separates_of_eq hcanon, congrArg Fingerprint.ofText hcanon, by decide +kernel⟩

end SchemaRegistry.Schema
