import SchemaRegistry.Proofs.Json.Record

/-!
Schemas, references and registered versions survive JSON.
-/

namespace SchemaRegistry

open Json (Document)
open Json.Document (required)

/-! ### References -/

namespace Reference

lemma spelled_toJson (r : Reference) : r.toJson.document.Spelled := by
  simp [toJson, Json.document, Json.memberDocuments]

lemma ofDocument?_toJson (r : Reference) : ofDocument? r.toJson.document = some r := by
  rw [ofDocument?, toJson, Json.fields?_object (by simp)]
  simp [required, List.lookup_cons]

lemma listOfDocument?_toJson (rs : List Reference) :
    listOfDocument? (Json.array (rs.map toJson)).document = some rs := by
  change (Json.documents (rs.map toJson)).mapM ofDocument? = some rs
  induction rs with
  | nil => rfl
  | cons r rs ih => simp [Json.documents, List.mapM_cons, ofDocument?_toJson, ih]

end Reference

/-! ### Schemas -/

lemma Format.ofDocument?_name (f : Format) :
    Format.ofDocument? (Json.string f.name).document = some f := by
  cases f <;> rfl

namespace Schema

variable (s : Schema)

lemma nodup_members : (s.members.map Prod.fst).Nodup := by
  unfold members
  split_ifs <;> simp

lemma spelled_members : ∀ m ∈ s.members, m.2.document.Spelled := by
  have hreferences : (Json.array (s.references.map Reference.toJson)).document.Spelled := by
    rw [Json.document, Json.documents_eq_map, Json.Document.spelled_array, List.map_map]
    exact List.forall_mem_map.mpr fun r _ => r.spelled_toJson
  unfold members
  refine List.forall_mem_append.mpr ⟨by simp [Json.document], ?_⟩
  split_ifs
  · exact List.forall_mem_nil _
  · exact List.forall_mem_singleton.mpr hreferences

lemma ofFields?_members :
    ofFields? ((s.members.lookup "schema").map Json.document)
      ((s.members.lookup "schemaType").map Json.document)
      ((s.members.lookup "references").map Json.document) = some s := by
  obtain ⟨text, format, references⟩ := s
  cases references with
  | nil =>
    simp [members, ofFields?, required, Json.Document.optional, List.lookup_cons,
      Format.ofDocument?_name]
  | cons r rs =>
    have hreferences := Reference.listOfDocument?_toJson (r :: rs)
    rw [List.map_cons] at hreferences
    simp [members, ofFields?, required, Json.Document.optional, List.lookup_cons,
      Format.ofDocument?_name, hreferences]

lemma spelled_toJson : s.toJson.document.Spelled := by
  rw [toJson, Json.document, Json.memberDocuments_eq_map, Json.Document.spelled_object]
  exact List.forall_mem_map.mpr s.spelled_members

lemma ofDocument?_toJson : ofDocument? s.toJson.document = some s := by
  rw [ofDocument?, toJson, Json.fields?_object s.nodup_members]
  exact s.ofFields?_members

end Schema

/-! ### Registered versions -/

namespace Registered

variable (m : Registered)

lemma spelled_toJson : m.toJson.document.Spelled := by
  rw [toJson, Json.document, Json.memberDocuments_eq_map, Json.Document.spelled_object]
  refine List.forall_mem_map.mpr (List.forall_mem_append.mpr ⟨?_, m.schema.spelled_members⟩)
  simp [Json.document]

lemma ofDocument?_toJson : ofDocument? m.toJson.document = some m := by
  have hnodup : (([("id", Json.ofInt m.id.toNat), ("subject", .string m.subject),
      ("version", .ofInt m.version.toInt)] ++ m.schema.members).map Prod.fst).Nodup := by
    unfold Schema.members
    split_ifs <;> simp
  rw [ofDocument?, toJson, Json.fields?_object hnodup]
  simp [List.lookup_cons, required, m.schema.ofFields?_members]

end Registered

/-- **Records survive JSON.** References, schemas and registered versions are read from the compact
text they are written as, and writing again a text that could be read settles it. -/
theorem records_survive :
    Json.Survives Reference.toJson Reference.ofDocument? ∧
    Json.Survives Schema.toJson Schema.ofDocument? ∧
    Json.Survives Registered.toJson Registered.ofDocument? :=
  ⟨Json.survives_of_document Reference.spelled_toJson Reference.ofDocument?_toJson,
    Json.survives_of_document Schema.spelled_toJson Schema.ofDocument?_toJson,
    Json.survives_of_document Registered.spelled_toJson Registered.ofDocument?_toJson⟩

example : Json.rewrite? Schema.toJson Schema.ofDocument?
    "\x7b \"references\": [], \"schema\": \"int\", \"x\": 1E2 \x7d" =
      some "\x7b\"schema\":\"int\",\"schemaType\":\"AVRO\"\x7d" := by
  decide +kernel

end SchemaRegistry
