import SchemaRegistry.Proofs.Json.Document

/-!
Compact texts. The text of a value is read as the document of the value, so that it tells the value.
-/

namespace SchemaRegistry.Json

/-- Induction over a value: what holds of all parts of an array or an object holds of it. -/
@[elab_as_elim, induction_eliminator]
lemma induct {motive : Json → Prop} (null : motive .null) (bool : ∀ b, motive (.bool b))
    (number : ∀ t, motive (.number t)) (string : ∀ s, motive (.string s))
    (array : ∀ vs, (∀ v ∈ vs, motive v) → motive (.array vs))
    (object : ∀ ms : List (String × Json), (∀ m ∈ ms, motive m.2) → motive (.object ms))
    (v : Json) : motive v := by
  refine @Json.rec motive (fun vs => ∀ v ∈ vs, motive v) (fun ms => ∀ m ∈ ms, motive m.2)
    (fun m => motive m.2) null bool number string array object ?_ ?_ ?_ ?_ ?_ v
  · exact nofun
  · exact fun v vs hv hvs => List.forall_mem_cons.mpr ⟨hv, hvs⟩
  · exact nofun
  · exact fun m ms hm hms => List.forall_mem_cons.mpr ⟨hm, hms⟩
  · exact fun k v hv => hv

mutual

/-- The document that a value is written as. -/
def document : Json → Document
  | .null => .null
  | .bool b => .bool b
  | .number t => .number t
  | .string s => .string (some s)
  | .array vs => .array (documents vs)
  | .object ms => .object (memberDocuments ms)

def documents : List Json → List Document
  | [] => []
  | v :: vs => v.document :: documents vs

def memberDocuments : List (String × Json) → List (Option String × Document)
  | [] => []
  | (k, v) :: ms => (some k, v.document) :: memberDocuments ms

end

lemma documents_eq_map (vs : List Json) : documents vs = vs.map document := by
  induction vs with
  | nil => rfl
  | cons v vs ih => rw [documents, ih, List.map_cons]

lemma memberDocuments_eq_map (ms : List (String × Json)) :
    memberDocuments ms = ms.map fun m => (some m.1, m.2.document) := by
  induction ms with
  | nil => rfl
  | cons m ms ih => rw [memberDocuments, ih, List.map_cons]

lemma documents_inj {vs ws : List Json}
    (ih : ∀ v ∈ vs, ∀ w, v.document = w.document → v = w) (h : documents vs = documents ws) :
    vs = ws := by
  induction vs generalizing ws with
  | nil => cases ws <;> simp_all [documents]
  | cons v vs ihs =>
    cases ws with
    | nil => simp [documents] at h
    | cons w ws =>
      obtain ⟨hv, hvs⟩ := List.cons.inj h
      rw [ih v List.mem_cons_self w hv, ihs (fun x hx => ih x (List.mem_cons_of_mem _ hx)) hvs]

lemma memberDocuments_inj {ms ms' : List (String × Json)}
    (ih : ∀ m ∈ ms, ∀ w, m.2.document = w.document → m.2 = w)
    (h : memberDocuments ms = memberDocuments ms') : ms = ms' := by
  induction ms generalizing ms' with
  | nil => cases ms' <;> simp_all [memberDocuments]
  | cons m ms ihs =>
    cases ms' with
    | nil => simp [memberDocuments] at h
    | cons m' ms' =>
      obtain ⟨hm, hms⟩ := List.cons.inj h
      obtain ⟨hk, hv⟩ := Prod.mk.inj hm
      rw [Prod.ext (Option.some.inj hk) (ih m List.mem_cons_self m'.2 hv),
        ihs (fun x hx => ih x (List.mem_cons_of_mem _ hx)) hms]

lemma document_injective : Function.Injective document := by
  intro v
  induction v with
  | null | bool | number | string =>
    intro w h
    cases w <;> simp_all [document]
  | array vs ih =>
    intro w h
    cases w <;> simp only [document, Document.array.injEq, reduceCtorEq] at h
    rw [documents_inj (fun v hv w => @ih v hv w) h]
  | object ms ih =>
    intro w h
    cases w <;> simp only [document, Document.object.injEq, reduceCtorEq] at h
    rw [memberDocuments_inj (fun m hm w => @ih m hm w) h]

/-! ### Scanning what was written -/

open Document (itemTokens memberTokens)

lemma endsNumber_nil : EndsNumber [] := nofun

lemma endsNumber_cons {c : Char} (h : ∀ p : Place, p.next c = none) (rest : List Char) :
    EndsNumber (c :: rest) := by
  rintro _ ⟨⟩
  exact h

lemma endsNumber_comma (rest : List Char) : EndsNumber (',' :: rest) :=
  endsNumber_cons (fun p => by cases p <;> rfl) rest

lemma endsNumber_bracket (rest : List Char) : EndsNumber (']' :: rest) :=
  endsNumber_cons (fun p => by cases p <;> rfl) rest

lemma endsNumber_brace (rest : List Char) : EndsNumber ('}' :: rest) :=
  endsNumber_cons (fun p => by cases p <;> rfl) rest

/-- Wherever the value is written between tokens, its tokens are scanned. -/
def Scans (v : Json) : Prop :=
  ∀ done rest, EndsNumber rest →
    Scan.run ⟨done, .nothing⟩ (v.write rest) =
      Scan.run ⟨v.document.tokens.reverse ++ done, .nothing⟩ rest

lemma run_writeItems {vs : List Json} (h : ∀ v ∈ vs, v.Scans) (done : List Token)
    {rest : List Char} (hrest : EndsNumber rest) :
    Scan.run ⟨done, .nothing⟩ (writeItems vs rest) =
      Scan.run ⟨(itemTokens (documents vs)).reverse ++ done, .nothing⟩ rest := by
  induction vs generalizing done with
  | nil => rfl
  | cons v vs ih =>
    have hv := h v List.mem_cons_self
    cases vs with
    | nil => exact hv done rest hrest
    | cons v' vs =>
      rw [writeItems, hv _ _ (endsNumber_comma _), Scan.run_cons rfl,
        ih fun x hx => h x (List.mem_cons_of_mem _ hx)]
      · simp [documents, itemTokens]
      · simp

lemma run_writeMembers {ms : List (String × Json)} (h : ∀ m ∈ ms, m.2.Scans) (done : List Token)
    {rest : List Char} (hrest : EndsNumber rest) :
    Scan.run ⟨done, .nothing⟩ (writeMembers ms rest) =
      Scan.run ⟨(memberTokens (memberDocuments ms)).reverse ++ done, .nothing⟩ rest := by
  induction ms generalizing done with
  | nil => rfl
  | cons m ms ih =>
    obtain ⟨k, v⟩ := m
    have hv := h (k, v) List.mem_cons_self
    cases ms with
    | nil =>
      rw [writeMembers, Scan.run_quoted, Scan.run_cons rfl, hv _ _ hrest]
      simp [memberDocuments, memberTokens]
    | cons m' ms =>
      rw [writeMembers, Scan.run_quoted, Scan.run_cons rfl, hv _ _ (endsNumber_comma _),
        Scan.run_cons rfl, ih fun x hx => h x (List.mem_cons_of_mem _ hx)]
      · simp [memberDocuments, memberTokens]
      · simp

lemma scans {v : Json} (h : v.document.Spelled) : v.Scans := by
  induction v with
  | null => exact fun done rest _ => rfl
  | bool b => cases b <;> exact fun done rest _ => rfl
  | number t => exact fun done rest hrest => Scan.run_number (Document.spelled_number.mp h) hrest
  | string s => exact fun done rest _ => Scan.run_quoted s
  | array vs ih =>
    intro done rest _
    rw [document, Document.spelled_array, documents_eq_map, List.forall_mem_map] at h
    rw [write, Scan.run_cons rfl,
      run_writeItems (fun v hv => ih v hv (h v hv)) _ (endsNumber_bracket _), Scan.run_cons rfl]
    simp [document, Document.tokens]
  | object ms ih =>
    intro done rest _
    rw [document, Document.spelled_object, memberDocuments_eq_map, List.forall_mem_map] at h
    rw [write, Scan.run_cons rfl,
      run_writeMembers (fun m hm => ih m hm (h m hm)) _ (endsNumber_brace _), Scan.run_cons rfl]
    simp [document, Document.tokens]

lemma parse?_compact {v : Json} (h : v.document.Spelled) :
    Document.parse? v.compact = some v.document := by
  have htokens : tokens? (v.write []) = some v.document.tokens := by
    change Scan.run ⟨[], .nothing⟩ (v.write []) = _
    rw [scans h [] [] endsNumber_nil]
    simp [Scan.run, Scan.finish]
  rw [Document.parse?, compact, String.toList_ofList, htokens]
  exact Document.ofTokens?_eq_some_iff.mpr rfl

lemma compact_inj {v w : Json} (hv : v.document.Spelled) (hw : w.document.Spelled)
    (h : v.compact = w.compact) : v = w := by
  have hparse := parse?_compact hv
  rw [h, parse?_compact hw] at hparse
  exact document_injective (Option.some.inj hparse).symm

end SchemaRegistry.Json
