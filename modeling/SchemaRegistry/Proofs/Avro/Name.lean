import SchemaRegistry.Avro.Name
import SchemaRegistry.Proofs.Text.Joined
import SchemaRegistry.Schema.Name

/-!
Names as they are written. A name is the namespace and the last part of a text that shows both, but
a leading dot only says that there is no namespace and is no part of the name.
-/

namespace SchemaRegistry.Avro

open SchemaRegistry.Text (split)

variable {ms : Members} {n : Name} {text simple : String} {cs : List Char}

/-- Without the dot that says that a name is of the outermost namespace. -/
def undotted (text : String) : String :=
  match text.toList with
  | '.' :: cs => String.ofList cs
  | _ => text

lemma undotted_dot (text : String) : undotted ("." ++ text) = text := by
  simp [undotted]

lemma undotted_of_head (h : text.toList.head? ≠ some '.') : undotted text = text := by
  unfold undotted
  split
  · next htext => simp [htext] at h
  · rfl

lemma dot_not_mem_of_isIdentifier (h : isIdentifier cs) : '.' ∉ cs := by
  cases cs with
  | nil => simp
  | cons c cs =>
    simp only [isIdentifier, Bool.and_eq_true, List.all_eq_true] at h
    rintro (_ | ⟨_, hmem⟩)
    · exact absurd h.1 (by decide)
    · exact absurd (h.2 '.' hmem) (by decide)

lemma head?_ne_dot_of_isIdentifier (h : isIdentifier cs) : cs.head? ≠ some '.' := fun hhead =>
  dot_not_mem_of_isIdentifier h (List.mem_of_head? hhead)

/-- A text is what its parts are joined to. -/
inductive Parts : String → Option String → String → Prop
  | bare {simple : String} : '.' ∉ simple.toList → Parts simple none simple
  | dotted {simple space : String} : space.toList.head? ≠ some '.' →
      Parts simple (some space) (space ++ "." ++ simple)

lemma head?_intercalate_ne_dot {parts : List (List Char)} (h : ∀ p ∈ parts, isIdentifier p) :
    (".".intercalate (parts.map String.ofList)).toList.head? ≠ some '.' := by
  cases parts with
  | nil => simp
  | cons p ps =>
    have hp := h p List.mem_cons_self
    cases p with
    | nil => cases hp
    | cons c cs =>
      have hhead := head?_ne_dot_of_isIdentifier hp
      cases ps <;> simpa using hhead

lemma intercalate_parts (text : String) :
    ".".intercalate ((split '.' text.toList).map String.ofList) = text := by
  apply String.toList_injective
  rw [String.toList_intercalate, List.map_map]
  simpa [Function.comp_def] using Text.intercalate_split '.' text.toList

lemma parts_of_parts? {space : Option String} (h : Name.parts? text = some (simple, space)) :
    Parts simple space text := by
  have hjoin := intercalate_parts text
  unfold Name.parts? at h
  split at h
  · cases h
  · next last outer hsplit =>
    rw [← List.reverse_reverse (split '.' text.toList), hsplit, List.reverse_cons,
      List.map_append, List.map_singleton] at hjoin
    split at h
    · next hlast =>
      split at h
      · obtain ⟨rfl, rfl⟩ := Prod.mk.inj (Option.some.inj h)
        rw [← hjoin]
        exact .bare (by simpa using dot_not_mem_of_isIdentifier hlast)
      · obtain ⟨rfl, rfl⟩ := Prod.mk.inj (Option.some.inj h)
        rw [← hjoin]
        exact .dotted (by simp)
      · next hne _ =>
        split at h
        · next hall =>
          obtain ⟨rfl, rfl⟩ := Prod.mk.inj (Option.some.inj h)
          rw [← hjoin, String.intercalate_append_of_ne_nil (by simpa using hne) (by simp),
            String.intercalate_singleton]
          refine .dotted (head?_intercalate_ne_dot fun p hp => ?_)
          exact List.all_eq_true.mp hall p (List.mem_reverse.mp hp)
        · cases h
    · cases h

lemma head?_ne_dot_of_isNamespace {space : String} (h : isNamespace space) :
    space.toList.head? ≠ some '.' := by
  rcases (Bool.or_eq_true _ _).mp h with h | h
  · simp [String.isEmpty_iff.mp h]
  · rw [← intercalate_parts space]
    exact head?_intercalate_ne_dot (List.all_eq_true.mp h)

lemma undotted_join {space : String} (h : space.toList.head? ≠ some '.') :
    undotted (space ++ "." ++ simple) = (Name.mk simple (Name.spaceOf space)).full := by
  unfold Name.spaceOf
  split
  · next hempty =>
    rw [String.isEmpty_iff.mp hempty]
    exact undotted_dot simple
  · next hne =>
    refine undotted_of_head ?_
    cases hs : space.toList with
    | nil => exact absurd (String.isEmpty_iff.mpr (String.toList_eq_nil_iff.mp hs)) hne
    | cons c cs => simpa [hs] using h

lemma declaredName_eq_ok (h : ms.declaredName none = .ok n) :
    ∃ text, ms.text? "name" = some text ∧ Name.declared? (ms.space none) text = some n ∧
      isNamespace (n.space.getD "") := by
  unfold Members.declaredName at h
  cases htext : ms.text? "name" with
  | none =>
    simp only [htext] at h
    cases h
  | some text =>
    cases hname : Name.declared? (ms.space none) text with
    | none =>
      simp only [htext, hname] at h
      cases h
    | some m =>
      simp only [htext, hname] at h
      split at h
      · next hspace =>
        cases h
        exact ⟨text, rfl, hname, hspace⟩
      · cases h

lemma avroName?_eq_none (h : ms.text? "name" = none) : Schema.avroName? (.object ms) = none := by
  change (((ms.lookup "name").bind fun v => v.text?.bind _ : Option String)) = none
  rw [← Option.bind_assoc]
  exact congrArg (Option.bind · _) h

lemma avroName?_of_dotted (h : ms.text? "name" = some text) (hdot : '.' ∈ text.toList) :
    Schema.avroName? (.object ms) = some text := by
  obtain ⟨v, hv, ht⟩ := Option.bind_eq_some_iff.mp h
  simp [Schema.avroName?, Json.get?, hv, ht, hdot]

lemma avroName?_of_bare (h : ms.text? "name" = some text) (hdot : '.' ∉ text.toList) :
    Schema.avroName? (.object ms) = some (Name.mk text (ms.space none)).full := by
  obtain ⟨v, hv, ht⟩ := Option.bind_eq_some_iff.mp h
  unfold Schema.avroName? Members.space Members.text?
  simp only [Json.get?, hv, ht, Option.bind_eq_bind, Option.bind_some, List.contains_iff_mem, hdot,
    if_false]
  cases (ms.lookup "namespace").bind Json.text? with
  | none => rfl
  | some space =>
    by_cases hempty : space.isEmpty <;> simp [Name.spaceOf, Name.full, hempty]

lemma space_ne_empty (ms : Members) : ms.space none ≠ some "" := by
  unfold Members.space
  split
  · next space _ =>
    intro h
    unfold Name.spaceOf at h
    split at h
    · cases h
    · next hne =>
      cases h
      exact hne rfl
  · exact fun h => by cases h

lemma undotted_full_of_bare {space : Option String} (hdot : '.' ∉ simple.toList)
    (hne : space ≠ some "") (hspace : isNamespace (space.getD "")) :
    undotted (Name.mk simple space).full = (Name.mk simple space).full := by
  refine undotted_of_head fun hhead => ?_
  cases space with
  | none => exact hdot (List.mem_of_head? hhead)
  | some outer =>
    cases houter : outer.toList with
    | nil => exact hne (congrArg some (String.toList_eq_nil_iff.mp houter))
    | cons c cs =>
      refine head?_ne_dot_of_isNamespace hspace ?_
      simpa [Name.full, houter] using hhead

/-- **A declared name is the one that the members show**, its dot apart. -/
lemma undotted_avroName? (h : ms.declaredName none = .ok n) :
    (Schema.avroName? (.object ms)).map undotted = some n.full := by
  obtain ⟨text, htext, hname, hspace⟩ := declaredName_eq_ok h
  obtain ⟨⟨simple, outer⟩, hparts, rfl⟩ := Option.map_eq_some_iff.mp hname
  cases parts_of_parts? hparts with
  | bare hdot =>
    rw [avroName?_of_bare htext hdot, Option.map_some,
      undotted_full_of_bare hdot (space_ne_empty ms) hspace]
  | dotted hhead =>
    rw [avroName?_of_dotted htext (by simp), Option.map_some, undotted_join hhead]

end SchemaRegistry.Avro
