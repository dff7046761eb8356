import SchemaRegistry.Proofs.Text.Joined
import SchemaRegistry.Text.Basic

/-!
Blanks around a text. Trimming gives back what they were put around, if that neither starts nor ends
with a blank itself.
-/

namespace SchemaRegistry.Text

variable {cs before after : List Char} {s t : String}

/-- The text with blanks before and after it, or without. -/
def Padded (s t : String) : Prop :=
  ∃ before after : List Char, (∀ c ∈ before, isBlank c) ∧ (∀ c ∈ after, isBlank c) ∧
    t.toList = before ++ s.toList ++ after

lemma padded_of_all (before after : List Char)
    (h : before.all isBlank ∧ after.all isBlank ∧ t.toList = before ++ s.toList ++ after) :
    Padded s t :=
  ⟨before, after, List.all_eq_true.mp h.1, List.all_eq_true.mp h.2.1, h.2.2⟩

lemma trimLeft_append (h : ∀ c ∈ before, isBlank c) (cs : List Char) :
    trimLeft (before ++ cs) = trimLeft cs :=
  List.dropWhile_append_of_pos h

lemma trimRight_append (h : ∀ c ∈ after, isBlank c) (cs : List Char) :
    trimRight (cs ++ after) = trimRight cs := by
  unfold trimRight
  rw [List.reverse_append, trimLeft_append fun c hc => h c (List.mem_reverse.mp hc)]

lemma trimRight_trimLeft_append (h : ∀ c ∈ after, isBlank c) (cs : List Char) :
    trimRight (trimLeft (cs ++ after)) = trimRight (trimLeft cs) := by
  unfold trimLeft
  rw [List.dropWhile_append]
  split
  · next hempty =>
    have hnone := trimLeft_append h []
    rw [List.append_nil] at hnone
    unfold trimLeft at hnone
    rw [hnone, List.isEmpty_iff.mp hempty]
    rfl
  · exact trimRight_append h _

lemma trim_of_padded (h : Padded s t) : trim t = trim s := by
  obtain ⟨before, after, hbefore, hafter, ht⟩ := h
  rw [trim, ht, List.append_assoc, trimLeft_append hbefore, trimRight_trimLeft_append hafter]
  rfl

lemma padded_trim (s : String) : Padded (trim s) s := by
  let cs := trimLeft s.toList
  refine ⟨s.toList.takeWhile isBlank, (cs.reverse.takeWhile isBlank).reverse, ?_, ?_, ?_⟩
  · exact fun c hc => List.all_eq_true.mp List.all_takeWhile c hc
  · exact fun c hc => List.all_eq_true.mp List.all_takeWhile c (List.mem_reverse.mp hc)
  · have hright : trimRight cs ++ (cs.reverse.takeWhile isBlank).reverse = cs := by
      unfold trimRight trimLeft
      rw [← List.reverse_append, List.takeWhile_append_dropWhile, List.reverse_reverse]
    rw [trim, String.toList_ofList, List.append_assoc, hright]
    exact List.takeWhile_append_dropWhile.symm

@[simp] lemma trim_trim (s : String) : trim (trim s) = trim s :=
  (trim_of_padded (padded_trim s)).symm

lemma trimLeft_of_head? (h : ∀ c ∈ cs.head?, ¬ isBlank c) : trimLeft cs = cs := by
  cases cs with
  | nil => rfl
  | cons c cs => exact List.dropWhile_cons_of_neg (h c rfl)

lemma trim_of_ends (hfirst : ∀ c ∈ s.toList.head?, ¬ isBlank c)
    (hlast : ∀ c ∈ s.toList.getLast?, ¬ isBlank c) : trim s = s := by
  unfold trim trimRight
  rw [trimLeft_of_head? hfirst, trimLeft_of_head? (by rwa [List.head?_reverse]),
    List.reverse_reverse, String.ofList_toList]

lemma trim_of_not_blank (h : ∀ c ∈ s.toList, ¬ isBlank c) : trim s = s :=
  trim_of_ends (fun c hc => h c (List.mem_of_head? hc)) fun c hc => h c (List.mem_of_getLast? hc)

lemma not_isBlank_of_isDigit {c : Char} (h : c.isDigit) : ¬ isBlank c := by
  have hrange : 48 ≤ c.toNat ∧ c.toNat ≤ 57 := Char.isDigit_iff_toNat.mp h
  simp only [isBlank, Bool.or_eq_true, Bool.and_eq_true, decide_eq_true_eq, beq_iff_eq]
  omega

@[simp] lemma trim_ofInt (i : Int) : trim (ofInt i) = ofInt i := by
  refine trim_of_not_blank fun c hc => ?_
  rcases mem_ofInt hc with rfl | hdigit
  · decide
  · exact not_isBlank_of_isDigit hdigit

end SchemaRegistry.Text
