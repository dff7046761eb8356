import SchemaRegistry.Proofs.Reference.Extension

/-!
Maps of sources that are filled step by step: by single entries, and by walks that succeed or end
early. Names and texts are written one after the other; each step keeps them in step, and so does
every run from the empty map.
-/

namespace SchemaRegistry.Sources

variable {m : Sources}

/-- What can be done to a map: an entry is put into it, or a schema is resolved into it, with any
client. -/
inductive Step where
  | insert (name text : String)
  | resolve (c : Client) (s : Schema)

namespace Step

def apply (m : Sources) : Step → Sources
  | insert n t => m.insert n t
  | resolve c s => (resolveInto s m c).1.2

/-- The entries that a step puts into a map. A walk that fails puts in what it visited before. -/
def entries : Step → List (String × String)
  | insert n t => [(n, t)]
  | resolve c s => (c.walkFrom s).visits.map entryOf

end Step

/-- The map after some steps from an empty one. -/
def filled (steps : List Step) : Sources := steps.foldl Step.apply .empty

lemma filled_concat (steps : List Step) (step : Step) :
    filled (steps ++ [step]) = step.apply (filled steps) := by
  simp [filled]

/-! ### One step -/

lemma apply_eq_insertAll (m : Sources) (step : Step) : step.apply m = m.insertAll step.entries := by
  cases step with
  | insert n t => rfl
  | resolve c s => exact addAll_eq_insertAll m _

lemma InStep.apply (h : m.InStep) (step : Step) : (step.apply m).InStep := by
  rw [apply_eq_insertAll]
  exact h.insertAll _

lemma names_prefix_apply (m : Sources) (step : Step) : m.names <+: (step.apply m).names := by
  rw [apply_eq_insertAll, names_insertAll]
  exact List.prefix_append _ _

/-! ### All steps -/

lemma inStep_filled (steps : List Step) : (filled steps).InStep := by
  induction steps using List.reverseRecOn with
  | nil => exact inStep_empty
  | append_singleton steps step ih =>
    rw [filled_concat]
    exact ih.apply step

/-- The map is made of the entries of all steps. -/
lemma filled_eq_insertAll (steps : List Step) :
    filled steps = insertAll .empty (steps.flatMap Step.entries) := by
  induction steps using List.reverseRecOn with
  | nil => rfl
  | append_singleton steps step ih =>
    rw [filled_concat, ih, apply_eq_insertAll, List.flatMap_append, List.flatMap_singleton,
      insertAll, insertAll, insertAll, List.foldl_append]

/-- **Names and texts stay in step**, whatever is put into a map and however walks end. The names are
distinct and are the keys of the texts, and all queries agree with them. They stand in the order in
which they were first put in, and each has the text that it was last put in with. A step moves or
drops no name; a single entry adds its name at the end, if it is new, and changes its text only. -/
theorem filled_consistent (steps : List Step) :
    let m := filled steps
    let es := steps.flatMap Step.entries
    m.names.Nodup ∧ (∀ n, n ∈ m.names ↔ n ∈ m.texts.keys) ∧
    -- the queries
    (∀ n, m.contains n ↔ n ∈ m.names) ∧ (∀ n, (∃ t, m.get? n = some t) ↔ n ∈ m.names) ∧
    m.size = m.texts.size ∧ m.size = m.names.length ∧ (m.isEmpty ↔ m.names = []) ∧
    -- what was put in
    m.names = (es.map Prod.fst).eraseDups ∧
    (∀ n, m.get? n = (es.filter fun e => e.1 = n).getLast?.map Prod.snd) ∧
    -- one more step, and one more entry
    (∀ step : Step, m.names <+: (step.apply m).names) ∧
    ∀ n t, (m.insert n t).names = (if n ∈ m.names then m.names else m.names ++ [n]) ∧
      ∀ n', (m.insert n t).get? n' = if n' = n then some t else m.get? n' := by
  intro m es
  have hstep : m.InStep := inStep_filled steps
  have hm : m = insertAll .empty es := filled_eq_insertAll steps
  have hnames : m.names = (es.map Prod.fst).eraseDups := by
    rw [hm, names_insertAll]
    exact List.filter_eq_self.mpr fun n _ => rfl
  have htexts : m.texts = Table.ofList es := by
    rw [hm, texts_insertAll]
    rfl
  refine ⟨hstep.nodup, fun n => ?keys, fun n => (hstep.mem_iff n).symm, fun n => ?texts, ?size, rfl,
    List.isEmpty_iff, hnames, fun n => ?last, names_prefix_apply m,
    fun n t => ⟨?place, get?_insert m n t⟩⟩
  case keys => exact (hstep.mem_iff n).trans Table.mem_keys_iff.symm
  case texts => exact Option.isSome_iff_exists.symm.trans (hstep.mem_iff n).symm
  case size =>
    have hkeys : m.texts.keys = m.names := by rw [htexts, Table.keys_ofList, hnames]
    exact (congrArg List.length hkeys).symm.trans (List.length_map _)
  case last => rw [get?, htexts, Table.get?_ofList]
  case place =>
    rw [names_insert]
    exact if_congr (hstep.mem_iff n).symm rfl rfl

end SchemaRegistry.Sources
