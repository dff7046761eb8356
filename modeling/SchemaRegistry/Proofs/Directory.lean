import Mathlib.Data.List.Infix
import Mathlib.Tactic.Lemma
import Mathlib.Tactic.SplitIfs
import SchemaRegistry.Directory

/-!
Writing files. The directory of a file that is written is there, so that a write makes no directory
and all paths lead where they led before. What is at a path changes if the path leads to the file.
-/

namespace SchemaRegistry.Directory

variable {d d' : Directory} {here p q parts : List String} {path text : String}

/-! ### Where paths lead -/

/-- Something is below a directory that is not the root, or it is listed. -/
lemma isDirectory_iff : d.isDirectory p ↔ p = [] ∨ d.entries.get? p = some .directory ∨
    ∃ k ∈ d.entries.keys, p <+: k ∧ p.length < k.length := by
  simp [isDirectory, or_assoc]

lemma isDirectory_of_prefix (h : d.isDirectory q) (hp : p <+: q) : d.isDirectory p := by
  rw [isDirectory_iff] at h ⊢
  rcases h with rfl | hq | ⟨k, hk, hq, hlt⟩
  · exact .inl (List.prefix_nil.mp hp)
  · rcases Nat.lt_or_eq_of_le hp.length_le with hlt | heq
    · have hmem : q ∈ d.entries.keys := Table.mem_keys_iff.mpr (hq ▸ rfl)
      exact .inr (.inr ⟨q, hmem, hp, hlt⟩)
    · exact .inr (.inl (hp.eq_of_length heq ▸ hq))
  · exact .inr (.inr ⟨k, hk, hp.trans hq, Nat.lt_of_le_of_lt hp.length_le hlt⟩)

lemma isDirectory_dropLast_of_step {part : String} (h : d.step p part = some q) :
    d.isDirectory q.dropLast := by
  unfold step at h
  split_ifs at h with hbad hsame hup
  all_goals
    have hp : d.isDirectory p := by
      by_contra hnot
      exact hbad (.inl hnot)
    cases h
  · exact isDirectory_of_prefix hp (List.dropLast_prefix p)
  · exact isDirectory_of_prefix hp ((List.dropLast_prefix _).trans (List.dropLast_prefix p))
  · rwa [List.dropLast_concat]

lemma isDirectory_dropLast_of_foldlM {names : List String} (hne : names ≠ [])
    (h : names.foldlM d.step p = some q) : d.isDirectory q.dropLast := by
  induction names generalizing p with
  | nil => exact absurd rfl hne
  | cons part names ih =>
    rw [List.foldlM_cons, Option.bind_eq_bind] at h
    obtain ⟨p', hstep, hrest⟩ := Option.bind_eq_some_iff.mp h
    cases names with
    | nil => exact Option.some.inj hrest ▸ isDirectory_dropLast_of_step hstep
    | cons part' names => exact ih (List.cons_ne_nil _ _) hrest

lemma isDirectory_dropLast_of_follow? (h : d.follow? here path = some p) :
    d.isDirectory p.dropLast := by
  unfold follow? at h
  split_ifs at h
  exact isDirectory_dropLast_of_foldlM (by simpa using Text.split_ne_nil '/' path.toList) h

/-! ### Writing -/

lemma write?_eq_some_iff : d.write? here path text = some d' ↔
    ∃ parts, d.follow? here path = some parts ∧ d.isDirectory parts = false ∧
      d' = ⟨d.entries.insert parts text⟩ := by
  unfold write?
  rw [Option.bind_eq_bind, Option.bind_eq_some_iff]
  refine exists_congr fun parts => and_congr_right fun _ => ?_
  cases d.isDirectory parts <;> simp [eq_comm]

lemma isDirectory_write? (h : d.write? here path text = some d') :
    d'.isDirectory = d.isDirectory := by
  obtain ⟨parts, hfollow, hfile, rfl⟩ := write?_eq_some_iff.mp h
  have hparent := isDirectory_dropLast_of_follow? hfollow
  funext p
  rw [Bool.eq_iff_iff]
  constructor
  · intro hp
    rcases isDirectory_iff.mp hp with rfl | hlisted | ⟨k, hk, hpk, hlt⟩
    · exact isDirectory_iff.mpr (.inl rfl)
    · rw [Table.get?_insert] at hlisted
      split_ifs at hlisted
      · cases hlisted
      · exact isDirectory_iff.mpr (.inr (.inl hlisted))
    · rw [Table.mem_keys_iff, Table.get?_insert] at hk
      split_ifs at hk with hnew
      · -- what is above the new file is its parent or above that, and the parent was a directory
        subst hnew
        have hle : p.length ≤ k.dropLast.length := by
          rw [List.length_dropLast]
          omega
        exact isDirectory_of_prefix hparent
          (List.prefix_of_prefix_length_le hpk (List.dropLast_prefix k) hle)
      · exact isDirectory_iff.mpr (.inr (.inr ⟨k, Table.mem_keys_iff.mpr hk, hpk, hlt⟩))
  · intro hp
    rcases isDirectory_iff.mp hp with rfl | hlisted | ⟨k, hk, hpk, hlt⟩
    · exact isDirectory_iff.mpr (.inl rfl)
    · have hne : p ≠ parts := by
        rintro rfl
        exact Bool.false_ne_true (hfile.symm.trans hp)
      refine isDirectory_iff.mpr (.inr (.inl ?_))
      rw [Table.get?_insert, if_neg hne, hlisted]
    · refine isDirectory_iff.mpr (.inr (.inr ⟨k, ?_, hpk, hlt⟩))
      rw [Table.mem_keys_iff, Table.get?_insert]
      split_ifs
      · rfl
      · exact Table.mem_keys_iff.mp hk

lemma follow?_write? (h : d.write? here path text = some d') : d'.follow? = d.follow? := by
  have hstep : d'.step = d.step := by
    funext p part
    rw [step, step, isDirectory_write? h]
  funext here path
  rw [follow?, follow?, hstep]

/-- **A write changes one file**, under all paths that lead to it from any working directory. -/
theorem entry?_write? (h : d.write? here path text = some d') (here' : List String)
    (path' : String) :
    d'.entry? here' path' =
      if d.follow? here' path' = d.follow? here path then some (.file text)
      else d.entry? here' path' := by
  have hdirectory := isDirectory_write? h
  have hfollow := follow?_write? h
  obtain ⟨parts, hparts, hfile, rfl⟩ := write?_eq_some_iff.mp h
  unfold entry?
  simp only [hfollow, hdirectory, hparts, Option.bind_eq_bind]
  cases d.follow? here' path' with
  | none => rfl
  | some q =>
    simp only [Option.bind_some, Option.some.injEq, Table.get?_insert]
    by_cases hq : q = parts
    · simp [hq, hfile]
    · simp [hq]

end SchemaRegistry.Directory
