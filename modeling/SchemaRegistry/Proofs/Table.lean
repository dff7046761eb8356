import Mathlib.Data.List.Induction
import Mathlib.Data.List.Basic
import SchemaRegistry.Table

/-!
Tables that are filled from the left. Their keys are the distinct ones, each where it came first,
and the pair that came last under a key decides its value. A table that is there keeps its keys in
front, and filling it once more changes nothing.
-/

namespace SchemaRegistry

/-! ### Where elements come first -/

section FirstOccurrence

variable {α : Type} [DecidableEq α] {l : List α} {a b : α}

lemma eraseDups_concat (l : List α) (a : α) :
    (l ++ [a]).eraseDups = if a ∈ l then l.eraseDups else l.eraseDups ++ [a] := by
  rw [List.eraseDups_append]
  by_cases h : a ∈ l <;> simp [List.removeAll, List.eraseDups_cons, h]

lemma nodup_eraseDups (l : List α) : l.eraseDups.Nodup := by
  induction l using List.reverseRecOn with
  | nil => simp
  | append_singleton l a ih =>
    rw [eraseDups_concat]
    split
    · exact ih
    · next h =>
      rw [List.nodup_append]
      refine ⟨ih, by simp, fun x hx y hy e => h ?_⟩
      rw [← List.mem_singleton.mp hy, ← e]
      exact List.mem_eraseDups.mp hx

lemma idxOf_eraseDups_lt_iff (ha : a ∈ l) (hb : b ∈ l) :
    l.eraseDups.idxOf a < l.eraseDups.idxOf b ↔ l.idxOf a < l.idxOf b := by
  induction l using List.reverseRecOn with
  | nil => cases ha
  | append_singleton l c ih =>
    rw [eraseDups_concat]
    split
    · next hc =>
      have hold : ∀ x ∈ l ++ [c], x ∈ l := by
        intro x hx
        rcases List.mem_append.mp hx with hx | hx
        · exact hx
        · exact List.mem_singleton.mp hx ▸ hc
      rw [List.idxOf_append_of_mem (hold a ha), List.idxOf_append_of_mem (hold b hb)]
      exact ih (hold a ha) (hold b hb)
    · next hc =>
      -- a new element comes after all others, in either list
      have hnew : ∀ {l' : List α}, c ∉ l' → (l' ++ [c]).idxOf c = l'.length := by
        intro l' h
        rw [List.idxOf_append_of_notMem h]
        simp
      have hc' : c ∉ l.eraseDups := by simpa using hc
      rcases List.mem_append.mp ha with ha | ha <;> rcases List.mem_append.mp hb with hb | hb
      · rw [List.idxOf_append_of_mem ha, List.idxOf_append_of_mem hb,
          List.idxOf_append_of_mem (List.mem_eraseDups.mpr ha),
          List.idxOf_append_of_mem (List.mem_eraseDups.mpr hb)]
        exact ih ha hb
      · rw [List.mem_singleton.mp hb, hnew hc, hnew hc', List.idxOf_append_of_mem ha,
          List.idxOf_append_of_mem (List.mem_eraseDups.mpr ha)]
        simp [List.idxOf_lt_length_iff, ha]
      · rw [List.mem_singleton.mp ha, hnew hc, hnew hc', List.idxOf_append_of_mem hb,
          List.idxOf_append_of_mem (List.mem_eraseDups.mpr hb)]
        have h1 := List.idxOf_lt_length_iff.mpr hb
        have h2 := List.idxOf_lt_length_iff.mpr (List.mem_eraseDups.mpr hb)
        omega
      · rw [List.mem_singleton.mp ha, List.mem_singleton.mp hb]
        simp

end FirstOccurrence

namespace Table

variable {κ ν : Type} [DecidableEq κ]

lemma ofList_concat (es : List (κ × ν)) (e : κ × ν) :
    ofList (es ++ [e]) = (ofList es).insert e.1 e.2 := by
  simp [ofList]

lemma keys_ofList (es : List (κ × ν)) : (ofList es).keys = (es.map Prod.fst).eraseDups := by
  induction es using List.reverseRecOn with
  | nil => rfl
  | append_singleton es e ih =>
    rw [ofList_concat, keys_insert, ih, List.map_append, List.map_singleton, eraseDups_concat]
    simp only [List.mem_eraseDups]

lemma get?_ofList (es : List (κ × ν)) (k : κ) :
    (ofList es).get? k = (es.filter fun e => e.1 = k).getLast?.map Prod.snd := by
  induction es using List.reverseRecOn with
  | nil => rfl
  | append_singleton es e ih =>
    rw [ofList_concat, get?_insert, ih, List.filter_append]
    by_cases h : e.1 = k
    · simp [h]
    · have h' : k ≠ e.1 := fun he => h he.symm
      simp [h, h']

/-! ### Filling a table that is there -/

/-- Inserts from the left, into a table that is there. -/
def insertAll (t : Table κ ν) (es : List (κ × ν)) : Table κ ν :=
  es.foldl (fun t e => t.insert e.1 e.2) t

@[simp] lemma insertAll_cons (t : Table κ ν) (e : κ × ν) (es : List (κ × ν)) :
    t.insertAll (e :: es) = (t.insert e.1 e.2).insertAll es := rfl

lemma insertAll_concat (t : Table κ ν) (es : List (κ × ν)) (e : κ × ν) :
    t.insertAll (es ++ [e]) = (t.insertAll es).insert e.1 e.2 := by
  simp [insertAll]

lemma keys_insertAll (t : Table κ ν) (es : List (κ × ν)) :
    (t.insertAll es).keys = t.keys ++ (ofList es).keys.filter (· ∉ t.keys) := by
  induction es using List.reverseRecOn with
  | nil => simp [insertAll, ofList, keys, empty]
  | append_singleton es e ih =>
    rw [insertAll_concat, ofList_concat, keys_insert, keys_insert, ih]
    by_cases ht : e.1 ∈ t.keys <;> by_cases he : e.1 ∈ (ofList es).keys <;> simp [ht, he]

lemma mem_keys_insertAll {t : Table κ ν} {es : List (κ × ν)} {k : κ} :
    k ∈ (t.insertAll es).keys ↔ k ∈ t.keys ∨ k ∈ es.map Prod.fst := by
  rw [keys_insertAll, keys_ofList, List.mem_append, List.mem_filter, List.mem_eraseDups,
    decide_eq_true_iff]
  tauto

lemma get?_insertAll (t : Table κ ν) (es : List (κ × ν)) (k : κ) :
    (t.insertAll es).get? k = ((ofList es).get? k).or (t.get? k) := by
  induction es using List.reverseRecOn with
  | nil => simp [insertAll, ofList]
  | append_singleton es e ih =>
    rw [insertAll_concat, ofList_concat, get?_insert, get?_insert, ih]
    split <;> rfl

/-! ### Filling it once more -/

lemma insertEntry_insertEntry (k : κ) (v v' : ν) (es : List (κ × ν)) :
    insertEntry k v' (insertEntry k v es) = insertEntry k v' es := by
  induction es with
  | nil => simp [insertEntry]
  | cons e es ih => by_cases h : e.1 = k <;> simp [insertEntry, h, ih]

lemma insertEntry_comm {k k' : κ} (hne : k ≠ k') (v v' : ν) {es : List (κ × ν)}
    (hk' : k' ∈ es.map Prod.fst) :
    insertEntry k' v' (insertEntry k v es) = insertEntry k v (insertEntry k' v' es) := by
  induction es with
  | nil => cases hk'
  | cons e es ih =>
    obtain ⟨a, b⟩ := e
    by_cases ha : a = k
    · subst ha
      simp [insertEntry, hne]
    · by_cases ha' : a = k'
      · subst ha'
        simp [insertEntry, ha]
      · have hk' : k' ∈ es.map Prod.fst := by simpa [Ne.symm ha'] using hk'
        simp [insertEntry, ha, ha', ih hk']

lemma insert_insert (t : Table κ ν) (k : κ) (v v' : ν) :
    (t.insert k v).insert k v' = t.insert k v' :=
  congrArg Table.mk (insertEntry_insertEntry k v v' t.entries)

lemma insert_comm {t : Table κ ν} {k k' : κ} (hne : k ≠ k') (v v' : ν) (hk' : k' ∈ t.keys) :
    (t.insert k v).insert k' v' = (t.insert k' v').insert k v :=
  congrArg Table.mk (insertEntry_comm hne v v' hk')

lemma insert_insertAll_insert {t : Table κ ν} {es : List (κ × ν)} (h : es.map Prod.fst ⊆ t.keys)
    (k : κ) (v : ν) : ((t.insert k v).insertAll es).insert k v = (t.insertAll es).insert k v := by
  induction es generalizing t with
  | nil => exact t.insert_insert k v v
  | cons e es ih =>
    obtain ⟨he, hes⟩ := List.cons_subset.mp h
    rw [insertAll_cons, insertAll_cons]
    by_cases hk : k = e.1
    · rw [← hk, insert_insert]
    · rw [insert_comm hk v e.2 he]
      exact ih (by rwa [keys_insert, if_pos he])

/-- A table that was filled stays as it is when it is filled with the same pairs again. -/
lemma insertAll_insertAll (t : Table κ ν) (es : List (κ × ν)) :
    (t.insertAll es).insertAll es = t.insertAll es := by
  induction es using List.reverseRecOn with
  | nil => rfl
  | append_singleton es e ih =>
    have hkeys : es.map Prod.fst ⊆ (t.insertAll es).keys :=
      fun k hk => mem_keys_insertAll.mpr (.inr hk)
    rw [insertAll_concat, insertAll_concat, insert_insertAll_insert hkeys, ih]

end Table

end SchemaRegistry
