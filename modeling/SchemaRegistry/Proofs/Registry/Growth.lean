import Mathlib.Algebra.Group.Nat.Defs
import Mathlib.Data.List.Infix
import Mathlib.Tactic.Lemma
import SchemaRegistry.Registry

/-!
Registries in the order of growth. The larger one has every schema of the smaller one under its ID
and continues the versions of each subject, so what was found once is found again.
-/

namespace SchemaRegistry

/-- What a call of `register` is given. -/
structure Registration where
  subject : String
  schema : Schema
  normalize : Bool := false
  deriving DecidableEq, Repr

namespace Registry

/-- The registry after registering one after the other. -/
def registerAll (r : Registry) (qs : List Registration) : Registry :=
  qs.foldl (fun r q => (r.register q.subject q.schema q.normalize).2) r

@[simp] lemma registerAll_nil (r : Registry) : r.registerAll [] = r := rfl

@[simp] lemma registerAll_cons (r : Registry) (q : Registration) (qs : List Registration) :
    r.registerAll (q :: qs) =
      (r.register q.subject q.schema q.normalize).2.registerAll qs := rfl

lemma registerAll_append (r : Registry) (qs qs' : List Registration) :
    r.registerAll (qs ++ qs') = (r.registerAll qs).registerAll qs' := by
  simp [registerAll, List.foldl_append]

/-- The registry `r'` has all that `r` has. -/
structure Grows (r r' : Registry) : Prop where
  schemas : ∀ {id s}, r.schemas.get? id = some s → r'.schemas.get? id = some s
  versions : ∀ u, r.versionsOf u <+: r'.versionsOf u

lemma Grows.refl (r : Registry) : r.Grows r := ⟨id, fun _ => List.prefix_rfl⟩

lemma Grows.trans {r r' r'' : Registry} (h : r.Grows r') (h' : r'.Grows r'') : r.Grows r'' :=
  ⟨fun hs => h'.schemas (h.schemas hs), fun u => (h.versions u).trans (h'.versions u)⟩

lemma Grows.withId? {r r' : Registry} (h : r.Grows r') {u : String} {id : UInt32} {m : Registered}
    (hm : r.withId? u id = some m) : r'.withId? u id = some m := by
  obtain ⟨ms, hms⟩ := h.versions u
  unfold Registry.withId? at hm ⊢
  rw [← hms, List.find?_append, hm]
  rfl

lemma isSome_withId?_iff {r : Registry} {u : String} {id : UInt32} :
    (r.withId? u id).isSome ↔ ∃ m ∈ r.versionsOf u, m.id = id := by
  simp [withId?]

/-! ### Adding a version -/

lemma versionsOf_of_get? {r : Registry} {u : String} {ms : List Registered}
    (h : r.subjects.get? u = some ms) : r.versionsOf u = ms := by
  simp [versionsOf, h]

@[simp] lemma schemas_addVersion (r : Registry) (u : String) (s : Schema) (id : UInt32) :
    (r.addVersion u s id).schemas = r.schemas := by
  unfold addVersion
  split <;> rfl

@[simp] lemma index_addVersion (r : Registry) (u : String) (s : Schema) (id : UInt32) (n : Bool) :
    (r.addVersion u s id).index n = r.index n := by
  unfold addVersion
  split <;> rfl

@[simp] lemma lastId_addVersion (r : Registry) (u : String) (s : Schema) (id : UInt32) :
    (r.addVersion u s id).lastId = r.lastId := by
  unfold addVersion
  split <;> rfl

/-- The version that a subject gets for a schema with an ID that is new to it. -/
def newVersion (r : Registry) (u : String) (s : Schema) (id : UInt32) : Registered :=
  ⟨id, u, nextVersion (r.versionsOf u), s⟩

lemma get?_subjects_addVersion {r : Registry} {u : String} {id : UInt32}
    (h : r.withId? u id = none) (s : Schema) (u' : String) :
    (r.addVersion u s id).subjects.get? u' =
      if u' = u then some (r.versionsOf u ++ [r.newVersion u s id]) else r.subjects.get? u' := by
  simp only [addVersion, h, Table.get?_insert, newVersion]

lemma addVersion_of_withId? {r : Registry} {u : String} {id : UInt32} {m : Registered}
    (h : r.withId? u id = some m) (s : Schema) : r.addVersion u s id = r := by
  simp only [addVersion, h]

lemma versionsOf_addVersion {r : Registry} {u : String} {id : UInt32}
    (h : r.withId? u id = none) (s : Schema) (u' : String) :
    (r.addVersion u s id).versionsOf u' =
      if u' = u then r.versionsOf u ++ [r.newVersion u s id] else r.versionsOf u' := by
  unfold versionsOf
  rw [get?_subjects_addVersion h]
  split <;> rfl

lemma versionsOf_addVersion_eq_ite (r : Registry) (u : String) (s : Schema) (id : UInt32)
    (u' : String) :
    (r.addVersion u s id).versionsOf u' =
      if u' = u ∧ r.withId? u id = none then r.versionsOf u ++ [r.newVersion u s id]
      else r.versionsOf u' := by
  cases h : r.withId? u id with
  | some m => simp [addVersion_of_withId? h]
  | none => simp [versionsOf_addVersion h]

lemma grows_addVersion (r : Registry) (u : String) (s : Schema) (id : UInt32) :
    r.Grows (r.addVersion u s id) := by
  cases h : r.withId? u id with
  | some m =>
    rw [addVersion_of_withId? h]
    exact .refl r
  | none =>
    refine ⟨fun hs => by rwa [schemas_addVersion], fun u' => ?_⟩
    rw [versionsOf_addVersion h]
    split
    · next e => exact e ▸ List.prefix_append _ _
    · exact List.prefix_rfl

lemma isSome_withId?_addVersion (r : Registry) (u : String) (s : Schema) (id : UInt32) :
    ((r.addVersion u s id).withId? u id).isSome := by
  cases h : r.withId? u id with
  | some m =>
    rw [addVersion_of_withId? h, h]
    rfl
  | none =>
    rw [isSome_withId?_iff, versionsOf_addVersion h, if_pos rfl]
    exact ⟨r.newVersion u s id, by simp, rfl⟩

/-! ### Finding a schema by its ID -/

lemma bySubjectAndId_eq_ok_iff {r : Registry} {u : String} {id : UInt32} {s : Schema} :
    r.bySubjectAndId u id = .ok s ↔
      (u.isEmpty ∨ (r.withId? u id).isSome) ∧ r.schemas.get? id = some s := by
  unfold bySubjectAndId
  split
  · next h => simp_all
  · next h =>
    have hu : u.isEmpty ∨ (r.withId? u id).isSome := by
      by_cases he : u.isEmpty
      · exact .inl he
      · exact .inr (by simpa [he, Option.isSome_iff_ne_none] using h)
    split
    · next t ht => simp only [hu, ht, true_and, Except.ok.injEq, Option.some.injEq]
    · next ht => simp [ht]

lemma Grows.bySubjectAndId {r r' : Registry} (h : r.Grows r') {u : String} {id : UInt32}
    {s : Schema} (hs : r.bySubjectAndId u id = .ok s) : r'.bySubjectAndId u id = .ok s := by
  rw [bySubjectAndId_eq_ok_iff] at hs ⊢
  obtain ⟨hu, hs⟩ := hs
  refine ⟨hu.imp_right fun hm => ?_, h.schemas hs⟩
  obtain ⟨m, hm⟩ := Option.isSome_iff_exists.mp hm
  rw [h.withId? hm]
  rfl

end Registry

end SchemaRegistry
