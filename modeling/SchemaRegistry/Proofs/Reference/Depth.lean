import Mathlib.Data.Set.Card
import SchemaRegistry.Proofs.Reference.Walk

/-!
How deep a walk over references nests. The versions it references lead the walk from one call to the
next, in circles if they do so; what ends it is that every call below the root enters a registered
version that none of the calls above it has entered.
-/

namespace SchemaRegistry

/-- The versions that are registered. -/
def Registry.registered (r : Registry) : Set Key := {k | ∃ m, r.version k = .ok m}

lemma Registry.finite_registered (r : Registry) : r.registered.Finite :=
  r.keys.toFinset.finite_toSet.subset fun _ ⟨_, hm⟩ =>
    List.mem_toFinset.mpr (mem_keys_of_version hm)

lemma Registry.length_le_ncard_registered {r : Registry} {path : List Key} (hpath : path.Nodup)
    (hsub : ∀ k ∈ path, k ∈ r.registered) : path.length ≤ r.registered.ncard := by
  rw [← List.toFinset_card_of_nodup hpath, ← Set.ncard_coe_finset]
  exact Set.ncard_le_ncard (fun k hk => hsub k (List.mem_toFinset.mp hk)) r.finite_registered

/-- A call that goes over `rs` below the versions `path` comes to an end with `w`, and the calls that
it makes are nested `d` deep. There is one rule for each way through the loop; nothing in them says
that the calls get smaller. -/
inductive Recurses (fetch : Key → Except RegistryError Registered) :
    List Key → List Reference → ℕ → Walk → Prop where
  | nil {path : List Key} : Recurses fetch path [] 0 {}
  | cyclic {path : List Key} {r : Reference} {rs : List Reference} (hr : r.key ∈ path) :
    Recurses fetch path (r :: rs) 0 (.stop (.cyclicReference r.key))
  | unanswered {path : List Key} {r : Reference} {rs : List Reference} {e : RegistryError}
    (hr : r.key ∉ path) (he : fetch r.key = .error e) :
    Recurses fetch path (r :: rs) 0 (.ask r.key (.stop (.registry e)))
  | failed {path : List Key} {r : Reference} {rs : List Reference} {m : Registered} {d : ℕ}
    {below : Walk} {e : Error} (hr : r.key ∉ path) (hm : fetch r.key = .ok m)
    (hbelow : Recurses fetch (r.key :: path) m.schema.references d below)
    (he : below.outcome = .error e) :
    Recurses fetch path (r :: rs) (d + 1) (.ask r.key below)
  | visited {path : List Key} {r : Reference} {rs : List Reference} {m : Registered} {d d' : ℕ}
    {below after : Walk} (hr : r.key ∉ path) (hm : fetch r.key = .ok m)
    (hbelow : Recurses fetch (r.key :: path) m.schema.references d below)
    (ho : below.outcome = .ok ()) (hafter : Recurses fetch path rs d' after) :
    Recurses fetch path (r :: rs) (max (d + 1) d') (.ask r.key
      ⟨below.asked ++ after.asked, below.visits ++ (r, m) :: after.visits, after.outcome⟩)

namespace Recurses

variable {fetch : Key → Except RegistryError Registered} {path : List Key} {rs : List Reference}
  {d d' : ℕ} {w w' : Walk}

lemma unique (h : Recurses fetch path rs d w) (h' : Recurses fetch path rs d' w') :
    d' = d ∧ w' = w := by
  induction h generalizing d' w' with
  | nil =>
    cases h'
    exact ⟨rfl, rfl⟩
  | cyclic hr =>
    cases h' with
    | cyclic => exact ⟨rfl, rfl⟩
    | unanswered hr' | failed hr' | visited hr' => exact absurd hr hr'
  | unanswered hr he =>
    cases h' with
    | cyclic hr' => exact absurd hr' hr
    | unanswered _ he' =>
      cases he.symm.trans he'
      exact ⟨rfl, rfl⟩
    | failed _ hm | visited _ hm => cases he.symm.trans hm
  | failed hr hm _ he ih =>
    cases h' with
    | cyclic hr' => exact absurd hr' hr
    | unanswered _ he' => cases hm.symm.trans he'
    | failed _ hm' hbelow' =>
      cases hm.symm.trans hm'
      obtain ⟨rfl, rfl⟩ := ih hbelow'
      exact ⟨rfl, rfl⟩
    | visited _ hm' hbelow' ho' =>
      cases hm.symm.trans hm'
      obtain ⟨-, rfl⟩ := ih hbelow'
      cases he.symm.trans ho'
  | visited hr hm _ ho _ ihbelow ihafter =>
    cases h' with
    | cyclic hr' => exact absurd hr' hr
    | unanswered _ he' => cases hm.symm.trans he'
    | failed _ hm' hbelow' he' =>
      cases hm.symm.trans hm'
      obtain ⟨-, rfl⟩ := ihbelow hbelow'
      cases ho.symm.trans he'
    | visited _ hm' hbelow' _ hafter' =>
      cases hm.symm.trans hm'
      obtain ⟨rfl, rfl⟩ := ihbelow hbelow'
      obtain ⟨rfl, rfl⟩ := ihafter hafter'
      exact ⟨rfl, rfl⟩

/-- The versions above a call and the calls nested in it are different registered versions. -/
lemma depth_le {r : Registry} (hknown : ∀ {k m}, fetch k = .ok m → k ∈ r.registered)
    (h : Recurses fetch path rs d w) (hpath : path.Nodup) (hsub : ∀ k ∈ path, k ∈ r.registered) :
    d + path.length ≤ r.registered.ncard := by
  induction h with
  | nil | cyclic | unanswered =>
    rw [Nat.zero_add]
    exact Registry.length_le_ncard_registered hpath hsub
  | failed hr hm _ _ ih =>
    have := ih (List.nodup_cons.mpr ⟨hr, hpath⟩)
      (List.forall_mem_cons.mpr ⟨hknown hm, hsub⟩)
    rw [List.length_cons] at this
    omega
  | visited hr hm _ _ _ ihbelow ihafter =>
    have hbelow := ihbelow (List.nodup_cons.mpr ⟨hr, hpath⟩)
      (List.forall_mem_cons.mpr ⟨hknown hm, hsub⟩)
    have hafter := ihafter hpath hsub
    rw [List.length_cons] at hbelow
    omega

end Recurses

namespace Client

lemma exists_recurses (c : Client) (path : List Key) (rs : List Reference) :
    ∃ d, Recurses c.answer path rs d (c.walk path rs) := by
  induction path, rs using walk.induct c with
  | case1 path =>
    rw [walk_nil]
    exact ⟨0, .nil⟩
  | case2 path r rs hp =>
    rw [walk_of_mem hp]
    exact ⟨0, .cyclic hp⟩
  | case3 path r rs hp e he =>
    rw [walk_of_error hp he]
    exact ⟨0, .unanswered hp he⟩
  | case4 path r rs hp m hm ihbelow ihafter =>
    obtain ⟨d, hbelow⟩ := ihbelow
    obtain ⟨d', hafter⟩ := ihafter
    rw [walk_of_ok hp hm]
    cases ho : (c.walk (r.key :: path) m.schema.references).outcome with
    | error e =>
      rw [Walk.visit_of_error ho]
      exact ⟨d + 1, .failed hp hm hbelow ho⟩
    | ok u =>
      rw [Walk.visit_of_ok ho]
      exact ⟨max (d + 1) d', .visited hp hm hbelow ho hafter⟩

/-- **A walk ends**, in every registry and whatever is referenced: its calls come to one result, and
those below the first are nested no deeper than there are registered versions. -/
theorem walkFrom_depth_le (c : Client) (s : Schema) :
    ∃ depth, (∀ d w, Recurses c.answer [] s.references d w ↔ d = depth ∧ w = c.walkFrom s) ∧
      c.registry.registered.Finite ∧ depth ≤ c.registry.registered.ncard := by
  obtain ⟨depth, h⟩ := c.exists_recurses [] s.references
  have hknown : ∀ {k m}, c.answer k = .ok m → k ∈ c.registry.registered :=
    fun {_ m} hm => ⟨m, (answerTo_eq_ok_iff.mp hm).2⟩
  refine ⟨depth, fun d w => ⟨fun h' => h.unique h', ?_⟩, c.registry.finite_registered, ?_⟩
  · rintro ⟨rfl, rfl⟩
    exact h
  · exact h.depth_le hknown .nil (by simp)

end Client

end SchemaRegistry
