import Mathlib.Logic.Relation
import SchemaRegistry.Proofs.Client.Run
import SchemaRegistry.Reference.Walk

/-!
What a walk over references finds. It succeeds if everything that it reaches can be fetched and
nothing that it reaches leads back to itself, and then it visits just what it reaches; where it
fails, the error tells of a version that it reaches.
-/

namespace SchemaRegistry

open Relation

section Reaches

variable (fetch : Key → Except RegistryError Registered)

/-- The version `k` has a reference to the version `k'`. -/
def References (k k' : Key) : Prop :=
  ∃ m, fetch k = .ok m ∧ ∃ r ∈ m.schema.references, r.key = k'

/-- The version `k` is referenced by one of `rs`, or by a version that is. -/
def Reaches (rs : List Reference) (k : Key) : Prop :=
  ∃ r ∈ rs, ReflTransGen (References fetch) r.key k

/-- The version `k` leads back to itself. -/
def Cyclic (k : Key) : Prop := TransGen (References fetch) k k

variable {fetch} {rs : List Reference} {r : Reference} {k k' : Key} {m : Registered}

lemma Reaches.head (hr : r ∈ rs) : Reaches fetch rs r.key := ⟨r, hr, .refl⟩

lemma Reaches.tail (h : Reaches fetch rs k) (hk : References fetch k k') :
    Reaches fetch rs k' := by
  obtain ⟨r, hr, h⟩ := h
  exact ⟨r, hr, h.tail hk⟩

lemma Reaches.of_tail (h : Reaches fetch rs k) : Reaches fetch (r :: rs) k := by
  obtain ⟨r', hr', h⟩ := h
  exact ⟨r', List.mem_cons_of_mem _ hr', h⟩

/-- Induction along what is reached. -/
@[elab_as_elim]
lemma Reaches.induction {p : Key → Prop} (h : Reaches fetch rs k) (head : ∀ r ∈ rs, p r.key)
    (step : ∀ k k', Reaches fetch rs k → p k → References fetch k k' → p k') : p k := by
  obtain ⟨r, hr, hk⟩ := h
  induction hk with
  | refl => exact head r hr
  | tail hk href ih => exact step _ _ ⟨r, hr, hk⟩ ih href

lemma Reaches.through (hm : fetch r.key = .ok m) (h : Reaches fetch m.schema.references k) :
    Reaches fetch (r :: rs) k := by
  obtain ⟨r', hr', h⟩ := h
  exact ⟨r, List.mem_cons_self, .head ⟨m, hm, r', hr', rfl⟩ h⟩

lemma Cyclic.fetched (h : Cyclic fetch k) : ∃ m, fetch k = .ok m := by
  obtain ⟨k', ⟨m, hm, -⟩, -⟩ := TransGen.head'_iff.mp h
  exact ⟨m, hm⟩

end Reaches

/-! ### One step of a walk -/

namespace Walk

variable {below : Walk} {v : Reference × Registered} {after : Unit → Walk}

@[simp] lemma outcome_stop (e : Error) : (stop e).outcome = .error e := rfl

@[simp] lemma visits_stop (e : Error) : (stop e).visits = [] := rfl

@[simp] lemma outcome_ask (k : Key) (w : Walk) : (w.ask k).outcome = w.outcome := rfl

@[simp] lemma visits_ask (k : Key) (w : Walk) : (w.ask k).visits = w.visits := rfl

lemma visit_of_error {e : Error} (h : below.outcome = .error e) : visit below v after = below := by
  simp only [visit, h]

lemma visit_of_ok (h : below.outcome = .ok ()) :
    visit below v after = ⟨below.asked ++ (after ()).asked,
      below.visits ++ v :: (after ()).visits, (after ()).outcome⟩ := by
  simp only [visit, h]

end Walk

namespace Client

variable {c : Client} {path : List Key} {rs : List Reference} {r : Reference} {k k' : Key}
  {m : Registered} {e : Error}

@[simp] lemma walk_nil (c : Client) (path : List Key) : c.walk path [] = {} := by
  rw [walk]

lemma walk_of_mem (hp : r.key ∈ path) :
    c.walk path (r :: rs) = .stop (.cyclicReference r.key) := by
  rw [walk, dif_pos hp]

lemma walk_of_error {e : RegistryError} (hp : r.key ∉ path) (h : c.answer r.key = .error e) :
    c.walk path (r :: rs) = .ask r.key (.stop (.registry e)) := by
  rw [walk, dif_neg hp]
  split
  · next e' h' =>
    cases h.symm.trans h'
    rfl
  · next m h' => cases h.symm.trans h'

lemma walk_of_ok (hp : r.key ∉ path) (h : c.answer r.key = .ok m) :
    c.walk path (r :: rs) = .ask r.key (.visit (c.walk (r.key :: path) m.schema.references) (r, m)
      fun _ => c.walk path rs) := by
  rw [walk, dif_neg hp]
  split
  · next e h' => cases h.symm.trans h'
  · next m' h' =>
    cases h.symm.trans h'
    rfl

lemma outcome_walk_cons (c : Client) (path : List Key) (r : Reference) (rs : List Reference) :
    (c.walk path (r :: rs)).outcome =
      if r.key ∈ path then .error (.cyclicReference r.key)
      else match c.answer r.key with
        | .error e => .error (.registry e)
        | .ok m => (c.walk (r.key :: path) m.schema.references).outcome.bind fun _ =>
            (c.walk path rs).outcome := by
  by_cases hp : r.key ∈ path
  · rw [walk_of_mem hp, if_pos hp, Walk.outcome_stop]
  · rw [if_neg hp]
    cases h : c.answer r.key with
    | error e => rw [walk_of_error hp h, Walk.outcome_ask, Walk.outcome_stop]
    | ok m =>
      rw [walk_of_ok hp h, Walk.outcome_ask]
      cases hb : (c.walk (r.key :: path) m.schema.references).outcome with
      | error e => simp only [Walk.visit_of_error hb, hb, Except.bind]
      | ok u => simp only [Walk.visit_of_ok hb, hb, Except.bind]

lemma outcome_walk_cons_eq_ok_iff :
    (c.walk path (r :: rs)).outcome = .ok () ↔
      r.key ∉ path ∧
        (∃ m, c.answer r.key = .ok m ∧
          (c.walk (r.key :: path) m.schema.references).outcome = .ok ()) ∧
        (c.walk path rs).outcome = .ok () := by
  rw [outcome_walk_cons]
  by_cases hp : r.key ∈ path
  · simp [hp]
  · cases c.answer r.key with
    | error e => simp [hp]
    | ok m =>
      cases hb : (c.walk (r.key :: path) m.schema.references).outcome <;>
        simp [hp, hb, Except.bind]

/-! ### What a successful walk goes through -/

/-- The walk `w` went from `r` on a path `path` over the references of its target `m`. -/
structure Enters (c : Client) (w : Walk) (path : List Key) (r : Reference) (m : Registered) :
    Prop where
  fresh : r.key ∉ path
  answer : c.answer r.key = .ok m
  outcome : (c.walk (r.key :: path) m.schema.references).outcome = .ok ()
  visits : (c.walk (r.key :: path) m.schema.references).visits ++ [(r, m)] ⊆ w.visits

lemma enters_of_mem (h : (c.walk path rs).outcome = .ok ()) (hr : r ∈ rs) :
    ∃ m, c.Enters (c.walk path rs) path r m := by
  induction rs with
  | nil => cases hr
  | cons r' rs ih =>
    obtain ⟨hp, ⟨m, hm, hb⟩, hrs⟩ := outcome_walk_cons_eq_ok_iff.mp h
    have hvisits : (c.walk path (r' :: rs)).visits =
        (c.walk (r'.key :: path) m.schema.references).visits ++
          (r', m) :: (c.walk path rs).visits := by
      rw [walk_of_ok hp hm, Walk.visits_ask, Walk.visit_of_ok hb]
    rcases List.mem_cons.mp hr with rfl | hr
    · refine ⟨m, hp, hm, hb, ?_⟩
      rw [hvisits, List.append_cons _ (r, m) (c.walk path rs).visits]
      exact List.subset_append_left _ _
    · obtain ⟨m', hm'⟩ := ih hrs hr
      refine ⟨m', hm'.fresh, hm'.answer, hm'.outcome, List.Subset.trans hm'.visits ?_⟩
      rw [hvisits, List.append_cons _ (r', m) (c.walk path rs).visits]
      exact List.subset_append_right _ _

lemma enters_of_reaches (h : (c.walk path rs).outcome = .ok ()) (hk : Reaches c.answer rs k) :
    ∃ path' r m, path ⊆ path' ∧ r.key = k ∧ c.Enters (c.walk path rs) path' r m := by
  obtain ⟨r, hr, hk⟩ := hk
  induction hk with
  | refl =>
    obtain ⟨m, hm⟩ := enters_of_mem h hr
    exact ⟨path, r, m, List.Subset.refl _, rfl, hm⟩
  | tail _ hk ih =>
    obtain ⟨path', r', m, hsub, rfl, hm⟩ := ih
    obtain ⟨m', hm', r'', hr'', rfl⟩ := hk
    cases hm.answer.symm.trans hm'
    obtain ⟨m'', hm''⟩ := enters_of_mem hm.outcome hr''
    have hvisits := (List.append_subset.mp hm.visits).1
    exact ⟨r'.key :: path', r'', m'', List.subset_cons_of_subset _ hsub, rfl, hm''.fresh,
      hm''.answer, hm''.outcome, List.Subset.trans hm''.visits hvisits⟩

lemma not_cyclic_of_reaches (h : (c.walk path rs).outcome = .ok ())
    (hk : Reaches c.answer rs k) : ¬ Cyclic c.answer k := by
  intro hc
  obtain ⟨path', r, m, -, rfl, hm⟩ := enters_of_reaches h hk
  obtain ⟨k', ⟨m', hm', r', hr', rfl⟩, hback⟩ := TransGen.head'_iff.mp hc
  cases hm.answer.symm.trans hm'
  -- the walk below `r` would enter its key again
  obtain ⟨path'', r'', m'', hsub, he, hm''⟩ := enters_of_reaches hm.outcome ⟨r', hr', hback⟩
  exact hm''.fresh (he ▸ hsub List.mem_cons_self)

/-! ### What a failed walk came upon -/

/-- A walk fails at a version that it reaches. That is on a cycle, since everything on the path
leads to the references that are walked over, or it cannot be fetched. -/
lemma reaches_of_outcome_error (hpath : ∀ p ∈ path, ∀ r ∈ rs, TransGen (References c.answer) p r.key)
    (h : (c.walk path rs).outcome = .error e) :
    ∃ k, Reaches c.answer rs k ∧
      ((e = .cyclicReference k ∧ Cyclic c.answer k) ∨
        ∃ e', e = .registry e' ∧ c.answer k = .error e') := by
  induction path, rs using walk.induct c with
  | case1 path => simp at h
  | case2 path r rs hp =>
    rw [walk_of_mem hp, Walk.outcome_stop] at h
    cases h
    exact ⟨r.key, .head List.mem_cons_self, .inl ⟨rfl, hpath _ hp r List.mem_cons_self⟩⟩
  | case3 path r rs hp e' he =>
    rw [walk_of_error hp he, Walk.outcome_ask, Walk.outcome_stop] at h
    cases h
    exact ⟨r.key, .head List.mem_cons_self, .inr ⟨e', rfl, he⟩⟩
  | case4 path r rs hp m hm ihbelow ihafter =>
    rw [walk_of_ok hp hm, Walk.outcome_ask] at h
    cases hb : (c.walk (r.key :: path) m.schema.references).outcome with
    | error e' =>
      rw [Walk.visit_of_error hb] at h
      have hstep : ∀ r' ∈ m.schema.references, References c.answer r.key r'.key :=
        fun r' hr' => ⟨m, hm, r', hr', rfl⟩
      -- `r.key` joins the path, and all of the path leads to the references below it
      obtain ⟨k, hk, hcause⟩ := ihbelow (fun p hp r' hr' => by
        rcases List.mem_cons.mp hp with rfl | hp
        · exact .single (hstep r' hr')
        · exact (hpath p hp r List.mem_cons_self).tail (hstep r' hr')) h
      exact ⟨k, hk.through hm, hcause⟩
    | ok u =>
      rw [Walk.visit_of_ok hb] at h
      obtain ⟨k, hk, hcause⟩ :=
        ihafter (fun p hp r' hr' => hpath p hp r' (List.mem_cons_of_mem _ hr')) h
      exact ⟨k, hk.of_tail, hcause⟩

/-- What a schema reaches can all be fetched, and none of it leads back to itself. -/
def Resolvable (c : Client) (s : Schema) : Prop :=
  ∀ k, Reaches c.answer s.references k → (∃ m, c.answer k = .ok m) ∧ ¬ Cyclic c.answer k

/-- **When a walk succeeds.** It does if everything that it reaches can be fetched and lies on no
cycle. -/
theorem outcome_walkFrom_eq_ok_iff (c : Client) (s : Schema) :
    (c.walkFrom s).outcome = .ok () ↔ c.Resolvable s := by
  constructor
  · intro h k hk
    obtain ⟨path', r, m, -, rfl, hm⟩ := enters_of_reaches h hk
    exact ⟨⟨m, hm.answer⟩, not_cyclic_of_reaches h hk⟩
  · intro h
    cases ho : (c.walkFrom s).outcome with
    | ok u => rfl
    | error e =>
      obtain ⟨k, hk, hcause⟩ := reaches_of_outcome_error (by simp) ho
      obtain ⟨⟨m, hm⟩, hacyclic⟩ := h k hk
      rcases hcause with ⟨-, hc⟩ | ⟨e', -, he⟩
      · exact absurd hc hacyclic
      · cases hm.symm.trans he

/-! ### Visits -/

lemma answer_of_mem_visits {v : Reference × Registered} (h : v ∈ (c.walk path rs).visits) :
    c.answer v.1.key = .ok v.2 ∧ Reaches c.answer rs v.1.key := by
  induction path, rs using walk.induct c with
  | case1 path => simp at h
  | case2 path r rs hp => simp [walk_of_mem hp] at h
  | case3 path r rs hp e' he => simp [walk_of_error hp he] at h
  | case4 path r rs hp m hm ihbelow ihafter =>
    rw [walk_of_ok hp hm, Walk.visits_ask] at h
    have hbelow : v ∈ (c.walk (r.key :: path) m.schema.references).visits →
        c.answer v.1.key = .ok v.2 ∧ Reaches c.answer (r :: rs) v.1.key :=
      fun hv => (ihbelow hv).imp_right (Reaches.through hm)
    cases hb : (c.walk (r.key :: path) m.schema.references).outcome with
    | error e' =>
      rw [Walk.visit_of_error hb] at h
      exact hbelow h
    | ok u =>
      rw [Walk.visit_of_ok hb, List.mem_append, List.mem_cons] at h
      rcases h with h | rfl | h
      · exact hbelow h
      · exact ⟨hm, .head List.mem_cons_self⟩
      · exact (ihafter h).imp_right Reaches.of_tail

lemma mem_visits_iff (h : (c.walk path rs).outcome = .ok ()) :
    k ∈ (c.walk path rs).visits.map (fun v => v.1.key) ↔ Reaches c.answer rs k := by
  rw [List.mem_map]
  constructor
  · rintro ⟨v, hv, rfl⟩
    exact (answer_of_mem_visits hv).2
  · intro hk
    obtain ⟨path', r, m, -, rfl, hm⟩ := enters_of_reaches h hk
    exact ⟨(r, m), hm.visits (by simp), rfl⟩

end Client

namespace Sources

variable {c : Client} {s : Schema}

lemma resolve_fst (s : Schema) (c : Client) :
    (resolve s c).1 = (c.walkFrom s).outcome.map fun _ => addAll .empty (c.walkFrom s).visits :=
  rfl

lemma resolve_eq_ok_iff : (∃ m, (resolve s c).1 = .ok m) ↔ (c.walkFrom s).outcome = .ok () := by
  rw [resolve_fst]
  cases (c.walkFrom s).outcome <;> simp [Except.map]

lemma resolve_eq_error_iff {e : Error} :
    (resolve s c).1 = .error e ↔ (c.walkFrom s).outcome = .error e := by
  rw [resolve_fst]
  cases (c.walkFrom s).outcome <;> simp [Except.map]

/-- **When references resolve.** They do if every version that the schema reaches is registered and
none of them leads back to itself. Otherwise the error names a version on a cycle, or it is the
answer for a version that is not registered, and the schema reaches that version. -/
theorem resolve_isOk_iff_acyclic (c : Client) (up : c.fault? .version = none) (s : Schema) :
    let fetch := c.registry.version
    ((∃ m, (resolve s c).1 = .ok m) ↔
      (∀ k, Reaches fetch s.references k → ∃ m, fetch k = .ok m) ∧
      ∀ k, Reaches fetch s.references k → ¬ Cyclic fetch k) ∧
    ∀ e, (resolve s c).1 = .error e → ∃ k, Reaches fetch s.references k ∧
      ((e = .cyclicReference k ∧ Cyclic fetch k ∧ ∃ m, fetch k = .ok m) ∨
        ∃ e', e = .registry e' ∧ fetch k = .error e') := by
  intro fetch
  have hanswer : c.answer = fetch := funext fun k => Client.answerTo_of_fault?_none up _
  rw [resolve_eq_ok_iff, Client.outcome_walkFrom_eq_ok_iff, Client.Resolvable, hanswer]
  refine ⟨?_, fun e he => ?_⟩
  · constructor
    · intro h
      exact ⟨fun k hk => (h k hk).1, fun k hk => (h k hk).2⟩
    · rintro ⟨hm, hc⟩ k hk
      exact ⟨hm k hk, hc k hk⟩
  · rw [resolve_eq_error_iff] at he
    obtain ⟨k, hk, hcause⟩ := Client.reaches_of_outcome_error (by simp) he
    rw [hanswer] at hk hcause
    refine ⟨k, hk, ?_⟩
    rcases hcause with ⟨rfl, hc⟩ | hcause
    · exact .inl ⟨rfl, hc, hc.fetched⟩
    · exact .inr hcause

/-- What a diamond reaches along two paths is not taken for a cycle. -/
theorem resolve_isOk_iff_acyclic_of_diamond_and_cycle :
    let text (rs : List Reference) : Schema := ⟨"message M", .protobuf, rs⟩
    let c := Client.reached [.register ⟨"c", text [], false⟩,
      .register ⟨"d", text [⟨"C", "c", 1⟩], false⟩, .register ⟨"a", text [⟨"B", "b", 1⟩], false⟩,
      .register ⟨"b", text [⟨"A", "a", 1⟩], false⟩]
    let diamond := text [⟨"D", "d", 1⟩, ⟨"C", "c", 1⟩, ⟨"C", "c", 1⟩]
    let cycle := text [⟨"C", "c", 1⟩, ⟨"A", "a", 1⟩]
    ((∃ m, (resolve diamond c).1 = .ok m) ∧ ¬ Cyclic c.registry.version ⟨"c", 1⟩) ∧
      (resolve cycle c).1 = .error (.cyclicReference ⟨"a", 1⟩) ∧
      Cyclic c.registry.version ⟨"a", 1⟩ := by
  intro text c diamond cycle
  have up : c.fault? .version = none := by decide +kernel
  -- in one step, so that the registry is computed once
  obtain ⟨ha, hb, hc, hd⟩ :
      c.answer ⟨"a", 1⟩ = .ok ⟨3, "a", 1, text [⟨"B", "b", 1⟩]⟩ ∧
      c.answer ⟨"b", 1⟩ = .ok ⟨4, "b", 1, text [⟨"A", "a", 1⟩]⟩ ∧
      c.answer ⟨"c", 1⟩ = .ok ⟨1, "c", 1, text []⟩ ∧
      c.answer ⟨"d", 1⟩ = .ok ⟨2, "d", 1, text [⟨"C", "c", 1⟩]⟩ := by
    decide +kernel
  constructor
  · obtain ⟨hiff, -⟩ := resolve_isOk_iff_acyclic c up diamond
    have hok : ∃ m, (resolve diamond c).1 = .ok m := by
      rw [resolve_eq_ok_iff]
      simp [Client.walkFrom, diamond, text, Client.outcome_walk_cons, Reference.key, hc, hd,
        Except.bind]
    exact ⟨hok, (hiff.mp hok).2 _ ⟨⟨"C", "c", 1⟩, by simp [diamond, text], .refl⟩⟩
  · obtain ⟨-, herror⟩ := resolve_isOk_iff_acyclic c up cycle
    have he : (resolve cycle c).1 = .error (.cyclicReference ⟨"a", 1⟩) := by
      rw [resolve_eq_error_iff]
      simp [Client.walkFrom, cycle, text, Client.outcome_walk_cons, Reference.key, ha, hb, hc,
        Except.bind]
    obtain ⟨k, -, ⟨hk, hcycle, -⟩ | ⟨e, hk, -⟩⟩ := herror _ he
    · cases hk
      exact ⟨he, hcycle⟩
    · cases hk

end Sources

end SchemaRegistry
