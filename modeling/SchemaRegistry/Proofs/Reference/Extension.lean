import SchemaRegistry.Proofs.Reference.Sources

/-!
Resolving into a map that is there. A walk that succeeds leaves the names of the map in front, puts
the texts of a fresh result before those of the map, and changes nothing when it is repeated. A walk
that fails leaves what it visited before, and that is closed: with a reference it has everything
that its target depends on.
-/

namespace SchemaRegistry

open Relation

/-! ### Walks of clients that answer more -/

namespace Client

variable {c c' : Client} {path : List Key} {rs : List Reference} {v : Reference × Registered}
  {k : Key}

/-- What `c` answers with a version, `c'` answers with the same one. -/
def AnswersWithin (c c' : Client) : Prop := ∀ k m, c.answer k = .ok m → c'.answer k = .ok m

lemma answersWithin_askedFor (c : Client) (ks : List Key) : c.AnswersWithin (c.askedFor ks) :=
  fun k _ h => (c.answer_askedFor ks k).trans h

/-- Where a walk succeeds, more answers make no difference. -/
lemma walk_of_answersWithin (hc : c.AnswersWithin c') (h : (c.walk path rs).outcome = .ok ()) :
    c'.walk path rs = c.walk path rs := by
  induction path, rs using walk.induct c with
  | case1 path => rw [walk_nil, walk_nil]
  | case2 path r rs hp =>
    rw [walk_of_mem hp] at h
    cases h
  | case3 path r rs hp e he =>
    rw [walk_of_error hp he] at h
    cases h
  | case4 path r rs hp m hm ihbelow ihafter =>
    obtain ⟨-, ⟨m', hm', hbelow⟩, hafter⟩ := outcome_walk_cons_eq_ok_iff.mp h
    cases hm.symm.trans hm'
    rw [walk_of_ok hp hm, walk_of_ok hp (hc _ _ hm), ihbelow hbelow, ihafter hafter]

/-- Where a walk fails, its visits are the first ones of a walk with more answers. -/
lemma visits_prefix_of_answersWithin (hc : c.AnswersWithin c') (path : List Key)
    (rs : List Reference) : (c.walk path rs).visits <+: (c'.walk path rs).visits := by
  induction path, rs using walk.induct c with
  | case1 path => rw [walk_nil, walk_nil]
  | case2 path r rs hp => simp [walk_of_mem hp]
  | case3 path r rs hp e he => simp [walk_of_error hp he]
  | case4 path r rs hp m hm ihbelow ihafter =>
    rw [walk_of_ok hp hm, walk_of_ok hp (hc _ _ hm), Walk.visits_ask, Walk.visits_ask]
    cases hb : (c.walk (r.key :: path) m.schema.references).outcome with
    | ok u =>
      -- below the reference both walks are the same
      have hsame := walk_of_answersWithin hc hb
      rw [Walk.visit_of_ok hb, Walk.visit_of_ok (hsame ▸ hb), hsame]
      exact (List.prefix_append_right_inj _).mpr (List.cons_prefix_cons.mpr ⟨rfl, ihafter⟩)
    | error e =>
      rw [Walk.visit_of_error hb]
      cases hb' : (c'.walk (r.key :: path) m.schema.references).outcome with
      | ok u =>
        rw [Walk.visit_of_ok hb']
        exact ihbelow.trans (List.prefix_append _ _)
      | error e' =>
        rw [Walk.visit_of_error hb']
        exact ihbelow

/-! ### What was visited before a failure -/

lemma dependenciesFirst_walk (c : Client) (path : List Key) (rs : List Reference) :
    DependenciesFirst (c.walk path rs).visits := by
  have hnil : DependenciesFirst [] := fun before v after h => by simp at h
  induction path, rs using walk.induct c with
  | case1 path => simpa using hnil
  | case2 path r rs hp => simpa [walk_of_mem hp] using hnil
  | case3 path r rs hp e he => simpa [walk_of_error hp he] using hnil
  | case4 path r rs hp m hm ihbelow ihafter =>
    rw [walk_of_ok hp hm, Walk.visits_ask]
    cases hb : (c.walk (r.key :: path) m.schema.references).outcome with
    | error e =>
      rw [Walk.visit_of_error hb]
      exact ihbelow
    | ok u =>
      rw [Walk.visit_of_ok hb]
      obtain ⟨ts, hts, hwalk⟩ := exists_unfolds hb
      refine ihbelow.insert ?_ ihafter
      rw [hwalk]
      exact hts.dependenciesFirst.1

lemma exists_visit_of_leads (hv : v ∈ (c.walk path rs).visits)
    (hk : ReflTransGen (References c.answer) v.1.key k) :
    ∃ u ∈ (c.walk path rs).visits, u.1.key = k := by
  induction hk with
  | refl => exact ⟨v, hv, rfl⟩
  | tail _ href ih =>
    obtain ⟨u, hu, rfl⟩ := ih
    obtain ⟨m, hm, r, hr, rfl⟩ := href
    cases (answer_of_mem_visits hu).1.symm.trans hm
    obtain ⟨u', hu', rfl⟩ := List.mem_map.mp ((dependenciesFirst_walk c path rs).subset hu hr)
    exact ⟨u', hu', rfl⟩

end Client

namespace Sources

variable {c : Client} {s : Schema} {m f : Sources} {vs : List (Reference × Registered)} {n : String}

lemma names_addAll (m : Sources) (vs : List (Reference × Registered)) :
    (addAll m vs).names = m.names ++ (addAll .empty vs).names.filter fun n => !m.contains n := by
  rw [addAll_eq_insertAll, names_insertAll, names_addAll_empty, List.map_map]
  rfl

lemma get?_addAll (m : Sources) (vs : List (Reference × Registered)) (n : String) :
    (addAll m vs).get? n = ((addAll .empty vs).get? n).or (m.get? n) := by
  have hnone : Sources.empty.get? n = none := rfl
  rw [addAll_eq_insertAll, addAll_eq_insertAll, get?_insertAll, get?_insertAll, hnone,
    Option.or_none]

lemma addAll_addAll (m : Sources) (vs : List (Reference × Registered)) :
    addAll (addAll m vs) vs = addAll m vs := by
  rw [addAll_eq_insertAll, addAll_eq_insertAll, insertAll_insertAll]

lemma contains_addAll_of_contains (hn : m.contains n) : (addAll m vs).contains n := by
  rw [addAll_eq_insertAll]
  exact contains_insertAll.mpr (.inl hn)

lemma contains_addAll_of_mem {v : Reference × Registered} (hv : v ∈ vs) :
    (addAll m vs).contains v.1.name := by
  rw [addAll_eq_insertAll, contains_insertAll, List.map_map]
  exact .inr (List.mem_map_of_mem hv)

lemma InStep.addAll (h : m.InStep) (vs : List (Reference × Registered)) : (m.addAll vs).InStep := by
  rw [addAll_eq_insertAll]
  exact h.insertAll _

lemma resolveInto_fst (s : Schema) (m : Sources) (c : Client) :
    (resolveInto s m c).1 = ((c.walkFrom s).outcome, addAll m (c.walkFrom s).visits) := rfl

lemma resolve_eq_ok (h : (resolve s c).1 = .ok f) :
    (c.walkFrom s).outcome = .ok () ∧ f = addAll .empty (c.walkFrom s).visits := by
  have ho := resolve_eq_ok_iff.mp ⟨f, h⟩
  rw [resolve_fst, ho] at h
  exact ⟨ho, (Except.ok.inj h).symm⟩

/-- **What resolving into a map does to it.** It succeeds or fails as a fresh call does, with the
same calls. If it succeeds the names of the map are followed by the new ones of the fresh result, a
text of the fresh result goes before one of the map, and the next such call changes nothing. If it
fails, what was visited so far was put into the map: the first visits of any walk that gets answers
to more, and all names that the visited versions depend on. Names and texts stay in step, so that to
have a text and to be among the names are the same. -/
theorem resolveInto_extends (c : Client) (s : Schema) (m : Sources) :
    let fresh := (resolve s c).1
    let m' := (resolveInto s m c).1.2
    let c' := (resolveInto s m c).2
    let vs := (c.walkFrom s).visits
    (resolveInto s m c).1.1 = fresh.map (fun _ => ()) ∧ c' = (resolve s c).2 ∧
    (m.InStep → m'.InStep ∧ ∀ n, n ∈ m'.names ↔ m'.contains n) ∧
    (∀ f, fresh = .ok f →
      m'.names = m.names ++ f.names.filter (fun n => !m.contains n) ∧
      (m.InStep → m'.names = m.names ++ f.names.filter (· ∉ m.names)) ∧
      (∀ n, m'.get? n = (f.get? n).or (m.get? n)) ∧
      (resolveInto s m' c').1 = (.ok (), m')) ∧
    ∀ e, fresh = .error e →
      m' = m.addAll vs ∧
      (∀ c₁, c.AnswersWithin c₁ → vs <+: (c₁.walkFrom s).visits) ∧
      m.names <+: m'.names ∧ (∀ n, m.contains n → m'.contains n) ∧
      ∀ v ∈ vs, m'.contains v.1.name ∧
        ∀ k t, ReflTransGen (References c.answer) v.1.key k → c.answer k = .ok t →
          ∀ r ∈ t.schema.references, m'.contains r.name := by
  intro fresh m' c' vs
  have hnames : m'.names = m.names ++ (addAll .empty vs).names.filter fun n => !m.contains n :=
    names_addAll m vs
  refine ⟨?outcome, rfl, fun hm => ⟨hm.addAll vs, (hm.addAll vs).mem_iff⟩, fun f hf => ?ok,
    fun e _ => ?error⟩
  case outcome =>
    change (c.walkFrom s).outcome = (resolve s c).1.map fun _ => ()
    rw [resolve_fst]
    cases (c.walkFrom s).outcome <;> rfl
  case ok =>
    obtain ⟨ho, rfl⟩ := resolve_eq_ok hf
    refine ⟨hnames, fun hm => ?_, get?_addAll m vs, ?_⟩
    · rw [hnames]
      congr 2
      funext n
      rw [← Bool.decide_coe (m.contains n), decide_not, decide_eq_decide.mpr (hm.mem_iff n)]
    · have hagain : c'.walkFrom s = c.walkFrom s :=
        Client.walk_of_answersWithin (c.answersWithin_askedFor _) ho
      rw [resolveInto_fst, hagain, ho]
      exact congrArg (Prod.mk _) (addAll_addAll m vs)
  case error =>
    refine ⟨rfl, fun c₁ hc₁ => Client.visits_prefix_of_answersWithin hc₁ _ _,
      hnames ▸ List.prefix_append _ _, fun n => contains_addAll_of_contains,
      fun v hv => ⟨contains_addAll_of_mem hv, ?_⟩⟩
    -- a visited version has everything below it visited too, however the walk went on
    intro k t hk ht r hr
    obtain ⟨u, hu, rfl⟩ := Client.exists_visit_of_leads hv hk
    cases (Client.answer_of_mem_visits hu).1.symm.trans ht
    obtain ⟨u', hu', rfl⟩ := List.mem_map.mp ((c.dependenciesFirst_walk _ _).subset hu hr)
    exact contains_addAll_of_mem hu'

/-- A map with an old text and one more name, before and after a reference that is not registered. -/
theorem resolveInto_extends_below_missing :
    let text (t : String) (rs : List Reference) : Schema := ⟨t, .protobuf, rs⟩
    let c := Client.reached [.register ⟨"c", text "C" [], false⟩,
      .register ⟨"a", text "A" [⟨"C", "c", 1⟩], false⟩]
    let found := text "S" [⟨"A", "a", 1⟩]
    let broken := text "S" [⟨"A", "a", 1⟩, ⟨"B", "b", 1⟩, ⟨"D", "c", 1⟩]
    let m := (Sources.empty.insert "C" "old").insert "Z" "Z"
    let m₁ := (resolveInto found m c).1.2
    let m₂ := (resolveInto broken m c).1.2
    m₁.names = ["C", "Z", "A"] ∧ m₁.get? "C" = some "C" ∧ m₁.get? "Z" = some "Z" ∧
      (resolveInto broken m c).1.1 = .error (.registry (.subjectNotFound "b")) ∧
      m.names <+: m₂.names ∧ "A" ∈ m₂.names ∧ "C" ∈ m₂.names := by
  intro text c found broken m m₁ m₂
  -- in one step, so that the registry is computed once
  obtain ⟨ha, hb, hc⟩ :
      c.answer ⟨"a", 1⟩ = .ok ⟨2, "a", 1, text "A" [⟨"C", "c", 1⟩]⟩ ∧
      c.answer ⟨"b", 1⟩ = .error (.subjectNotFound "b") ∧
      c.answer ⟨"c", 1⟩ = .ok ⟨1, "c", 1, text "C" []⟩ := by
    decide +kernel
  have hm : m.InStep := (inStep_empty.insert "C" "old").insert "Z" "Z"
  have hts : Unfolds c.answer found.references _ := .cons ha (.cons hc .nil .nil) .nil
  obtain ⟨-, -, -, hok, -⟩ := resolveInto_extends c found m
  obtain ⟨-, hnames, htexts, -⟩ := hok _ (congrArg Prod.fst (resolve_of_unfolds hts))
  have hwalk : c.walkFrom broken = ⟨[⟨"a", 1⟩, ⟨"c", 1⟩, ⟨"b", 1⟩],
      [(⟨"C", "c", 1⟩, ⟨1, "c", 1, text "C" []⟩),
        (⟨"A", "a", 1⟩, ⟨2, "a", 1, text "A" [⟨"C", "c", 1⟩]⟩)],
      .error (.registry (.subjectNotFound "b"))⟩ := by
    rw [Client.walkFrom, Client.walk_of_ok (by simp) ha, Client.walk_of_ok (by decide) hc,
      Client.walk_of_error (by simp) hb]
    simp [text, Walk.visit, Walk.ask, Walk.stop, Reference.key]
  have herror : (resolve broken c).1 = .error (.registry (.subjectNotFound "b")) := by
    rw [resolve_eq_error_iff, hwalk]
  obtain ⟨hlike, -, hstep, -, hfailed⟩ := resolveInto_extends c broken m
  have hlisted := (hstep hm).2
  obtain ⟨-, -, hprefix, -, hclosed⟩ := hfailed _ herror
  rw [hwalk] at hclosed
  obtain ⟨hname, hbelow⟩ := hclosed (⟨"A", "a", 1⟩, ⟨2, "a", 1, text "A" [⟨"C", "c", 1⟩]⟩) (by simp)
  have hdependency := hbelow _ _ .refl ha ⟨"C", "c", 1⟩ (by simp [text])
  refine ⟨hnames hm, htexts "C", htexts "Z", ?_, hprefix, (hlisted _).mpr hname,
    (hlisted _).mpr hdependency⟩
  rw [hlike, herror]
  rfl

end Sources

end SchemaRegistry
