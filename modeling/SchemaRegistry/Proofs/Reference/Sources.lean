import SchemaRegistry.Proofs.Client.FirstVersions
import SchemaRegistry.Proofs.Reference.Unfolding
import SchemaRegistry.Proofs.Table

/-!
What resolving gives. The calls are the pre-order of the unfolded references and the names their
post-order, each where it came first. A name has the place of the version that it was resolved for
first and the text of the version that it was resolved for last.
-/

namespace SchemaRegistry

open Unfolding

namespace Sources

variable {c : Client} {s : Schema} {m : Sources} {es : List (String × String)} {n : String}
  {ts : List Unfolding} {vs : List (Reference × Registered)}

/-! ### Names and texts in step -/

/-- The names are those that have a text, each of them once. -/
structure InStep (m : Sources) : Prop where
  nodup : m.names.Nodup
  mem_iff : ∀ n, n ∈ m.names ↔ m.contains n

lemma names_insert (m : Sources) (n t : String) :
    (m.insert n t).names = if m.contains n then m.names else m.names ++ [n] := rfl

lemma get?_insert (m : Sources) (n t n' : String) :
    (m.insert n t).get? n' = if n' = n then some t else m.get? n' :=
  Table.get?_insert m.texts n n' t

lemma contains_insert (m : Sources) (n t n' : String) :
    (m.insert n t).contains n' ↔ n' = n ∨ m.contains n' := by
  have hget : ((m.insert n t).get? n').isSome ↔ n' = n ∨ (m.get? n').isSome := by
    rw [get?_insert]
    by_cases h : n' = n <;> simp [h]
  exact hget

lemma inStep_empty : InStep .empty :=
  ⟨List.nodup_nil, fun n => by simp [empty, contains, Table.contains]⟩

/-- A name is added to the names when it gets its first text, and not again. -/
lemma InStep.insert (h : m.InStep) (n t : String) : (m.insert n t).InStep := by
  by_cases hn : m.contains n
  · have hnames : (m.insert n t).names = m.names := by rw [names_insert, if_pos hn]
    refine ⟨hnames ▸ h.nodup, fun n' => ?_⟩
    rw [hnames, contains_insert, h.mem_iff]
    exact ⟨.inr, fun hn' => hn'.elim (fun e => e ▸ hn) id⟩
  · have hnames : (m.insert n t).names = m.names ++ [n] := by rw [names_insert, if_neg hn]
    refine ⟨hnames ▸ ?_, fun n' => ?_⟩
    · rw [List.nodup_append]
      refine ⟨h.nodup, List.nodup_singleton n, fun x hx y hy e => hn ?_⟩
      rw [← List.mem_singleton.mp hy, ← e]
      exact (h.mem_iff x).mp hx
    · rw [hnames, contains_insert, List.mem_append, List.mem_singleton, h.mem_iff, or_comm]

/-! ### Filling a map -/

/-- Puts entries into a map, from the left. -/
def insertAll (m : Sources) (es : List (String × String)) : Sources :=
  es.foldl (fun m e => m.insert e.1 e.2) m

lemma insertAll_concat (m : Sources) (es : List (String × String)) (e : String × String) :
    m.insertAll (es ++ [e]) = (m.insertAll es).insert e.1 e.2 := by
  simp [insertAll]

lemma InStep.insertAll (h : m.InStep) (es : List (String × String)) : (m.insertAll es).InStep := by
  induction es using List.reverseRecOn with
  | nil => exact h
  | append_singleton es e ih =>
    rw [insertAll_concat]
    exact ih.insert e.1 e.2

lemma texts_insertAll (m : Sources) (es : List (String × String)) :
    (m.insertAll es).texts = m.texts.insertAll es := by
  induction es using List.reverseRecOn with
  | nil => rfl
  | append_singleton es e ih =>
    rw [insertAll_concat, Table.insertAll_concat, ← ih]
    rfl

lemma contains_insertAll :
    (m.insertAll es).contains n ↔ m.contains n ∨ n ∈ es.map Prod.fst := by
  have hkeys : n ∈ (m.texts.insertAll es).keys ↔ n ∈ m.texts.keys ∨ n ∈ es.map Prod.fst :=
    Table.mem_keys_insertAll
  rwa [Table.mem_keys_iff, Table.mem_keys_iff, ← texts_insertAll] at hkeys

lemma names_insertAll (m : Sources) (es : List (String × String)) :
    (m.insertAll es).names =
      m.names ++ (es.map Prod.fst).eraseDups.filter fun n => !m.contains n := by
  induction es using List.reverseRecOn with
  | nil => simp [insertAll]
  | append_singleton es e ih =>
    rw [insertAll_concat, names_insert, List.map_append, List.map_singleton, eraseDups_concat, ih]
    by_cases hm : m.contains e.1 <;> by_cases he : e.1 ∈ es.map Prod.fst <;>
      simp [contains_insertAll, hm, he]

lemma get?_insertAll (m : Sources) (es : List (String × String)) (n : String) :
    (m.insertAll es).get? n =
      ((es.filter fun e => e.1 = n).getLast?.map Prod.snd).or (m.get? n) := by
  rw [get?, texts_insertAll, Table.get?_insertAll, Table.get?_ofList]
  rfl

lemma insertAll_insertAll (m : Sources) (es : List (String × String)) :
    (m.insertAll es).insertAll es = m.insertAll es := by
  have hnone : (es.map Prod.fst).eraseDups.filter (fun n => !(m.insertAll es).contains n) = [] := by
    rw [List.filter_eq_nil_iff]
    intro n hn
    simpa using contains_insertAll.mpr (.inr (List.mem_eraseDups.mp hn))
  have hnames : ((m.insertAll es).insertAll es).names = (m.insertAll es).names := by
    rw [names_insertAll, hnone, List.append_nil]
  have htexts : ((m.insertAll es).insertAll es).texts = (m.insertAll es).texts := by
    rw [texts_insertAll, texts_insertAll, Table.insertAll_insertAll]
  exact Sources.ext hnames htexts

/-! ### What was visited -/

/-- The visit of a reference with this name that came first. -/
def firstUnder? (vs : List (Reference × Registered)) (n : String) : Option (Reference × Registered) :=
  vs.find? fun v => v.1.name = n

/-- The visit of a reference with this name that came last. -/
def lastUnder? (vs : List (Reference × Registered)) (n : String) : Option (Reference × Registered) :=
  (vs.filter fun v => v.1.name = n).getLast?

/-- The name and the text that a visit puts into a map. -/
def entryOf (v : Reference × Registered) : String × String := (v.1.name, v.2.schema.text)

lemma addAll_eq_insertAll (m : Sources) (vs : List (Reference × Registered)) :
    addAll m vs = m.insertAll (vs.map entryOf) := by
  rw [addAll, insertAll, List.foldl_map]
  rfl

lemma names_addAll_empty (vs : List (Reference × Registered)) :
    (addAll .empty vs).names = (vs.map fun v => v.1.name).eraseDups := by
  rw [addAll_eq_insertAll, names_insertAll, List.map_map]
  exact List.filter_eq_self.mpr fun n _ => rfl

lemma get?_addAll_empty (vs : List (Reference × Registered)) (n : String) :
    (addAll .empty vs).get? n = (lastUnder? vs n).map fun v => v.2.schema.text := by
  have hnone : Sources.empty.get? n = none := rfl
  rw [addAll_eq_insertAll, get?_insertAll, hnone, Option.or_none, List.filter_map,
    List.getLast?_map, Option.map_map]
  rfl

lemma resolve_of_unfolds (h : Unfolds c.answer s.references ts) :
    resolve s c = (.ok (addAll .empty (postorder ts)),
      c.askedFor ((preorder ts).map fun v => v.1.key)) := by
  unfold resolve resolveInto
  rw [c.walkFrom_of_unfolds h]
  rfl

/-- **What resolving gives.** It succeeds if the references unfold into finitely many nodes. These
are then determined. It asks for the version of each node, in pre-order, and every call is answered;
the names are those of the nodes in post-order, without repetitions, and a name has the text of the
last of its nodes. -/
theorem resolve_unfolds (os : List Operation) (s : Schema) :
    let c := Client.reached os
    ((∃ m, (resolve s c).1 = .ok m) ↔ ∃ ts, Unfolds c.answer s.references ts) ∧
    ∀ m, (resolve s c).1 = .ok m → ∃ ts, (∀ ts', Unfolds c.answer s.references ts' ↔ ts' = ts) ∧
      (resolve s c).2 =
        { c with calls := c.calls ++ (preorder ts).map fun v => ⟨.version v.1.key, none⟩ } ∧
      (resolve s c).2.requests = c.requests ++ (preorder ts).map (fun v => .version v.1.key) ∧
      m.names = ((postorder ts).map fun v => v.1.name).eraseDups ∧
      ∀ n, m.get? n = (lastUnder? (postorder ts) n).map fun v => v.2.schema.text := by
  intro c
  have hiff : (∃ m, (resolve s c).1 = .ok m) ↔ ∃ ts, Unfolds c.answer s.references ts := by
    rw [resolve_eq_ok_iff, c.outcome_walkFrom_eq_ok_iff_unfolds]
  refine ⟨hiff, fun m hm => ?_⟩
  obtain ⟨ts, hts⟩ := hiff.mp ⟨m, hm⟩
  have hanswered : ∀ k ∈ (preorder ts).map (fun v => v.1.key), ∃ m, c.answer k = .ok m := by
    intro k hk
    obtain ⟨v, hv, rfl⟩ := List.mem_map.mp hk
    exact ⟨v.2, hts.fetched v hv⟩
  have hresolve := resolve_of_unfolds hts
  rw [hresolve] at hm ⊢
  cases hm
  refine ⟨ts, fun ts' => ⟨hts.unique, fun e => e ▸ hts⟩, ?_, ?_, names_addAll_empty _,
    get?_addAll_empty _⟩
  · rw [Client.askedFor_of_answered hanswered, List.map_map]
    rfl
  · rw [Client.requests_askedFor_of_answered hanswered, List.map_map]
    rfl

/-- One name for two versions, and one version under two names. -/
theorem resolve_unfolds_of_shared_name :
    let text (t : String) (rs : List Reference) : Schema := ⟨t, .protobuf, rs⟩
    let qs : List Registration :=
      [⟨"c", text "C" [], false⟩, ⟨"a", text "A" [⟨"C", "c", 1⟩], false⟩]
    let c := Client.reached (qs.map .register)
    let s := text "S" [⟨"A", "a", 1⟩, ⟨"C", "a", 1⟩]
    ∃ m, (resolve s c).1 = .ok m ∧ m.names = ["C", "A"] ∧ m.get? "C" = some "A" ∧
      m.get? "S" = none ∧
      (resolve s c).2.requests = c.requests ++
        [.version ⟨"a", 1⟩, .version ⟨"c", 1⟩, .version ⟨"a", 1⟩, .version ⟨"c", 1⟩] := by
  intro text qs c s
  have hanswer : ∀ q ∈ qs, ∃ id, c.answer ⟨q.subject, 1⟩ = .ok ⟨id, q.subject, 1, q.schema⟩ :=
    fun q hq => Client.exists_answer_of_registered (by decide) hq
  obtain ⟨_, ha⟩ : ∃ id, c.answer ⟨"a", 1⟩ = .ok ⟨id, "a", 1, text "A" [⟨"C", "c", 1⟩]⟩ :=
    hanswer ⟨"a", text "A" [⟨"C", "c", 1⟩], false⟩ (by simp [qs])
  obtain ⟨_, hc⟩ : ∃ id, c.answer ⟨"c", 1⟩ = .ok ⟨id, "c", 1, text "C" []⟩ :=
    hanswer ⟨"c", text "C" [], false⟩ (by simp [qs])
  have hbelow : Unfolds c.answer [⟨"C", "c", 1⟩] _ := .cons hc .nil .nil
  have hts : Unfolds c.answer s.references _ := .cons ha hbelow (.cons ha hbelow .nil)
  obtain ⟨hiff, hresult⟩ := resolve_unfolds (qs.map .register) s
  obtain ⟨m, hm⟩ := hiff.mpr ⟨_, hts⟩
  obtain ⟨ts, hunique, -, hrequests, hnames, htexts⟩ := hresult m hm
  cases (hunique _).mp hts
  exact ⟨m, hm, hnames, htexts "C", htexts "S", hrequests⟩

/-! ### Order -/

section Order

variable {v : Reference × Registered} {r : Reference}

lemma mem_of_firstUnder? (h : firstUnder? vs n = some v) : v ∈ vs :=
  List.mem_of_find?_eq_some h

lemma mem_of_lastUnder? (h : lastUnder? vs n = some v) : v ∈ vs :=
  List.mem_of_mem_filter (List.mem_of_getLast? h)

lemma mem_names_addAll_empty_iff : n ∈ (addAll .empty vs).names ↔ n ∈ vs.map fun v => v.1.name := by
  rw [names_addAll_empty, List.mem_eraseDups]

lemma exists_under_of_mem_names (h : n ∈ (addAll .empty vs).names) :
    ∃ first last, firstUnder? vs n = some first ∧ lastUnder? vs n = some last := by
  obtain ⟨v, hv, rfl⟩ := List.mem_map.mp (mem_names_addAll_empty_iff.mp h)
  have hfirst : (firstUnder? vs v.1.name).isSome := List.find?_isSome.mpr ⟨v, hv, by simp⟩
  have hlast : (lastUnder? vs v.1.name).isSome := by
    rw [lastUnder?, Option.isSome_iff_ne_none, ne_eq, List.getLast?_eq_none_iff,
      List.filter_eq_nil_iff]
    exact fun hnone => hnone v hv (by simp)
  exact ⟨_, _, (Option.some_get hfirst).symm, (Option.some_get hlast).symm⟩

lemma mem_names_of_dependenciesFirst (h : DependenciesFirst vs) (hv : v ∈ vs)
    (hr : r ∈ v.2.schema.references) : r.name ∈ (addAll .empty vs).names := by
  obtain ⟨u, hu, rfl⟩ := List.mem_map.mp (h.subset hv hr)
  exact mem_names_addAll_empty_iff.mpr (List.mem_map_of_mem hu)

lemma idxOf_names_addAll_empty_lt_iff {n' : String} (hn' : n' ∈ (addAll .empty vs).names)
    (hn : n ∈ (addAll .empty vs).names) :
    (addAll .empty vs).names.idxOf n' < (addAll .empty vs).names.idxOf n ↔
      (vs.map fun v => v.1.name).idxOf n' < (vs.map fun v => v.1.name).idxOf n := by
  rw [mem_names_addAll_empty_iff] at hn' hn
  rw [names_addAll_empty]
  exact idxOf_eraseDups_lt_iff hn' hn

lemma idxOf_names_lt_of_firstUnder? (h : DependenciesFirst vs) (hv : firstUnder? vs n = some v)
    (hr : r ∈ v.2.schema.references) :
    (addAll .empty vs).names.idxOf r.name < (addAll .empty vs).names.idxOf n := by
  have hmem := mem_of_firstUnder? hv
  have hn : v.1.name = n := by simpa using List.find?_some hv
  have hkey : n ∈ (addAll .empty vs).names :=
    mem_names_addAll_empty_iff.mpr (hn ▸ List.mem_map_of_mem hmem)
  rw [idxOf_names_addAll_empty_lt_iff (mem_names_of_dependenciesFirst h hmem hr) hkey]
  exact h.idxOf_lt (f := Reference.name) hv hr

end Order

/-- **In which order names come.** A name has the text of the version that it was resolved for last,
and the names of all references of that version are there. It stands where it was first needed, and
so after the names of all references of the version that it was resolved for first; these are those
of the last one if the two are the same version. -/
theorem resolve_dependenciesFirst (os : List Operation) (s : Schema) (m : Sources)
    (h : (resolve s (Client.reached os)).1 = .ok m) :
    let c := Client.reached os
    let vs := (c.walkFrom s).visits
    let names := vs.map fun v => v.1.name
    ∀ n ∈ m.names, ∃ first last, firstUnder? vs n = some first ∧ lastUnder? vs n = some last ∧
      c.answer first.1.key = .ok first.2 ∧ c.answer last.1.key = .ok last.2 ∧
      m.get? n = some last.2.schema.text ∧
      (∀ r ∈ last.2.schema.references, r.name ∈ m.names ∧
        (m.names.idxOf r.name < m.names.idxOf n ↔ names.idxOf r.name < names.idxOf n)) ∧
      (∀ r ∈ first.2.schema.references, m.names.idxOf r.name < m.names.idxOf n) ∧
      (first.1.key = last.1.key →
        ∀ r ∈ last.2.schema.references, m.names.idxOf r.name < m.names.idxOf n) := by
  intro c vs names n hn
  obtain ⟨ts, hts⟩ := (c.outcome_walkFrom_eq_ok_iff_unfolds s).mp (resolve_eq_ok_iff.mp ⟨m, h⟩)
  have hvs : vs = postorder ts := congrArg Walk.visits (Client.walkFrom_of_unfolds hts)
  have hdependencies : DependenciesFirst vs := hvs ▸ hts.dependenciesFirst.2
  rw [resolve_of_unfolds hts, ← hvs] at h
  cases h
  obtain ⟨first, last, hfirst, hlast⟩ := exists_under_of_mem_names hn
  have hanswer : ∀ v ∈ vs, c.answer v.1.key = .ok v.2 :=
    fun v hv => (Client.answer_of_mem_visits hv).1
  have hanswer1 := hanswer first (mem_of_firstUnder? hfirst)
  have hanswer2 := hanswer last (mem_of_lastUnder? hlast)
  -- a name stands where it was visited first, so only that version's references are before it
  have hplace : ∀ r ∈ first.2.schema.references,
      (addAll .empty vs).names.idxOf r.name < (addAll .empty vs).names.idxOf n :=
    fun r hr => idxOf_names_lt_of_firstUnder? hdependencies hfirst hr
  refine ⟨first, last, hfirst, hlast, hanswer1, hanswer2, ?_, fun r hr => ?_, hplace, fun hk => ?_⟩
  · rw [get?_addAll_empty, hlast]
    rfl
  · have hname := mem_names_of_dependenciesFirst hdependencies (mem_of_lastUnder? hlast) hr
    exact ⟨hname, idxOf_names_addAll_empty_lt_iff hname hn⟩
  · rw [hk, hanswer2] at hanswer1
    rw [Except.ok.inj hanswer1]
    exact hplace

/-- A version that is resolved twice under one name, with something else in between. -/
theorem resolve_dependenciesFirst_of_repeated :
    let text (t : String) (rs : List Reference) : Schema := ⟨t, .protobuf, rs⟩
    let qs : List Registration :=
      [⟨"c", text "C" [], false⟩, ⟨"a", text "A" [⟨"C", "c", 1⟩], false⟩]
    let c := Client.reached (qs.map .register)
    let s := text "S" [⟨"A", "a", 1⟩, ⟨"B", "c", 1⟩, ⟨"A", "a", 1⟩]
    ∃ m, (resolve s c).1 = .ok m ∧ m.get? "A" = some "A" ∧
      m.names.idxOf "C" < m.names.idxOf "A" := by
  intro text qs c s
  have hanswer : ∀ q ∈ qs, ∃ id, c.answer ⟨q.subject, 1⟩ = .ok ⟨id, q.subject, 1, q.schema⟩ :=
    fun q hq => Client.exists_answer_of_registered (by decide) hq
  obtain ⟨_, ha⟩ : ∃ id, c.answer ⟨"a", 1⟩ = .ok ⟨id, "a", 1, text "A" [⟨"C", "c", 1⟩]⟩ :=
    hanswer ⟨"a", text "A" [⟨"C", "c", 1⟩], false⟩ (by simp [qs])
  obtain ⟨_, hc⟩ : ∃ id, c.answer ⟨"c", 1⟩ = .ok ⟨id, "c", 1, text "C" []⟩ :=
    hanswer ⟨"c", text "C" [], false⟩ (by simp [qs])
  have hbelow : Unfolds c.answer [⟨"C", "c", 1⟩] _ := .cons hc .nil .nil
  have hts : Unfolds c.answer s.references _ :=
    .cons ha hbelow (.cons hc .nil (.cons ha hbelow .nil))
  have hm := congrArg Prod.fst (resolve_of_unfolds hts)
  have hmem : "A" ∈ ["C", "A", "B"] := by decide
  obtain ⟨first, last, hfirst, hlast, -, -, htext, -, -, hbefore⟩ :=
    resolve_dependenciesFirst (qs.map .register) s _ hm "A" hmem
  rw [Client.walkFrom_of_unfolds hts] at hfirst hlast
  cases hfirst
  cases hlast
  exact ⟨_, hm, htext, hbefore rfl ⟨"C", "c", 1⟩ List.mem_cons_self⟩

/-- A name that is resolved again, for another version, keeps its place: what that version
references comes after it. -/
theorem resolve_dependency_after_dependent :
    let text (t : String) (rs : List Reference) : Schema := ⟨t, .protobuf, rs⟩
    let qs : List Registration := [⟨"x", text "X" [], false⟩, ⟨"c", text "C" [], false⟩,
      ⟨"y", text "Y" [⟨"C", "c", 1⟩], false⟩]
    let c := Client.reached (qs.map .register)
    let s := text "S" [⟨"N", "x", 1⟩, ⟨"N", "y", 1⟩]
    ∃ m y, (resolve s c).1 = .ok m ∧
      lastUnder? (c.walkFrom s).visits "N" = some (⟨"N", "y", 1⟩, y) ∧
      c.answer ⟨"y", 1⟩ = .ok y ∧ y.schema = text "Y" [⟨"C", "c", 1⟩] ∧ m.get? "N" = some "Y" ∧
      m.names = ["N", "C"] ∧ ¬ m.names.idxOf "C" < m.names.idxOf "N" := by
  intro text qs c s
  have hanswer : ∀ q ∈ qs, ∃ id, c.answer ⟨q.subject, 1⟩ = .ok ⟨id, q.subject, 1, q.schema⟩ :=
    fun q hq => Client.exists_answer_of_registered (by decide) hq
  obtain ⟨_, hx⟩ : ∃ id, c.answer ⟨"x", 1⟩ = .ok ⟨id, "x", 1, text "X" []⟩ :=
    hanswer ⟨"x", text "X" [], false⟩ (by simp [qs])
  obtain ⟨_, hc⟩ : ∃ id, c.answer ⟨"c", 1⟩ = .ok ⟨id, "c", 1, text "C" []⟩ :=
    hanswer ⟨"c", text "C" [], false⟩ (by simp [qs])
  obtain ⟨_, hy⟩ : ∃ id, c.answer ⟨"y", 1⟩ = .ok ⟨id, "y", 1, text "Y" [⟨"C", "c", 1⟩]⟩ :=
    hanswer ⟨"y", text "Y" [⟨"C", "c", 1⟩], false⟩ (by simp [qs])
  have hts : Unfolds c.answer s.references _ :=
    .cons hx .nil (.cons hy (.cons hc .nil .nil) .nil)
  have horder : ¬ ["N", "C"].idxOf "C" < ["N", "C"].idxOf "N" := by decide
  refine ⟨_, _, congrArg Prod.fst (resolve_of_unfolds hts), ?_, hy, rfl, rfl, rfl, horder⟩
  rw [Client.walkFrom_of_unfolds hts]
  rfl

end Sources

end SchemaRegistry
