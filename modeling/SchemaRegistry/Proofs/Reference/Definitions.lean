import Mathlib.Data.List.Perm.Basic
import SchemaRegistry.Proofs.Avro.Record
import SchemaRegistry.Proofs.Client.FirstVersions
import SchemaRegistry.Proofs.Reference.Traversal
import SchemaRegistry.Proofs.Reference.Unfolding
import SchemaRegistry.Proofs.Table

/-!
The definitions that a schema is linked against: one for each version that it reaches, after those
of everything that the version references. One schema under two subjects makes two versions, so
that its definition comes twice, which linking does not accept.
-/

namespace SchemaRegistry

/-- What is answered for a key has that key. -/
def Client.Keyed (c : Client) : Prop :=
  ∀ {k : Key} {m : Registered}, c.answer k = .ok m → m.key = k

lemma Client.keyed_reached (os : List Operation) : (reached os).Keyed := key_of_answer_reached

namespace Avro

/-! ### Orders of what is reached -/

/-- All versions that a schema reaches, each once and after everything that it references. -/
structure DependencyOrder (c : Client) (s : Schema) (ms : List Registered) : Prop where
  nodup : (ms.map Registered.key).Nodup
  keys : ∀ k, k ∈ ms.map Registered.key ↔ Reaches c.answer s.references k
  answered : ∀ m ∈ ms, c.answer m.key = .ok m
  before : ∀ m ∈ ms, ∀ r ∈ m.schema.references,
    (ms.map Registered.key).idxOf r.key < (ms.map Registered.key).idxOf m.key

namespace DependencyOrder

variable {c : Client} {s : Schema} {ms : List Registered} (h : DependencyOrder c s ms)
include h

lemma mem_iff {m : Registered} :
    m ∈ ms ↔ Reaches c.answer s.references m.key ∧ c.answer m.key = .ok m := by
  rw [← h.keys]
  constructor
  · exact fun hm => ⟨List.mem_map_of_mem hm, h.answered m hm⟩
  · rintro ⟨hk, hanswer⟩
    obtain ⟨m', hm', hkey⟩ := List.mem_map.mp hk
    have hanswer' := h.answered m' hm'
    rw [hkey, hanswer] at hanswer'
    rwa [Except.ok.inj hanswer']

lemma exists_graph :
    ∃ g, (Graph.build s c).1 = .ok g ∧ g.dependencyCount = ms.length := by
  have hfetched : ∀ k, Reaches c.answer s.references k → ∃ m, c.answer k = .ok m := by
    intro k hk
    obtain ⟨m, hm, rfl⟩ := List.mem_map.mp ((h.keys k).mpr hk)
    exact ⟨m, h.answered m hm⟩
  obtain ⟨g, hg⟩ := (Graph.build_isOk_iff s c).mpr hfetched
  have htraces := (Graph.traces_of_build hg).1
  have hperm : g.versions.keys.Perm (ms.map Registered.key) := by
    refine (List.perm_ext_iff_of_nodup htraces.nodup h.nodup).mpr fun k => ?_
    rw [htraces.keys, h.keys]
  refine ⟨g, hg, ?_⟩
  have hlength := hperm.length_eq
  rwa [Table.keys, List.length_map, List.length_map] at hlength

lemma nodup_ids_iff (hkeyed : c.Keyed) : (ms.map Registered.id).Nodup ↔ ∀ k k' m m',
    Reaches c.answer s.references k → Reaches c.answer s.references k' →
    c.answer k = .ok m → c.answer k' = .ok m' → m.id = m'.id → k = k' := by
  rw [List.nodup_map_iff_inj_on h.nodup.of_map]
  constructor
  · intro hinj k k' m m' hk hk' hm hm' hid
    obtain rfl := hkeyed hm
    obtain rfl := hkeyed hm'
    rw [hinj m (h.mem_iff.mpr ⟨hk, hm⟩) m' (h.mem_iff.mpr ⟨hk', hm'⟩) hid]
  · intro hinj m hm m' hm' hid
    obtain ⟨hk, hanswer⟩ := h.mem_iff.mp hm
    obtain ⟨hk', hanswer'⟩ := h.mem_iff.mp hm'
    rw [hinj m.key m'.key m m' hk hk' hanswer hanswer' hid, hanswer'] at hanswer
    exact (Except.ok.inj hanswer).symm

end DependencyOrder

/-! ### First visits -/

section FirstVisits

variable {vs : List (Reference × Registered)} {seen : List Key}

lemma keys_firstVisits : (firstVisits seen vs).map Registered.key =
    ((vs.map fun v => v.2.key).filter fun k => k ∉ seen).eraseDups := by
  induction vs generalizing seen with
  | nil => simp [firstVisits]
  | cons v vs ih =>
    unfold firstVisits
    split
    · next h =>
      rw [ih, List.map_cons, List.filter_cons_of_neg (by simpa using h)]
    · next h =>
      rw [List.map_cons, ih, List.map_cons, List.filter_cons_of_pos (by simpa using h),
        List.eraseDups_cons, List.filter_filter]
      congr 3
      funext k
      by_cases e : k = v.2.key <;> simp [e]

lemma firstVisits_subset : firstVisits seen vs ⊆ vs.map Prod.snd := by
  induction vs generalizing seen with
  | nil => exact List.Subset.refl _
  | cons v vs ih =>
    unfold firstVisits
    split
    · exact List.subset_cons_of_subset _ ih
    · exact List.cons_subset_cons _ ih

end FirstVisits

/-- The versions that a schema is linked against, in the order of their definitions. -/
def origins (c : Client) (s : Schema) : List Registered := firstVisits [] (c.walkFrom s).visits

section Origins

variable {c : Client} {s : Schema} {m : Registered}

lemma resolve_fst_of_walk (hwalk : (c.walkFrom s).outcome = .ok ()) :
    (resolve s c).1 = link s.text ((origins c s).map fun m => m.schema.text) := by
  have hfst : (resolve s c).1 = (c.walkFrom s).outcome.bind fun _ =>
      link s.text (definitions (c.walkFrom s).visits) := rfl
  rw [hfst, hwalk]
  rfl

variable (hkeyed : c.Keyed)
include hkeyed

lemma keys_origins (s : Schema) : (origins c s).map Registered.key =
    ((c.walkFrom s).visits.map fun v => v.1.key).eraseDups := by
  have hkeys : (c.walkFrom s).visits.map (fun v => v.2.key) =
      (c.walkFrom s).visits.map fun v => v.1.key :=
    List.map_congr_left fun v hv => hkeyed (Client.answer_of_mem_visits hv).1
  rw [origins, keys_firstVisits, hkeys]
  simp

lemma answer_of_mem_origins (h : m ∈ origins c s) :
    c.answer m.key = .ok m ∧ m.key ∈ (c.walkFrom s).visits.map fun v => v.1.key := by
  obtain ⟨v, hv, rfl⟩ := List.mem_map.mp (firstVisits_subset h)
  have hanswer := (Client.answer_of_mem_visits hv).1
  rw [hkeyed hanswer]
  exact ⟨hanswer, List.mem_map_of_mem hv⟩

lemma exists_first_visit (h : m ∈ origins c s) :
    ∃ r, (c.walkFrom s).visits.find? (fun v => v.1.key = m.key) = some (r, m) := by
  obtain ⟨hanswer, hmem⟩ := answer_of_mem_origins hkeyed h
  obtain ⟨v, hv, hkey⟩ := List.mem_map.mp hmem
  obtain ⟨⟨r, m'⟩, hfirst⟩ :
      ∃ u, (c.walkFrom s).visits.find? (fun v => v.1.key = m.key) = some u :=
    Option.isSome_iff_exists.mp (List.find?_isSome.mpr ⟨v, hv, by simpa using hkey⟩)
  have hr : r.key = m.key := by simpa using List.find?_some hfirst
  have hanswer' := (Client.answer_of_mem_visits (List.mem_of_find?_eq_some hfirst)).1
  rw [hr, hanswer] at hanswer'
  cases hanswer'
  exact ⟨r, hfirst⟩

/-- A walk that succeeds puts what it reaches in an order. -/
lemma dependencyOrder_origins (hwalk : (c.walkFrom s).outcome = .ok ()) :
    DependencyOrder c s (origins c s) := by
  obtain ⟨ts, hts⟩ := (c.outcome_walkFrom_eq_ok_iff_unfolds s).mp hwalk
  have hvisits : DependenciesFirst (c.walkFrom s).visits := by
    rw [Client.walkFrom_of_unfolds hts]
    exact hts.dependenciesFirst.2
  refine ⟨?_, fun k => ?_, fun m hm => (answer_of_mem_origins hkeyed hm).1, fun m hm r hr => ?_⟩
  · rw [keys_origins hkeyed]
    exact nodup_eraseDups _
  · rw [keys_origins hkeyed, List.mem_eraseDups]
    exact Client.mem_visits_iff hwalk
  · obtain ⟨_, hfirst⟩ := exists_first_visit hkeyed hm
    have hmem : r.key ∈ (c.walkFrom s).visits.map fun v => v.1.key := by
      obtain ⟨v, hv, rfl⟩ := List.mem_map.mp
        (hvisits.subset (List.mem_of_find?_eq_some hfirst) hr)
      exact List.mem_map_of_mem hv
    rw [keys_origins hkeyed, idxOf_eraseDups_lt_iff hmem (answer_of_mem_origins hkeyed hm).2]
    exact hvisits.idxOf_lt (f := Reference.key) hfirst hr

end Origins

/-! ### Order -/

/-- **What a schema is linked against.** One definition for each version that it reaches, after the
definitions of everything that the version references. If linking succeeds, there are as many
dependencies as there are versions in the graph of the schema. They are what the definitions stand
for, in that order, and the schema itself comes last. -/
theorem resolve_links_origins (os : List Operation) (s : Schema)
    (h : ((Client.reached os).walkFrom s).outcome = .ok ()) :
    let c := Client.reached os
    let texts := (origins c s).map fun m => m.schema.text
    (resolve s c).1 = link s.text texts ∧ DependencyOrder c s (origins c s) ∧
    ∀ l, (resolve s c).1 = .ok l →
      (∃ g, (Graph.build s c).1 = .ok g ∧ l.dependencies.length = g.dependencyCount) ∧
      ∃ found scope, parseDefinitions .empty texts = .ok found ∧
        (readAll found.keys s.text).run { pending := found } = .ok (l, scope) ∧
        l.all.map some = texts.map scope.shapeOf? ++ [some l.root] := by
  intro c texts
  have horder : DependencyOrder c s (origins c s) :=
    dependencyOrder_origins (Client.keyed_reached os) h
  have hresolve : (resolve s c).1 = link s.text texts := resolve_fst_of_walk h
  refine ⟨hresolve, horder, fun l hl => ?_⟩
  obtain ⟨-, found, scope, hfound, hread, hshapes⟩ := link_eq_ok (hresolve.symm.trans hl)
  obtain ⟨g, hg, hcount⟩ := horder.exists_graph
  refine ⟨⟨g, hg, ?_⟩, found, scope, hfound, hread, ?_⟩
  · have hlength := congrArg List.length hshapes
    rw [List.length_map, List.length_map, List.length_map] at hlength
    rw [hlength, hcount]
  · rw [Linked.all, List.map_append, hshapes]
    rfl

lemma exists_readAll_diamond {text : String}
    (h : Json.parse? text = some (recordOf "S" ["A", "B"])) :
    let found : Table Name Json :=
      ⟨[(⟨"C", none⟩, recordOf "C" []), (⟨"A", none⟩, recordOf "A" ["C"]),
        (⟨"B", none⟩, recordOf "B" ["C"])]⟩
    ∃ p, (readAll found.keys text).run { pending := found } = .ok p := by
  intro found
  let name (t : String) : Name := ⟨t, none⟩
  let record (t : String) (ts : List String) : Shape := knownRecord (name t) name ts
  have hname {t : String} (ht : t ∈ ["A", "B", "C", "S"]) : Declares t (name t) := by
    have hdeclared : Name.declared? none t = some (name t) := by
      revert t
      decide +kernel
    exact ⟨hdeclared, rfl⟩
  have hknown {σ : Scope} {t : String} (ht : t ∈ ["A", "B", "C"])
      (hdefined : σ.defined.contains (name t)) : Known σ none t (name t) := by
    obtain ⟨hid, hword, hprim, hused⟩ : isIdentifier t.toList ∧
        t ∉ ["record", "enum", "fixed", "array", "map"] ∧ Primitive.ofName? t = none ∧
        Name.used? none t = some (name t) := by
      clear hdefined
      revert t
      decide +kernel
    exact ⟨hid, hword, hprim, hused, hdefined⟩
  let σ₁ := Scope.withPending { pending := found } (name "C") (record "C" [])
  let σ₂ := σ₁.withPending (name "A") (record "A" ["C"])
  let σ₃ := σ₂.withPending (name "B") (record "B" ["C"])
  have hC : readPending 3 found.keys { pending := found } =
      readPending 3 [name "A", name "B"] σ₁ :=
    readPending_recordOf rfl (hname (by decide)) List.nodup_nil nofun
  have hA : readPending 3 [name "A", name "B"] σ₁ = readPending 3 [name "B"] σ₂ :=
    readPending_recordOf rfl (hname (by decide)) (List.nodup_singleton _)
      (List.forall_mem_singleton.mpr (hknown (by decide) rfl))
  have hB : readPending 3 [name "B"] σ₂ = readPending 3 [] σ₃ :=
    readPending_recordOf rfl (hname (by decide)) (List.nodup_singleton _)
      (List.forall_mem_singleton.mpr (hknown (by decide) rfl))
  have hpending : readPending 3 found.keys { pending := found } = .ok ((), σ₃) :=
    hC.trans (hA.trans hB)
  have hroot : readShape (readDefinition 3) none (recordOf "S" ["A", "B"]) σ₃ = _ :=
    readShape_recordOf (hname (by decide)) (by decide)
      (List.forall_mem_cons.mpr ⟨hknown (by decide) rfl,
        List.forall_mem_singleton.mpr (hknown (by decide) rfl)⟩)
  have hparse : (liftM (parseJson text) : Reading Json) σ₃ = .ok (recordOf "S" ["A", "B"], σ₃) := by
    rw [parseJson, h]
    rfl
  change ∃ p, readAll found.keys text { pending := found } = .ok p
  have hlength : found.keys.length = 3 := rfl
  rw [readAll, hlength, reading_bind_of_ok hpending, reading_bind_of_ok hparse,
    reading_bind_of_ok hroot]
  exact ⟨_, rfl⟩

/-- Two versions that use the same one. -/
theorem resolve_links_origins_of_diamond :
    let record (n : String) (ts : List String) (rs : List Reference) : Schema :=
      ⟨(recordOf n ts).compact, .avro, rs⟩
    let qs : List Registration := [⟨"c", record "C" [] [], false⟩,
      ⟨"a", record "A" ["C"] [⟨"C", "c", 1⟩], false⟩,
      ⟨"b", record "B" ["C"] [⟨"C", "c", 1⟩], false⟩]
    let c := Client.reached (qs.map .register)
    let s := record "S" ["A", "B"] [⟨"A", "a", 1⟩, ⟨"B", "b", 1⟩]
    (c.walkFrom s).outcome = .ok () ∧
    (c.walkFrom s).asked = [⟨"a", 1⟩, ⟨"c", 1⟩, ⟨"b", 1⟩, ⟨"c", 1⟩] ∧
    (origins c s).map Registered.key = [⟨"c", 1⟩, ⟨"a", 1⟩, ⟨"b", 1⟩] ∧
    ∃ l g, (resolve s c).1 = .ok l ∧ l.all.length = 4 ∧
      (Graph.build s c).1 = .ok g ∧ g.dependencyCount = 3 := by
  intro record qs c s
  have hanswer : ∀ q ∈ qs, ∃ id, c.answer ⟨q.subject, 1⟩ = .ok ⟨id, q.subject, 1, q.schema⟩ :=
    fun q hq => Client.exists_answer_of_registered (by decide) hq
  obtain ⟨i, hc⟩ : ∃ id, c.answer ⟨"c", 1⟩ = .ok ⟨id, "c", 1, record "C" [] []⟩ :=
    hanswer ⟨"c", _, false⟩ (.head _)
  obtain ⟨j, ha⟩ : ∃ id, c.answer ⟨"a", 1⟩ =
      .ok ⟨id, "a", 1, record "A" ["C"] [⟨"C", "c", 1⟩]⟩ :=
    hanswer ⟨"a", _, false⟩ (.tail _ (.head _))
  obtain ⟨k, hb⟩ : ∃ id, c.answer ⟨"b", 1⟩ =
      .ok ⟨id, "b", 1, record "B" ["C"] [⟨"C", "c", 1⟩]⟩ :=
    hanswer ⟨"b", _, false⟩ (.tail _ (.tail _ (.head _)))
  have hbelow : Unfolds c.answer [⟨"C", "c", 1⟩] _ := .cons hc .nil .nil
  have hts : Unfolds c.answer s.references _ := .cons ha hbelow (.cons hb hbelow .nil)
  have hwalk := Client.walkFrom_of_unfolds hts
  have horigins : origins c s = [⟨i, "c", 1, record "C" [] []⟩,
      ⟨j, "a", 1, record "A" ["C"] [⟨"C", "c", 1⟩]⟩,
      ⟨k, "b", 1, record "B" ["C"] [⟨"C", "c", 1⟩]⟩] := by
    rw [origins, hwalk]
    rfl
  let found : Table Name Json :=
    ⟨[(⟨"C", none⟩, recordOf "C" []), (⟨"A", none⟩, recordOf "A" ["C"]),
      (⟨"B", none⟩, recordOf "B" ["C"])]⟩
  have hfound : parseDefinitions .empty ((origins c s).map fun m => m.schema.text) = .ok found := by
    rw [horigins]
    simp only [List.map, parseDefinitions, parseDefinition, parseJson, record, parse?_recordOf]
    rfl
  obtain ⟨⟨l, scope⟩, hl⟩ : ∃ p, (readAll found.keys s.text).run { pending := found } = .ok p :=
    exists_readAll_diamond (parse?_recordOf _ _)
  have hok : (c.walkFrom s).outcome = .ok () := by rw [hwalk]
  obtain ⟨hresolve, -, hlinked⟩ := resolve_links_origins (qs.map .register) s hok
  have hl := hresolve.trans (link_eq_ok_iff.mpr ⟨found, scope, hfound, hl⟩)
  obtain ⟨⟨g, hg, hcount⟩, _, _, -, -, hall⟩ := hlinked l hl
  have hfour : l.all.length = 4 := by
    rw [← List.length_map some, hall, horigins]
    rfl
  refine ⟨hok, by rw [hwalk]; rfl, by rw [horigins]; rfl, l, g, hl, hfour, hg, ?_⟩
  rw [Linked.all, List.length_append, List.length_singleton] at hfour
  omega

/-! ### Identifiers -/

lemma eq_of_mem_origins {os : List Operation} {s : Schema} (calls : registerCalls os < 2 ^ 31)
    {m m' : Registered} (hm : m ∈ origins (Client.reached os) s)
    (hm' : m' ∈ origins (Client.reached os) s) (hid : m.id = m'.id)
    (hsubject : m.subject = m'.subject) : m = m' := by
  have hversion : ∀ m ∈ origins (Client.reached os) s,
      m ∈ (Client.reached os).registry.versionsOf m.subject := by
    intro m hm
    obtain ⟨hanswer, -⟩ := answer_of_mem_origins (Client.keyed_reached os) hm
    obtain ⟨-, hanswer⟩ := Client.answerTo_eq_ok_iff.mp hanswer
    exact List.mem_of_find?_eq_some (Registry.find?_of_version hanswer)
  have hdistinct := ((Client.sound_reached calls).histories m.subject).distinct
  exact List.inj_on_of_nodup_map hdistinct (hversion m hm) (hsubject ▸ hversion m' hm') hid

/-- **When no schema is defined twice.** The IDs behind the definitions are distinct if no two
versions that are reached share one. That can only be versions of different subjects; if their texts
are equal, linking fails. -/
theorem nodup_ids_origins_iff (os : List Operation) (s : Schema)
    (h : ((Client.reached os).walkFrom s).outcome = .ok ()) :
    let c := Client.reached os
    let ms := origins c s
    ((ms.map Registered.id).Nodup ↔ ∀ k k' m m',
      Reaches c.answer s.references k → Reaches c.answer s.references k' →
      c.answer k = .ok m → c.answer k' = .ok m' → m.id = m'.id → k = k') ∧
    (registerCalls os < 2 ^ 31 → ((ms.map Registered.id).Nodup ↔
      ∀ m ∈ ms, ∀ m' ∈ ms, m.id = m'.id → m.subject = m'.subject)) ∧
    ((∃ l, (resolve s c).1 = .ok l) → (ms.map fun m => m.schema.text).Nodup) := by
  intro c ms
  have horder : DependencyOrder c s ms := dependencyOrder_origins (Client.keyed_reached os) h
  refine ⟨horder.nodup_ids_iff (Client.keyed_reached os), fun calls => ?_, ?_⟩
  · rw [List.nodup_map_iff_inj_on horder.nodup.of_map]
    constructor
    · intro hinj m hm m' hm' hid
      rw [hinj m hm m' hm' hid]
    · exact fun hsubject m hm m' hm' hid =>
        eq_of_mem_origins calls hm hm' hid (hsubject m hm m' hm' hid)
  · rintro ⟨l, hl⟩
    exact (link_eq_ok ((resolve_fst_of_walk h).symm.trans hl)).1

/-- One version under two names. -/
theorem nodup_ids_origins_of_one_version :
    let record (n : String) (rs : List Reference) : Schema := ⟨(recordOf n []).compact, .avro, rs⟩
    let qs : List Registration := [⟨"a", record "A" [], false⟩]
    let c := Client.reached (qs.map .register)
    let s := record "S" [⟨"A", "a", 1⟩, ⟨"B", "a", 1⟩]
    (c.walkFrom s).outcome = .ok () ∧ registerCalls (qs.map .register) < 2 ^ 31 ∧
    (c.walkFrom s).visits.map (fun v => v.1.name) = ["A", "B"] ∧
    (origins c s).map Registered.key = [⟨"a", 1⟩] ∧
    ((origins c s).map Registered.id).Nodup := by
  intro record qs c s
  have hsubjects : (qs.map Registration.subject).Nodup := List.nodup_singleton _
  obtain ⟨id, ha⟩ : ∃ id, c.answer ⟨"a", 1⟩ = .ok ⟨id, "a", 1, record "A" []⟩ :=
    Client.exists_answer_of_registered hsubjects (.head _)
  have hts : Unfolds c.answer s.references _ := .cons ha .nil (.cons ha .nil .nil)
  have hwalk := Client.walkFrom_of_unfolds hts
  have horigins : origins c s = [⟨id, "a", 1, record "A" []⟩] := by
    rw [origins, hwalk]
    rfl
  have hok : (c.walkFrom s).outcome = .ok () := by rw [hwalk]
  have calls : registerCalls (qs.map .register) < 2 ^ 31 := by decide
  refine ⟨hok, calls, by rw [hwalk]; rfl, by rw [horigins]; rfl, ?_⟩
  refine ((nodup_ids_origins_iff (qs.map .register) s hok).2.1 calls).mpr ?_
  change ∀ m ∈ origins c s, ∀ m' ∈ origins c s, m.id = m'.id → m.subject = m'.subject
  rw [horigins]
  simp

/-- One definition under two subjects. -/
theorem origins_repeat_id :
    let record (n : String) (rs : List Reference) : Schema := ⟨(recordOf n []).compact, .avro, rs⟩
    let qs : List Registration := [⟨"a", record "A" [], false⟩, ⟨"b", record "A" [], false⟩]
    let c := Client.reached (qs.map .register)
    let s := record "S" [⟨"A", "a", 1⟩, ⟨"A", "b", 1⟩]
    (c.walkFrom s).outcome = .ok () ∧
    (∃ id, origins c s = [⟨id, "a", 1, record "A" []⟩, ⟨id, "b", 1, record "A" []⟩]) ∧
    ¬ ((origins c s).map Registered.id).Nodup ∧
    (resolve s c).1 = .error (.avro (.duplicateDefinition "A")) := by
  intro record qs c s
  obtain ⟨id, ha, hb⟩ : ∃ id, c.answer ⟨"a", 1⟩ = .ok ⟨id, "a", 1, record "A" []⟩ ∧
      c.answer ⟨"b", 1⟩ = .ok ⟨id, "b", 1, record "A" []⟩ :=
    Client.exists_answer_of_registered_same (by decide) _
  have hts : Unfolds c.answer s.references _ := .cons ha .nil (.cons hb .nil .nil)
  have hwalk := Client.walkFrom_of_unfolds hts
  have horigins : origins c s = [⟨id, "a", 1, record "A" []⟩, ⟨id, "b", 1, record "A" []⟩] := by
    rw [origins, hwalk]
    rfl
  have hok : (c.walkFrom s).outcome = .ok () := by rw [hwalk]
  refine ⟨hok, ⟨id, horigins⟩, by rw [horigins]; simp, ?_⟩
  rw [resolve_fst_of_walk hok, horigins]
  refine link_of_error ?_
  simp only [List.map, parseDefinitions, parseDefinition, parseJson, record, parse?_recordOf]
  rfl

end Avro

end SchemaRegistry
