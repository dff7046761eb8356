import SchemaRegistry.Proofs.Reference.Graph
import SchemaRegistry.Proofs.Session

/-!
Computations that fail fast. Every call of such a computation is answered, or else the last one
fails and its error is the outcome. Sequences of such computations are such computations, and so
are the traversals of references.
-/

namespace SchemaRegistry

/-- How a computation ended that called the registry: all its calls were answered, or the last one
failed, which ended it with the error of that call. -/
inductive FailsFast {α : Type} (c : Client) (outcome : Except Error α) (c' : Client) : Prop where
  | answered (qs : List Request) (calls : c'.calls = c.calls ++ qs.map (⟨·, none⟩))
  | failed (qs : List Request) (q : Request) (e : RegistryError)
      (calls : c'.calls = c.calls ++ (qs.map (⟨·, none⟩) ++ [⟨q, some e⟩]))
      (outcome : outcome = .error (.registry e))

namespace FailsFast

variable {α β : Type} {c c' c'' : Client} {outcome : Except Error α} {outcome' : Except Error β}

lemma of_calls_eq (outcome : Except Error α) (h : c'.calls = c.calls) : FailsFast c outcome c' :=
  .answered [] (by simpa using h)

lemma of_call {q : Call} (h : c'.calls = c.calls ++ [q])
    (hfailed : ∀ e, q.failure = some e → outcome = .error (.registry e)) :
    FailsFast c outcome c' := by
  obtain ⟨q, failure⟩ := q
  cases failure with
  | none => exact .answered [q] h
  | some e => exact .failed [] q e h (hfailed e rfl)

/-- After calls that were answered come those of what follows. -/
lemma trans {a : α} (h : FailsFast c (.ok a) c') (h' : FailsFast c' outcome' c'') :
    FailsFast c outcome' c'' := by
  cases h with
  | failed qs q e _ ho => cases ho
  | answered qs hqs =>
    cases h' with
    | answered qs' hqs' => exact .answered (qs ++ qs') (by simp [hqs', hqs])
    | failed qs' q e hqs' ho => exact .failed (qs ++ qs') q e (by simp [hqs', hqs]) ho

lemma map (h : FailsFast c outcome c')
    (ho : ∀ e, outcome = .error (.registry e) → outcome' = .error (.registry e)) :
    FailsFast c outcome' c' := by
  cases h with
  | answered qs hqs => exact .answered qs hqs
  | failed qs q e hqs he => exact .failed qs q e hqs (ho e he)

lemma outcome_of_failed (h : FailsFast c outcome c') {qs : List Call} {q : Call} {e : RegistryError}
    (hqs : c'.calls = c.calls ++ qs) (hq : q ∈ qs) (he : q.failure = some e) :
    outcome = .error (.registry e) := by
  cases h with
  | answered qs' hqs' =>
    obtain rfl := List.append_cancel_left (hqs.symm.trans hqs')
    obtain ⟨r, -, rfl⟩ := List.mem_map.mp hq
    cases he
  | failed qs' q' e' hqs' ho =>
    obtain rfl := List.append_cancel_left (hqs.symm.trans hqs')
    rcases List.mem_append.mp hq with hq | hq
    · obtain ⟨r, -, rfl⟩ := List.mem_map.mp hq
      cases he
    · obtain rfl := List.mem_singleton.mp hq
      cases he
      exact ho

end FailsFast

/-! ### Sequences -/

/-- The computation fails fast, whatever the registry has and whichever methods fail. -/
def Session.FailsFast {α : Type} (x : Session α) : Prop :=
  ∀ c, SchemaRegistry.FailsFast c (x c).1 (x c).2

namespace Session

variable {α β : Type}

lemma failsFast_lift (x : Except Error α) : FailsFast (liftM x : Session α) := by
  intro c
  rw [lift_apply]
  exact .of_calls_eq x rfl

lemma failsFast_pure (a : α) : FailsFast (pure a : Session α) := failsFast_lift (.ok a)

lemma FailsFast.bind {x : Session α} {f : α → Session β} (hx : x.FailsFast)
    (hf : ∀ a, (f a).FailsFast) : (x >>= f).FailsFast := by
  intro c
  have hc := hx c
  rcases h : x c with ⟨e | a, c'⟩
  · rw [h] at hc
    rw [bind_of_error h]
    exact hc.map fun e' he' => by cases he'; rfl
  · rw [h] at hc
    rw [bind_of_ok h]
    exact hc.trans (hf a c')

lemma FailsFast.map {x : Session α} (hx : x.FailsFast) (f : α → β) : (f <$> x).FailsFast := by
  rw [← bind_pure_comp]
  exact hx.bind fun a => failsFast_pure (f a)

end Session

/-! ### Calls -/

namespace Client

variable {c : Client}

lemma failsFast_send {α : Type} (q : Request) (f : Registry → Except RegistryError α) :
    Session.FailsFast (send q f) := by
  intro c
  refine .of_call (q := ⟨q, failure? (c.answerTo q.method f)⟩) rfl fun e he => ?_
  cases h : c.answerTo q.method f with
  | ok a => simp [h, failure?] at he
  | error e' =>
    rw [h] at he
    cases he
    simp [send, h, Except.mapError]

lemma failsFast_register (u : String) (s : Schema) (n : Bool) :
    Session.FailsFast (register u s n) := by
  intro c
  refine .of_call (q := ⟨.register u, failure? (c.answerTo .register fun r => .ok (r.register u s n))⟩)
    rfl fun e he => ?_
  cases h : c.answerTo .register fun r => .ok (r.register u s n) with
  | ok a => simp [h, failure?] at he
  | error e' =>
    rw [h] at he
    cases he
    simp [register, h, Except.map, Except.mapError]

end Client

/-! ### Traversals of references -/

section AskedFor

variable {α β : Type} {c : Client} {outcome : Except Error α} {ks ks' : List Key} {k : Key}

lemma failsFast_of_answered (outcome : Except Error α) (h : ∀ k ∈ ks, ∃ m, c.answer k = .ok m) :
    FailsFast c outcome (c.askedFor ks) := by
  refine .answered (ks.map .version) (congrArg (c.calls ++ ·) ?_)
  rw [List.map_map]
  refine List.map_congr_left fun k hk => ?_
  obtain ⟨m, hm⟩ := h k hk
  simp [hm, failure?]

lemma failsFast_of_unanswered {e : RegistryError} (h : c.answer k = .error e) :
    FailsFast c (.error (.registry e) : Except Error α) (c.askedFor [k]) :=
  .failed [] (.version k) e (by simp [Client.askedFor, h, failure?]) rfl

/-- Asking changes no answer, so that it does not matter what was asked for before. -/
lemma FailsFast.append {a : β} (h : FailsFast c (.ok a) (c.askedFor ks))
    (h' : FailsFast c outcome (c.askedFor ks')) : FailsFast c outcome (c.askedFor (ks ++ ks')) := by
  refine h.trans ?_
  have hcalls : (c.askedFor (ks ++ ks')).calls = (c.askedFor ks).calls ++
      ks'.map fun k => ⟨.version k, failure? (c.answer k)⟩ := by
    simp [Client.askedFor]
  cases h' with
  | answered qs hqs => exact .answered qs (by rw [hcalls, List.append_cancel_left hqs])
  | failed qs q e hqs ho => exact .failed qs q e (by rw [hcalls, List.append_cancel_left hqs]) ho

end AskedFor

lemma Client.failsFast_walk (c : Client) (path : List Key) (rs : List Reference) :
    FailsFast c (c.walk path rs).outcome (c.askedFor (c.walk path rs).asked) := by
  induction path, rs using walk.induct c with
  | case1 path =>
    rw [walk_nil]
    exact failsFast_of_answered _ (by simp)
  | case2 path r rs hp =>
    rw [walk_of_mem hp]
    exact failsFast_of_answered _ (by simp [Walk.stop])
  | case3 path r rs hp e he =>
    rw [walk_of_error hp he]
    exact failsFast_of_unanswered he
  | case4 path r rs hp m hm ihbelow ihafter =>
    have hone : FailsFast c (.ok ()) (c.askedFor [r.key]) :=
      failsFast_of_answered _ (by simpa using ⟨m, hm⟩)
    rw [walk_of_ok hp hm]
    refine hone.append ?_
    cases hb : (c.walk (r.key :: path) m.schema.references).outcome with
    | error e =>
      rw [Walk.visit_of_error hb]
      exact ihbelow
    | ok u =>
      rw [Walk.visit_of_ok hb]
      rw [hb] at ihbelow
      exact ihbelow.append ihafter

lemma Client.failsFast_walkFrom {α : Type} (c : Client) (s : Schema) {outcome : Except Error α}
    (ho : ∀ e, (c.walkFrom s).outcome = .error e → outcome = .error e) :
    FailsFast c outcome (c.askedFor (c.walkFrom s).asked) :=
  (c.failsFast_walk [] s.references).map fun e he => ho (.registry e) he

lemma Sources.failsFast_resolveInto (s : Schema) (m : Sources) (c : Client) :
    FailsFast c (resolveInto s m c).1.1 (resolveInto s m c).2 :=
  c.failsFast_walkFrom s fun _ he => he

lemma Sources.failsFast_resolve (s : Schema) : (resolve s).FailsFast :=
  fun c => c.failsFast_walkFrom s fun _ he => resolve_eq_error_iff.mpr he

lemma Avro.failsFast_resolve (s : Schema) : (resolve s).FailsFast :=
  fun c => c.failsFast_walkFrom s fun _ he => by
    change (c.walkFrom s).outcome.bind _ = _
    rw [he]
    rfl

lemma Linking.failsFast_link (mode : Linking) (s : Schema) : (mode.link s).FailsFast := by
  cases mode with
  | skip => exact Session.failsFast_pure _
  | sources => exact (Sources.failsFast_resolve s).map _
  | avro => exact (Avro.failsFast_resolve s).map _

lemma Graph.failsFast_build (s : Schema) : (build s).FailsFast := by
  intro c
  rw [build_fst, build_snd]
  obtain ⟨hok, herror⟩ := (Building.traced_init c s).run
  cases ho : (Building.run c { pending := [(.root, s)] }).2 with
  | ok u =>
    have hdone := hok ho
    rw [hdone.asked, List.reverse_reverse]
    exact failsFast_of_answered _ hdone.answered
  | error e =>
    obtain ⟨-, -, hanswered, k, e', rfl, hk, -, hasked⟩ := herror e ho
    rw [hasked, List.reverse_cons, List.reverse_reverse]
    exact (failsFast_of_answered (.ok ()) hanswered).append (failsFast_of_unanswered hk)

end SchemaRegistry
