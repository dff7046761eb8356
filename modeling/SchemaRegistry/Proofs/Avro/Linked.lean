import Mathlib.Data.List.Nodup
import SchemaRegistry.Avro.Linked

/-!
What linking gives back. The names of the definitions are distinct, and there is a shape for each of
them, in their order: what its name stands for when everything was read.
-/

namespace SchemaRegistry.Avro

/-! ### One step of a reading -/

section Reading

variable {α β : Type} {σ σ' : Scope}

lemma reading_bind_eq_ok_iff {x : Reading α} {f : α → Reading β} {b : β} :
    (x >>= f) σ = .ok (b, σ') ↔ ∃ a σ₁, x σ = .ok (a, σ₁) ∧ f a σ₁ = .ok (b, σ') := by
  have hbind : (x >>= f) σ = (x σ).bind fun p => f p.1 p.2 := rfl
  rw [hbind]
  cases h : x σ with
  | error e => simp [Except.bind]
  | ok p => simp [Except.bind, Prod.ext_iff, and_assoc]

lemma reading_bind_of_ok {x : Reading α} {a : α} (h : x σ = .ok (a, σ')) (f : α → Reading β) :
    (x >>= f) σ = f a σ' := by
  change (x σ).bind (fun p => f p.1 p.2) = f a σ'
  rw [h]
  rfl

lemma reading_pure_eq_ok_iff {a b : α} :
    (pure a : Reading α) σ = .ok (b, σ') ↔ a = b ∧ σ = σ' := by
  have hpure : (pure a : Reading α) σ = .ok (a, σ) := rfl
  rw [hpure]
  simp

lemma orFault_eq_ok_iff {o : Option α} {f : Fault} {a : α} :
    orFault o f σ = .ok (a, σ') ↔ o = some a ∧ σ = σ' := by
  cases o with
  | none =>
    have hfault : (orFault none f : Reading α) σ = .error (.avro f) := rfl
    rw [hfault]
    simp
  | some a' =>
    have hsome : (orFault (some a') f : Reading α) σ = .ok (a', σ) := rfl
    rw [hsome]
    simp

lemma mapM_orFault_eq_ok {g : Name → Option Shape} {f : Fault} {names : List Name}
    {shapes : List Shape} (h : (names.mapM fun n => orFault (g n) f) σ = .ok (shapes, σ')) :
    names.map g = shapes.map some ∧ σ = σ' := by
  induction names generalizing shapes σ σ' with
  | nil =>
    rw [List.mapM_nil] at h
    obtain ⟨rfl, hσ⟩ := reading_pure_eq_ok_iff.mp h
    exact ⟨rfl, hσ⟩
  | cons n names ih =>
    rw [List.mapM_cons] at h
    obtain ⟨shape, σ₁, hshape, h⟩ := reading_bind_eq_ok_iff.mp h
    obtain ⟨rest, σ₂, hrest, h⟩ := reading_bind_eq_ok_iff.mp h
    obtain ⟨hn, rfl⟩ := orFault_eq_ok_iff.mp hshape
    obtain ⟨hnames, rfl⟩ := ih hrest
    obtain ⟨rfl, rfl⟩ := reading_pure_eq_ok_iff.mp h
    simp [hn, hnames]

end Reading

/-! ### Definitions -/

/-- The name under which a definition is known. -/
def definitionName? (text : String) : Option Name := (parseDefinition text).toOption.map Prod.fst

/-- The shape that the name of a definition stands for. -/
def Scope.shapeOf? (scope : Scope) (text : String) : Option Shape :=
  (definitionName? text).bind scope.defined.get?

lemma parseDefinitions_cons_eq_ok {found found' : Table Name Json} {text : String}
    {texts : List String} (h : parseDefinitions found (text :: texts) = .ok found') :
    ∃ name v, parseDefinition text = .ok (name, v) ∧ name ∉ found.keys ∧
      parseDefinitions (found.insert name v) texts = .ok found' := by
  unfold parseDefinitions at h
  cases hp : parseDefinition text with
  | error e =>
    rw [hp] at h
    cases h
  | ok p =>
    simp only [hp, bind, Except.bind] at h
    split at h
    · cases h
    · next hnew => exact ⟨p.1, p.2, rfl, fun hmem => hnew (Table.mem_keys_iff.mp hmem), h⟩

lemma parseDefinitions_eq_ok {found found' : Table Name Json} {texts : List String}
    (h : parseDefinitions found texts = .ok found') (hnodup : found.keys.Nodup) :
    found'.keys.Nodup ∧ found'.keys.map some = found.keys.map some ++ texts.map definitionName? := by
  induction texts generalizing found with
  | nil =>
    cases h
    exact ⟨hnodup, by simp⟩
  | cons text texts ih =>
    obtain ⟨name, v, hp, hnew, h⟩ := parseDefinitions_cons_eq_ok h
    obtain ⟨hnodup', hkeys⟩ := ih h (Table.nodup_keys_insert hnodup name v)
    refine ⟨hnodup', ?_⟩
    rw [hkeys, Table.keys_insert, if_neg hnew]
    simp [definitionName?, hp, Except.toOption]

/-- The shapes are looked up last, in the scope that everything else left. -/
lemma readAll_eq_ok {names : List Name} {root : String} {σ σ' : Scope} {l : Linked}
    (h : readAll names root σ = .ok (l, σ')) :
    l.dependencies.map some = names.map σ'.defined.get? := by
  obtain ⟨-, σ₁, -, h⟩ := reading_bind_eq_ok_iff.mp h
  obtain ⟨v, σ₂, -, h⟩ := reading_bind_eq_ok_iff.mp h
  obtain ⟨shape, σ₃, -, h⟩ := reading_bind_eq_ok_iff.mp h
  obtain ⟨scope, σ₄, hget, h⟩ := reading_bind_eq_ok_iff.mp h
  obtain ⟨shapes, σ₅, hread, h⟩ := reading_bind_eq_ok_iff.mp h
  obtain ⟨rfl, rfl⟩ := reading_pure_eq_ok_iff.mp h
  obtain ⟨hshapes, rfl⟩ := mapM_orFault_eq_ok hread
  cases hget
  exact hshapes.symm

lemma link_of_error {root : String} {texts : List String} {e : Error}
    (h : parseDefinitions .empty texts = .error e) : link root texts = .error e := by
  unfold link
  rw [h]
  rfl

lemma link_eq_ok_iff {root : String} {texts : List String} {l : Linked} :
    link root texts = .ok l ↔ ∃ found scope, parseDefinitions .empty texts = .ok found ∧
      (readAll found.keys root).run { pending := found } = .ok (l, scope) := by
  unfold link
  cases parseDefinitions .empty texts with
  | error e => simp [bind, Except.bind]
  | ok found =>
    cases hread : (readAll found.keys root).run { pending := found } with
    | error e => simp [bind, Except.bind, hread]
    | ok p => simp [bind, Except.bind, hread, pure, Except.pure, Prod.ext_iff]

/-- **What linking gives back**: one shape for each definition, in their order. No definition may
come twice. -/
theorem link_eq_ok {root : String} {texts : List String} {l : Linked}
    (h : link root texts = .ok l) :
    texts.Nodup ∧ ∃ found scope, parseDefinitions .empty texts = .ok found ∧
      (readAll found.keys root).run { pending := found } = .ok (l, scope) ∧
      l.dependencies.map some = texts.map scope.shapeOf? := by
  obtain ⟨found, scope, hfound, hread⟩ := link_eq_ok_iff.mp h
  obtain ⟨hnodup, hkeys⟩ := parseDefinitions_eq_ok hfound List.nodup_nil
  have hnames : texts.map definitionName? = found.keys.map some := hkeys.symm
  have htexts : (texts.map definitionName?).Nodup := by
    rw [hnames]
    exact hnodup.map fun _ _ => Option.some.inj
  have hshapes : texts.map scope.shapeOf? =
      (texts.map definitionName?).map fun o => o.bind scope.defined.get? := by
    rw [List.map_map]
    rfl
  refine ⟨htexts.of_map, found, scope, hfound, hread, ?_⟩
  rw [readAll_eq_ok hread, hshapes, hnames, List.map_map]
  rfl

end SchemaRegistry.Avro
