import SchemaRegistry.Codec
import SchemaRegistry.Proofs.Client.Run

/-!
Computations that call a registry, step by step. A sequence succeeds if each of its steps does, and
linking only reads what the registry holds.
-/

namespace SchemaRegistry

namespace Session

variable {α β : Type} {c c' : Client}

lemma bind_of_ok {x : Session α} {a : α} (h : x c = (.ok a, c')) (f : α → Session β) :
    (x >>= f) c = f a c' := by
  change ExceptT.bindCont f (x c).1 (x c).2 = f a c'
  rw [h]
  rfl

lemma bind_of_error {x : Session α} {e : Error} (h : x c = (.error e, c')) (f : α → Session β) :
    (x >>= f) c = (.error e, c') := by
  change ExceptT.bindCont f (x c).1 (x c).2 = (.error e, c')
  rw [h]
  rfl

lemma bind_eq_ok_iff {x : Session α} {f : α → Session β} {b : β} :
    (x >>= f) c = (.ok b, c') ↔ ∃ a c₁, x c = (.ok a, c₁) ∧ f a c₁ = (.ok b, c') := by
  constructor
  · intro h
    cases hx : x c with
    | mk r c₁ =>
      cases r with
      | ok a => exact ⟨a, c₁, rfl, (bind_of_ok hx f).symm.trans h⟩
      | error e => cases (bind_of_error hx f).symm.trans h
  · rintro ⟨a, c₁, hx, hf⟩
    rw [bind_of_ok hx, hf]

lemma pure_apply (a : α) (c : Client) : (pure a : Session α) c = (.ok a, c) := rfl

lemma pure_eq_ok_iff {a b : α} : (pure a : Session α) c = (.ok b, c') ↔ a = b ∧ c = c' := by
  rw [pure_apply, Prod.mk.injEq, Except.ok.injEq]

lemma lift_apply (x : Except Error α) (c : Client) : (liftM x : Session α) c = (x, c) := by
  cases x <;> rfl

lemma lift_of_ok {x : Except Error α} {a : α} (h : x = .ok a) (c : Client) :
    (liftM x : Session α) c = (.ok a, c) := by
  rw [lift_apply, h]

lemma lift_eq_ok_iff {x : Except Error α} {a : α} :
    (liftM x : Session α) c = (.ok a, c') ↔ x = .ok a ∧ c = c' := by
  rw [lift_apply, Prod.mk.injEq]

lemma map_snd (f : α → β) (x : Session α) (c : Client) : ((f <$> x) c).2 = (x c).2 := by
  simp only [Functor.map, ExceptT.map, ExceptT.mk, bind, StateT.bind]
  rcases x c with ⟨_ | a, c'⟩ <;> rfl

/-! ### What a computation leaves alone -/

variable {γ : Type} {part : Client → γ}

/-- The computation leaves a part of the client as it is. -/
def Keeps (part : Client → γ) (x : Session α) : Prop := ∀ c, part (x c).2 = part c

lemma part_bind {x : Session α} {f : α → Session β} (hf : ∀ a, Keeps part (f a)) (c : Client) :
    part ((x >>= f) c).2 = part (x c).2 := by
  rcases hx : x c with ⟨_ | a, c'⟩
  · rw [bind_of_error hx]
  · rw [bind_of_ok hx, hf a c']

lemma Keeps.bind {x : Session α} {f : α → Session β} (hx : Keeps part x)
    (hf : ∀ a, Keeps part (f a)) : Keeps part (x >>= f) :=
  fun c => (part_bind hf c).trans (hx c)

lemma keeps_pure (part : Client → γ) (a : α) : Keeps part (pure a) := fun _ => rfl

lemma keeps_lift (part : Client → γ) (x : Except Error α) : Keeps part (liftM x) :=
  fun c => by rw [lift_apply]

end Session

/-! ### Linking -/

lemma Linking.exists_askedFor (mode : Linking) (s : Schema) (c : Client) :
    ∃ ks, (mode.link s c).2 = c.askedFor ks := by
  cases mode with
  | skip => exact ⟨[], by simp [link, Client.askedFor, Session.pure_apply]⟩
  | sources => exact ⟨(c.walkFrom s).asked, by rw [link, Session.map_snd]; rfl⟩
  | avro => exact ⟨(c.walkFrom s).asked, by rw [link, Session.map_snd]; rfl⟩

lemma Linking.link_sources_of_error {s : Schema} {c : Client} {e : Error}
    (h : (c.walkFrom s).outcome = .error e) :
    Linking.sources.link s c = (.error e, c.askedFor (c.walkFrom s).asked) := by
  have hresolve : Sources.resolve s c = (.error e, c.askedFor (c.walkFrom s).asked) := by
    simp [Sources.resolve, Sources.resolveInto, h, Except.map]
  rw [link, ← bind_pure_comp, Session.bind_of_error hresolve]

lemma Linking.registry_link (mode : Linking) (s : Schema) (c : Client) :
    (mode.link s c).2.registry = c.registry := by
  obtain ⟨ks, h⟩ := mode.exists_askedFor s c
  rw [h]
  rfl

end SchemaRegistry
