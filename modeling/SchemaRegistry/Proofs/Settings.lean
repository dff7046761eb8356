import Mathlib.Data.List.Forall2
import Mathlib.Tactic.Lemma
import Mathlib.Tactic.SplitIfs
import SchemaRegistry.Settings.Load

/-!
Settings put together from four answers. Options and layers of files and variables are read in the
same order, and what was read is checked in the same way at the end.
-/

namespace SchemaRegistry

lemma except_bind_eq_ok_iff {ε α β : Type} {x : Except ε α} {f : α → Except ε β} {b : β} :
    x >>= f = .ok b ↔ ∃ a, x = .ok a ∧ f a = .ok b := by
  cases x <;> simp [bind, Except.bind]

lemma except_bind_eq_error_iff {ε α β : Type} {x : Except ε α} {f : α → Except ε β} {e : ε} :
    x >>= f = .error e ↔ x = .error e ∨ ∃ a, x = .ok a ∧ f a = .error e := by
  cases x <;> simp [bind, Except.bind]

section Traversal

variable {ε α β : Type} {f : α → Except ε β} {as : List α}

lemma mapM_eq_ok_iff {bs : List β} :
    as.mapM f = .ok bs ↔ List.Forall₂ (fun a b => f a = .ok b) as bs := by
  induction as generalizing bs with
  | nil =>
    rw [List.forall₂_nil_left_iff]
    exact ⟨fun h => (Except.ok.inj h).symm, fun h => h ▸ rfl⟩
  | cons a as ih =>
    simp only [List.mapM_cons, except_bind_eq_ok_iff, ih, List.forall₂_cons_left_iff]
    constructor
    · rintro ⟨b, hb, bs', hbs, ⟨⟩⟩
      exact ⟨b, bs', hb, hbs, rfl⟩
    · rintro ⟨b, bs', hb, hbs, rfl⟩
      exact ⟨b, hb, bs', hbs, rfl⟩

lemma exists_of_mapM_eq_error {e : ε} (h : as.mapM f = .error e) : ∃ a ∈ as, f a = .error e := by
  induction as with
  | nil => cases h
  | cons a as ih =>
    rw [List.mapM_cons] at h
    rcases except_bind_eq_error_iff.mp h with ha | ⟨b, -, h⟩
    · exact ⟨a, List.mem_cons_self, ha⟩
    · rcases except_bind_eq_error_iff.mp h with has | ⟨bs, -, h⟩
      · obtain ⟨a', ha', hfails⟩ := ih has
        exact ⟨a', List.mem_cons_of_mem a ha', hfails⟩
      · cases h

end Traversal

namespace Settings

variable {s c : Settings}

lemma validate_eq_ok_iff : validate s = .ok c ↔ s = c ∧ s.schemaId.toInt ≤ maxId := by
  unfold validate
  split_ifs with h
  · constructor
    · exact nofun
    · rintro ⟨-, hle⟩
      omega
  · have hle : s.schemaId.toInt ≤ maxId := by omega
    simp [hle]

lemma validate_eq_error_iff {e : Error} : validate s = .error e ↔ maxId < s.schemaId.toInt ∧
    e = .option "use.schema.id" "schema id in 0..=4294967295 or negative"
      (Text.ofInt s.schemaId.toInt) := by
  unfold validate
  split_ifs with h <;> simp [h, eq_comm]

/-- Settings from the answers to four questions, the first that fails deciding. -/
def assemble (autoRegister : Except Error Bool) (schemaId : Except Error Int64)
    (latestVersion normalize : Except Error Bool) : Except Error Settings := do
  let autoRegister ← autoRegister
  let schemaId ← schemaId
  let latestVersion ← latestVersion
  let normalize ← normalize
  validate { autoRegister, schemaId, latestVersion, normalize }

lemma assemble_eq_ok_iff {a l n : Except Error Bool} {i : Except Error Int64} :
    assemble a i l n = .ok c ↔
      a = .ok c.autoRegister ∧ i = .ok c.schemaId ∧ l = .ok c.latestVersion ∧
        n = .ok c.normalize ∧ c.schemaId.toInt ≤ maxId := by
  constructor
  · intro h
    obtain ⟨_, ha, h⟩ := except_bind_eq_ok_iff.mp h
    obtain ⟨_, hi, h⟩ := except_bind_eq_ok_iff.mp h
    obtain ⟨_, hl, h⟩ := except_bind_eq_ok_iff.mp h
    obtain ⟨_, hn, h⟩ := except_bind_eq_ok_iff.mp h
    obtain ⟨rfl, hle⟩ := validate_eq_ok_iff.mp h
    exact ⟨ha, hi, hl, hn, hle⟩
  · rintro ⟨rfl, rfl, rfl, rfl, hle⟩
    exact validate_eq_ok_iff.mpr ⟨rfl, hle⟩

/-! ### From options -/

lemma ofOptions_eq_assemble (o : Options) :
    ofOptions o = assemble (o.getBool "auto.register.schemas" true) (o.getInt "use.schema.id" (-1))
      (o.getBool "use.latest.version" false) (o.getBool "normalize.schemas" false) := rfl

lemma le_maxId_of_ofOptions {o : Options} (h : ofOptions o = .ok c) : c.schemaId.toInt ≤ maxId := by
  rw [ofOptions_eq_assemble] at h
  obtain ⟨-, -, -, -, hle⟩ := assemble_eq_ok_iff.mp h
  exact hle

/-! ### From files and variables -/

lemma ofValues_eq_assemble (vs : Values) :
    ofValues vs = assemble (convert vs "auto_register_schemas" Value.toBool? true)
      (convert vs "use_schema_id" Value.toInt? (-1))
      (convert vs "use_latest_version" Value.toBool? false)
      (convert vs "normalize_schemas" Value.toBool? false) := rfl

def merged (ls : List Layer) : Values := ls.foldl overlay .empty

lemma load_eq_ok_iff {s : Surroundings} {path : Option String} :
    load s path = .ok c ↔ ∃ ls, layers s path = .ok ls ∧ ofValues (merged ls) = .ok c :=
  except_bind_eq_ok_iff

end Settings

end SchemaRegistry
