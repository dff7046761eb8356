import Mathlib.Control.Monad.Basic
import SchemaRegistry.Policy
import SchemaRegistry.Proofs.Settings

/-!
Which policy settings select. An ID that settings store and that is not negative is the one that the
pinned policy has, because settings with any greater ID than a schema can have are not given out.
-/

namespace SchemaRegistry.IdPolicy

open SchemaRegistry.Settings (maxId ofOptions load layers merged convert Value Surroundings)

variable {c : Settings} {p : IdPolicy} {id : UInt32}

/-- The table of policies: each row has the conditions of those before it turned around. -/
inductive Precedence (c : Settings) : IdPolicy → Prop where
  | autoRegister (h : c.autoRegister = true) : Precedence c .autoRegister
  | pinned (id : UInt32) (hregister : c.autoRegister = false) (h : c.schemaId.toInt = id.toNat) :
      Precedence c (.pinned id)
  | latestVersion (hregister : c.autoRegister = false) (hid : c.schemaId.toInt < 0)
      (h : c.latestVersion = true) : Precedence c .latestVersion
  | lookup (hregister : c.autoRegister = false) (hid : c.schemaId.toInt < 0)
      (h : c.latestVersion = false) : Precedence c .lookup

lemma pinned?_of_nonneg (h : 0 ≤ c.schemaId.toInt) (hle : c.schemaId.toInt ≤ maxId) :
    c.pinned? = some (UInt32.ofNat c.schemaId.toInt.toNat) :=
  if_pos ⟨h, hle⟩

lemma pinned?_of_neg (h : c.schemaId.toInt < 0) : c.pinned? = none :=
  if_neg fun hrange => by omega

lemma toInt_of_le_maxId {i : Int} (h : 0 ≤ i) (hle : i ≤ maxId) :
    ((UInt32.ofNat i.toNat).toNat : Int) = i := by
  have hlt : i.toNat < UInt32.size := by
    unfold maxId at hle
    have hsize : UInt32.size = 4294967296 := rfl
    omega
  rw [UInt32.toNat_ofNat_of_lt' hlt, Int.toNat_of_nonneg h]

lemma toNat_le_maxId (id : UInt32) : (id.toNat : Int) ≤ maxId := by
  have hlt := id.toNat_lt
  unfold maxId
  omega

lemma precedence_select (hle : c.schemaId.toInt ≤ maxId) : Precedence c (select c) := by
  unfold select
  cases hregister : c.autoRegister with
  | true => exact .autoRegister hregister
  | false =>
    rw [if_neg Bool.false_ne_true]
    rcases Int.lt_or_le c.schemaId.toInt 0 with hneg | hnonneg
    · rw [pinned?_of_neg hneg]
      cases hlatest : c.latestVersion with
      | true => exact .latestVersion hregister hneg hlatest
      | false => exact .lookup hregister hneg hlatest
    · rw [pinned?_of_nonneg hnonneg hle]
      exact .pinned _ hregister (toInt_of_le_maxId hnonneg hle).symm

lemma Precedence.eq_select (h : Precedence c p) : select c = p := by
  unfold select
  cases h with
  | autoRegister h => rw [if_pos h]
  | pinned id hregister h =>
    have hpinned := pinned?_of_nonneg (c := c) (by omega) (h ▸ toNat_le_maxId id)
    rw [h, Int.toNat_natCast, UInt32.ofNat_toNat] at hpinned
    simp [hregister, hpinned]
  | latestVersion hregister hneg h => simp [hregister, pinned?_of_neg hneg, h]
  | lookup hregister hneg h => simp [hregister, pinned?_of_neg hneg, h]

/-- The ID is one that a schema can have, and the table decides. -/
structure Decided (c : Settings) : Prop where
  inRange : c.schemaId.toInt ≤ 4294967295
  select_eq_iff : ∀ p, select c = p ↔ Precedence c p

lemma decided_of_le (hle : c.schemaId.toInt ≤ maxId) : Decided c :=
  ⟨hle, fun _ => ⟨fun h => h ▸ precedence_select hle, Precedence.eq_select⟩⟩

/-- **A pinned ID is kept.** Settings store the ID that the options, or the topmost layer of files and
variables, give for it; it is in range, and the policy is the one of the table, pinned to that very
ID if it is not negative and nothing is registered. -/
theorem decided_of_read {c : Settings} :
    (∀ o, ofOptions o = .ok c → o.getInt "use.schema.id" (-1) = .ok c.schemaId ∧ Decided c) ∧
    ∀ (s : Surroundings) path, load s path = .ok c →
      (∃ ls, layers s path = .ok ls ∧
        convert (merged ls) "use_schema_id" Value.toInt? (-1) = .ok c.schemaId) ∧ Decided c := by
  constructor
  · intro o h
    rw [Settings.ofOptions_eq_assemble] at h
    obtain ⟨-, hid, -, -, hle⟩ := Settings.assemble_eq_ok_iff.mp h
    exact ⟨hid, decided_of_le hle⟩
  · intro s path h
    obtain ⟨ls, hls, h⟩ := Settings.load_eq_ok_iff.mp h
    rw [Settings.ofValues_eq_assemble] at h
    obtain ⟨-, hid, -, -, hle⟩ := Settings.assemble_eq_ok_iff.mp h
    exact ⟨⟨ls, hls, hid⟩, decided_of_le hle⟩

/-- The greatest ID as a text among options, and as a variable above a file. -/
theorem decided_of_greatest_id :
    let o : Options := .ofList [("auto.register.schemas", .text " false "),
      ("use.schema.id", .text "+4294967295")]
    let s : Surroundings := {
      entry? := fun path => if path = "serde.toml" then
        some (.file "auto_register_schemas = \"off\"\nuse_schema_id = 1e99\n") else none
      «variables» := [("SERDE__USE_SCHEMA_ID", "4294967295")] }
    let c : Settings := { autoRegister := false, schemaId := 4294967295 }
    (ofOptions o = .ok c ∧ load s none = .ok c) ∧
      Decided c ∧ select c = .pinned 4294967295 := by
  intro o s c
  have ho : ofOptions o = .ok c := by decide +kernel
  have hs : load s none = .ok c := by decide +kernel
  have hdecided := (decided_of_read.2 s none hs).2
  exact ⟨⟨ho, hs⟩, (decided_of_read.1 o ho).2, (hdecided.select_eq_iff _).mpr (.pinned _ rfl rfl)⟩

end SchemaRegistry.IdPolicy
