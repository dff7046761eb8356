import Mathlib.Data.List.Nodup
import SchemaRegistry.Proofs.Client.Run

/-!
What a registry holds and lists. Versions can be fetched by their numbers, from one to the number of
the latest, and the subjects are those that were registered under.
-/

namespace SchemaRegistry

namespace Registry

section Versions

variable {r : Registry} (h : r.Sound) (room : r.lastId.toNat < 2 ^ 31)

include h in
/-- No subject has more versions than IDs were given out: its versions have different ones. -/
lemma Sound.length_versionsOf_le (u : String) : (r.versionsOf u).length ≤ r.lastId.toNat := by
  have hnodup : ((r.versionsOf u).map fun m => m.id.toNat).Nodup := by
    have := (h.histories u).distinct.map fun _ _ => UInt32.toNat_inj.mp
    rwa [List.map_map] at this
  have hsub : ((r.versionsOf u).map fun m => m.id.toNat) ⊆ List.range' 1 r.lastId.toNat := by
    intro i hi
    obtain ⟨m, hm, rfl⟩ := List.mem_map.mp hi
    obtain ⟨t, -, ht, -⟩ := (h.histories u).known m hm
    have hid := (h.ids m.id).mp (by rw [ht]; rfl)
    rw [List.mem_range'_1]
    omega
  have := (hnodup.subperm hsub).length_le
  rwa [List.length_map, List.length_range'] at this

include h room

lemma Sound.toInt_numbers (u : String) :
    (r.versionsOf u).map (fun m => m.version.toInt) =
      (List.range (r.versionsOf u).length).map fun i : ℕ => (i : Int) + 1 := by
  have hn := congrArg (List.map Int32.toInt) (h.histories u).numbered
  rw [List.map_map, List.map_map] at hn
  refine hn.trans (List.map_congr_left fun i hi => ?_)
  have hle := h.length_versionsOf_le u
  rw [List.mem_range] at hi
  exact (Int32.toInt_ofNat_of_lt (by omega)).trans (by simp)

lemma Sound.toInt_version {u : String} {i : ℕ} (hi : i < (r.versionsOf u).length) :
    ((r.versionsOf u)[i]).version.toInt = i + 1 := by
  have he := congrArg (·[i]?) (h.toInt_numbers room u)
  simpa [List.getElem?_range, hi] using he

lemma Sound.find?_version {u : String} {i : ℕ} (hi : i < (r.versionsOf u).length) {v : Int32}
    (hv : v.toInt = i + 1) :
    ((r.versionsOf u).find? fun m => m.version = v) = some (r.versionsOf u)[i] := by
  rw [List.find?_eq_some_iff_getElem]
  refine ⟨?_, i, hi, rfl, ?_⟩
  · simpa using Int32.toInt_inj.mp ((h.toInt_version room hi).trans hv.symm)
  · intro j hj
    have hlt : j < (r.versionsOf u).length := Nat.lt_trans hj hi
    have hne : (r.versionsOf u)[j].version ≠ v := by
      intro e
      have := h.toInt_version room hlt
      rw [e, hv] at this
      omega
    simpa using hne

end Versions

/-! ### Answers by number -/

lemma find?_of_version {r : Registry} {k : Key} {m : Registered} (h : r.version k = .ok m) :
    ((r.versionsOf k.subject).find? fun m => m.version = k.version) = some m := by
  unfold version at h
  split at h
  · cases h
  · next ms hms =>
    rw [versionsOf_of_get? hms]
    split at h
    · next m' hf =>
      cases h
      exact hf
    · cases h

lemma owned_register {r : Registry} (h : ∀ u, ∀ m ∈ r.versionsOf u, m.subject = u) (u : String)
    (s : Schema) (n : Bool) : ∀ u', ∀ m ∈ (r.register u s n).2.versionsOf u', m.subject = u' := by
  intro u' m hm
  rw [versionsOf_register] at hm
  split at hm
  · next e =>
    rw [e.1]
    rcases List.mem_append.mp hm with hm | hm
    · exact h u m hm
    · rw [List.mem_singleton.mp hm]
      rfl
  · exact h u' m hm

lemma owned_registerAll {r : Registry} (h : ∀ u, ∀ m ∈ r.versionsOf u, m.subject = u)
    (qs : List Registration) : ∀ u, ∀ m ∈ (r.registerAll qs).versionsOf u, m.subject = u := by
  induction qs generalizing r with
  | nil => exact h
  | cons q qs ih => exact ih (owned_register h _ _ _)

lemma key_of_version {qs : List Registration} {k : Key} {m : Registered}
    (h : (Registry.empty.registerAll qs).version k = .ok m) : m.key = k := by
  have hfind := find?_of_version h
  have hversion : m.version = k.version := by simpa using List.find?_some hfind
  have hsubject : m.subject = k.subject :=
    owned_registerAll (by simp [empty, versionsOf]) qs _ m (List.mem_of_find?_eq_some hfind)
  rw [Registered.key, hsubject, hversion]

lemma version_of_find? {r : Registry} {k : Key} {m : Registered}
    (h : ((r.versionsOf k.subject).find? fun m => m.version = k.version) = some m) :
    r.version k = .ok m := by
  unfold version
  cases hu : r.subjects.get? k.subject with
  | none => simp [versionsOf, hu] at h
  | some ms =>
    rw [versionsOf_of_get? hu] at h
    simp only [h]

lemma Sound.get?_subjects_eq_none_iff {r : Registry} (h : r.Sound) {u : String} :
    r.subjects.get? u = none ↔ r.versionsOf u = [] := by
  cases hu : r.subjects.get? u with
  | none => simp [versionsOf, hu]
  | some ms => simpa [versionsOf, hu] using h.inhabited hu

lemma Sound.version_isOk_iff {r : Registry} (h : r.Sound) (room : r.lastId.toNat < 2 ^ 31)
    (u : String) (v : Int32) :
    (∃ m, r.version ⟨u, v⟩ = .ok m) ↔ 1 ≤ v.toInt ∧ v.toInt ≤ (r.versionsOf u).length := by
  constructor
  · rintro ⟨m, hm⟩
    obtain ⟨hv, i, hi, rfl, -⟩ := List.find?_eq_some_iff_getElem.mp (find?_of_version hm)
    have hn := h.toInt_version room hi
    rw [of_decide_eq_true hv] at hn
    change v.toInt = i + 1 at hn
    change i < (r.versionsOf u).length at hi
    omega
  · rintro ⟨h1, hn⟩
    have hi : (v.toInt - 1).toNat < (r.versionsOf u).length := by omega
    have hv : v.toInt = ((v.toInt - 1).toNat : ℕ) + 1 := by omega
    exact ⟨_, version_of_find? (h.find?_version room hi hv)⟩

lemma Sound.latest_eq_version {r : Registry} (h : r.Sound) (room : r.lastId.toNat < 2 ^ 31)
    (u : String) : r.latest u = r.version ⟨u, Int32.ofNat (r.versionsOf u).length⟩ := by
  have hle := h.length_versionsOf_le u
  rcases Nat.eq_zero_or_pos (r.versionsOf u).length with h0 | hpos
  · have hnil := List.length_eq_zero_iff.mp h0
    have hnone := h.get?_subjects_eq_none_iff.mpr hnil
    unfold latest version
    simp only [hnil, hnone, List.getLast?_nil]
  · have hlast : (r.versionsOf u).length - 1 < (r.versionsOf u).length := by omega
    have hnum : (Int32.ofNat (r.versionsOf u).length).toInt =
        ((r.versionsOf u).length - 1 : ℕ) + 1 := by
      rw [Int32.toInt_ofNat_of_lt (by omega)]
      omega
    rw [version_of_find? (h.find?_version room hlast hnum)]
    unfold latest
    rw [List.getLast?_eq_getElem?, List.getElem?_eq_getElem hlast]

/-! ### Subjects -/

lemma mem_subjects_addVersion {r : Registry} {u : String} {s : Schema} {id : UInt32} {u' : String} :
    u' ∈ (r.addVersion u s id).subjects.keys ↔ u' = u ∨ u' ∈ r.subjects.keys := by
  cases hid : r.withId? u id with
  | some m =>
    rw [addVersion_of_withId? hid]
    constructor
    · exact .inr
    · rintro (rfl | hu)
      · rw [Table.mem_keys_iff, Option.isSome_iff_ne_none]
        intro hu
        simp [withId?, versionsOf, hu] at hid
      · exact hu
  | none =>
    rw [Table.mem_keys_iff, Table.mem_keys_iff, get?_subjects_addVersion hid]
    split <;> simp [*]

lemma mem_subjects_register {r : Registry} {u : String} {s : Schema} {n : Bool} {u' : String} :
    u' ∈ (r.register u s n).2.subjects.keys ↔ u' = u ∨ u' ∈ r.subjects.keys := by
  cases hl : r.lookup? s n with
  | some id => rw [register_of_lookup? hl, mem_subjects_addVersion]
  | none =>
    rw [register_of_lookup?_none hl, mem_subjects_addVersion]
    rfl

lemma mem_subjects_registerAll {r : Registry} {qs : List Registration} {u : String} :
    u ∈ (r.registerAll qs).subjects.keys ↔ u ∈ r.subjects.keys ∨ ∃ q ∈ qs, q.subject = u := by
  induction qs generalizing r with
  | nil => simp
  | cons q qs ih =>
    rw [registerAll_cons, ih, mem_subjects_register, List.exists_mem_cons_iff, eq_comm, or_assoc,
      or_left_comm]

lemma mem_subjectNames_iff {r : Registry} {u : String} :
    u ∈ r.subjectNames ↔ u ∈ r.subjects.keys := by
  rw [subjectNames, List.mem_mergeSort]

lemma Sound.pairwise_subjectNames {r : Registry} (h : r.Sound) :
    r.subjectNames.Pairwise (· < ·) := by
  have htrans : ∀ a b c : String, decide (a ≤ b) = true → decide (b ≤ c) = true →
      decide (a ≤ c) = true := by
    intro a b c hab hbc
    exact decide_eq_true (String.le_trans (of_decide_eq_true hab) (of_decide_eq_true hbc))
  have htotal : ∀ a b : String, (decide (a ≤ b) || decide (b ≤ a)) = true := by
    intro a b
    simpa using String.le_total a b
  have hsorted : r.subjectNames.Pairwise (· ≤ ·) :=
    (List.pairwise_mergeSort htrans htotal r.subjects.keys).imp of_decide_eq_true
  have hnodup : r.subjectNames.Nodup := (List.mergeSort_perm _ _).nodup_iff.mpr h.subjects
  refine hsorted.imp₂ (fun a b hle hne => ?_) hnodup
  exact String.not_le.mp fun hge => hne (String.le_antisymm hle hge)

/-! ### Contents -/

/-- What the tables of a registry have to do with each other. -/
structure WellFormed (r : Registry) : Prop where
  ids : ∀ id, (r.schemas.get? id).isSome ↔ 1 ≤ id.toNat ∧ id.toNat ≤ r.lastId.toNat
  exact : ∀ k id, r.exact.get? k = some id → (r.schemas.get? id).isSome
  normalized : ∀ k id, r.normalized.get? k = some id → (r.schemas.get? id).isSome
  inhabited : ∀ u ms, r.subjects.get? u = some ms → ms ≠ []
  numbered : ∀ u, (r.versionsOf u).map (fun m => m.version.toInt) =
    (List.range (r.versionsOf u).length).map fun i : ℕ => (i : Int) + 1
  owned : ∀ u, ∀ m ∈ r.versionsOf u, m.subject = u
  distinct : ∀ u, ((r.versionsOf u).map Registered.id).Nodup
  known : ∀ u, ∀ m ∈ r.versionsOf u, (r.schemas.get? m.id).isSome

lemma Sound.wellFormed {r : Registry} (h : r.Sound) (room : r.lastId.toNat < 2 ^ 31) :
    r.WellFormed := by
  have hfiled : ∀ n k id, (r.index n).get? k = some id → (r.schemas.get? id).isSome := by
    intro n k id hk
    obtain ⟨t, ht, -⟩ := h.filed hk
    rw [ht]
    rfl
  refine ⟨h.ids, hfiled false, hfiled true, fun u ms => h.inhabited, h.toInt_numbers room,
    fun u => (h.histories u).owned, fun u => (h.histories u).distinct, ?_⟩
  intro u m hm
  obtain ⟨t, -, ht, -⟩ := (h.histories u).known m hm
  rw [ht]
  rfl

end Registry

open Registry in
/-- **What a reached registry holds.** Its tables agree, the versions of each subject can be fetched
by the numbers from one to their count and the last is the latest, and the subjects are listed in
strictly ascending order, each that a registration named. -/
theorem reached_contents (os : List Operation) (h : registerCalls os < 2 ^ 31) :
    let r := (Client.reached os).registry
    r.WellFormed ∧
    (∀ u v, (∃ m, r.version ⟨u, v⟩ = .ok m) ↔ 1 ≤ v.toInt ∧ v.toInt ≤ (r.versionsOf u).length) ∧
    (∀ u, r.latest u = r.version ⟨u, Int32.ofNat (r.versionsOf u).length⟩) ∧
    (∀ u, (r.versionNumbers u).map Int32.toInt =
      (List.range (r.versionsOf u).length).map fun i : ℕ => (i : Int) + 1) ∧
    r.subjectNames.Pairwise (· < ·) ∧
    ∀ u, u ∈ r.subjectNames ↔ ∃ q ∈ Client.registrations {} os, q.subject = u := by
  intro r
  have hs : r.Sound := Client.sound_reached h
  have hroom : r.lastId.toNat < 2 ^ 31 := Nat.lt_of_le_of_lt (Client.lastId_reached_le h) h
  refine ⟨hs.wellFormed hroom, hs.version_isOk_iff hroom, hs.latest_eq_version hroom, ?_,
    hs.pairwise_subjectNames, ?_⟩
  · intro u
    rw [versionNumbers, List.map_map]
    exact hs.toInt_numbers hroom u
  · intro u
    have hr : r = Registry.empty.registerAll (Client.registrations {} os) :=
      Client.registry_reached os
    rw [mem_subjectNames_iff, hr, mem_subjects_registerAll]
    simp [Registry.empty, Table.keys, Table.empty]

theorem reached_contents_after_two_versions :
    let os : List Operation := [.register ⟨"b", ⟨"message M", .protobuf, []⟩, false⟩,
      .register ⟨"b", ⟨"message N", .protobuf, []⟩, true⟩, .setFault .register (some "down"),
      .register ⟨"a", ⟨"message M", .protobuf, []⟩, false⟩]
    registerCalls os < 2 ^ 31 ∧ (∃ m, (Client.reached os).registry.version ⟨"b", 2⟩ = .ok m) ∧
      "a" ∉ (Client.reached os).registry.subjectNames := by
  intro os
  obtain ⟨-, hfetch, -, -, -, hnames⟩ := reached_contents os (by decide)
  refine ⟨by decide, (hfetch "b" 2).mpr (by decide +kernel), fun ha => ?_⟩
  obtain ⟨q, hq, hu⟩ := (hnames "a").mp ha
  revert q
  decide +kernel

end SchemaRegistry
