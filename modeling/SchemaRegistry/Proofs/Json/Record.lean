import SchemaRegistry.Json.Record
import SchemaRegistry.Proofs.Json.Compact
import SchemaRegistry.Proofs.Text.Integer
import SchemaRegistry.Schema.Json
import SchemaRegistry.Table

/-!
Records that were written. The fields of an object are its members by name, and texts and integers
are read as what was written.
-/

namespace SchemaRegistry.Json

/-! ### Integers -/

lemma next_sign_digitChar :
    ∀ d < 10, 0 < d → Place.sign.next (Nat.digitChar d) = some (.whole, [Nat.digitChar d]) := by
  decide

lemma next_whole_digitChar :
    ∀ d < 10, Place.whole.next (Nat.digitChar d) = some (.whole, [Nat.digitChar d]) := by
  decide

lemma Numeral.toDigits {text : List Char} (h : Numeral .sign text) {n : Nat} (hn : 0 < n) :
    Numeral .whole ((Nat.toDigits 10 n).reverse ++ text) := by
  induction n using Nat.strongRecOn with
  | ind n ih =>
    rcases Nat.lt_or_ge n 10 with hlt | hge
    · rw [Nat.toDigits_of_lt_base hlt]
      exact h.next (next_sign_digitChar n hlt hn)
    · rw [Nat.toDigits_of_base_le (by decide) hge, List.reverse_append]
      have hwhole := ih (n / 10) (by omega) (by omega)
      exact hwhole.next (next_whole_digitChar (n % 10) (Nat.mod_lt n (by decide)))

lemma isNumber_ofInt (i : Int) : IsNumber (Text.ofInt i) := by
  unfold Text.ofInt
  split_ifs with hneg
  · have hsign : ("-" ++ Text.ofNat i.natAbs).toList = '-' :: Nat.toDigits 10 i.natAbs := by
      rw [String.toList_append, Text.toList_ofNat]
      rfl
    refine ⟨.whole, rfl, ?_⟩
    rw [hsign, List.reverse_cons]
    exact Numeral.minus.toDigits (by omega)
  · rcases Nat.eq_zero_or_pos i.natAbs with hzero | hpos
    · rw [hzero]
      exact ⟨.zero, rfl, Numeral.empty.next rfl⟩
    · refine ⟨.whole, rfl, ?_⟩
      rw [Text.toList_ofNat]
      simpa using Numeral.empty.toDigits hpos

@[simp] lemma spelled_ofInt (i : Int) : (ofInt i).document.Spelled :=
  Document.spelled_number.mpr (isNumber_ofInt i)

lemma ofInt_ne_minus_zero (i : Int) : Text.ofInt i ≠ "-0" := by
  intro h
  have hread := Text.int?_ofInt i
  rw [h] at hread
  have hzero : i = 0 := by
    cases hread
    rfl
  rw [hzero] at h
  exact absurd h (by decide)

lemma integer?_ofInt (i : Int) : (ofInt i).document.integer? = some i := by
  rw [ofInt, document, Document.integer?, if_neg (ofInt_ne_minus_zero i), Text.int?_ofInt]

@[simp] lemma int32?_ofInt (x : Int32) : (ofInt x.toInt).document.int32? = some x := by
  rw [Document.int32?, integer?_ofInt, Option.bind_eq_bind, Option.bind_some, Text.toInt32?_toInt]

@[simp] lemma uint32?_ofInt (x : UInt32) : (ofInt x.toNat).document.uint32? = some x := by
  rw [Document.uint32?, integer?_ofInt, Option.bind_eq_bind, Option.bind_some, Text.toUInt32?_toNat]

@[simp] lemma text?_string (s : String) : (string s).document.text? = some s := rfl

/-! ### Fields -/

lemma filter_memberDocuments {ms : List (String × Json)} (h : (ms.map Prod.fst).Nodup)
    (key : String) : ((memberDocuments ms).filter fun m => m.1 = some key) =
      ((ms.lookup key).map fun v => (some key, v.document)).toList := by
  induction ms with
  | nil => rfl
  | cons m ms ih =>
    obtain ⟨k, v⟩ := m
    obtain ⟨hk, hms⟩ := List.nodup_cons.mp h
    rw [memberDocuments, List.filter_cons, ih hms, Table.lookup_cons]
    by_cases hkey : key = k
    · subst hkey
      have hnone : ms.lookup key = none := by
        rwa [← Option.not_isSome_iff_eq_none, Table.isSome_lookup_iff]
      simp [hnone]
    · have hkey' : k ≠ key := fun heq => hkey heq.symm
      simp [hkey, hkey']

lemma onlyMember?_memberDocuments {ms : List (String × Json)} (h : (ms.map Prod.fst).Nodup)
    (key : String) :
    Document.onlyMember? (memberDocuments ms) key = some ((ms.lookup key).map document) := by
  unfold Document.onlyMember?
  rw [filter_memberDocuments h]
  cases ms.lookup key <;> rfl

lemma fields?_object {ms : List (String × Json)} (h : (ms.map Prod.fst).Nodup)
    (names : List String) : (object ms).document.fields? names =
      some (names.map fun key => (ms.lookup key).map document) := by
  have hkeys : ((memberDocuments ms).all fun m => m.1.isSome) = true := by
    rw [memberDocuments_eq_map]
    simp
  rw [document, Document.fields?, if_pos hkeys]
  induction names with
  | nil => rfl
  | cons key names ih => simp [List.mapM_cons, onlyMember?_memberDocuments h, ih]

/-! ### Reading what was written -/

/-- What becomes of a text when its record is read and written again. -/
def rewrite? {α : Type} (toJson : α → Json) (ofDocument? : Document → Option α) (text : String) :
    Option String :=
  (read ofDocument? text).map fun x => (toJson x).compact

/-- Records survive: each one is read from its compact text, and a text that was written again stays
as it is when it is written once more. -/
structure Survives {α : Type} (toJson : α → Json) (ofDocument? : Document → Option α) : Prop where
  read_compact : ∀ x, read ofDocument? (toJson x).compact = some x
  rewrite_rewrite : ∀ text,
    (rewrite? toJson ofDocument? text).bind (rewrite? toJson ofDocument?) =
      rewrite? toJson ofDocument? text

lemma survives_of_document {α : Type} {toJson : α → Json} {ofDocument? : Document → Option α}
    (hspelled : ∀ x, (toJson x).document.Spelled)
    (hread : ∀ x, ofDocument? (toJson x).document = some x) : Survives toJson ofDocument? := by
  have hcompact : ∀ x, read ofDocument? (toJson x).compact = some x := by
    intro x
    rw [read, parse?_compact (hspelled x), Option.bind_some, hread]
  refine ⟨hcompact, fun text => ?_⟩
  unfold rewrite?
  cases read ofDocument? text with
  | none => rfl
  | some x => rw [Option.map_some, Option.bind_some, hcompact, Option.map_some]

end SchemaRegistry.Json
