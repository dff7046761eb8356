import SchemaRegistry.Proofs.Text.Joined

/-!
Integers read back from the text they were written as.
-/

namespace SchemaRegistry.Text

lemma digitIn?_ten {c : Char} (h : c.isDigit) : digitIn? 10 c = some (c.toNat - '0'.toNat) := by
  have hrange : '0' ≤ c ∧ c ≤ '9' := by
    simpa [Char.isDigit, Char.le_def] using h
  have hle : c.toNat ≤ 57 := (Char.isDigit_iff_toNat.mp h).2
  have hlt : c.toNat - 48 < 10 := by omega
  simp [digitIn?, hrange, hlt]

lemma natFrom_of_isDigit {cs : List Char} (h : ∀ c ∈ cs, c.isDigit) (n : Nat) :
    natFrom 10 n cs = some (Nat.ofDigitChars 10 cs n) := by
  induction cs generalizing n with
  | nil => rfl
  | cons c cs ih =>
    obtain ⟨hc, hcs⟩ := List.forall_mem_cons.mp h
    rw [natFrom, digitIn?_ten hc, Option.bind_eq_bind, Option.bind_some, ih hcs, Nat.mul_comm]
    rfl

lemma nat?_ofNat (n : Nat) : nat? (ofNat n).toList = some n := by
  have hne : (ofNat n).toList.isEmpty = false :=
    List.isEmpty_eq_false_iff.mpr (toList_ofNat_ne_nil n)
  rw [nat?, hne, if_neg Bool.false_ne_true, natFrom_of_isDigit fun c => isDigit_of_mem_ofNat,
    toList_ofNat, Nat.ofDigitChars_toDigits (by decide) (by decide)]

lemma int?_of_isDigit {cs : List Char} (h : ∀ c ∈ cs, c.isDigit) :
    int? cs = (nat? cs).map Int.ofNat := by
  unfold int?
  split
  · exact absurd (h '+' List.mem_cons_self) (by decide)
  · exact absurd (h '-' List.mem_cons_self) (by decide)
  · rfl

lemma int?_ofInt (i : Int) : int? (ofInt i).toList = some i := by
  unfold ofInt
  split_ifs with hneg
  · have hsign : ("-" ++ ofNat i.natAbs).toList = '-' :: (ofNat i.natAbs).toList := by
      rw [String.toList_append]
      rfl
    have habs : -Int.ofNat i.natAbs = i := by
      simp only [Int.ofNat_eq_natCast]
      omega
    rw [hsign, int?, nat?_ofNat, Option.map_some, habs]
  · have habs : Int.ofNat i.natAbs = i := by
      simp only [Int.ofNat_eq_natCast]
      omega
    rw [int?_of_isDigit fun c => isDigit_of_mem_ofNat, nat?_ofNat, Option.map_some, habs]

lemma toInt32?_toInt (x : Int32) : toInt32? x.toInt = some x := by
  rw [toInt32?, if_pos ⟨Int32.le_toInt x, Int32.toInt_le x⟩, Int32.ofInt_toInt]

lemma toInt64?_toInt (x : Int64) : toInt64? x.toInt = some x := by
  rw [toInt64?, if_pos ⟨Int64.le_toInt x, Int64.toInt_le x⟩, Int64.ofInt_toInt]

lemma int64?_ofInt (x : Int64) : int64? (ofInt x.toInt).toList = some x := by
  rw [int64?, int?_ofInt, Option.bind_eq_bind, Option.bind_some, toInt64?_toInt]

lemma toUInt32?_toNat (x : UInt32) : toUInt32? x.toNat = some x := by
  have hrange : (0 : Int) ≤ x.toNat ∧ (x.toNat : Int) < UInt32.size :=
    ⟨Int.natCast_nonneg _, Int.ofNat_lt.mpr x.toNat_lt_size⟩
  rw [toUInt32?, if_pos hrange, Int.toNat_natCast, UInt32.ofNat_toNat]

end SchemaRegistry.Text
