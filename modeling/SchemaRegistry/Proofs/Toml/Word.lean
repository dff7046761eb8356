import SchemaRegistry.Proofs.Text.Integer
import SchemaRegistry.Toml.Value

/-!
Integers in TOML. The decimal text of an integer is a word that is read as this integer: it is no
date and no other number, and it has no zero in front.
-/

namespace SchemaRegistry.Toml

open SchemaRegistry.Text (ofNat ofInt mem_ofInt isDigit_of_mem_ofNat toList_ofNat)

variable {c : Char} {cs rest : List Char}

/-! ### Dates -/

lemma field?_eq_some {count low high n : Nat} (h : field? count low high cs = some (n, rest)) :
    rest = cs.drop count := by
  simp only [field?, Option.bind_eq_bind] at h
  split_ifs at h
  obtain ⟨m, -, h⟩ := Option.bind_eq_some_iff.mp h
  split_ifs at h
  exact (Prod.mk.inj (Option.some.inj h)).2.symm

lemma expect?_of_notMem (h : c ∉ cs) : expect? c cs = none := by
  cases cs with
  | nil => rfl
  | cons d cs => exact if_neg (List.ne_of_not_mem_cons h)

lemma time?_of_notMem (h : ':' ∉ cs) (limits : TimeLimits) : time? limits cs = none := by
  unfold time?
  cases hf : field? 2 0 limits.hour cs with
  | none => rfl
  | some p =>
    obtain ⟨n, rest⟩ := p
    have hrest : ':' ∉ rest := field?_eq_some hf ▸ fun hm => h (List.mem_of_mem_drop hm)
    simp [expect?_of_notMem hrest]

lemma date?_of_notMem (h : '-' ∉ cs.tail) : date? cs = none := by
  unfold date?
  cases hf : field? 4 0 9999 cs with
  | none => rfl
  | some p =>
    obtain ⟨n, rest⟩ := p
    have hrest : '-' ∉ rest := by
      rw [field?_eq_some hf, ← List.drop_tail]
      exact fun hm => h (List.mem_of_mem_drop hm)
    simp [expect?_of_notMem hrest]

lemma isDate_of_notMem (hcolon : ':' ∉ cs) (hhyphen : '-' ∉ cs.tail) : isDate cs = false := by
  simp [isDate, time?_of_notMem hcolon, date?_of_notMem hhyphen]

/-! ### Integers -/

lemma digits?_ofNat (n : Nat) : digits? 10 (ofNat n).toList = some (ofNat n).toList := by
  have hdigit : ∀ c ∈ (ofNat n).toList, (Text.digitIn? 10 c).isSome := fun c hc => by
    rw [Text.digitIn?_ten (isDigit_of_mem_ofNat hc)]
    rfl
  have hsplit : Text.split '_' (ofNat n).toList = [(ofNat n).toList] :=
    Text.split_of_notMem fun hc => absurd (isDigit_of_mem_ofNat hc) (by decide)
  have hgroup : (!(ofNat n).toList.isEmpty &&
      (ofNat n).toList.all fun c => (Text.digitIn? 10 c).isSome) = true := by
    rw [List.isEmpty_eq_false_iff.mpr (Text.toList_ofNat_ne_nil n), List.all_eq_true.mpr hdigit]
    rfl
  simp only [digits?, hsplit, List.all_cons, List.all_nil, hgroup, Bool.and_true, if_true,
    List.flatten_singleton]

lemma ofNat_zero_alone (n : Nat) :
    ¬ ((ofNat n).toList.head? = some '0' ∧ (ofNat n).toList.length ≠ 1) := by
  rw [toList_ofNat]
  rintro ⟨hhead, hlength⟩
  rcases Nat.eq_zero_or_pos n with rfl | hpos
  · exact hlength rfl
  · exact Text.head?_toDigits_ne_zero hpos hhead

lemma toList_ofInt_of_neg {i : Int} (h : i < 0) :
    (ofInt i).toList = '-' :: (ofNat i.natAbs).toList := by
  rw [ofInt, if_pos h, String.toList_append]
  rfl

lemma toList_ofInt_of_nonneg {i : Int} (h : ¬ i < 0) : (ofInt i).toList = (ofNat i.natAbs).toList := by
  rw [ofInt, if_neg h]

lemma sign_of_isDigit (h : ∀ c ∈ cs, c.isDigit) : sign cs = ([], cs) := by
  unfold sign
  split
  · exact absurd (h '+' List.mem_cons_self) (by decide)
  · exact absurd (h '-' List.mem_cons_self) (by decide)
  · rfl

lemma decimal?_ofInt (i : Int) : decimal? (ofInt i).toList = some (ofInt i).toList := by
  unfold decimal?
  by_cases h : i < 0
  · rw [toList_ofInt_of_neg h, sign]
    simp only [if_neg (ofNat_zero_alone _), digits?_ofNat, Option.map_some, List.singleton_append]
  · rw [toList_ofInt_of_nonneg h, sign_of_isDigit fun c => isDigit_of_mem_ofNat]
    simp only [if_neg (ofNat_zero_alone _), digits?_ofNat, Option.map_some, List.nil_append]

lemma notMem_ofInt (i : Int) (hc : c.isDigit = false) (hsign : c ≠ '-') : c ∉ (ofInt i).toList := by
  intro hm
  rcases mem_ofInt hm with h | h
  · exact hsign h
  · rw [hc] at h
    cases h

lemma integer?_ofInt (x : Int64) : integer? (ofInt x.toInt).toList = some x := by
  unfold integer?
  split
  case h_1 heq => exact absurd (heq ▸ by simp) (notMem_ofInt (c := 'x') x.toInt rfl (by decide))
  case h_2 heq => exact absurd (heq ▸ by simp) (notMem_ofInt (c := 'o') x.toInt rfl (by decide))
  case h_3 heq => exact absurd (heq ▸ by simp) (notMem_ofInt (c := 'b') x.toInt rfl (by decide))
  case h_4 =>
    simp only [decimal?_ofInt, Option.bind_eq_bind, Option.bind_some, Text.int?_ofInt,
      Text.toInt64?_toInt]

lemma hyphen_notMem_tail_ofInt (i : Int) : '-' ∉ (ofInt i).toList.tail := by
  have hdigits : '-' ∉ (ofNat i.natAbs).toList := fun hm =>
    absurd (isDigit_of_mem_ofNat hm) (by decide)
  by_cases h : i < 0
  · rwa [toList_ofInt_of_neg h]
  · rw [toList_ofInt_of_nonneg h]
    exact fun hm => hdigits (List.mem_of_mem_tail hm)

/-! ### Words -/

/-- **An integer is read back** from its decimal text. -/
theorem ofWord?_ofInt (x : Int64) : ofWord? (ofInt x.toInt).toList = some (.int x) := by
  have hletter : ∀ w : List Char, 'e' ∈ w → (ofInt x.toInt).toList ≠ w := fun w hw heq =>
    notMem_ofInt (c := 'e') x.toInt rfl (by decide) (heq ▸ hw)
  have hdate : isDate (ofInt x.toInt).toList = false :=
    isDate_of_notMem (notMem_ofInt (c := ':') x.toInt rfl (by decide)) (hyphen_notMem_tail_ofInt x.toInt)
  rw [ofWord?, if_neg (hletter _ (by decide)), if_neg (hletter _ (by decide)), hdate,
    integer?_ofInt]
  rfl

lemma isWordChar_of_mem_ofInt {i : Int} (h : c ∈ (ofInt i).toList) : isWordChar c := by
  rcases mem_ofInt h with rfl | hdigit
  · decide
  · simp [isWordChar, Char.isAlphanum, hdigit]

end SchemaRegistry.Toml
