import Mathlib.Algebra.Group.Nat.Even
import Mathlib.Data.List.Basic
import Mathlib.Data.List.Induction
import Mathlib.Tactic.Lemma
import SchemaRegistry.Text.Hex

/-!
Bytes in hexadecimal digits. Two digits of either case spell a byte; what is read are the bytes that
a text spells, and what is written spells them in lower case.
-/

namespace SchemaRegistry.Text

lemma utf8_of_ascii {s : String} (h : ∀ c ∈ s.toList, c.toNat < 128) :
    utf8 s = s.toList.map fun c => UInt8.ofNat c.toNat := by
  have hchars : ∀ cs : List Char, (∀ c ∈ cs, c.toNat < 128) →
      cs.flatMap String.utf8EncodeChar = cs.map fun c => UInt8.ofNat c.toNat := by
    intro cs hcs
    induction cs with
    | nil => rfl
    | cons c cs ih =>
      obtain ⟨hc, hcs⟩ := List.forall_mem_cons.mp hcs
      have hone : String.utf8EncodeChar c = [UInt8.ofNat c.toNat] := by
        simp [String.utf8EncodeChar]
        omega
      rw [List.flatMap_cons, hone, ih hcs]
      rfl
  have hbytes : s.toByteArray = s.toList.utf8Encode := by
    rw [← String.toByteArray_ofList, String.ofList_toList]
  rw [utf8, hbytes, ← hchars _ h]
  simp [List.utf8Encode]

lemma toList_toLower (s : String) : s.toLower.toList = s.toList.map Char.toLower :=
  String.toList_map

namespace Hex

variable {cs : List Char} {bs : List UInt8} {s : String}

/-! ### Digits -/

/-- The digits, of either case. -/
def digits : List Char := "0123456789abcdefABCDEF".toList

lemma value_of_mem_digits : ∀ c ∈ digits, ∃ v < 16, digitIn? 16 c = some v ∧
    digitChar v = c.toLower ∧ c.toNat < 128 :=
  List.forall_iff_forall_mem.mp (by decide)

lemma digitChar_mem_digits : ∀ v < 16, digitChar v ∈ digits ∧
    digitIn? 16 (digitChar v) = some v := by
  decide

lemma digitChar_eq : ∀ v < 16, digitChar v = Nat.digitChar v := by
  decide

lemma digit_of_mem {c : Char} {v : Nat} (hc : c ∈ digits) (hv : digitIn? 16 c = some v) (i : Nat) :
    digit (UInt8.ofNat c.toNat) i = .ok v := by
  obtain ⟨-, -, -, -, hascii⟩ := value_of_mem_digits c hc
  have hbyte : (UInt8.ofNat c.toNat).toNat = c.toNat :=
    UInt8.toNat_ofNat_of_lt' (Nat.lt_trans hascii (by decide))
  rw [digit, hbyte, Char.ofNat_toNat, hv]

/-! ### Bytes that digits spell -/

/-- The digits spell the bytes, the higher half of each first. -/
inductive Spells : List Char → List UInt8 → Prop where
  | nil : Spells [] []
  | cons {a b : Char} {x y : Nat} {cs : List Char} {bs : List UInt8} (ha : a ∈ digits)
      (hb : b ∈ digits) (hx : digitIn? 16 a = some x) (hy : digitIn? 16 b = some y)
      (rest : Spells cs bs) : Spells (a :: b :: cs) (UInt8.ofNat (16 * x + y) :: bs)

lemma exists_spells (hdigits : ∀ c ∈ cs, c ∈ digits) (heven : Even cs.length) :
    ∃ bs, Spells cs bs := by
  induction cs using List.twoStepInduction with
  | nil => exact ⟨[], .nil⟩
  | singleton c => exact absurd heven (by simp)
  | cons_cons a b cs ih =>
    obtain ⟨ha, hdigits⟩ := List.forall_mem_cons.mp hdigits
    obtain ⟨hb, hdigits⟩ := List.forall_mem_cons.mp hdigits
    obtain ⟨x, -, hx, -⟩ := value_of_mem_digits a ha
    obtain ⟨y, -, hy, -⟩ := value_of_mem_digits b hb
    obtain ⟨bs, hbs⟩ := ih hdigits (by simpa [Nat.even_add] using heven)
    exact ⟨_, .cons ha hb hx hy hbs⟩

namespace Spells

lemma mem_digits (h : Spells cs bs) : ∀ c ∈ cs, c ∈ digits := by
  induction h with
  | nil => exact nofun
  | cons ha hb _ _ _ ih => exact List.forall_mem_cons.mpr ⟨ha, List.forall_mem_cons.mpr ⟨hb, ih⟩⟩

lemma length_eq (h : Spells cs bs) : cs.length = 2 * bs.length := by
  induction h with
  | nil => rfl
  | cons _ _ _ _ _ ih =>
    simp only [List.length_cons, ih]
    omega

lemma take (h : Spells cs bs) (n : Nat) : Spells (cs.take (2 * n)) (bs.take n) := by
  induction h generalizing n with
  | nil => simpa using Spells.nil
  | cons ha hb hx hy _ ih =>
    cases n with
    | zero => exact .nil
    | succ n => exact .cons ha hb hx hy (ih n)

lemma flatMap_ofByte (h : Spells cs bs) : bs.flatMap ofByte = cs.map Char.toLower := by
  induction h with
  | nil => rfl
  | @cons a b x y cs bs ha hb hx hy _ ih =>
    obtain ⟨v, hlt, hv, hxlower, -⟩ := value_of_mem_digits a ha
    obtain ⟨w, hlt', hw, hylower, -⟩ := value_of_mem_digits b hb
    cases hx.symm.trans hv
    cases hy.symm.trans hw
    have hfits : 16 * x + y < UInt8.size := Nat.lt_of_lt_of_eq (by omega : 16 * x + y < 256) rfl
    have hbyte : (UInt8.ofNat (16 * x + y)).toNat = 16 * x + y := UInt8.toNat_ofNat_of_lt' hfits
    have hhigh : (16 * x + y) / 16 = x := by omega
    have hlow : (16 * x + y) % 16 = y := by omega
    rw [List.flatMap_cons, ih, ofByte, hbyte, hhigh, hlow, hxlower, hylower]
    rfl

lemma encode_eq (h : Spells s.toList bs) : encode bs = s.toLower := by
  apply String.toList_injective
  rw [encode, String.toList_ofList, h.flatMap_ofByte, toList_toLower]

lemma pairs_eq (h : Spells cs bs) (i : Nat) :
    pairs i (cs.map fun c => UInt8.ofNat c.toNat) = .ok bs := by
  induction h generalizing i with
  | nil => rfl
  | cons ha hb hx hy _ ih =>
    rw [List.map_cons, List.map_cons, pairs, digit_of_mem ha hx, digit_of_mem hb hy]
    simp only [bind, Except.bind, ih]
    rfl

lemma decode_eq (h : Spells s.toList bs) : decode s = .ok bs := by
  have hascii : ∀ c ∈ s.toList, c.toNat < 128 := fun c hc => by
    obtain ⟨-, -, -, -, hascii⟩ := value_of_mem_digits c (h.mem_digits c hc)
    exact hascii
  have heven : ¬ (s.toList.map fun c => UInt8.ofNat c.toNat).length % 2 = 1 := by
    rw [List.length_map, h.length_eq]
    omega
  simp only [decode, utf8_of_ascii hascii, if_neg heven, h.pairs_eq]

end Spells

lemma spells_flatMap_ofByte (bs : List UInt8) : Spells (bs.flatMap ofByte) bs := by
  induction bs with
  | nil => exact .nil
  | cons b bs ih =>
    have hb := b.toNat_lt
    obtain ⟨hhigh, hx⟩ := digitChar_mem_digits (b.toNat / 16) (by omega)
    obtain ⟨hlow, hy⟩ := digitChar_mem_digits (b.toNat % 16) (by omega)
    have hbyte : UInt8.ofNat (16 * (b.toNat / 16) + b.toNat % 16) = b := by
      rw [Nat.div_add_mod, UInt8.ofNat_toNat]
    have hcons := Spells.cons hhigh hlow hx hy ih
    rwa [hbyte] at hcons

lemma spells_encode (bs : List UInt8) : Spells (encode bs).toList bs := by
  rw [encode, String.toList_ofList]
  exact spells_flatMap_ofByte bs

/-! ### Numbers with a fixed count of digits -/

/-- The last digits of a number. -/
def lastDigits : Nat → Nat → List Char
  | 0, _ => []
  | count + 1, n => lastDigits count (n / 16) ++ [Nat.digitChar (n % 16)]

lemma lastDigits_add_two (count : Nat) {n : Nat} {b : UInt8} (hb : b.toNat = n % 256) :
    lastDigits (count + 2) n = lastDigits count (n / 256) ++ ofByte b := by
  have hrest : n / 16 / 16 = n / 256 := Nat.div_div_eq_div_mul n 16 16
  have hhigh : digitChar (b.toNat / 16) = Nat.digitChar (n / 16 % 16) := by
    have hvalue : b.toNat / 16 = n / 16 % 16 := by omega
    rw [hvalue, digitChar_eq _ (Nat.mod_lt _ (by decide))]
  have hlow : digitChar (b.toNat % 16) = Nat.digitChar (n % 16) := by
    have hvalue : b.toNat % 16 = n % 16 := by omega
    rw [hvalue, digitChar_eq _ (Nat.mod_lt _ (by decide))]
  rw [lastDigits, lastDigits, hrest, ofByte, hhigh, hlow, List.append_assoc]
  rfl

lemma leftpad_concat {α : Type} (count : Nat) (a x : α) (l : List α) :
    (l ++ [x]).leftpad (count + 1) a = l.leftpad count a ++ [x] := by
  have hlength : count + 1 - (l.length + 1) = count - l.length := by omega
  simp [List.leftpad, hlength]

lemma leftpad_toDigits {count n : Nat} (h : n < 16 ^ (count + 1)) :
    (Nat.toDigits 16 n).leftpad (count + 1) '0' = lastDigits (count + 1) n := by
  induction count generalizing n with
  | zero =>
    have hlt : n < 16 := by simpa using h
    rw [Nat.toDigits_of_lt_base hlt, lastDigits, Nat.mod_eq_of_lt hlt]
    rfl
  | succ count ih =>
    have hrest : n / 16 < 16 ^ (count + 1) := Nat.div_lt_of_lt_mul (by rwa [← Nat.pow_succ'])
    rw [lastDigits, ← ih hrest, ← leftpad_concat]
    rcases Nat.lt_or_ge n 16 with hlt | hge
    · -- a single digit has no zero in front that `toDigits` would write
      rw [Nat.toDigits_of_lt_base hlt, Nat.div_eq_of_lt hlt, Nat.mod_eq_of_lt hlt]
      simp [List.leftpad, List.replicate_succ']
    · rw [Nat.toDigits_of_base_le (by decide) hge]

end Hex

end SchemaRegistry.Text
