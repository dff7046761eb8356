import Mathlib.Algebra.Group.Nat.Defs
import Mathlib.Tactic.Lemma
import SchemaRegistry.Digest.Sha256

/-!
Words of 32 bits and their four bytes, the highest first.
-/

namespace SchemaRegistry.Digest.Sha256

lemma shiftLeft_or_byte (a y k : Nat) (h : y < 2 ^ 8) :
    a <<< (k + 8) ||| y <<< k = (a * 256 + y) <<< k := by
  rw [Nat.add_comm k 8, Nat.shiftLeft_add, ← Nat.shiftLeft_or_distrib,
    ← Nat.shiftLeft_add_eq_or_of_lt h, Nat.shiftLeft_eq a 8]

/-- No bit of a byte is lost as long as it stays within the word. -/
lemma toNat_shiftLeft_byte (b : UInt8) {k : UInt32} (hk : k.toNat ≤ 24) :
    (b.toUInt32 <<< k).toNat = b.toNat <<< k.toNat := by
  have hb := b.toNat_lt
  have hp : 2 ^ k.toNat ≤ 2 ^ 24 := Nat.pow_le_pow_right (by decide) hk
  rw [UInt32.toNat_shiftLeft, UInt8.toNat_toUInt32, Nat.mod_eq_of_lt (by omega : k.toNat < 32),
    Nat.shiftLeft_eq]
  refine Nat.mod_eq_of_lt ?_
  calc b.toNat * 2 ^ k.toNat ≤ b.toNat * 2 ^ 24 := Nat.mul_le_mul_left _ hp
    _ < 2 ^ 32 := by omega

lemma toNat_word (b0 b1 b2 b3 : UInt8) :
    (word b0 b1 b2 b3).toNat =
      ((b0.toNat * 256 + b1.toNat) * 256 + b2.toNat) * 256 + b3.toNat := by
  have h1 := b1.toNat_lt
  have h2 := b2.toNat_lt
  have h3 := b3.toNat_lt
  unfold word
  rw [UInt32.toNat_or, UInt32.toNat_or, UInt32.toNat_or, toNat_shiftLeft_byte _ (by decide),
    toNat_shiftLeft_byte _ (by decide), toNat_shiftLeft_byte _ (by decide), UInt8.toNat_toUInt32]
  change (b0.toNat <<< (16 + 8) ||| b1.toNat <<< (8 + 8) ||| b2.toNat <<< (0 + 8)) |||
    b3.toNat <<< 0 = _
  rw [shiftLeft_or_byte _ _ 16 h1, shiftLeft_or_byte _ _ 8 h2, shiftLeft_or_byte _ _ 0 h3]
  rfl

lemma word_bytes (w : UInt32) :
    word (w >>> 24).toUInt8 (w >>> 16).toUInt8 (w >>> 8).toUInt8 w.toUInt8 = w := by
  have hw := w.toNat_lt
  apply UInt32.toNat_inj.mp
  rw [toNat_word]
  simp only [UInt32.toNat_toUInt8, UInt32.toNat_shiftRight, Nat.shiftRight_eq_div_pow]
  change ((w.toNat / 2 ^ 24 % 2 ^ 8 * 256 + w.toNat / 2 ^ 16 % 2 ^ 8) * 256 +
    w.toNat / 2 ^ 8 % 2 ^ 8) * 256 + w.toNat % 2 ^ 8 = w.toNat
  omega

lemma wordBytes_word (b0 b1 b2 b3 : UInt8) : wordBytes (word b0 b1 b2 b3) = [b0, b1, b2, b3] := by
  have h0 := b0.toNat_lt
  have h1 := b1.toNat_lt
  have h2 := b2.toNat_lt
  have h3 := b3.toNat_lt
  simp only [wordBytes, List.cons.injEq, and_true, ← UInt8.toNat_inj, UInt32.toNat_toUInt8,
    UInt32.toNat_shiftRight, Nat.shiftRight_eq_div_pow, toNat_word]
  refine ⟨?_, ?_, ?_, ?_⟩
  · change _ / 2 ^ 24 % 2 ^ 8 = b0.toNat
    omega
  · change _ / 2 ^ 16 % 2 ^ 8 = b1.toNat
    omega
  · change _ / 2 ^ 8 % 2 ^ 8 = b2.toNat
    omega
  · omega

lemma words_bytes (s : State) : words s.bytes = [s.a, s.b, s.c, s.d, s.e, s.f, s.g, s.h] := by
  simp only [State.bytes, wordBytes, List.flatMap_cons, List.flatMap_nil, List.cons_append,
    List.nil_append, List.append_nil, words, word_bytes]

lemma bytes_injective : Function.Injective State.bytes := by
  intro s t h
  have hw := congrArg words h
  rw [words_bytes, words_bytes] at hw
  obtain ⟨sa, sb, sc, sd, se, sf, sg, sh⟩ := s
  obtain ⟨ta, tb, tc, td, te, tf, tg, th⟩ := t
  simpa using hw

end SchemaRegistry.Digest.Sha256
