import SchemaRegistry.Envelope
import SchemaRegistry.Proofs.BigEndian

/-!
Envelopes and the bytes that they are written as. Reading accepts exactly what writing produces, and
tells a foreign message from a cut one by its first byte.
-/

namespace SchemaRegistry.Envelope

variable {bytes : List UInt8}

lemma parse_write (e : Envelope) : parse e.write = .ok e := by
  have hid : idOfBytes (e.schemaId >>> 24).toUInt8 (e.schemaId >>> 16).toUInt8
      (e.schemaId >>> 8).toUInt8 e.schemaId.toUInt8 = e.schemaId :=
    Digest.Sha256.word_bytes e.schemaId
  have hparse : parse e.write = .ok ⟨_, e.payload⟩ := rfl
  rw [hparse, hid]

lemma write_idOfBytes (b0 b1 b2 b3 : UInt8) (payload : List UInt8) :
    write ⟨idOfBytes b0 b1 b2 b3, payload⟩ = 0 :: b0 :: b1 :: b2 :: b3 :: payload := by
  have hid : idBytes (idOfBytes b0 b1 b2 b3) = [b0, b1, b2, b3] :=
    Digest.Sha256.wordBytes_word b0 b1 b2 b3
  rw [write, hid]
  rfl

/-- A message is a foreign one, cut off before its payload begins, or an envelope. -/
inductive Shape : List UInt8 → Prop where
  | foreign (b : UInt8) (r : List UInt8) (hb : b ≠ 0) : Shape (b :: r)
  | cut (bytes : List UInt8) (hb : ∀ b ∈ bytes.head?, b = 0) (short : bytes.length < 5) :
    Shape bytes
  | envelope (e : Envelope) : Shape e.write

lemma shape (bytes : List UInt8) : Shape bytes := by
  match bytes with
  | [] => exact .cut [] nofun (by decide)
  | b :: r =>
    by_cases hb : b = 0
    · subst hb
      match r with
      | b0 :: b1 :: b2 :: b3 :: payload =>
        rw [← write_idOfBytes]
        exact .envelope _
      | [] | [_] | [_, _] | [_, _, _] => exact .cut _ (by simp) (by simp)
    · exact .foreign b r hb

lemma parse_foreign {b : UInt8} (hb : b ≠ 0) (r : List UInt8) :
    parse (b :: r) = .error (.unknownMagicByte b) :=
  if_pos hb

lemma parse_cut (hb : ∀ b ∈ bytes.head?, b = 0) (short : bytes.length < 5) :
    parse bytes = .error (.truncated bytes.length) := by
  match bytes, hb, short with
  | [], _, _ => rfl
  | b :: r, hb, short =>
    obtain rfl := hb b rfl
    match r, short with
    | [], _ | [_], _ | [_, _], _ | [_, _, _], _ => rfl
    | b0 :: b1 :: b2 :: b3 :: payload, short => simp at short; omega

lemma parse_eq_ok_iff {e : Envelope} : parse bytes = .ok e ↔ e.write = bytes := by
  constructor
  · intro h
    cases shape bytes with
    | foreign b r hb =>
      rw [parse_foreign hb r] at h
      cases h
    | cut _ h0 short =>
      rw [parse_cut h0 short] at h
      cases h
    | envelope e' =>
      rw [parse_write e'] at h
      cases h
      rfl
  · rintro rfl
    exact parse_write e

lemma header_write (e : Envelope) : 5 ≤ e.write.length ∧ e.write.head? = some 0 :=
  ⟨by simp [write, idBytes], rfl⟩

lemma exists_parse_eq_ok_iff :
    (∃ e, parse bytes = .ok e) ↔ 5 ≤ bytes.length ∧ bytes.head? = some 0 := by
  constructor
  · rintro ⟨e, h⟩
    rw [← parse_eq_ok_iff.mp h]
    exact header_write e
  · rintro ⟨hlength, hhead⟩
    cases shape bytes with
    | foreign b r hb => exact absurd (Option.some.inj hhead) hb
    | cut _ _ short => omega
    | envelope e => exact ⟨e, parse_write e⟩

lemma parse_eq_unknownMagicByte_iff {b : UInt8} :
    parse bytes = .error (.unknownMagicByte b) ↔ bytes.head? = some b ∧ b ≠ 0 := by
  cases shape bytes with
  | foreign b' r hb =>
    simp only [parse_foreign hb r, Except.error.injEq, Error.unknownMagicByte.injEq,
      List.head?_cons, Option.some.injEq]
    exact ⟨fun h => ⟨h, h ▸ hb⟩, And.left⟩
  | cut _ h0 short =>
    simp only [parse_cut h0 short, Except.error.injEq, reduceCtorEq, false_iff]
    exact fun ⟨hb, hne⟩ => hne (h0 b hb)
  | envelope e =>
    simp only [parse_write e, (header_write e).2, Option.some.injEq, reduceCtorEq, false_iff]
    exact fun ⟨hb, hne⟩ => hne hb.symm

lemma parse_eq_truncated_iff {n : ℕ} :
    parse bytes = .error (.truncated n) ↔ n = bytes.length ∧ n < 5 ∧ ∀ b ∈ bytes.head?, b = 0 := by
  cases shape bytes with
  | foreign b r hb => simp [parse_foreign hb r, hb]
  | cut _ h0 short =>
    simp only [parse_cut h0 short, Except.error.injEq, Error.truncated.injEq]
    exact ⟨fun h => ⟨h.symm, h ▸ short, h0⟩, fun h => h.1.symm⟩
  | envelope e =>
    simp only [parse_write e, reduceCtorEq, false_iff]
    rintro ⟨rfl, short, -⟩
    have := (header_write e).1
    omega

lemma schemaId?_eq_ok_iff {id : UInt32} :
    schemaId? bytes = .ok id ↔ ∃ payload, parse bytes = .ok ⟨id, payload⟩ := by
  unfold schemaId?
  rcases parse bytes with e | ⟨id', payload⟩ <;> simp [Except.map]

lemma schemaId?_eq_error_iff {e : Error} : schemaId? bytes = .error e ↔ parse bytes = .error e := by
  unfold schemaId?
  rcases parse bytes with e' | e' <;> simp [Except.map]

/-- **Envelopes are read as they were written.** The messages that are read are exactly the written
ones, which are those of five bytes at least that begin with zero. Another first byte is refused as
such, however short the message is, and anything else as too short. The ID alone is read as with
the payload. -/
theorem parse_iff_written (bytes : List UInt8) :
    (∀ e, parse bytes = .ok e ↔ e.write = bytes) ∧
    ((∃ e, parse bytes = .ok e) ↔ 5 ≤ bytes.length ∧ bytes.head? = some 0) ∧
    (∀ b, parse bytes = .error (.unknownMagicByte b) ↔ bytes.head? = some b ∧ b ≠ 0) ∧
    (∀ n, parse bytes = .error (.truncated n) ↔
      n = bytes.length ∧ n < 5 ∧ ∀ b ∈ bytes.head?, b = 0) ∧
    (∀ id, schemaId? bytes = .ok id ↔ ∃ payload, parse bytes = .ok ⟨id, payload⟩) ∧
    (∀ e, schemaId? bytes = .error e ↔ parse bytes = .error e) :=
  ⟨fun _ => parse_eq_ok_iff, exists_parse_eq_ok_iff, fun _ => parse_eq_unknownMagicByte_iff,
    fun _ => parse_eq_truncated_iff, fun _ => schemaId?_eq_ok_iff, fun _ => schemaId?_eq_error_iff⟩

end SchemaRegistry.Envelope
