import SchemaRegistry.Proofs.Json.Canonical
import SchemaRegistry.Proofs.Schema.Identity

/-!
What the normalized fingerprint of a JSON text tells. It is the value of the text, with one
exception: where the canonical text of a value cannot be read, it counts as a text of its own and
has the fingerprint of the value it was written from.
-/

namespace SchemaRegistry.Schema

variable {s t : Schema} {v : Json}

/-- One text, or two texts that are read as the same value. -/
def SameContent (s t : Schema) : Prop :=
  s.text = t.text ∨ ∃ v w, s.json? = some v ∧ t.json? = some w ∧ v.Same w

/-- The text is the canonical one of the other schema, in which the key of numbers has come to begin
an object. -/
def UnreadableFormOf (t s : Schema) : Prop :=
  ∃ v, s.json? = some v ∧ v.Reserved ∧ t.text = v.compact

lemma json?_of_isJsonText (hs : s.format.isJsonText) : s.json? = Json.parse? s.text := if_pos hs

lemma parse?_of_json? (h : s.json? = some v) : Json.parse? s.text = some v := by
  unfold json? at h
  split at h
  · exact h
  · cases h

lemma canonicalText_of_some (h : s.json? = some v) : s.canonicalText = v.compact := by
  unfold canonicalText
  rw [h]

lemma canonicalText_of_none (h : s.json? = none) : s.canonicalText = s.text := by
  unfold canonicalText
  rw [h]

lemma json?_of_text_eq_compact (ht : t.format.isJsonText) (hv : s.json? = some v)
    (h : t.text = v.compact) :
    (¬ v.Reserved → t.json? = some v) ∧ (v.Reserved → t.json? = none) := by
  rw [json?_of_isJsonText ht, h]
  exact Json.parse?_compact_of_parse? (parse?_of_json? hv)

lemma json?_eq_none_iff_reserved (ht : t.format.isJsonText) (hv : s.json? = some v)
    (h : t.text = v.compact) : t.json? = none ↔ v.Reserved := by
  obtain ⟨hfree, hreserved⟩ := json?_of_text_eq_compact ht hv h
  refine ⟨fun hn => ?_, hreserved⟩
  by_contra hr
  rw [hfree hr] at hn
  cases hn

lemma unreadableFormOf_of_canonicalText_eq (ht : t.format.isJsonText) (hv : s.json? = some v)
    (hn : t.json? = none) (h : t.canonicalText = s.canonicalText) : t.UnreadableFormOf s := by
  rw [canonicalText_of_none hn, canonicalText_of_some hv] at h
  exact ⟨v, hv, (json?_eq_none_iff_reserved ht hv h).mp hn, h⟩

lemma UnreadableFormOf.json?_eq_none (h : t.UnreadableFormOf s) (ht : t.format.isJsonText) :
    t.json? = none := by
  obtain ⟨v, hv, hr, htext⟩ := h
  exact (json?_eq_none_iff_reserved ht hv htext).mpr hr

lemma UnreadableFormOf.canonicalText_eq (h : t.UnreadableFormOf s) (ht : t.format.isJsonText) :
    t.canonicalText = s.canonicalText := by
  rw [canonicalText_of_none (h.json?_eq_none ht)]
  obtain ⟨v, hv, -, htext⟩ := h
  rw [canonicalText_of_some hv, htext]

lemma SameContent.canonicalText_eq (h : s.SameContent t) (hs : s.format.isJsonText)
    (ht : t.format.isJsonText) : s.canonicalText = t.canonicalText := by
  rcases h with h | ⟨v, w, hv, hw, hsame⟩
  · unfold canonicalText
    rw [json?_of_isJsonText hs, json?_of_isJsonText ht, h]
  · rw [canonicalText_of_some hv, canonicalText_of_some hw,
      hsame.eq (Json.canonical_of_parse? (parse?_of_json? hv))
        (Json.canonical_of_parse? (parse?_of_json? hw))]

/-- **Canonical texts are equal** for one content, and for a content and its unreadable form. -/
theorem canonicalText_eq_iff (hs : s.format.isJsonText) (ht : t.format.isJsonText) :
    s.canonicalText = t.canonicalText ↔
      s.SameContent t ∨ t.UnreadableFormOf s ∨ s.UnreadableFormOf t := by
  constructor
  · intro h
    cases hv : s.json? with
    | none =>
      cases hw : t.json? with
      | none =>
        rw [canonicalText_of_none hv, canonicalText_of_none hw] at h
        exact .inl (.inl h)
      | some w => exact .inr (.inr (unreadableFormOf_of_canonicalText_eq hs hw hv h))
    | some v =>
      cases hw : t.json? with
      | none => exact .inr (.inl (unreadableFormOf_of_canonicalText_eq ht hv hw h.symm))
      | some w =>
        rw [canonicalText_of_some hv, canonicalText_of_some hw] at h
        have heq := Json.compact_inj (Json.canonical_of_parse? (parse?_of_json? hv)).spelled
          (Json.canonical_of_parse? (parse?_of_json? hw)).spelled h
        exact .inl (.inr ⟨v, w, hv, hw, heq ▸ .refl v⟩)
  · rintro (h | h | h)
    · exact h.canonicalText_eq hs ht
    · exact (h.canonicalText_eq ht).symm
    · exact h.canonicalText_eq hs

lemma canonicalText_of_text_eq (hs : s.format.isJsonText) (ht : t.format.isJsonText)
    (h : t.text = s.canonicalText) : t.canonicalText = s.canonicalText := by
  cases hv : s.json? with
  | none =>
    rw [canonicalText_of_none hv] at h
    exact SameContent.canonicalText_eq (.inl h) ht hs
  | some v =>
    rw [canonicalText_of_some hv] at h
    by_cases hr : v.Reserved
    · exact UnreadableFormOf.canonicalText_eq ⟨v, hv, hr, h⟩ ht
    · exact SameContent.canonicalText_eq
        (.inr ⟨v, v, (json?_of_text_eq_compact ht hv h).1 hr, hv, .refl v⟩) ht hs

/-- **What the normalized fingerprint identifies.** JSON texts have one normalized fingerprint if
they are one text, are read as the same value, or one of them is the unreadable form of the other;
and for no other reason, unless their canonical texts have one hash. A canonical text has the
fingerprint of what it was written from, whether compared as it stands or by content, and cannot be
read just when the key of numbers begins an object in it. -/
theorem normalizedFingerprint_eq_iff {s t : Schema} (hs : s.format.isJsonText)
    (ht : t.format.isJsonText) :
    (Fingerprint.Separates [s.canonicalText, t.canonicalText] →
      (s.normalizedFingerprint = t.normalizedFingerprint ↔
        s.SameContent t ∨ t.UnreadableFormOf s ∨ s.UnreadableFormOf t)) ∧
    (t.text = s.canonicalText →
      t.fingerprint = t.normalizedFingerprint ∧
        t.normalizedFingerprint = s.normalizedFingerprint) ∧
    ∀ v, s.json? = some v → t.text = v.compact → (t.json? = none ↔ v.Reserved) := by
  refine ⟨fun hsep => ?_, fun h => ?_, fun v => json?_eq_none_iff_reserved ht⟩
  · rw [← canonicalText_eq_iff hs ht]
    exact ⟨hsep _ List.mem_cons_self _ (List.mem_cons_of_mem _ List.mem_cons_self),
      congrArg Fingerprint.ofText⟩
  · have hcanon := canonicalText_of_text_eq hs ht h
    unfold fingerprint normalizedFingerprint
    rw [hcanon, h]
    exact ⟨rfl, rfl⟩

theorem normalizedFingerprint_eq_of_layouts :
    let s : Schema := ⟨"\x7b\"b\": 1E2, \"a\": [], \"b\": 2e-1\x7d", .json, []⟩
    let t : Schema := ⟨"\x7b\"a\":[ ],\"b\":2E-1\x7d", .json, []⟩
    let u : Schema := ⟨"\x7b\"a\":[],\"b\":2e-1\x7d", .json, []⟩
    let w : Schema := ⟨"\x7b\"a\":[],\"b\":2.0e-1\x7d", .json, []⟩
    (s.normalizedFingerprint = t.normalizedFingerprint ∧ s.text ≠ t.text ∧ s.SameContent t) ∧
      (s.normalizedFingerprint ≠ w.normalizedFingerprint ∧ ¬ s.SameContent w) ∧
      u.fingerprint = u.normalizedFingerprint ∧
      u.normalizedFingerprint = s.normalizedFingerprint := by
  intro s t u w
  refine ⟨⟨?same, by decide, ?content⟩, ⟨?distinct, ?other⟩, ?canonical⟩
  case same =>
    have hcanon : s.canonicalText = t.canonicalText := by decide +kernel
    exact congrArg Fingerprint.ofText hcanon
  case content =>
    have hcanon : s.canonicalText = t.canonicalText := by decide +kernel
    have hsep : Fingerprint.Separates [s.canonicalText, t.canonicalText] := by decide +kernel
    have hs : s.json?.isSome := by decide +kernel
    have ht : t.json?.isSome := by decide +kernel
    have hiff := (normalizedFingerprint_eq_iff (s := s) (t := t) rfl rfl).1 hsep
    rcases hiff.mp (congrArg Fingerprint.ofText hcanon) with h | h | h
    · exact h
    · simp [h.json?_eq_none rfl] at ht
    · simp [h.json?_eq_none rfl] at hs
  case distinct => decide +kernel
  case other =>
    have hsep : Fingerprint.Separates [s.canonicalText, w.canonicalText] := by decide +kernel
    have hne : s.normalizedFingerprint ≠ w.normalizedFingerprint := by decide +kernel
    intro h
    exact hne (((normalizedFingerprint_eq_iff (s := s) (t := w) rfl rfl).1 hsep).mpr (.inl h))
  case canonical =>
    have hu : u.text = s.canonicalText := by decide +kernel
    exact (normalizedFingerprint_eq_iff (s := s) (t := u) rfl rfl).2.1 hu

/-- In the canonical text the key of numbers begins the object, so that this text cannot be read. -/
theorem normalizedFingerprint_eq_of_unreadable :
    let s : Schema := ⟨"\x7b\"a\":1,\"$serde_json::private::Number\":\"1\"\x7d", .json, []⟩
    let t : Schema := ⟨"\x7b\"$serde_json::private::Number\":\"1\",\"a\":1\x7d", .json, []⟩
    Fingerprint.Separates [s.canonicalText, t.canonicalText] ∧
      s.normalizedFingerprint = t.normalizedFingerprint ∧ ¬ s.SameContent t := by
  intro s t
  have hcanon : s.canonicalText = t.canonicalText := by decide +kernel
  have ht : ¬ t.json?.isSome := by decide +kernel
  refine ⟨by decide +kernel, congrArg Fingerprint.ofText hcanon, ?_⟩
  rintro (h | ⟨-, w, -, hw, -⟩)
  · exact absurd h (by decide)
  · exact ht (Option.isSome_iff_exists.mpr ⟨w, hw⟩)

end SchemaRegistry.Schema
