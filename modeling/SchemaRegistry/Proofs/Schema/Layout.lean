import SchemaRegistry.Proofs.Json.Reordering
import SchemaRegistry.Proofs.Schema.Fingerprint

/-!
The layout of a JSON text and its normalized fingerprint.
-/

namespace SchemaRegistry.Schema

open Json (Document Layout tokens?)

variable {s t : Schema} {d e : Document}

/-- Two schemas in JSON whose texts are layouts of documents that differ in the order of members. -/
structure Relayout (d e : Document) (s t : Schema) : Prop where
  isJsonText : s.format.isJsonText
  isJsonText' : t.format.isJsonText
  layout : Layout d.tokens s.text.toList
  layout' : Layout e.tokens t.text.toList
  reordered : d.Reordered e

lemma json?_of_layout (hs : s.format.isJsonText) (hd : Layout d.tokens s.text.toList) :
    s.json? = Json.ofDocument? Json.maxDepth d := by
  rw [json?_of_isJsonText hs, Json.parse?, Document.parse?_eq_some_iff.mpr hd, Option.bind_some]

lemma json?_of_reserved (hs : s.format.isJsonText) (hd : Layout d.tokens s.text.toList)
    (h : d.Reserved) : s.json? = none := by
  rw [json?_of_layout hs hd, Json.ofDocument?_of_reserved h]

lemma normalizedFingerprint_of_none (h : s.json? = none) :
    s.normalizedFingerprint = s.fingerprint := by
  rw [normalizedFingerprint, canonicalText_of_none h, fingerprint]

/-- **Layout and the order of members do not count.** Two such texts are read as the same value, if
they are read; then they have the same normalized fingerprint. A text with a refused object is not
read, and any text that is not read has the fingerprint of the exact text. -/
theorem normalizedFingerprint_of_relayout (h : Relayout d e s t) :
    (¬ d.Reserved → ¬ e.Reserved → s.json? = t.json?) ∧
      (d.Reserved → s.json? = none) ∧ (e.Reserved → t.json? = none) ∧
      (s.json?.isSome → t.json?.isSome → s.normalizedFingerprint = t.normalizedFingerprint) ∧
      (s.json? = none → s.normalizedFingerprint = s.fingerprint) ∧
      (t.json? = none → t.normalizedFingerprint = t.fingerprint) := by
  have hsame (hd : ¬ d.Reserved) (he : ¬ e.Reserved) : s.json? = t.json? := by
    rw [json?_of_layout h.isJsonText h.layout, json?_of_layout h.isJsonText' h.layout',
      h.reordered.ofDocument?_eq hd he]
  have hrefused : d.Reserved → s.json? = none := json?_of_reserved h.isJsonText h.layout
  have hrefused' : e.Reserved → t.json? = none := json?_of_reserved h.isJsonText' h.layout'
  refine ⟨hsame, hrefused, hrefused', fun hs ht => ?_, normalizedFingerprint_of_none,
    normalizedFingerprint_of_none⟩
  obtain ⟨v, hv⟩ := Option.isSome_iff_exists.mp hs
  obtain ⟨w, hw⟩ := Option.isSome_iff_exists.mp ht
  have hd : ¬ d.Reserved := fun hr => by simp [hrefused hr] at hv
  have he : ¬ e.Reserved := fun hr => by simp [hrefused' hr] at hw
  obtain rfl : v = w := Option.some.inj (hv.symm.trans ((hsame hd he).trans hw))
  rw [normalizedFingerprint, normalizedFingerprint, canonicalText_of_some hv,
    canonicalText_of_some hw]

/-- Blanks, and members in another order in an object and inside one of them. -/
theorem normalizedFingerprint_of_relayout_of_members :
    let s : Schema := ⟨"\x7b\"b\": [ \x7b\"d\":1, \"c\":2\x7d ], \"a\":true\x7d", .avro, []⟩
    let t : Schema := ⟨"\x7b\"a\":true,\"b\":[\x7b\"c\":2,\"d\":1\x7d]\x7d\n", .json, []⟩
    s.json?.isSome ∧ s.normalizedFingerprint = t.normalizedFingerprint := by
  intro s t
  let c : Document.Member := (some "c", .number "2")
  let x : Document.Member := (some "d", .number "1")
  let a : Document.Member := (some "a", .bool true)
  let d : Document := .object [(some "b", .array [.object [x, c]]), a]
  let e : Document := .object [a, (some "b", .array [.object [c, x]])]
  obtain ⟨hd, he, hs, ht⟩ : tokens? s.text.toList = some d.tokens ∧
      tokens? t.text.toList = some e.tokens ∧ s.json?.isSome ∧ t.json?.isSome := by
    decide +kernel
  have hinner : Document.Reordered (.object [x, c]) (.object [c, x]) :=
    .members (.swap _ _ _) (by decide)
  have hreordered : d.Reordered e :=
    .trans (.members (.swap _ _ _) (by decide)) (.member [a] [] _ (.item [] [] hinner))
  have h : Relayout d e s t :=
    ⟨rfl, rfl, Json.layout_of_tokens? hd, Json.layout_of_tokens? he, hreordered⟩
  obtain ⟨-, -, -, hsame, -⟩ := normalizedFingerprint_of_relayout h
  exact ⟨hs, hsame hs ht⟩

/-- A blank after half of a surrogate pair, and the key of numbers moved to the front. -/
theorem normalizedFingerprint_ne_of_relayout :
    (∃ d s t, Relayout d d s t ∧ s.normalizedFingerprint ≠ t.normalizedFingerprint) ∧
    ∃ d e s t, Relayout d e s t ∧ s.json?.isSome ∧ t.json? = none ∧
      s.normalizedFingerprint ≠ t.normalizedFingerprint := by
  constructor
  · let s : Schema := ⟨"\"\\ud800\"", .json, []⟩
    let t : Schema := ⟨"\"\\ud800\" ", .json, []⟩
    obtain ⟨hs, ht, hne⟩ : tokens? s.text.toList = some (Document.string none).tokens ∧
        tokens? t.text.toList = some (Document.string none).tokens ∧
        s.normalizedFingerprint ≠ t.normalizedFingerprint := by
      decide +kernel
    exact ⟨.string none, s, t,
      ⟨rfl, rfl, Json.layout_of_tokens? hs, Json.layout_of_tokens? ht, .refl _⟩, hne⟩
  · let n : Document.Member := (some Json.numberKey, .string (some "1"))
    let a : Document.Member := (some "a", .number "1")
    let d : Document := .object [a, n]
    let e : Document := .object [n, a]
    let s : Schema := ⟨"\x7b\"a\":1,\"$serde_json::private::Number\":\"1\"\x7d", .json, []⟩
    let t : Schema := ⟨"\x7b\"$serde_json::private::Number\":\"1\", \"a\":1\x7d", .json, []⟩
    obtain ⟨hs, ht, hread, hne⟩ : tokens? s.text.toList = some d.tokens ∧
        tokens? t.text.toList = some e.tokens ∧ s.json?.isSome ∧
        s.normalizedFingerprint ≠ t.normalizedFingerprint := by
      decide +kernel
    have h : Relayout d e s t := ⟨rfl, rfl, Json.layout_of_tokens? hs,
      Json.layout_of_tokens? ht, .members (.swap _ _ _) (by decide)⟩
    have hrefused : t.json? = none :=
      json?_of_reserved rfl h.layout' (.here rfl (by decide))
    exact ⟨d, e, s, t, h, hread, hrefused, hne⟩

end SchemaRegistry.Schema
