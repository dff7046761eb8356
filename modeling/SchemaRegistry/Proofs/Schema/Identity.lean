import SchemaRegistry.Proofs.BigEndian
import SchemaRegistry.Proofs.Text.Joined
import SchemaRegistry.Schema.Fingerprint

/-!
What the identity of a schema tells. As long as no two hashed texts have one hash, schemas with one
identity have the same format, the same compared text and references that read the same when joined.
References without commas and opening parentheses in their names can be read back.
-/

namespace SchemaRegistry

namespace Fingerprint

/-- Different texts of a list have different fingerprints. -/
def Separates (ts : List String) : Prop := ∀ a ∈ ts, ∀ b ∈ ts, ofText a = ofText b → a = b

lemma separates_iff {ts : List String} :
    Separates ts ↔ ∀ a ∈ ts, ∀ b ∈ ts, a = b ∨ ofText a ≠ ofText b := by
  constructor
  · intro h a ha b hb
    by_cases e : ofText a = ofText b
    · exact .inl (h a ha b hb e)
    · exact .inr e
  · intro h a ha b hb e
    exact (h a ha b hb).resolve_right fun hne => hne e

instance (ts : List String) : Decidable (Separates ts) := decidable_of_iff' _ separates_iff

lemma separates_of_eq {a b : String} (h : a = b) : Separates [a, b] := by
  subst h
  intro x hx y hy _
  simp only [List.mem_cons, List.not_mem_nil, or_false, or_self] at hx hy
  rw [hx, hy]

lemma Separates.mono {ts ts' : List String} (h : Separates ts') (hs : ts ⊆ ts') : Separates ts :=
  fun a ha b hb => h a (hs ha) b (hs hb)

lemma part_byte (b : UInt8) : Text.Part ',' (Text.ofNat b.toNat).toList := by
  refine ⟨Text.toList_ofNat_ne_nil _, fun h => ?_⟩
  exact absurd (Text.isDigit_of_mem_ofNat h) (by decide)

/-- The numbers of the bytes, each a text of its own. -/
def numbers (f : Fingerprint) : List (List Char) :=
  f.hash.bytes.map fun b => (Text.ofNat b.toNat).toList

lemma toList_describe (f : Fingerprint) :
    f.describe.toList =
      "Checksum([".toList ++ ([',', ' '].intercalate f.numbers ++ "])".toList) := by
  have hsep : ", ".toList = [',', ' '] := by decide
  rw [describe, String.toList_append, String.toList_append, String.toList_intercalate,
    List.map_map, List.append_assoc, hsep]
  unfold numbers Function.comp
  rfl

lemma numbers_injective : Function.Injective numbers := by
  intro f g h
  have hinj : Function.Injective fun b : UInt8 => (Text.ofNat b.toNat).toList :=
    fun a b e => UInt8.toNat_inj.mp (Text.ofNat_injective (String.toList_injective e))
  have hbytes := Digest.Sha256.bytes_injective (List.map_injective_iff.mpr hinj h)
  obtain ⟨f⟩ := f
  obtain ⟨g⟩ := g
  exact congrArg Fingerprint.mk hbytes

lemma describe_injective : Function.Injective describe := by
  intro f g h
  have hl := congrArg String.toList h
  rw [toList_describe, toList_describe] at hl
  have hparts : ∀ f : Fingerprint, ∀ l ∈ f.numbers, Text.Part ',' l :=
    fun f => List.forall_mem_map.mpr fun b _ => part_byte b
  exact numbers_injective (Text.intercalate_inj (hparts f) (hparts g)
    (List.append_cancel_right (List.append_cancel_left hl)))

lemma bar_notMem_describe (f : Fingerprint) : '|' ∉ f.describe.toList := by
  rw [toList_describe, List.mem_append, List.mem_append]
  rintro (h | h | h)
  · exact absurd h (by decide)
  · rcases Text.mem_intercalate h with h | ⟨l, hl, h⟩
    · exact absurd h (by decide)
    · unfold numbers at hl
      obtain ⟨b, -, rfl⟩ := List.mem_map.mp hl
      exact absurd (Text.isDigit_of_mem_ofNat h) (by decide)
  · exact absurd h (by decide)

end Fingerprint

lemma Format.name_injective : Function.Injective Format.name := by
  intro f g h
  cases f <;> cases g <;> first | rfl | exact absurd h (by decide)

lemma Format.bar_notMem_name (f : Format) : '|' ∉ f.name.toList := by
  cases f <;> decide

attribute [ext] Schema

namespace Schema

/-- The text that schemas are compared by. -/
def comparedText (s : Schema) (normalize : Bool) : String :=
  if normalize then s.canonicalText else s.text

/-- The texts that are hashed for the identity of a schema. -/
def hashed (s : Schema) (normalize : Bool) : List String :=
  [s.comparedText normalize, s.identityText normalize]

lemma hashed_subset_of_json?_none {s : Schema} (h : s.json? = none) (n : Bool) :
    s.hashed n ⊆ s.hashed false := by
  have hcanon : s.canonicalText = s.text := by
    unfold canonicalText
    rw [h]
  cases n with
  | false => exact List.Subset.refl _
  | true =>
    unfold hashed comparedText identityText normalizedFingerprint fingerprint
    rw [if_pos rfl, if_pos rfl, hcanon]
    exact List.Subset.refl _

lemma toList_identityText (s : Schema) (n : Bool) :
    (s.identityText n).toList = s.format.name.toList ++ '|' ::
      ((Fingerprint.ofText (s.comparedText n)).describe.toList ++ '|' ::
        s.referenceLabels.toList) := by
  have hf : (if n then s.normalizedFingerprint else s.fingerprint) =
      Fingerprint.ofText (s.comparedText n) := by
    cases n <;> rfl
  have hbar : "|".toList = ['|'] := by decide
  rw [identityText, hf]
  simp only [String.toList_append, hbar, List.append_assoc, List.cons_append,
    List.nil_append]

lemma identityText_inj {s t : Schema} {n : Bool} (h : s.identityText n = t.identityText n) :
    s.format = t.format ∧
      Fingerprint.ofText (s.comparedText n) = Fingerprint.ofText (t.comparedText n) ∧
      s.referenceLabels = t.referenceLabels := by
  have hl := congrArg String.toList h
  rw [toList_identityText, toList_identityText] at hl
  obtain ⟨hname, hl⟩ :=
    Text.append_cons_inj (Format.bar_notMem_name _) (Format.bar_notMem_name _) hl
  obtain ⟨hprint, hl⟩ := Text.append_cons_inj (Fingerprint.bar_notMem_describe _)
    (Fingerprint.bar_notMem_describe _) hl
  exact ⟨Format.name_injective (String.toList_injective hname),
    Fingerprint.describe_injective (String.toList_injective hprint), String.toList_injective hl⟩

lemma identityText_congr {s t : Schema} {n k : Bool} (hf : s.format = t.format)
    (hx : s.comparedText n = t.comparedText k) (hr : s.referenceLabels = t.referenceLabels) :
    s.identityText n = t.identityText k := by
  apply String.toList_injective
  rw [toList_identityText, toList_identityText, hf, hx, hr]

lemma hashed_congr {s t : Schema} {n k : Bool} (hf : s.format = t.format)
    (hx : s.comparedText n = t.comparedText k) (hr : s.referenceLabels = t.referenceLabels) :
    s.hashed n = t.hashed k := by
  rw [hashed, hashed, hx, identityText_congr hf hx hr]

lemma hashed_subset_of_canonicalText {s t : Schema} (hf : t.format = s.format)
    (hx : t.canonicalText = s.text) (hr : t.referenceLabels = s.referenceLabels) (n : Bool) :
    t.hashed n ⊆ s.hashed false ++ t.hashed false := by
  cases n with
  | false => exact List.subset_append_right _ _
  | true =>
    rw [hashed_congr (n := true) (k := false) hf hx hr]
    exact List.subset_append_left _ _

/-- **What an identity tells** about schemas whose hashed texts do not collide. -/
lemma identity_eq_iff {ts : List String} (hsep : Fingerprint.Separates ts) {s t : Schema} {n : Bool}
    (hs : s.hashed n ⊆ ts) (ht : t.hashed n ⊆ ts) :
    s.identity n = t.identity n ↔ s.format = t.format ∧
      s.comparedText n = t.comparedText n ∧ s.referenceLabels = t.referenceLabels := by
  obtain ⟨hs, hs', -⟩ := List.cons_subset.mp hs |>.imp_right List.cons_subset.mp
  obtain ⟨ht, ht', -⟩ := List.cons_subset.mp ht |>.imp_right List.cons_subset.mp
  constructor
  · intro h
    obtain ⟨hf, hp, hr⟩ := identityText_inj (hsep _ hs' _ ht' h)
    exact ⟨hf, hsep _ hs _ ht hp, hr⟩
  · rintro ⟨hf, hx, hr⟩
    rw [identity, identity, identityText_congr hf hx hr]

lemma canonicalText_congr {s t : Schema} (hf : s.format = t.format) (hx : s.text = t.text) :
    s.canonicalText = t.canonicalText := by
  unfold canonicalText json?
  rw [hf, hx]

/-- Two schemas agree if their formats, their texts up to layout and their joined references do. -/
structure Agrees (s t : Schema) : Prop where
  format : s.format = t.format
  canonicalText : s.canonicalText = t.canonicalText
  referenceLabels : s.referenceLabels = t.referenceLabels

@[refl] lemma Agrees.refl (s : Schema) : s.Agrees s := ⟨rfl, rfl, rfl⟩

lemma Agrees.identity_eq {s t : Schema} (h : s.Agrees t) : s.identity true = t.identity true := by
  have he := identityText_congr (n := true) (k := true) h.format h.canonicalText
    h.referenceLabels
  rw [identity, identity, he]

lemma agrees_of_identity_eq {ts : List String} (hsep : Fingerprint.Separates ts) {s t : Schema}
    {n : Bool} (hs : s.hashed n ⊆ ts) (ht : t.hashed n ⊆ ts) (h : s.identity n = t.identity n) :
    s.Agrees t := by
  obtain ⟨hf, hx, hr⟩ := (identity_eq_iff hsep hs ht).mp h
  refine ⟨hf, ?_, hr⟩
  cases n with
  | false => exact canonicalText_congr hf hx
  | true => exact hx

end Schema

/-! ### References -/

/-- A reference whose label shows where its name and its subject end, also in a list of labels. -/
def Reference.Plain (r : Reference) : Prop :=
  ',' ∉ r.name.toList ∧ '(' ∉ r.name.toList ∧ ',' ∉ r.subject.toList

instance (r : Reference) : Decidable r.Plain :=
  inferInstanceAs (Decidable (_ ∧ _ ∧ _))

namespace Reference

lemma toList_label (r : Reference) :
    r.label.toList = r.name.toList ++ ' ' :: '(' :: (r.subject.toList ++ '@' ::
      ((Text.ofInt r.version.toInt).toList ++ [')'])) := by
  have hopen : " (".toList = [' ', '('] := by decide
  have hsign : "@".toList = ['@'] := by decide
  have hclose : ")".toList = [')'] := by decide
  simp only [label, Key.label, key, String.toList_append, hopen, hsign, hclose, List.append_assoc,
    List.cons_append, List.nil_append]

lemma part_label {r : Reference} (h : r.Plain) : Text.Part ',' r.label.toList := by
  obtain ⟨hn, -, hs⟩ := h
  rw [toList_label]
  refine ⟨by simp, ?_⟩
  have hv : ',' ∉ (Text.ofInt r.version.toInt).toList := by
    intro hm
    rcases Text.mem_ofInt hm with h | h
    · exact absurd h (by decide)
    · exact absurd h (by decide)
  simp [hn, hs, hv]

/-- The name of a plain reference ends at the first parenthesis, its subject at the last sign. -/
lemma label_inj {r r' : Reference} (h : r.Plain) (h' : r'.Plain) (e : r.label = r'.label) :
    r = r' := by
  have hl := congrArg String.toList e
  rw [toList_label, toList_label] at hl
  have hsplit : ∀ (x t : List Char), x ++ ' ' :: '(' :: t = (x ++ [' ']) ++ '(' :: t := by simp
  rw [hsplit, hsplit] at hl
  obtain ⟨hname, hl⟩ := Text.append_cons_inj (by simpa using h.2.1) (by simpa using h'.2.1) hl
  have hsign : ∀ i : Int32, '@' ∉ (Text.ofInt i.toInt).toList ++ [')'] := by
    intro i hm
    rcases List.mem_append.mp hm with hm | hm
    · rcases Text.mem_ofInt hm with hm | hm
      · exact absurd hm (by decide)
      · exact absurd hm (by decide)
    · exact absurd hm (by decide)
  obtain ⟨hsubject, hl⟩ := Text.append_cons_inj_last (hsign _) (hsign _) hl
  have hversion := String.toList_injective (List.append_cancel_right hl)
  obtain ⟨name, subject, version⟩ := r
  obtain ⟨name', subject', version'⟩ := r'
  simp only [Reference.mk.injEq]
  exact ⟨String.toList_injective (List.append_cancel_right hname),
    String.toList_injective hsubject, Int32.toInt_inj.mp (Text.ofInt_injective hversion)⟩

lemma labels_inj {rs rs' : List Reference} (h : ∀ r ∈ rs, r.Plain) (h' : ∀ r ∈ rs', r.Plain)
    (e : rs.map label = rs'.map label) : rs = rs' := by
  induction rs generalizing rs' with
  | nil => exact (List.map_eq_nil_iff.mp e.symm).symm
  | cons r rs ih =>
    cases rs' with
    | nil => simp at e
    | cons r' rs' =>
      obtain ⟨hr, hrs⟩ := List.cons.inj e
      rw [label_inj (h r List.mem_cons_self) (h' r' List.mem_cons_self) hr,
        ih (fun x hx => h x (List.mem_cons_of_mem _ hx))
          (fun x hx => h' x (List.mem_cons_of_mem _ hx)) hrs]

end Reference

lemma Schema.referenceLabels_inj {s t : Schema} (hs : ∀ r ∈ s.references, r.Plain)
    (ht : ∀ r ∈ t.references, r.Plain) (h : s.referenceLabels = t.referenceLabels) :
    s.references = t.references := by
  have hl := congrArg String.toList h
  unfold referenceLabels at hl
  have hcomma : ",".toList = [','] := by decide
  rw [String.toList_intercalate, String.toList_intercalate, List.map_map, List.map_map,
    hcomma] at hl
  have hparts := Text.intercalate_inj
    (List.forall_mem_map.mpr fun r hr => Reference.part_label (hs r hr))
    (List.forall_mem_map.mpr fun r hr => Reference.part_label (ht r hr)) hl
  refine Reference.labels_inj hs ht (List.map_injective_iff.mpr
    (fun a b => String.toList_injective) ?_)
  rwa [List.map_map, List.map_map]

end SchemaRegistry
