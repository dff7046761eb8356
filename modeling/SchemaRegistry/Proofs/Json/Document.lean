import SchemaRegistry.Proofs.Json.Token

/-!
Documents and their tokens. Reading accepts exactly the token lists of documents.
-/

namespace SchemaRegistry.Json.Document

/-- Induction over a document: what holds of all parts of an array or an object holds of it. -/
@[elab_as_elim, induction_eliminator]
lemma induct {motive : Document → Prop} (null : motive .null) (bool : ∀ b, motive (.bool b))
    (number : ∀ t, motive (.number t)) (string : ∀ t, motive (.string t))
    (array : ∀ ds, (∀ d ∈ ds, motive d) → motive (.array ds))
    (object : ∀ ms : List Member, (∀ m ∈ ms, motive m.2) → motive (.object ms)) (d : Document) :
    motive d := by
  refine @Document.rec motive (fun ds => ∀ d ∈ ds, motive d) (fun ms => ∀ m ∈ ms, motive m.2)
    (fun m => motive m.2) null bool number string array object ?_ ?_ ?_ ?_ ?_ d
  · exact nofun
  · exact fun d ds hd hds => List.forall_mem_cons.mpr ⟨hd, hds⟩
  · exact nofun
  · exact fun m ms hm hms => List.forall_mem_cons.mpr ⟨hm, hms⟩
  · exact fun k d hd => hd

/-! ### Tokens -/

mutual

def tokens : Document → List Token
  | .null => [.null]
  | .bool b => [.bool b]
  | .number t => [.number t]
  | .string t => [.string t]
  | .array ds => .leftBracket :: (itemTokens ds ++ [.rightBracket])
  | .object ms => .leftBrace :: (memberTokens ms ++ [.rightBrace])

def itemTokens : List Document → List Token
  | [] => []
  | [d] => d.tokens
  | d :: ds => d.tokens ++ .comma :: itemTokens ds

def memberTokens : List (Option String × Document) → List Token
  | [] => []
  | [(k, d)] => .string k :: .colon :: d.tokens
  | (k, d) :: ms => .string k :: .colon :: (d.tokens ++ .comma :: memberTokens ms)

end

def tokensOf (m : Member) : List Token := .string m.1 :: .colon :: m.2.tokens

lemma itemTokens_concat (ds : List Document) (d : Document) :
    itemTokens (ds ++ [d]) = (ds.flatMap fun d => d.tokens ++ [.comma]) ++ d.tokens := by
  induction ds with
  | nil => simp [itemTokens]
  | cons d' ds ih =>
    have hcons : itemTokens (d' :: (ds ++ [d])) =
        d'.tokens ++ .comma :: itemTokens (ds ++ [d]) := by
      cases ds <;> rfl
    rw [List.cons_append, hcons, ih]
    simp

lemma memberTokens_concat (ms : List Member) (m : Member) :
    memberTokens (ms ++ [m]) = (ms.flatMap fun m => tokensOf m ++ [.comma]) ++ tokensOf m := by
  induction ms with
  | nil => rfl
  | cons m' ms ih =>
    have hcons : memberTokens (m' :: (ms ++ [m])) =
        tokensOf m' ++ .comma :: memberTokens (ms ++ [m]) := by
      cases ms <;> rfl
    rw [List.cons_append, hcons, ih]
    simp

lemma number_mem_itemTokens {t : String} {ds : List Document} :
    .number t ∈ itemTokens ds ↔ ∃ d ∈ ds, .number t ∈ d.tokens := by
  induction ds with
  | nil => simp [itemTokens]
  | cons d ds ih => cases ds <;> simp_all [itemTokens]

lemma number_mem_memberTokens {t : String} {ms : List Member} :
    .number t ∈ memberTokens ms ↔ ∃ m ∈ ms, .number t ∈ m.2.tokens := by
  induction ms with
  | nil => simp [memberTokens]
  | cons m ms ih => cases ms <;> simp_all [memberTokens]

/-! ### Numbers -/

/-- The numbers of a document are spelled as tokens spell them. -/
def Spelled (d : Document) : Prop := ∀ t, .number t ∈ d.tokens → IsNumber t

@[simp] lemma spelled_null : Spelled .null := by simp [Spelled, tokens]

@[simp] lemma spelled_bool (b : Bool) : Spelled (.bool b) := by simp [Spelled, tokens]

@[simp] lemma spelled_string (t : Option String) : Spelled (.string t) := by simp [Spelled, tokens]

@[simp] lemma spelled_number {t : String} : Spelled (.number t) ↔ IsNumber t := by
  simp [Spelled, tokens]

@[simp] lemma spelled_array {ds : List Document} : Spelled (.array ds) ↔ ∀ d ∈ ds, d.Spelled := by
  simp only [Spelled, tokens, List.mem_cons, List.mem_append, List.not_mem_nil, reduceCtorEq,
    false_or, or_false, number_mem_itemTokens]
  exact ⟨fun h d hd t ht => h t ⟨d, hd, ht⟩, fun h t ⟨d, hd, ht⟩ => h d hd t ht⟩

@[simp] lemma spelled_object {ms : List Member} : Spelled (.object ms) ↔ ∀ m ∈ ms, m.2.Spelled := by
  simp only [Spelled, tokens, List.mem_cons, List.mem_append, List.not_mem_nil, reduceCtorEq,
    false_or, or_false, number_mem_memberTokens]
  exact ⟨fun h m hm t ht => h t ⟨m, hm, ht⟩, fun h t ⟨m, hm, ht⟩ => h m hm t ht⟩

/-! ### Reading what was written -/

/-- Reads on from a place in a document. -/
def read (r : Reading) (ts : List Token) : Option Reading := ts.foldlM Reading.step r

lemma read_cons {r r' : Reading} {t : Token} (h : r.step t = some r') (ts : List Token) :
    read r (t :: ts) = read r' ts := by
  rw [read, List.foldlM_cons, h]
  rfl

lemma exists_tokens_eq_cons (d : Document) : ∃ t ts, d.tokens = t :: ts ∧ t ≠ .rightBracket := by
  cases d <;> exact ⟨_, _, rfl, by simp⟩

lemma read_itemOrEnd (outer : List Frame) (d : Document) (ts : List Token) :
    read (.itemOrEnd outer) (d.tokens ++ ts) =
      read (.value (.items [] :: outer)) (d.tokens ++ ts) := by
  obtain ⟨t, rest, ht, hne⟩ := d.exists_tokens_eq_cons
  have hstep : Reading.step (.itemOrEnd outer) t =
      Reading.step (.value (.items [] :: outer)) t := by
    cases t <;> first | rfl | exact absurd rfl hne
  rw [ht, List.cons_append, read, read, List.foldlM_cons, List.foldlM_cons, hstep]

/-- What is read of a document wherever a value may stand. -/
def Reads (d : Document) : Prop :=
  ∀ outer ts, read (.value outer) (d.tokens ++ ts) = read (.complete outer d) ts

lemma read_items {ds : List Document} (h : ∀ d ∈ ds, d.Reads) (hne : ds ≠ []) (outer : List Frame)
    (before : List Document) (ts : List Token) :
    read (.value (.items before :: outer)) (itemTokens ds ++ .rightBracket :: ts) =
      read (.complete outer (.array (before.reverse ++ ds))) ts := by
  induction ds generalizing before with
  | nil => exact absurd rfl hne
  | cons d ds ih =>
    have hd := h d List.mem_cons_self (.items before :: outer)
    cases ds with
    | nil =>
      rw [itemTokens, hd, read_cons rfl, List.reverse_cons]
    | cons d' ds =>
      rw [itemTokens, List.append_assoc, List.cons_append, hd, read_cons rfl,
        ih (fun x hx => h x (List.mem_cons_of_mem _ hx)) (by simp)]
      · simp
      · simp

lemma read_members {ms : List Member} (h : ∀ m ∈ ms, m.2.Reads) (hne : ms ≠ [])
    (outer : List Frame) (before : List Member) (ts : List Token) :
    read (.key outer before) (memberTokens ms ++ .rightBrace :: ts) =
      read (.complete outer (.object (before.reverse ++ ms))) ts := by
  induction ms generalizing before with
  | nil => exact absurd rfl hne
  | cons m ms ih =>
    obtain ⟨k, d⟩ := m
    have hd := h (k, d) List.mem_cons_self (.members before k :: outer)
    cases ms with
    | nil =>
      rw [memberTokens, List.cons_append, List.cons_append, read_cons rfl, read_cons rfl, hd,
        read_cons rfl, List.reverse_cons]
    | cons m' ms =>
      rw [memberTokens, List.cons_append, List.cons_append, List.append_assoc, List.cons_append,
        read_cons rfl, read_cons rfl, hd, read_cons rfl,
        ih (fun x hx => h x (List.mem_cons_of_mem _ hx)) (by simp)]
      · simp
      · simp

lemma reads (d : Document) : d.Reads := by
  induction d with
  | null | bool | number | string => exact fun outer ts => read_cons rfl ts
  | array ds ih =>
    intro outer ts
    rw [tokens, List.cons_append, List.append_assoc, List.singleton_append, read_cons rfl]
    cases ds with
    | nil => exact read_cons rfl ts
    | cons d ds =>
      have hfirst : read (.itemOrEnd outer) (itemTokens (d :: ds) ++ .rightBracket :: ts) =
          read (.value (.items [] :: outer)) (itemTokens (d :: ds) ++ .rightBracket :: ts) := by
        cases ds with
        | nil => exact read_itemOrEnd outer d _
        | cons d' ds =>
          rw [itemTokens, List.append_assoc]
          · exact read_itemOrEnd outer d _
          · simp
      rw [hfirst, read_items ih (by simp), List.reverse_nil, List.nil_append]
  | object ms ih =>
    intro outer ts
    rw [tokens, List.cons_append, List.append_assoc, List.singleton_append, read_cons rfl]
    cases ms with
    | nil => exact read_cons rfl ts
    | cons m ms =>
      have hfirst : read (.keyOrEnd outer) (memberTokens (m :: ms) ++ .rightBrace :: ts) =
          read (.key outer []) (memberTokens (m :: ms) ++ .rightBrace :: ts) := by
        cases ms <;> rfl
      rw [hfirst, read_members ih (by simp), List.reverse_nil, List.nil_append]

lemma ofTokens?_tokens (d : Document) : ofTokens? d.tokens = some d := by
  have h := d.reads [] []
  rw [List.append_nil] at h
  change (read (.value []) d.tokens).bind Reading.finish = _
  rw [h]
  rfl

/-! ### What was read -/

/-- The tokens of open brackets and of what has been read inside them. -/
def openTokens : List Frame → List Token
  | [] => []
  | .items before :: outer =>
    openTokens outer ++ .leftBracket :: before.reverse.flatMap fun d => d.tokens ++ [.comma]
  | .members before k :: outer =>
    openTokens outer ++ .leftBrace ::
      ((before.reverse.flatMap fun m => tokensOf m ++ [.comma]) ++ [.string k, .colon])

/-- The tokens read so far, read back off the place. -/
def consumed : Reading → List Token
  | .value outer => openTokens outer
  | .itemOrEnd outer => openTokens outer ++ [.leftBracket]
  | .keyOrEnd outer => openTokens outer ++ [.leftBrace]
  | .key outer before =>
    openTokens outer ++ .leftBrace :: before.reverse.flatMap fun m => tokensOf m ++ [.comma]
  | .colon outer before k =>
    openTokens outer ++ .leftBrace ::
      ((before.reverse.flatMap fun m => tokensOf m ++ [.comma]) ++ [.string k])
  | .complete outer d => openTokens outer ++ d.tokens

lemma consumed_open {outer : List Frame} {t : Token} {r : Reading}
    (h : Reading.open outer t = some r) : consumed r = openTokens outer ++ [t] := by
  cases t <;> cases h <;> rfl

lemma consumed_step {r r' : Reading} {t : Token} (h : r.step t = some r') :
    consumed r' = consumed r ++ [t] := by
  unfold Reading.step at h
  split at h
  · exact consumed_open h
  · cases h
    simp [consumed, tokens, itemTokens]
  · rw [consumed_open h]
    simp [consumed, openTokens]
  · cases h
    simp [consumed, tokens, memberTokens]
  case h_12 => cases h
  all_goals
    cases h
    simp [consumed, openTokens, tokens, itemTokens_concat, memberTokens_concat, tokensOf]

lemma consumed_read {r r' : Reading} {ts : List Token} (h : read r ts = some r') :
    consumed r' = consumed r ++ ts := by
  induction ts generalizing r with
  | nil =>
    cases h
    rw [List.append_nil]
  | cons t ts ih =>
    obtain ⟨r₁, h₁, h⟩ := Option.bind_eq_some_iff.mp h
    rw [ih h, consumed_step h₁, List.append_assoc, List.singleton_append]

/-- **Reading is exact**: a list of tokens is read if it is that of a document, and as that one. -/
theorem ofTokens?_eq_some_iff {ts : List Token} {d : Document} :
    ofTokens? ts = some d ↔ d.tokens = ts := by
  constructor
  · intro h
    obtain ⟨r, hr, hfinish⟩ := Option.bind_eq_some_iff.mp h
    have hconsumed := consumed_read hr
    unfold Reading.finish at hfinish
    split at hfinish
    · cases hfinish
      exact hconsumed
    · cases hfinish
  · rintro rfl
    exact ofTokens?_tokens d

lemma spelled_of_parse? {s : String} {d : Document} (h : parse? s = some d) : d.Spelled := by
  obtain ⟨ts, hts, hd⟩ := Option.bind_eq_some_iff.mp h
  intro t ht
  rw [ofTokens?_eq_some_iff.mp hd] at ht
  exact isNumber_of_tokens? hts t ht

end SchemaRegistry.Json.Document
