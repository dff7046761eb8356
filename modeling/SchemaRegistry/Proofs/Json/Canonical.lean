import Mathlib.Data.List.Induction
import Mathlib.Data.List.Sort
import SchemaRegistry.Proofs.Json.Compact
import SchemaRegistry.Table

/-!
Values that were read. The keys of an object rise, so an object is told by its look-ups. The compact
text of a value is read as the value again, unless an object in it begins with the key of numbers: a
text with such an object is refused.
-/

namespace SchemaRegistry.Json

/-! ### Members in order -/

section Members

variable {k : String} {v : Json} {ms ms' : List (String × Json)}

/-- Each key is greater than those before it. -/
def Rising (ms : List (String × Json)) : Prop := ms.Pairwise fun m m' => m.1 < m'.1

lemma mem_putMember {m : String × Json} (h : m ∈ putMember k v ms) : m = (k, v) ∨ m ∈ ms := by
  induction ms with
  | nil => exact .inl (List.mem_singleton.mp h)
  | cons m' ms ih =>
    unfold putMember at h
    split_ifs at h <;> grind

lemma Rising.putMember (h : Rising ms) : Rising (putMember k v ms) := by
  induction ms with
  | nil => exact List.pairwise_singleton _ _
  | cons m ms ih =>
    obtain ⟨k', v'⟩ := m
    obtain ⟨hhead, htail⟩ := List.pairwise_cons.mp h
    unfold Json.putMember
    split_ifs with heq hlt
    · subst heq
      exact List.pairwise_cons.mpr ⟨hhead, htail⟩
    · exact List.pairwise_cons.mpr
        ⟨List.forall_mem_cons.mpr ⟨hlt, fun m hm => String.lt_trans hlt (hhead m hm)⟩, h⟩
    · have hgt : k' < k :=
        String.not_le.mp fun hle => heq (String.le_antisymm hle (String.not_lt.mp hlt))
      refine List.pairwise_cons.mpr ⟨fun m hm => ?_, ih htail⟩
      rcases mem_putMember hm with rfl | hm
      · exact hgt
      · exact hhead m hm

lemma lookup_putMember (k' : String) :
    (putMember k v ms).lookup k' = if k' = k then some v else ms.lookup k' := by
  induction ms with
  | nil => grind [putMember]
  | cons m ms ih =>
    unfold putMember
    split_ifs <;> grind

/-- The members of an object that is made of these. -/
def putMembers (ms : List (String × Json)) : List (String × Json) :=
  ms.foldl (fun acc m => putMember m.1 m.2 acc) []

lemma putMembers_concat (m : String × Json) :
    putMembers (ms ++ [m]) = putMember m.1 m.2 (putMembers ms) := by
  rw [putMembers, List.foldl_append]
  rfl

lemma mem_putMembers {m : String × Json} (h : m ∈ putMembers ms) : m ∈ ms := by
  induction ms using List.reverseRecOn with
  | nil => exact h
  | append_singleton ms m' ih =>
    rw [putMembers_concat] at h
    rcases mem_putMember h with rfl | h
    · exact List.mem_append_right _ List.mem_cons_self
    · exact List.mem_append_left _ (ih h)

lemma rising_putMembers (ms : List (String × Json)) : Rising (putMembers ms) := by
  induction ms using List.reverseRecOn with
  | nil => exact .nil
  | append_singleton ms m ih =>
    rw [putMembers_concat]
    exact ih.putMember

lemma lookup_putMembers (ms : List (String × Json)) (k : String) :
    (putMembers ms).lookup k = ms.reverse.lookup k := by
  induction ms using List.reverseRecOn with
  | nil => rfl
  | append_singleton ms m ih =>
    rw [putMembers_concat, lookup_putMember, ih, List.reverse_append, List.reverse_singleton,
      List.singleton_append, List.lookup_cons]
    grind

lemma Rising.nodup (h : Rising ms) : (ms.map Prod.fst).Nodup := by
  refine List.pairwise_map.mpr (h.imp ?_)
  intro m m' hlt heq
  rw [heq] at hlt
  exact String.lt_irrefl _ hlt

lemma lookup_eq_some_iff (h : (ms.map Prod.fst).Nodup) : ms.lookup k = some v ↔ (k, v) ∈ ms := by
  refine ⟨Table.mem_of_lookup, fun hmem => ?_⟩
  induction ms with
  | nil => cases hmem
  | cons m ms ih =>
    obtain ⟨hm, hms⟩ := List.nodup_cons.mp h
    rcases List.mem_cons.mp hmem with rfl | hmem
    · exact List.lookup_cons_self
    · have hkey : k ≠ m.1 := fun heq => hm (heq ▸ List.mem_map_of_mem hmem)
      rw [Table.lookup_cons, if_neg hkey]
      exact ih hms hmem

/-- An object is told by its look-ups. -/
lemma Rising.eq_of_lookup (h : Rising ms) (h' : Rising ms')
    (hlookup : ∀ k, ms.lookup k = ms'.lookup k) : ms = ms' := by
  have : Std.Irrefl fun m m' : String × Json => m.1 < m'.1 := ⟨fun m => String.lt_irrefl m.1⟩
  have : Std.Antisymm fun m m' : String × Json => m.1 < m'.1 :=
    ⟨fun _ _ hlt hgt => absurd hgt (String.lt_asymm hlt)⟩
  refine List.Pairwise.eq_of_mem_iff h h' fun m => ?_
  rw [← lookup_eq_some_iff h.nodup, ← lookup_eq_some_iff h'.nodup, hlookup]

/-- **Objects are maps.** Members make the same object if and only if each key has the same value in
the last member that has it. -/
theorem ofMembers_eq_iff :
    ofMembers ms = ofMembers ms' ↔ ∀ k, ms.reverse.lookup k = ms'.reverse.lookup k := by
  constructor
  · intro h k
    have hput : putMembers ms = putMembers ms' := Json.object.inj h
    rw [← lookup_putMembers, hput, lookup_putMembers]
  · intro h
    have hput : putMembers ms = putMembers ms' := by
      refine (rising_putMembers ms).eq_of_lookup (rising_putMembers ms') fun k => ?_
      rw [lookup_putMembers, lookup_putMembers, h k]
    exact congrArg Json.object hput

lemma Rising.putMembers (h : Rising ms) : putMembers ms = ms := by
  refine (rising_putMembers ms).eq_of_lookup h fun k => ?_
  have hrev : (ms.reverse.map Prod.fst).Nodup := by
    rw [List.map_reverse]
    exact List.nodup_reverse.mpr h.nodup
  ext v
  rw [lookup_putMembers, lookup_eq_some_iff hrev, lookup_eq_some_iff h.nodup, List.mem_reverse]

end Members

/-! ### Values as they are read -/

/-- A value that may have been read: it nests at most this deep, its numbers are spelled as tokens
spell them, the keys of its objects rise, and no object stands for a number. -/
inductive Canonical : Nat → Json → Prop where
  | null {depth : Nat} : Canonical depth .null
  | bool {depth : Nat} (b : Bool) : Canonical depth (.bool b)
  | number {depth : Nat} {t : String} (h : IsNumber t) : Canonical depth (.number t)
  | string {depth : Nat} (s : String) : Canonical depth (.string s)
  | array {depth : Nat} {vs : List Json} (h : ∀ v ∈ vs, Canonical depth v) :
      Canonical (depth + 1) (.array vs)
  | object {depth : Nat} {ms : List (String × Json)} (hrising : Rising ms)
      (hnumber : ∀ v, ms ≠ [(numberKey, v)]) (h : ∀ m ∈ ms, Canonical depth m.2) :
      Canonical (depth + 1) (.object ms)

lemma Canonical.spelled {depth : Nat} {v : Json} (h : Canonical depth v) : v.document.Spelled := by
  induction h with
  | null => exact Document.spelled_null
  | bool b => exact Document.spelled_bool b
  | number h => exact Document.spelled_number.mpr h
  | string s => exact Document.spelled_string _
  | array _ ih =>
    rw [document, documents_eq_map, Document.spelled_array, List.forall_mem_map]
    exact ih
  | object _ _ _ ih =>
    rw [document, memberDocuments_eq_map, Document.spelled_object, List.forall_mem_map]
    exact ih

lemma exists_of_mem_ofItems? {depth : Nat} {ds : List Document} {vs : List Json}
    (h : ofItems? depth ds = some vs) {v : Json} (hv : v ∈ vs) :
    ∃ d ∈ ds, ofDocument? depth d = some v := by
  induction ds generalizing vs with
  | nil =>
    cases h
    cases hv
  | cons d ds ih =>
    obtain ⟨w, hw, h⟩ := Option.bind_eq_some_iff.mp h
    obtain ⟨ws, hws, h⟩ := Option.bind_eq_some_iff.mp h
    cases h
    rcases List.mem_cons.mp hv with rfl | hv
    · exact ⟨d, List.mem_cons_self, hw⟩
    · obtain ⟨d', hd', hread⟩ := ih hws hv
      exact ⟨d', List.mem_cons_of_mem _ hd', hread⟩

lemma ofMembers?_cons_eq_some {depth : Nat} {d : Document.Member} {ds : List Document.Member}
    {ms : List (String × Json)} (h : ofMembers? depth (d :: ds) = some ms) :
    ∃ m ms', ms = m :: ms' ∧ d.1 = some m.1 ∧ ofDocument? depth d.2 = some m.2 ∧
      ofMembers? depth ds = some ms' := by
  obtain ⟨k, hk, h⟩ := Option.bind_eq_some_iff.mp h
  obtain ⟨w, hw, h⟩ := Option.bind_eq_some_iff.mp h
  obtain ⟨ms', hms', h⟩ := Option.bind_eq_some_iff.mp h
  cases h
  exact ⟨(k, w), ms', rfl, hk, hw, hms'⟩

lemma exists_of_mem_ofMembers? {depth : Nat} {ds : List Document.Member}
    {ms : List (String × Json)} (h : ofMembers? depth ds = some ms) {m : String × Json}
    (hm : m ∈ ms) : ∃ d ∈ ds, ofDocument? depth d.2 = some m.2 := by
  induction ds generalizing ms with
  | nil =>
    cases h
    cases hm
  | cons d ds ih =>
    obtain ⟨m', ms', rfl, -, hread, hms'⟩ := ofMembers?_cons_eq_some h
    rcases List.mem_cons.mp hm with rfl | hm
    · exact ⟨d, List.mem_cons_self, hread⟩
    · obtain ⟨d', hd', hread⟩ := ih hms' hm
      exact ⟨d', List.mem_cons_of_mem _ hd', hread⟩

lemma isNumber_of_numberOf? {ds : List Document.Member} {v : Json} (h : numberOf? ds = some v) :
    ∃ t, v = .number t ∧ IsNumber t := by
  unfold numberOf? at h
  split at h
  · obtain ⟨t, ht, rfl⟩ := Option.map_eq_some_iff.mp h
    exact ⟨t, rfl, isNumber_of_number? ht⟩
  · cases h

/-- An object that does not begin as a number does has another member. -/
lemma putMembers_ne_of_beginsNumber {depth : Nat} {ds : List Document.Member}
    {ms : List (String × Json)} (hbegin : beginsNumber ds = false)
    (h : ofMembers? depth ds = some ms) (v : Json) : putMembers ms ≠ [(numberKey, v)] := by
  intro heq
  cases ds with
  | nil =>
    cases h
    cases heq
  | cons d ds =>
    obtain ⟨m, ms', rfl, hkey, -, -⟩ := ofMembers?_cons_eq_some h
    have hfirst : ((putMembers (m :: ms')).lookup m.1).isSome := by
      rw [lookup_putMembers, Table.isSome_lookup_iff]
      simp
    have hm : m.1 = numberKey := by
      rw [heq, Table.isSome_lookup_iff] at hfirst
      exact List.mem_singleton.mp hfirst
    simp [beginsNumber, hkey, hm] at hbegin

lemma canonical_of_ofDocument? {depth : Nat} {d : Document} {v : Json} (hd : d.Spelled)
    (h : ofDocument? depth d = some v) : Canonical depth v := by
  induction d generalizing depth v with
  | null =>
    cases h
    exact .null
  | bool b =>
    cases h
    exact .bool b
  | number t =>
    cases h
    exact .number (Document.spelled_number.mp hd)
  | string t =>
    obtain ⟨s, -, rfl⟩ := Option.map_eq_some_iff.mp h
    exact .string s
  | array ds ih =>
    rw [Document.spelled_array] at hd
    cases depth with
    | zero => cases h
    | succ depth =>
      obtain ⟨vs, hvs, rfl⟩ := Option.map_eq_some_iff.mp h
      refine .array fun v hv => ?_
      obtain ⟨d, hmem, hread⟩ := exists_of_mem_ofItems? hvs hv
      exact ih d hmem (hd d hmem) hread
  | object ds ih =>
    rw [Document.spelled_object] at hd
    cases depth with
    | zero => cases h
    | succ depth =>
      rw [ofDocument?, if_neg (Nat.succ_ne_zero depth)] at h
      -- an object may stand for a number instead
      split_ifs at h with hbegin
      · obtain ⟨t, rfl, ht⟩ := isNumber_of_numberOf? h
        exact .number ht
      · obtain ⟨ms, hms, rfl⟩ := Option.map_eq_some_iff.mp h
        refine .object (rising_putMembers ms)
          (putMembers_ne_of_beginsNumber (Bool.eq_false_iff.mpr hbegin) hms) fun m hm => ?_
        obtain ⟨d, hmem, hread⟩ := exists_of_mem_ofMembers? hms (mem_putMembers hm)
        exact ih d hmem (hd d hmem) hread

lemma canonical_of_parse? {s : String} {v : Json} (h : parse? s = some v) :
    Canonical maxDepth v := by
  obtain ⟨d, hd, h⟩ := Option.bind_eq_some_iff.mp h
  exact canonical_of_ofDocument? (Document.spelled_of_parse? hd) h

/-! ### Values that are the same -/

/-- The same value, whatever the order of members: items are compared by place, members by key. -/
inductive Same : Json → Json → Prop where
  | null : Same .null .null
  | bool (b : Bool) : Same (.bool b) (.bool b)
  | number (t : String) : Same (.number t) (.number t)
  | string (s : String) : Same (.string s) (.string s)
  | array {vs ws : List Json} (hlength : vs.length = ws.length)
      (h : ∀ (i : Nat) v w, vs[i]? = some v → ws[i]? = some w → Same v w) :
      Same (.array vs) (.array ws)
  | object {ms ms' : List (String × Json)}
      (hkeys : ∀ k, (ms.lookup k).isSome = (ms'.lookup k).isSome)
      (h : ∀ k v w, ms.lookup k = some v → ms'.lookup k = some w → Same v w) :
      Same (.object ms) (.object ms')

@[refl]
lemma Same.refl (v : Json) : v.Same v := by
  induction v with
  | null => exact .null
  | bool b => exact .bool b
  | number t => exact .number t
  | string s => exact .string s
  | array vs ih =>
    refine .array rfl fun i v w hv hw => ?_
    cases hv.symm.trans hw
    exact ih v (List.mem_of_getElem? hv)
  | object ms ih =>
    refine .object (fun _ => rfl) fun k v w hv hw => ?_
    cases hv.symm.trans hw
    exact ih (k, v) (Table.mem_of_lookup hv)

lemma option_eq_of_isSome {α : Type} {o o' : Option α} (h : o.isSome = o'.isSome)
    (heq : ∀ a b, o = some a → o' = some b → a = b) : o = o' := by
  cases o <;> cases o' <;> simp_all

lemma Same.eq {v w : Json} (h : v.Same w) {depth depth' : Nat} (hv : Canonical depth v)
    (hw : Canonical depth' w) : v = w := by
  induction h generalizing depth depth' with
  | null | bool | number | string => rfl
  | @array vs ws hlength _ ih =>
    cases hv with | array hv =>
    cases hw with | array hw =>
    congr 1
    refine List.ext_getElem hlength fun i hiv hiw => ?_
    exact ih i _ _ (List.getElem?_eq_getElem hiv) (List.getElem?_eq_getElem hiw)
      (hv _ (List.getElem_mem hiv)) (hw _ (List.getElem_mem hiw))
  | @object ms ms' hkeys _ ih =>
    cases hv with | object hrising _ hv =>
    cases hw with | object hrising' _ hw =>
    congr 1
    refine hrising.eq_of_lookup hrising' fun k => option_eq_of_isSome (hkeys k) ?_
    intro v w hkv hkw
    exact ih k v w hkv hkw (hv _ (Table.mem_of_lookup hkv)) (hw _ (Table.mem_of_lookup hkw))

/-! ### Reading back -/

/-- An object in the value begins with the key of numbers. -/
inductive Reserved : Json → Prop where
  | here (v : Json) (ms : List (String × Json)) : Reserved (.object ((numberKey, v) :: ms))
  | item {vs : List Json} {v : Json} (hv : v ∈ vs) (h : Reserved v) : Reserved (.array vs)
  | member {ms : List (String × Json)} {m : String × Json} (hm : m ∈ ms) (h : Reserved m.2) :
      Reserved (.object ms)

lemma ofItems?_documents {depth : Nat} {vs : List Json}
    (h : ∀ v ∈ vs, ofDocument? depth v.document = some v) :
    ofItems? depth (documents vs) = some vs := by
  induction vs with
  | nil => rfl
  | cons v vs ih =>
    obtain ⟨hv, hvs⟩ := List.forall_mem_cons.mp h
    simp [documents, ofItems?, hv, ih hvs]

lemma ofMembers?_memberDocuments {depth : Nat} {ms : List (String × Json)}
    (h : ∀ m ∈ ms, ofDocument? depth m.2.document = some m.2) :
    ofMembers? depth (memberDocuments ms) = some ms := by
  induction ms with
  | nil => rfl
  | cons m ms ih =>
    obtain ⟨hm, hms⟩ := List.forall_mem_cons.mp h
    simp [memberDocuments, ofMembers?, hm, ih hms]

lemma beginsNumber_memberDocuments {ms : List (String × Json)} (h : ¬ (object ms).Reserved) :
    beginsNumber (memberDocuments ms) = false := by
  cases ms with
  | nil => rfl
  | cons m ms =>
    refine decide_eq_false fun hkey => h ?_
    obtain ⟨k, v⟩ := m
    cases hkey
    exact .here v ms

lemma ofDocument?_array {depth : Nat} {vs : List Json}
    (h : ∀ v ∈ vs, ofDocument? depth v.document = some v) :
    ofDocument? (depth + 1) (array vs).document = some (array vs) := by
  rw [document, ofDocument?, if_neg (Nat.succ_ne_zero _), Nat.add_sub_cancel,
    ofItems?_documents h]
  rfl

lemma ofDocument?_object {depth : Nat} {ms : List (String × Json)} (hrising : Rising ms)
    (hbegin : beginsNumber (memberDocuments ms) = false)
    (h : ∀ m ∈ ms, ofDocument? depth m.2.document = some m.2) :
    ofDocument? (depth + 1) (object ms).document = some (object ms) := by
  rw [document, ofDocument?, if_neg (Nat.succ_ne_zero _), Nat.add_sub_cancel,
    ofMembers?_memberDocuments h, hbegin, if_neg Bool.false_ne_true]
  exact congrArg (some ∘ object) hrising.putMembers

lemma Canonical.ofDocument? {depth : Nat} {v : Json} (h : Canonical depth v)
    (hfree : ¬ v.Reserved) : ofDocument? depth v.document = some v := by
  induction h with
  | null | bool | number | string => rfl
  | array _ ih => exact ofDocument?_array fun v hv => ih v hv fun hr => hfree (.item hv hr)
  | object hrising _ _ ih =>
    exact ofDocument?_object hrising (beginsNumber_memberDocuments hfree) fun m hm =>
      ih m hm fun hr => hfree (.member hm hr)

lemma ofItems?_eq_none {depth : Nat} {ds : List Document} {d : Document} (hd : d ∈ ds)
    (h : ofDocument? depth d = none) : ofItems? depth ds = none := by
  induction ds with
  | nil => cases hd
  | cons d' ds ih =>
    rcases List.mem_cons.mp hd with rfl | hd
    · simp [ofItems?, h]
    · simp [ofItems?, ih hd]

lemma ofMembers?_eq_none {depth : Nat} {ds : List Document.Member} {d : Document.Member}
    (hd : d ∈ ds) (h : ofDocument? depth d.2 = none) : ofMembers? depth ds = none := by
  induction ds with
  | nil => cases hd
  | cons d' ds ih =>
    rcases List.mem_cons.mp hd with rfl | hd
    · simp [ofMembers?, h]
    · simp [ofMembers?, ih hd]

lemma numberOf?_eq_none {ms : List (String × Json)} (h : ∀ v, ms ≠ [(numberKey, v)])
    (hbegin : beginsNumber (memberDocuments ms) = true) :
    numberOf? (memberDocuments ms) = none := by
  match ms with
  | [] => rfl
  | [(k, v)] =>
    have hkey : k = numberKey := Option.some.inj (of_decide_eq_true hbegin)
    exact absurd (by rw [hkey]) (h v)
  | _ :: _ :: _ => simp [memberDocuments, numberOf?]

lemma Canonical.ofDocument?_eq_none {depth : Nat} {v : Json} (h : Canonical depth v)
    (hr : v.Reserved) : Json.ofDocument? depth v.document = none := by
  induction h with
  | null | bool | number | string => cases hr
  | array _ ih =>
    cases hr with | @item _ v hv hr =>
    rw [document, Json.ofDocument?, if_neg (Nat.succ_ne_zero _), Nat.add_sub_cancel,
      ofItems?_eq_none (d := v.document) ?_ (ih v hv hr)]
    · rfl
    · rw [documents_eq_map]
      exact List.mem_map_of_mem hv
  | @object _ ms _ hnumber _ ih =>
    rw [document, Json.ofDocument?, if_neg (Nat.succ_ne_zero _)]
    split_ifs with hbegin
    · exact numberOf?_eq_none hnumber hbegin
    · cases hr with
      | here v ms => exact absurd rfl hbegin
      | @member _ m hm hr =>
        rw [Nat.add_sub_cancel,
          ofMembers?_eq_none (d := (some m.1, m.2.document)) ?_ (ih m hm hr)]
        · rfl
        · rw [memberDocuments_eq_map]
          exact List.mem_map_of_mem hm

/-- **What was read is written so that it is read again**, unless the key of numbers comes to begin
an object when the members are put in order. -/
theorem parse?_compact_of_parse? {s : String} {v : Json} (h : parse? s = some v) :
    (¬ v.Reserved → parse? v.compact = some v) ∧ (v.Reserved → parse? v.compact = none) := by
  have hv := canonical_of_parse? h
  unfold parse?
  rw [parse?_compact hv.spelled]
  exact ⟨hv.ofDocument?, hv.ofDocument?_eq_none⟩

end SchemaRegistry.Json
