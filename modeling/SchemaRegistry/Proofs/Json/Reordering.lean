import SchemaRegistry.Proofs.Json.Canonical
import SchemaRegistry.Proofs.Json.Layout

/-!
The order of members. An object of several members is refused if the key of numbers begins it; apart
from that the order of members with distinct keys does not count for the value of a document.
-/

namespace SchemaRegistry.Json

open Document (Member)

variable {depth : ℕ} {ds : List Document} {ms ns : List Member} {d e : Document}

/-- Documents that differ in the order of members, at any depth. An object whose members change
places has distinct keys; an unreadable key needs no care, since it makes its object unreadable. -/
inductive Document.Reordered : Document → Document → Prop where
  | refl (d : Document) : Reordered d d
  | trans {d e f : Document} (h : Reordered d e) (h' : Reordered e f) : Reordered d f
  | members {ms ns : List Member} (h : ms.Perm ns) (hkeys : (ms.filterMap Prod.fst).Nodup) :
      Reordered (.object ms) (.object ns)
  | item (before after : List Document) {d e : Document} (h : Reordered d e) :
      Reordered (.array (before ++ d :: after)) (.array (before ++ e :: after))
  | member (before after : List Member) (k : Option String) {d e : Document}
      (h : Reordered d e) :
      Reordered (.object (before ++ (k, d) :: after)) (.object (before ++ (k, e) :: after))

/-! ### Refused objects -/

/-- The key of numbers begins an object of several members in the document. -/
inductive Document.Reserved : Document → Prop where
  | here {ms : List Member} (hbegins : beginsNumber ms) (hmany : ms.length ≠ 1) :
      Reserved (.object ms)
  | item {ds : List Document} {d : Document} (hd : d ∈ ds) (h : Reserved d) : Reserved (.array ds)
  | member {ms : List Member} {m : Member} (hm : m ∈ ms) (h : Reserved m.2) : Reserved (.object ms)

/-- An object of one member that may stand for a number. -/
def standsForNumber (ms : List Member) : Bool := beginsNumber ms && ms.length == 1

mutual

/-- The value of a document if no object is refused for the key that begins it. -/
def valueOf? (depth : ℕ) : Document → Option Json
  | .null => some .null
  | .bool b => some (.bool b)
  | .number t => some (.number t)
  | .string t => t.map .string
  | .array ds => if depth = 0 then none else (valuesOf? (depth - 1) ds).map .array
  | .object ms =>
    if depth = 0 then none
    else if standsForNumber ms then numberOf? ms
    else (memberValuesOf? (depth - 1) ms).map ofMembers

def valuesOf? (depth : ℕ) : List Document → Option (List Json)
  | [] => some []
  | d :: ds => do return (← valueOf? depth d) :: (← valuesOf? depth ds)

def memberValuesOf? (depth : ℕ) : List (Option String × Document) → Option (List (String × Json))
  | [] => some []
  | (k, d) :: ms => do return (← k, ← valueOf? depth d) :: (← memberValuesOf? depth ms)

end

lemma numberOf?_of_length (h : ms.length ≠ 1) : numberOf? ms = none := by
  match ms with
  | [] => rfl
  | [_] => exact absurd rfl h
  | _ :: _ :: _ => simp [numberOf?]

lemma ofItems?_eq_valuesOf? (h : ∀ d ∈ ds, ofDocument? depth d = valueOf? depth d) :
    ofItems? depth ds = valuesOf? depth ds := by
  induction ds with
  | nil => rfl
  | cons d ds ih =>
    obtain ⟨hd, hds⟩ := List.forall_mem_cons.mp h
    rw [ofItems?, valuesOf?, hd, ih hds]

lemma ofMembers?_eq_memberValuesOf? (h : ∀ m ∈ ms, ofDocument? depth m.2 = valueOf? depth m.2) :
    ofMembers? depth ms = memberValuesOf? depth ms := by
  induction ms with
  | nil => rfl
  | cons m ms ih =>
    obtain ⟨hm, hms⟩ := List.forall_mem_cons.mp h
    rw [ofMembers?, memberValuesOf?, hm, ih hms]

lemma ofDocument?_of_not_reserved (h : ¬ d.Reserved) (depth : ℕ) :
    ofDocument? depth d = valueOf? depth d := by
  induction d generalizing depth with
  | null | bool | number | string => rfl
  | array ds ih =>
    rw [ofDocument?, valueOf?,
      ofItems?_eq_valuesOf? fun d hd => ih d hd (fun hr => h (.item hd hr)) (depth - 1)]
  | object ms ih =>
    have hbegins : beginsNumber ms = standsForNumber ms := by
      unfold standsForNumber
      cases hb : beginsNumber ms with
      | false => rfl
      | true =>
        have hone : ms.length = 1 := by
          by_contra hmany
          exact h (.here hb hmany)
        rw [hone]
        rfl
    rw [ofDocument?, valueOf?, hbegins,
      ofMembers?_eq_memberValuesOf? fun m hm => ih m hm (fun hr => h (.member hm hr)) (depth - 1)]

lemma ofDocument?_of_reserved (h : d.Reserved) (depth : ℕ) : ofDocument? depth d = none := by
  induction h generalizing depth with
  | here hbegins hmany => rw [ofDocument?, if_pos hbegins, numberOf?_of_length hmany, ite_self]
  | item hd _ ih => rw [ofDocument?, ofItems?_eq_none hd (ih _), Option.map_none, ite_self]
  | @member ms m hm h ih =>
    have hnumber : numberOf? ms = none := by
      by_cases hone : ms.length = 1
      · obtain ⟨m', rfl⟩ := List.length_eq_one_iff.mp hone
        obtain rfl := List.mem_singleton.mp hm
        obtain ⟨k, d⟩ := m
        cases h <;> rfl
      · exact numberOf?_of_length hone
    rw [ofDocument?, ofMembers?_eq_none hm (ih _), hnumber, Option.map_none, ite_self, ite_self]

/-! ### Members in another order -/

section Order

variable {vs ws : List (String × Json)} {m : Member}

lemma memberValuesOf?_cons_eq_some (h : memberValuesOf? depth (m :: ms) = some vs) :
    ∃ v vs', vs = v :: vs' ∧ m.1 = some v.1 ∧ valueOf? depth m.2 = some v.2 ∧
      memberValuesOf? depth ms = some vs' := by
  obtain ⟨k, hk, h⟩ := Option.bind_eq_some_iff.mp h
  obtain ⟨w, hw, h⟩ := Option.bind_eq_some_iff.mp h
  obtain ⟨vs', hvs', h⟩ := Option.bind_eq_some_iff.mp h
  cases h
  exact ⟨(k, w), vs', rfl, hk, hw, hvs'⟩

lemma memberValuesOf?_perm (h : ms.Perm ns) (hms : memberValuesOf? depth ms = some vs) :
    ∃ ws, memberValuesOf? depth ns = some ws ∧ vs.Perm ws := by
  induction h generalizing vs with
  | nil => exact ⟨vs, hms, .refl _⟩
  | cons m _ ih =>
    obtain ⟨v, vs, rfl, hkey, hvalue, hms⟩ := memberValuesOf?_cons_eq_some hms
    obtain ⟨ws, hns, hperm⟩ := ih hms
    exact ⟨v :: ws, by simp [memberValuesOf?, hkey, hvalue, hns], hperm.cons v⟩
  | swap m m' ms =>
    obtain ⟨v, vs, rfl, hkey, hvalue, hms⟩ := memberValuesOf?_cons_eq_some hms
    obtain ⟨v', vs, rfl, hkey', hvalue', hms⟩ := memberValuesOf?_cons_eq_some hms
    exact ⟨v' :: v :: vs, by simp [memberValuesOf?, hkey, hvalue, hkey', hvalue', hms],
      .swap _ _ _⟩
  | trans _ _ ih ih' =>
    obtain ⟨us, hus, hperm⟩ := ih hms
    obtain ⟨ws, hws, hperm'⟩ := ih' hus
    exact ⟨ws, hws, hperm.trans hperm'⟩

lemma keys_of_memberValuesOf? (h : memberValuesOf? depth ms = some vs) :
    vs.map Prod.fst = ms.filterMap Prod.fst := by
  induction ms generalizing vs with
  | nil =>
    cases h
    rfl
  | cons m ms ih =>
    obtain ⟨v, vs, rfl, hkey, -, h⟩ := memberValuesOf?_cons_eq_some h
    rw [List.map_cons, List.filterMap_cons_some hkey, ih h]

/-- Members with distinct keys make the same object in any order. -/
lemma ofMembers_perm (h : vs.Perm ws) (hkeys : (vs.map Prod.fst).Nodup) :
    ofMembers vs = ofMembers ws := by
  have hws : (ws.map Prod.fst).Nodup := (h.map Prod.fst).nodup_iff.mp hkeys
  refine ofMembers_eq_iff.mpr fun k => ?_
  ext v
  rw [lookup_eq_some_iff (by rwa [List.map_reverse, List.nodup_reverse]),
    lookup_eq_some_iff (by rwa [List.map_reverse, List.nodup_reverse]), List.mem_reverse,
    List.mem_reverse, h.mem_iff]

lemma map_ofMembers_perm (h : ms.Perm ns) (hkeys : (ms.filterMap Prod.fst).Nodup) :
    (memberValuesOf? depth ms).map ofMembers = (memberValuesOf? depth ns).map ofMembers := by
  cases hms : memberValuesOf? depth ms with
  | some vs =>
    obtain ⟨ws, hns, hperm⟩ := memberValuesOf?_perm h hms
    rw [hns, Option.map_some, Option.map_some,
      ofMembers_perm hperm (by rwa [keys_of_memberValuesOf? hms])]
  | none =>
    cases hns : memberValuesOf? depth ns with
    | none => rfl
    | some ws =>
      obtain ⟨vs, hms', -⟩ := memberValuesOf?_perm h.symm hns
      rw [hms] at hms'
      cases hms'

lemma valueOf?_object_perm (h : ms.Perm ns) (hkeys : (ms.filterMap Prod.fst).Nodup) :
    valueOf? depth (.object ms) = valueOf? depth (.object ns) := by
  by_cases hone : ms.length = 1
  · obtain ⟨m, rfl⟩ := List.length_eq_one_iff.mp hone
    rw [List.perm_singleton.mp h.symm]
  · have hfree (os : List Member) (hos : os.length ≠ 1) : standsForNumber os = false := by
      simp [standsForNumber, hos]
    rw [valueOf?, valueOf?, hfree ms hone, hfree ns (h.length_eq ▸ hone),
      map_ofMembers_perm h hkeys, if_neg Bool.false_ne_true, if_neg Bool.false_ne_true]

end Order

/-! ### Documents with reordered parts -/

namespace Document.Reordered

lemma string_iff (h : d.Reordered e) (t : Option String) : d = .string t ↔ e = .string t := by
  induction h with
  | refl => rfl
  | trans _ _ ih ih' => exact ih.trans ih'
  | _ => simp

lemma valuesOf?_eq (before after : List Document) (h : valueOf? depth d = valueOf? depth e) :
    valuesOf? depth (before ++ d :: after) = valuesOf? depth (before ++ e :: after) := by
  induction before with
  | nil => rw [List.nil_append, List.nil_append, valuesOf?, valuesOf?, h]
  | cons b before ih => rw [List.cons_append, List.cons_append, valuesOf?, valuesOf?, ih]

lemma memberValuesOf?_eq (before after : List Member) (k : Option String)
    (h : valueOf? depth d = valueOf? depth e) :
    memberValuesOf? depth (before ++ (k, d) :: after) =
      memberValuesOf? depth (before ++ (k, e) :: after) := by
  induction before with
  | nil => rw [List.nil_append, List.nil_append, memberValuesOf?, memberValuesOf?, h]
  | cons b before ih => rw [List.cons_append, List.cons_append, memberValuesOf?, memberValuesOf?, ih]

lemma standsForNumber_eq (before after : List Member) (k : Option String) :
    standsForNumber (before ++ (k, d) :: after) = standsForNumber (before ++ (k, e) :: after) := by
  have hbegins : beginsNumber (before ++ (k, d) :: after) =
      beginsNumber (before ++ (k, e) :: after) := by
    cases before <;> rfl
  simp [standsForNumber, hbegins]

lemma numberOf?_singleton (k : Option String) (h : d.Reordered e) :
    numberOf? [(k, d)] = numberOf? [(k, e)] := by
  cases d with
  | string t =>
    obtain rfl := (h.string_iff t).mp rfl
    rfl
  | _ =>
    cases e with
    | string t => exact absurd ((h.string_iff t).mpr rfl) (by simp)
    | _ => rfl

lemma numberOf?_eq (before after : List Member) (k : Option String) (h : d.Reordered e) :
    numberOf? (before ++ (k, d) :: after) = numberOf? (before ++ (k, e) :: after) := by
  match before, after with
  | [], [] => exact numberOf?_singleton k h
  | [], _ :: _ => simp [numberOf?]
  | [_], _ => simp [numberOf?]
  | _ :: _ :: _, _ => simp [numberOf?]

lemma valueOf?_eq (h : d.Reordered e) (depth : ℕ) : valueOf? depth d = valueOf? depth e := by
  induction h generalizing depth with
  | refl => rfl
  | trans _ _ ih ih' => rw [ih, ih']
  | members h hkeys => exact valueOf?_object_perm h hkeys
  | item before after _ ih => rw [valueOf?, valueOf?, valuesOf?_eq before after (ih _)]
  | member before after k h ih =>
    rw [valueOf?, valueOf?, standsForNumber_eq before after k, numberOf?_eq before after k h,
      memberValuesOf?_eq before after k (ih _)]

/-- **The order of members does not count** for the value of a document, if none of its objects is
refused. -/
theorem ofDocument?_eq (h : d.Reordered e) (hd : ¬ d.Reserved) (he : ¬ e.Reserved) (depth : ℕ) :
    ofDocument? depth d = ofDocument? depth e := by
  rw [ofDocument?_of_not_reserved hd, ofDocument?_of_not_reserved he, h.valueOf?_eq]

end Document.Reordered

end SchemaRegistry.Json
