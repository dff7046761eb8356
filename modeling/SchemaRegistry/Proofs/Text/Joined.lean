import Mathlib.Data.List.Basic
import Mathlib.Tactic.Lemma
import SchemaRegistry.Text.Basic

/-!
Texts joined with separators, and when the parts can be told apart again. A separator tells parts
apart that do not have its first character.
-/

namespace SchemaRegistry.Text

variable {c : Char}

lemma append_cons_inj {x x' t t' : List Char} (hx : c ∉ x) (hx' : c ∉ x')
    (h : x ++ c :: t = x' ++ c :: t') : x = x' ∧ t = t' := by
  induction x generalizing x' with
  | nil =>
    cases x' with
    | nil => exact ⟨rfl, (List.cons.inj h).2⟩
    | cons a r =>
      obtain ⟨rfl, -⟩ := List.cons.inj h
      exact absurd List.mem_cons_self hx'
  | cons a r ih =>
    cases x' with
    | nil =>
      obtain ⟨rfl, -⟩ := List.cons.inj h
      exact absurd List.mem_cons_self hx
    | cons a' r' =>
      obtain ⟨rfl, hr⟩ := List.cons.inj h
      obtain ⟨rfl, ht⟩ := ih (List.not_mem_of_not_mem_cons hx) (List.not_mem_of_not_mem_cons hx') hr
      exact ⟨rfl, ht⟩

lemma append_cons_inj_last {x x' t t' : List Char} (ht : c ∉ t) (ht' : c ∉ t')
    (h : x ++ c :: t = x' ++ c :: t') : x = x' ∧ t = t' := by
  have hr := congrArg List.reverse h
  simp only [List.reverse_append, List.reverse_cons, List.append_assoc, List.singleton_append] at hr
  obtain ⟨e, e'⟩ := append_cons_inj (by simpa using ht) (by simpa using ht') hr
  exact ⟨List.reverse_injective e', List.reverse_injective e⟩

/-- What a separator with `c` at its front can tell apart. -/
def Part (c : Char) (l : List Char) : Prop := l ≠ [] ∧ c ∉ l

lemma intercalate_cons_ne_nil {sep l : List Char} {ls : List (List Char)} (h : l ≠ []) :
    sep.intercalate (l :: ls) ≠ [] := by
  cases ls with
  | nil => rwa [List.intercalate_singleton]
  | cons l' ls =>
    rw [List.intercalate_cons_cons, List.append_assoc]
    exact List.append_ne_nil_of_left_ne_nil h _

lemma intercalate_inj {sep : List Char} {ls ls' : List (List Char)} (h : ∀ l ∈ ls, Part c l)
    (h' : ∀ l ∈ ls', Part c l) (e : (c :: sep).intercalate ls = (c :: sep).intercalate ls') :
    ls = ls' := by
  induction ls generalizing ls' with
  | nil =>
    cases ls' with
    | nil => rfl
    | cons l' rest' =>
      exact absurd e.symm (intercalate_cons_ne_nil (h' l' List.mem_cons_self).1)
  | cons l rest ih =>
    cases ls' with
    | nil => exact absurd e (intercalate_cons_ne_nil (h l List.mem_cons_self).1)
    | cons l' rest' =>
      have hl := (h l List.mem_cons_self).2
      have hl' := (h' l' List.mem_cons_self).2
      rcases rest with _ | ⟨m, rest⟩ <;> rcases rest' with _ | ⟨m', rest'⟩
      · rw [List.intercalate_singleton, List.intercalate_singleton] at e
        rw [e]
      · -- the separator would be inside the only part of the other side
        rw [List.intercalate_singleton, List.intercalate_cons_cons, List.append_assoc] at e
        exact absurd (e ▸ by simp) hl
      · rw [List.intercalate_singleton, List.intercalate_cons_cons, List.append_assoc] at e
        exact absurd (e ▸ by simp) hl'
      · rw [List.intercalate_cons_cons, List.intercalate_cons_cons, List.append_assoc,
          List.append_assoc, List.cons_append, List.cons_append] at e
        obtain ⟨rfl, hr⟩ := append_cons_inj hl hl' e
        rw [ih (fun x hx => h x (List.mem_cons_of_mem _ hx))
          (fun x hx => h' x (List.mem_cons_of_mem _ hx)) (List.append_cancel_left hr)]

lemma mem_intercalate {sep : List Char} {ls : List (List Char)} (h : c ∈ sep.intercalate ls) :
    c ∈ sep ∨ ∃ l ∈ ls, c ∈ l := by
  induction ls with
  | nil => simp at h
  | cons l rest ih =>
    cases rest with
    | nil =>
      rw [List.intercalate_singleton] at h
      exact .inr ⟨l, List.mem_cons_self, h⟩
    | cons m rest =>
      rw [List.intercalate_cons_cons, List.append_assoc, List.mem_append, List.mem_append] at h
      rcases h with h | h | h
      · exact .inr ⟨l, List.mem_cons_self, h⟩
      · exact .inl h
      · rcases ih h with h | ⟨x, hx, hc⟩
        · exact .inl h
        · exact .inr ⟨x, List.mem_cons_of_mem _ hx, hc⟩

lemma intercalate_split (c : Char) (cs : List Char) : [c].intercalate (split c cs) = cs := by
  induction cs with
  | nil => rfl
  | cons d cs ih =>
    obtain ⟨part, parts, h⟩ := List.exists_cons_of_ne_nil (split_ne_nil c cs)
    rw [h] at ih
    rw [split]
    split
    · next hd => rw [h, List.intercalate_cons_cons, ih, hd]; rfl
    · cases parts <;> simp_all [List.intercalate_cons_cons]

lemma split_of_notMem {cs : List Char} (h : c ∉ cs) : split c cs = [cs] := by
  induction cs with
  | nil => rfl
  | cons d cs ih =>
    obtain ⟨hd, hcs⟩ := List.ne_and_not_mem_of_not_mem_cons h
    rw [split, if_neg (Ne.symm hd), ih hcs]

/-! ### What a character ends -/

section Ended

variable {p : Char → Bool}

lemma takeWhile_append_cons (hc : p c = false) (a b : List Char) :
    (a ++ c :: b).takeWhile p = a.takeWhile p := by
  induction a with
  | nil => simp [hc]
  | cons x a ih => simp only [List.cons_append, List.takeWhile_cons, ih]

lemma dropWhile_append_cons (hc : p c = false) (a b : List Char) :
    (a ++ c :: b).dropWhile p = a.dropWhile p ++ c :: b := by
  induction a with
  | nil => simp [hc]
  | cons x a ih =>
    simp only [List.cons_append, List.dropWhile_cons, ih]
    split <;> rfl

end Ended

/-! ### Decimal numbers -/

lemma toList_ofNat (n : ℕ) : (ofNat n).toList = Nat.toDigits 10 n := by
  rw [ofNat, String.toList_ofList]

lemma isDigit_of_mem_ofNat {n : ℕ} (h : c ∈ (ofNat n).toList) : c.isDigit := by
  rw [toList_ofNat] at h
  exact Nat.isDigit_of_mem_toDigits (by decide) (by decide) h

lemma ofNat_injective : Function.Injective ofNat := by
  intro m n h
  have hd := congrArg String.toList h
  rw [toList_ofNat, toList_ofNat] at hd
  have := congrArg (fun ds => Nat.ofDigitChars 10 ds 0) hd
  simpa using this

lemma toList_ofNat_ne_nil (n : ℕ) : (ofNat n).toList ≠ [] := by
  rw [toList_ofNat]
  exact Nat.toDigits_ne_nil

lemma digitChar_ne_zero : ∀ d < 10, 0 < d → Nat.digitChar d ≠ '0' := by
  decide

lemma head?_toDigits_ne_zero {n : ℕ} (hn : 0 < n) : (Nat.toDigits 10 n).head? ≠ some '0' := by
  induction n using Nat.strongRecOn with
  | ind n ih =>
    rcases Nat.lt_or_ge n 10 with hlt | hge
    · rw [Nat.toDigits_of_lt_base hlt]
      exact fun h => digitChar_ne_zero n hlt hn (Option.some.inj h)
    · rw [Nat.toDigits_of_base_le (by decide) hge,
        List.head?_append_of_ne_nil _ Nat.toDigits_ne_nil]
      exact ih (n / 10) (by omega) (by omega)

lemma neg_append_ofNat_ne (m n : ℕ) : "-" ++ ofNat m ≠ ofNat n := by
  intro h
  have hm : '-' ∈ (ofNat n).toList := by
    rw [← h, String.toList_append]
    exact List.mem_append_left _ (by decide)
  exact absurd (isDigit_of_mem_ofNat hm) (by decide)

lemma ofInt_injective : Function.Injective ofInt := by
  intro i j h
  unfold ofInt at h
  split at h <;> split at h
  · have hd := congrArg String.toList h
    rw [String.toList_append, String.toList_append] at hd
    have := ofNat_injective (String.toList_injective (List.append_cancel_left hd))
    omega
  · exact absurd h (neg_append_ofNat_ne _ _)
  · exact absurd h.symm (neg_append_ofNat_ne _ _)
  · have := ofNat_injective h
    omega

lemma mem_ofInt {i : Int} (h : c ∈ (ofInt i).toList) : c = '-' ∨ c.isDigit := by
  unfold ofInt at h
  split at h
  · rw [String.toList_append, List.mem_append] at h
    rcases h with h | h
    · exact .inl (by simpa using h)
    · exact .inr (isDigit_of_mem_ofNat h)
  · exact .inr (isDigit_of_mem_ofNat h)

end SchemaRegistry.Text
