import Mathlib.Data.List.Basic
import Mathlib.Tactic.Lemma
import SchemaRegistry.Json.Value

/-!
Texts of tokens. Scanning a number or a string that was written gives it back, whatever comes after
it, and a scan comes upon no number but those that are spelled as tokens spell them.
-/

namespace SchemaRegistry.Json

/-! ### Numbers -/

/-- The beginnings of numbers as tokens spell them, the last character first, each with the place
where it stops. -/
inductive Numeral : Place → List Char → Prop where
  | empty : Numeral .sign []
  | minus : Numeral .sign ['-']
  | next {p p' : Place} {text : List Char} {c : Char} (h : Numeral p text)
    (hc : p.next c = some (p', [c])) : Numeral p' (c :: text)

/-- The texts of number tokens. -/
def IsNumber (t : String) : Prop := ∃ p : Place, p.isEnd ∧ Numeral p t.toList.reverse

/-- A character is taken as it stands, or as the small letter of a marker, or after a sign. -/
lemma Place.next_cases {p p' : Place} {c : Char} {w : List Char} (h : p.next c = some (p', w)) :
    w = [c] ∨ w = ['e'] ∧ p.next 'e' = some (p', ['e']) ∨
      w = ['+', c] ∧ p.next '+' = some (.markerSign, ['+']) ∧
        Place.markerSign.next c = some (p', [c]) := by
  have he : isDigit 'e' = false := by decide
  have hplus : isDigit '+' = false := by decide
  cases p <;> simp only [next] at h ⊢ <;> split_ifs at h <;> grind

lemma Numeral.append {p p' : Place} {text w : List Char} {c : Char} (h : Numeral p text)
    (hc : p.next c = some (p', w)) : Numeral p' (w.reverse ++ text) := by
  rcases Place.next_cases hc with rfl | ⟨rfl, he⟩ | ⟨rfl, hplus, hdigit⟩
  · exact h.next hc
  · exact h.next he
  · exact (h.next hplus).next hdigit

lemma Numeral.read? {p : Place} {text cs out : List Char} (h : Numeral p text)
    (hr : p.read? text cs = some out) : ∃ p' : Place, p'.isEnd ∧ Numeral p' out := by
  induction cs generalizing p text with
  | nil =>
    unfold Place.read? at hr
    split at hr
    · next hend =>
      cases hr
      exact ⟨p, hend, h⟩
    · cases hr
  | cons c cs ih =>
    obtain ⟨⟨p', w⟩, hc, hr⟩ := Option.bind_eq_some_iff.mp hr
    exact ih (h.append hc) hr

lemma isNumber_of_number? {s t : String} (h : number? s = some t) : IsNumber t := by
  obtain ⟨out, hout, rfl⟩ := Option.map_eq_some_iff.mp h
  have hread : ∃ p : Place, p.isEnd ∧ Numeral p out := by
    split at hout
    · exact Numeral.minus.read? hout
    · exact Numeral.empty.read? hout
  unfold IsNumber
  rwa [String.toList_ofList, List.reverse_reverse]

/-! ### Scanning what was written -/

/-- No number goes on with what comes here. -/
def EndsNumber (rest : List Char) : Prop := ∀ c ∈ rest.head?, ∀ p : Place, p.next c = none

namespace Scan

variable {done : List Token} {rest : List Char}

/-- Scans on to the end of a text. -/
def run (s : Scan) (cs : List Char) : Option (List Token) := (cs.foldlM step s).bind finish

lemma run_cons {s s' : Scan} {c : Char} (h : s.step c = some s') (cs : List Char) :
    s.run (c :: cs) = s'.run cs := by
  rw [run, List.foldlM_cons, h]
  rfl

lemma run_congr {s s' : Scan} {c : Char} (h : s.step c = s'.step c) (cs : List Char) :
    s.run (c :: cs) = s'.run (c :: cs) := by
  rw [run, run, List.foldlM_cons, List.foldlM_cons, h]

lemma start_of_next {p : Place} {c : Char} (h : Place.sign.next c = some (p, [c])) :
    start done c = some ⟨done, .number p [c]⟩ := by
  have hdigit : isDigit c := by
    simp only [Place.next] at h
    split_ifs at h with h0 hd
    · subst h0
      rfl
    · exact hd
  have hrange : 48 ≤ c.toNat ∧ c.toNat ≤ 57 := by
    simpa [isDigit, Char.le_def, UInt32.le_iff_toNat_le] using hdigit
  have hspace : isSpace c = false := by
    simp only [isSpace, Bool.or_eq_false_iff, decide_eq_false_iff_not]
    refine ⟨⟨⟨?_, ?_⟩, ?_⟩, ?_⟩ <;> rintro rfl <;> simp at hrange
  simp only [start, hspace, Bool.false_eq_true, if_false]
  split
  case h_12 => rw [h]; rfl
  all_goals simp at hrange

lemma run_numeral {p : Place} {text : List Char} (h : Numeral p text) (hne : text ≠ []) :
    run ⟨done, .nothing⟩ (text.reverse ++ rest) = run ⟨done, .number p text⟩ rest := by
  induction h generalizing rest with
  | empty => exact absurd rfl hne
  | minus => exact run_cons rfl rest
  | @next p p' text c h hc ih =>
    have hsplit : (c :: text).reverse ++ rest = text.reverse ++ c :: rest := by simp
    rw [hsplit]
    by_cases ht : text = []
    · subst ht
      cases h
      exact run_cons (s := ⟨done, .nothing⟩) (start_of_next hc) rest
    · rw [ih ht]
      refine run_cons ?_ rest
      simp [step, hc]

/-- A number ends where it may end and nothing goes on with it. -/
lemma run_of_isEnd {p : Place} (hend : p.isEnd) (text : List Char) (hrest : EndsNumber rest) :
    run ⟨done, .number p text⟩ rest =
      run ⟨.number (String.ofList text.reverse) :: done, .nothing⟩ rest := by
  cases rest with
  | nil => simp [run, finish, hend]
  | cons c cs =>
    refine run_congr ?_ cs
    simp [step, hrest c rfl p, hend]

lemma run_number {t : String} (ht : IsNumber t) (hrest : EndsNumber rest) :
    run ⟨done, .nothing⟩ (t.toList ++ rest) = run ⟨.number t :: done, .nothing⟩ rest := by
  obtain ⟨p, hend, hn⟩ := ht
  have hne : t.toList.reverse ≠ [] := by
    intro h
    rw [h] at hn
    cases hn
    exact absurd hend (by decide)
  have hrun : run ⟨done, .nothing⟩ (t.toList.reverse.reverse ++ rest) =
      run ⟨done, .number p t.toList.reverse⟩ rest := run_numeral hn hne
  rw [List.reverse_reverse] at hrun
  rw [hrun, run_of_isEnd hend _ hrest, List.reverse_reverse, String.ofList_toList]

lemma digitIn?_digitChar : ∀ n < 16, Text.digitIn? 16 (Nat.digitChar n) = some n := by
  decide

lemma run_escapeChar (ps : List Piece) (c : Char) :
    run ⟨done, .string ps⟩ (escapeChar c ++ rest) = run ⟨done, .string (.char c :: ps)⟩ rest := by
  unfold escapeChar
  split_ifs with hquote hback hcontrol hn hr ht h8 h12
  · subst hquote
    exact (run_cons rfl _).trans (run_cons rfl _)
  · subst hback
    exact (run_cons rfl _).trans (run_cons rfl _)
  · subst hn
    exact (run_cons rfl _).trans (run_cons rfl _)
  · subst hr
    exact (run_cons rfl _).trans (run_cons rfl _)
  · subst ht
    exact (run_cons rfl _).trans (run_cons rfl _)
  · have hc : Char.ofNat 8 = c := by rw [← h8, Char.ofNat_toNat]
    subst hc
    exact (run_cons rfl _).trans (run_cons rfl _)
  · have hc : Char.ofNat 12 = c := by rw [← h12, Char.ofNat_toNat]
    subst hc
    exact (run_cons rfl _).trans (run_cons rfl _)
  · -- the four digits are the number of the character
    have hhigh : Text.digitIn? 16 (Nat.digitChar (c.toNat / 16)) = some (c.toNat / 16) :=
      digitIn?_digitChar _ (by omega)
    have hlow : Text.digitIn? 16 (Nat.digitChar (c.toNat % 16)) = some (c.toNat % 16) :=
      digitIn?_digitChar _ (by omega)
    have hunit : Piece.ofUnit (c.toNat / 16 * 16 + c.toNat % 16) = .char c := by
      have hvalue : c.toNat / 16 * 16 + c.toNat % 16 = c.toNat := by omega
      rw [hvalue, Piece.ofUnit, if_neg (by simp; omega), if_neg (by simp; omega),
        Char.ofNat_toNat]
    have hthird : step ⟨done, .unit ps 2 0⟩ (Nat.digitChar (c.toNat / 16)) =
        some ⟨done, .unit ps 3 (c.toNat / 16)⟩ := by
      simp [step, hhigh]
    have hlast : step ⟨done, .unit ps 3 (c.toNat / 16)⟩ (Nat.digitChar (c.toNat % 16)) =
        some ⟨done, .string (.char c :: ps)⟩ := by
      simp [step, hlow, hunit]
    exact (run_cons rfl _).trans ((run_cons rfl _).trans ((run_cons rfl _).trans
      ((run_cons rfl _).trans ((run_cons hthird _).trans (run_cons hlast _)))))
  · refine run_cons ?_ rest
    simp [step, hquote, hback, hcontrol]

lemma joinPieces_chars (cs : List Char) : joinPieces (cs.map .char) = some cs := by
  induction cs with
  | nil => rfl
  | cons c cs ih => simp [joinPieces, ih]

lemma run_string (ps : List Piece) (cs : List Char) :
    run ⟨done, .string ps⟩ (cs.flatMap escapeChar ++ '"' :: rest) =
      run ⟨.string ((joinPieces (ps.reverse ++ cs.map .char)).map String.ofList) :: done,
        .nothing⟩ rest := by
  induction cs generalizing ps with
  | nil =>
    refine run_cons ?_ rest
    simp [step]
  | cons c cs ih =>
    rw [List.flatMap_cons, List.append_assoc, run_escapeChar, ih]
    simp

lemma run_quoted (s : String) :
    run ⟨done, .nothing⟩ (quoted s ++ rest) = run ⟨.string (some s) :: done, .nothing⟩ rest := by
  have hsplit : quoted s ++ rest = '"' :: (s.toList.flatMap escapeChar ++ '"' :: rest) := by
    simp [quoted]
  rw [hsplit, run_cons rfl, run_string, List.reverse_nil, List.nil_append, joinPieces_chars]
  simp

/-! ### What a scan comes upon -/

/-- The scan has come upon numbers as tokens spell them only, and is not inside any other. -/
structure Spelled (s : Scan) : Prop where
  done : ∀ t, .number t ∈ s.done → IsNumber t
  number : ∀ p text, s.begun = .number p text → Numeral p text
  word : ∀ due t, s.begun = .word due t → ∀ x, t ≠ .number x

lemma spelled_start {s : Scan} {c : Char} (hdone : ∀ t, .number t ∈ done → IsNumber t)
    (h : start done c = some s) : s.Spelled := by
  unfold start at h
  split at h
  · cases h
    exact ⟨hdone, nofun, nofun⟩
  · split at h
    case h_12 =>
      obtain ⟨⟨p, w⟩, hc, rfl⟩ := Option.map_eq_some_iff.mp h
      refine ⟨hdone, ?_, nofun⟩
      rintro _ _ ⟨⟩
      have hw : w = [c] := by
        unfold Place.next at hc
        split_ifs at hc <;> cases hc <;> rfl
      subst hw
      exact Numeral.empty.next hc
    case h_11 =>
      cases h
      refine ⟨hdone, ?_, nofun⟩
      rintro _ _ ⟨⟩
      exact .minus
    all_goals
      cases h
      exact ⟨by simpa using hdone, nofun, by simp⟩

lemma Spelled.step {s s' : Scan} {c : Char} (hs : s.Spelled) (h : s.step c = some s') :
    s'.Spelled := by
  obtain ⟨done, begun⟩ := s
  obtain ⟨hdone, hnumber, hword⟩ := hs
  cases begun with
  | nothing => exact spelled_start hdone h
  | word due t =>
    have ht := hword due t rfl
    have hdone' : ∀ x, .number x ∈ t :: done → IsNumber x := fun x hx =>
      hdone x ((List.mem_cons.mp hx).resolve_left fun e => ht x e.symm)
    match due with
    | [] => exact spelled_start hdone' h
    | [d] =>
      simp only [Scan.step] at h
      split at h <;> cases h
      exact ⟨hdone', nofun, nofun⟩
    | d :: d' :: due =>
      simp only [Scan.step] at h
      split at h <;> cases h
      exact ⟨hdone, nofun, by rintro _ _ ⟨⟩; exact ht⟩
  | number p text =>
    have hn := hnumber p text rfl
    simp only [Scan.step] at h
    split at h
    · next hc =>
      cases h
      exact ⟨hdone, by rintro _ _ ⟨⟩; exact hn.append hc, nofun⟩
    · split at h
      · next hend =>
        refine spelled_start (fun x hx => ?_) h
        rcases List.mem_cons.mp hx with e | hx
        · cases e
          exact ⟨p, hend, by rwa [String.toList_ofList, List.reverse_reverse]⟩
        · exact hdone x hx
      · cases h
  | string ps =>
    simp only [Scan.step] at h
    split_ifs at h <;> cases h
    · exact ⟨by simpa using hdone, nofun, nofun⟩
    · exact ⟨hdone, nofun, nofun⟩
    · exact ⟨hdone, nofun, nofun⟩
  | escape ps =>
    simp only [Scan.step] at h
    split at h
    · cases h
      exact ⟨hdone, nofun, nofun⟩
    · obtain ⟨d, -, rfl⟩ := Option.map_eq_some_iff.mp h
      exact ⟨hdone, nofun, nofun⟩
  | unit ps count value =>
    obtain ⟨v, -, h⟩ := Option.bind_eq_some_iff.mp h
    split at h <;> cases h <;> exact ⟨hdone, nofun, nofun⟩

lemma Spelled.scan {s s' : Scan} {cs : List Char} (hs : s.Spelled)
    (h : cs.foldlM Scan.step s = some s') : s'.Spelled := by
  induction cs generalizing s with
  | nil =>
    cases h
    exact hs
  | cons c cs ih =>
    obtain ⟨s₁, h₁, h⟩ := Option.bind_eq_some_iff.mp h
    exact ih (hs.step h₁) h

lemma Spelled.finish {s : Scan} {ts : List Token} (hs : s.Spelled) (h : s.finish = some ts) :
    ∀ t, .number t ∈ ts → IsNumber t := by
  obtain ⟨done, begun⟩ := s
  unfold Scan.finish at h
  split at h
  · cases h
    simpa using hs.done
  · next p text hbegun =>
    split at h
    · next hend =>
      cases h
      intro t ht
      rcases List.mem_cons.mp (List.mem_reverse.mp ht) with e | ht
      · cases e
        refine ⟨p, hend, ?_⟩
        rw [String.toList_ofList, List.reverse_reverse]
        exact hs.number p text hbegun
      · exact hs.done t ht
    · cases h
  · cases h

end Scan

lemma isNumber_of_tokens? {cs : List Char} {ts : List Token} (h : tokens? cs = some ts) :
    ∀ t, .number t ∈ ts → IsNumber t := by
  obtain ⟨s, hs, hfinish⟩ := Option.bind_eq_some_iff.mp h
  have hempty : Scan.Spelled {} := ⟨by simp, by simp, by simp⟩
  exact (hempty.scan hs).finish hfinish

end SchemaRegistry.Json
