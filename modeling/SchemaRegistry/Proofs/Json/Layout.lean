import Mathlib.Data.List.Chain
import SchemaRegistry.Proofs.Json.Compact

/-!
Texts of a document. They differ in the blanks around tokens and in how numbers and strings are
spelled, and they are exactly the texts that are read as the document.
-/

namespace SchemaRegistry.Json

/-! ### How tokens are written -/

/-- A piece of a string is written as it is, as a letter behind a backslash, or with four digits. -/
inductive Piece.Written : Piece → List Char → Prop where
  | plain {c : Char} (hquote : c ≠ '"') (hback : c ≠ '\\') (hcontrol : ¬ c.toNat < 0x20) :
      Written (.char c) [c]
  | letter {c e : Char} (h : escaped? e = some c) : Written (.char c) ['\\', e]
  | unit {ds : List Char} {n : ℕ} (hfour : ds.length = 4) (hn : Text.natFrom 16 0 ds = some n) :
      Written (.ofUnit n) ('\\' :: 'u' :: ds)

/-- The texts of a token. -/
inductive Lexeme : Token → List Char → Prop where
  | leftBracket : Lexeme .leftBracket ['[']
  | rightBracket : Lexeme .rightBracket [']']
  | leftBrace : Lexeme .leftBrace ['{']
  | rightBrace : Lexeme .rightBrace ['}']
  | comma : Lexeme .comma [',']
  | colon : Lexeme .colon [':']
  | null : Lexeme .null ['n', 'u', 'l', 'l']
  | true : Lexeme (.bool true) ['t', 'r', 'u', 'e']
  | false : Lexeme (.bool false) ['f', 'a', 'l', 's', 'e']
  | number {cs : List Char} {t : String} (h : number? (String.ofList cs) = some t) :
      Lexeme (.number t) cs
  | string {ps : List Piece} {css : List (List Char)} (h : List.Forall₂ Piece.Written ps css) :
      Lexeme (.string ((joinPieces ps).map String.ofList)) ('"' :: (css.flatten ++ ['"']))

/-- The texts with these tokens: blanks may stand anywhere around them. -/
inductive Layout : List Token → List Char → Prop where
  | nil : Layout [] []
  | blank {ts : List Token} {cs : List Char} {c : Char} (hc : isSpace c) (h : Layout ts cs) :
      Layout ts (c :: cs)
  | token {t : Token} {ts : List Token} {ls cs : List Char} (ht : Lexeme t ls) (h : Layout ts cs) :
      Layout (t :: ts) (ls ++ cs)

/-- No number follows on another, so that a blank between two tokens can be left out. -/
def Apart (ts : List Token) : Prop := ts.IsChain fun t u => ∀ x y, t = .number x → u ≠ .number y

variable {done ts : List Token} {t : Token} {cs ls rest pre : List Char} {c : Char}

/-! ### Scanning a layout -/

namespace Scan

lemma start_of_isSpace (hc : isSpace c) : start done c = some ⟨done, .nothing⟩ := if_pos hc

lemma next_sign {p : Place} {w : List Char} (h : Place.sign.next c = some (p, w)) : w = [c] := by
  unfold Place.next at h
  split_ifs at h <;> cases h <;> rfl

lemma run_read? {p : Place} {text out : List Char} (h : p.read? text cs = some out)
    (hrest : EndsNumber rest) : run ⟨done, .number p text⟩ (cs ++ rest) =
      run ⟨.number (String.ofList out.reverse) :: done, .nothing⟩ rest := by
  induction cs generalizing p text with
  | nil =>
    unfold Place.read? at h
    split at h
    · next hend =>
      cases h
      exact run_of_isEnd hend _ hrest
    · cases h
  | cons c cs ih =>
    obtain ⟨⟨p', w⟩, hc, h⟩ := Option.bind_eq_some_iff.mp h
    have hstep : step ⟨done, .number p text⟩ c = some ⟨done, .number p' (w.reverse ++ text)⟩ := by
      simp [step, hc]
    exact (run_cons hstep _).trans (ih h)

lemma run_of_number? {t : String} (h : number? (String.ofList cs) = some t)
    (hrest : EndsNumber rest) :
    run ⟨done, .nothing⟩ (cs ++ rest) = run ⟨.number t :: done, .nothing⟩ rest := by
  obtain ⟨out, hout, rfl⟩ := Option.map_eq_some_iff.mp h
  rw [String.toList_ofList] at hout
  split at hout
  · exact (run_cons rfl _).trans (run_read? hout hrest)
  · cases cs with
    | nil => cases hout
    | cons c cs =>
      obtain ⟨⟨p, w⟩, hc, hread⟩ := Option.bind_eq_some_iff.mp hout
      obtain rfl := next_sign hc
      exact (run_cons (s := ⟨done, .nothing⟩) (start_of_next hc) _).trans (run_read? hread hrest)

lemma run_digits {ps : List Piece} {count value n : ℕ} {ds : List Char} (hne : ds ≠ [])
    (hfour : count + ds.length = 4) (hn : Text.natFrom 16 value ds = some n) :
    run ⟨done, .unit ps count value⟩ (ds ++ rest) =
      run ⟨done, .string (.ofUnit n :: ps)⟩ rest := by
  induction ds generalizing count value with
  | nil => exact absurd rfl hne
  | cons d ds ih =>
    obtain ⟨v, hv, hn⟩ := Option.bind_eq_some_iff.mp hn
    rw [List.length_cons] at hfour
    cases ds with
    | nil =>
      cases hn
      have hlast : count = 3 := by simpa using hfour
      exact run_cons (by simp [step, hv, hlast]) rest
    | cons d' ds =>
      have hmore : count ≠ 3 := by rw [List.length_cons] at hfour; omega
      have hstep : step ⟨done, .unit ps count value⟩ d =
          some ⟨done, .unit ps (count + 1) (value * 16 + v)⟩ := by
        simp [step, hv, hmore]
      exact (run_cons hstep _).trans (ih (by simp) (by omega) hn)

lemma run_piece {p : Piece} {ps : List Piece} (h : p.Written ls) :
    run ⟨done, .string ps⟩ (ls ++ rest) = run ⟨done, .string (p :: ps)⟩ rest := by
  cases h with
  | plain hquote hback hcontrol =>
    refine run_cons ?_ rest
    simp [step, hquote, hback, hcontrol]
  | @letter c e h =>
    have hunit : e ≠ 'u' := by
      rintro rfl
      cases h
    refine (run_cons rfl _).trans (run_cons ?_ rest)
    simp [step, hunit, h]
  | unit hfour hn =>
    refine (run_cons rfl _).trans ((run_cons rfl _).trans (run_digits ?_ (by simpa) hn))
    rintro rfl
    cases hfour

lemma run_pieces {ps qs : List Piece} {css : List (List Char)}
    (h : List.Forall₂ Piece.Written qs css) :
    run ⟨done, .string ps⟩ (css.flatten ++ rest) =
      run ⟨done, .string (qs.reverse ++ ps)⟩ rest := by
  induction h generalizing ps with
  | nil => rfl
  | cons hp _ ih =>
    rw [List.flatten_cons, List.append_assoc, run_piece hp, ih]
    simp

lemma run_lexeme (h : Lexeme t ls) (hrest : ∀ x, t = .number x → EndsNumber rest) :
    run ⟨done, .nothing⟩ (ls ++ rest) = run ⟨t :: done, .nothing⟩ rest := by
  cases h with
  | number h => exact run_of_number? h (hrest _ rfl)
  | @string ps css h =>
    rw [List.cons_append, List.append_assoc]
    refine (run_cons rfl _).trans ((run_pieces h).trans ?_)
    refine run_cons ?_ rest
    simp [step]
  | _ => rfl

lemma endsNumber_of_layout (h : Layout ts cs) (hts : ∀ u ∈ ts.head?, ∀ y, u ≠ .number y) :
    EndsNumber cs := by
  cases h with
  | nil => exact endsNumber_nil
  | blank hc h =>
    simp only [isSpace, Bool.or_eq_true, decide_eq_true_eq] at hc
    rcases hc with ((rfl | rfl) | rfl) | rfl <;>
      exact endsNumber_cons (fun p => by cases p <;> rfl) _
  | token ht h =>
    cases ht with
    | number => exact absurd rfl (hts _ rfl _)
    | _ => exact endsNumber_cons (fun p => by cases p <;> rfl) _

lemma run_layout (h : Layout ts cs) (hapart : Apart ts) :
    run ⟨done, .nothing⟩ cs = some (done.reverse ++ ts) := by
  induction h generalizing done with
  | nil => simp [run, finish]
  | blank hc _ ih =>
    exact (run_cons (s := ⟨done, .nothing⟩) (start_of_isSpace hc) _).trans (ih hapart)
  | @token t ts ls cs ht h ih =>
    obtain ⟨hhead, htail⟩ := List.isChain_cons.mp hapart
    have hrest : ∀ x, t = .number x → EndsNumber cs := fun x hx =>
      endsNumber_of_layout h fun u hu y => hhead u hu x y hx
    rw [run_lexeme ht hrest, ih htail]
    simp

end Scan

/-- A text is scanned as the tokens that it is a layout of. -/
lemma tokens?_of_layout (h : Layout ts cs) (hapart : Apart ts) : tokens? cs = some ts :=
  Scan.run_layout h hapart

/-! ### What was scanned -/

namespace Layout

lemma concat (h : Layout ts cs) (ht : Lexeme t ls) : Layout (ts ++ [t]) (cs ++ ls) := by
  induction h with
  | nil => simpa using Layout.token ht .nil
  | blank hc _ ih => exact .blank hc ih
  | token hu _ ih =>
    rw [List.append_assoc]
    exact .token hu ih

lemma blank_after (h : Layout ts cs) (hc : isSpace c) : Layout ts (cs ++ [c]) := by
  induction h with
  | nil => exact .blank hc .nil
  | blank hd _ ih => exact .blank hd ih
  | token ht _ ih =>
    rw [List.append_assoc]
    exact .token ht ih

end Layout

/-- The texts of what has been read of an unfinished token. -/
inductive Begun.Written : Begun → List Char → Prop where
  | nothing : Written .nothing []
  | word {cs due : List Char} {t : Token} (h : Lexeme t (cs ++ due)) : Written (.word due t) cs
  | number {p : Place} {text cs : List Char} (h : ∀ rest, number? (String.ofList (cs ++ rest)) =
      (p.read? text rest).map fun out => String.ofList out.reverse) : Written (.number p text) cs
  | string {ps : List Piece} {css : List (List Char)}
      (h : List.Forall₂ Piece.Written ps.reverse css) : Written (.string ps) ('"' :: css.flatten)
  | escape {ps : List Piece} {css : List (List Char)}
      (h : List.Forall₂ Piece.Written ps.reverse css) :
      Written (.escape ps) ('"' :: (css.flatten ++ ['\\']))
  | unit {ps : List Piece} {css : List (List Char)} {ds : List Char} {n : ℕ}
      (h : List.Forall₂ Piece.Written ps.reverse css) (hmore : ds.length < 4)
      (hn : Text.natFrom 16 0 ds = some n) :
      Written (.unit ps ds.length n) ('"' :: (css.flatten ++ '\\' :: 'u' :: ds))

lemma written_concat {ps : List Piece} {p : Piece} {css : List (List Char)}
    (h : List.Forall₂ Piece.Written ps.reverse css) (hp : p.Written ls) :
    List.Forall₂ Piece.Written (p :: ps).reverse (css ++ [ls]) := by
  rw [List.reverse_cons]
  exact List.rel_append h (.cons hp .nil)

lemma natFrom_concat {b n v : ℕ} {ds : List Char} {d : Char} (h : Text.natFrom b n ds = some v) :
    Text.natFrom b n (ds ++ [d]) = (Text.digitIn? b d).map fun w => v * b + w := by
  induction ds generalizing n with
  | nil =>
    cases h
    rw [List.nil_append, Text.natFrom]
    cases Text.digitIn? b d <;> rfl
  | cons d' ds ih =>
    obtain ⟨w, hw, h⟩ := Option.bind_eq_some_iff.mp h
    rw [List.cons_append, Text.natFrom, hw]
    exact ih h

lemma lexeme_of_isEnd {p : Place} {text : List Char} (hend : p.isEnd)
    (hn : ∀ rest, number? (String.ofList (cs ++ rest)) =
      (p.read? text rest).map fun out => String.ofList out.reverse) :
    Lexeme (.number (String.ofList text.reverse)) cs := by
  have hread := hn []
  rw [List.append_nil, Place.read?, if_pos hend] at hread
  exact .number hread

namespace Scan

/-- The scan has read this text. -/
def Consumed (s : Scan) (cs : List Char) : Prop :=
  ∃ pre part, cs = pre ++ part ∧ Layout s.done.reverse pre ∧ s.begun.Written part

lemma consumed_token (hpre : Layout done.reverse pre) (ht : Lexeme t ls) :
    Consumed ⟨t :: done, .nothing⟩ (pre ++ ls) := by
  refine ⟨pre ++ ls, [], (List.append_nil _).symm, ?_, .nothing⟩
  rw [List.reverse_cons]
  exact hpre.concat ht

lemma consumed_start {s : Scan} (hpre : Layout done.reverse pre) (h : start done c = some s) :
    s.Consumed (pre ++ [c]) := by
  unfold start at h
  split at h
  · next hc =>
    cases h
    exact ⟨_, [], (List.append_nil _).symm, hpre.blank_after hc, .nothing⟩
  · split at h
    -- `number?` looks for a minus itself, so numbers begin in two ways here
    case h_12 hminus =>
      obtain ⟨⟨p, w⟩, hc, rfl⟩ := Option.map_eq_some_iff.mp h
      obtain rfl := next_sign hc
      refine ⟨pre, [c], rfl, hpre, .number fun rest => ?_⟩
      unfold number?
      rw [String.toList_ofList]
      split
      · next cs hcs =>
        obtain ⟨rfl, -⟩ := List.cons.inj hcs
        exact absurd rfl hminus
      · rw [List.singleton_append, Place.read?, hc]
        rfl
    case h_11 =>
      cases h
      refine ⟨pre, ['-'], rfl, hpre, .number fun rest => ?_⟩
      unfold number?
      rw [String.toList_ofList]
      rfl
    case h_7 =>
      cases h
      have hstring : Begun.Written (.string []) ('"' :: ([] : List (List Char)).flatten) :=
        .string .nil
      exact ⟨pre, ['"'], rfl, hpre, hstring⟩
    all_goals cases h
    · exact consumed_token hpre .leftBracket
    · exact consumed_token hpre .rightBracket
    · exact consumed_token hpre .leftBrace
    · exact consumed_token hpre .rightBrace
    · exact consumed_token hpre .comma
    · exact consumed_token hpre .colon
    · exact ⟨pre, ['n'], rfl, hpre, .word .null⟩
    · exact ⟨pre, ['t'], rfl, hpre, .word .true⟩
    · exact ⟨pre, ['f'], rfl, hpre, .word .false⟩

lemma Consumed.step {s s' : Scan} (hs : s.Consumed cs) (h : s.step c = some s') :
    s'.Consumed (cs ++ [c]) := by
  obtain ⟨done, begun⟩ := s
  obtain ⟨pre, part, rfl, hpre, hpart⟩ := hs
  rw [List.append_assoc]
  -- either `c` belongs to the unfinished token, or that ends in front of it and `c` starts anew
  cases hpart with
  | nothing =>
    rw [List.nil_append]
    exact consumed_start hpre h
  | @word part due t ht =>
    match due with
    | [] =>
      rw [List.append_nil] at ht
      rw [← List.append_assoc]
      refine consumed_start ?_ h
      rw [List.reverse_cons]
      exact hpre.concat ht
    | [d] =>
      simp only [Scan.step] at h
      split at h
      · next hd =>
        cases h
        exact consumed_token hpre (hd ▸ ht)
      · cases h
    | d :: d' :: due =>
      simp only [Scan.step] at h
      split at h
      · next hd =>
        cases h
        refine ⟨pre, part ++ [c], rfl, hpre, .word ?_⟩
        rw [hd, List.append_assoc]
        exact ht
      · cases h
  | @number p text part hn =>
    simp only [Scan.step] at h
    split at h
    · next p' w hc =>
      cases h
      refine ⟨pre, part ++ [c], rfl, hpre, .number fun rest => ?_⟩
      rw [List.append_assoc, List.singleton_append, hn, Place.read?, hc]
      rfl
    · split at h
      · next hend =>
        rw [← List.append_assoc]
        refine consumed_start ?_ h
        rw [List.reverse_cons]
        exact hpre.concat (lexeme_of_isEnd hend hn)
      · cases h
  | @string ps css hps =>
    simp only [Scan.step] at h
    split_ifs at h with hquote hback hcontrol
    · cases h
      subst hquote
      exact consumed_token hpre (.string hps)
    · cases h
      subst hback
      exact ⟨pre, _, rfl, hpre, .escape hps⟩
    · cases h
      refine ⟨pre, _, rfl, hpre, ?_⟩
      have hstring := Begun.Written.string (written_concat hps (.plain hquote hback hcontrol))
      simpa using hstring
  | @escape ps css hps =>
    simp only [Scan.step] at h
    split at h
    · next hunit =>
      cases h
      subst hunit
      refine ⟨pre, _, rfl, hpre, ?_⟩
      have hunit : Begun.Written (.unit ps ([] : List Char).length 0)
          ('"' :: (css.flatten ++ ['\\', 'u'])) := .unit hps (by decide) rfl
      simpa using hunit
    · obtain ⟨d, hd, rfl⟩ := Option.map_eq_some_iff.mp h
      refine ⟨pre, _, rfl, hpre, ?_⟩
      have hstring := Begun.Written.string (written_concat hps (.letter hd))
      simpa using hstring
  | @unit ps css ds n hps hmore hn =>
    obtain ⟨v, hv, h⟩ := Option.bind_eq_some_iff.mp h
    have hn' : Text.natFrom 16 0 (ds ++ [c]) = some (n * 16 + v) := by
      rw [natFrom_concat hn, hv]
      rfl
    split at h
    · next hthree =>
      cases h
      refine ⟨pre, _, rfl, hpre, ?_⟩
      have hstring := Begun.Written.string (written_concat hps (.unit (by simp [hthree]) hn'))
      simpa using hstring
    · next hless =>
      cases h
      refine ⟨pre, _, rfl, hpre, ?_⟩
      have hlength : (ds ++ [c]).length = ds.length + 1 := by simp
      have hunit := Begun.Written.unit hps (by omega) hn'
      rw [hlength] at hunit
      simpa using hunit

lemma Consumed.scan {s s' : Scan} {ds : List Char} (hs : s.Consumed cs)
    (h : ds.foldlM Scan.step s = some s') : s'.Consumed (cs ++ ds) := by
  induction ds generalizing s cs with
  | nil =>
    cases h
    rwa [List.append_nil]
  | cons d ds ih =>
    obtain ⟨s₁, h₁, h⟩ := Option.bind_eq_some_iff.mp h
    have hrest := ih (hs.step h₁) h
    rwa [List.append_assoc] at hrest

lemma Consumed.finish {s : Scan} (hs : s.Consumed cs) (h : s.finish = some ts) : Layout ts cs := by
  obtain ⟨done, begun⟩ := s
  obtain ⟨pre, part, rfl, hpre, hpart⟩ := hs
  cases hpart with
  | nothing =>
    cases h
    rwa [List.append_nil]
  | @number p text part hn =>
    simp only [Scan.finish] at h
    split at h
    · next hend =>
      cases h
      rw [List.reverse_cons]
      exact hpre.concat (lexeme_of_isEnd hend hn)
    · cases h
  | _ => cases h

end Scan

/-- A text is a layout of the tokens that are scanned. -/
lemma layout_of_tokens? (h : tokens? cs = some ts) : Layout ts cs := by
  obtain ⟨s, hs, hfinish⟩ := Option.bind_eq_some_iff.mp h
  have hempty : Scan.Consumed {} [] := ⟨[], [], rfl, .nil, .nothing⟩
  exact (hempty.scan hs).finish hfinish

/-! ### Documents -/

namespace Document

lemma step_complete_number (outer : List Frame) (d : Document) (y : String) :
    Reading.step (.complete outer d) (.number y) = none := by
  cases outer with
  | nil => rfl
  | cons frame outer => cases frame <;> rfl

lemma step_number {r r' : Reading} {x : String} (h : r.step (.number x) = some r') :
    ∃ outer d, r' = .complete outer d := by
  cases r with
  | value | itemOrEnd =>
    cases h
    exact ⟨_, _, rfl⟩
  | complete outer d =>
    rw [step_complete_number] at h
    cases h
  | _ => cases h

lemma apart_of_read {r r' : Reading} (h : read r ts = some r') : Apart ts := by
  induction ts generalizing r with
  | nil => exact .nil
  | cons t ts ih =>
    obtain ⟨r₁, h₁, h⟩ := Option.bind_eq_some_iff.mp h
    refine List.isChain_cons.mpr ⟨?_, ih h⟩
    rintro u hu x y rfl rfl
    obtain ⟨ts, rfl⟩ := List.head?_eq_some_iff.mp hu
    obtain ⟨outer, d, rfl⟩ := step_number h₁
    obtain ⟨r₂, h₂, -⟩ := Option.bind_eq_some_iff.mp h
    rw [step_complete_number] at h₂
    cases h₂

lemma apart_tokens (d : Document) : Apart d.tokens := by
  have h := d.reads [] []
  rw [List.append_nil] at h
  exact apart_of_read (h.trans rfl)

/-- **Reading is exact**: the texts of a document are the layouts of its tokens. -/
theorem parse?_eq_some_iff {s : String} {d : Document} :
    parse? s = some d ↔ Layout d.tokens s.toList := by
  constructor
  · intro h
    obtain ⟨ts, hts, hd⟩ := Option.bind_eq_some_iff.mp h
    rw [ofTokens?_eq_some_iff.mp hd]
    exact layout_of_tokens? hts
  · intro h
    rw [parse?, tokens?_of_layout h d.apart_tokens]
    exact ofTokens?_tokens d

end Document

end SchemaRegistry.Json
