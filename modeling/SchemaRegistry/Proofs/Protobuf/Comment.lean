import Mathlib.Data.List.Infix
import Mathlib.Data.List.TakeWhile
import SchemaRegistry.Proofs.Text.Joined
import SchemaRegistry.Endpoint

/-!
Protobuf sources behind a block comment. Declarations are looked for line by line in the raw text, so
those inside the comment come first. The names of the source stay as they were exactly if the comment
declares nothing, or what the source declares anyway.
-/

namespace SchemaRegistry.Protobuf

open SchemaRegistry.Text

/-! ### Lines -/

lemma laterLines_append (a b : List Char) :
    laterLines (a ++ b) = (laterLines a).map (· ++ b) ++ laterLines b := by
  induction a with
  | nil => rfl
  | cons c a ih =>
    rw [List.cons_append, laterLines, laterLines]
    split_ifs with hc
    · rw [ih, List.map_cons]
      rfl
    · exact ih

lemma laterLines_of_notMem {a : List Char} (h : '\n' ∉ a) : laterLines a = [] := by
  induction a with
  | nil => rfl
  | cons c a ih =>
    obtain ⟨hc, ha⟩ := List.ne_and_not_mem_of_not_mem_cons h
    rw [laterLines, if_neg (Ne.symm hc), ih ha]

lemma lines_append (a b : List Char) :
    lines (a ++ b) = (lines a).map (· ++ b) ++ laterLines b :=
  congrArg ((a ++ b) :: ·) (laterLines_append a b)

/-! ### What a star ends -/

section Star

variable {c : Char}

lemma isPrefixOf_append_cons {keyword : List Char} (hc : c ∉ keyword) (a b : List Char) :
    keyword.isPrefixOf (a ++ c :: b) = keyword.isPrefixOf a := by
  rw [Bool.eq_iff_iff, List.isPrefixOf_iff_prefix, List.isPrefixOf_iff_prefix]
  refine ⟨fun h => ?_, fun h => h.trans (List.prefix_append a _)⟩
  rcases List.prefix_or_prefix_of_prefix h (List.prefix_append a (c :: b)) with h' | ⟨k, rfl⟩
  · exact h'
  · -- a keyword that goes on behind `a` has the character
    cases k with
    | nil => simp
    | cons x k =>
      obtain ⟨r, hr⟩ := h
      rw [List.append_assoc] at hr
      cases List.append_cancel_left hr
      simp at hc

lemma isWord_star : isWord '*' = false := by decide +kernel

lemma afterKeyword?_append_star {keyword : List Char} (hk : '*' ∉ keyword) (a b : List Char) :
    afterKeyword? keyword (a ++ '*' :: b) = (afterKeyword? keyword a).map (· ++ '*' :: b) := by
  unfold afterKeyword?
  rw [isPrefixOf_append_cons hk]
  split_ifs with h
  · obtain ⟨r, rfl⟩ := List.isPrefixOf_iff_prefix.mp h
    rw [List.append_assoc, List.drop_left, List.drop_left]
    cases r with
    | nil => rfl
    | cons x r =>
      by_cases hx : isBlank x
      · simp [hx, trimLeft, dropWhile_append_cons (p := isBlank) (c := '*') rfl]
      · simp [hx]
  · rfl

lemma identifier?_append_star (more : Char → Bool) (hmore : more '*' = false) (a b : List Char) :
    identifier? more (a ++ '*' :: b) =
      (identifier? more a).map fun r => (r.1, r.2 ++ '*' :: b) := by
  cases a with
  | nil => rfl
  | cons x a =>
    rw [List.cons_append, identifier?, identifier?, takeWhile_append_cons hmore,
      dropWhile_append_cons hmore]
    split_ifs <;> rfl

lemma messageAt?_append_star (line b : List Char) :
    messageAt? (line ++ '*' :: b) = messageAt? line := by
  unfold messageAt?
  rw [afterKeyword?_append_star (by decide)]
  cases afterKeyword? "message".toList line with
  | none => rfl
  | some rest =>
    simp only [Option.map_some, bind, Option.bind, identifier?_append_star isWord isWord_star]
    cases identifier? isWord rest <;> rfl

lemma packageAt?_append_star (line b : List Char) :
    packageAt? (line ++ '*' :: b) = packageAt? line := by
  have hmore : (isWord '*' || '*' = '.') = false :=
    Bool.or_eq_false_iff.mpr ⟨isWord_star, by decide⟩
  have htrim (a : List Char) : trimLeft (a ++ '*' :: b) = trimLeft a ++ '*' :: b :=
    dropWhile_append_cons (p := isBlank) rfl a b
  unfold packageAt?
  rw [htrim, afterKeyword?_append_star (by decide)]
  cases afterKeyword? "package".toList (trimLeft line) with
  | none => rfl
  | some rest =>
    have hident := identifier?_append_star (fun c => isWord c || c = '.') hmore
    simp only [Option.map_some, bind, Option.bind, hident]
    cases identifier? (fun c => isWord c || c = '.') rest with
    | none => rfl
    | some r =>
      simp only [Option.map_some, htrim]
      cases trimLeft r.2 with
      | nil => rfl
      | cons x cs =>
        by_cases hx : x = ';'
        · subst hx
          rfl
        · simp [hx]

end Star

/-! ### What is found -/

/-- The block comment with a body. -/
def blockComment (body : String) : String := "/*" ++ body ++ "*/"

lemma findSome?_behind_comment {found : List Char → Option (List Char)}
    (h : ∀ line b, found (line ++ '*' :: b) = found line) (body text : String) :
    (lines (blockComment body ++ "\n" ++ text).toList).findSome? found =
      ((lines (blockComment body).toList).findSome? found).or
        ((lines text.toList).findSome? found) := by
  have hcomment : (blockComment body).toList = ("/*" ++ body).toList ++ ['*', '/'] := by
    simp [blockComment]
  have hsource : (blockComment body ++ "\n" ++ text).toList =
      ("/*" ++ body).toList ++ '*' :: '/' :: '\n' :: text.toList := by
    simp [blockComment]
  have hstar (b : List Char) : (fun line => found (line ++ '*' :: b)) = found :=
    funext fun line => h line b
  have htail : laterLines ('*' :: '/' :: '\n' :: text.toList) = lines text.toList := rfl
  have hnone : laterLines ['*', '/'] = [] := rfl
  rw [hcomment, hsource, lines_append, lines_append, List.findSome?_append, List.findSome?_append,
    List.findSome?_map, List.findSome?_map, htail, hnone]
  simp only [Function.comp_def, hstar, List.findSome?_nil, Option.or_none]

lemma message?_behind_comment (body text : String) :
    message? (blockComment body ++ "\n" ++ text) =
      (message? (blockComment body)).or (message? text) := by
  simp only [message?, findSome?_behind_comment messageAt?_append_star, Option.map_or]

lemma package?_behind_comment (body text : String) :
    package? (blockComment body ++ "\n" ++ text) =
      (package? (blockComment body)).or (package? text) := by
  simp only [package?, findSome?_behind_comment packageAt?_append_star, Option.map_or]

/-- A comment of one line declares nothing, as it does not begin with a keyword. -/
lemma declares_nothing_of_one_line {body : String} (h : '\n' ∉ body.toList) :
    message? (blockComment body) = none ∧ package? (blockComment body) = none := by
  have hlater : laterLines (blockComment body).toList = [] := by
    rw [blockComment, String.toList_append, String.toList_append, laterLines_append,
      laterLines_append, laterLines_of_notMem h]
    rfl
  have hlines : lines (blockComment body).toList = [(blockComment body).toList] :=
    congrArg _ hlater
  have htext : (blockComment body).toList = '/' :: '*' :: (body.toList ++ ['*', '/']) := by
    simp [blockComment]
  unfold message? package?
  rw [hlines, htext]
  exact ⟨rfl, rfl⟩

/-! ### Names -/

/-- A name in its package, if it has one. -/
def fullName (package : Option String) (name : String) : String :=
  match package with
  | some p => p ++ "." ++ name
  | none => name

lemma recordName?_eq (source : String) :
    recordName? source = (message? source).map (fullName (package? source)) := by
  unfold recordName?
  cases message? source with
  | none => rfl
  | some name => cases package? source <;> rfl

lemma of_identifier? {more : Char → Bool} {cs : List Char} {r : List Char × List Char}
    (h : identifier? more cs = some r) :
    r.1 ≠ [] ∧ ∀ c ∈ r.1, isIdentifierStart c ∨ more c := by
  cases cs with
  | nil => cases h
  | cons x cs =>
    simp only [identifier?] at h
    split_ifs at h with hx
    cases h
    refine ⟨by simp, fun c hc => ?_⟩
    rcases List.mem_cons.mp hc with rfl | hc
    · exact .inl hx
    · exact .inr (List.mem_takeWhile_imp hc)

lemma of_message? {source name : String} (h : message? source = some name) :
    name.toList ≠ [] ∧ '.' ∉ name.toList := by
  obtain ⟨cs, hcs, rfl⟩ := Option.map_eq_some_iff.mp h
  obtain ⟨line, -, hline⟩ := List.exists_of_findSome?_eq_some hcs
  obtain ⟨rest, -, h⟩ := Option.bind_eq_some_iff.mp hline
  obtain ⟨r, hr, h⟩ := Option.bind_eq_some_iff.mp h
  cases h
  obtain ⟨hne, hchars⟩ := of_identifier? hr
  have hdot : isIdentifierStart '.' = false ∧ isWord '.' = false := by decide +kernel
  rw [String.toList_ofList]
  refine ⟨hne, fun hmem => ?_⟩
  have := hchars _ hmem
  simp [hdot] at this

lemma fullName_eq_iff {p p' : Option String} {n n' : String} (hn : '.' ∉ n.toList)
    (hn' : '.' ∉ n'.toList) : fullName p n = fullName p' n' ↔ p = p' ∧ n = n' := by
  refine ⟨fun h => ?_, fun ⟨hp, hname⟩ => by rw [hp, hname]⟩
  have htext := congrArg String.toList h
  cases p with
  | none =>
    cases p' with
    | none => exact ⟨rfl, h⟩
    | some q' => exact absurd (by simp [show n = fullName (some q') n' from h, fullName]) hn
  | some q =>
    cases p' with
    | none => exact absurd (by simp [show n' = fullName (some q) n from h.symm, fullName]) hn'
    | some q' =>
      simp only [fullName, String.toList_append, List.append_assoc] at htext
      obtain ⟨hq, hname⟩ := append_cons_inj_last hn hn' htext
      exact ⟨congrArg some (String.toList_injective hq), String.toList_injective hname⟩

/-- A comment does not change a source's name: it declares no message or the one of the source, and,
if the source has a message, no package or that of the source. -/
def Unnoticed (comment source : String) : Prop :=
  (message? comment = none ∨ message? comment = message? source) ∧
    (message? source = none ∨ package? comment = none ∨ package? comment = package? source)

lemma recordName?_behind_comment_eq_iff (body text : String) :
    recordName? (blockComment body ++ "\n" ++ text) = recordName? text ↔
      Unnoticed (blockComment body) text := by
  rw [recordName?_eq, recordName?_eq, message?_behind_comment, package?_behind_comment, Unnoticed]
  cases ht : message? text with
  | none => simp
  | some name =>
    have hname : '.' ∉ name.toList := (of_message? ht).2
    have hfirst : (message? (blockComment body)).or (some name) =
        some ((message? (blockComment body)).getD name) := by
      cases message? (blockComment body) <;> rfl
    have hdeclared : '.' ∉ ((message? (blockComment body)).getD name).toList := by
      cases hc : message? (blockComment body) with
      | none => exact hname
      | some other => exact (of_message? hc).2
    rw [hfirst, Option.map_some, Option.map_some, Option.some.injEq,
      fullName_eq_iff hdeclared hname]
    cases message? (blockComment body) <;> cases package? (blockComment body) <;> simp [and_comm]

lemma recordName?_ne_some_empty (source : String) : recordName? source ≠ some "" := by
  rw [recordName?_eq]
  intro h
  obtain ⟨name, hname, hfull⟩ := Option.map_eq_some_iff.mp h
  have hne : name ≠ "" := by simpa using (of_message? hname).1
  cases hp : package? source with
  | none =>
    rw [hp] at hfull
    exact hne hfull
  | some p =>
    have htext := congrArg String.toList hfull
    simp [hp, fullName] at htext

lemma getD_empty_eq_iff {o o' : Option String} (h : o ≠ some "") (h' : o' ≠ some "") :
    o.getD "" = o'.getD "" ↔ o = o' := by
  cases o <;> cases o' <;> simp_all [eq_comm]

end SchemaRegistry.Protobuf

namespace SchemaRegistry.Schema

open Protobuf

/-- **Names behind a comment.** The message and the package of a source behind a block comment are
those that the comment has inside, where it has any. So the source keeps its name and its type name
exactly if the comment goes unnoticed, and then it keeps its subject under each strategy. A comment of
one line always goes unnoticed. -/
theorem names_behind_comment_iff (body text : String) (references : List Reference) :
    let comment := blockComment body
    let s : Schema := ⟨text, .protobuf, references⟩
    let s' : Schema := ⟨comment ++ "\n" ++ text, .protobuf, references⟩
    -- what is found
    (message? s'.text = (message? comment).or (message? text) ∧
      package? s'.text = (package? comment).or (package? text)) ∧
    -- names and subjects
    (s'.recordName? = s.recordName? ↔ Unnoticed comment text) ∧
    (s'.typeName = s.typeName ↔ Unnoticed comment text) ∧
    (Unnoticed comment text → ∀ topic side,
      SubjectNaming.byTopic topic side s' = SubjectNaming.byTopic topic side s ∧
      SubjectNaming.byRecord topic side s' = SubjectNaming.byRecord topic side s ∧
      SubjectNaming.byTopicRecord topic side s' = SubjectNaming.byTopicRecord topic side s) ∧
    -- comments of one line
    ('\n' ∉ body.toList → Unnoticed comment text) := by
  intro comment s s'
  have hname : s'.recordName? = s.recordName? ↔ Unnoticed comment text :=
    recordName?_behind_comment_eq_iff body text
  have htype : s'.typeName = s.typeName ↔ s'.recordName? = s.recordName? :=
    getD_empty_eq_iff (recordName?_ne_some_empty _) (recordName?_ne_some_empty _)
  refine ⟨⟨message?_behind_comment body text, package?_behind_comment body text⟩, hname,
    htype.trans hname, fun h topic side => ?_, fun h => ?_⟩
  · have heq := hname.mpr h
    simp only [SubjectNaming.byTopic, SubjectNaming.byRecord, SubjectNaming.byTopicRecord, heq]
    simp
  · obtain ⟨hmessage, hpackage⟩ := declares_nothing_of_one_line h
    exact ⟨.inl hmessage, .inr (.inl hpackage)⟩

/-- The message inside the comment is taken for the first one. -/
theorem names_behind_comment_of_message :
    let body := "\nmessage Old \x7b\x7d\n"
    let s : Schema := ⟨"message Order \x7b\x7d", .protobuf, []⟩
    let s' : Schema := ⟨blockComment body ++ "\n" ++ s.text, .protobuf, []⟩
    ¬ ['*', '/'] <:+: body.toList ∧
      s.recordName? = some "Order" ∧ s'.recordName? = some "Old" ∧
      s.typeName = "Order" ∧ s'.typeName = "Old" ∧
      SubjectNaming.byRecord "t" .value s = "Order" ∧
      SubjectNaming.byRecord "t" .value s' = "Old" := by
  decide +kernel

end SchemaRegistry.Schema
