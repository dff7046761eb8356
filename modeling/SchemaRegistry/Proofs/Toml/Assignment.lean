import Mathlib.Data.List.Induction
import Mathlib.Data.List.TakeWhile
import SchemaRegistry.Proofs.Toml.Word
import SchemaRegistry.Table
import SchemaRegistry.Toml.Document

/-!
Texts with one assignment a line: a bare key, an equals sign and a value that is written as one
word. Such a text is read as the table with these values in their order, if no key comes twice.
-/

namespace SchemaRegistry.Toml

open SchemaRegistry.Text (takeWhile_append_cons dropWhile_append_cons)

variable {c : Char} {cs r : List Char}

/-- A bare key, and the word for its value. -/
structure Assignment where
  key : String
  word : String
  value : Value
  key_ne_nil : key.toList ≠ []
  isBare : ∀ c ∈ key.toList, isBareChar c
  isWord : ∀ c ∈ word.toList, isWordChar c
  reads : ofWord? word.toList = some value

/-! ### Characters -/

section CharacterClass

variable {p : Char → Bool}

lemma ne_of_class (h : p c) {d : Char} (hd : p d = false) : c ≠ d := by
  rintro rfl
  rw [hd] at h
  cases h

lemma not_isSpace_of_class (h : p c) (hspace : p ' ' = false) (htab : p '\t' = false) :
    ¬ isSpace c := by
  simp [isSpace, ne_of_class h hspace, ne_of_class h htab]

end CharacterClass

lemma not_isSpace_of_isBareChar (h : isBareChar c) : ¬ isSpace c :=
  not_isSpace_of_class h (by decide) (by decide)

lemma not_isSpace_of_isWordChar (h : isWordChar c) : ¬ isSpace c :=
  not_isSpace_of_class h (by decide) (by decide)

namespace Assignment

variable (a : Assignment)

def line : String := a.key ++ " = " ++ a.word ++ "\n"

def statement : Statement := .entry [] a.key a.value

lemma toList_line : a.line.toList = a.key.toList ++ ' ' :: '=' :: ' ' :: (a.word.toList ++ ['\n']) := by
  simp [line, String.toList_append]

lemma line_ne_nil : a.line.toList ≠ [] := by
  rw [toList_line]
  exact List.append_ne_nil_of_right_ne_nil _ (List.cons_ne_nil _ _)

lemma exists_key_cons : ∃ c cs, a.key.toList = c :: cs ∧ isBareChar c := by
  obtain ⟨c, cs, h⟩ := List.exists_cons_of_ne_nil a.key_ne_nil
  exact ⟨c, cs, h, a.isBare c (h ▸ List.mem_cons_self)⟩

lemma key_append_ne_cons {d : Char} (hd : isBareChar d = false) (s : List Char) :
    a.key.toList ++ r ≠ d :: s := by
  obtain ⟨c, cs, hkey, hc⟩ := a.exists_key_cons
  rw [hkey, List.cons_append]
  exact fun h => ne_of_class hc hd (List.cons.inj h).1

lemma line_append_ne_cons {d : Char} (hd : isBareChar d = false) (s : List Char) :
    a.line.toList ++ r ≠ d :: s := by
  rw [toList_line, List.append_assoc]
  exact a.key_append_ne_cons hd s

lemma word_append_ne_cons {d : Char} (hd : isWordChar d = false) (hend : d ≠ '\n')
    (s : List Char) : a.word.toList ++ '\n' :: r ≠ d :: s := by
  intro h
  cases hw : a.word.toList with
  | nil =>
    rw [hw] at h
    exact hend (List.cons.inj h).1.symm
  | cons c cs =>
    rw [hw] at h
    exact ne_of_class (a.isWord c (hw ▸ List.mem_cons_self)) hd (List.cons.inj h).1

/-! ### Reading a line -/

lemma keyPart?_append : keyPart? (a.key.toList ++ ' ' :: r) = some (a.key, ' ' :: r) := by
  have htake : (a.key.toList ++ ' ' :: r).takeWhile isBareChar = a.key.toList := by
    rw [takeWhile_append_cons (by decide), List.takeWhile_eq_self_iff.mpr a.isBare]
  have hdrop : (a.key.toList ++ ' ' :: r).dropWhile isBareChar = ' ' :: r := by
    rw [dropWhile_append_cons (by decide), List.dropWhile_eq_nil_iff.mpr a.isBare,
      List.nil_append]
  unfold keyPart?
  split
  case h_1 heq => exact absurd heq (a.key_append_ne_cons (by decide) _)
  case h_2 heq => exact absurd heq (a.key_append_ne_cons (by decide) _)
  case h_3 =>
    have hne : a.key.toList.isEmpty = false := List.isEmpty_eq_false_iff.mpr a.key_ne_nil
    simp only [htake, hdrop, hne, Bool.false_eq_true, if_false, String.ofList_toList]

lemma dropWhile_isSpace_key : (a.key.toList ++ r).dropWhile isSpace = a.key.toList ++ r := by
  obtain ⟨c, cs, hkey, hc⟩ := a.exists_key_cons
  rw [hkey, List.cons_append]
  exact List.dropWhile_cons_of_neg (not_isSpace_of_isBareChar hc)

lemma readKey?_append :
    readKey? (a.key.toList ++ ' ' :: '=' :: r) = some (([], a.key), '=' :: r) := by
  have hkey : key? (limit - 1) (a.key.toList ++ ' ' :: '=' :: r) = some ([a.key], '=' :: r) := by
    rw [limit, key?, dropWhile_isSpace_key, keyPart?_append]
    rfl
  rw [readKey?, hkey]
  rfl

lemma word?_append : word? (a.word.toList ++ '\n' :: r) = some (a.value, '\n' :: r) := by
  have htake : (a.word.toList ++ '\n' :: r).takeWhile isWordChar = a.word.toList := by
    rw [takeWhile_append_cons (by decide), List.takeWhile_eq_self_iff.mpr a.isWord]
  have hdrop : (a.word.toList ++ '\n' :: r).dropWhile isWordChar = '\n' :: r := by
    rw [dropWhile_append_cons (by decide), List.dropWhile_eq_nil_iff.mpr a.isWord,
      List.nil_append]
  simp only [word?, htake, hdrop, a.reads]
  rfl

lemma value?_append (depth : Nat) :
    value? (depth + 1) (a.word.toList ++ '\n' :: r) = some (a.value, '\n' :: r) := by
  unfold value?
  split
  case h_1 heq => exact absurd heq (a.word_append_ne_cons (by decide) (by decide) _)
  case h_2 heq => exact absurd heq (a.word_append_ne_cons (by decide) (by decide) _)
  case h_3 heq => exact absurd heq (a.word_append_ne_cons (by decide) (by decide) _)
  case h_4 heq => exact absurd heq (a.word_append_ne_cons (by decide) (by decide) _)
  case h_5 => exact a.word?_append

lemma dropWhile_isSpace_word :
    (' ' :: (a.word.toList ++ '\n' :: r)).dropWhile isSpace = a.word.toList ++ '\n' :: r := by
  rw [List.dropWhile_cons_of_pos (by decide)]
  cases hw : a.word.toList with
  | nil => exact List.dropWhile_cons_of_neg (by decide)
  | cons c cs =>
    exact List.dropWhile_cons_of_neg
      (not_isSpace_of_isWordChar (a.isWord c (hw ▸ List.mem_cons_self)))

lemma statement?_append : statement? (a.line.toList ++ r) = some (a.statement, r) := by
  have hassign : assignment? (value? limit) (a.line.toList ++ r) =
      some (([], a.key), a.value, '\n' :: r) := by
    rw [toList_line, List.append_assoc, List.cons_append, List.cons_append, List.cons_append,
      List.append_assoc, assignment?, readKey?_append]
    simp only [Option.bind_eq_bind, Option.bind_some, List.singleton_append,
      dropWhile_isSpace_word, limit, value?_append]
    rfl
  unfold statement?
  split
  case h_1 heq => exact absurd heq (a.line_append_ne_cons (by decide) _)
  case h_2 heq => exact absurd heq (a.line_append_ne_cons (by decide) _)
  case h_3 =>
    rw [hassign]
    rfl

/-! ### Reading the lines -/

def lines (as : List Assignment) : List Char := as.flatMap fun a => a.line.toList

lemma dropWhile_isSpace_line : (a.line.toList ++ r).dropWhile isSpace = a.line.toList ++ r := by
  rw [toList_line, List.append_assoc]
  exact a.dropWhile_isSpace_key

/-- The count bounds the lines, of which each statement takes one. -/
lemma statements?_lines (as : List Assignment) (count : Nat) (h : as.length < count) :
    statements? count (lines as) = some (as.map statement) := by
  induction as generalizing count with
  | nil =>
    cases count with
    | zero => exact absurd h (Nat.not_lt_zero _)
    | succ n => rfl
  | cons a as ih =>
    cases count with
    | zero => exact absurd h (Nat.not_lt_zero _)
    | succ n =>
      have hrest := ih n (Nat.lt_of_succ_lt_succ h)
      rw [lines, List.flatMap_cons]
      unfold statements?
      rw [dropWhile_isSpace_line]
      split
      case h_1 heq => exact absurd (List.append_eq_nil_iff.mp heq).1 a.line_ne_nil
      case h_2 heq => exact absurd heq (a.line_append_ne_cons (by decide) _)
      case h_3 heq => exact absurd heq (a.line_append_ne_cons (by decide) _)
      case h_4 =>
        rw [statement?_append]
        change (do return a.statement :: (← statements? n (lines as))) = _
        rw [hrest]
        rfl

end Assignment

/-! ### Building the table -/

lemma put_of_lookup {key : String} {n : Node} {es : Entries} (h : es.lookup key = none) :
    es.put key n = es ++ [(key, n)] := by
  induction es with
  | nil => rfl
  | cons e es ih =>
    obtain ⟨k, m⟩ := e
    rw [Table.lookup_cons] at h
    split_ifs at h with hk
    rw [Entries.put, if_neg (Ne.symm hk), ih h]
    rfl

lemma add?_statement {b : Building} (a : Assignment) (hopened : b.opened = [])
    (hnew : b.entries.lookup a.key = none) :
    b.add? a.statement = some { b with entries := b.entries ++ [(a.key, .value a.value)] } := by
  simp only [Building.add?, Assignment.statement, hopened, Entries.addBelow?, Entries.at?,
    Entries.addValue?, hnew, put_of_lookup hnew]
  rfl

namespace Assignment

def nodes (as : List Assignment) : Entries := as.map fun a => (a.key, .value a.value)

lemma foldlM_add? (as : List Assignment) (hnodup : (as.map key).Nodup) :
    (as.map statement).foldlM Building.add? {} = some { entries := nodes as } := by
  induction as using List.reverseRecOn with
  | nil => rfl
  | append_singleton as a ih =>
    rw [List.map_append, List.nodup_append] at hnodup
    obtain ⟨has, -, hnew⟩ := hnodup
    have hlookup : (nodes as).lookup a.key = none := by
      rw [← Option.not_isSome_iff_eq_none, Table.isSome_lookup_iff]
      intro hmem
      have hkeys : (nodes as).map Prod.fst = as.map key := by simp [nodes]
      exact hnew _ (hkeys ▸ hmem) _ (List.mem_singleton_self _) rfl
    rw [List.map_append, List.foldlM_append, ih has]
    simp only [List.map_singleton, List.foldlM_cons, List.foldlM_nil, Option.bind_eq_bind,
      Option.bind_some, add?_statement (b := { entries := nodes as }) a rfl hlookup]
    simp [nodes]

lemma entriesToValues?_nodes (as : List Assignment) :
    entriesToValues? (nodes as) = some (as.map fun a => (a.key, a.value)) := by
  induction as with
  | nil => rfl
  | cons a as ih =>
    rw [nodes, List.map_cons, entriesToValues?, Node.toValue?]
    change (do return (a.key, a.value) :: (← entriesToValues? (nodes as))) = _
    rw [ih]
    rfl

lemma key_ne_dateKey (a : Assignment) : a.key ≠ dateKey := by
  intro h
  have hdollar : isBareChar '$' := a.isBare '$' (by rw [h]; decide)
  exact absurd hdollar (by decide)

lemma ofEntries?_map (as : List Assignment) :
    Value.ofEntries? (as.map fun a => (a.key, a.value)) =
      some (.table (as.map fun a => (a.key, a.value))) := by
  cases as with
  | nil => rfl
  | cons a as => exact if_neg a.key_ne_dateKey

/-! ### Reading a text -/

lemma isWordChar_or_of_mem_line {a : Assignment} (h : c ∈ a.line.toList) :
    isBareChar c ∨ isWordChar c ∨ c ∈ [' ', '=', '\n'] := by
  rw [toList_line] at h
  simp only [List.mem_append, List.mem_cons, List.not_mem_nil, or_false] at h
  rcases h with h | rfl | rfl | rfl | h | rfl
  · exact .inl (a.isBare c h)
  · exact .inr (.inr (by decide))
  · exact .inr (.inr (by decide))
  · exact .inr (.inr (by decide))
  · exact .inr (.inl (a.isWord c h))
  · exact .inr (.inr (by decide))

lemma notMem_lines {as : List Assignment} {d : Char} (hbare : isBareChar d = false)
    (hword : isWordChar d = false) (hd : d ∉ [' ', '=', '\n']) : d ∉ lines as := by
  intro h
  obtain ⟨a, -, h⟩ := List.mem_flatMap.mp h
  rcases isWordChar_or_of_mem_line h with h | h | h
  · exact ne_of_class h hbare rfl
  · exact ne_of_class h hword rfl
  · exact hd h

lemma length_le_length_lines (as : List Assignment) : as.length ≤ (lines as).length := by
  induction as with
  | nil => exact Nat.le_refl 0
  | cons a as ih =>
    have hline : 0 < a.line.toList.length := List.length_pos_iff.mpr a.line_ne_nil
    rw [lines, List.flatMap_cons, List.length_append, List.length_cons]
    change as.length + 1 ≤ a.line.toList.length + (lines as).length
    omega

end Assignment

lemma unifyLineEnds_of_notMem (h : '\r' ∉ cs) : unifyLineEnds cs = cs := by
  induction cs with
  | nil => rfl
  | cons c cs ih =>
    obtain ⟨hc, hcs⟩ := List.ne_and_not_mem_of_not_mem_cons h
    unfold unifyLineEnds
    split
    case h_1 heq => exact absurd (List.cons.inj heq).1.symm hc
    case h_2 heq =>
      obtain ⟨rfl, rfl⟩ := List.cons.inj heq
      rw [ih hcs]
    case h_3 heq => cases heq

lemma dropMark_of_notMem (h : '\ufeff' ∉ cs) : dropMark cs = cs := by
  unfold dropMark
  split
  · exact absurd List.mem_cons_self h
  · rfl

/-- **A text of assignments is read** as the table of their values. -/
theorem parse?_lines {as : List Assignment} (hnodup : (as.map Assignment.key).Nodup) {text : String}
    (htext : text.toList = Assignment.lines as) :
    parse? text = some (as.map fun a => (a.key, a.value)) := by
  have hmark : dropMark (Assignment.lines as) = Assignment.lines as :=
    dropMark_of_notMem (Assignment.notMem_lines (by decide) (by decide) (by decide))
  have hends : unifyLineEnds (Assignment.lines as) = Assignment.lines as :=
    unifyLineEnds_of_notMem (Assignment.notMem_lines (by decide) (by decide) (by decide))
  have hcount := Nat.lt_succ_of_le (Assignment.length_le_length_lines as)
  simp only [parse?, htext, hmark, hends, Assignment.statements?_lines as _ hcount,
    Option.bind_eq_bind, Option.bind_some, Assignment.foldlM_add? as hnodup, Entries.toValue?,
    Assignment.entriesToValues?_nodes, Assignment.ofEntries?_map]

end SchemaRegistry.Toml
