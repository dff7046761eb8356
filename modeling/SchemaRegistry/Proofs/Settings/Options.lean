import SchemaRegistry.Proofs.Settings
import SchemaRegistry.Proofs.Table
import SchemaRegistry.Proofs.Text.Blank
import SchemaRegistry.Proofs.Text.Integer

/-!
Options that are spelled in different ways. A value is read by its word: the text that it is or is
written as, without blanks around it. Of a list of options the last one under each key counts, and
only under the keys that settings are made of.
-/

namespace SchemaRegistry

open Text (Padded trim trim_of_padded)
open Settings (assemble validate ofOptions boolText)

namespace OptionValue

/-- What a value is read by. -/
def word : OptionValue → String
  | .bool b => boolText b
  | .int i => Text.ofInt i.toInt
  | .text s => trim s

/-- The value itself, or the text of a truth value or an integer, with blanks around it. -/
inductive SpelledAs : OptionValue → OptionValue → Prop where
  | same (v : OptionValue) : SpelledAs v v
  | bool {b : Bool} {t : String} (h : Padded (boolText b) t) : SpelledAs (.bool b) (.text t)
  | int {i : Int64} {t : String} (h : Padded (Text.ofInt i.toInt) t) : SpelledAs (.int i) (.text t)

@[simp] lemma trim_boolText (b : Bool) : trim (boolText b) = boolText b := by
  cases b <;> decide

lemma SpelledAs.word_eq {v w : OptionValue} (h : v.SpelledAs w) : w.word = v.word := by
  cases h with
  | same => rfl
  | bool h => exact (trim_of_padded h).trans (trim_boolText _)
  | int h => exact (trim_of_padded h).trans (Text.trim_ofInt _)

/-! ### Reading a word -/

lemma ofInt_ne_boolText (i : Int) (b : Bool) : Text.ofInt i ≠ boolText b := by
  intro h
  have hread := Text.int?_ofInt i
  rw [h] at hread
  cases b <;> cases hread

lemma int64?_boolText (b : Bool) : Text.int64? (boolText b).toList = none := by
  cases b <;> rfl

end OptionValue

namespace Options

open OptionValue

/-- Reads the word under a key. -/
def readWord {α : Type} (read? : String → Option α) (expected : String) (o : Options)
    (key : String) (default : α) : Except Error α :=
  match o.get? key with
  | none => .ok default
  | some v =>
    match read? v.word with
    | some a => .ok a
    | none => .error (mismatch key expected v)

/-- A truth value is one of two words. -/
def bool? (word : String) : Option Bool :=
  if word = "true" then some true else if word = "false" then some false else none

lemma getBool_eq_readWord (o : Options) (key : String) (default : Bool) :
    o.getBool key default = readWord bool? "bool" o key default := by
  unfold getBool readWord
  cases o.get? key with
  | none => rfl
  | some v =>
    cases v with
    | bool b => cases b <;> rfl
    | int i =>
      have htrue : Text.ofInt i.toInt ≠ "true" := ofInt_ne_boolText _ true
      have hfalse : Text.ofInt i.toInt ≠ "false" := ofInt_ne_boolText _ false
      simp [word, bool?, htrue, hfalse]
    | text s =>
      by_cases htrue : trim s = "true"
      · simp [word, bool?, htrue]
      · by_cases hfalse : trim s = "false" <;> simp [word, bool?, htrue, hfalse]

lemma getInt_eq_readWord (o : Options) (key : String) (default : Int64) :
    o.getInt key default = readWord (fun w => Text.int64? w.toList) "int" o key default := by
  unfold getInt readWord
  cases o.get? key with
  | none => rfl
  | some v =>
    cases v with
    | bool b => simp [word, int64?_boolText]
    | int i => simp [word, Text.int64?_ofInt]
    | text s => cases hi : Text.int64? (trim s).toList <;> simp [word, hi]

end Options

/-! ### Outcomes that differ in what was found -/

/-- The same result, or errors on the same option with the same expectation. -/
inductive Error.Alike {α : Type} : Except Error α → Except Error α → Prop where
  | ok (a : α) : Alike (.ok a) (.ok a)
  | option (key expected found found' : String) :
      Alike (.error (.option key expected found)) (.error (.option key expected found'))

namespace Error.Alike

variable {α β : Type}

lemma bind {x y : Except Error α} {f g : α → Except Error β} (h : Alike x y)
    (hnext : ∀ a, Alike (f a) (g a)) : Alike (x >>= f) (y >>= g) := by
  cases h with
  | ok a => exact hnext a
  | option key expected found found' => exact .option key expected found found'

lemma validate (s : Settings) : Alike (validate s) (validate s) := by
  unfold Settings.validate
  split_ifs
  · exact .option _ _ _ _
  · exact .ok s

lemma assemble {a a' l l' n n' : Except Error Bool} {i i' : Except Error Int64} (ha : Alike a a')
    (hi : Alike i i') (hl : Alike l l') (hn : Alike n n') :
    Alike (assemble a i l n) (assemble a' i' l' n') :=
  ha.bind fun _ => hi.bind fun _ => hl.bind fun _ => hn.bind fun _ => validate _

end Error.Alike

namespace Options

open Error (Alike)

variable {o o' : Options} {key : String}

lemma alike_readWord {α : Type} {read? : String → Option α} {expected : String}
    (h : (o.get? key).map OptionValue.word = (o'.get? key).map OptionValue.word) (default : α) :
    Alike (readWord read? expected o key default) (readWord read? expected o' key default) := by
  unfold readWord
  cases hv : o.get? key <;> cases hw : o'.get? key <;> rw [hv, hw] at h
  case none.none => exact .ok default
  case some.some v w =>
    have hword : v.word = w.word := Option.some.inj h
    simp only [hword]
    split
    · exact .ok _
    · exact .option _ _ _ _
  all_goals cases h

def settingKeys : List String :=
  ["auto.register.schemas", "use.schema.id", "use.latest.version", "normalize.schemas"]

lemma alike_ofOptions
    (h : ∀ key ∈ settingKeys,
      (o.get? key).map OptionValue.word = (o'.get? key).map OptionValue.word) :
    Alike (ofOptions o) (ofOptions o') := by
  simp only [settingKeys, List.forall_mem_cons, List.not_mem_nil, false_implies, implies_true,
    and_true] at h
  obtain ⟨ha, hi, hl, hn⟩ := h
  simp only [Settings.ofOptions_eq_assemble, getBool_eq_readWord, getInt_eq_readWord]
  exact .assemble (alike_readWord ha _) (alike_readWord hi _) (alike_readWord hl _)
    (alike_readWord hn _)

lemma ofOptions_congr (h : ∀ key ∈ settingKeys, o.get? key = o'.get? key) :
    ofOptions o = ofOptions o' := by
  simp only [settingKeys, List.forall_mem_cons, List.not_mem_nil, false_implies, implies_true,
    and_true] at h
  obtain ⟨ha, hi, hl, hn⟩ := h
  simp only [Settings.ofOptions_eq_assemble, getBool, getInt, ha, hi, hl, hn]

def last? (es : List (String × OptionValue)) (key : String) : Option OptionValue :=
  (es.filter fun e => e.1 = key).getLast?.map Prod.snd

lemma map_word_last? {es es' : List (String × OptionValue)}
    (h : List.Forall₂ (fun e e' => e.1 = e'.1 ∧ e.2.word = e'.2.word) es es') (key : String) :
    (last? es key).map OptionValue.word = (last? es' key).map OptionValue.word := by
  have hwords : ∀ es : List (String × OptionValue), (last? es key).map OptionValue.word =
      ((es.map fun e => (e.1, e.2.word)).filter fun e => e.1 = key).getLast?.map Prod.snd := by
    intro es
    rw [last?, List.filter_map, List.getLast?_map, Option.map_map, Option.map_map]
    rfl
  have hsame : es.map (fun e => (e.1, e.2.word)) = es'.map fun e => (e.1, e.2.word) := by
    induction h with
    | nil => rfl
    | cons h _ ih => rw [List.map_cons, List.map_cons, h.1, h.2, ih]
  rw [hwords, hwords, hsame]

end Options

end SchemaRegistry
