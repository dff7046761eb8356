/-!
Command line arguments: options with values, and everything else by position.
-/

namespace SchemaRegistry.CommandLine

/-- An option that takes a value, by its letter and its word. -/
structure Flag where
  letter : Char
  word : String
  deriving DecidableEq, Repr

/-- What arguments give. After something that is not understood nothing is read. -/
inductive Item where
  | option (f : Flag) (value : String)
  | positional (s : String)
  | help
  | unknown
  deriving DecidableEq, Repr

/-- Whether an argument can only be an option; a hyphen alone is a value. -/
def looksLikeOption (s : String) : Bool :=
  match s.toList with
  | '-' :: _ :: _ => true
  | _ => false

/-- An option at the front of an argument, and the value that is attached to it, if any. -/
inductive Head where
  | flag (f : Flag) (attached : Option String)
  | help
  | unknown
  deriving DecidableEq, Repr

/-- Reads what follows two hyphens: a word, and a value behind an equals sign. -/
def readWord (flags : List Flag) (cs : List Char) : Head :=
  let word := String.ofList (cs.takeWhile (· ≠ '='))
  let attached := match cs.dropWhile (· ≠ '=') with
    | [] => none
    | _ :: value => some (String.ofList value)
  match flags.find? fun f => f.word = word with
  | some f => .flag f attached
  | none => if word = "help" ∧ attached.isNone then .help else .unknown

/-- Reads what follows one hyphen: a letter, and a value right behind it or behind an equals sign. -/
def readLetter (flags : List Flag) (letter : Char) (value : List Char) : Head :=
  let attached := match value with
    | [] => none
    | '=' :: value => some (String.ofList value)
    | value => some (String.ofList value)
  match flags.find? fun f => f.letter = letter with
  | some f => .flag f attached
  | none => if letter = 'h' then .help else .unknown

def readHead (flags : List Flag) (s : String) : Head :=
  match s.toList with
  | '-' :: '-' :: cs => readWord flags cs
  | '-' :: c :: cs => readLetter flags c cs
  | _ => .unknown

/-- Reads all arguments; after two hyphens there are no options any more. -/
def readItems (flags : List Flag) : List String → List Item
  | [] => []
  | s :: rest =>
    if s = "--" then rest.map .positional
    else if looksLikeOption s then
      match readHead flags s with
      | .flag f (some value) => .option f value :: readItems flags rest
      | .flag f none =>
        match rest with
        | value :: rest =>
          if looksLikeOption value then [.unknown] else .option f value :: readItems flags rest
        | [] => [.unknown]
      | .help => [.help]
      | .unknown => [.unknown]
    else .positional s :: readItems flags rest

theorem looksLikeOption_of_head? {s : String} (h : s.toList.head? ≠ some '-') :
    looksLikeOption s = false := by
  unfold looksLikeOption
  split
  · next heq => exact absurd (congrArg List.head? heq) h
  · rfl

theorem readItems_positional {s : String} (h : s.toList.head? ≠ some '-') (flags : List Flag)
    (rest : List String) : readItems flags (s :: rest) = .positional s :: readItems flags rest := by
  have hne : s ≠ "--" := fun e => h (e ▸ by decide)
  rw [readItems, if_neg hne, looksLikeOption_of_head? h, if_neg Bool.false_ne_true]

theorem readItems_option {flags : List Flag} {s value : String} {f : Flag}
    (hs : s ≠ "--" ∧ looksLikeOption s ∧ readHead flags s = .flag f none)
    (h : value.toList.head? ≠ some '-') (rest : List String) :
    readItems flags (s :: value :: rest) = .option f value :: readItems flags rest := by
  obtain ⟨hne, hlooks, hhead⟩ := hs
  rw [readItems, if_neg hne, if_pos hlooks, hhead]
  simp [looksLikeOption_of_head? h]

end SchemaRegistry.CommandLine
