import Mathlib.Control.Monad.Basic
import Mathlib.Data.List.Forall2
import SchemaRegistry.CommandLine.Run
import SchemaRegistry.Proofs.Policy.Selection
import SchemaRegistry.Proofs.Settings.Options

/-!
Options on the command line. Arguments that set options are read as these options with texts for
values, so what is shown are the settings and the policy that the options make.
-/

namespace SchemaRegistry.CommandLine

open SchemaRegistry.Settings (Surroundings ofOptions)

variable {key value : String} {t : String × String} {ts : List (String × String)}

/-! ### Arguments -/

/-- A key that stands as it is in front of an equals sign, in an argument that is no flag. -/
structure PlainKey (key : String) : Prop where
  noEquals : '=' ∉ key.toList
  noHyphen : key.toList.head? ≠ some '-'
  noBlankFirst : ∀ c ∈ key.toList.head?, ¬ Text.isBlank c
  noBlankLast : ∀ c ∈ key.toList.getLast?, ¬ Text.isBlank c

lemma plainKey_iff : PlainKey key ↔ '=' ∉ key.toList ∧ key.toList.head? ≠ some '-' ∧
    key.toList.head?.all (fun c => !Text.isBlank c) ∧
      key.toList.getLast?.all fun c => !Text.isBlank c := by
  have hends (o : Option Char) : o.all (fun c => !Text.isBlank c) ↔ ∀ c ∈ o, ¬ Text.isBlank c := by
    simp [Option.all_eq_true]
  rw [hends, hends]
  exact ⟨fun ⟨h₁, h₂, h₃, h₄⟩ => ⟨h₁, h₂, h₃, h₄⟩, fun ⟨h₁, h₂, h₃, h₄⟩ => ⟨h₁, h₂, h₃, h₄⟩⟩

instance (key : String) : Decidable (PlainKey key) := decidable_of_iff' _ plainKey_iff

def assigned (t : String × String) : String := t.1 ++ "=" ++ t.2

def setArguments (ts : List (String × String)) : List String :=
  ts.flatMap fun t => ["--set", assigned t]

lemma toList_assigned (t : String × String) :
    (assigned t).toList = t.1.toList ++ '=' :: t.2.toList := by
  have hequals : "=".toList = ['='] := by decide
  rw [assigned, String.toList_append, String.toList_append, hequals, List.append_assoc,
    List.singleton_append]

lemma head?_assigned (h : PlainKey t.1) : (assigned t).toList.head? ≠ some '-' := by
  rw [toList_assigned]
  cases hkey : t.1.toList with
  | nil => simp
  | cons c cs =>
    have hfirst := h.noHyphen
    rw [hkey] at hfirst
    exact hfirst

lemma readItems_set (h : value.toList.head? ≠ some '-') (rest : List String) :
    readItems [configFlag, setFlag] ("--set" :: value :: rest) =
      .option setFlag value :: readItems [configFlag, setFlag] rest :=
  readItems_option (by decide) h rest

lemma readItems_setArguments (h : ∀ t ∈ ts, PlainKey t.1) :
    readItems [configFlag, setFlag] (setArguments ts) =
      ts.map fun t => .option setFlag (assigned t) := by
  induction ts with
  | nil => rfl
  | cons t ts ih =>
    obtain ⟨ht, hts⟩ := List.forall_mem_cons.mp h
    rw [setArguments, List.flatMap_cons, List.cons_append, List.cons_append, List.nil_append,
      readItems_set (head?_assigned ht), List.map_cons, ← ih hts]
    rfl

lemma takeAll_options (values : List String) :
    Given.takeAll false (values.map (.option setFlag)) = .ok { options := values } := by
  have htake : ∀ g : Given, (values.map (.option setFlag)).foldlM (Given.take false) g =
      .ok { g with options := g.options ++ values } := by
    induction values with
    | nil => exact fun g => by simp [pure, Except.pure]
    | cons value values ih =>
      intro g
      have hone : Given.take false g (.option setFlag value) =
          .ok { g with options := g.options ++ [value] } := rfl
      rw [List.map_cons, List.foldlM_cons, hone]
      exact (ih _).trans (by simp)
  exact htake {}

lemma parse_setArguments (h : ∀ t ∈ ts, PlainKey t.1) :
    Command.parse ("policy" :: setArguments ts) = .ok (.policy none (ts.map assigned)) := by
  have hitems : ts.map (fun t => Item.option setFlag (assigned t)) =
      (ts.map assigned).map (.option setFlag) := by
    rw [List.map_map]
    rfl
  rw [Command.parse, readItems_setArguments h, hitems, takeAll_options]
  rfl

/-! ### Options -/

lemma splitFirst?_append {c : Char} {before : List Char} (h : c ∉ before) (after : List Char) :
    Text.splitFirst? c (before ++ c :: after) = some (before, after) := by
  induction before with
  | nil => simp [Text.splitFirst?]
  | cons d before ih =>
    obtain ⟨hd, hbefore⟩ := List.ne_and_not_mem_of_not_mem_cons h
    rw [List.cons_append, Text.splitFirst?, if_neg (Ne.symm hd), ih hbefore]
    rfl

lemma readOption_assigned (h : PlainKey t.1) :
    readOption (assigned t) = .ok (t.1, .text (Text.trim t.2)) := by
  unfold readOption
  rw [toList_assigned, splitFirst?_append h.noEquals]
  simp only [String.ofList_toList, Text.trim_of_ends h.noBlankFirst h.noBlankLast]

lemma mapM_readOption (h : ∀ t ∈ ts, PlainKey t.1) :
    (ts.map assigned).mapM readOption = .ok (ts.map fun t => (t.1, .text (Text.trim t.2))) := by
  rw [mapM_eq_ok_iff, List.forall₂_map_left_iff, List.forall₂_map_right_iff, List.forall₂_same]
  exact fun t ht => readOption_assigned (h t ht)

/-! ### What is shown -/

def shown : Except Error Settings → Outcome
  | .ok c => { stdout := describeSettings c }
  | .error e => { exit := 1, stderr := line ("Error: " ++ (Failure.error e).message) }

/-- The lines on the policy that settings select, by the table of policies. -/
inductive PolicyLines (c : Settings) : String → Prop where
  | autoRegister (h : c.autoRegister = true) :
      PolicyLines c "policy: auto-register\nregisters schemas: true\n"
  | pinned (hregister : c.autoRegister = false) (h : 0 ≤ c.schemaId.toInt) :
      PolicyLines c ("policy: use-schema-id(" ++ Text.ofInt c.schemaId.toInt ++
        ")\nregisters schemas: false\n")
  | latestVersion (hregister : c.autoRegister = false) (hid : c.schemaId.toInt < 0)
      (h : c.latestVersion = true) :
      PolicyLines c "policy: use-latest-version\nregisters schemas: false\n"
  | lookup (hregister : c.autoRegister = false) (hid : c.schemaId.toInt < 0)
      (h : c.latestVersion = false) :
      PolicyLines c "policy: lookup\nregisters schemas: false\n"

/-- The settings with their policy are printed line by line, or an error on the same option with the
same expectation. -/
inductive Reports : Except Error Settings → Outcome → Prop where
  | shows (c : Settings) (policy : String) (h : PolicyLines c policy) :
      Reports (.ok c)
        { stdout :=
            "auto_register_schemas = " ++ toString c.autoRegister ++ "\n" ++
            ("use_schema_id = " ++ Text.ofInt c.schemaId.toInt ++ "\n") ++
            ("use_latest_version = " ++ toString c.latestVersion ++ "\n") ++
            ("normalize_schemas = " ++ toString c.normalize ++ "\n\n") ++ policy }
  | fails (key expected found found' : String) :
      Reports (.error (.option key expected found))
        { exit := 1
          stderr := "Error: " ++ ("Invalid configuration value for '" ++ key ++ "': expected " ++
            expected ++ ", got " ++ found') ++ "\n" }

lemma policyLines_of_precedence {c : Settings} {p : IdPolicy} (h : IdPolicy.Precedence c p) :
    PolicyLines c (line ("policy: " ++ p.label) ++
      line ("registers schemas: " ++ Settings.boolText p.mutates)) := by
  cases h with
  | autoRegister h => exact .autoRegister h
  | pinned id hregister h =>
    have hid : Text.ofInt c.schemaId.toInt = Text.ofNat id.toNat := by
      rw [h, Text.ofInt, if_neg (Int.not_lt.mpr (Int.natCast_nonneg _)), Int.natAbs_natCast]
    convert PolicyLines.pinned hregister (h ▸ Int.natCast_nonneg _) using 1
    apply String.toList_injective
    simp [hid, line, IdPolicy.label, IdPolicy.name, IdPolicy.mutates, Settings.boolText]
  | latestVersion hregister hid h => exact .latestVersion hregister hid h
  | lookup hregister hid h => exact .lookup hregister hid h

lemma boolText_eq_toString (b : Bool) : Settings.boolText b = toString b := by
  cases b <;> rfl

lemma reports_describeSettings {c : Settings} (hle : c.schemaId.toInt ≤ Settings.maxId) :
    Reports (.ok c) { stdout := describeSettings c } := by
  convert Reports.shows c _ (policyLines_of_precedence (IdPolicy.precedence_select hle)) using 2
  apply String.toList_injective
  simp [describeSettings, Settings.toml, Settings.entries, boolText_eq_toString, String.join, line]

lemma run_setArguments (s : Surroundings) (hne : ts ≠ []) (h : ∀ t ∈ ts, PlainKey t.1) :
    run s ("policy" :: setArguments ts) =
      shown (ofOptions (.ofList (ts.map fun t => (t.1, .text (Text.trim t.2))))) := by
  have hsettings : settings s none (ts.map assigned) =
      (ofOptions (.ofList (ts.map fun t => (t.1, .text (Text.trim t.2))))).mapError .error := by
    have hempty : (ts.map assigned).isEmpty = false := by simp [hne]
    rw [settings, hempty, mapM_readOption h]
    rfl
  rw [run, parse_setArguments h]
  simp only [Command.output, hsettings]
  cases ofOptions (.ofList (ts.map fun t => (t.1, .text (Text.trim t.2)))) <;> rfl

lemma reports_of_alike {x y : Except Error Settings} (h : Error.Alike x y)
    (hle : ∀ c, x = .ok c → c.schemaId.toInt ≤ Settings.maxId) : Reports x (shown y) := by
  cases h with
  | ok c => exact reports_describeSettings (hle c rfl)
  | option key expected found found' => exact .fails key expected found found'

lemma word_eq_of_spelledAs {v : OptionValue} (h : v.SpelledAs (.text value)) :
    v.word = (OptionValue.text (Text.trim value)).word :=
  h.word_eq.symm.trans (Text.trim_trim value).symm

/-- **Typed and textual options mean the same.** Another spelling of the values gives the same settings,
or an error on the same option with the same expectation. Only the last value under each of the
settings' own keys counts. And the same options as arguments print the same settings and the policy of
their row of the table, or fail on the same option. -/
theorem reports_of_spelledAs {es : List (String × OptionValue)} :
    -- another spelling
    (∀ es', List.Forall₂ (fun e e' => e.1 = e'.1 ∧ e.2.SpelledAs e'.2) es es' →
      Error.Alike (ofOptions (.ofList es)) (ofOptions (.ofList es'))) ∧
    -- what counts
    (∀ es', (∀ key ∈ Options.settingKeys, Options.last? es key = Options.last? es' key) →
      ofOptions (.ofList es) = ofOptions (.ofList es')) ∧
    -- the command line
    ∀ (s : Surroundings) ts, es ≠ [] → (∀ e ∈ es, PlainKey e.1) →
      List.Forall₂ (fun e t => e.1 = t.1 ∧ e.2.SpelledAs (.text t.2)) es ts →
      Reports (ofOptions (.ofList es)) (run s ("policy" :: setArguments ts)) := by
  have halike : ∀ es', List.Forall₂ (fun e e' => e.1 = e'.1 ∧ e.2.word = e'.2.word) es es' →
      Error.Alike (ofOptions (.ofList es)) (ofOptions (.ofList es')) := by
    intro es' h
    refine Options.alike_ofOptions fun key _ => ?_
    rw [Table.get?_ofList, Table.get?_ofList]
    exact Options.map_word_last? h key
  refine ⟨fun es' h => ?spelling, fun es' h => ?counts, fun s ts hne hkeys h => ?shown⟩
  case spelling => exact halike es' (h.imp fun _ _ he => ⟨he.1, he.2.word_eq.symm⟩)
  case counts =>
    refine Options.ofOptions_congr fun key hkey => ?_
    rw [Table.get?_ofList, Table.get?_ofList]
    exact h key hkey
  case shown =>
    have hts : ts ≠ [] := fun hnil => hne (List.forall₂_nil_right_iff.mp (hnil ▸ h))
    have hplain : ∀ t ∈ ts, PlainKey t.1 := by
      have hsame : es.map Prod.fst = ts.map Prod.fst := by
        rw [← List.forall₂_eq_eq_eq, List.forall₂_map_left_iff, List.forall₂_map_right_iff]
        exact h.imp fun _ _ he => he.1
      have hmap : ∀ key ∈ ts.map Prod.fst, PlainKey key := hsame ▸ List.forall_mem_map.mpr hkeys
      exact List.forall_mem_map.mp hmap
    rw [run_setArguments s hts hplain]
    refine reports_of_alike (halike _ ?_) fun c => Settings.le_maxId_of_ofOptions
    exact List.forall₂_map_right_iff.mpr
      (h.imp fun _ _ he => ⟨he.1, word_eq_of_spelledAs he.2⟩)

/-- The least integer between blanks, behind a value of the wrong type under the same key, and an
option that is none of the settings'. -/
theorem reports_of_spelledAs_of_blanks :
    let es : List (String × OptionValue) := [("use.schema.id", .text "?"), ("note", .bool true),
      ("use.schema.id", .int (-9223372036854775808)), ("auto.register.schemas", .bool false)]
    let ts : List (String × String) := [("use.schema.id", "?"), ("note", "true"),
      ("use.schema.id", "\u2003-9223372036854775808\t"), ("auto.register.schemas", "false\u3000")]
    let s : Surroundings := { entry? := fun _ => none }
    let c : Settings := { autoRegister := false, schemaId := -9223372036854775808 }
    (es ≠ [] ∧ ∀ e ∈ es, PlainKey e.1) ∧
      List.Forall₂ (fun e t => e.1 = t.1 ∧ e.2.SpelledAs (.text t.2)) es ts ∧
      ofOptions (.ofList es) = .ok c ∧
      Error.Alike (ofOptions (.ofList es))
        (ofOptions (.ofList (ts.map fun t => (t.1, .text t.2)))) ∧
      ofOptions (.ofList es) = ofOptions (.ofList (es.drop 2)) ∧
      Reports (.ok c) (run s ("policy" :: setArguments ts)) ∧
      run s ("policy" :: setArguments ts) =
        { stdout := "auto_register_schemas = false\nuse_schema_id = -9223372036854775808\n" ++
            "use_latest_version = false\nnormalize_schemas = false\n\n" ++
            "policy: lookup\nregisters schemas: false\n" } := by
  intro es ts s c
  have hkeys : ∀ e ∈ es, PlainKey e.1 := by decide
  have hspelled : List.Forall₂ (fun e t => e.1 = t.1 ∧ e.2.SpelledAs (.text t.2)) es ts := by
    have htrue : Text.Padded "true" "true" := Text.padded_of_all [] [] (by decide)
    have hint : Text.Padded (Text.ofInt (-9223372036854775808 : Int64).toInt)
        "\u2003-9223372036854775808\t" := Text.padded_of_all ['\u2003'] ['\t'] (by decide)
    have hfalse : Text.Padded "false" "false\u3000" := Text.padded_of_all [] ['\u3000'] (by decide)
    exact .cons ⟨rfl, .same _⟩ (.cons ⟨rfl, .bool htrue⟩ (.cons ⟨rfl, .int hint⟩
      (.cons ⟨rfl, .bool hfalse⟩ .nil)))
  have hread : ofOptions (.ofList es) = .ok c := by decide +kernel
  have hshown := reports_of_spelledAs.2.2 s ts (List.cons_ne_nil _ _) hkeys hspelled
  refine ⟨⟨List.cons_ne_nil _ _, hkeys⟩, hspelled, hread, ?_, ?_, hread ▸ hshown, by decide +kernel⟩
  · exact reports_of_spelledAs.1 _ (List.forall₂_map_right_iff.mpr hspelled)
  · exact reports_of_spelledAs.2.1 _ (by decide)

end SchemaRegistry.CommandLine
