import Mathlib.Data.List.Forall2
import Mathlib.Data.List.Induction
import SchemaRegistry.Proofs.Settings
import SchemaRegistry.Proofs.Table

/-!
Layers of settings. Each setting is what the highest source says about it that says anything, or its
default; what lower sources say about it does not matter, of whatever type it is. That holds if all
files that are there can be read and the one that is asked for is there; if not, loading fails,
whatever else is said.
-/

namespace SchemaRegistry.Settings

variable {s : Surroundings} {path : Option String} {l : Layer} {ls : List Layer}
  {value? : String → Option Value} {c c' : Settings}

/-! ### Where files are looked for -/

/-- A path that a file is looked for at, if there is one, and whether the file must be there. -/
structure Location where
  path? : Option String
  required : Bool

/-- All locations of files, the lowest first. The user's file counts if something is at its path. -/
def locations (s : Surroundings) (path : Option String) : List Location :=
  defaultPaths.map (fun p => ⟨some p, false⟩) ++
    [⟨s.userFile?.filter fun p => (s.entry? p).isSome, false⟩, ⟨path, true⟩]

/-- The file that is found for a path, with its format: the one at the very path, or else the first
one with an extension added. -/
def found? (s : Surroundings) (path : String) : Option (FileFormat × String) :=
  match s.read? path with
  | some text => (formatOf? path).map fun f => (f, text)
  | none => FileFormat.all.findSome? fun f => do
    let path ← withExtension? path f.fileExtension
    return (f, ← s.read? path)

/-- What is said at a location: nothing if no file is there, else what the file is read as. -/
inductive Says (s : Surroundings) : Location → Layer → Prop where
  | unused (required : Bool) : Says s ⟨none, required⟩ []
  | absent {p : String} (h : found? s p = none) : Says s ⟨some p, false⟩ []
  | file {p text : String} {f : FileFormat} {l : Layer} (hfound : found? s p = some (f, text))
      (hparse : f.parse? text = some l) (required : Bool) : Says s ⟨some p, required⟩ l

/-- The file at a location cannot be read, or is not there though it must be. -/
inductive Fails (s : Surroundings) : Location → Prop where
  | unreadable {p text : String} {f : FileFormat} (hfound : found? s p = some (f, text))
      (hparse : f.parse? text = none) (required : Bool) : Fails s ⟨some p, required⟩
  | missing {p : String} (h : found? s p = none) : Fails s ⟨some p, true⟩

variable {q : Location}

/-- The layer of a location. -/
def layerAt (s : Surroundings) (q : Location) : Except Error Layer :=
  q.path?.elim (.ok []) (fileLayer s q.required)

lemma fileLayer_eq (s : Surroundings) (required : Bool) (p : String) :
    fileLayer s required p =
      match found? s p with
      | some (f, text) =>
        match f.parse? text with
        | some l => .ok l
        | none => .error .settings
      | none => if required then .error .settings else .ok [] := by
  unfold fileLayer found?
  cases s.read? p with
  | none => rfl
  | some text => cases formatOf? p <;> rfl

lemma userLayer_eq (s : Surroundings) :
    userLayer s = layerAt s ⟨s.userFile?.filter fun p => (s.entry? p).isSome, false⟩ := by
  unfold userLayer layerAt
  cases s.userFile? with
  | none => rfl
  | some p => cases h : (s.entry? p).isSome <;> simp [Option.filter, h]

lemma layers_eq (s : Surroundings) (path : Option String) :
    layers s path = do
      let files ← (locations s path).mapM (layerAt s)
      return files ++ [ofVariables s.variables] := by
  have hlayers : layers s path = do
      let defaults ← defaultPaths.mapM (fileLayer s false)
      let user ← layerAt s ⟨s.userFile?.filter fun p => (s.entry? p).isSome, false⟩
      let asked ← layerAt s ⟨path, true⟩
      return defaults ++ [user, asked, ofVariables s.variables] := by
    rw [layers, userLayer_eq]
    cases path <;> rfl
  have hdefault (p : String) : layerAt s ⟨some p, false⟩ = fileLayer s false p := rfl
  simp only [hlayers, locations, defaultPaths, List.map_cons, List.map_nil, List.cons_append,
    List.nil_append, List.mapM_cons, List.mapM_nil, hdefault, bind_assoc, pure_bind]

lemma says_or_fails (s : Surroundings) (q : Location) : (∃ l, Says s q l) ∨ Fails s q := by
  obtain ⟨path?, required⟩ := q
  cases path? with
  | none => exact .inl ⟨[], .unused required⟩
  | some p =>
    cases hfound : found? s p with
    | none =>
      cases required
      · exact .inl ⟨[], .absent hfound⟩
      · exact .inr (.missing hfound)
    | some file =>
      cases hparse : file.1.parse? file.2 with
      | none => exact .inr (.unreadable hfound hparse required)
      | some l => exact .inl ⟨l, .file hfound hparse required⟩

lemma Says.layerAt_eq (h : Says s q l) : layerAt s q = .ok l := by
  cases h with
  | unused => rfl
  | absent h => simp [layerAt, fileLayer_eq, h]
  | file hfound hparse required => simp [layerAt, fileLayer_eq, hfound, hparse]

lemma Fails.layerAt_eq (h : Fails s q) : layerAt s q = .error .settings := by
  cases h with
  | unreadable hfound hparse required => simp [layerAt, fileLayer_eq, hfound, hparse]
  | missing h => simp [layerAt, fileLayer_eq, h]

lemma layerAt_eq_ok_iff : layerAt s q = .ok l ↔ Says s q l := by
  refine ⟨fun h => ?_, Says.layerAt_eq⟩
  rcases says_or_fails s q with ⟨l', hsaid⟩ | hfails
  · obtain rfl : l' = l := Except.ok.inj (hsaid.layerAt_eq.symm.trans h)
    exact hsaid
  · cases hfails.layerAt_eq.symm.trans h

lemma layerAt_eq_error_iff {e : Error} : layerAt s q = .error e ↔ Fails s q ∧ e = .settings := by
  constructor
  · intro h
    rcases says_or_fails s q with ⟨l, hsaid⟩ | hfails
    · cases hsaid.layerAt_eq.symm.trans h
    · exact ⟨hfails, Except.error.inj (h.symm.trans hfails.layerAt_eq)⟩
  · rintro ⟨hfails, rfl⟩
    exact hfails.layerAt_eq

/-! ### All files -/

lemma exists_says_or_fails (s : Surroundings) (path : Option String) :
    (∃ files, List.Forall₂ (Says s) (locations s path) files) ∨
      ∃ q ∈ locations s path, Fails s q := by
  cases h : (locations s path).mapM (layerAt s) with
  | ok files => exact .inl ⟨files, (mapM_eq_ok_iff.mp h).imp fun _ _ => layerAt_eq_ok_iff.mp⟩
  | error e =>
    obtain ⟨q, hq, hfails⟩ := exists_of_mapM_eq_error h
    exact .inr ⟨q, hq, (layerAt_eq_error_iff.mp hfails).1⟩

lemma load_of_layers {files : List Layer} (h : List.Forall₂ (Says s) (locations s path) files) :
    load s path = ofValues (merged (files ++ [ofVariables s.variables])) := by
  have hfiles : (locations s path).mapM (layerAt s) = .ok files :=
    mapM_eq_ok_iff.mpr (h.imp fun _ _ => layerAt_eq_ok_iff.mpr)
  rw [load, layers_eq, hfiles]
  rfl

lemma load_of_fails (h : ∃ q ∈ locations s path, Fails s q) : load s path = .error .settings := by
  obtain ⟨q, hq, hfails⟩ := h
  cases hfiles : (locations s path).mapM (layerAt s) with
  | ok files =>
    have hok : List.Forall₂ (fun q l => ¬ Fails s q ∧ layerAt s q = .ok l)
        (locations s path) files := by
      refine (mapM_eq_ok_iff.mp hfiles).imp fun q l hl => ⟨fun hq => ?_, hl⟩
      have herror := layerAt_eq_error_iff.mpr ⟨hq, rfl⟩
      rw [hl] at herror
      cases herror
    exact absurd hfails (((List.forall₂_and_left _ files).mp hok).1 q hq)
  | error e =>
    obtain ⟨q, -, hq⟩ := exists_of_mapM_eq_error hfiles
    obtain ⟨-, rfl⟩ := layerAt_eq_error_iff.mp hq
    rw [load, layers_eq, hfiles]
    rfl

/-! ### What layers say -/

/-- What a pair sets, and to what. A name with steps into a value makes the value a table. -/
def said (e : String × Value) : String × Value :=
  match stepped? (lower e.1) with
  | some outer => (outer, .table false)
  | none => (lower e.1, e.2)

/-- What a layer says about a name: the last value that it gives for it. -/
def valueIn? (l : Layer) (name : String) : Option Value :=
  ((l.map said).filter fun e => e.1 = name).getLast?.map Prod.snd

/-- What the highest layer says that says anything about a name. -/
def topmost? (ls : List Layer) (name : String) : Option Value :=
  ls.reverse.findSome? fun l => valueIn? l name

/-- No value is an empty table, the one value that would not hide what is below it. -/
def Solid (l : Layer) : Prop := ∀ e ∈ l, e.2 ≠ .table true

lemma assign_eq_insert {v : Value} (hv : v ≠ .table true) (vs : Values) (name : String) :
    assign vs name v = vs.insert (said (name, v)).1 (said (name, v)).2 := by
  simp only [assign, said]
  cases stepped? (lower name) <;> rfl

lemma overlay_eq_insertAll (h : Solid l) (vs : Values) :
    overlay vs l = vs.insertAll (l.map said) := by
  rw [Table.insertAll, List.foldl_map, overlay]
  exact List.foldl_ext _ _ vs fun vs e he => assign_eq_insert (h e he) vs e.1

lemma get?_merged (h : ∀ l ∈ ls, Solid l) (name : String) :
    (merged ls).get? name = topmost? ls name := by
  induction ls using List.reverseRecOn with
  | nil => rfl
  | append_singleton ls l ih =>
    have hl : Solid l := h l (by simp)
    have hls : ∀ l ∈ ls, Solid l := fun l hl => h l (List.mem_append_left _ hl)
    have hmerged : merged (ls ++ [l]) = overlay (merged ls) l := by simp [merged]
    rw [hmerged, overlay_eq_insertAll hl, Table.get?_insertAll, Table.get?_ofList, ih hls]
    simp only [topmost?, List.reverse_append, List.reverse_singleton, List.singleton_append,
      List.findSome?_cons]
    change (valueIn? l name).or _ = _
    cases valueIn? l name <;> rfl

lemma solid_ofVariables (pairs : List (String × String)) : Solid (ofVariables pairs) := by
  intro e he
  obtain ⟨⟨name, text⟩, -, h⟩ := List.mem_filterMap.mp he
  obtain ⟨name', -, h⟩ := Option.bind_eq_some_iff.mp h
  cases h
  show Value.ofVariable text ≠ .table true
  unfold Value.ofVariable
  split_ifs
  · exact nofun
  · exact nofun
  · cases Text.int64? text.toList with
    | some i => exact nofun
    | none => cases Text.float? text.toList <;> exact nofun

/-! ### The result -/

/-- Settings are what is said about each, or else its default. -/
structure Chosen (value? : String → Option Value) (c : Settings) : Prop where
  autoRegister :
    (value? "auto_register_schemas").elim (some true) Value.toBool? = some c.autoRegister
  schemaId : (value? "use_schema_id").elim (some (-1)) Value.toInt? = some c.schemaId
  latestVersion :
    (value? "use_latest_version").elim (some false) Value.toBool? = some c.latestVersion
  normalize : (value? "normalize_schemas").elim (some false) Value.toBool? = some c.normalize

/-- What is said about a setting is of no use for it. -/
inductive Unfit (value? : String → Option Value) : Prop where
  | bool {name : String} {v : Value}
      (hname : name ∈ ["auto_register_schemas", "use_latest_version", "normalize_schemas"])
      (hvalue : value? name = some v) (hread : v.toBool? = none)
  | int {v : Value} (hvalue : value? "use_schema_id" = some v) (hread : v.toInt? = none)

lemma Chosen.unique (h : Chosen value? c) (h' : Chosen value? c') : c = c' := by
  obtain ⟨a, i, l, n⟩ := c
  obtain ⟨a', i', l', n'⟩ := c'
  have ha := h.autoRegister.symm.trans h'.autoRegister
  have hi := h.schemaId.symm.trans h'.schemaId
  have hl := h.latestVersion.symm.trans h'.latestVersion
  have hn := h.normalize.symm.trans h'.normalize
  simp only [Option.some.injEq] at ha hi hl hn
  rw [ha, hi, hl, hn]

lemma Chosen.not_unfit (h : Chosen value? c) : ¬ Unfit value? := by
  rintro (⟨hname, hvalue, hread⟩ | ⟨hvalue, hread⟩)
  · simp only [List.mem_cons, List.not_mem_nil, or_false] at hname
    rcases hname with rfl | rfl | rfl
    · simpa [hvalue, hread] using h.autoRegister
    · simpa [hvalue, hread] using h.latestVersion
    · simpa [hvalue, hread] using h.normalize
  · simpa [hvalue, hread] using h.schemaId

/-- A value is converted, or the default taken, or the value is of no use. -/
lemma convert_cases {α : Type} (vs : Values) (name : String) (read? : Value → Option α)
    (default : α) :
    (∃ a, (vs.get? name).elim (some default) read? = some a ∧
      convert vs name read? default = .ok a) ∨
    (∃ v, vs.get? name = some v ∧ read? v = none) ∧
      convert vs name read? default = .error .settings := by
  unfold convert
  cases vs.get? name with
  | none => exact .inl ⟨default, rfl, rfl⟩
  | some v =>
    cases hread : read? v with
    | none => exact .inr ⟨⟨v, rfl, hread⟩, by simp [hread]⟩
    | some a => exact .inl ⟨a, hread, by simp [hread]⟩

lemma ofValues_cases (vs : Values) :
    (∃ c, Chosen vs.get? c ∧ ofValues vs = validate c) ∨
      Unfit vs.get? ∧ ofValues vs = .error .settings := by
  rw [ofValues_eq_assemble]
  rcases convert_cases vs "auto_register_schemas" Value.toBool? true with
    ⟨a, ha, hca⟩ | ⟨⟨v, hv, hread⟩, herror⟩
  · rcases convert_cases vs "use_schema_id" Value.toInt? (-1) with
      ⟨i, hi, hci⟩ | ⟨⟨v, hv, hread⟩, herror⟩
    · rcases convert_cases vs "use_latest_version" Value.toBool? false with
        ⟨l, hl, hcl⟩ | ⟨⟨v, hv, hread⟩, herror⟩
      · rcases convert_cases vs "normalize_schemas" Value.toBool? false with
          ⟨n, hn, hcn⟩ | ⟨⟨v, hv, hread⟩, herror⟩
        · rw [hca, hci, hcl, hcn]
          exact .inl ⟨⟨a, i, l, n⟩, ⟨ha, hi, hl, hn⟩, rfl⟩
        · rw [hca, hci, hcl, herror]
          exact .inr ⟨.bool (by simp) hv hread, rfl⟩
      · rw [hca, hci, herror]
        exact .inr ⟨.bool (by simp) hv hread, rfl⟩
    · rw [hca, herror]
      exact .inr ⟨.int hv hread, rfl⟩
  · rw [herror]
    exact .inr ⟨.bool (by simp) hv hread, rfl⟩

lemma ofValues_eq_ok_iff (vs : Values) (c : Settings) :
    ofValues vs = .ok c ↔ Chosen vs.get? c ∧ c.schemaId.toInt ≤ maxId := by
  rcases ofValues_cases vs with ⟨c', hchosen, hvalues⟩ | ⟨hunfit, hvalues⟩
  · rw [hvalues, validate_eq_ok_iff]
    constructor
    · rintro ⟨rfl, hle⟩
      exact ⟨hchosen, hle⟩
    · rintro ⟨h, hle⟩
      obtain rfl := hchosen.unique h
      exact ⟨rfl, hle⟩
  · rw [hvalues]
    exact ⟨nofun, fun h => absurd hunfit h.1.not_unfit⟩

lemma ofValues_eq_error_iff (vs : Values) (e : Error) :
    ofValues vs = .error e ↔ Unfit vs.get? ∧ e = .settings ∨
      ∃ c, Chosen vs.get? c ∧ maxId < c.schemaId.toInt ∧
        e = .option "use.schema.id" "schema id in 0..=4294967295 or negative"
          (Text.ofInt c.schemaId.toInt) := by
  rcases ofValues_cases vs with ⟨c, hchosen, hvalues⟩ | ⟨hunfit, hvalues⟩
  · rw [hvalues, validate_eq_error_iff]
    constructor
    · exact fun h => .inr ⟨c, hchosen, h⟩
    · rintro (⟨hunfit, -⟩ | ⟨c', hc', h⟩)
      · exact absurd hunfit hchosen.not_unfit
      · obtain rfl := hchosen.unique hc'
        exact h
  · rw [hvalues]
    constructor
    · rintro ⟨⟩
      exact .inl ⟨hunfit, rfl⟩
    · rintro (⟨-, rfl⟩ | ⟨c, hchosen, -⟩)
      · rfl
      · exact absurd hunfit hchosen.not_unfit

/-- **The highest source that says something about a setting decides it**, if all files can be read
and the one that is asked for is there. Loading then fails only for a value of no use among those
that decide, or else for an ID that no schema can have. In the other case it fails whatever the
sources say. -/
theorem load_by_topmost (s : Surroundings) (path : Option String) :
    (∀ files, List.Forall₂ (Says s) (locations s path) files → (∀ l ∈ files, Solid l) →
      let value? := topmost? (files ++ [ofVariables s.variables])
      (∀ c, load s path = .ok c ↔ Chosen value? c ∧ c.schemaId.toInt ≤ 4294967295) ∧
      ∀ e, load s path = .error e ↔ Unfit value? ∧ e = .settings ∨
        ∃ c, Chosen value? c ∧ 4294967295 < c.schemaId.toInt ∧
          e = .option "use.schema.id" "schema id in 0..=4294967295 or negative"
            (Text.ofInt c.schemaId.toInt)) ∧
    ((∃ q ∈ locations s path, Fails s q) → load s path = .error .settings) ∧
    ((∃ files, List.Forall₂ (Says s) (locations s path) files) ∨
      ∃ q ∈ locations s path, Fails s q) := by
  refine ⟨?_, load_of_fails, exists_says_or_fails s path⟩
  intro files hfiles hsolid value?
  have hget : (merged (files ++ [ofVariables s.variables])).get? = value? := by
    funext name
    refine get?_merged (fun l hl => ?_) name
    rcases List.mem_append.mp hl with hl | hl
    · exact hsolid l hl
    · rw [List.mem_singleton.mp hl]
      exact solid_ofVariables s.variables
  rw [load_of_layers hfiles, ← hget]
  exact ⟨ofValues_eq_ok_iff _, ofValues_eq_error_iff _⟩

/-! ### Values that can be compared -/

/-- Whether two values are the same. Of floating-point numbers that is not decided. -/
def Value.agrees : Value → Value → Bool
  | .bool a, .bool b => a = b
  | .int a, .int b => a = b
  | .text a, .text b => a = b
  | .table a, .table b => a = b
  | .other, .other => true
  | _, _ => false

lemma Value.eq_of_agrees {v w : Value} (h : v.agrees w) : v = w := by
  cases v <;> cases w <;> simp_all [agrees]

lemma Value.eq_some_of_agrees {o : Option Value} {v : Value} (h : o.any fun w => w.agrees v) :
    o = some v := by
  obtain ⟨w, hw, hagrees⟩ := Option.any_eq_true _ _ |>.mp h
  rw [hw, eq_of_agrees hagrees]

def Layer.agrees : Layer → Layer → Bool
  | [], [] => true
  | (k, v) :: l, (k', v') :: l' => k = k' && v.agrees v' && Layer.agrees l l'
  | _, _ => false

lemma Layer.eq_of_agrees {l l' : Layer} (h : Layer.agrees l l') : l = l' := by
  induction l generalizing l' with
  | nil => cases l' <;> simp_all [agrees]
  | cons e l ih =>
    cases l' with
    | nil => simp [agrees] at h
    | cons e' l' =>
      obtain ⟨⟨hk, hv⟩, hl⟩ : (e.1 = e'.1 ∧ e.2.agrees e'.2) ∧ Layer.agrees l l' := by
        simpa [agrees] using h
      rw [Prod.ext hk (Value.eq_of_agrees hv), ih hl]

lemma Layer.eq_some_of_agrees {o : Option Layer} {l : Layer} (h : o.any fun l' => Layer.agrees l' l) :
    o = some l := by
  obtain ⟨l', hl', hagrees⟩ := Option.any_eq_true _ _ |>.mp h
  rw [hl', eq_of_agrees hagrees]

/-- Values of the wrong types, in other cases of the names, below the ones that count. -/
theorem load_by_topmost_of_hidden_values :
    let d : Directory := ⟨.ofList [
      (["serde.toml"], "use_schema_id = 1979-05-27\n"),
      ([".serde.toml"], "Normalize_Schemas = \"maybe\"\n"),
      (["config", "serde.toml.json"], "\x7b\x7d"),
      (["home", "serde.toml"], "NORMALIZE_SCHEMAS = 1\n"),
      (["asked.toml"], "auto_register_schemas = \"No\"\n"),
      (["broken.toml"], "use_schema_id")]⟩
    let s (id : String) : Surroundings := {
      entry? := d.entry?
      userFile? := some "home/serde.toml"
      «variables» := [("Serde__Use_Schema_Id", id)] }
    let files : List Layer := [[("use_schema_id", .other)], [("Normalize_Schemas", .text "maybe")],
      [], [("NORMALIZE_SCHEMAS", .int 1)], [("auto_register_schemas", .text "No")]]
    (∀ id, List.Forall₂ (Says (s id)) (locations (s id) (some "asked")) files) ∧
    (∀ l ∈ files, Solid l) ∧
    load (s "7") (some "asked") = .ok { autoRegister := false, schemaId := 7, normalize := true } ∧
    load (s "4294967296") (some "asked") =
      .error (.option "use.schema.id" "schema id in 0..=4294967295 or negative" "4294967296") ∧
    load (s "seven") (some "asked") = .error .settings ∧
    load (s "7") (some "broken") = .error .settings ∧
    load (s "7") (some "missing") = .error .settings := by
  intro d s files
  have huser (id : String) :
      (s id).userFile?.filter (fun p => (Surroundings.entry? (s id) p).isSome) =
        some "home/serde.toml" := by
    show (some "home/serde.toml").filter (fun p => (d.entry? [] p).isSome) = some "home/serde.toml"
    decide +kernel
  have hlocations (id : String) (path : Option String) : locations (s id) path =
      [⟨some "serde.toml", false⟩, ⟨some ".serde.toml", false⟩, ⟨some "config/serde.toml", false⟩,
        ⟨some "home/serde.toml", false⟩, ⟨path, true⟩] := by
    rw [locations, huser]
    rfl
  have hfound (id : String) :
      found? (s id) "serde.toml" = some (.toml, "use_schema_id = 1979-05-27\n") ∧
      found? (s id) ".serde.toml" = some (.toml, "Normalize_Schemas = \"maybe\"\n") ∧
      found? (s id) "config/serde.toml" = some (.json, "\x7b\x7d") ∧
      found? (s id) "home/serde.toml" = some (.toml, "NORMALIZE_SCHEMAS = 1\n") ∧
      found? (s id) "asked" = some (.toml, "auto_register_schemas = \"No\"\n") ∧
      found? (s id) "broken" = some (.toml, "use_schema_id") ∧
      found? (s id) "missing" = none := by
    have hfiles : found? (s id) = found? (s "") := rfl
    rw [hfiles]
    decide +kernel
  have hfiles (id : String) :
      List.Forall₂ (Says (s id)) (locations (s id) (some "asked")) files := by
    obtain ⟨hfirst, hsecond, hthird, huser, hasked, -, -⟩ := hfound id
    rw [hlocations]
    exact .cons (.file hfirst (Layer.eq_some_of_agrees (by decide +kernel)) _) <|
      .cons (.file hsecond (Layer.eq_some_of_agrees (by decide +kernel)) _) <|
      .cons (.file hthird (Layer.eq_some_of_agrees (by decide +kernel)) _) <|
      .cons (.file huser (Layer.eq_some_of_agrees (by decide +kernel)) _) <|
      .cons (.file hasked (Layer.eq_some_of_agrees (by decide +kernel)) _) .nil
  have hsolid : ∀ l ∈ files, Solid l := by
    simp [files, Solid]
  obtain ⟨-, -, -, -, -, hbroken, hmissing⟩ := hfound "7"
  have hload (id : String) := (load_by_topmost (s id) (some "asked")).1 files (hfiles id) hsolid
  have hseven : topmost? (files ++ [ofVariables [("Serde__Use_Schema_Id", "seven")]])
      "use_schema_id" = some (.text "seven") :=
    Value.eq_some_of_agrees (by decide +kernel)
  refine ⟨hfiles, hsolid, ((hload "7").1 _).mpr ?_, ((hload "4294967296").2 _).mpr (.inr ?_),
    ((hload "seven").2 _).mpr (.inl ⟨.int hseven (by decide +kernel), rfl⟩), ?_, ?_⟩
  · exact ⟨⟨by decide +kernel, by decide +kernel, by decide +kernel, by decide +kernel⟩, by decide⟩
  · refine ⟨{ autoRegister := false, schemaId := 4294967296, normalize := true }, ?_, ?_⟩
    · exact ⟨by decide +kernel, by decide +kernel, by decide +kernel, by decide +kernel⟩
    · decide
  · refine (load_by_topmost (s "7") (some "broken")).2.1 ⟨⟨some "broken", true⟩, ?_, ?_⟩
    · rw [hlocations]
      simp
    · exact .unreadable hbroken (Option.isNone_iff_eq_none.mp (by decide +kernel)) true
  · refine (load_by_topmost (s "7") (some "missing")).2.1 ⟨⟨some "missing", true⟩, ?_, ?_⟩
    · rw [hlocations]
      simp
    · exact .missing hmissing

end SchemaRegistry.Settings
