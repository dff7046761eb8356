import SchemaRegistry.Proofs.Directory
import SchemaRegistry.Proofs.Settings.Layered
import SchemaRegistry.Proofs.Toml.Assignment

/-!
Settings that are saved and loaded again. The text of a saved file is read as a layer with all four
values. Above any other layers it hides what these say, under whichever case of a name they say it.
-/

namespace SchemaRegistry.Settings

open Toml (Assignment isBareChar isWordChar)

variable {c : Settings} {s : Surroundings} {path : String}

/-! ### The text of a file -/

def boolAssignment (key : String) (hne : key.toList ≠ []) (hbare : key.toList.all isBareChar)
    (b : Bool) : Assignment where
  key := key
  word := boolText b
  value := .bool b
  key_ne_nil := hne
  isBare := List.all_eq_true.mp hbare
  isWord := List.all_eq_true.mp (by cases b <;> decide)
  reads := by cases b <;> rfl

def intAssignment (key : String) (hne : key.toList ≠ []) (hbare : key.toList.all isBareChar)
    (i : Int64) : Assignment where
  key := key
  word := Text.ofInt i.toInt
  value := .int i
  key_ne_nil := hne
  isBare := List.all_eq_true.mp hbare
  isWord := fun _ => Toml.isWordChar_of_mem_ofInt
  reads := Toml.ofWord?_ofInt i

def assignments (c : Settings) : List Assignment :=
  [boolAssignment "auto_register_schemas" (by decide) (by decide) c.autoRegister,
    intAssignment "use_schema_id" (by decide) (by decide) c.schemaId,
    boolAssignment "use_latest_version" (by decide) (by decide) c.latestVersion,
    boolAssignment "normalize_schemas" (by decide) (by decide) c.normalize]

lemma toList_toml (c : Settings) : c.toml.toList = Assignment.lines c.assignments :=
  String.toList_join

/-- All values, by name. -/
def layer (c : Settings) : Layer :=
  [("auto_register_schemas", .bool c.autoRegister), ("use_schema_id", .int c.schemaId),
    ("use_latest_version", .bool c.latestVersion), ("normalize_schemas", .bool c.normalize)]

/-- **What is saved is read back.** -/
theorem parse?_toml (c : Settings) : FileFormat.toml.parse? c.toml = some c.layer := by
  have hnodup : (c.assignments.map Assignment.key).Nodup := by
    change ["auto_register_schemas", "use_schema_id", "use_latest_version",
      "normalize_schemas"].Nodup
    decide
  rw [FileFormat.parse?, Toml.parse?_lines hnodup c.toList_toml]
  rfl

/-! ### Above other layers -/

lemma map_said_layer (c : Settings) : c.layer.map said = c.layer := by
  have hnames : ∀ name ∈ ["auto_register_schemas", "use_schema_id", "use_latest_version",
      "normalize_schemas"], lower name = name ∧ stepped? name = none := by
    decide
  refine List.map_congr_left (fun e he => ?_) |>.trans c.layer.map_id
  obtain ⟨hlower, hplain⟩ := hnames e.1 (List.mem_map_of_mem he)
  simp only [said, hlower, hplain, id]

lemma solid_layer (c : Settings) : Solid c.layer := by
  simp [Solid, layer]

lemma convert_of_get? {α : Type} {vs : Values} {name : String} {v : Value} {a : α}
    {read? : Value → Option α} (hget : vs.get? name = some v) (hread : read? v = some a)
    (default : α) : convert vs name read? default = .ok a := by
  simp only [convert, hget, hread]

lemma ofValues_overlay_layer (vs : Values) (c : Settings) :
    ofValues (overlay vs c.layer) = validate c := by
  have hget {name : String} {v : Value} (h : (Table.ofList c.layer).get? name = some v) :
      (vs.insertAll c.layer).get? name = some v := by
    rw [Table.get?_insertAll, h]
    rfl
  have hregister : convert (vs.insertAll c.layer) "auto_register_schemas" Value.toBool? true =
      .ok c.autoRegister := convert_of_get? (v := .bool c.autoRegister) (hget rfl) (by rfl) true
  have hid : convert (vs.insertAll c.layer) "use_schema_id" Value.toInt? (-1) =
      .ok c.schemaId := convert_of_get? (v := .int c.schemaId) (hget rfl) (by rfl) (-1)
  have hlatest : convert (vs.insertAll c.layer) "use_latest_version" Value.toBool? false =
      .ok c.latestVersion := convert_of_get? (v := .bool c.latestVersion) (hget rfl) (by rfl) false
  have hnormalize : convert (vs.insertAll c.layer) "normalize_schemas" Value.toBool? false =
      .ok c.normalize := convert_of_get? (v := .bool c.normalize) (hget rfl) (by rfl) false
  rw [overlay_eq_insertAll c.solid_layer, map_said_layer, ofValues_eq_assemble, hregister, hid,
    hlatest, hnormalize]
  rfl

/-! ### Loading -/

lemma save_eq_ok_iff {d d' : Directory} {here : List String} :
    c.save d path here = .ok d' ↔ d.write? here path c.toml = some d' := by
  unfold save
  cases d.write? here path c.toml <;> simp

lemma fileLayer_of_saved (hfile : s.entry? path = some (.file c.toml))
    (hformat : extension? path = some "toml") (required : Bool) :
    fileLayer s required path = .ok c.layer := by
  have hread : s.read? path = some c.toml := by
    rw [Surroundings.read?, hfile]
  have htoml : formatOf? path = some .toml := by
    rw [formatOf?, hformat]
    rfl
  simp only [fileLayer, hread, htoml, parse?_toml]

lemma exists_mapM_eq_ok {ε α β : Type} {f : α → Except ε β} {as : List α}
    (h : ∀ a ∈ as, (f a).isOk) : ∃ bs, as.mapM f = .ok bs := by
  cases has : as.mapM f with
  | ok bs => exact ⟨bs, rfl⟩
  | error e =>
    obtain ⟨a, ha, hfails⟩ := exists_of_mapM_eq_error has
    have hok := h a ha
    rw [hfails] at hok
    cases hok

/-- Each file that is looked for without being asked for can be read, or is not there. -/
structure Readable (s : Surroundings) : Prop where
  defaults : ∀ p ∈ defaultPaths, (fileLayer s false p).isOk
  user : (userLayer s).isOk

lemma ofVariables_eq_nil {pairs : List (String × String)}
    (h : ∀ v ∈ pairs, ofVariableName? v.1 = none) : ofVariables pairs = [] := by
  rw [ofVariables, List.filterMap_eq_nil_iff]
  rintro ⟨name, text⟩ hv
  simp only [h _ hv]
  rfl

lemma load_of_saved (hfile : s.entry? path = some (.file c.toml))
    (hformat : extension? path = some "toml") (hothers : Readable s)
    (hvariables : ∀ v ∈ s.variables, ofVariableName? v.1 = none) :
    load s (some path) = validate c := by
  obtain ⟨defaults, hdefaults⟩ := exists_mapM_eq_ok hothers.defaults
  have huser := hothers.user
  cases hlayer : userLayer s with
  | error e =>
    rw [hlayer] at huser
    cases huser
  | ok user =>
    have hlayers : layers s (some path) = .ok (defaults ++ [user, c.layer, []]) := by
      simp only [layers, hdefaults, hlayer, fileLayer_of_saved hfile hformat,
        ofVariables_eq_nil hvariables]
      rfl
    have hempty : ∀ vs, overlay vs [] = vs := fun _ => rfl
    rw [load, hlayers]
    change ofValues (merged (defaults ++ [user, c.layer, []])) = _
    simp only [merged, List.foldl_append, List.foldl_cons, List.foldl_nil, hempty,
      ofValues_overlay_layer]

/-- **Saved settings are loaded again**, if their ID is one that a schema can have; if not, the error
names it. Nothing that other files say shows, as long as they can be read, and the saved file is one
that can be. The path may be one from the root or from any working directory. -/
theorem load_of_save {d d' : Directory} {here : List String} (hsave : c.save d path here = .ok d')
    (hformat : extension? path = some "toml") (hfound : s.entry? path = d'.entry? here path)
    (hothers : Readable s) (hvariables : ∀ v ∈ s.variables, ofVariableName? v.1 = none) :
    load s (some path) =
      if c.schemaId.toInt ≤ 4294967295 then .ok c
      else .error (.option "use.schema.id" "schema id in 0..=4294967295 or negative"
        (Text.ofInt c.schemaId.toInt)) := by
  have hfile : s.entry? path = some (.file c.toml) := by
    rw [hfound, Directory.entry?_write? (save_eq_ok_iff.mp hsave), if_pos rfl]
  rw [load_of_saved hfile hformat hothers hvariables, validate]
  by_cases hle : c.schemaId.toInt ≤ maxId
  · rw [if_neg (Int.not_lt.mpr hle)]
    exact (if_pos hle).symm
  · rw [if_pos (Int.not_le.mp hle)]
    exact (if_neg hle).symm

/-- The greatest ID, saved in an empty directory by its path from the root, and the one after it,
saved there by a path that leaves the working directory. The files that are looked for there have the
same names in other cases and values of other types. -/
theorem load_of_save_of_greatest_ids :
    let d : Directory := ⟨.ofList [
      (["work", "serde.toml"], "Use_Schema_Id = [1]\n\"normalize_schemas.x\" = \"maybe\"\n"),
      (["work", ".serde.toml"], "USE_LATEST_VERSION = 1979-05-27\n[auto_register_schemas]\n"),
      (["work", "config", "serde.toml"], "use_schema_id = \"none\"\n"),
      (["home", "serde.toml"], "use_schema_id = 7\nNORMALIZE_SCHEMAS = 0\n"),
      (["tmp", "new"], .directory)]⟩
    let after (c : Settings) : Directory := ⟨d.entries.insert ["tmp", "new", "saved.toml"] c.toml⟩
    let s (c : Settings) : Surroundings := {
      entry? := Directory.entry? (after c) ["work"]
      userFile? := some "/home/serde.toml"
      «variables» := [("SERDE_USE_SCHEMA_ID", "7")] }
    let c : Settings := { autoRegister := false, schemaId := 4294967295, normalize := true }
    let c' : Settings := { schemaId := 4294967296 }
    let path := "/tmp/new/saved.toml"
    let path' := "../tmp/./new/saved.toml"
    (c.save d path ["work"] = .ok (after c) ∧ Readable (s c) ∧ load (s c) (some path) = .ok c) ∧
      c'.save d path' ["work"] = .ok (after c') ∧ Readable (s c') ∧ load (s c') (some path') =
        .error (.option "use.schema.id" "schema id in 0..=4294967295 or negative" "4294967296") := by
  intro d after s c c' path path'
  obtain ⟨hpath, hpath', hnew⟩ : d.follow? ["work"] path = some ["tmp", "new", "saved.toml"] ∧
      d.follow? ["work"] path' = some ["tmp", "new", "saved.toml"] ∧
      d.isDirectory ["tmp", "new", "saved.toml"] = false := by
    decide +kernel
  have hsave : c.save d path ["work"] = .ok (after c) :=
    save_eq_ok_iff.mpr (Directory.write?_eq_some_iff.mpr ⟨_, hpath, hnew, rfl⟩)
  have hsave' : c'.save d path' ["work"] = .ok (after c') :=
    save_eq_ok_iff.mpr (Directory.write?_eq_some_iff.mpr ⟨_, hpath', hnew, rfl⟩)
  have hreadable : Readable (s c) ∧ Readable (s c') := by
    refine ⟨⟨?_, ?_⟩, ⟨?_, ?_⟩⟩ <;> decide +kernel
  have hvariables (c : Settings) : ∀ v ∈ (s c).variables, ofVariableName? v.1 = none := by
    show ∀ v ∈ [("SERDE_USE_SCHEMA_ID", "7")], ofVariableName? v.1 = none
    decide
  have hvalid := load_of_save hsave (by decide) rfl hreadable.1 (hvariables c)
  have hinvalid := load_of_save hsave' (by decide) rfl hreadable.2 (hvariables c')
  have hfound : Text.ofInt c'.schemaId.toInt = "4294967296" := by decide
  rw [if_pos (by decide)] at hvalid
  rw [if_neg (by decide), hfound] at hinvalid
  exact ⟨⟨hsave, hreadable.1, hvalid⟩, hsave', hreadable.2, hinvalid⟩

end SchemaRegistry.Settings
