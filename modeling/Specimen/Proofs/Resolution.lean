import Specimen.Config.Resolve
import Specimen.Proofs.ReadModels

/-!
# Where the settings of a generator come from

The fields of a model file and the declarations after them make the model that all of them make as
one list of declarations, the model of the file being written out (`resolve_eq_ok_iff`). Where they
make none, a fault of the declarations by themselves is reported before a name that the file has
too, and a file that cannot be loaded before both. The number of records and the seed are looked for
in the options first and then in the file (`resolve_parses_joined_declarations`).
-/

namespace Specimen

namespace Model

/-! ## One model after another -/

theorem nodup_join_iff (m : Model) {fields : List (String × FieldType)}
    (hfields : (fields.map Prod.fst).Nodup) :
    ((m.toList ++ fields).map Prod.fst).Nodup ↔ ∀ field ∈ fields, field.1 ∉ m.names := by
  rw [List.map_append, List.nodup_append]
  constructor
  · rintro ⟨-, -, hne⟩ field hfield hmem
    exact hne field.1 hmem field.1 (List.mem_map_of_mem hfield) rfl
  · intro h
    refine ⟨m.fields.distinct, hfields, ?_⟩
    rintro name hname _ hother rfl
    obtain ⟨field, hfield, rfl⟩ := List.mem_map.mp hother
    exact h field hfield hname

/-- The fields of a model after those of another: the first name that the other has is reported. -/
theorem ofTypes_join_eq_error_iff {m added : Model} {cause : ModelError} :
    ofTypes (m.toList ++ added.toList) = .error cause ↔
      ∃ name, added.names.find? (· ∈ m.names) = some name ∧ cause = .duplicateField name := by
  have hnames : added.names.find? (· ∈ m.names) =
      (added.toList.find? fun field => field.1 ∈ m.names).map Prod.fst := List.find?_map ..
  rw [hnames]
  cases hfind : added.toList.find? fun field => field.1 ∈ m.names with
  | none =>
    have hnodup : ((m.toList ++ added.toList).map Prod.fst).Nodup := by
      refine (nodup_join_iff m added.fields.distinct).mpr ?_
      intro field hfield
      simpa using List.find?_eq_none.mp hfind field hfield
    have hok : ofTypes (m.toList ++ added.toList) = .ok ⟨⟨_, hnodup⟩⟩ :=
      ofTypes_eq_ok_iff.mpr ⟨hnodup, rfl⟩
    simp [hok]
  | some field =>
    obtain ⟨hclash, before, after, hsplit, hnone⟩ := List.find?_eq_some_iff_append.mp hfind
    have hdistinct : ((before ++ field :: after).map Prod.fst).Nodup :=
      hsplit ▸ added.fields.distinct
    rw [List.map_append] at hdistinct
    have hbefore : ((m.toList ++ before).map Prod.fst).Nodup := by
      refine (nodup_join_iff m (List.nodup_append.mp hdistinct).1).mpr ?_
      intro earlier hearlier
      simpa using hnone earlier hearlier
    have hmem : field.1 ∈ (m.toList ++ before).map Prod.fst := by
      rw [List.map_append]
      exact List.mem_append_left _ (of_decide_eq_true hclash)
    rw [hsplit, ← List.append_assoc, ofTypes_of_repeated hbefore hmem, Except.error.injEq]
    simp [eq_comm]

/-- Declarations after those of a model make the model of its fields and theirs. -/
theorem parse_join_eq_ok_iff {m m' : Model} (hm : m.Denoted)
    {declarations : List (String × String)} :
    parse (m.declarations ++ declarations) = .ok m' ↔
      ∃ added, parse declarations = .ok added ∧
        ofTypes (m.toList ++ added.toList) = .ok m' := by
  constructor
  · intro h
    obtain ⟨htypes, hnodup⟩ := exists_parse_iff.mp ⟨m', h⟩
    have hown : ∃ added, parse declarations = .ok added := by
      refine exists_parse_iff.mpr ⟨?_, ?_⟩
      · intro declaration hdeclaration
        exact htypes declaration (List.mem_append_right _ hdeclaration)
      · rw [List.map_append] at hnodup
        exact (List.nodup_append.mp hnodup).2.1
    obtain ⟨added, hadded⟩ := hown
    refine ⟨added, hadded, ?_⟩
    have hdeclares := List.rel_append (declares_declarations hm) (parse_eq_ok_iff.mp hadded).1
    have hjoined : ((m.toList ++ added.toList).map Prod.fst).Nodup :=
      map_fst_of_declares hdeclares ▸ hnodup
    have hmodel : ofTypes (m.toList ++ added.toList) = .ok ⟨⟨_, hjoined⟩⟩ :=
      ofTypes_eq_ok_iff.mpr ⟨hjoined, rfl⟩
    rw [parse_eq_ok_iff_ofTypes.mpr ⟨_, hdeclares, hmodel⟩] at h
    rw [hmodel, h]
  · rintro ⟨added, hadded, hmodel⟩
    refine parse_eq_ok_iff_ofTypes.mpr ⟨_, ?_, hmodel⟩
    exact List.rel_append (declares_declarations hm) (parse_eq_ok_iff.mp hadded).1

end Model

theorem ModelFile.given_of_load {read : String → Except FileError ByteArray} {path : String}
    {file : ModelFile} (h : ModelFile.load read path = .ok file) : file.model.Given := by
  unfold ModelFile.load at h
  split at h
  · contradiction
  · rename_i format _
    obtain ⟨text, -, hparse⟩ := bind_eq_ok_iff.mp h
    cases format with
    | json => exact .jsonFile (mapError_eq_ok_iff.mp hparse)
    | yaml => exact .yamlFile (mapError_eq_ok_iff.mp hparse)

namespace ModelOptions

/-! ## A model file and declarations -/

theorem extend_eq_ok_iff {file file' : ModelFile} {added : Model} :
    extend file added = .ok file' ↔
      ∃ model, Model.ofTypes (file.model.toList ++ added.toList) = .ok model ∧
        file' = { file with model } := by
  unfold extend
  cases Model.ofTypes (file.model.toList ++ added.toList) <;> simp [eq_comm]

theorem extend_eq_error_iff {file : ModelFile} {added : Model} {e : ConfigError} :
    extend file added = .error e ↔
      ∃ cause, Model.ofTypes (file.model.toList ++ added.toList) = .error cause ∧
        e = .clash cause := by
  unfold extend
  cases Model.ofTypes (file.model.toList ++ added.toList) <;> simp [eq_comm]

section Resolve

variable {o : ModelOptions} {read : String → Except FileError ByteArray} {path : String}

theorem resolve_of_load_error {cause : ModelFileError} (hpath : o.file = some path)
    (h : ModelFile.load read path = .error cause) :
    o.resolve read = .error (.modelFile path cause) := by
  have hfile : o.loadFile read = .error (.modelFile path cause) := by
    unfold loadFile
    simp only [hpath, h]
  unfold resolve
  rw [hfile]
  rfl

theorem resolve_of_load {file : ModelFile} (hpath : o.file = some path)
    (h : ModelFile.load read path = .ok file) :
    o.resolve read = (Model.parse o.declarations).mapError .declarations >>= extend file := by
  have hfile : o.loadFile read = .ok (some file) := by
    unfold loadFile
    simp only [hpath, h]
  unfold resolve
  rw [hfile]
  rfl

/-- Without a file the declarations make the model by themselves, and the standard one if there are
none. -/
theorem resolve_without_file (hnone : o.file = none) :
    o.resolve read =
      if o.declarations = [] then .ok ⟨none, none, .standard⟩
      else match Model.parse o.declarations with
        | .ok model => .ok ⟨none, none, model⟩
        | .error cause => .error (.declarations cause) := by
  have hfile : o.loadFile read = .ok none := by
    unfold loadFile
    rw [hnone]
  unfold resolve
  rw [hfile]
  by_cases hempty : o.declarations = []
  · rw [hempty, if_pos rfl]
    rfl
  · rw [if_neg hempty]
    cases hparse : Model.parse o.declarations with
    | error cause => rfl
    | ok model =>
      have hnames := Model.map_fst_of_declares (Model.parse_eq_ok_iff.mp hparse).1
      have hfields : model.isEmpty = false := by
        cases htoList : model.toList with
        | nil =>
          rw [htoList, List.map_nil, eq_comm, List.map_eq_nil_iff] at hnames
          exact absurd hnames hempty
        | cons field fields =>
          show model.toList.isEmpty = false
          rw [htoList]
          rfl
      simp [hfields]

variable {file : ModelFile}

theorem resolve_eq_ok_iff (hpath : o.file = some path) (h : ModelFile.load read path = .ok file)
    {file' : ModelFile} :
    o.resolve read = .ok file' ↔
      ∃ model, Model.parse (file.model.declarations ++ o.declarations) = .ok model ∧
        file' = { file with model } := by
  have hdenoted := (ModelFile.given_of_load h).denoted
  rw [resolve_of_load hpath h, bind_eq_ok_iff]
  simp only [mapError_eq_ok_iff, extend_eq_ok_iff, Model.parse_join_eq_ok_iff hdenoted]
  constructor
  · rintro ⟨added, hadded, model, hmodel, hfile⟩
    exact ⟨model, ⟨added, hadded, hmodel⟩, hfile⟩
  · rintro ⟨model, ⟨added, hadded, hmodel⟩, hfile⟩
    exact ⟨added, hadded, model, hmodel, hfile⟩

/-- The declarations are at fault by themselves, or the first of their names that the file has is
reported. -/
theorem resolve_eq_error_iff (hpath : o.file = some path)
    (h : ModelFile.load read path = .ok file) {e : ConfigError} :
    o.resolve read = .error e ↔
      (∃ k cause, Model.FirstFault o.declarations k cause ∧ e = .declarations cause) ∨
        ∃ added name, Model.parse o.declarations = .ok added ∧
          (o.declarations.map Prod.fst).find? (· ∈ file.model.names) = some name ∧
          e = .clash (.duplicateField name) := by
  rw [resolve_of_load hpath h, bind_eq_error_iff]
  simp only [mapError_eq_ok_iff, mapError_eq_error_iff, extend_eq_error_iff,
    Model.ofTypes_join_eq_error_iff, Model.parse_eq_error_iff]
  constructor
  · rintro (⟨cause, ⟨k, hfault⟩, rfl⟩ | ⟨added, hadded, cause, ⟨name, hclash, rfl⟩, rfl⟩)
    · exact Or.inl ⟨k, cause, hfault, rfl⟩
    · have hnames : added.names = o.declarations.map Prod.fst :=
        Model.map_fst_of_declares (Model.parse_eq_ok_iff.mp hadded).1
      exact Or.inr ⟨added, name, hadded, hnames ▸ hclash, rfl⟩
  · rintro (⟨k, cause, hfault, rfl⟩ | ⟨added, name, hadded, hclash, rfl⟩)
    · exact Or.inl ⟨cause, ⟨k, hfault⟩, rfl⟩
    · have hnames : added.names = o.declarations.map Prod.fst :=
        Model.map_fst_of_declares (Model.parse_eq_ok_iff.mp hadded).1
      exact Or.inr ⟨added, hadded, _, ⟨name, hnames ▸ hclash, rfl⟩, rfl⟩

theorem names_of_resolve (hpath : o.file = some path) (h : ModelFile.load read path = .ok file)
    {file' : ModelFile} (hresolve : o.resolve read = .ok file') :
    file'.model.names = file.model.names ++ o.declarations.map Prod.fst := by
  obtain ⟨model, hparse, rfl⟩ := (resolve_eq_ok_iff hpath h).mp hresolve
  have hnames := Model.map_fst_of_declares (Model.parse_eq_ok_iff.mp hparse).1
  have hdeclared : file.model.declarations.map Prod.fst = file.model.names := by
    show (file.model.toList.map _).map Prod.fst = file.model.toList.map Prod.fst
    rw [List.map_map]
    rfl
  rw [List.map_append, hdeclared] at hnames
  exact hnames

theorem resolve_without_declarations (hpath : o.file = some path)
    (h : ModelFile.load read path = .ok file) (hempty : o.declarations = []) :
    o.resolve read = .ok file := by
  have hdenoted := (ModelFile.given_of_load h).denoted
  refine (resolve_eq_ok_iff hpath h).mpr ⟨file.model, ?_, rfl⟩
  rw [hempty, List.append_nil]
  exact Model.parse_eq_ok_iff_ofTypes.mpr
    ⟨_, Model.declares_declarations hdenoted, Model.ofTypes_toList _⟩

end Resolve

end ModelOptions

/-! ## The generator of a resolution -/

namespace GenerateOptions

variable {o : GenerateOptions} {read : String → Except FileError ByteArray}
  {key : Vector UInt32 8}

theorem generator_of_resolve_error {e : ConfigError} (h : o.model.resolve read = .error e) :
    o.generator read key = .error e := by
  unfold generator
  rw [h]
  rfl

/-- The settings of the options count before those of the file, and without either there are twenty
records from a source without seed. -/
theorem generator_of_resolve {file : ModelFile} (h : o.model.resolve read = .ok file) :
    o.generator read key = .ok {
      model := file.model
      volume := match o.volume, file.volume with
        | some n, _ => n
        | none, some n => n
        | none, none => 20
      source := match o.seed, file.seed with
        | some seed, _ => .ofSeed seed
        | none, some seed => .ofSeed seed
        | none, none => .ofKey key } := by
  unfold generator
  simp only [h, ok_bind]
  cases o.volume <;> cases file.volume <;> cases o.seed <;> cases file.seed <;> rfl

end GenerateOptions

/-! ## Resolution as parsing -/

/-- A file that cannot be loaded is reported whatever is declared. A file that is loaded gives, with
declarations after it, the model that its own declarations and these make as one list, under the
same settings; it fails for the first fault of the declarations by themselves, and if they have none
for the first of their names that the file has. Without a file the declarations make the model, and
the standard one if there are none, but a file without fields stays without fields. The generator
takes each setting from the options, else from the file. -/
theorem ModelOptions.resolve_parses_joined_declarations
    (read : String → Except FileError ByteArray) :
    (∀ (o : ModelOptions) (path : String), o.file = some path →
      (∀ cause, ModelFile.load read path = .error cause →
        o.resolve read = .error (.modelFile path cause)) ∧
      ∀ file, ModelFile.load read path = .ok file →
        (∀ file', o.resolve read = .ok file' ↔
          ∃ model, Model.parse (file.model.declarations ++ o.declarations) = .ok model ∧
            file' = { file with model }) ∧
        (∀ file', o.resolve read = .ok file' →
          file'.model.names = file.model.names ++ o.declarations.map Prod.fst) ∧
        (∀ e, o.resolve read = .error e ↔
          (∃ k cause, Model.FirstFault o.declarations k cause ∧ e = .declarations cause) ∨
            ∃ added name, Model.parse o.declarations = .ok added ∧
              (o.declarations.map Prod.fst).find? (· ∈ file.model.names) = some name ∧
              e = .clash (.duplicateField name)) ∧
        (o.declarations = [] → o.resolve read = .ok file)) ∧
    (∀ o : ModelOptions, o.file = none →
      o.resolve read =
        if o.declarations = [] then .ok ⟨none, none, .standard⟩
        else match Model.parse o.declarations with
          | .ok model => .ok ⟨none, none, model⟩
          | .error cause => .error (.declarations cause)) ∧
    ∀ (o : GenerateOptions) (key : Vector UInt32 8),
      (∀ e, o.model.resolve read = .error e → o.generator read key = .error e) ∧
      ∀ file, o.model.resolve read = .ok file →
        o.generator read key = .ok {
          model := file.model
          volume := match o.volume, file.volume with
            | some n, _ => n
            | none, some n => n
            | none, none => 20
          source := match o.seed, file.seed with
            | some seed, _ => .ofSeed seed
            | none, some seed => .ofSeed seed
            | none, none => .ofKey key } := by
  refine ⟨fun o path hpath => ⟨fun cause h => resolve_of_load_error hpath h, fun file h => ?_⟩,
    fun o hnone => resolve_without_file hnone, fun o key => ⟨fun e h => ?_, fun file h => ?_⟩⟩
  · exact ⟨fun file' => resolve_eq_ok_iff hpath h, fun file' => names_of_resolve hpath h,
      fun e => resolve_eq_error_iff hpath h, resolve_without_declarations hpath h⟩
  · exact GenerateOptions.generator_of_resolve_error h
  · exact GenerateOptions.generator_of_resolve h

/-- A file of one field and a seed: with another field it gives a model of both and its seed; a name
of its own that is declared again is reported, but not before a refused type string that comes after
it. -/
theorem ModelOptions.resolve_roll_and_photo :
    let read : String → Except FileError ByteArray := fun _ =>
      .ok "seed: 7\nfields:\n  roll: i:1-6\n".toUTF8
    let options : List (String × String) → ModelOptions := fun declarations =>
      ⟨some "dice.yaml", declarations⟩
    (∃ file, (options [("photo", "p:40*30")]).resolve read = .ok file ∧
        file.model.names = ["roll", "photo"] ∧ file.seed = some 7) ∧
      (options [("roll", "i")]).resolve read = .error (.clash (.duplicateField "roll")) ∧
      (options [("roll", "i"), ("photo", "x")]).resolve read =
        .error (.declarations (.invalidField "photo" "x" (.unsupportedCode "x"))) := by
  intro read options
  have hload : ModelFile.load read "dice.yaml" = .ok
      ⟨none, some 7, ⟨⟨[("roll", .integer ⟨1, 6, by decide⟩)], by decide⟩⟩⟩ := by
    cbv
  have hresolves := fun declarations =>
    ((resolve_parses_joined_declarations read).1 (options declarations) _ rfl).2 _ hload
  refine ⟨?_, ?_, ?_⟩
  · obtain ⟨hok, hnames, -⟩ := hresolves [("photo", "p:40*30")]
    have hjoined := (hok _).mpr ⟨_, rfl, rfl⟩
    exact ⟨_, hjoined, hnames _ hjoined, rfl⟩
  · obtain ⟨-, -, herror, -⟩ := hresolves [("roll", "i")]
    exact (herror _).mpr (Or.inr ⟨_, "roll", rfl, by decide, rfl⟩)
  · obtain ⟨-, -, herror, -⟩ := hresolves [("roll", "i"), ("photo", "x")]
    have hparse : Model.parse [("roll", "i"), ("photo", "x")] =
        .error (.invalidField "photo" "x" (.unsupportedCode "x")) := rfl
    obtain ⟨k, hfault⟩ := Model.parse_eq_error_iff.mp hparse
    exact (herror _).mpr (Or.inl ⟨k, _, hfault, rfl⟩)

end Specimen
