import Specimen.Proofs.JsonTokens
import Specimen.Proofs.DrawFailures
import Specimen.Proofs.Resolution

/-!
# Models and model files read back from JSON

A model is written with its canonical declarations, so its tokens are read as the model again
(`readModel_modelTokens`), whatever its names are. A model file is written with those settings that
it has; the reader takes them one after the other into a draft, which is complete with the fields
(`readMembersAfter_modelFile`).
-/

namespace Specimen

namespace Json

/-! ## Models -/

@[simp]
theorem characters_units (s : String) : characters (units s) = .ok s := by
  simp [characters]

/-- The tokens of a member whose value is a string. -/
def EntryTokens (entry : String × String) (ts : List Token) : Prop :=
  ∃ key value, ts = [.string key, .colon, .string value] ∧ characters key = .ok entry.1 ∧
    characters value = .ok entry.2

/-- Members that are strings are read before what follows them: by induction on the members. -/
theorem readStringsAfter_append {entries : List (String × String)} {spelled : List (List Token)}
    (h : List.Forall₂ EntryTokens entries spelled) (rest : List Token) :
    readStringsAfter (withCommas spelled ++ rest) =
      (readStringsAfter rest).map fun result => (entries ++ result.1, result.2) := by
  induction h with
  | nil =>
    rw [withCommas, List.flatMap_nil, List.nil_append]
    rcases readStringsAfter rest with _ | _ <;> rfl
  | @cons entry ts entries spelled hentry _ ih =>
    obtain ⟨key, value, rfl, hkey, hvalue⟩ := hentry
    show readStringsAfter (.comma :: .string key :: .colon :: .string value ::
      (withCommas spelled ++ rest)) = _
    rw [readStringsAfter, hkey, hvalue, ih]
    rcases readStringsAfter rest with _ | _ <;> rfl

theorem readStrings_of_entries {entries : List (String × String)} {spelled : List (List Token)}
    (h : List.Forall₂ EntryTokens entries spelled) (rest : List Token) :
    readStrings ((withCommas spelled).tail ++ .closeBrace :: rest) = .ok (entries, rest) := by
  have hread : readStringsAfter (withCommas spelled ++ .closeBrace :: rest) =
      .ok (entries, rest) := by
    rw [readStringsAfter_append h, readStringsAfter]
    exact congrArg (fun l => Except.ok (l, rest)) (List.append_nil entries)
  cases h with
  | nil => rfl
  | cons hentry _ =>
    obtain ⟨key, value, rfl, -, -⟩ := hentry
    exact hread

/-- The tokens of the values of members that are strings. -/
def stringTokens (members : List (String × String)) : List (String × List Token) :=
  members.map fun (name, s) => (name, [.string (units s)])

theorem readStrings_members (members : List (String × String)) (rest : List Token) :
    readStrings ((memberTokens (stringTokens members)).tail ++ .closeBrace :: rest) =
      .ok (members, rest) := by
  apply readStrings_of_entries
  rw [stringTokens, List.map_map, List.forall₂_map_right_iff, List.forall₂_same]
  rintro ⟨name, s⟩ -
  exact ⟨_, _, rfl, characters_units name, characters_units s⟩

/-- The tokens of a model. -/
def modelTokens (m : Model) : List Token :=
  mappingTokens (stringTokens m.declarations)

theorem spells_modelText (m : Model) : Spells (modelText m) (modelTokens m) :=
  spells_mappingText_map Prod.fst fun declaration _ => spells_quoted declaration.2

theorem readModel_modelTokens {m : Model} (h : m.Denoted) (rest : List Token) :
    readModel (modelTokens m ++ rest) = .ok (m, rest) := by
  simp [modelTokens, readModel, readStrings_members, Model.parse_declarations h]

/-! ## Model files -/

@[simp]
theorem ofName?_name (member : ModelFile.Member) :
    ModelFile.Member.ofName? member.name = some member := by
  cases member <;> decide +kernel

@[simp]
theorem readSetting_literal (expected : String) (n : UInt64) (rest : List Token) :
    readSetting expected (.number (.ofInt n.toNat) :: rest) = .ok (some n, rest) := by
  simp [readSetting]

theorem readMembersAfter_member {draft draft' : ModelFile.Draft} {member : ModelFile.Member}
    {key : List Unit} (hkey : characters key = .ok member.name) (hnew : draft.has member = false)
    {ts rest : List Token}
    (hread : readMember draft member (ts ++ rest) = .ok (draft', rest)) (fuel : Nat) :
    readMembersAfter (fuel + 1) draft (.comma :: .string key :: .colon :: (ts ++ rest)) =
      readMembersAfter fuel draft' rest := by
  simp [readMembersAfter, hkey, hnew, hread]

/-- The tokens of a member that is written only if there is a setting. -/
def settingTokens (member : ModelFile.Member) (setting : Option UInt64) :
    List (String × List Token) :=
  (setting.map fun n => (member.name, [.number (.ofInt n.toNat)])).toList

/-- The members of a model file, with the tokens of their values. -/
def fileMembers (file : ModelFile) : List (String × List Token) :=
  settingTokens .volume file.volume ++ settingTokens .seed file.seed ++
    [(ModelFile.Member.fields.name, modelTokens file.model)]

theorem spells_modelFileText (file : ModelFile) :
    Spells (modelFileText file) (mappingTokens (fileMembers file)) := by
  have hsetting : ∀ (member : ModelFile.Member) (setting : Option UInt64),
      List.Forall₂ (fun m (s : String × List Token) => m.1 = s.1 ∧ Spells m.2 s.2)
        (settingMember member.name setting) (settingTokens member setting) := by
    intro member setting
    cases setting with
    | none => exact .nil
    | some n =>
      have hn := spells_literal (Literal.wellFormed_ofInt n.toNat)
      rw [Literal.text_ofInt] at hn
      exact .cons ⟨rfl, hn⟩ .nil
  refine spells_mappingText ?_
  refine List.rel_append (List.rel_append (hsetting .volume _) (hsetting .seed _)) ?_
  exact .cons ⟨rfl, spells_modelText file.model⟩ .nil

@[simp]
theorem memberTokens_append (a b : List (String × List Token)) :
    memberTokens (a ++ b) = memberTokens a ++ memberTokens b := by
  simp [memberTokens, withCommas]

theorem length_le_memberTokens (members : List (String × List Token)) :
    members.length ≤ (memberTokens members).length := by
  have hlength := length_le_withCommas
    (members.map fun member => .string (units member.1) :: .colon :: member.2)
  rwa [List.length_map] at hlength

/-- A setting that is written is put into the draft, and the draft stays as it is without one. -/
theorem readMembersAfter_setting {draft : ModelFile.Draft} {member : ModelFile.Member}
    (hnew : draft.has member = false) (next : Option UInt64 → ModelFile.Draft)
    (hnone : next none = draft)
    (hread : ∀ n rest, readMember draft member (.number (.ofInt (UInt64.toNat n)) :: rest) =
      .ok (next (some n), rest))
    (setting : Option UInt64) (fuel : Nat) (rest : List Token) :
    readMembersAfter (fuel + (settingTokens member setting).length) draft
        (memberTokens (settingTokens member setting) ++ rest) =
      readMembersAfter fuel (next setting) rest := by
  cases setting with
  | none =>
    rw [hnone]
    rfl
  | some n => exact readMembersAfter_member (characters_units _) hnew (hread n rest) fuel

theorem readMembersAfter_volume (volume : Option UInt64) (fuel : Nat) (rest : List Token) :
    readMembersAfter (fuel + (settingTokens .volume volume).length) .empty
        (memberTokens (settingTokens .volume volume) ++ rest) =
      readMembersAfter fuel ⟨volume.map some, none, none⟩ rest := by
  refine readMembersAfter_setting rfl (fun volume => ⟨volume.map some, none, none⟩) rfl ?_ ..
  intro n rest
  simp [readMember]

theorem readMembersAfter_seed (volume : Option (Option UInt64)) (seed : Option UInt64) (fuel : Nat)
    (rest : List Token) :
    readMembersAfter (fuel + (settingTokens .seed seed).length) ⟨volume, none, none⟩
        (memberTokens (settingTokens .seed seed) ++ rest) =
      readMembersAfter fuel ⟨volume, seed.map some, none⟩ rest := by
  refine readMembersAfter_setting rfl (fun seed => ⟨volume, seed.map some, none⟩) rfl ?_ ..
  intro n rest
  simp [readMember]

theorem readMembersAfter_fields (volume seed : Option (Option UInt64)) {m : Model}
    (h : m.Denoted) (fuel : Nat) (rest : List Token) :
    readMembersAfter (fuel + 1) ⟨volume, seed, none⟩
        (memberTokens [(ModelFile.Member.fields.name, modelTokens m)] ++ rest) =
      readMembersAfter fuel ⟨volume, seed, some m⟩ rest := by
  have hread : readMember ⟨volume, seed, none⟩ .fields (modelTokens m ++ rest) =
      .ok (⟨volume, seed, some m⟩, rest) := by
    simp [readMember, readModel_modelTokens h]
  have hmember := readMembersAfter_member (characters_units _) rfl hread fuel
  simpa [memberTokens, withCommas] using hmember

/-- The members that a model file is written with are read into a draft of the file. -/
theorem readMembersAfter_modelFile {file : ModelFile} (h : file.model.Denoted) {fuel : Nat}
    (hfuel : (memberTokens (fileMembers file)).length ≤ fuel) (rest : List Token) :
    readMembersAfter fuel .empty (memberTokens (fileMembers file) ++ .closeBrace :: rest) =
      .ok (⟨file.volume.map some, file.seed.map some, some file.model⟩, rest) := by
  -- Each member that is written uses up one unit of the fuel.
  obtain ⟨k, rfl⟩ : ∃ k, fuel = k + 1 + (settingTokens .seed file.seed).length +
      (settingTokens .volume file.volume).length := by
    have hlength := length_le_memberTokens (fileMembers file)
    simp only [fileMembers, List.length_append, List.length_singleton] at hlength hfuel
    exact ⟨fuel - 1 - (settingTokens .seed file.seed).length -
      (settingTokens .volume file.volume).length, by omega⟩
  simp [fileMembers, readMembersAfter_volume, readMembersAfter_seed, readMembersAfter_fields _ _ h,
    readMembersAfter]

theorem complete_of_settings (file : ModelFile) :
    (⟨file.volume.map some, file.seed.map some, some file.model⟩ : ModelFile.Draft).complete =
      .ok file := by
  obtain ⟨volume, seed, model⟩ := file
  cases volume <;> cases seed <;> rfl

/-- A mapping that begins with a member is read as the members of a file. -/
theorem readModelFile_of_members {name : List Unit} {ts rest : List Token}
    {draft : ModelFile.Draft} {file : ModelFile}
    (hread : readMembersAfter (ts.length + 3) .empty (.comma :: .string name :: ts) =
      .ok (draft, rest))
    (hcomplete : draft.complete = .ok file) :
    readModelFile (.openBrace :: .string name :: ts) = .ok (file, rest) := by
  unfold readModelFile
  simp only [List.length_cons, hread, ok_bind, hcomplete]

theorem readModelFile_fileMembers {file : ModelFile} (h : file.model.Denoted) :
    readModelFile (mappingTokens (fileMembers file)) = .ok (file, []) := by
  obtain ⟨name, tail, hmembers⟩ : ∃ name tail,
      memberTokens (fileMembers file) = .comma :: .string name :: tail := by
    unfold fileMembers
    cases file.volume <;> cases file.seed <;> exact ⟨_, _, rfl⟩
  have hfuel : (memberTokens (fileMembers file)).length ≤
      (tail ++ [Token.closeBrace]).length + 3 := by
    rw [hmembers, List.length_append, List.length_cons, List.length_cons]
    omega
  have hread := readMembersAfter_modelFile h hfuel []
  rw [hmembers] at hread
  rw [mappingTokens, hmembers]
  exact readModelFile_of_members hread (complete_of_settings file)

theorem parse_of_spells {α : Type} {read : List Token → Except Error (α × List Token)}
    {cs : List Char} {ts : List Token} (hspells : Spells cs ts) {a : α}
    (hread : read ts = .ok (a, [])) : parse read (String.ofList cs) = .ok a := by
  rw [parse, String.toList_ofList, hspells.tokens_eq, hread]
  rfl

end Json

/-! ## Reading what is written -/

theorem Model.ofJson_toJson {m : Model} (h : m.Denoted) : Model.ofJson m.toJson = .ok m := by
  have hread := Json.readModel_modelTokens h []
  rw [List.append_nil] at hread
  exact Json.parse_of_spells (Json.spells_modelText m) hread

theorem ModelFile.ofJson_toJson {file : ModelFile} (h : file.model.Denoted) :
    ModelFile.ofJson file.toJson = .ok file :=
  Json.parse_of_spells (Json.spells_modelFileText file) (Json.readModelFile_fileMembers h)

/-- How a setting begins the text of a model file, if there is one. -/
def ModelFile.settingText (member : Member) : Option UInt64 → String
  | none => ""
  | some n => "\"" ++ member.name ++ "\":" ++ toString n.toNat ++ ","

theorem quoted_memberName (member : ModelFile.Member) :
    Json.quoted member.name = '"' :: member.name.toList ++ ['"'] := by
  cases member <;> decide +kernel

theorem joinWith_setting {name : String} {member : ModelFile.Member} (hname : name = member.name)
    (setting : Option UInt64) {items : List (List Char)} (h : items ≠ []) :
    Text.joinWith [','] ((Json.settingMember name setting).map
        (fun (name, text) => Json.quoted name ++ ':' :: text) ++ items) =
      (ModelFile.settingText member setting).toList ++ Text.joinWith [','] items := by
  cases setting with
  | none => rfl
  | some n =>
    obtain ⟨item, items, rfl⟩ := List.exists_cons_of_ne_nil h
    simp [Json.settingMember, Text.joinWith, ModelFile.settingText, hname, quoted_memberName,
      Numeral.ofNat]

theorem ModelFile.toJson_eq (file : ModelFile) :
    file.toJson = "\x7b" ++ settingText .volume file.volume ++ settingText .seed file.seed ++
      "\"fields\":" ++ file.model.toJson ++ "\x7d" := by
  have hfields : Json.quoted "fields" = "\"fields\"".toList := by decide +kernel
  have hvolume : "volume" = Member.volume.name := rfl
  have hseed : "seed" = Member.seed.name := rfl
  apply String.toList_inj.mp
  unfold toJson Json.modelFileText Json.mappingText
  rw [List.map_append, List.map_append, List.append_assoc, joinWith_setting hvolume,
    joinWith_setting hseed]
  · simp [Text.joinWith, hfields, Model.toJson]
  · simp
  · simp

/-- Models and model files are read back from the JSON that is written for them, with their fields
in order; a setting that is absent is left out of the text. A generator for the model that is read
back gives the batch that one for the written model gives. -/
theorem ModelFile.json_restores_models_and_batches :
    (∀ m : Model, m.Declared → Model.ofJson m.toJson = .ok m) ∧
      ∀ file : ModelFile, file.model.Declared →
        parse .json file.toJson = .ok file ∧
          file.toJson = "\x7b" ++ settingText .volume file.volume ++ settingText .seed file.seed ++
            "\"fields\":" ++ file.model.toJson ++ "\x7d" ∧
          ∀ {σ : Type} [RandomSource σ] (volume : UInt64) (source : σ),
            ∃ batch left,
              (⟨file.model, volume, source⟩ : Generator σ).fetchAll = .ok (batch, left) ∧
                batch.length = volume.toNat ∧
                ∀ reloaded, parse .json file.toJson = .ok reloaded →
                  (⟨reloaded.model, volume, source⟩ : Generator σ).fetchAll =
                    .ok (batch, left) := by
  constructor
  · rintro m ⟨declarations, hparse⟩
    exact Model.ofJson_toJson (Model.denoted_of_parse hparse)
  · rintro file ⟨declarations, hparse⟩
    have hdenoted : file.model.Denoted := Model.denoted_of_parse hparse
    have hread : parse .json file.toJson = .ok file :=
      mapError_eq_ok_iff.mpr (ofJson_toJson hdenoted)
    refine ⟨hread, toJson_eq file, fun volume source => ?_⟩
    have hmodel : (⟨file.model, volume, source⟩ : Generator _).model.Denoted := hdenoted
    obtain ⟨batch, left, hbatch, hlength⟩ := Generator.exists_fetchAll_eq_ok hmodel
    refine ⟨batch, _, hbatch, hlength, fun reloaded hreloaded => ?_⟩
    rw [hread] at hreloaded
    rw [← Except.ok.inj hreloaded]
    exact hbatch

/-- Names that are empty or full of escapes, with the largest settings and with none. -/
theorem ModelFile.json_restores_escaped_names :
    ∃ m, Model.parse [("", "i"), ("a\"\\\n\x00", "t:1-2w")] = .ok m ∧
      Model.ofJson m.toJson = .ok m ∧
      parse .json (⟨none, none, m⟩ : ModelFile).toJson = .ok ⟨none, none, m⟩ ∧
      (⟨none, none, m⟩ : ModelFile).toJson = "\x7b\"fields\":" ++ m.toJson ++ "\x7d" ∧
      parse .json (⟨some 18446744073709551615, some 7, m⟩ : ModelFile).toJson =
        .ok ⟨some 18446744073709551615, some 7, m⟩ ∧
      ∃ batch left, (⟨m, 3, Script.ofWords [7]⟩ : Generator Script).fetchAll = .ok (batch, left) ∧
        batch.length = 3 := by
  obtain ⟨m, hm⟩ : ∃ m, Model.parse [("", "i"), ("a\"\\\n\x00", "t:1-2w")] = .ok m := ⟨_, rfl⟩
  obtain ⟨hread, htext, hbatch⟩ := json_restores_models_and_batches.2 ⟨none, none, m⟩ ⟨_, hm⟩
  obtain ⟨batch, left, hfetch, hlength, -⟩ := hbatch 3 (Script.ofWords [7])
  exact ⟨m, hm, json_restores_models_and_batches.1 m ⟨_, hm⟩, hread, htext,
    (json_restores_models_and_batches.2 ⟨some 18446744073709551615, some 7, m⟩ ⟨_, hm⟩).1,
    batch, left, hfetch, hlength⟩

end Specimen
