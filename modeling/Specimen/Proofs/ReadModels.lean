import Specimen.Json.Reader
import Specimen.Proofs.Declarations
import Specimen.Yaml.Reader

/-!
# Where models come from

A model that is read from JSON or YAML, by itself or as a part of a model file, is the model of
declarations: the readers collect names with type strings and leave the rest to `Model.parse`. What
holds of the models of declarations therefore holds of all that are read (`Model.Given.declared`).
-/

namespace Specimen

/-- Whether declarations, each a name and a type string, have this model. -/
def Model.Declared (m : Model) : Prop :=
  ∃ declarations, Model.parse declarations = .ok m

/-- Whether the model that is read so far, if there is one, has declarations. -/
def ModelFile.Draft.Declared (draft : ModelFile.Draft) : Prop :=
  ∀ m, draft.model = some m → m.Declared

theorem ModelFile.Draft.declared_empty : ModelFile.Draft.empty.Declared := by
  intro m h
  simp [ModelFile.Draft.empty] at h

theorem ModelFile.Draft.Declared.complete {draft : ModelFile.Draft} {file : ModelFile}
    (hd : draft.Declared) (h : draft.complete = .ok file) : file.model.Declared := by
  unfold ModelFile.Draft.complete at h
  split at h
  · rename_i m hm
    simp only [Except.ok.injEq] at h
    rw [← h]
    exact hd m hm
  · simp at h

/-- A member that is read and put into the draft: the model of the draft is declared then if it is
so whatever is read. -/
theorem declared_of_put {ε α β : Type} {x : Except ε (α × β)} {put : α × β → ModelFile.Draft}
    {draft : ModelFile.Draft} {rest : β}
    (h : x >>= (fun member => .ok (put member, member.2)) = .ok (draft, rest))
    (hput : ∀ member, x = .ok member → (put member).Declared) : draft.Declared := by
  obtain ⟨member, hx, h⟩ := bind_eq_ok_iff.mp h
  simp only [Except.ok.injEq, Prod.mk.injEq] at h
  exact h.1 ▸ hput member hx

theorem declared_of_complete_match {ε β : Type} {draft : ModelFile.Draft} {file : ModelFile}
    {after rest : β} {refuse : DecodeError → ε} (hd : draft.Declared)
    (h : (match draft.complete with
      | .ok file => Except.ok (file, after)
      | .error cause => .error (refuse cause)) = .ok (file, rest)) : file.model.Declared := by
  split at h
  · rename_i complete hcomplete
    simp only [Except.ok.injEq, Prod.mk.injEq] at h
    rw [← h.1]
    exact hd.complete hcomplete
  · simp at h

theorem declared_of_parse_match {ε β : Type} {declarations : List (String × String)} {m : Model}
    {after rest : β} {refuse : ModelError → ε}
    (h : (match Model.parse declarations with
      | .ok model => Except.ok (model, after)
      | .error cause => .error (refuse cause)) = .ok (m, rest)) : m.Declared := by
  split at h
  · rename_i model hparse
    simp only [Except.ok.injEq, Prod.mk.injEq] at h
    exact ⟨declarations, h.1 ▸ hparse⟩
  · simp at h

namespace Json

/-! ## JSON -/

theorem readModel_declared {ts rest : List Token} {m : Model}
    (h : readModel ts = .ok (m, rest)) : m.Declared := by
  unfold readModel at h
  split at h
  · obtain ⟨⟨declarations, after⟩, -, h⟩ := bind_eq_ok_iff.mp h
    exact declared_of_parse_match h
  · simp at h

theorem readMember_declared {draft draft' : ModelFile.Draft} {member : ModelFile.Member}
    {ts rest : List Token} (hd : draft.Declared)
    (h : readMember draft member ts = .ok (draft', rest)) : draft'.Declared := by
  cases member with
  | volume =>
    dsimp only [readMember] at h
    refine declared_of_put h ?_
    exact fun _ _ => hd
  | seed =>
    dsimp only [readMember] at h
    refine declared_of_put h ?_
    exact fun _ _ => hd
  | fields =>
    dsimp only [readMember] at h
    refine declared_of_put h ?_
    intro member hmodel m hm
    simp only [Option.some.injEq] at hm
    exact hm ▸ readModel_declared hmodel

/-- Reading on keeps the model of the draft declared: by induction on the members left to read. -/
theorem readMembersAfter_declared {fuel : Nat} {draft draft' : ModelFile.Draft}
    {ts rest : List Token} (hd : draft.Declared)
    (h : readMembersAfter fuel draft ts = .ok (draft', rest)) : draft'.Declared := by
  induction fuel, draft, ts using readMembersAfter.induct with
  | case1 fuel draft ts =>
    simp only [readMembersAfter, Except.ok.injEq, Prod.mk.injEq] at h
    exact h.1 ▸ hd
  | case2 fuel draft key ts ihSkip ihRead =>
    unfold readMembersAfter at h
    obtain ⟨name, -, h⟩ := bind_eq_ok_iff.mp h
    dsimp only at h
    -- A name that is no member is skipped with its value, a member that comes twice is refused.
    split at h
    · split at h
      · split at h
        · exact ihSkip _ hd h
        · simp at h
      · simp at h
    · split at h
      · simp at h
      · split at h
        · obtain ⟨⟨next, after⟩, hmember, h⟩ := bind_eq_ok_iff.mp h
          exact ihRead next after (readMember_declared hd hmember) h
        · simp at h
  | case3 fuel draft ts hclose hcomma =>
    rw [readMembersAfter] at h
    · simp at h
    · exact hclose
    · exact hcomma

theorem readSequence_declared {ts rest : List Token} {file : ModelFile}
    (h : readSequence ts = .ok (file, rest)) : file.model.Declared := by
  unfold readSequence at h
  split at h
  · simp at h
  · obtain ⟨⟨volume, afterVolume⟩, -, h⟩ := bind_eq_ok_iff.mp h
    simp only at h
    split at h
    · simp at h
    · obtain ⟨⟨seed, afterSeed⟩, -, h⟩ := bind_eq_ok_iff.mp h
      simp only at h
      split at h
      · simp at h
      · obtain ⟨⟨model, afterModel⟩, hmodel, h⟩ := bind_eq_ok_iff.mp h
        simp only at h
        split at h
        · simp only [Except.ok.injEq, Prod.mk.injEq] at h
          rw [← h.1]
          exact readModel_declared hmodel
        · simp at h
      · simp at h
    · simp at h

theorem readModelFile_declared {ts rest : List Token} {file : ModelFile}
    (h : readModelFile ts = .ok (file, rest)) : file.model.Declared := by
  unfold readModelFile at h
  split at h
  · exact readSequence_declared h
  · obtain ⟨⟨draft, after⟩, hmembers, h⟩ := bind_eq_ok_iff.mp h
    exact declared_of_complete_match
      (readMembersAfter_declared ModelFile.Draft.declared_empty hmembers) h
  · simp at h

theorem exists_read_of_parse {α : Type} {read : List Token → Except Error (α × List Token)}
    {text : String} {a : α} (h : parse read text = .ok a) :
    read (tokens text.toList) = .ok (a, []) := by
  unfold parse at h
  cases hread : read (tokens text.toList) with
  | error cause => simp [hread, complete] at h
  | ok result =>
    obtain ⟨b, rest⟩ := result
    cases rest with
    | nil =>
      simp only [hread, complete, Except.ok.injEq] at h
      rw [h]
    | cons t rest => simp [hread, complete] at h

end Json

namespace Yaml

/-! ## YAML -/

section Document

variable {d : Document}

theorem readModel_declared {path : List String} {ps rest : List Part} {m : Model}
    (h : readModel d path ps = .ok (m, rest)) : m.Declared := by
  unfold readModel at h
  split at h
  · simp at h
  · dsimp only at h
    split at h
    · obtain ⟨⟨declarations, after⟩, -, h⟩ := bind_eq_ok_iff.mp h
      exact declared_of_parse_match h
    · split at h
      · obtain ⟨⟨declarations, after⟩, -, h⟩ := bind_eq_ok_iff.mp h
        exact declared_of_parse_match h
      · simp at h

theorem readMember_declared {path : List String} {draft draft' : ModelFile.Draft}
    {member : ModelFile.Member} {ps rest : List Part} (hd : draft.Declared)
    (h : readMember d path draft member ps = .ok (draft', rest)) : draft'.Declared := by
  cases member with
  | volume =>
    dsimp only [readMember] at h
    refine declared_of_put h ?_
    exact fun _ _ => hd
  | seed =>
    dsimp only [readMember] at h
    refine declared_of_put h ?_
    exact fun _ _ => hd
  | fields =>
    dsimp only [readMember] at h
    refine declared_of_put h ?_
    intro member hmodel m hm
    simp only [Option.some.injEq] at hm
    exact hm ▸ readModel_declared hmodel

/-- Reading on keeps the model of the draft declared: by induction on the members left to read. -/
theorem readMembers_declared {fuel : Nat} {draft draft' : ModelFile.Draft} {ps rest : List Part}
    (hd : draft.Declared) (h : readMembers d fuel draft ps = .ok (draft', rest)) :
    draft'.Declared := by
  induction fuel, draft, ps using readMembers.induct with
  | case1 fuel draft ps =>
    simp only [readMembers, Except.ok.injEq, Prod.mk.injEq] at h
    exact h.1 ▸ hd
  | case2 fuel draft p ps hend ihSkip ihRead =>
    rw [readMembers] at h
    · obtain ⟨⟨name, after⟩, -, h⟩ := bind_eq_ok_iff.mp h
      simp only at h
      -- As for JSON: no member, a member that comes twice, a new member.
      split at h
      · split at h
        · exact ihSkip _ hd h
        · simp at h
      · split at h
        · simp at h
        · obtain ⟨⟨next, after⟩, hmember, h⟩ := bind_eq_ok_iff.mp h
          exact ihRead next after (readMember_declared hd hmember) h
    · exact hend
  | case3 fuel draft ps hend hpart =>
    rw [readMembers] at h
    · simp at h
    · exact hend
    · exact hpart

theorem readModelFile_declared {ps rest : List Part} {file : ModelFile}
    (h : readModelFile d ps = .ok (file, rest)) : file.model.Declared := by
  unfold readModelFile at h
  split at h
  · simp at h
  · dsimp only at h
    split at h
    · obtain ⟨⟨draft, after⟩, hmembers, h⟩ := bind_eq_ok_iff.mp h
      exact declared_of_complete_match
        (readMembers_declared ModelFile.Draft.declared_empty hmembers) h
    · split at h
      · obtain ⟨⟨draft, after⟩, hempty, h⟩ := bind_eq_ok_iff.mp h
        simp only [Except.ok.injEq, Prod.mk.injEq] at hempty
        exact declared_of_complete_match (hempty.1 ▸ ModelFile.Draft.declared_empty) h
      · simp at h

end Document

theorem exists_read_of_parse {α : Type} {read : Document → List Part → Except Error (α × List Part)}
    {text : String} {a : α} (h : parse read text = .ok a) :
    ∃ rest, read (Document.ofText text) (Document.ofText text).parts = .ok (a, rest) := by
  obtain ⟨⟨b, rest⟩, hread, h⟩ := bind_eq_ok_iff.mp h
  simp only at h
  split at h
  · simp only [Except.ok.injEq] at h
    exact ⟨rest, h ▸ hread⟩
  · simp at h

end Yaml

/-! ## Models that are given -/

/-- The models that are given to a generator: those of declarations, the standard one, and those
that are read from JSON or YAML, by themselves or in a model file. -/
inductive Model.Given : Model → Prop where
  | declarations {declarations : List (String × String)} {m : Model}
      (h : Model.parse declarations = .ok m) : Given m
  | standard : Given .standard
  | json {text : String} {m : Model} (h : Model.ofJson text = .ok m) : Given m
  | yaml {text : String} {m : Model} (h : Model.ofYaml text = .ok m) : Given m
  | jsonFile {text : String} {file : ModelFile} (h : ModelFile.ofJson text = .ok file) :
      Given file.model
  | yamlFile {text : String} {file : ModelFile} (h : ModelFile.ofYaml text = .ok file) :
      Given file.model

theorem Model.parse_standardDeclarations : Model.parse standardDeclarations = .ok standard := by
  rfl

/-- Every model that is given has declarations. -/
theorem Model.Given.declared {m : Model} (h : m.Given) : m.Declared := by
  cases h with
  | declarations h => exact ⟨_, h⟩
  | standard => exact ⟨_, Model.parse_standardDeclarations⟩
  | json h => exact Json.readModel_declared (Json.exists_read_of_parse h)
  | yaml h =>
    obtain ⟨rest, hread⟩ := Yaml.exists_read_of_parse h
    exact Yaml.readModel_declared hread
  | jsonFile h => exact Json.readModelFile_declared (Json.exists_read_of_parse h)
  | yamlFile h =>
    obtain ⟨rest, hread⟩ := Yaml.exists_read_of_parse h
    exact Yaml.readModelFile_declared hread

theorem Model.Given.denoted {m : Model} (h : m.Given) : m.Denoted := by
  obtain ⟨declarations, hparse⟩ := h.declared
  exact Model.denoted_of_parse hparse

end Specimen
