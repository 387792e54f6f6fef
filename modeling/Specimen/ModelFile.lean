import Specimen.Decode.Error

/-!
# Model files

A model file holds a model with the settings to generate from it: how many records make a batch, and
the seed of the random source. Both settings may be absent.
-/

namespace Specimen

/-- A model with its settings. -/
structure ModelFile where
  volume : Option UInt64
  seed : Option UInt64
  model : Model
  deriving DecidableEq

namespace ModelFile

/-- The model file that is read so far, member by member. An absent member differs from one without
a value, which counts when a name comes twice. -/
structure Draft where
  volume : Option (Option UInt64)
  seed : Option (Option UInt64)
  model : Option Model

namespace Draft

def empty : Draft :=
  ⟨none, none, none⟩

end Draft

/-- The members of a model file. -/
inductive Member where
  | volume
  | seed
  | fields
  deriving DecidableEq, Repr

namespace Member

def name : Member → String
  | volume => "volume"
  | seed => "seed"
  | fields => "fields"

/-- The member of a name; other names are ignored. -/
def ofName? (s : String) : Option Member :=
  [volume, seed, fields].find? (·.name == s)

end Member

/-- Whether a member is already read. -/
def Draft.has (draft : Draft) : Member → Bool
  | .volume => draft.volume.isSome
  | .seed => draft.seed.isSome
  | .fields => draft.model.isSome

/-- The model file of what is read, unless the model is missing. -/
def Draft.complete (draft : Draft) : Except DecodeError ModelFile :=
  match draft.model with
  | some model => .ok ⟨draft.volume.join, draft.seed.join, model⟩
  | none => .error (.missingField Member.fields.name)

end ModelFile

end Specimen
