import Specimen.Generate.Value
import Specimen.Mapping.Mapper

/-!
# Generators of records

A generator owns a model, the number of records in a batch and a random source. Each call takes the
next records off one stream, whether it returns them or delivers them to objects; a call that finds
a setter missing takes nothing.

A call that comes to its end leaves a generator, also if what it answers is that a setter is
missing. Only a draw that is not possible ends a call before, and leaves none.
-/

namespace Specimen

namespace Generate

variable {σ : Type} [RandomSource σ]

/-- The record with a value drawn for each field and inserted under its name, one field after the
other. -/
def fill : List (String × FieldType) → Record → σ → Except DrawError (Record × σ)
  | [], r, s => .ok (r, s)
  | (name, type) :: fields, r, s => do
    let (v, s) ← value type s
    fill fields (r.insert name v) s

/-- A record of a model: its names with values of its types. -/
def record (model : Model) (s : σ) : Except DrawError (Record × σ) :=
  fill model.toList (.emptyWithCapacity model.size) s

end Generate

/-- The number of records in a batch when none is given. -/
def defaultVolume : UInt64 := 20

/-- A source of records of one model. -/
structure Generator (σ : Type) where
  model : Model
  /-- The number of records in a batch. -/
  volume : UInt64
  source : σ

/-- Declarations that make no model, where a generator is asked for. -/
inductive GeneratorError where
  | invalidModel (cause : ModelError)
  deriving DecidableEq, Repr

/-- The messages of the error and of what caused it, outermost first. -/
def GeneratorError.messages : GeneratorError → List String
  | invalidModel cause => ("Invalid model: " ++ cause.message) :: cause.messages

namespace Generator

variable {σ τ : Type} [RandomSource σ]

/-- A generator for the model of declarations, each a name and a type string. -/
def ofDeclarations (declarations : List (String × String)) (volume : UInt64) (source : σ) :
    Except GeneratorError (Generator σ) :=
  match Model.parse declarations with
  | .ok model => .ok ⟨model, volume, source⟩
  | .error cause => .error (.invalidModel cause)

/-- The next record. -/
def fetch (g : Generator σ) : Except DrawError (Record × Generator σ) := do
  let (r, source) ← Generate.record g.model g.source
  .ok (r, { g with source })

/-- The results of a function on the next `n` records, in order; those before come first. -/
def fetchManyOnto {α : Type} (f : Record → α) :
    Nat → List α → Generator σ → Except DrawError (List α × Generator σ)
  | 0, before, g => .ok (before.reverse, g)
  | n + 1, before, g => do
    let (r, g) ← g.fetch
    fetchManyOnto f n (f r :: before) g

/-- The records of one batch. -/
def fetchAll (g : Generator σ) : Except DrawError (List Record × Generator σ) :=
  fetchManyOnto id g.volume.toNat [] g

/-- The next record delivered through a mapper, or why there is no mapper. -/
def fetchMapped [Inhabited τ] (g : Generator σ) (mapper : Except MappingError (Mapper τ)) :
    Except DrawError (Except MappingError τ × Generator σ) :=
  match mapper with
  | .error cause => .ok (.error cause, g)
  | .ok mapper => do
    let (r, g) ← g.fetch
    .ok (.ok (mapper.map r), g)

/-- The records of one batch delivered through a mapper, each to a new object, or why there is no
mapper. -/
def fetchAllMapped [Inhabited τ] (g : Generator σ) (mapper : Except MappingError (Mapper τ)) :
    Except DrawError (Except MappingError (List τ) × Generator σ) :=
  match mapper with
  | .error cause => .ok (.error cause, g)
  | .ok mapper => do
    let (xs, g) ← fetchManyOnto mapper.map g.volume.toNat [] g
    .ok (.ok xs, g)

/-- The next record as an object of a type with setters of its own. -/
def fetchObject (τ : Type) [SetterTarget τ] (g : Generator σ) :
    Except DrawError (Except MappingError τ × Generator σ) :=
  g.fetchMapped (Mapper.forTarget τ g.model)

/-- A batch of objects of a type with setters of its own. -/
def fetchAllObjects (τ : Type) [SetterTarget τ] (g : Generator σ) :
    Except DrawError (Except MappingError (List τ) × Generator σ) :=
  g.fetchAllMapped (Mapper.forTarget τ g.model)

/-- The next record as an object filled through a table. -/
def fetchObjectWith [Inhabited τ] (g : Generator σ) (table : SetterTable τ) :
    Except DrawError (Except MappingError τ × Generator σ) :=
  g.fetchMapped (Mapper.fromTable g.model table)

/-- A batch of objects filled through a table. -/
def fetchAllObjectsWith [Inhabited τ] (g : Generator σ) (table : SetterTable τ) :
    Except DrawError (Except MappingError (List τ) × Generator σ) :=
  g.fetchAllMapped (Mapper.fromTable g.model table)

end Generator

end Specimen
