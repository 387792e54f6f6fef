import Specimen.Entries
import Specimen.Value

/-!
# Records

A record holds one value for each of its field names, in the order of the fields.
-/

namespace Specimen

/-- Values under distinct field names, in order. -/
structure Record where
  fields : Entries Value
  deriving DecidableEq

namespace Record

def empty : Record :=
  ⟨.empty⟩

/-- The empty record with room for a number of fields. Room is not content: no operation tells it
from another empty record. -/
def emptyWithCapacity (_capacity : Nat) : Record :=
  empty

def toList (r : Record) : List (String × Value) :=
  r.fields.toList

/-- The record of the pairs, inserted one after the other. -/
def ofList (pairs : List (String × Value)) : Record :=
  ⟨.ofList pairs⟩

/-- The record with a value put under a name: a name that is present keeps its place. -/
def insert (r : Record) (name : String) (value : Value) : Record :=
  ⟨r.fields.insert name value⟩

def get? (r : Record) (name : String) : Option Value :=
  r.fields.get? name

def names (r : Record) : List String :=
  r.fields.names

def size (r : Record) : Nat :=
  r.fields.size

def isEmpty (r : Record) : Bool :=
  r.fields.isEmpty

/-- Equality of records gives no weight to the order of the fields. -/
instance : BEq Record where
  beq a b := a.fields.sameValues b.fields

end Record

end Specimen
