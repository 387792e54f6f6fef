/-!
# Entries in order of insertion

`Entries α` maps distinct names to values and keeps the order in which the names came. Models and
records are entries of field types and of values.
-/

namespace Specimen

/-- Named values with distinct names, in order. -/
structure Entries (α : Type) where
  toList : List (String × α)
  distinct : (toList.map Prod.fst).Nodup

namespace Entries

variable {α β : Type}

instance [DecidableEq α] : DecidableEq (Entries α) := fun a b =>
  decidable_of_iff (a.toList = b.toList) ⟨fun h => by cases a; cases b; simp_all, fun h => h ▸ rfl⟩

def empty : Entries α :=
  ⟨[], by simp⟩

def names (e : Entries α) : List String :=
  e.toList.map Prod.fst

def size (e : Entries α) : Nat :=
  e.toList.length

def isEmpty (e : Entries α) : Bool :=
  e.toList.isEmpty

def get? (e : Entries α) (name : String) : Option α :=
  e.toList.lookup name

/-- The pairs with the value under `name` replaced, or appended if the name is new. -/
def put (name : String) (value : α) : List (String × α) → List (String × α)
  | [] => [(name, value)]
  | (n, v) :: rest => if n = name then (n, value) :: rest else (n, v) :: put name value rest

theorem map_fst_put (name : String) (value : α) (pairs : List (String × α)) :
    (put name value pairs).map Prod.fst =
      if name ∈ pairs.map Prod.fst then pairs.map Prod.fst else pairs.map Prod.fst ++ [name] := by
  induction pairs with
  | nil => simp [put]
  | cons p rest ih =>
    obtain ⟨n, v⟩ := p
    by_cases h : n = name
    · simp [put, h]
    · simp only [put, h, if_false, List.map_cons, ih, List.mem_cons, Ne.symm h, false_or]
      split <;> simp

theorem nodup_put {name : String} {value : α} {pairs : List (String × α)}
    (h : (pairs.map Prod.fst).Nodup) : ((put name value pairs).map Prod.fst).Nodup := by
  rw [map_fst_put]
  split
  · exact h
  · rename_i hn
    refine List.nodup_append.2 ⟨h, by simp, ?_⟩
    intro a ha b hb hab
    simp only [List.mem_singleton] at hb
    exact hn (hb ▸ hab ▸ ha)

/-- The entries with a value put under a name: a name that is present keeps its place, a new one
comes last. -/
def insert (e : Entries α) (name : String) (value : α) : Entries α :=
  ⟨put name value e.toList, nodup_put e.distinct⟩

/-- The pairs inserted one after the other, beginning with no entries. -/
def ofList (pairs : List (String × α)) : Entries α :=
  pairs.foldl (fun e p => e.insert p.1 p.2) empty

/-- The entries followed by one with a new name. -/
def append (e : Entries α) (name : String) (value : α) (h : name ∉ e.names) : Entries α :=
  ⟨e.toList ++ [(name, value)], by
    rw [List.map_append]
    refine List.nodup_append.2 ⟨e.distinct, by simp, ?_⟩
    intro a ha b hb hab
    simp only [List.map_cons, List.map_nil, List.mem_singleton] at hb
    exact h (hb ▸ hab ▸ ha)⟩

/-- Whether two entries give the same value to each name, in whatever order. -/
def sameValues [BEq α] (a b : Entries α) : Bool :=
  a.size == b.size && a.toList.all fun (name, value) =>
    match b.get? name with
    | some other => value == other
    | none => false

end Entries

end Specimen
