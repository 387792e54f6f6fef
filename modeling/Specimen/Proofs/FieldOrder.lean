import Mathlib.Data.Finset.Card
import Specimen.Record
import Specimen.Proofs.InsertionOrder

/-!
# Records and the pairs put into them

Where a field stands in a record is decided by the first pair with its name, and what it holds by
the last one (`Keeps`). Both follow from what one insertion does: it replaces the value of a name
that is present or appends a new name. After any insertions a record is that of all the pairs ever
put into it, wherever it began (`insertAll_ofList`, `ofList_eq_insertAll`), and so it keeps them
(`keeps_ofList`).
-/

namespace Specimen

theorem Entries.FirstOccurrences.length_eq {names all : List String}
    (h : Entries.FirstOccurrences names all) : names.length = all.toFinset.card := by
  have hsame : all.toFinset = names.toFinset := by
    ext name
    rw [List.mem_toFinset, List.mem_toFinset, h.mem_iff]
  rw [hsame, List.toFinset_card_of_nodup h.nodup]

namespace Record

/-- What a record keeps of pairs put into it one after the other: each name once, at the place of
its first pair and with the value of its last one. -/
structure Keeps (r : Record) (pairs : List (String × Value)) : Prop where
  nodup : r.names.Nodup
  mem_names_iff (name : String) : name ∈ r.names ↔ name ∈ pairs.map Prod.fst
  ordered : r.names.Pairwise fun a b =>
    (pairs.map Prod.fst).idxOf a < (pairs.map Prod.fst).idxOf b
  get?_eq_some_iff (name : String) (value : Value) : r.get? name = some value ↔
    ∃ before after, pairs = before ++ (name, value) :: after ∧ name ∉ after.map Prod.fst
  get?_eq_none_iff (name : String) : r.get? name = none ↔ name ∉ pairs.map Prod.fst
  get?_of_mem : ∀ field ∈ r.toList, r.get? field.1 = some field.2
  size_eq : r.size = (pairs.map Prod.fst).toFinset.card

theorem keeps_ofList (pairs : List (String × Value)) : (ofList pairs).Keeps pairs := by
  have hnames : Entries.FirstOccurrences (ofList pairs).names (pairs.map Prod.fst) :=
    Entries.names_ofList pairs
  refine ⟨hnames.nodup, hnames.mem_iff, hnames.ordered, ?_, ?_, ?_, ?_⟩
  · exact fun name value => Entries.get?_ofList_eq_some_iff
  · exact fun name => Entries.get?_ofList_eq_none_iff
  · exact fun field hfield => Entries.lookup_of_mem (ofList pairs).fields.distinct hfield
  · have hlength : (ofList pairs).size = (ofList pairs).names.length := (List.length_map _).symm
    rw [hlength, hnames.length_eq]

/-! ## Runs of insertions -/

/-- The record with more pairs inserted one after the other. -/
def insertAll (r : Record) (pairs : List (String × Value)) : Record :=
  pairs.foldl (fun r p => r.insert p.1 p.2) r

theorem fields_insertAll (r : Record) (pairs : List (String × Value)) :
    (r.insertAll pairs).fields = pairs.foldl (fun e p => e.insert p.1 p.2) r.fields :=
  (List.foldl_hom fields fun _ _ => rfl).symm

theorem eq_of_fields_eq {a b : Record} (h : a.fields = b.fields) : a = b := by
  cases a
  exact congrArg mk h

@[simp]
theorem insertAll_ofList (start further : List (String × Value)) :
    (ofList start).insertAll further = ofList (start ++ further) := by
  refine eq_of_fields_eq ?_
  rw [fields_insertAll]
  exact List.foldl_append.symm

theorem ofList_eq_insertAll (capacity : Nat) (pairs : List (String × Value)) :
    ofList pairs = (emptyWithCapacity capacity).insertAll pairs :=
  (insertAll_ofList [] pairs).symm

/-- However a record begins, after further insertions it keeps all the pairs put into it: the names
in the order of their first pairs, each with the value of its last one. An insertion replaces
nothing but the value of a name that is present, and appends a new name. Making a record of pairs is
inserting them into an empty one, whatever its capacity, and a record is the record of its own
fields. -/
theorem insertions_keep_first_place_last_value :
    (∀ start further : List (String × Value),
      ((ofList start).insertAll further).Keeps (start ++ further)) ∧
      (∀ (capacity : Nat) (further : List (String × Value)),
        ((emptyWithCapacity capacity).insertAll further).Keeps further) ∧
      (∀ (r : Record) (name : String) (value : Value),
        (name ∈ r.names →
          ∃ before old after, r.toList = before ++ (name, old) :: after ∧
            (r.insert name value).toList = before ++ (name, value) :: after) ∧
          (name ∉ r.names → (r.insert name value).toList = r.toList ++ [(name, value)])) ∧
      (∀ (capacity : Nat) (pairs : List (String × Value)),
        ofList pairs = (emptyWithCapacity capacity).insertAll pairs) ∧
      ∀ r : Record, ofList r.toList = r := by
  refine ⟨?_, ?_, ?_, ofList_eq_insertAll, ?_⟩
  · intro start further
    rw [insertAll_ofList]
    exact keeps_ofList (start ++ further)
  · intro capacity further
    rw [← ofList_eq_insertAll]
    exact keeps_ofList further
  · intro r name value
    exact ⟨fun hmem => Entries.put_of_mem hmem, fun hnot => Entries.put_of_not_mem hnot⟩
  · exact fun r => eq_of_fields_eq (Entries.ofList_toList r.fields)

/-- One name comes twice among the first pairs, another comes again among the later ones: each
stands at its first place with its last value. Then a value between two others is replaced, and a
name that differs by case alone is new. -/
theorem insertions_keep_interleaved_names :
    let r := (ofList [("b", .int 1), ("a", .int 2), ("b", .int 3)]).insertAll
      [("c", .int 4), ("a", .text "x")]
    r.Keeps [("b", .int 1), ("a", .int 2), ("b", .int 3), ("c", .int 4), ("a", .text "x")] ∧
      r.toList = [("b", .int 3), ("a", .text "x"), ("c", .int 4)] ∧
      ("a" ∈ r.names ∧
        ∃ before old after, r.toList = before ++ ("a", old) :: after ∧
          (r.insert "a" (.int 5)).toList = before ++ ("a", .int 5) :: after) ∧
      ("A" ∉ r.names ∧ (r.insert "A" (.int 6)).toList = r.toList ++ [("A", .int 6)]) := by
  intro r
  have hpresent : "a" ∈ r.names := by decide
  have hnew : "A" ∉ r.names := by decide
  have hinsert := insertions_keep_first_place_last_value.2.2.1 r
  refine ⟨insertions_keep_first_place_last_value.1 _ _, rfl, ⟨hpresent, ?_⟩, ⟨hnew, ?_⟩⟩
  · exact (hinsert "a" (.int 5)).1 hpresent
  · exact (hinsert "A" (.int 6)).2 hnew

end Record

end Specimen
