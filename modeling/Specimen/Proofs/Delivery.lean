import Specimen.Proofs.Conformance
import Specimen.Proofs.Results

/-!
# Delivering records through setters

A mapper binds each field of a model to the setter that is looked up for it, or the first field
without a setter is reported (`resolve_eq_ok_iff`, `resolve_eq_error_iff`). Through its bindings a
record of any model becomes calls of setters: one for each field that the mapper's model has, in the
order of the record, and none for the others (`resolved_delivers_in_order`). Which of two setters
under one name counts is decided when they are registered, not when they are called.
-/

namespace Specimen

/-! ## Tables -/

/-- The table of setters registered one after the other. -/
def SetterTable.ofList {τ : Type} (typeName : String) (registrations : List (String × Setter τ)) :
    SetterTable τ :=
  registrations.foldl (fun table p => table.insert p.1 p.2) (.empty typeName)

theorem SetterTable.ofList_eq {τ : Type} (typeName : String)
    (registrations : List (String × Setter τ)) :
    ofList typeName registrations = ⟨typeName, .ofList registrations⟩ := by
  have hfold : ∀ table : SetterTable τ,
      registrations.foldl (fun table p => table.insert p.1 p.2) table =
        ⟨table.typeName, registrations.foldl (fun e p => e.insert p.1 p.2) table.setters⟩ := by
    induction registrations with
    | nil => exact fun table => rfl
    | cons p registrations ih =>
      intro table
      rw [List.foldl_cons, List.foldl_cons, ih]
      rfl
  exact hfold (.empty typeName)

namespace Mapper

/-! ## Resolving -/

section Resolved

variable {τ : Type} {model : Model} {typeName : String} {lookup : String → Option (Setter τ)}
  {mapper : Mapper τ}

theorem bindField_eq_ok_iff {field : String} {binding : String × Setter τ} :
    bindField typeName lookup field = .ok binding ↔
      binding.1 = field ∧ lookup (setterName field) = some binding.2 := by
  unfold bindField
  split
  · rename_i setter hsetter
    rw [hsetter, Except.ok.injEq, Option.some.injEq]
    constructor
    · rintro rfl
      exact ⟨rfl, rfl⟩
    · rintro ⟨rfl, rfl⟩
      rfl
  · rename_i hnone
    simp [hnone]

theorem bindField_eq_error_iff {field : String} {cause : MappingError} :
    bindField typeName lookup field = .error cause ↔
      lookup (setterName field) = none ∧
        cause = .missingSetter typeName (setterName field) field := by
  unfold bindField
  split
  · rename_i setter hsetter
    simp [hsetter]
  · rename_i hnone
    rw [hnone, Except.error.injEq]
    simp [eq_comm]

/-- The bindings of fields have their names in order, each with the setter of its field. -/
theorem mapM_bindField_eq_ok_iff {fields : List String} {bindings : List (String × Setter τ)} :
    fields.mapM (bindField typeName lookup) = .ok bindings ↔
      (∀ binding ∈ bindings, lookup (setterName binding.1) = some binding.2) ∧
        bindings.map Prod.fst = fields := by
  have hbound : List.Forall₂ (fun binding field =>
      lookup (setterName binding.1) = some binding.2 ∧ binding.1 = field) bindings fields ↔
      List.Forall₂ (fun field binding => bindField typeName lookup field = .ok binding)
        fields bindings := by
    constructor
    · refine fun h => List.Forall₂.flip (h.imp ?_)
      rintro binding field ⟨hsetter, rfl⟩
      exact bindField_eq_ok_iff.mpr ⟨rfl, hsetter⟩
    · refine fun h => List.Forall₂.flip (h.imp ?_)
      intro field binding hbinding
      obtain ⟨rfl, hsetter⟩ := bindField_eq_ok_iff.mp hbinding
      exact ⟨hsetter, rfl⟩
  rw [mapM_eq_ok_iff, ← hbound, List.forall₂_and_left, ← List.forall₂_map_left_iff,
    List.forall₂_eq_eq_eq]

/-- The bindings of a resolved mapper are the fields of the model in order, each with the setter
that is looked up under its setter name. -/
theorem resolve_eq_ok_iff :
    resolve model typeName lookup = .ok mapper ↔
      mapper.bindings.names = model.names ∧
        ∀ binding ∈ mapper.bindings.toList,
          lookup (setterName binding.1) = some binding.2 := by
  unfold resolve
  rw [bind_eq_ok_iff]
  simp only [mapM_bindField_eq_ok_iff, Except.ok.injEq]
  constructor
  · rintro ⟨bindings, ⟨hfound, hnames⟩, rfl⟩
    have htoList : (Entries.ofList bindings).toList = bindings :=
      Entries.toList_ofList (hnames ▸ model.fields.distinct)
    exact ⟨(congrArg (List.map Prod.fst) htoList).trans hnames, htoList.symm ▸ hfound⟩
  · rintro ⟨hnames, hfound⟩
    exact ⟨mapper.bindings.toList, ⟨hfound, hnames⟩, by simp⟩

theorem resolve_eq_error_iff {cause : MappingError} :
    resolve model typeName lookup = .error cause ↔
      ∃ before field after, model.names = before ++ field :: after ∧
        (∀ earlier ∈ before, ∃ setter, lookup (setterName earlier) = some setter) ∧
        lookup (setterName field) = none ∧
        cause = .missingSetter typeName (setterName field) field := by
  have hbound : ∀ field, (∃ binding, bindField typeName lookup field = .ok binding) ↔
      ∃ setter, lookup (setterName field) = some setter := by
    intro field
    simp [bindField_eq_ok_iff]
  unfold resolve
  rw [bind_eq_error_iff]
  simp only [mapM_eq_error_iff, hbound, bindField_eq_error_iff, reduceCtorEq, and_false,
    exists_false, or_false]

/-- A mapper is resolved exactly if every field of the model has a setter. -/
theorem exists_resolve_iff :
    (∃ mapper, resolve model typeName lookup = .ok mapper) ↔
      ∀ field ∈ model.names, ∃ setter, lookup (setterName field) = some setter := by
  constructor
  · rintro ⟨mapper, h⟩ field hfield
    obtain ⟨hnames, hfound⟩ := resolve_eq_ok_iff.mp h
    obtain ⟨binding, hbinding, rfl⟩ := List.mem_map.mp (hnames ▸ hfield)
    exact ⟨binding.2, hfound binding hbinding⟩
  · intro hall
    cases h : resolve model typeName lookup with
    | ok mapper => exact ⟨mapper, rfl⟩
    | error cause =>
      obtain ⟨before, field, after, hnames, -, hnone, -⟩ := resolve_eq_error_iff.mp h
      obtain ⟨setter, hsetter⟩ := hall field (by simp [hnames])
      rw [hnone] at hsetter
      contradiction

/-- A resolved mapper has for a field of its model the setter that is looked up, and none for other
names. -/
theorem get?_bindings (h : resolve model typeName lookup = .ok mapper) (name : String) :
    mapper.bindings.get? name = if name ∈ model.names then lookup (setterName name) else none := by
  obtain ⟨hnames, hfound⟩ := resolve_eq_ok_iff.mp h
  split
  · rename_i hmem
    obtain ⟨binding, hbinding, rfl⟩ := List.mem_map.mp (hnames ▸ hmem)
    rw [hfound binding hbinding]
    exact Entries.lookup_of_mem mapper.bindings.distinct hbinding
  · rename_i hnot
    exact Entries.get?_eq_none_iff.mpr (hnames ▸ hnot)

/-- Only the setters of the fields matter to a mapper. -/
theorem resolve_congr {lookup' : String → Option (Setter τ)}
    (h : ∀ field ∈ model.names, lookup (setterName field) = lookup' (setterName field)) :
    resolve model typeName lookup = resolve model typeName lookup' := by
  have hbind : ∀ field ∈ model.names,
      bindField typeName lookup field = bindField typeName lookup' field := by
    intro field hfield
    unfold bindField
    rw [h field hfield]
  unfold resolve
  rw [mapM_congr hbind]

/-! ## Delivering -/

/-- A call that delivers a field: the setter of the field with its value. -/
def Delivers (lookup : String → Option (Setter τ)) (field : String × Value)
    (call : Setter τ × Value) : Prop :=
  lookup (setterName field.1) = some call.1 ∧ call.2 = field.2

/-- The object after calls of setters, one after the other. -/
def perform (object : τ) (calls : List (Setter τ × Value)) : τ :=
  calls.foldl (fun object call => call.1 object call.2) object

/-- The calls for a record are those for its fields that the model has: by induction on the
fields. -/
theorem delivers_calls (h : resolve model typeName lookup = .ok mapper) (record : Record) :
    List.Forall₂ (Delivers lookup) (record.toList.filter (·.1 ∈ model.names))
      (mapper.calls record) := by
  unfold calls
  induction record.toList with
  | nil => exact .nil
  | cons field fields ih =>
    have hget := get?_bindings h field.1
    by_cases hmem : field.1 ∈ model.names
    · obtain ⟨setter, hsetter⟩ := exists_resolve_iff.mp ⟨mapper, h⟩ field.1 hmem
      rw [if_pos hmem, hsetter] at hget
      rw [List.filter_cons_of_pos (by simpa using hmem),
        List.filterMap_cons_some (b := (setter, field.2)) (by simp [hget])]
      exact .cons ⟨hsetter, rfl⟩ ih
    · rw [if_neg hmem] at hget
      rw [List.filter_cons_of_neg (by simpa using hmem), List.filterMap_cons_none (by simp [hget])]
      exact ih

/-- Records delivered to one object make the calls for the first, then those for the second and so
on. -/
theorem foldl_apply (mapper : Mapper τ) (records : List Record) (object : τ) :
    records.foldl mapper.apply object = perform object (records.flatMap mapper.calls) :=
  List.foldl_flatMap.symm

end Resolved

end Mapper

/-- A record that is fetched has the names of the model. -/
theorem Generator.names_of_fetch {σ : Type} [RandomSource σ] {g g' : Generator σ} {r : Record}
    (h : g.fetch = .ok (r, g')) : r.names = g.model.names := by
  rw [fetch_eq] at h
  obtain ⟨drawn, hvalues, hrecord⟩ := map_eq_ok_iff.mp h
  obtain ⟨rfl, -⟩ := Prod.mk.inj hrecord
  exact (record_conforms (Generate.admits_of_values hvalues)).names_eq

namespace Mapper

/-- A mapper is resolved exactly if each field of the model has a setter, otherwise the first field
without one is reported. Delivering a record calls, for each field that the model has and in the
order of the record, the setter of the field with its value, and calls nothing else; several records
make their calls one after the other. No field of a fetched record is left out. In a table the
setter registered last under a name counts, and a table and a type with the same setters resolve
alike. -/
theorem resolved_delivers_in_order :
    (∀ {τ : Type} (model : Model) (typeName : String) (lookup : String → Option (Setter τ)),
      ((∃ mapper, resolve model typeName lookup = .ok mapper) ↔
        ∀ field ∈ model.names, ∃ setter, lookup (setterName field) = some setter) ∧
      (∀ cause, resolve model typeName lookup = .error cause ↔
        ∃ before field after, model.names = before ++ field :: after ∧
          (∀ earlier ∈ before, ∃ setter, lookup (setterName earlier) = some setter) ∧
          lookup (setterName field) = none ∧
          cause = .missingSetter typeName (setterName field) field) ∧
      ∀ mapper, resolve model typeName lookup = .ok mapper →
        (∀ record : Record,
          List.Forall₂ (Delivers lookup) (record.toList.filter (·.1 ∈ model.names))
              (mapper.calls record) ∧
            ∀ object, mapper.apply object record = perform object (mapper.calls record)) ∧
        (∀ (records : List Record) (object : τ),
          records.foldl mapper.apply object = perform object (records.flatMap mapper.calls)) ∧
        (∀ [Inhabited τ] (record : Record), mapper.map record = mapper.apply default record) ∧
        ∀ {σ : Type} [RandomSource σ] (g g' : Generator σ) (record : Record),
          g.model = model → g.fetch = .ok (record, g') →
            List.Forall₂ (Delivers lookup) record.toList (mapper.calls record)) ∧
      (∀ {τ : Type} (model : Model) (typeName : String)
          (registrations : List (String × Setter τ)),
        let table := SetterTable.ofList typeName registrations
        fromTable model table = resolve model typeName table.get? ∧
          (∀ name setter, table.get? name = some setter ↔
            ∃ before after, registrations = before ++ (name, setter) :: after ∧
              name ∉ after.map Prod.fst) ∧
          ∀ name, table.get? name = none ↔ name ∉ registrations.map Prod.fst) ∧
      ∀ (τ : Type) [target : SetterTarget τ] (model : Model),
        forTarget τ model = resolve model target.typeName target.setter? ∧
          ∀ table : SetterTable τ, table.typeName = target.typeName →
            (∀ field ∈ model.names,
              table.get? (setterName field) = target.setter? (setterName field)) →
              fromTable model table = forTarget τ model := by
  refine ⟨fun model typeName lookup => ⟨exists_resolve_iff, fun cause => resolve_eq_error_iff,
    fun mapper h => ⟨fun record => ⟨delivers_calls h record, fun object => rfl⟩,
      foldl_apply mapper, fun record => rfl, ?_⟩⟩, ?_, ?_⟩
  · rintro σ _ g g' record rfl hfetch
    have hnames := Generator.names_of_fetch hfetch
    have hall : record.toList.filter (·.1 ∈ g.model.names) = record.toList := by
      rw [List.filter_eq_self]
      intro field hfield
      rw [decide_eq_true_iff, ← hnames]
      exact List.mem_map_of_mem hfield
    exact hall ▸ delivers_calls h record
  · intro τ model typeName registrations table
    have htable : table = ⟨typeName, .ofList registrations⟩ :=
      SetterTable.ofList_eq typeName registrations
    rw [htable]
    exact ⟨rfl, fun name setter => Entries.get?_ofList_eq_some_iff,
      fun name => Entries.get?_ofList_eq_none_iff⟩
  · intro τ target model
    refine ⟨rfl, fun table hname hsetters => ?_⟩
    unfold fromTable forTarget
    rw [hname]
    exact resolve_congr hsetters

/-- Two fields with one setter, which is registered twice, each get a call of the later one, in the
order of a record that has them the other way round and a foreign field between them. -/
theorem delivers_both_of_one_setter :
    let model : Model := ⟨⟨[("id", .integer .nonNegative), ("_id", .integer .nonNegative)],
      by decide⟩⟩
    let table : SetterTable (List Value) :=
      .ofList "Log" [("setId", fun log _ => log), ("setId", fun log v => log ++ [v])]
    let record : Record := ⟨⟨[("_id", .int 1), ("other", .int 2), ("id", .int 3)], by decide⟩⟩
    let target : SetterTarget (List Value) := ⟨"Log", table.get?⟩
    ∃ mapper, fromTable model table = .ok mapper ∧
      List.Forall₂ (Delivers table.get?) [("_id", .int 1), ("id", .int 3)] (mapper.calls record) ∧
      mapper.apply [] record = [.int 1, .int 3] ∧
      (∃ r g', (⟨model, 1, .ofWords [7]⟩ : Generator Script).fetch = .ok (r, g') ∧
        List.Forall₂ (Delivers table.get?) r.toList (mapper.calls r)) ∧
      fromTable model table = @forTarget _ target model := by
  intro model table record target
  have hresolve : resolve model "Log" table.get? = .ok _ := rfl
  have hmapper := (resolved_delivers_in_order.1 model "Log" table.get?).2.2 _ hresolve
  refine ⟨_, hresolve, (hmapper.1 record).1, rfl, ⟨_, _, rfl, ?_⟩, ?_⟩
  · exact hmapper.2.2.2 (⟨model, 1, .ofWords [7]⟩ : Generator Script) _ _ rfl rfl
  · exact (resolved_delivers_in_order.2.2 (List Value) model).2 table rfl fun _ _ => rfl

end Mapper

end Specimen
