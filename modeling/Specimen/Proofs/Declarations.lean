import Mathlib.Data.List.Forall2
import Mathlib.Data.List.Induction
import Mathlib.Data.List.Nodup
import Specimen.Model
import Specimen.Proofs.CanonicalText
import Specimen.Proofs.InsertionOrder

/-!
# Models of declarations

Declarations make a model exactly if every type string denotes a type and no name comes twice; the
model then has their names and types in order (`parse_eq_ok_iff`). Otherwise the first declaration
at fault is reported, and of its two possible faults the type string comes first
(`parse_eq_error_iff`). Types that are already read make a model under the same condition on their
names.
-/

namespace Specimen.Model

/-- Whether a field is what a declaration stands for: the name, with the type of the type string. -/
def Declares (declaration : String × String) (field : String × FieldType) : Prop :=
  field.1 = declaration.1 ∧ FieldType.parse declaration.2 = .ok field.2

/-- `FaultAt declarations k cause`: the declaration at `k` is at fault for the cause. Its type
string is refused, or the type string is read and the name comes earlier too. -/
inductive FaultAt (declarations : List (String × String)) (k : Nat) : ModelError → Prop where
  | invalidField {name typeString : String} {cause : TypeError}
      (h : declarations[k]? = some (name, typeString))
      (hparse : FieldType.parse typeString = .error cause) :
      FaultAt declarations k (.invalidField name typeString cause)
  | duplicateField {name typeString : String} {type : FieldType}
      (h : declarations[k]? = some (name, typeString))
      (hparse : FieldType.parse typeString = .ok type)
      (hearlier : name ∈ (declarations.take k).map Prod.fst) :
      FaultAt declarations k (.duplicateField name)

theorem eq_of_toList_eq {m m' : Model} (h : m.toList = m'.toList) : m = m' := by
  obtain ⟨fields, hdistinct⟩ := m
  obtain ⟨fields', hdistinct'⟩ := m'
  obtain rfl : fields = fields' := h
  rfl

/-! ## One more field -/

theorem declare_eq_ok_iff {m m' : Model} {name : String} {type : FieldType} :
    m.declare name type = .ok m' ↔ name ∉ m.names ∧ m'.toList = m.toList ++ [(name, type)] := by
  unfold declare
  split
  · rename_i hmem
    constructor
    · intro h
      contradiction
    · rintro ⟨hnot, -⟩
      exact absurd hmem hnot
  · rename_i hnot
    rw [Except.ok.injEq]
    constructor
    · rintro rfl
      exact ⟨hnot, rfl⟩
    · rintro ⟨-, h⟩
      exact eq_of_toList_eq h.symm

theorem declare_eq_error_iff {m : Model} {name : String} {type : FieldType} {cause : ModelError} :
    m.declare name type = .error cause ↔ name ∈ m.names ∧ cause = .duplicateField name := by
  unfold declare
  split
  · rename_i hmem
    rw [Except.error.injEq]
    constructor
    · rintro rfl
      exact ⟨hmem, rfl⟩
    · rintro ⟨-, rfl⟩
      rfl
  · rename_i hnot
    constructor
    · intro h
      contradiction
    · rintro ⟨hmem, -⟩
      exact absurd hmem hnot

theorem declareTyped_eq_ok_iff {m m' : Model} {declaration : String × String} :
    m.declareTyped declaration.1 declaration.2 = .ok m' ↔
      ∃ field, Declares declaration field ∧ field.1 ∉ m.names ∧
        m'.toList = m.toList ++ [field] := by
  unfold declareTyped
  cases hparse : FieldType.parse declaration.2 with
  | error cause =>
    constructor
    · intro h
      contradiction
    · rintro ⟨field, ⟨-, htype⟩, -⟩
      rw [hparse] at htype
      contradiction
  | ok type =>
    rw [declare_eq_ok_iff]
    constructor
    · rintro ⟨hnot, h⟩
      exact ⟨(declaration.1, type), ⟨rfl, hparse⟩, hnot, h⟩
    · rintro ⟨⟨name, type'⟩, ⟨hname, htype⟩, hnot, h⟩
      obtain rfl : name = declaration.1 := hname
      rw [hparse, Except.ok.injEq] at htype
      subst htype
      exact ⟨hnot, h⟩

/-! ## Types that are read -/

theorem ofTypes_append_singleton (fields : List (String × FieldType)) (field : String × FieldType) :
    ofTypes (fields ++ [field]) = ofTypes fields >>= fun m => m.declare field.1 field.2 := by
  unfold ofTypes declareAll
  simp only [List.foldlM_append, List.foldlM_cons, List.foldlM_nil, bind_pure]

/-- Types under distinct names make a model of them as they are: by induction on the last field. -/
theorem ofTypes_eq_ok_iff {fields : List (String × FieldType)} {m : Model} :
    ofTypes fields = .ok m ↔ (fields.map Prod.fst).Nodup ∧ m.toList = fields := by
  induction fields using List.reverseRecOn generalizing m with
  | nil =>
    constructor
    · intro h
      obtain rfl : empty = m := Except.ok.inj h
      exact ⟨List.nodup_nil, rfl⟩
    · rintro ⟨-, h⟩
      exact congrArg Except.ok (eq_of_toList_eq h.symm)
  | append_singleton fields field ih =>
    rw [ofTypes_append_singleton, bind_eq_ok_iff, List.map_append, List.map_singleton,
      ← List.concat_eq_append, List.nodup_concat]
    constructor
    · rintro ⟨m₀, hprevious, hlast⟩
      obtain ⟨hnodup, rfl⟩ := ih.mp hprevious
      obtain ⟨hnot, h⟩ := declare_eq_ok_iff.mp hlast
      exact ⟨⟨hnot, hnodup⟩, h⟩
    · rintro ⟨⟨hnot, hnodup⟩, h⟩
      exact ⟨⟨⟨fields, hnodup⟩⟩, ih.mpr ⟨hnodup, rfl⟩, declare_eq_ok_iff.mpr ⟨hnot, h⟩⟩

/-- A name that comes again is reported where it does. -/
theorem ofTypes_of_repeated {before after : List (String × FieldType)} {field : String × FieldType}
    (hnodup : (before.map Prod.fst).Nodup) (hmem : field.1 ∈ before.map Prod.fst) :
    ofTypes (before ++ field :: after) = .error (.duplicateField field.1) := by
  have hbefore : ofTypes before = .ok ⟨⟨before, hnodup⟩⟩ := ofTypes_eq_ok_iff.mpr ⟨hnodup, rfl⟩
  have hrefused : declare ⟨⟨before, hnodup⟩⟩ field.1 field.2 = .error (.duplicateField field.1) :=
    declare_eq_error_iff.mpr ⟨hmem, rfl⟩
  unfold ofTypes declareAll at *
  simp only [List.foldlM_append, hbefore, List.foldlM_cons, ok_bind, hrefused, error_bind]

/-! ## Declarations -/

theorem parse_append_singleton (declarations : List (String × String))
    (declaration : String × String) :
    parse (declarations ++ [declaration]) =
      parse declarations >>= fun m => m.declareTyped declaration.1 declaration.2 := by
  unfold parse
  simp only [List.foldlM_append, List.foldlM_cons, List.foldlM_nil, bind_pure]

/-- What is related to a list with one more item last is such a list itself. -/
theorem exists_append_singleton_of_forall₂ {α β : Type} {R : α → β → Prop} {l : List α} {a : α}
    {l' : List β} (h : List.Forall₂ R (l ++ [a]) l') :
    ∃ l₁ b, l' = l₁ ++ [b] ∧ List.Forall₂ R l l₁ ∧ R a b := by
  have hinit := List.forall₂_take_append l' l [a] h.flip
  have hlast := List.forall₂_drop_append l' l [a] h.flip
  obtain ⟨b, rest, hb, hrest, hdrop⟩ := List.forall₂_cons_right_iff.mp hlast
  rw [List.forall₂_nil_right_iff] at hrest
  refine ⟨l'.take l.length, b, ?_, hinit.flip, hb⟩
  rw [← hrest, ← hdrop, List.take_append_drop]

theorem map_fst_of_declares {declarations : List (String × String)}
    {fields : List (String × FieldType)} (h : List.Forall₂ Declares declarations fields) :
    fields.map Prod.fst = declarations.map Prod.fst := by
  induction h with
  | nil => rfl
  | cons hfirst _ ih => rw [List.map_cons, List.map_cons, hfirst.1, ih]

/-- Declarations make a model of the fields that they stand for, if no name comes twice: by
induction on the last declaration. -/
theorem parse_eq_ok_iff {declarations : List (String × String)} {m : Model} :
    parse declarations = .ok m ↔
      List.Forall₂ Declares declarations m.toList ∧ (declarations.map Prod.fst).Nodup := by
  induction declarations using List.reverseRecOn generalizing m with
  | nil =>
    rw [List.forall₂_nil_left_iff]
    constructor
    · intro h
      obtain rfl : empty = m := Except.ok.inj h
      exact ⟨rfl, List.nodup_nil⟩
    · rintro ⟨h, -⟩
      exact congrArg Except.ok (eq_of_toList_eq h.symm)
  | append_singleton declarations declaration ih =>
    rw [parse_append_singleton, bind_eq_ok_iff, List.map_append, List.map_singleton,
      ← (List.concat_eq_append : (declarations.map Prod.fst).concat declaration.1 = _),
      List.nodup_concat]
    constructor
    · rintro ⟨m₀, hprevious, hlast⟩
      obtain ⟨hdeclared, hnodup⟩ := ih.mp hprevious
      obtain ⟨field, hfield, hnot, h⟩ := declareTyped_eq_ok_iff.mp hlast
      have hnames : m₀.names = declarations.map Prod.fst := map_fst_of_declares hdeclared
      rw [hnames, hfield.1] at hnot
      rw [h]
      exact ⟨List.rel_append hdeclared (.cons hfield .nil), hnot, hnodup⟩
    · rintro ⟨hdeclared, hnot, hnodup⟩
      obtain ⟨fields, field, htoList, hfields, hfield⟩ :=
        exists_append_singleton_of_forall₂ hdeclared
      have hnames : fields.map Prod.fst = declarations.map Prod.fst := map_fst_of_declares hfields
      have hprevious : parse declarations = .ok ⟨⟨fields, hnames ▸ hnodup⟩⟩ :=
        ih.mpr ⟨hfields, hnodup⟩
      refine ⟨_, hprevious, declareTyped_eq_ok_iff.mpr ⟨field, hfield, ?_, htoList⟩⟩
      intro hmem
      have hmem' : field.1 ∈ fields.map Prod.fst := hmem
      rw [hnames, hfield.1] at hmem'
      exact hnot hmem'

/-! ## The first fault -/

namespace FaultAt

variable {declarations : List (String × String)} {k : Nat} {cause : ModelError}

theorem lt_length (h : FaultAt declarations k cause) : k < declarations.length := by
  cases h with
  | invalidField h => exact (List.getElem?_eq_some_iff.mp h).1
  | duplicateField h => exact (List.getElem?_eq_some_iff.mp h).1

/-- A declaration is at fault for one cause at most. -/
theorem unique {cause' : ModelError} (h : FaultAt declarations k cause)
    (h' : FaultAt declarations k cause') : cause = cause' := by
  cases h with
  | invalidField hget hparse =>
    cases h' with
    | invalidField hget' hparse' => simp_all
    | duplicateField hget' hparse' => simp_all
  | duplicateField hget hparse =>
    cases h' with
    | invalidField hget' hparse' => simp_all
    | duplicateField hget' hparse' => simp_all

/-- A fault is one of the declaration with those before it, whatever follows. -/
theorem of_take_eq {others : List (String × String)} (hget : others[k]? = declarations[k]?)
    (htake : others.take k = declarations.take k) (h : FaultAt declarations k cause) :
    FaultAt others k cause := by
  cases h with
  | invalidField h hparse => exact .invalidField (hget.trans h) hparse
  | duplicateField h hparse hearlier =>
    exact .duplicateField (hget.trans h) hparse (htake ▸ hearlier)

theorem append_iff (hk : k < declarations.length) (others : List (String × String)) :
    FaultAt (declarations ++ others) k cause ↔ FaultAt declarations k cause := by
  have hget : (declarations ++ others)[k]? = declarations[k]? := List.getElem?_append_left hk
  have htake : (declarations ++ others).take k = declarations.take k :=
    List.take_append_of_le_length (Nat.le_of_lt hk)
  exact ⟨of_take_eq hget.symm htake.symm, of_take_eq hget htake⟩

/-- The last declaration is at fault exactly if a model of the others cannot be given it. -/
theorem last_iff {m : Model} {declaration : String × String}
    (h : parse declarations = .ok m) :
    FaultAt (declarations ++ [declaration]) declarations.length cause ↔
      m.declareTyped declaration.1 declaration.2 = .error cause := by
  have hget : (declarations ++ [declaration])[declarations.length]? = some declaration :=
    List.getElem?_concat_length
  have hnames : m.names = declarations.map Prod.fst :=
    map_fst_of_declares (parse_eq_ok_iff.mp h).1
  unfold declareTyped
  constructor
  · intro hfault
    cases hfault with
    | invalidField hat hparse =>
      rw [hget, Option.some.injEq] at hat
      subst hat
      simp only [hparse]
    | duplicateField hat hparse hearlier =>
      rw [hget, Option.some.injEq] at hat
      subst hat
      rw [List.take_left, ← hnames] at hearlier
      simp only [hparse]
      exact declare_eq_error_iff.mpr ⟨hearlier, rfl⟩
  · intro hrefused
    split at hrefused
    · rename_i cause' hparse
      rw [Except.error.injEq] at hrefused
      subst hrefused
      exact .invalidField hget hparse
    · rename_i type hparse
      obtain ⟨hmem, rfl⟩ := declare_eq_error_iff.mp hrefused
      refine .duplicateField hget hparse ?_
      rw [List.take_left, ← hnames]
      exact hmem

end FaultAt

/-- `FirstFault declarations k cause`: the declaration at `k` is at fault and none before it is. -/
def FirstFault (declarations : List (String × String)) (k : Nat) (cause : ModelError) : Prop :=
  FaultAt declarations k cause ∧ ∀ i < k, ∀ earlier, ¬ FaultAt declarations i earlier

theorem FirstFault.unique {declarations : List (String × String)} {k k' : Nat}
    {cause cause' : ModelError} (h : FirstFault declarations k cause)
    (h' : FirstFault declarations k' cause') : cause = cause' := by
  rcases Nat.lt_trichotomy k k' with hlt | rfl | hgt
  · exact absurd h.1 (h'.2 k hlt cause)
  · exact h.1.unique h'.1
  · exact absurd h'.1 (h.2 k' hgt cause')

/-- What makes a model has no fault, and what makes none has a first one: by induction on the last
declaration. -/
theorem fault_of_parse (declarations : List (String × String)) :
    (∀ m, parse declarations = .ok m → ∀ k cause, ¬ FaultAt declarations k cause) ∧
      ∀ cause, parse declarations = .error cause → ∃ k, FirstFault declarations k cause := by
  induction declarations using List.reverseRecOn with
  | nil =>
    constructor
    · intro m _ k cause hfault
      exact absurd hfault.lt_length (Nat.not_lt_zero k)
    · intro cause h
      contradiction
  | append_singleton declarations declaration ih =>
    rw [parse_append_singleton]
    constructor
    · intro m h k cause hfault
      obtain ⟨m₀, hprevious, hlast⟩ := bind_eq_ok_iff.mp h
      have hk : k < declarations.length ∨ k = declarations.length := by
        have := hfault.lt_length
        rw [List.length_append, List.length_singleton] at this
        omega
      rcases hk with hk | rfl
      · exact ih.1 m₀ hprevious k cause ((FaultAt.append_iff hk _).mp hfault)
      · rw [(FaultAt.last_iff hprevious).mp hfault] at hlast
        contradiction
    · intro cause h
      rcases bind_eq_error_iff.mp h with hprevious | ⟨m₀, hprevious, hlast⟩
      · obtain ⟨k, hfault, hfirst⟩ := ih.2 cause hprevious
        have hk := hfault.lt_length
        refine ⟨k, (FaultAt.append_iff hk _).mpr hfault, ?_⟩
        intro i hi earlier h
        exact hfirst i hi earlier ((FaultAt.append_iff (Nat.lt_trans hi hk) _).mp h)
      · refine ⟨declarations.length, (FaultAt.last_iff hprevious).mpr hlast, ?_⟩
        intro i hi earlier h
        exact ih.1 m₀ hprevious i earlier ((FaultAt.append_iff hi _).mp h)

theorem parse_eq_error_iff {declarations : List (String × String)} {cause : ModelError} :
    parse declarations = .error cause ↔ ∃ k, FirstFault declarations k cause := by
  obtain ⟨hsound, hfaulty⟩ := fault_of_parse declarations
  constructor
  · exact hfaulty cause
  · rintro ⟨k, hfirst⟩
    cases hparse : parse declarations with
    | ok m => exact absurd hfirst.1 (hsound m hparse k cause)
    | error cause' =>
      obtain ⟨k', hfirst'⟩ := hfaulty cause' hparse
      rw [hfirst.unique hfirst']

/-! ## The model that is made -/

theorem exists_declares_iff {declarations : List (String × String)} :
    (∃ fields, List.Forall₂ Declares declarations fields) ↔
      ∀ declaration ∈ declarations, ∃ type, FieldType.parse declaration.2 = .ok type := by
  induction declarations with
  | nil => simp
  | cons declaration declarations ih =>
    rw [List.forall_mem_cons, ← ih]
    constructor
    · rintro ⟨fields, h⟩
      cases h with
      | cons hfirst hrest => exact ⟨⟨_, hfirst.2⟩, ⟨_, hrest⟩⟩
    · rintro ⟨⟨type, htype⟩, fields, hfields⟩
      exact ⟨(declaration.1, type) :: fields, .cons ⟨rfl, htype⟩ hfields⟩

theorem mem_iff_of_declares {declarations : List (String × String)}
    {fields : List (String × FieldType)} (h : List.Forall₂ Declares declarations fields)
    {name : String} {type : FieldType} :
    (name, type) ∈ fields ↔
      ∃ typeString, (name, typeString) ∈ declarations ∧ FieldType.parse typeString = .ok type := by
  induction h with
  | nil => simp
  | @cons declaration field declarations fields hfirst _ ih =>
    obtain ⟨hname, htype⟩ := hfirst
    rw [List.mem_cons, ih]
    constructor
    · rintro (rfl | ⟨typeString, hmem, hparse⟩)
      · obtain rfl : name = declaration.1 := hname
        exact ⟨declaration.2, List.mem_cons_self .., htype⟩
      · exact ⟨typeString, List.mem_cons_of_mem _ hmem, hparse⟩
    · rintro ⟨typeString, hmem, hparse⟩
      rcases List.mem_cons.mp hmem with rfl | hmem
      · left
        rw [htype, Except.ok.injEq] at hparse
        exact Prod.ext hname.symm hparse.symm
      · exact Or.inr ⟨typeString, hmem, hparse⟩

theorem exists_parse_iff {declarations : List (String × String)} :
    (∃ m, parse declarations = .ok m) ↔
      (∀ declaration ∈ declarations, ∃ type, FieldType.parse declaration.2 = .ok type) ∧
        (declarations.map Prod.fst).Nodup := by
  rw [← exists_declares_iff]
  constructor
  · rintro ⟨m, h⟩
    obtain ⟨hdeclared, hnodup⟩ := parse_eq_ok_iff.mp h
    exact ⟨⟨m.toList, hdeclared⟩, hnodup⟩
  · rintro ⟨⟨fields, hfields⟩, hnodup⟩
    have hnames := map_fst_of_declares hfields
    exact ⟨⟨⟨fields, hnames ▸ hnodup⟩⟩, parse_eq_ok_iff.mpr ⟨hfields, hnodup⟩⟩

theorem get?_eq_some_iff {m : Model} {name : String} {type : FieldType} :
    m.get? name = some type ↔ (name, type) ∈ m.toList := by
  constructor
  · intro h
    obtain ⟨before, after, heq, -⟩ := List.lookup_eq_some_iff.mp h
    have hmem : (name, type) ∈ m.fields.toList := by simp [heq]
    exact hmem
  · exact Entries.lookup_of_mem m.fields.distinct

@[simp]
theorem ofTypes_toList (m : Model) : ofTypes m.toList = .ok m :=
  ofTypes_eq_ok_iff.mpr ⟨m.fields.distinct, rfl⟩

/-- Declarations make the model of the same fields as the types that they stand for. -/
theorem parse_eq_ok_iff_ofTypes {declarations : List (String × String)} {m : Model} :
    parse declarations = .ok m ↔
      ∃ fields, List.Forall₂ Declares declarations fields ∧ ofTypes fields = .ok m := by
  rw [parse_eq_ok_iff]
  constructor
  · rintro ⟨hdeclared, -⟩
    exact ⟨m.toList, hdeclared, ofTypes_toList m⟩
  · rintro ⟨fields, hdeclared, htypes⟩
    obtain ⟨hnodup, rfl⟩ := ofTypes_eq_ok_iff.mp htypes
    rw [map_fst_of_declares hdeclared] at hnodup
    exact ⟨hdeclared, hnodup⟩

/-! ## Canonical declarations -/

/-- Every field has a type that a type string denotes. -/
def Denoted (m : Model) : Prop :=
  ∀ field ∈ m.toList, field.2.Denoted

theorem denoted_of_parse {declarations : List (String × String)} {m : Model}
    (h : parse declarations = .ok m) : m.Denoted := by
  intro field hfield
  obtain ⟨hdeclared, -⟩ := parse_eq_ok_iff.mp h
  obtain ⟨typeString, -, hparse⟩ := (mem_iff_of_declares hdeclared).mp hfield
  exact FieldType.denoted_of_parse hparse

theorem declares_declarations {m : Model} (h : m.Denoted) :
    List.Forall₂ Declares m.declarations m.toList := by
  unfold declarations
  rw [List.forall₂_map_left_iff, List.forall₂_same]
  intro field hfield
  exact ⟨rfl, FieldType.parse_canonical_of_denoted (h field hfield)⟩

/-- A model is the model of its canonical declarations. -/
theorem parse_declarations {m : Model} (h : m.Denoted) : parse m.declarations = .ok m :=
  parse_eq_ok_iff_ofTypes.mpr ⟨m.toList, declares_declarations h, m.ofTypes_toList⟩

/-! ## The first fault is reported -/

/-- Declarations make a model exactly if every type string denotes a type and no name comes twice.
The model has their names in order, each with the type of its type string. Otherwise the error is
the fault of the first declaration that is at fault. The types that are read make the same model
without their type strings, and every model is that of its own fields. -/
theorem parse_reports_first_fault :
    (∀ declarations : List (String × String),
      ((∃ m, parse declarations = .ok m) ↔
        (∀ declaration ∈ declarations, ∃ type, FieldType.parse declaration.2 = .ok type) ∧
          (declarations.map Prod.fst).Nodup) ∧
      (∀ m, parse declarations = .ok m →
        m.names = declarations.map Prod.fst ∧ List.Forall₂ Declares declarations m.toList ∧
          ∀ name type, m.get? name = some type ↔
            ∃ typeString, (name, typeString) ∈ declarations ∧
              FieldType.parse typeString = .ok type) ∧
      (∀ cause, parse declarations = .error cause ↔ ∃ k, FirstFault declarations k cause) ∧
      ∀ m, parse declarations = .ok m ↔
        ∃ fields, List.Forall₂ Declares declarations fields ∧ ofTypes fields = .ok m) ∧
    ∀ m : Model, ofTypes m.toList = .ok m := by
  refine ⟨fun declarations => ⟨exists_parse_iff, ?_, fun cause => parse_eq_error_iff,
    fun m => parse_eq_ok_iff_ofTypes⟩, ofTypes_toList⟩
  intro m h
  obtain ⟨hdeclared, -⟩ := parse_eq_ok_iff.mp h
  refine ⟨map_fst_of_declares hdeclared, hdeclared, ?_⟩
  intro name type
  rw [get?_eq_some_iff]
  exact mem_iff_of_declares hdeclared

/-- Two fields come in order; and of a name that comes twice with a refused type string, the type
string is reported, although the declaration after it is at fault too. -/
theorem parse_two_and_repeated :
    (∃ m, parse [("roll", "i:1-6"), ("photo", "p:40*30")] = .ok m ∧
        m.names = ["roll", "photo"] ∧ m.get? "photo" = some (.image ⟨"40", "30", rfl, rfl⟩)) ∧
      parse [("roll", "i"), ("roll", "x"), ("roll", "f")] =
        .error (.invalidField "roll" "x" (.unsupportedCode "x")) := by
  constructor
  · have hparse : parse [("roll", "i:1-6"), ("photo", "p:40*30")] = .ok _ := rfl
    obtain ⟨hnames, -, hget⟩ := (parse_reports_first_fault.1 _).2.1 _ hparse
    exact ⟨_, hparse, hnames, (hget _ _).mpr ⟨"p:40*30", by decide, rfl⟩⟩
  · refine ((parse_reports_first_fault.1 _).2.2.1 _).mpr ⟨1, .invalidField rfl rfl, ?_⟩
    intro i hi earlier hfault
    obtain rfl : i = 0 := by omega
    cases hfault with
    | invalidField h hparse => cases h; contradiction
    | duplicateField h hparse hearlier => exact absurd hearlier List.not_mem_nil

end Specimen.Model
