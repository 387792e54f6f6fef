import Specimen.Config.Declaration
import Specimen.Proofs.Delivery
import Specimen.Proofs.Resolution
import Specimen.Proofs.TrimmedTexts

/-!
# Models written as declarations

A text declares a field exactly if there is more than blanks before its first equals sign, and the
name and the type string are the two parts without the blanks around them
(`parseDeclaration_eq_ok_iff`). So a text that has a name and a canonical type string on the two
sides of an equals sign is read as these two, whatever blanks are around them, if the name has no
equals sign and no blank at its ends (`Restates.parseDeclaration_eq`). Texts for all fields of a
model make the same model again (`declarations_restate_model`).
-/

namespace Specimen

open Text (Padded Tight Trimmed)

/-! ## Reading a declaration -/

theorem parseDeclaration_of_notMem {text : String} (h : '=' ∉ text.toList) :
    parseDeclaration text = .error ⟨text⟩ := by
  unfold parseDeclaration declarationParts?
  rw [Text.cut?_eq_none_iff.mpr h]

theorem parseDeclaration_append {text : String} {before after : List Char}
    (htext : text.toList = before ++ '=' :: after) (hnot : '=' ∉ before) :
    parseDeclaration text =
      if Text.trim before = [] then .error ⟨text⟩
      else .ok (String.ofList (Text.trim before), String.ofList (Text.trim after)) := by
  unfold parseDeclaration declarationParts?
  rw [htext, Text.cut?_append hnot]
  by_cases hblank : Text.trim before = []
  · simp only [if_pos hblank]
  · simp only [if_neg hblank]

theorem trim_ne_nil_iff {cs : List Char} :
    Text.trim cs ≠ [] ↔ ∃ c ∈ cs, Text.isBlank c = false := by
  rw [ne_eq, Text.trim_eq_nil_iff]
  simp

theorem parseDeclaration_eq_ok_iff {text : String} {declaration : String × String} :
    parseDeclaration text = .ok declaration ↔
      ∃ before after, text.toList = before ++ '=' :: after ∧ '=' ∉ before ∧
        (∃ c ∈ before, Text.isBlank c = false) ∧
        Trimmed before declaration.1.toList ∧ Trimmed after declaration.2.toList := by
  constructor
  · intro h
    by_cases hmem : '=' ∈ text.toList
    · obtain ⟨before, after, htext, hnot⟩ := List.eq_append_cons_of_mem hmem
      rw [parseDeclaration_append htext hnot] at h
      split at h
      · contradiction
      · rename_i hname
        obtain rfl := Except.ok.inj h
        rw [String.toList_ofList, String.toList_ofList]
        exact ⟨before, after, htext, hnot, trim_ne_nil_iff.mp hname, Text.trim_eq_iff.mp rfl,
          Text.trim_eq_iff.mp rfl⟩
    · rw [parseDeclaration_of_notMem hmem] at h
      contradiction
  · rintro ⟨before, after, htext, hnot, hmore, hname, htype⟩
    rw [parseDeclaration_append htext hnot, if_neg (trim_ne_nil_iff.mpr hmore), hname.trim_eq,
      htype.trim_eq, String.ofList_toList, String.ofList_toList]

theorem parseDeclaration_eq_error_iff {text : String} :
    parseDeclaration text = .error ⟨text⟩ ↔
      '=' ∉ text.toList ∨ ∃ before after, text.toList = before ++ '=' :: after ∧ '=' ∉ before ∧
        ∀ c ∈ before, Text.isBlank c = true := by
  constructor
  · intro h
    by_cases hmem : '=' ∈ text.toList
    · right
      obtain ⟨before, after, htext, hnot⟩ := List.eq_append_cons_of_mem hmem
      rw [parseDeclaration_append htext hnot] at h
      split at h
      · rename_i hname
        exact ⟨before, after, htext, hnot, Text.trim_eq_nil_iff.mp hname⟩
      · contradiction
    · exact Or.inl hmem
  · rintro (hnot | ⟨before, after, htext, hnot, hblank⟩)
    · exact parseDeclaration_of_notMem hnot
    · rw [parseDeclaration_append htext hnot, if_pos (Text.trim_eq_nil_iff.mpr hblank)]

/-! ## Writing a model as declarations -/

/-- A text that restates a declaration: its name and its type string with an equals sign between
them, and blanks around both. -/
def Restates (declaration : String × String) (text : String) : Prop :=
  ∃ before after, text.toList = before ++ '=' :: after ∧
    Padded declaration.1.toList before ∧ Padded declaration.2.toList after

/-- A name that a text can restate: it is not empty, has no equals sign in it, and no blank at its
ends. -/
structure Restatable (name : String) : Prop where
  ne_empty : name ≠ ""
  notMem : '=' ∉ name.toList
  tight : Tight name.toList

theorem notMem_of_padded {t cs : List Char} (h : Padded t cs) (hnot : '=' ∉ t) : '=' ∉ cs := by
  obtain ⟨left, right, rfl, hleft, hright⟩ := h
  intro hmem
  rcases List.mem_append.mp hmem with hmem | hmem
  · rcases List.mem_append.mp hmem with hmem | hmem
    · exact absurd (hleft _ hmem) (by decide)
    · exact hnot hmem
  · exact absurd (hright _ hmem) (by decide)

/-- The name of the declaration ends before the first equals sign, and neither it nor the type
string loses anything with the blanks. -/
theorem Restates.parseDeclaration_eq {declaration : String × String} {text : String}
    (h : Restates declaration text) (hname : Restatable declaration.1)
    (htype : Tight declaration.2.toList) : parseDeclaration text = .ok declaration := by
  obtain ⟨before, after, htext, hbefore, hafter⟩ := h
  have htrimmed : Trimmed before declaration.1.toList := ⟨hname.tight, hbefore⟩
  refine parseDeclaration_eq_ok_iff.mpr ⟨before, after, htext,
    notMem_of_padded hbefore hname.notMem, trim_ne_nil_iff.mp ?_, htrimmed, ⟨htype, hafter⟩⟩
  rw [htrimmed.trim_eq, ne_eq, String.toList_eq_nil_iff]
  exact hname.ne_empty

theorem Model.mapM_parseDeclaration {m : Model} (hnames : ∀ name ∈ m.names, Restatable name)
    {texts : List String} (h : List.Forall₂ Restates m.declarations texts) :
    texts.mapM parseDeclaration = .ok m.declarations := by
  have htight : ∀ declaration ∈ m.declarations,
      Restatable declaration.1 ∧ Tight declaration.2.toList := by
    intro declaration hdeclaration
    obtain ⟨⟨name, type⟩, hfield, rfl⟩ := List.mem_map.mp hdeclaration
    refine ⟨hnames name (List.mem_map_of_mem hfield), ?_⟩
    change Tight type.canonical.toList
    rw [FieldType.canonical, String.toList_ofList]
    exact type.unbroken_canonicalText.tight
  have hboth := (List.forall₂_and_left _ _).mpr ⟨htight, h⟩
  refine mapM_eq_ok_iff.mpr (hboth.imp ?_).flip
  rintro declaration text ⟨⟨hname, htype⟩, hrestates⟩
  exact hrestates.parseDeclaration_eq hname htype

/-- A text declares a field exactly if it has an equals sign and more than blanks before the first
one; the name and the type string are what is before it and after it without the blanks around them.
A model of declarations whose names can be restated is the model of the texts that restate its
fields with their canonical type strings, whatever blanks are in them, and is found without a model
file. -/
theorem declarations_restate_model :
    (∀ (text : String) (declaration : String × String),
      parseDeclaration text = .ok declaration ↔
        ∃ before after, text.toList = before ++ '=' :: after ∧ '=' ∉ before ∧
          (∃ c ∈ before, Text.isBlank c = false) ∧
          Trimmed before declaration.1.toList ∧ Trimmed after declaration.2.toList) ∧
      (∀ text : String, parseDeclaration text = .error ⟨text⟩ ↔
        '=' ∉ text.toList ∨ ∃ before after, text.toList = before ++ '=' :: after ∧ '=' ∉ before ∧
          ∀ c ∈ before, Text.isBlank c = true) ∧
      ∀ m : Model, m.Declared → m.names ≠ [] → (∀ name ∈ m.names, Restatable name) →
        ∀ texts : List String, List.Forall₂ Restates m.declarations texts →
          texts.mapM parseDeclaration = .ok m.declarations ∧
            ∀ read, (⟨none, m.declarations⟩ : ModelOptions).resolve read = .ok ⟨none, none, m⟩ := by
  refine ⟨fun text declaration => parseDeclaration_eq_ok_iff,
    fun text => parseDeclaration_eq_error_iff, fun m hm hne hnames texts htexts =>
    ⟨m.mapM_parseDeclaration hnames htexts, fun read => ?_⟩⟩
  obtain ⟨declarations, hparse⟩ := hm
  have hdeclared : m.declarations ≠ [] := by
    intro hnil
    have htoList : m.toList = [] := List.map_eq_nil_iff.mp hnil
    exact hne (congrArg (List.map Prod.fst) htoList)
  rw [ModelOptions.resolve_without_file rfl, if_neg hdeclared,
    Model.parse_declarations (Model.denoted_of_parse hparse)]

/-- A name with a blank in it, and blanks of several kinds around names and type strings. -/
theorem declarations_restate_padded_names :
    ∃ m : Model, Model.parse [("größe x", "i:007-10"), ("名", "t:03w")] = .ok m ∧ m.names ≠ [] ∧
      (∀ name ∈ m.names, Restatable name) ∧
      ["\u00a0größe x\u3000= i:7-10\t", "名=t:3w\u2003"].mapM parseDeclaration =
        .ok [("größe x", "i:7-10"), ("名", "t:3w")] ∧
      ∀ read, (⟨none, [("größe x", "i:7-10"), ("名", "t:3w")]⟩ : ModelOptions).resolve read =
        .ok ⟨none, none, m⟩ := by
  have hparse : Model.parse [("größe x", "i:007-10"), ("名", "t:03w")] = .ok _ := rfl
  have htight : Tight "größe x".toList ∧ Tight "名".toList := by
    constructor <;> constructor <;> simp [Text.isBlank, Text.blankRuns]
  have hnames : ∀ name ∈ ["größe x", "名"], Restatable name := by
    rw [List.forall_mem_cons, List.forall_mem_singleton]
    exact ⟨⟨by decide, by decide, htight.1⟩, ⟨by decide, by decide, htight.2⟩⟩
  have hnone : ∀ c ∈ ([] : List Char), Text.isBlank c = true :=
    fun c hc => absurd hc List.not_mem_nil
  have hone : ∀ blank, Text.isBlank blank = true → ∀ c ∈ [blank], Text.isBlank c = true :=
    fun blank h => List.forall_mem_singleton.mpr h
  have hfirst : Restates ("größe x", "i:7-10") "\u00a0größe x\u3000= i:7-10\t" := by
    refine ⟨"\u00a0größe x\u3000".toList, " i:7-10\t".toList, rfl, ?_, ?_⟩
    · exact ⟨['\u00a0'], ['\u3000'], rfl, hone _ rfl, hone _ rfl⟩
    · exact ⟨[' '], ['\t'], rfl, hone _ rfl, hone _ rfl⟩
  have hsecond : Restates ("名", "t:3w") "名=t:3w\u2003" := by
    refine ⟨['名'], "t:3w\u2003".toList, rfl, ⟨[], [], rfl, hnone, hnone⟩, ?_⟩
    exact ⟨[], ['\u2003'], rfl, hnone, hone _ rfl⟩
  obtain ⟨hread, hresolve⟩ := declarations_restate_model.2.2 _ ⟨_, hparse⟩ (by decide) hnames _
    (.cons hfirst (.cons hsecond .nil))
  exact ⟨_, hparse, by decide, hnames, hread, hresolve⟩

end Specimen
