import Specimen.Report
import Specimen.Proofs.SetterNames
import Specimen.Proofs.TrimmedTexts

/-!
# The columns of a report

Going through the rows, every column stays as wide in bytes as its widest cell so far
(`fits_widths`), and a cell has no more characters than bytes, so padding brings every cell to the
width of its column in characters, whatever its characters are. The last cell of a line begins with
a letter, where trimming stops at the latest, so the columns before it keep their widths
(`shows_line`) and begin at the same character of every line.
-/

namespace Specimen.Report

/-! ## The widths of columns -/

/-- The widths after one more row. -/
def widen (widths : List Nat) (row : List String) : List Nat :=
  List.zipWith (fun w (cell : String) => max w cell.utf8ByteSize) widths row

/-- No cell of the row has more bytes than its column is wide. -/
def Fits (row : List String) (widths : List Nat) : Prop :=
  List.Forall₂ (fun cell w => cell.utf8ByteSize ≤ w) row widths

theorem length_widen {widths : List Nat} {row : List String} (h : row.length = widths.length) :
    (widen widths row).length = widths.length := by
  rw [widen, List.length_zipWith, h, Nat.min_self]

theorem fits_widen {widths : List Nat} {row : List String} (h : row.length = widths.length) :
    Fits row (widen widths row) := by
  induction row generalizing widths with
  | nil =>
    cases widths with
    | nil => exact .nil
    | cons w widths => contradiction
  | cons cell row ih =>
    cases widths with
    | nil => contradiction
    | cons w widths => exact .cons (Nat.le_max_right w _) (ih (Nat.succ.inj h))

/-- A row that fits goes on fitting when another row is taken in. -/
theorem Fits.widen {row other : List String} {widths : List Nat} (h : Fits row widths)
    (hlength : other.length = widths.length) : Fits row (widen widths other) := by
  induction h generalizing other with
  | nil => exact .nil
  | @cons cell w row widths hcell _ ih =>
    cases other with
    | nil => contradiction
    | cons cell' other =>
      exact .cons (hcell.trans (Nat.le_max_left w _)) (ih (Nat.succ.inj hlength))

theorem fits_foldl {rows : List (List String)} {widths : List Nat}
    (hrows : ∀ row ∈ rows, row.length = widths.length) :
    (∀ row, Fits row widths → Fits row (rows.foldl Report.widen widths)) ∧
      ∀ row ∈ rows, Fits row (rows.foldl Report.widen widths) := by
  induction rows generalizing widths with
  | nil => exact ⟨fun row h => h, fun row h => absurd h List.not_mem_nil⟩
  | cons first rows ih =>
    obtain ⟨hfirst, hrest⟩ := List.forall_mem_cons.mp hrows
    rw [← length_widen hfirst] at hrest
    obtain ⟨hkept, hall⟩ := ih hrest
    constructor
    · intro row h
      exact hkept row (h.widen hfirst)
    · intro row hrow
      rcases List.mem_cons.mp hrow with rfl | hrow
      · exact hkept row (fits_widen hfirst)
      · exact hall row hrow

theorem fits_widths {rows : List (List String)} (h : ∀ row ∈ rows, row.length = 4) :
    ∀ row ∈ rows, Fits row (widths rows) :=
  (fits_foldl h).2

theorem widen_le {bound : Nat} {widths : List Nat} {row : List String}
    (hwidths : ∀ w ∈ widths, w ≤ bound) (hrow : ∀ cell ∈ row, cell.utf8ByteSize ≤ bound) :
    ∀ w ∈ widen widths row, w ≤ bound := by
  induction row generalizing widths with
  | nil => simp [widen]
  | cons cell row ih =>
    obtain ⟨hcell, hrow⟩ := List.forall_mem_cons.mp hrow
    cases widths with
    | nil => simp [widen]
    | cons w widths =>
      obtain ⟨hw, hwidths⟩ := List.forall_mem_cons.mp hwidths
      exact List.forall_mem_cons.mpr ⟨Nat.max_le.mpr ⟨hw, hcell⟩, ih hwidths hrow⟩

/-- No column is wider than the longest cell may be. -/
theorem widths_le {bound : Nat} {rows : List (List String)}
    (h : ∀ row ∈ rows, ∀ cell ∈ row, cell.utf8ByteSize ≤ bound) :
    ∀ w ∈ widths rows, w ≤ bound := by
  refine List.foldlRecOn rows widen (motive := fun widths => ∀ w ∈ widths, w ≤ bound) ?_ ?_
  · simp
  · intro widths hwidths row hrow
    exact widen_le hwidths (h row hrow)

/-! ## Padded cells -/

theorem length_le_utf8ByteSize (cell : String) : cell.length ≤ cell.utf8ByteSize := by
  have h : ∀ cs : List Char, cs.length ≤ String.utf8Len cs := by
    intro cs
    induction cs with
    | nil => exact Nat.le_refl 0
    | cons c cs ih =>
      rw [List.length_cons, String.utf8Len_cons]
      exact Nat.add_le_add ih c.utf8Size_pos
  rw [← String.length_toList, ← String.utf8Len_toList]
  exact h cell.toList

theorem length_padded {width : Nat} {cell : String} (h : cell.length ≤ width) :
    (padded width cell).length = width := by
  rw [padded, List.length_append, List.length_replicate, String.length_toList]
  omega

theorem trimRight_padded (before : List Char) (width : Nat) (cell : String) :
    Text.trimRight (before ++ padded width cell) = Text.trimRight (before ++ cell.toList) := by
  rw [padded, ← List.append_assoc, Text.trimRight_append_blank]
  intro c hc
  rw [List.eq_of_mem_replicate hc]
  rfl

/-- A padded cell and the two spaces behind its column. -/
def column (width : Nat) (cell : String) : List Char :=
  padded width cell ++ "  ".toList

theorem length_column {width : Nat} {cell : String} (h : cell.length ≤ width) :
    (column width cell).length = width + 2 := by
  rw [column, List.length_append, length_padded h]
  rfl

theorem prefix_column (width : Nat) (cell : String) (rest : List Char) :
    cell.toList <+: column width cell ++ rest := by
  rw [column, padded, List.append_assoc, List.append_assoc]
  exact List.prefix_append cell.toList _

theorem notMem_column {width : Nat} {cell : String} (h : '\n' ∉ cell.toList) :
    '\n' ∉ column width cell := by
  intro hmem
  rcases List.mem_append.mp hmem with hmem | hmem
  · rcases List.mem_append.mp hmem with hmem | hmem
    · exact h hmem
    · exact absurd (List.eq_of_mem_replicate hmem) (by decide)
  · exact absurd hmem (by decide)

/-! ## Lines -/

/-- The widths in characters of the three columns before the setters. -/
structure Columns where
  name : Nat
  type : Nat
  kind : Nat

namespace Columns

def typeStart (w : Columns) : Nat :=
  w.name + 2

def kindStart (w : Columns) : Nat :=
  w.typeStart + (w.type + 2)

def setterStart (w : Columns) : Nat :=
  w.kindStart + (w.kind + 2)

/-- A line up to the place where the setter begins. -/
def front (w : Columns) (name type kind : String) : List Char :=
  column w.name name ++ column w.type type ++ column w.kind kind

/-- The cells are not wider than their columns. -/
structure Fit (w : Columns) (name type kind : String) : Prop where
  name_le : name.length ≤ w.name
  type_le : type.length ≤ w.type
  kind_le : kind.length ≤ w.kind

/-- A line that shows four cells: blanks are dropped at its end, but none before the place where the
setter begins, and each cell begins where its column does. -/
structure Shows (w : Columns) (name type kind setter : String) (line : List Char) : Prop
    extends w.Fit name type kind where
  trimmed : line = Text.trimRight (w.front name type kind ++ setter.toList)
  kept : line = w.front name type kind ++ Text.trimRight setter.toList
  setter_ne_nil : Text.trimRight setter.toList ≠ []
  name_at : name.toList <+: line
  type_at : type.toList <+: line.drop w.typeStart
  kind_at : kind.toList <+: line.drop w.kindStart
  setter_at : line.drop w.setterStart = Text.trimRight setter.toList

variable {w : Columns} {name type kind setter : String}

/-- Trimming stops at the first character of the setter if not before. -/
theorem shows_trimRight (h : w.Fit name type kind) {c : Char} {cs : List Char}
    (hsetter : setter.toList = c :: cs) (hc : Text.isBlank c = false) :
    w.Shows name type kind setter
      (Text.trimRight (w.front name type kind ++ setter.toList)) := by
  have htrim : Text.trimRight setter.toList = c :: Text.trimRight cs := by
    rw [hsetter]
    exact Text.trimRight_append hc [] cs
  have hkept : Text.trimRight (w.front name type kind ++ setter.toList) =
      w.front name type kind ++ Text.trimRight setter.toList := by
    rw [htrim, hsetter, Text.trimRight_append hc]
  have hname := length_column h.name_le
  have htype := length_column h.type_le
  have hkind := length_column h.kind_le
  refine ⟨h, rfl, hkept, by simp [htrim], ?_, ?_, ?_, ?_⟩
  · rw [hkept, front, List.append_assoc, List.append_assoc]
    exact prefix_column w.name name _
  · rw [hkept, front, List.append_assoc, List.append_assoc, typeStart, List.drop_left' hname]
    exact prefix_column w.type type _
  · rw [hkept, front, List.append_assoc, List.drop_left']
    · exact prefix_column w.kind kind _
    · rw [List.length_append, hname, htype, kindStart, typeStart]
  · rw [hkept, List.drop_left']
    rw [front, List.length_append, List.length_append, hname, htype, hkind, setterStart, kindStart,
      typeStart]

/-- No line end is in a line if none is in its cells. -/
theorem Shows.notMem {line : List Char} (h : w.Shows name type kind setter line)
    (hname : '\n' ∉ name.toList) (htype : '\n' ∉ type.toList) (hkind : '\n' ∉ kind.toList)
    (hsetter : '\n' ∉ setter.toList) : '\n' ∉ line := by
  have hfront : '\n' ∉ w.front name type kind := by
    rw [front, List.mem_append, List.mem_append, not_or, not_or]
    exact ⟨⟨notMem_column hname, notMem_column htype⟩, notMem_column hkind⟩
  have hrest : '\n' ∉ Text.trimRight setter.toList :=
    fun hmem => hsetter (Text.mem_of_mem_trimRight hmem)
  rw [h.kept, List.mem_append, not_or]
  exact ⟨hfront, hrest⟩

end Columns

/-- The padding of the last cell is dropped with the blanks at its end. -/
theorem line_eq (a b c d : Nat) (name type kind setter : String) :
    line [a, b, c, d] [name, type, kind, setter] =
      Text.trimRight ((Columns.mk a b c).front name type kind ++ setter.toList) := by
  have hjoin : Text.joinWith [' ', ' '] (List.zipWith padded [a, b, c, d]
      [name, type, kind, setter]) = (Columns.mk a b c).front name type kind ++ padded d setter := by
    simp [Text.joinWith, Columns.front, column]
  rw [line, hjoin, trimRight_padded]

/-! ## The table -/

theorem length_of_mem_rows {m : Model} : ∀ row ∈ rows m, row.length = 4 := by
  intro row hrow
  rcases List.mem_cons.mp hrow with rfl | hrow
  · rfl
  · obtain ⟨field, -, rfl⟩ := List.mem_map.mp hrow
    rfl

theorem Fits.fit {w : Columns} {last : Nat} {name type kind setter : String}
    (h : Fits [name, type, kind, setter] [w.name, w.type, w.kind, last]) :
    w.Fit name type kind := by
  obtain ⟨hname, h⟩ := List.forall₂_cons.mp h
  obtain ⟨htype, h⟩ := List.forall₂_cons.mp h
  obtain ⟨hkind, -⟩ := List.forall₂_cons.mp h
  exact ⟨(length_le_utf8ByteSize name).trans hname, (length_le_utf8ByteSize type).trans htype,
    (length_le_utf8ByteSize kind).trans hkind⟩

/-- The widths of the columns, and that every row fits into them. -/
theorem exists_columns (m : Model) : ∃ (w : Columns) (last : Nat),
    widths (rows m) = [w.name, w.type, w.kind, last] ∧
      ∀ row ∈ rows m, Fits row [w.name, w.type, w.kind, last] := by
  have hfits : ∀ row ∈ rows m, Fits row (widths (rows m)) := fits_widths length_of_mem_rows
  have hlength : (widths (rows m)).length = 4 :=
    (hfits titles List.mem_cons_self).length_eq.symm
  obtain ⟨name, type, kind, last, hwidths⟩ := List.length_eq_four.mp hlength
  refine ⟨⟨name, type, kind⟩, last, hwidths, ?_⟩
  rw [← hwidths]
  exact hfits

theorem shows_titles {w : Columns} (h : w.Fit "FIELD" "TYPE" "KIND") :
    w.Shows "FIELD" "TYPE" "KIND" "SETTER"
      (Text.trimRight (w.front "FIELD" "TYPE" "KIND" ++ "SETTER".toList)) :=
  Columns.shows_trimRight h rfl rfl

theorem shows_cells {w : Columns} {name : String} {type : FieldType}
    (h : w.Fit name type.canonical type.kind) :
    w.Shows name type.canonical type.kind (setterName name)
      (Text.trimRight (w.front name type.canonical type.kind ++ (setterName name).toList)) :=
  Columns.shows_trimRight h (toList_setterName name) rfl

theorem newline_notMem_canonical (type : FieldType) : '\n' ∉ type.canonical.toList := by
  intro hmem
  rw [FieldType.canonical, String.toList_ofList] at hmem
  have hblank := type.unbroken_canonicalText '\n' hmem
  contradiction

theorem newline_notMem_setterName {name : String} (h : '\n' ∉ name.toList) :
    '\n' ∉ (setterName name).toList := by
  rw [toList_setterName, List.mem_append, not_or]
  refine ⟨by decide, notMem_setterBody (by decide) rfl fun word hword hmem => h ?_⟩
  exact (Text.mem_piece_of_splitOn hword '\n' hmem).1

theorem newline_notMem_kind (type : FieldType) : '\n' ∉ type.kind.toList := by
  cases type with
  | integer range => exact (by decide : '\n' ∉ "int".toList)
  | float range => exact (by decide : '\n' ∉ "float".toList)
  | text shape => exact (by decide : '\n' ∉ "text".toList)
  | image size => exact (by decide : '\n' ∉ "image".toList)

theorem render?_eq_some {m : Model}
    (h : ∀ row ∈ rows m, ∀ cell ∈ row, cell.utf8ByteSize ≤ widestColumn) :
    render? m = some (String.ofList (((rows m).map (line (widths (rows m)))).flatMap
      (· ++ ['\n']))) := by
  have hnarrow : (widths (rows m)).all (· ≤ widestColumn) = true :=
    List.all_eq_true.mpr fun width hwidth => decide_eq_true (widths_le h width hwidth)
  rw [render?, if_pos hnarrow, List.flatMap_map]

/-- A report is a line of titles and then a line for each field in the order of the model. All lines
have the same three columns before the setter, wide enough for all cells, so each cell begins at the
same character of every line, and what is dropped at the end of a line comes after the place where
the setter begins. -/
theorem render_aligns_columns (m : Model) (hnames : ∀ name ∈ m.names, '\n' ∉ name.toList)
    (hcells : ∀ field ∈ m.toList, ∀ cell ∈ cells field.1 field.2, cell.utf8ByteSize < 65536) :
    ∃ (text : String) (w : Columns) (header : List Char) (lines : List (List Char)),
      render? m = some text ∧
        text.toList = (header :: lines).flatMap (· ++ ['\n']) ∧
        (∀ line ∈ header :: lines, '\n' ∉ line) ∧
        (header :: lines).length = m.size + 1 ∧
        w.Shows "FIELD" "TYPE" "KIND" "SETTER" header ∧
        List.Forall₂ (fun field line => w.Shows field.1 field.2.canonical field.2.kind
          (setterName field.1) line) m.toList lines := by
  obtain ⟨w, last, hwidths, hfits⟩ := exists_columns m
  have hbound : ∀ row ∈ rows m, ∀ cell ∈ row, cell.utf8ByteSize ≤ widestColumn := by
    refine List.forall_mem_cons.mpr ⟨by decide, List.forall_mem_map.mpr ?_⟩
    intro field hfield cell hcell
    exact Nat.le_of_lt_succ (hcells field hfield cell hcell)
  have hheader : w.Shows "FIELD" "TYPE" "KIND" "SETTER" (line (widths (rows m)) titles) := by
    rw [hwidths, titles, line_eq]
    exact shows_titles (hfits titles List.mem_cons_self).fit
  have hlines : ∀ field ∈ m.toList, w.Shows field.1 field.2.canonical field.2.kind
      (setterName field.1) (line (widths (rows m)) (cells field.1 field.2)) := by
    intro field hfield
    have hrow := hfits _ (List.mem_cons_of_mem titles (List.mem_map_of_mem hfield))
    rw [hwidths, cells, line_eq]
    exact shows_cells hrow.fit
  refine ⟨_, w, line (widths (rows m)) titles,
    m.toList.map fun field => line (widths (rows m)) (cells field.1 field.2),
    render?_eq_some hbound, ?_, ?_, ?_, hheader, ?_⟩
  · rw [String.toList_ofList, rows, List.map_cons, List.map_map]
    rfl
  · refine List.forall_mem_cons.mpr ⟨?_, List.forall_mem_map.mpr ?_⟩
    · exact hheader.notMem (by decide) (by decide) (by decide) (by decide)
    · intro field hfield
      have hname := hnames field.1 (List.mem_map_of_mem hfield)
      exact (hlines field hfield).notMem hname (newline_notMem_canonical field.2)
        (newline_notMem_kind field.2) (newline_notMem_setterName hname)
  · rw [List.length_cons, List.length_map]
    rfl
  · rw [List.forall₂_map_right_iff, List.forall₂_same]
    exact hlines

/-- A name with more bytes than characters, and one whose setter ends in a blank. -/
theorem render_aligns_columns_of_wide_name :
    ∃ m : Model, m.toList = [("größe", .integer .nonNegative), ("名_b ", .text ⟨.words, .fixed 3⟩)] ∧
      (∀ name ∈ m.names, '\n' ∉ name.toList) ∧
      (∀ field ∈ m.toList, ∀ cell ∈ cells field.1 field.2, cell.utf8ByteSize < 65536) ∧
      ∃ (text : String) (w : Columns) (header first second : List Char),
        render? m = some text ∧
          text.toList = [header, first, second].flatMap (· ++ ['\n']) ∧
          w.Shows "FIELD" "TYPE" "KIND" "SETTER" header ∧
          w.Shows "größe" "i" "int" "setGröße" first ∧
          w.Shows "名_b " "t:3w" "text" "set名B " second := by
  have hfirst : cells "größe" (.integer .nonNegative) = ["größe", "i", "int", "setGröße"] := by
    decide +kernel
  have hsecond : cells "名_b " (.text ⟨.words, .fixed 3⟩) = ["名_b ", "t:3w", "text", "set名B "] := by
    decide +kernel
  obtain ⟨m, hm⟩ : ∃ m : Model,
      m.toList = [("größe", .integer .nonNegative), ("名_b ", .text ⟨.words, .fixed 3⟩)] :=
    ⟨⟨⟨_, by decide⟩⟩, rfl⟩
  have hnames : ∀ name ∈ m.names, '\n' ∉ name.toList := by
    change ∀ name ∈ m.toList.map Prod.fst, '\n' ∉ name.toList
    rw [hm]
    decide
  have hcells : ∀ field ∈ m.toList, ∀ cell ∈ cells field.1 field.2, cell.utf8ByteSize < 65536 := by
    rw [hm]
    refine List.forall_mem_cons.mpr ⟨?_, List.forall_mem_singleton.mpr ?_⟩
    · rw [hfirst]
      decide
    · rw [hsecond]
      decide
  obtain ⟨text, w, header, lines, hrender, htext, -, -, hheader, hlines⟩ :=
    render_aligns_columns m hnames hcells
  rw [hm] at hlines
  obtain ⟨first, rest, hshown, hrest, rfl⟩ := List.forall₂_cons_left_iff.mp hlines
  obtain ⟨second, none, hshown', hnone, rfl⟩ := List.forall₂_cons_left_iff.mp hrest
  obtain rfl := List.forall₂_nil_left_iff.mp hnone
  simp only [cells, List.cons.injEq, and_true, true_and] at hfirst hsecond
  rw [hfirst.1, hfirst.2.1, hfirst.2.2] at hshown
  rw [hsecond.1, hsecond.2.1, hsecond.2.2] at hshown'
  exact ⟨m, hm, hnames, hcells, text, w, header, first, second, hrender, htext, hheader, hshown,
    hshown'⟩

end Specimen.Report
