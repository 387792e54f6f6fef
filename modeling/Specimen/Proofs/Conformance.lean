import Specimen.Generator
import Specimen.Proofs.FieldOrder
import Specimen.Proofs.RangeDraws

/-!
# Records and their models

A record has the names of its model in order and holds under each of them a value that the type of
the field admits. The values are inserted as they are drawn, yet they come from the types and the
source alone: a record is filled as if all values were drawn first, the types gone through in order,
and then put under their names (`fill_eq`, `values_append`). Names play no part, and a record of one
model after another is a record of the two together (`fetch_conforms_and_splits`).
-/

namespace Specimen

/-! ## Admitted values -/

/-- Whether a text may have a number of units. -/
def Amount.Admits : Amount → Nat → Prop
  | .fixed count, n => n = count
  | .range counts, n => counts.min ≤ n ∧ n ≤ counts.max

/-- From 4 to 17 words of the pool, separated by single spaces, with the first letter in upper case
and a period at the end. -/
def IsSentence (sentence : String) : Prop :=
  ∃ ws : List String, (4 ≤ ws.length ∧ ws.length ≤ 17) ∧ (∀ w ∈ ws, w ∈ WordPool.words) ∧
    sentence.toList = Text.capitalize (" ".intercalate ws).toList ++ ['.']

/-- Whether a text is one unit of a kind. -/
def TextUnit.IsUnit : TextUnit → String → Prop
  | .words, unit => unit ∈ WordPool.words
  | .sentences, unit => IsSentence unit

/-- The values of a type: the integers of the range; floats; texts of an admitted number of units
separated by single spaces; the addresses of images numbered up to 1000. -/
inductive FieldType.Admits : FieldType → Value → Prop where
  | int {range : IntRange} {n : Int64} (hmin : range.min ≤ n) (hmax : n ≤ range.max) :
      Admits (.integer range) (.int n)
  | float {range : FloatRange} {x : Float} : Admits (.float range) (.float x)
  | text {shape : TextShape} {units : List String} (hcount : shape.amount.Admits units.length)
      (hunits : ∀ unit ∈ units, shape.unit.IsUnit unit) :
      Admits (.text shape) (.text (" ".intercalate units))
  | image {size : ImageSize} {number : Nat} (h : number ≤ 1000) :
      Admits (.image size)
        (.text ("https://picsum.photos/" ++ size.width ++ "/" ++ size.height ++ "?image=" ++
          String.ofList (Nat.toDigits 10 number)))

/-- A record with the names of a model, each once and in order, that holds under each of them a
value that the type of the field admits. -/
structure Record.Conforms (r : Record) (model : Model) : Prop where
  names_eq : r.names = model.names
  nodup : r.names.Nodup
  admits : ∀ {name : String} {type : FieldType}, (name, type) ∈ model.toList →
    ∃ v, r.get? name = some v ∧ type.Admits v

/-! ## Drawn values are admitted -/

namespace Generate

variable {σ : Type} [RandomSource σ]

theorem joinWith_eq_intercalate (sep : List Char) (pieces : List (List Char)) :
    Text.joinWith sep pieces = sep.intercalate pieces := by
  induction pieces with
  | nil => rfl
  | cons piece pieces ih =>
    cases pieces with
    | nil => simp [Text.joinWith]
    | cons next pieces => simp [Text.joinWith, ih]

omit [RandomSource σ] in
/-- What is drawn again and again is drawn as often as asked for, and what holds of every drawn item
holds of all those drawn one after the other. -/
theorem gives_repeated {α : Type} {p : α → Prop} {draw : σ → Except DrawError (α × σ)}
    (h : Draw.Gives draw p) (n : Nat) :
    Draw.Gives (repeated draw n) fun as => as.length = n ∧ ∀ a ∈ as, p a := by
  induction n with
  | zero => exact fun s => ⟨[], s, rfl, rfl, fun a ha => absurd ha List.not_mem_nil⟩
  | succ n ih =>
    intro s
    obtain ⟨a, s₁, hdraw, ha⟩ := h s
    obtain ⟨as, s₂, hrest, hlength, has⟩ := ih s₁
    refine ⟨a :: as, s₂, ?_, congrArg Nat.succ hlength, List.forall_mem_cons.mpr ⟨ha, has⟩⟩
    simp [repeated, hdraw, hrest]

/-- Pieces that all satisfy `p`, as many as `n`, joined by spaces. -/
def Joins (p : String → Prop) (n : Nat) (cs : List Char) : Prop :=
  ∃ pieces : List String, pieces.length = n ∧ (∀ piece ∈ pieces, p piece) ∧
    cs = (" ".intercalate pieces).toList

theorem joins_joinWith {p : String → Prop} {pieces : List (List Char)}
    (h : ∀ piece ∈ pieces, p (String.ofList piece)) :
    Joins p pieces.length (Text.joinWith [' '] pieces) := by
  refine ⟨pieces.map String.ofList, List.length_map _, List.forall_mem_map.mpr h, ?_⟩
  rw [joinWith_eq_intercalate, String.toList_intercalate, List.map_map]
  simp [Function.comp_def]

theorem gives_word : Draw.Gives (@word σ _) fun cs => String.ofList cs ∈ WordPool.words := by
  intro s
  obtain ⟨i, s', w, -, -, hget, hword⟩ := Draw.word_eq_index s
  have hmem : w ∈ WordPool.words := List.mem_of_getElem? hget
  exact ⟨w.toList, s', hword, by simpa using hmem⟩

theorem gives_words (n : Nat) : Draw.Gives (@words σ _ n) (Joins (· ∈ WordPool.words) n) := by
  intro s
  obtain ⟨ws, s', hdrawn, rfl, hpool⟩ := gives_repeated gives_word n s
  exact ⟨_, s', by simp [words, hdrawn], joins_joinWith hpool⟩

theorem gives_sentence : Draw.Gives (@sentence σ _) fun cs => IsSentence (String.ofList cs) := by
  intro s
  have hlength := Draw.count_mem sentenceLengths s
  obtain ⟨cs, s', hwords, ws, hcount, hpool, htext⟩ :=
    gives_words (Draw.count sentenceLengths s).1 (Draw.count sentenceLengths s).2
  refine ⟨Text.capitalize cs ++ ['.'], s', by simp [sentence, hwords], ws, hcount ▸ hlength, hpool,
    ?_⟩
  rw [String.toList_ofList, htext]

theorem gives_sentences (n : Nat) : Draw.Gives (@sentences σ _ n) (Joins IsSentence n) := by
  intro s
  obtain ⟨ss, s', hdrawn, rfl, hall⟩ := gives_repeated gives_sentence n s
  exact ⟨_, s', by simp [sentences, hdrawn], joins_joinWith hall⟩

theorem gives_amount (a : Amount) : Draw.Gives (@amount σ _ a) a.Admits := by
  intro s
  cases a with
  | fixed count => exact ⟨count, s, rfl, rfl⟩
  | range counts => exact ⟨_, _, Draw.countBetween_range counts s, Draw.count_mem counts s⟩

theorem gives_text (shape : TextShape) :
    Draw.Gives (@text σ _ shape) fun cs =>
      ∃ n, shape.amount.Admits n ∧ Joins shape.unit.IsUnit n cs := by
  intro s
  obtain ⟨n, s₁, hcount, hadmits⟩ := gives_amount shape.amount s
  obtain ⟨unit, a⟩ := shape
  cases unit with
  | words =>
    obtain ⟨cs, s₂, hdrawn, hjoins⟩ := gives_words n s₁
    exact ⟨cs, s₂, by simp [text, hcount, hdrawn], n, hadmits, hjoins⟩
  | sentences =>
    obtain ⟨cs, s₂, hdrawn, hjoins⟩ := gives_sentences n s₁
    exact ⟨cs, s₂, by simp [text, hcount, hdrawn], n, hadmits, hjoins⟩

/-- The types whose values are drawn from every source: all but the ranges of floats. -/
theorem gives_value {type : FieldType} (h : ∀ range, type ≠ .float range) :
    Draw.Gives (@value σ _ type) type.Admits := by
  intro s
  cases type with
  | integer range =>
    have hmem := Draw.integer_mem range s
    refine ⟨.int (Draw.integer range s).1, (Draw.integer range s).2, ?_, .int hmem.1 hmem.2⟩
    rw [value, Draw.integerBetween_range, ok_bind]
  | float range => exact absurd rfl (h range)
  | text shape =>
    obtain ⟨cs, s', hdrawn, n, hcount, units, rfl, hunits, rfl⟩ := gives_text shape s
    refine ⟨.text (" ".intercalate units), s', ?_, .text hcount hunits⟩
    rw [value, hdrawn]
    simp only [ok_bind, String.ofList_toList]
  | image size =>
    have hnumber := (Draw.count_mem imageNumbers s).2
    refine ⟨_, (Draw.count imageNumbers s).2, ?_, .image hnumber⟩
    rw [value, imageAddress, Draw.countBetween_range]
    rfl

/-- Each kind of type draws a value that it admits. -/
theorem admits_of_value {type : FieldType} {s s' : σ} {v : Value}
    (h : value type s = .ok (v, s')) : type.Admits v := by
  cases type with
  | float range =>
    obtain ⟨drawn, -, hv⟩ := bind_eq_ok_iff.mp h
    cases hv
    exact .float
  | integer range => exact (gives_value (fun _ => FieldType.noConfusion)).of_eq_ok h
  | text shape => exact (gives_value (fun _ => FieldType.noConfusion)).of_eq_ok h
  | image size => exact (gives_value (fun _ => FieldType.noConfusion)).of_eq_ok h

/-! ## Values of several types -/

/-- A value of each type, one after the other. -/
def values : List FieldType → σ → Except DrawError (List Value × σ)
  | [], s => .ok ([], s)
  | type :: types, s => do
    let (v, s) ← value type s
    let (vs, s) ← values types s
    .ok (v :: vs, s)

theorem admits_of_values {types : List FieldType} {s s' : σ} {vs : List Value}
    (h : values types s = .ok (vs, s')) : List.Forall₂ FieldType.Admits types vs := by
  induction types generalizing s vs with
  | nil =>
    cases h
    exact .nil
  | cons type types ih =>
    obtain ⟨⟨v, s₁⟩, hfirst, hlater⟩ := bind_eq_ok_iff.mp h
    obtain ⟨⟨ws, s₂⟩, hrest, hall⟩ := bind_eq_ok_iff.mp hlater
    cases hall
    exact .cons (admits_of_value hfirst) (ih hrest)

/-- The values of some types and then of more come from the source one after the other: by induction
on the first types. -/
theorem values_append (types others : List FieldType) (s : σ) :
    values (types ++ others) s = (do
      let (vs, s) ← values types s
      let (ws, s) ← values others s
      .ok (vs ++ ws, s)) := by
  induction types generalizing s with
  | nil =>
    simp only [List.nil_append, values, ok_bind]
    cases values others s <;> rfl
  | cons type types ih =>
    rw [List.cons_append, values, values]
    cases value type s with
    | error cause => rfl
    | ok first =>
      simp only [ok_bind, ih]
      cases values types first.2 with
      | error cause => rfl
      | ok rest =>
        simp only [ok_bind]
        cases values others rest.2 <;> rfl

/-- Filling a record is drawing a value of each type and then inserting them under the names: what
is inserted first does not reach the draws after it. By induction on the fields, for any record to
begin with. -/
theorem fill_eq (fields : List (String × FieldType)) (r : Record) (s : σ) :
    fill fields r s = (values (fields.map Prod.snd) s).map fun (vs, s') =>
      (r.insertAll ((fields.map Prod.fst).zip vs), s') := by
  induction fields generalizing r s with
  | nil => rfl
  | cons field fields ih =>
    simp only [fill, List.map_cons, values]
    cases value field.2 s with
    | error cause => rfl
    | ok first =>
      simp only [ok_bind, ih]
      cases values (fields.map Prod.snd) first.2 <;> rfl

end Generate

namespace Generator

variable {σ : Type} [RandomSource σ]

/-! ## Records of a model -/

/-- A call of `fetch` draws a value of each type and puts the names to them. -/
theorem fetch_eq (g : Generator σ) :
    g.fetch = (Generate.values (g.model.toList.map Prod.snd) g.source).map fun (vs, source) =>
      (Record.ofList (g.model.names.zip vs), { g with source }) := by
  unfold fetch Generate.record
  rw [Generate.fill_eq]
  cases Generate.values (g.model.toList.map Prod.snd) g.source with
  | error cause => rfl
  | ok drawn =>
    simp only [map_ok, ok_bind, Record.ofList_eq_insertAll g.model.size]
    rfl

section Admitted

variable {model : Model} {vs : List Value}
  (h : List.Forall₂ FieldType.Admits (model.toList.map Prod.snd) vs)

include h

theorem length_names : model.names.length = vs.length := by
  rw [← h.length_eq, List.length_map]
  exact List.length_map ..

theorem toList_record :
    (Record.ofList (model.names.zip vs)).toList = model.names.zip vs := by
  refine Entries.toList_ofList ?_
  rw [List.map_fst_zip (Nat.le_of_eq (length_names h))]
  exact model.fields.distinct

end Admitted

/-- Where a value stands for each type, one stands under each name: by induction on the fields. -/
theorem exists_mem_zip {fields : List (String × FieldType)} {vs : List Value}
    (h : List.Forall₂ FieldType.Admits (fields.map Prod.snd) vs) {name : String}
    {type : FieldType} (hfield : (name, type) ∈ fields) :
    ∃ v, (name, v) ∈ (fields.map Prod.fst).zip vs ∧ type.Admits v := by
  induction fields generalizing vs with
  | nil => exact absurd hfield List.not_mem_nil
  | cons field fields ih =>
    rw [List.map_cons] at h
    cases h with
    | @cons _ v _ vs hfirst hrest =>
      rw [List.map_cons, List.zip_cons_cons]
      rcases List.mem_cons.mp hfield with rfl | hlater
      · exact ⟨v, List.mem_cons_self .., hfirst⟩
      · obtain ⟨w, hmem, hadmits⟩ := ih hrest hlater
        exact ⟨w, List.mem_cons_of_mem _ hmem, hadmits⟩

theorem record_conforms {model : Model} {vs : List Value}
    (h : List.Forall₂ FieldType.Admits (model.toList.map Prod.snd) vs) :
    (Record.ofList (model.names.zip vs)).Conforms model where
  names_eq := by
    show (Record.ofList (model.names.zip vs)).toList.map Prod.fst = model.names
    rw [toList_record h, List.map_fst_zip (Nat.le_of_eq (length_names h))]
  nodup := (Record.ofList (model.names.zip vs)).fields.distinct
  admits {name type} hfield := by
    obtain ⟨v, hmem, hadmits⟩ := exists_mem_zip h hfield
    have hrecord : (name, v) ∈ (Record.ofList (model.names.zip vs)).toList := by
      rw [toList_record h]
      exact hmem
    have hdistinct := (Record.ofList (model.names.zip vs)).fields.distinct
    exact ⟨v, Entries.lookup_of_mem hdistinct hrecord, hadmits⟩

/-- The values of the next record are drawn for the types of the model; its names play no part. -/
theorem fetch_map_values (g : Generator σ) :
    g.fetch.map (fun (r, g') => (r.toList.map Prod.snd, g'.source)) =
      Generate.values (g.model.toList.map Prod.snd) g.source := by
  rw [fetch_eq]
  cases hvalues : Generate.values (g.model.toList.map Prod.snd) g.source with
  | error cause => rfl
  | ok drawn =>
    have hadmits := Generate.admits_of_values hvalues
    have hlength := Nat.le_of_eq (length_names hadmits).symm
    simp only [map_ok, toList_record hadmits, List.map_snd_zip hlength]

/-- A record of a model holds the pairs of a record of its first fields and then those of a record
of its other fields, which is drawn from where the first one leaves the source. -/
theorem fetch_append (g : Generator σ) {first second : Model}
    (h : g.model.toList = first.toList ++ second.toList) :
    g.fetch.map (fun (r, g') => (r.toList, g'.source)) = (do
      let (r₁, g₁) ← ({ g with model := first } : Generator σ).fetch
      let (r₂, g₂) ← ({ g₁ with model := second } : Generator σ).fetch
      .ok (r₁.toList ++ r₂.toList, g₂.source)) := by
  have hnames : g.model.names = first.names ++ second.names :=
    (congrArg (List.map Prod.fst) h).trans List.map_append
  have htypes : g.model.toList.map Prod.snd =
      first.toList.map Prod.snd ++ second.toList.map Prod.snd := by
    rw [h, List.map_append]
  rw [fetch_eq, fetch_eq, htypes, Generate.values_append]
  cases hfirst : Generate.values (first.toList.map Prod.snd) g.source with
  | error cause => rfl
  | ok drawn₁ =>
    simp only [ok_bind, map_ok, fetch_eq]
    cases hsecond : Generate.values (second.toList.map Prod.snd) drawn₁.2 with
    | error cause => rfl
    | ok drawn₂ =>
      have hwhole : Generate.values (g.model.toList.map Prod.snd) g.source =
          .ok (drawn₁.1 ++ drawn₂.1, drawn₂.2) := by
        simp [htypes, Generate.values_append, hfirst, hsecond]
      have hadmits₁ := Generate.admits_of_values hfirst
      have hadmits₂ := Generate.admits_of_values hsecond
      have hrecord := toList_record (Generate.admits_of_values hwhole)
      rw [hnames, List.zip_append (length_names hadmits₁)] at hrecord
      simp only [ok_bind, map_ok, toList_record hadmits₁, toList_record hadmits₂, hnames,
        List.zip_append (length_names hadmits₁), hrecord]

/-- A record that `fetch` gives conforms to the model, and only the source moves. The values of the
record and the source after it are the same for all models with the same types in order. For a model
of some fields and then others, `fetch` gives the same pairs as a call for each of the two parts,
one after the other. -/
theorem fetch_conforms_and_splits :
    (∀ (g g' : Generator σ) (r : Record), g.fetch = .ok (r, g') →
        r.Conforms g.model ∧ g' = { g with source := g'.source }) ∧
      (∀ g₁ g₂ : Generator σ, g₁.model.toList.map Prod.snd = g₂.model.toList.map Prod.snd →
        g₁.source = g₂.source →
          g₁.fetch.map (fun (r, g') => (r.toList.map Prod.snd, g'.source)) =
            g₂.fetch.map (fun (r, g') => (r.toList.map Prod.snd, g'.source))) ∧
      ∀ (g : Generator σ) (first second : Model),
        g.model.toList = first.toList ++ second.toList →
          g.fetch.map (fun (r, g') => (r.toList, g'.source)) = (do
            let (r₁, g₁) ← ({ g with model := first } : Generator σ).fetch
            let (r₂, g₂) ← ({ g₁ with model := second } : Generator σ).fetch
            .ok (r₁.toList ++ r₂.toList, g₂.source)) := by
  refine ⟨fun g g' r hfetch => ?_, fun g₁ g₂ htypes hsource => ?_, fun g first second h => ?_⟩
  · rw [fetch_eq, map_eq_ok_iff] at hfetch
    obtain ⟨⟨vs, source⟩, hvalues, hrecord⟩ := hfetch
    cases hrecord
    exact ⟨record_conforms (Generate.admits_of_values hvalues), rfl⟩
  · rw [fetch_map_values, fetch_map_values, htypes, hsource]
  · exact fetch_append g h

/-- A record of a number and an image: it has both names, the values are those under other names,
and the image is drawn after the number. -/
theorem fetch_number_and_image :
    let whole : Model := ⟨⟨[("roll", .integer ⟨1, 6, by decide⟩),
      ("photo", .image ⟨"40", "30", by decide, by decide⟩)], by decide⟩⟩
    let renamed : Model := ⟨⟨[("a", .integer ⟨1, 6, by decide⟩),
      ("b", .image ⟨"40", "30", by decide, by decide⟩)], by decide⟩⟩
    let roll : Model := ⟨⟨[("roll", .integer ⟨1, 6, by decide⟩)], by decide⟩⟩
    let photo : Model := ⟨⟨[("photo", .image ⟨"40", "30", by decide, by decide⟩)], by decide⟩⟩
    let g : Generator Script := ⟨whole, 2, .ofWords [7]⟩
    (∃ r source, g.fetch = .ok (r, { g with source }) ∧ r.Conforms whole) ∧
      g.fetch.map (fun (r, g') => (r.toList.map Prod.snd, g'.source)) =
        ({ g with model := renamed } : Generator Script).fetch.map
          (fun (r, g') => (r.toList.map Prod.snd, g'.source)) ∧
      g.fetch.map (fun (r, g') => (r.toList, g'.source)) = (do
        let (r₁, g₁) ← ({ g with model := roll } : Generator Script).fetch
        let (r₂, g₂) ← ({ g₁ with model := photo } : Generator Script).fetch
        .ok (r₁.toList ++ r₂.toList, g₂.source)) := by
  intro whole renamed roll photo g
  have hfetch : g.fetch = .ok _ := rfl
  have hconforms := (fetch_conforms_and_splits.1 g _ _ hfetch).1
  exact ⟨⟨_, _, hfetch, hconforms⟩, fetch_conforms_and_splits.2.1 _ _ rfl rfl,
    fetch_conforms_and_splits.2.2 g roll photo rfl⟩

end Generator

end Specimen
