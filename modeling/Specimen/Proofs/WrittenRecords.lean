import Specimen.Proofs.Handover
import Specimen.Proofs.InsertionOrder
import Specimen.Proofs.JsonModels
import Specimen.Proofs.JsonValues

/-!
# Records read back from written batches

The tokens of a record are the same on one line and on several, and they are read as a record with
the names in order and each value as it is read back (`exists_readRecord`). A line end stands only
behind a record in JSON lines, since every one inside a name or a text is escaped
(`newline_notMem_recordText`). So a batch that is written as JSON is read back record by record
(`writeRecords_json_restores_records`).
-/

namespace Specimen

/-! ## Records -/

/-- Whether every value of a record is written as itself. -/
def Record.IsFinite (r : Record) : Prop :=
  ∀ field ∈ r.toList, field.2.IsFinite

/-- Whether fields are what other fields are read back as: under the same names, in order. -/
def FieldsReadBack : List (String × Value) → List (String × Value) → Prop :=
  List.Forall₂ fun a b => a.1 = b.1 ∧ a.2.ReadsBack b.2

/-- Whether a record is what another one is read back as. -/
def Record.ReadsBack (r r' : Record) : Prop :=
  FieldsReadBack r.toList r'.toList

namespace Json

/-- The tokens of the values of fields. -/
def fieldTokens (fields : List (String × Value)) : List (String × List Token) :=
  fields.map fun (name, v) => (name, [valueToken v])

/-- The tokens of a record. -/
def recordTokens (r : Record) : List Token :=
  mappingTokens (fieldTokens r.toList)

theorem spells_recordText {r : Record} (h : r.IsFinite) :
    Spells (recordText r) (recordTokens r) :=
  spells_mappingText_map Prod.fst fun field hfield => spells_valueText (h field hfield)

theorem spells_recordBlock (level : Nat) {r : Record} (h : r.IsFinite) :
    Spells (recordBlock level r) (recordTokens r) := by
  have hfirst : ('\x7b', .openBrace) ∈ marks := by simp [marks]
  have hlast : ('\x7d', .closeBrace) ∈ marks := by simp [marks]
  have hitems : List.Forall₂ Spells
      (r.toList.map fun field => quoted field.1 ++ ':' :: ' ' :: valueText field.2)
      ((fieldTokens r.toList).map fun m => .string (units m.1) :: .colon :: m.2) := by
    unfold fieldTokens
    rw [List.map_map]
    refine spells_items ?_
    intro field hfield
    exact spells_member [' '] (by simp [isSpace]) field.1 (spells_valueText (h field hfield))
  exact spells_blockText hfirst hlast level hitems

theorem spells_recordsBlock {records : List Record} (h : ∀ r ∈ records, r.IsFinite) :
    Spells (recordsBlock records)
      (enclosed .openBracket .closeBracket (records.map recordTokens)) := by
  have hfirst : ('[', .openBracket) ∈ marks := by simp [marks]
  have hlast : (']', .closeBracket) ∈ marks := by simp [marks]
  exact spells_blockText hfirst hlast 0 (spells_items fun r hr => spells_recordBlock 1 (h r hr))

theorem exists_readFieldsAfter {fields : List (String × Value)}
    (h : ∀ field ∈ fields, field.2.IsFinite) (rest : List Token) :
    ∃ read, readFieldsAfter (memberTokens (fieldTokens fields) ++ .closeBrace :: rest) =
      .ok (read, rest) ∧ FieldsReadBack fields read := by
  induction fields with
  | nil => exact ⟨[], rfl, .nil⟩
  | cons field fields ih =>
    obtain ⟨name, v⟩ := field
    obtain ⟨w, hvalue, hw⟩ := exists_scalarValue? (h (name, v) List.mem_cons_self)
    obtain ⟨read, hread, hback⟩ := ih fun f hf => h f (List.mem_cons_of_mem _ hf)
    refine ⟨(name, w) :: read, ?_, .cons ⟨rfl, hw⟩ hback⟩
    change readFieldsAfter (.comma :: .string (units name) :: .colon :: valueToken v ::
      (memberTokens (fieldTokens fields) ++ .closeBrace :: rest)) = _
    simp [readFieldsAfter, hvalue, hread]

theorem readFields_tail (fields : List (String × Value)) (rest : List Token) :
    readFields ((memberTokens (fieldTokens fields)).tail ++ .closeBrace :: rest) =
      readFieldsAfter (memberTokens (fieldTokens fields) ++ .closeBrace :: rest) := by
  cases fields <;> rfl

theorem names_eq_of_readBack {fields read : List (String × Value)}
    (h : FieldsReadBack fields read) : read.map Prod.fst = fields.map Prod.fst := by
  induction h with
  | nil => rfl
  | cons hfield _ ih => rw [List.map_cons, List.map_cons, hfield.1, ih]

theorem exists_readRecord {r : Record} (h : r.IsFinite) (rest : List Token) :
    ∃ r', readRecord (recordTokens r ++ rest) = .ok (r', rest) ∧ r.ReadsBack r' := by
  obtain ⟨read, hread, hback⟩ := exists_readFieldsAfter h rest
  have hnodup : (read.map Prod.fst).Nodup := by
    rw [names_eq_of_readBack hback]
    exact r.fields.distinct
  refine ⟨Record.ofList read, ?_, ?_⟩
  · simp [recordTokens, readRecord, readFields_tail, hread]
  · have hfields : (Record.ofList read).toList = read := Entries.toList_ofList hnodup
    rwa [Record.ReadsBack, hfields]

theorem exists_readRecordsAfter {records : List Record} (h : ∀ r ∈ records, r.IsFinite) {fuel : Nat}
    (hfuel : records.length ≤ fuel) (rest : List Token) :
    ∃ read, readRecordsAfter fuel (withCommas (records.map recordTokens) ++ .closeBracket :: rest) =
      .ok (read, rest) ∧ List.Forall₂ Record.ReadsBack records read := by
  induction records generalizing fuel with
  | nil =>
    refine ⟨[], ?_, .nil⟩
    cases fuel <;> rfl
  | cons r records ih =>
    obtain ⟨fuel, rfl⟩ : ∃ k, fuel = k + 1 := ⟨fuel - 1, by rw [List.length_cons] at hfuel; omega⟩
    obtain ⟨read, hread, hback⟩ :=
      ih (fun s hs => h s (List.mem_cons_of_mem r hs)) (Nat.le_of_succ_le_succ hfuel)
    obtain ⟨r', hr', hrecord⟩ := exists_readRecord (h r List.mem_cons_self)
      (withCommas (records.map recordTokens) ++ .closeBracket :: rest)
    refine ⟨r' :: read, ?_, .cons hrecord hback⟩
    simp [readRecordsAfter, hr', hread]

theorem exists_readRecords {records : List Record} (h : ∀ r ∈ records, r.IsFinite) :
    ∃ read, readRecords (enclosed .openBracket .closeBracket (records.map recordTokens)) =
      .ok (read, []) ∧ List.Forall₂ Record.ReadsBack records read := by
  cases records with
  | nil => exact ⟨[], rfl, .nil⟩
  | cons r records =>
    have hfuel : (r :: records).length ≤
        ((withCommas ((r :: records).map recordTokens)).tail ++
          [Token.closeBracket]).length + 1 := by
      have hlength := length_le_withCommas ((r :: records).map recordTokens)
      rw [List.length_map] at hlength
      rw [List.length_append, List.length_tail]
      omega
    obtain ⟨read, hread, hback⟩ := exists_readRecordsAfter h hfuel []
    exact ⟨read, hread, hback⟩

end Json

theorem Record.exists_ofJson {r : Record} (h : r.IsFinite) :
    ∃ r', ofJson (String.ofList (Json.recordText r)) = .ok r' ∧ r.ReadsBack r' := by
  obtain ⟨r', hread, hback⟩ := Json.exists_readRecord h []
  rw [List.append_nil] at hread
  exact ⟨r', Json.parse_of_spells (Json.spells_recordText h) hread, hback⟩

/-! ## Lines -/

namespace Json

theorem newline_notMem_hexEscape {n : Nat} (h : n < 0x20) :
    '\n' ∉ ['\\', 'u', '0', '0', hexDigit (n / 16), hexDigit (n % 16)] := by
  decide +revert

theorem newline_notMem_escape (c : Char) : '\n' ∉ escape c := by
  unfold escape
  split
  · rename_i letter c' hfind
    have hall : ∀ p ∈ letterEscapes, '\n' ∉ ['\\', p.1] := by decide
    exact hall (letter, c') (List.mem_of_find?_eq_some hfind)
  · split
    · rename_i hcontrol
      exact newline_notMem_hexEscape hcontrol
    · rename_i hcontrol
      intro hc
      rw [List.mem_singleton] at hc
      rw [← hc] at hcontrol
      exact hcontrol (by decide)

theorem newline_notMem_quoted (s : String) : '\n' ∉ quoted s := by
  simp [quoted, newline_notMem_escape]

theorem newline_notMem_literal {l : Literal} (h : l.WellFormed) : '\n' ∉ l.text := by
  have hdigits : ∀ {ds : List Char}, (∀ c ∈ ds, c.isDigit = true) → '\n' ∉ ds := by
    intro ds hds hmem
    exact absurd (hds _ hmem) (by decide)
  have hwhole := hdigits h.isDigit_whole
  have hfraction : '\n' ∉ Literal.fractionText l.fraction := by
    unfold Literal.fractionText
    split
    · exact List.not_mem_nil
    · simpa using hdigits h.isDigit_fraction
  have hexponent : '\n' ∉ Literal.exponentText l.exponent := by
    unfold Literal.exponentText
    split
    · exact List.not_mem_nil
    · simpa using hdigits (Numeral.digits_ofNat _).isDigit
    · simpa using hdigits (Numeral.digits_ofNat _).isDigit
  have hbody : '\n' ∉ l.body := by simp [Literal.body, hwhole, hfraction, hexponent]
  unfold Literal.text
  split
  · simpa using hbody
  · exact hbody

theorem newline_notMem_valueText {v : Value} (h : v.IsFinite) : '\n' ∉ valueText v := by
  cases v with
  | int n =>
    rw [valueText, ← Literal.text_ofInt]
    exact newline_notMem_literal (Literal.wellFormed_ofInt _)
  | float x =>
    rw [valueText, floatText_eq h]
    exact newline_notMem_literal (writes_ofFloat h).wellFormed
  | text s => exact newline_notMem_quoted s

theorem newline_notMem_mappingText {members : List (String × List Char)}
    (h : ∀ member ∈ members, '\n' ∉ member.2) : '\n' ∉ mappingText members := by
  have hjoined : '\n' ∉ Text.joinWith [',']
      (members.map fun member => quoted member.1 ++ ':' :: member.2) := by
    refine Text.notMem_joinWith (by decide) ?_
    intro piece hpiece
    obtain ⟨member, hmember, rfl⟩ := List.mem_map.mp hpiece
    simp [newline_notMem_quoted, h member hmember]
  unfold mappingText
  simp [hjoined]

theorem newline_notMem_recordText {r : Record} (h : r.IsFinite) : '\n' ∉ recordText r := by
  refine newline_notMem_mappingText ?_
  intro member hmember
  obtain ⟨field, hfield, rfl⟩ := List.mem_map.mp hmember
  exact newline_notMem_valueText (h field hfield)

end Json

/-! ## Batches -/

theorem OutputFormat.render_jsonl (records : List Record) :
    OutputFormat.jsonl.render records = String.join (records.map fun r => r.toJson ++ "\n") := by
  unfold render characters
  induction records with
  | nil => rfl
  | cons r records ih =>
    rw [List.flatMap_cons, String.ofList_append, ih, List.map_cons]
    simp [Record.toJson, String.ofList_append]

theorem Record.exists_listOfJson {records : List Record} (h : ∀ r ∈ records, r.IsFinite) :
    ∃ read, listOfJson (OutputFormat.json.render records) = .ok read ∧
      List.Forall₂ ReadsBack records read := by
  obtain ⟨read, hread, hback⟩ := Json.exists_readRecords h
  have htokens := Json.spells_recordsBlock h ['\n'] (Json.endsNumber_cons rfl [])
  rw [Json.tokens_space rfl, Json.tokens_nil, List.append_nil] at htokens
  refine ⟨read, ?_, hback⟩
  unfold listOfJson Json.parse OutputFormat.render OutputFormat.characters
  rw [String.toList_ofList, htokens, hread]
  rfl

/-- Records that are written as JSON, to whatever sink, are read back: from the lines, of which no
one is broken in two, or from the whole array. -/
theorem writeRecords_json_restores_records {records : List Record}
    (h : ∀ r ∈ records, r.IsFinite) :
    (∀ sink : Sink, sink.IsEndless → ∀ format, ∃ w, writeRecords records format sink = .ok w) ∧
      (∀ sink format w, writeRecords records format sink = .ok w →
        w.output = w.text.toUTF8 ∧ w.records = records.length ∧ w.bytes = w.text.utf8ByteSize) ∧
      (∀ sink w, writeRecords records .jsonl sink = .ok w →
        (records = [] → w.text = "") ∧
          ∃ lines : List String, w.text = String.join (lines.map (· ++ "\n")) ∧
            lines.length = records.length ∧
            List.Forall₂ (fun r line => '\n' ∉ line.toList ∧
              ∃ r', Record.ofJson line = .ok r' ∧ r.ReadsBack r') records lines) ∧
      ∀ sink w, writeRecords records .json sink = .ok w →
        ∃ read, Record.listOfJson w.text = .ok read ∧
          List.Forall₂ Record.ReadsBack records read := by
  refine ⟨fun sink hsink format => exists_writeRecords hsink records format, ?_, ?_, ?_⟩
  · intro sink format w hw
    obtain rfl := written_of_writeRecords hw
    rw [Written.text_eq]
    exact ⟨rfl, rfl, rfl⟩
  · intro sink w hw
    obtain rfl := written_of_writeRecords hw
    rw [Written.text_eq, OutputFormat.render_jsonl]
    refine ⟨?_, records.map Record.toJson, ?_, List.length_map _, ?_⟩
    · rintro rfl
      rfl
    · rw [List.map_map]
      rfl
    · rw [List.forall₂_map_right_iff, List.forall₂_same]
      intro r hr
      refine ⟨?_, Record.exists_ofJson (h r hr)⟩
      rw [Record.toJson, String.toList_ofList]
      exact Json.newline_notMem_recordText (h r hr)
  · intro sink w hw
    obtain rfl := written_of_writeRecords hw
    rw [Written.text_eq]
    exact Record.exists_listOfJson h

/-- A name and a text with line ends, the largest float and the least integer, on one line. -/
theorem writeRecords_jsonl_line_ends :
    let r := Record.ofList [("a\n", .text "\"\n\x00"),
      ("x", .float (Float.ofBits 0x7FEFFFFFFFFFFFFF)), ("n", .int (-9223372036854775808))]
    ∃ w line, writeRecords [r] .jsonl .unbounded = .ok w ∧ w.text = line ++ "\n" ∧
      '\n' ∉ line.toList ∧ w.records = 1 ∧ w.bytes = w.text.utf8ByteSize ∧
      ∃ r', Record.ofJson line = .ok r' ∧ r.ReadsBack r' := by
  intro r
  have hfinite : ∀ s ∈ [r], s.IsFinite := by
    intro s hs field hfield
    rw [List.mem_singleton.mp hs] at hfield
    have hfields : r.toList = [("a\n", .text "\"\n\x00"),
        ("x", .float (Float.ofBits 0x7FEFFFFFFFFFFFFF)), ("n", .int (-9223372036854775808))] := rfl
    rw [hfields] at hfield
    simp only [List.mem_cons, List.not_mem_nil, or_false] at hfield
    rcases hfield with rfl | rfl | rfl
    · exact trivial
    · show (Float.ofBits 0x7FEFFFFFFFFFFFFF).isFinite = true
      decide +kernel
    · exact trivial
  obtain ⟨hall, hnumbers, hlines, -⟩ := writeRecords_json_restores_records hfinite
  obtain ⟨w, hw⟩ := hall .unbounded Sink.isEndless_unbounded .jsonl
  obtain ⟨-, hrecords, hbytes⟩ := hnumbers _ _ _ hw
  obtain ⟨-, lines, htext, -, hread⟩ := hlines _ _ hw
  cases hread with
  | cons hline hrest =>
    cases hrest
    obtain ⟨hnewline, hback⟩ := hline
    refine ⟨w, _, hw, ?_, hnewline, hrecords, hbytes, hback⟩
    rw [htext]
    rfl

end Specimen
