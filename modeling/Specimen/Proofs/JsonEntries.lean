import Specimen.Proofs.JsonModels
import Specimen.Proofs.JsonTexts

/-!
# Models read from the members of JSON texts

A mapping of strings is read as the model of its members in their order, and none of them is looked
at before all are read: a member whose value is no string is reported whatever stands before it
(`readModel_of_modelStart`), and a fault of the declarations only where the mapping ends
(`ModelText.exists_spelled`). In a model file the same mapping stands among other members, which are
settings or are skipped; they are read one after the other into the draft (`Others.exists_spelled`).
-/

namespace Specimen

namespace Json

/-! ## Members that are strings -/

/-- `Quotes cs s`: a string with spaces around it that stands for a text. -/
def Quotes (cs : List Char) (s : String) : Prop :=
  ∃ us, SpacedString cs us ∧ Unit.characters? us = some s.toList

theorem Quotes.exists_spelled {cs : List Char} {s : String} (h : Quotes cs s) :
    ∃ us, Spells cs [.string us] ∧ characters us = .ok s := by
  obtain ⟨us, hspaced, hcharacters⟩ := h
  refine ⟨us, hspaced.spells, ?_⟩
  rw [characters, hcharacters]
  exact congrArg Except.ok String.ofList_toList

/-- `EntryText entry cs`: a member whose name and value are strings. -/
def EntryText (entry : String × String) (cs : List Char) : Prop :=
  ∃ name value, Quotes name entry.1 ∧ Quotes value entry.2 ∧ cs = name ++ ':' :: value

theorem EntryText.exists_spelled {entry : String × String} {cs : List Char}
    (h : EntryText entry cs) : ∃ ts, Spells cs ts ∧ EntryTokens entry ts := by
  obtain ⟨name, value, hname, hvalue, rfl⟩ := h
  obtain ⟨key, hkey, hkeyCharacters⟩ := hname.exists_spelled
  obtain ⟨us, hus, husCharacters⟩ := hvalue.exists_spelled
  exact ⟨_, spells_pair hkey hus, key, us, rfl, hkeyCharacters, husCharacters⟩

theorem exists_spelled_entries {entries : List (String × String)} {items : List (List Char)}
    (h : List.Forall₂ EntryText entries items) :
    ∃ spelled, List.Forall₂ Spells items spelled ∧ List.Forall₂ EntryTokens entries spelled := by
  induction h with
  | nil => exact ⟨[], .nil, .nil⟩
  | cons hentry _ ih =>
    obtain ⟨ts, hspells, htokens⟩ := hentry.exists_spelled
    obtain ⟨spelled, hitems, hentries⟩ := ih
    exact ⟨ts :: spelled, .cons hspells hitems, .cons htokens hentries⟩

theorem joinWith_cons {items : List (List Char)} (h : items ≠ []) (item : List Char) :
    Text.joinWith [','] (item :: items) = item ++ ',' :: Text.joinWith [','] items := by
  obtain ⟨next, items, rfl⟩ := List.exists_cons_of_ne_nil h
  rw [Text.joinWith, List.append_assoc]
  · rfl
  · simp

/-- The tokens of items of which the last is read only as far as it goes. -/
theorem tokens_joinWith_last {items : List (List Char)} {spelled : List (List Token)}
    (h : List.Forall₂ Spells items spelled) (last : List Char) :
    tokens (Text.joinWith [','] (items ++ [last])) =
      (withCommas spelled ++ .comma :: tokens last).tail := by
  induction h with
  | nil => rfl
  | @cons item ts items spelled hitem _ ih =>
    have hcomma : withCommas spelled ++ .comma :: tokens last =
        .comma :: (withCommas spelled ++ .comma :: tokens last).tail := by
      cases spelled <;> rfl
    rw [List.cons_append, joinWith_cons (by simp), hitem _ (endsNumber_mark comma_mem_marks _),
      tokens_mark comma_mem_marks, ih, ← hcomma]
    simp

/-! ## Models -/

/-- `ModelText entries cs`: a mapping with exactly the given members, in their order. -/
inductive ModelText (entries : List (String × String)) : List Char → Prop where
  | mk {left space right : List Char} {items : List (List Char)} (hleft : Spaces left)
      (hspace : Spaces space) (hright : Spaces right)
      (hitems : List.Forall₂ EntryText entries items) :
      ModelText entries
        (left ++ '\x7b' :: (space ++ Text.joinWith [','] items ++ ['\x7d']) ++ right)

theorem quotes_quoted (s : String) : Quotes (quoted s) s := by
  refine ⟨units s, ⟨[], quoted s, [], spaces_nil, ⟨_, escaped_flatMap s, rfl⟩, spaces_nil, ?_⟩, ?_⟩
  all_goals simp

theorem entryText_quoted (entry : String × String) :
    EntryText entry (quoted entry.1 ++ ':' :: quoted entry.2) :=
  ⟨_, _, quotes_quoted entry.1, quotes_quoted entry.2, rfl⟩

/-- Any members can be written. -/
theorem modelText_mappingText (entries : List (String × String)) :
    ModelText entries (mappingText (entries.map fun entry => (entry.1, quoted entry.2))) := by
  have hitems : List.Forall₂ EntryText entries
      (entries.map fun entry => quoted entry.1 ++ ':' :: quoted entry.2) := by
    rw [List.forall₂_map_right_iff, List.forall₂_same]
    exact fun entry _ => entryText_quoted entry
  have htext := ModelText.mk spaces_nil spaces_nil spaces_nil hitems
  simpa [mappingText, List.map_map, Function.comp_def] using htext

/-- `ModelStart entries found cs`: a mapping that begins with the given members, followed by one
whose value is no string. -/
inductive ModelStart (entries : List (String × String)) (found : Option Found) :
    List Char → Prop where
  | mk {left space name rest : List Char} {items : List (List Char)} {s : String}
      (hleft : Spaces left) (hspace : Spaces space) (hitems : List.Forall₂ EntryText entries items)
      (hname : Quotes name s) (hvalue : Begins rest found) :
      ModelStart entries found
        (left ++ '\x7b' :: (space ++ Text.joinWith [','] (items ++ [name ++ ':' :: rest])))

theorem tokens_name {name : List Char} {us : List Unit} (h : Spells name [.string us])
    (rest : List Char) : tokens (name ++ ':' :: rest) = .string us :: .colon :: tokens rest := by
  simp [h _ (endsNumber_mark colon_mem_marks rest), tokens_mark colon_mem_marks]

theorem readStrings_tail {entries : List (String × String)} {spelled : List (List Token)}
    (h : List.Forall₂ EntryTokens entries spelled) (us : List Unit) (ts : List Token) :
    readStrings (withCommas spelled ++ .comma :: .string us :: ts).tail =
      readStringsAfter (withCommas spelled ++ .comma :: .string us :: ts) := by
  cases h with
  | nil => rfl
  | cons hentry _ =>
    obtain ⟨key, value, rfl, -, -⟩ := hentry
    rfl

theorem tokens_of_spaces {space : List Char} (h : Spaces space) : tokens space = [] := by
  simpa using tokens_spaces h []

/-- The model of declarations, or the fault that is reported for them in a JSON text. -/
def modelOf (entries : List (String × String)) : Except Error Model :=
  (Model.parse entries).mapError fun cause => .data (.model cause)

theorem readModel_of_entries {entries : List (String × String)} {spelled : List (List Token)}
    (h : List.Forall₂ EntryTokens entries spelled) (rest : List Token) :
    readModel (enclosed .openBrace .closeBrace spelled ++ rest) =
      (modelOf entries).map fun m => (m, rest) := by
  simp only [enclosed_append, readModel, readStrings_of_entries h, ok_bind, modelOf]
  rcases Model.parse entries with _ | _ <;> rfl

/-- All members are read before a fault of one of them is looked for. -/
theorem ModelText.exists_spelled {entries : List (String × String)} {cs : List Char}
    (h : ModelText entries cs) :
    ∃ ts, (∀ rest, tokens (cs ++ rest) = ts ++ tokens rest) ∧
      ∀ rest, readModel (ts ++ rest) = (modelOf entries).map fun m => (m, rest) := by
  obtain ⟨hleft, hspace, hright, hitems⟩ := h
  obtain ⟨spelled, hspelled, hentries⟩ := exists_spelled_entries hitems
  refine ⟨enclosed .openBrace .closeBrace spelled, fun rest => ?_, readModel_of_entries hentries⟩
  rw [List.append_assoc, List.append_assoc, tokens_spaces hleft,
    tokens_brackets openBrace_mem_marks closeBrace_mem_marks hspace hspelled, tokens_spaces hright]

/-- A value that is no string is met before the mapping ends. -/
theorem readModel_of_modelStart {entries : List (String × String)} {found : Option Found}
    {cs : List Char} (h : ModelStart entries found cs) :
    readModel (tokens cs) = .error (refusal Expected.string found) := by
  obtain ⟨hleft, hspace, hitems, hname, hvalue⟩ := h
  obtain ⟨spelled, hspelled, hentries⟩ := exists_spelled_entries hitems
  obtain ⟨us, hus, hcharacters⟩ := hname.exists_spelled
  obtain ⟨t, ts, htokens, hnot, hmismatch⟩ := mismatch_of_begins hvalue
  rw [tokens_spaces hleft, tokens_mark openBrace_mem_marks, tokens_spaces hspace,
    tokens_joinWith_last hspelled, tokens_name hus, htokens, readModel,
    readStrings_tail hentries, readStringsAfter_append hentries, readStringsAfter, hcharacters,
    hmismatch]
  · rfl
  · intro units rest hts
    exact hnot units (List.cons.inj hts).1

/-! ## The other members of a model file -/

/-- `SettingText cs setting`: null, or a number of 64 bits, with spaces around it. -/
inductive SettingText : List Char → Option UInt64 → Prop where
  | spaced {left cs right : List Char} {setting : Option UInt64} (hleft : Spaces left)
      (h : SettingText cs setting) (hright : Spaces right) :
      SettingText (left ++ cs ++ right) setting
  | null : SettingText "null".toList none
  | number {cs : List Char} {l : Literal} {n : UInt64} (h : NumberText cs l)
      (hvalue : l.value? = some (.natural n)) : SettingText cs (some n)

theorem SettingText.exists_spelled {cs : List Char} {setting : Option UInt64}
    (h : SettingText cs setting) :
    ∃ ts, Spells cs ts ∧
      ∀ expected rest, readSetting expected (ts ++ rest) = .ok (setting, rest) := by
  induction h with
  | spaced hleft _ hright ih =>
    obtain ⟨ts, hspells, hread⟩ := ih
    exact ⟨ts, spells_spaced hleft hspells hright, hread⟩
  | null => exact ⟨[.null], fun rest _ => tokens_null rest, fun _ _ => rfl⟩
  | number h hvalue =>
    refine ⟨_, spells_number h, fun expected rest => ?_⟩
    simp [readSetting, hvalue]

/-- `Others items settings`: members of a model file besides its fields, with the settings among
them. A member of any other name has a value of any kind. -/
inductive Others : List (List Char) → List (ModelFile.Member × Option UInt64) → Prop where
  | nil : Others [] []
  | setting {member : ModelFile.Member} {name value : List Char} {setting : Option UInt64}
      {items : List (List Char)} {settings : List (ModelFile.Member × Option UInt64)}
      (hmember : member ≠ .fields) (hname : Quotes name member.name)
      (hvalue : SettingText value setting) (h : Others items settings) :
      Others ((name ++ ':' :: value) :: items) ((member, setting) :: settings)
  | ignored {s : String} {name value : List Char} {items : List (List Char)}
      {settings : List (ModelFile.Member × Option UInt64)}
      (hother : ∀ member : ModelFile.Member, member.name ≠ s) (hname : Quotes name s)
      (hvalue : ValueText value) (h : Others items settings) :
      Others ((name ++ ':' :: value) :: items) settings

/-- The draft with one more setting. -/
def withSetting (draft : ModelFile.Draft) : ModelFile.Member × Option UInt64 → ModelFile.Draft
  | (.volume, setting) => { draft with volume := some setting }
  | (.seed, setting) => { draft with seed := some setting }
  | (.fields, _) => draft

/-- What a draft has for a setting. -/
def settingOf (draft : ModelFile.Draft) : ModelFile.Member → Option (Option UInt64)
  | .volume => draft.volume
  | .seed => draft.seed
  | .fields => none

@[simp]
theorem settingOf_empty (member : ModelFile.Member) : settingOf .empty member = none := by
  cases member <;> rfl

theorem settingOf_withSetting (draft : ModelFile.Draft) {setting : ModelFile.Member × Option UInt64}
    (h : setting.1 ≠ .fields) (member : ModelFile.Member) :
    settingOf (withSetting draft setting) member =
      if member = setting.1 then some setting.2 else settingOf draft member := by
  obtain ⟨changed, value⟩ := setting
  cases changed with
  | fields => exact absurd rfl h
  | volume => cases member <;> rfl
  | seed => cases member <;> rfl

theorem has_eq_false {draft : ModelFile.Draft} {member : ModelFile.Member}
    (hmember : member ≠ .fields) (h : settingOf draft member = none) :
    draft.has member = false := by
  cases member with
  | fields => exact absurd rfl hmember
  | volume => exact Option.isSome_eq_false_iff.mpr (Option.isNone_iff_eq_none.mpr h)
  | seed => exact Option.isSome_eq_false_iff.mpr (Option.isNone_iff_eq_none.mpr h)

@[simp]
theorem model_foldl_withSetting (settings : List (ModelFile.Member × Option UInt64))
    (draft : ModelFile.Draft) : (settings.foldl withSetting draft).model = draft.model := by
  induction settings generalizing draft with
  | nil => rfl
  | cons setting settings ih =>
    rw [List.foldl_cons, ih]
    obtain ⟨member, value⟩ := setting
    cases member <;> rfl

/-- Settings that a draft has not yet are still new to it with another one. -/
theorem settingOf_withSetting_eq_none {settings : List (ModelFile.Member × Option UInt64)}
    {setting : ModelFile.Member × Option UInt64} (hmember : setting.1 ≠ .fields)
    (hnot : setting.1 ∉ settings.map Prod.fst) {draft : ModelFile.Draft}
    (hnew : ∀ later ∈ settings, settingOf draft later.1 = none) :
    ∀ later ∈ settings, settingOf (withSetting draft setting) later.1 = none := by
  intro later hlater
  rw [settingOf_withSetting draft hmember, if_neg, hnew later hlater]
  intro heq
  exact hnot (heq ▸ List.mem_map_of_mem hlater)

/-- A draft has the settings that it had and those that are added to it. -/
theorem settingOf_foldl_withSetting {settings : List (ModelFile.Member × Option UInt64)}
    (hfields : ∀ setting ∈ settings, setting.1 ≠ .fields)
    (hdistinct : (settings.map Prod.fst).Nodup) {draft : ModelFile.Draft}
    (hnew : ∀ setting ∈ settings, settingOf draft setting.1 = none) (member : ModelFile.Member) :
    settingOf (settings.foldl withSetting draft) member =
      (settingOf draft member).or (settings.lookup member) := by
  induction settings generalizing draft with
  | nil => exact Option.or_none.symm
  | cons setting settings ih =>
    obtain ⟨hmember, hfields⟩ := List.forall_mem_cons.mp hfields
    obtain ⟨hnot, hdistinct⟩ := List.nodup_cons.mp hdistinct
    obtain ⟨hfirst, hnew⟩ := List.forall_mem_cons.mp hnew
    rw [List.foldl_cons, ih hfields hdistinct (settingOf_withSetting_eq_none hmember hnot hnew),
      settingOf_withSetting draft hmember, Entries.lookup_cons_ite]
    by_cases heq : member = setting.1
    · rw [if_pos heq, if_pos heq, heq, hfirst]
      rfl
    · rw [if_neg heq, if_neg heq]

theorem Others.ne_fields {items : List (List Char)}
    {settings : List (ModelFile.Member × Option UInt64)} (h : Others items settings) :
    ∀ setting ∈ settings, setting.1 ≠ .fields := by
  induction h with
  | nil => exact fun setting hmem => absurd hmem List.not_mem_nil
  | setting hmember _ _ _ ih => exact List.forall_mem_cons.mpr ⟨hmember, ih⟩
  | ignored _ _ _ _ ih => exact ih

theorem withCommas_member (us : List Unit) (ts : List Token) (spelled : List (List Token))
    (rest : List Token) :
    withCommas ((.string us :: .colon :: ts) :: spelled) ++ rest =
      .comma :: .string us :: .colon :: (ts ++ (withCommas spelled ++ rest)) := by
  simp

theorem readMember_setting (draft : ModelFile.Draft) {member : ModelFile.Member}
    (hmember : member ≠ .fields) {setting : Option UInt64} {ts rest : List Token}
    (h : ∀ expected, readSetting expected ts = .ok (setting, rest)) :
    readMember draft member ts = .ok (withSetting draft (member, setting), rest) := by
  cases member with
  | fields => exact absurd rfl hmember
  | volume => rw [readMember, h]; rfl
  | seed => rw [readMember, h]; rfl

theorem ofName?_of_ne {s : String} (h : ∀ member : ModelFile.Member, member.name ≠ s) :
    ModelFile.Member.ofName? s = none := by
  unfold ModelFile.Member.ofName?
  rw [List.find?_eq_none]
  intro member _ heq
  exact h member (beq_iff_eq.mp heq)

theorem readMembersAfter_ignored {draft : ModelFile.Draft} {s : String} {key : List Unit}
    (hkey : characters key = .ok s) (hother : ∀ member : ModelFile.Member, member.name ≠ s)
    {ts rest : List Token} (hskip : skip .form ts = some rest) (fuel : Nat) :
    readMembersAfter (fuel + 1) draft (.comma :: .string key :: .colon :: ts) =
      readMembersAfter fuel draft rest := by
  simp only [readMembersAfter, hkey, ok_bind, ofName?_of_ne hother, hskip]

/-- The tokens of members that put some settings into a draft which has none of them yet. One unit
of the fuel is used up for each member. -/
structure ReadsSettings (settings : List (ModelFile.Member × Option UInt64))
    (spelled : List (List Token)) : Prop where
  string : ∀ ts ∈ spelled, ∃ us rest, ts = .string us :: rest
  read_eq (draft : ModelFile.Draft) (hdistinct : (settings.map Prod.fst).Nodup)
    (hnew : ∀ setting ∈ settings, settingOf draft setting.1 = none) (fuel : Nat)
    (rest : List Token) :
    readMembersAfter (fuel + spelled.length) draft (withCommas spelled ++ rest) =
      readMembersAfter fuel (settings.foldl withSetting draft) rest

theorem Others.exists_spelled {items : List (List Char)}
    {settings : List (ModelFile.Member × Option UInt64)} (h : Others items settings) :
    ∃ spelled, List.Forall₂ Spells items spelled ∧ ReadsSettings settings spelled := by
  induction h with
  | nil =>
    exact ⟨[], .nil, fun ts hts => absurd hts List.not_mem_nil, fun draft _ _ fuel rest => rfl⟩
  | @setting member name value setting items settings hmember hname hvalue _ ih =>
    obtain ⟨spelled, hspelled, hread⟩ := ih
    obtain ⟨us, hus, hcharacters⟩ := hname.exists_spelled
    obtain ⟨ts, hts, hsetting⟩ := hvalue.exists_spelled
    refine ⟨(.string us :: .colon :: ts) :: spelled, .cons (spells_pair hus hts) hspelled,
      List.forall_mem_cons.mpr ⟨⟨us, _, rfl⟩, hread.string⟩, ?_⟩
    intro draft hdistinct hnew fuel rest
    obtain ⟨hfirst, hrest⟩ := List.forall_mem_cons.mp hnew
    obtain ⟨hnot, hdistinct⟩ := List.nodup_cons.mp hdistinct
    have hmemberRead := readMember_setting draft hmember
      fun expected => hsetting expected (withCommas spelled ++ rest)
    rw [withCommas_member, List.length_cons, ← Nat.add_assoc,
      readMembersAfter_member hcharacters (has_eq_false hmember hfirst) hmemberRead,
      hread.read_eq _ hdistinct (settingOf_withSetting_eq_none hmember hnot hrest),
      List.foldl_cons]
  | @ignored s name value items settings hother hname hvalue _ ih =>
    obtain ⟨spelled, hspelled, hread⟩ := ih
    obtain ⟨us, hus, hcharacters⟩ := hname.exists_spelled
    obtain ⟨ts, hts, hskipped⟩ := spells_value hvalue
    refine ⟨(.string us :: .colon :: ts) :: spelled, .cons (spells_pair hus hts) hspelled,
      List.forall_mem_cons.mpr ⟨⟨us, _, rfl⟩, hread.string⟩, ?_⟩
    intro draft hdistinct hnew fuel rest
    rw [withCommas_member, List.length_cons, ← Nat.add_assoc,
      readMembersAfter_ignored hcharacters hother (hskipped.skip_eq _),
      hread.read_eq draft hdistinct hnew]

/-! ## Model files -/

/-- `FileStart settings rest cs`: a model file with the given settings up to its fields, of which
the value begins the rest. -/
inductive FileStart (settings : List (ModelFile.Member × Option UInt64)) (rest : List Char) :
    List Char → Prop where
  | mk {left space name : List Char} {items : List (List Char)} (hleft : Spaces left)
      (hspace : Spaces space) (hothers : Others items settings)
      (hdistinct : (settings.map Prod.fst).Nodup)
      (hname : Quotes name ModelFile.Member.fields.name) :
      FileStart settings rest
        (left ++ '\x7b' :: (space ++ Text.joinWith [','] (items ++ [name ++ ':' :: rest])))

/-- `ModelFileText entries settings cs`: a model file with the given fields and settings, each
setting once, and with any other members. -/
inductive ModelFileText (entries : List (String × String)) :
    List (ModelFile.Member × Option UInt64) → List Char → Prop where
  | mk {left space right name fields : List Char} {before after : List (List Char)}
      {earlier later : List (ModelFile.Member × Option UInt64)} (hleft : Spaces left)
      (hspace : Spaces space) (hright : Spaces right) (hbefore : Others before earlier)
      (hafter : Others after later) (hdistinct : ((earlier ++ later).map Prod.fst).Nodup)
      (hname : Quotes name ModelFile.Member.fields.name) (hfields : ModelText entries fields) :
      ModelFileText entries (earlier ++ later)
        (left ++ '\x7b' :: (space ++
          Text.joinWith [','] (before ++ (name ++ ':' :: fields) :: after) ++ ['\x7d']) ++ right)

/-- A mapping of members is read as a draft that has to be complete at its end. -/
theorem readModelFile_tail {spelled : List (List Token)}
    (h : ∀ ts ∈ spelled, ∃ us rest, ts = .string us :: rest) (us : List Unit) (ts : List Token) :
    readModelFile (.openBrace :: (withCommas spelled ++ .comma :: .string us :: ts).tail) =
      readMembersAfter ((withCommas spelled ++ .comma :: .string us :: ts).length + 1) .empty
          (withCommas spelled ++ .comma :: .string us :: ts) >>= fun result =>
        match result.1.complete with
        | .ok file => .ok (file, result.2)
        | .error cause => .error (.data cause) := by
  cases spelled with
  | nil => rfl
  | cons first spelled =>
    obtain ⟨key, rest, rfl⟩ := h first List.mem_cons_self
    rfl

theorem readMembersAfter_fields_error {draft : ModelFile.Draft} {key : List Unit}
    (hkey : characters key = .ok ModelFile.Member.fields.name) (hnew : draft.model = none)
    {ts : List Token} {e : Error} (h : readModel ts = .error e) (fuel : Nat) :
    readMembersAfter (fuel + 1) draft (.comma :: .string key :: .colon :: ts) = .error e := by
  have hhas : draft.has .fields = false := by
    rw [ModelFile.Draft.has, hnew]
    rfl
  simp [readMembersAfter, hkey, hhas, readMember, h]

/-- What is wrong with the fields is reported, whatever follows it. -/
theorem readModelFile_of_fileStart {settings : List (ModelFile.Member × Option UInt64)}
    {rest cs : List Char} (h : FileStart settings rest cs) {e : Error}
    (hfields : readModel (tokens rest) = .error e) : readModelFile (tokens cs) = .error e := by
  obtain ⟨hleft, hspace, hothers, hdistinct, hname⟩ := h
  obtain ⟨spelled, hspelled, hread⟩ := hothers.exists_spelled
  obtain ⟨us, hus, hcharacters⟩ := hname.exists_spelled
  rw [tokens_spaces hleft, tokens_mark openBrace_mem_marks, tokens_spaces hspace,
    tokens_joinWith_last hspelled, tokens_name hus, readModelFile_tail hread.string]
  obtain ⟨extra, hextra⟩ := Nat.exists_eq_add_of_le' (length_le_withCommas spelled)
  have hfuel : (withCommas spelled ++ .comma :: .string us :: .colon :: tokens rest).length + 1 =
      extra + (tokens rest).length + 3 + 1 + spelled.length := by
    simp only [List.length_append, List.length_cons]
    omega
  have hmodel : (settings.foldl withSetting .empty).model = none := model_foldl_withSetting _ _
  rw [hfuel, hread.read_eq .empty hdistinct (by simp),
    readMembersAfter_fields_error hcharacters hmodel hfields]
  rfl

/-- The draft of a whole file is complete and has the settings before and after the fields. -/
theorem complete_of_settings_around {earlier later : List (ModelFile.Member × Option UInt64)}
    (hearlier : ∀ setting ∈ earlier, setting.1 ≠ .fields)
    (hlater : ∀ setting ∈ later, setting.1 ≠ .fields)
    (hdistinct : ((earlier ++ later).map Prod.fst).Nodup) {draft : ModelFile.Draft} {m : Model}
    (hdraft : draft = { earlier.foldl withSetting .empty with model := some m }) :
    (∀ setting ∈ later, settingOf draft setting.1 = none) ∧
      (later.foldl withSetting draft).complete =
        .ok ⟨((earlier ++ later).lookup .volume).join, ((earlier ++ later).lookup .seed).join,
          m⟩ := by
  rw [List.map_append] at hdistinct
  obtain ⟨hdistinctEarlier, hdistinctLater, hdisjoint⟩ := List.nodup_append.mp hdistinct
  have hsettings : ∀ member, settingOf draft member = earlier.lookup member := by
    intro member
    have hbefore := settingOf_foldl_withSetting hearlier hdistinctEarlier
      (fun setting _ => settingOf_empty setting.1) member
    rw [settingOf_empty, Option.none_or] at hbefore
    rw [hdraft, ← hbefore]
    cases member <;> rfl
  have hnew : ∀ setting ∈ later, settingOf draft setting.1 = none := by
    intro setting hsetting
    rw [hsettings, Entries.lookup_eq_none_iff]
    intro hmem
    exact hdisjoint setting.1 hmem setting.1 (List.mem_map_of_mem hsetting) rfl
  have hall : ∀ member, settingOf (later.foldl withSetting draft) member =
      (earlier ++ later).lookup member := by
    intro member
    rw [settingOf_foldl_withSetting hlater hdistinctLater hnew, hsettings, List.lookup_append]
  have hmodel : (later.foldl withSetting draft).model = some m := by
    simp [hdraft]
  refine ⟨hnew, ?_⟩
  rw [ModelFile.Draft.complete, hmodel, ← hall, ← hall]
  rfl

/-- Items between braces, told apart into those before a member, the member and those after it. -/
theorem enclosed_member (spelled spelled' : List (List Token)) (us : List Unit) (ts : List Token) :
    enclosed .openBrace .closeBrace (spelled ++ (.string us :: .colon :: ts) :: spelled') =
      .openBrace :: (withCommas spelled ++ .comma :: .string us :: .colon ::
        (ts ++ (withCommas spelled' ++ [Token.closeBrace]))).tail := by
  unfold enclosed withCommas
  rw [List.flatMap_append, List.flatMap_cons]
  cases spelled <;> simp

/-- The fields and the settings around them are put together. Each member takes one unit of the
fuel, of which there is one for each token. -/
theorem readModelFile_of_reads {earlier later : List (ModelFile.Member × Option UInt64)}
    (hearlier : ∀ setting ∈ earlier, setting.1 ≠ .fields)
    (hlater : ∀ setting ∈ later, setting.1 ≠ .fields)
    (hdistinct : ((earlier ++ later).map Prod.fst).Nodup) {spelled spelled' : List (List Token)}
    (hread : ReadsSettings earlier spelled) (hread' : ReadsSettings later spelled')
    {us : List Unit} (hname : characters us = .ok ModelFile.Member.fields.name) {ts : List Token}
    {m : Model} (hmodel : ∀ rest, readModel (ts ++ rest) = .ok (m, rest)) :
    readModelFile (enclosed .openBrace .closeBrace
        (spelled ++ (.string us :: .colon :: ts) :: spelled')) =
      .ok (⟨((earlier ++ later).lookup .volume).join, ((earlier ++ later).lookup .seed).join, m⟩,
        []) := by
  obtain ⟨extra, hextra⟩ := Nat.exists_eq_add_of_le' (length_le_withCommas spelled)
  obtain ⟨extra', hextra'⟩ := Nat.exists_eq_add_of_le' (length_le_withCommas spelled')
  have hfuel : (withCommas spelled ++ .comma :: .string us :: .colon ::
      (ts ++ (withCommas spelled' ++ [Token.closeBrace]))).length + 1 =
      extra + ts.length + extra' + 3 + 1 + spelled'.length + 1 + spelled.length := by
    simp only [List.length_append, List.length_cons, List.length_nil]
    omega
  have hhas : (earlier.foldl withSetting .empty).has .fields = false := by
    simp [ModelFile.Draft.has, ModelFile.Draft.empty]
  have hfields : readMember (earlier.foldl withSetting .empty) .fields
      (ts ++ (withCommas spelled' ++ [.closeBrace])) =
      .ok ({ earlier.foldl withSetting .empty with model := some m },
        withCommas spelled' ++ [.closeBrace]) := by
    rw [readMember, hmodel]
    rfl
  obtain ⟨hnew, hcomplete⟩ :=
    complete_of_settings_around hearlier hlater hdistinct (m := m) rfl
  rw [List.map_append] at hdistinct
  obtain ⟨hdistinctEarlier, hdistinctLater, -⟩ := List.nodup_append.mp hdistinct
  rw [enclosed_member, readModelFile_tail hread.string, hfuel,
    hread.read_eq .empty hdistinctEarlier (by simp),
    readMembersAfter_member hname hhas hfields, hread'.read_eq _ hdistinctLater hnew,
    readMembersAfter]
  simp only [ok_bind, hcomplete]

theorem readModelFile_of_text {entries : List (String × String)}
    {settings : List (ModelFile.Member × Option UInt64)} {cs : List Char}
    (h : ModelFileText entries settings cs) {m : Model} (hm : modelOf entries = .ok m) :
    readModelFile (tokens cs) =
      .ok (⟨(settings.lookup .volume).join, (settings.lookup .seed).join, m⟩, []) := by
  obtain ⟨hleft, hspace, hright, hbefore, hafter, hdistinct, hname, hfields⟩ := h
  obtain ⟨spelled, hspelled, hread⟩ := hbefore.exists_spelled
  obtain ⟨spelled', hspelled', hread'⟩ := hafter.exists_spelled
  obtain ⟨us, hus, hcharacters⟩ := hname.exists_spelled
  obtain ⟨ts, hts, hmodel⟩ := hfields.exists_spelled
  rw [hm] at hmodel
  have hitems : List.Forall₂ Spells (_ ++ _ :: _)
      (spelled ++ (.string us :: .colon :: ts) :: spelled') :=
    List.rel_append hspelled (.cons (spells_pair hus fun rest _ => hts rest) hspelled')
  rw [List.append_assoc, tokens_spaces hleft,
    tokens_brackets openBrace_mem_marks closeBrace_mem_marks hspace hitems,
    tokens_of_spaces hright, List.append_nil]
  exact readModelFile_of_reads hbefore.ne_fields hafter.ne_fields hdistinct hread hread'
    hcharacters hmodel

/-! ## Whole texts -/

/-- What follows an item, and what follows all items, can be counted as part of the item. -/
theorem exists_joinWith_last (items : List (List Char)) (last : List Char)
    (after : List (List Char)) (rest : List Char) :
    ∃ more, Text.joinWith [','] (items ++ last :: after) ++ rest =
      Text.joinWith [','] (items ++ [last ++ more]) := by
  induction items with
  | nil =>
    by_cases hafter : after = []
    · rw [hafter]
      exact ⟨rest, rfl⟩
    · refine ⟨',' :: (Text.joinWith [','] after ++ rest), ?_⟩
      rw [List.nil_append, joinWith_cons hafter, List.append_assoc]
      rfl
  | cons item items ih =>
    obtain ⟨more, hmore⟩ := ih
    refine ⟨more, ?_⟩
    rw [List.cons_append, List.cons_append, joinWith_cons (by simp), joinWith_cons (by simp),
      ← hmore, List.append_assoc, List.cons_append]

/-- A whole file begins as one whose fields are followed by something. -/
theorem ModelFileText.exists_fileStart {entries : List (String × String)}
    {settings : List (ModelFile.Member × Option UInt64)} {cs : List Char}
    (h : ModelFileText entries settings cs) :
    ∃ earlier fields more, ModelText entries fields ∧ FileStart earlier (fields ++ more) cs := by
  obtain ⟨hleft, hspace, hright, hbefore, hafter, hdistinct, hname, hfields⟩ := h
  rename_i left space right name fields before after earlier later
  obtain ⟨more, hmore⟩ := exists_joinWith_last before (name ++ ':' :: fields) after
    ('\x7d' :: right)
  refine ⟨earlier, fields, more, hfields, ?_⟩
  have htext : left ++ '\x7b' :: (space ++ Text.joinWith [',']
      (before ++ (name ++ ':' :: fields) :: after) ++ ['\x7d']) ++ right =
      left ++ '\x7b' ::
        (space ++ Text.joinWith [','] (before ++ [name ++ ':' :: (fields ++ more)])) := by
    rw [List.append_assoc, List.cons_append, List.append_assoc, List.append_assoc,
      List.singleton_append, hmore, List.append_assoc, List.cons_append]
  rw [List.map_append] at hdistinct
  rw [htext]
  exact .mk hleft hspace hbefore (List.nodup_append.mp hdistinct).1 hname

theorem ModelText.readModel_eq {entries : List (String × String)} {cs : List Char}
    (h : ModelText entries cs) (rest : List Char) :
    readModel (tokens (cs ++ rest)) = (modelOf entries).map fun m => (m, tokens rest) := by
  obtain ⟨ts, htokens, hread⟩ := h.exists_spelled
  rw [htokens, hread]

end Json

/-- A whole text of members is the model of their declarations. -/
theorem Model.ofJson_of_modelText {entries : List (String × String)} {text : String}
    (h : Json.ModelText entries text.toList) : ofJson text = Json.modelOf entries := by
  have hread := h.readModel_eq []
  simp only [List.append_nil, Json.tokens_nil] at hread
  rw [ofJson, Json.parse, hread]
  rcases Json.modelOf entries with _ | _ <;> rfl

theorem Model.ofJson_of_modelStart {entries : List (String × String)} {found : Option Found}
    {text : String} (h : Json.ModelStart entries found text.toList) :
    ofJson text = .error (Json.refusal Expected.string found) := by
  rw [ofJson, Json.parse, Json.readModel_of_modelStart h]
  rfl

theorem ModelFile.ofJson_of_fileStart {settings : List (Member × Option UInt64)}
    {rest : List Char} {text : String} (h : Json.FileStart settings rest text.toList)
    {e : Json.Error} (hfields : Json.readModel (Json.tokens rest) = .error e) :
    ofJson text = .error e := by
  rw [ofJson, Json.parse, Json.readModelFile_of_fileStart h hfields]
  rfl

theorem ModelFile.ofJson_of_text {entries : List (String × String)}
    {settings : List (Member × Option UInt64)} {text : String}
    (h : Json.ModelFileText entries settings text.toList) :
    ofJson text = (Json.modelOf entries).map fun m =>
      ⟨(settings.lookup .volume).join, (settings.lookup .seed).join, m⟩ := by
  cases hm : Json.modelOf entries with
  | ok m =>
    rw [ofJson, Json.parse, Json.readModelFile_of_text h hm]
    rfl
  | error e =>
    obtain ⟨earlier, fields, more, hfields, hstart⟩ := h.exists_fileStart
    refine ofJson_of_fileStart hstart ?_
    rw [hfields.readModel_eq, hm]
    rfl

/-- A JSON text of members that are strings is the model of the members as declarations, in their
order and with repeated names refused, or the first fault of the declarations. Where the value of a
member is no string, this is reported instead of any fault before it, since all members are read
before a declaration is looked at; a number beyond every float makes the text malformed there. Among
the other members of a model file the fields are read the same way, and what is wrong with them is
reported whatever follows. -/
theorem Model.json_members_parse_in_order :
    (∀ entries : List (String × String), Json.ModelText entries
      (Json.mappingText (entries.map fun entry => (entry.1, Json.quoted entry.2)))) ∧
    (∀ entries (text : String), Json.ModelText entries text.toList →
      ofJson text = (parse entries).mapError (fun cause => .data (.model cause)) ∧
        ∀ m, ofJson text = .ok m → m.names = entries.map Prod.fst) ∧
    (∀ entries found (text : String), Json.ModelStart entries found text.toList →
      ofJson text = .error (Json.refusal Expected.string found)) ∧
    (∀ entries settings (text : String), Json.ModelFileText entries settings text.toList →
      ModelFile.parse .json text =
        ((parse entries).map fun m => (⟨(settings.lookup .volume).join,
          (settings.lookup .seed).join, m⟩ : ModelFile)).mapError fun cause =>
            .json (.data (.model cause))) ∧
    (∀ entries cause fields more settings (text : String), parse entries = .error cause →
      Json.ModelText entries fields → Json.FileStart settings (fields ++ more) text.toList →
        ModelFile.parse .json text = .error (.json (.data (.model cause)))) ∧
    (∀ entries found rest settings (text : String), Json.ModelStart entries found rest →
      Json.FileStart settings rest text.toList →
        ModelFile.parse .json text = .error (.json (Json.refusal Expected.string found))) ∧
    (∀ field typeString cause,
      (Json.Error.data (.model (.invalidField field typeString cause))).message =
        (ModelError.invalidField field typeString cause).message ++ ": " ++ cause.message) ∧
    (∀ field, (Json.Error.data (.model (.duplicateField field))).message =
      (ModelError.duplicateField field).message) ∧
    (∀ found, (Json.refusal Expected.string (some found)).message =
      "invalid type: " ++ found.describe Json.foundNames ++ ", expected " ++ Expected.string) ∧
    ∀ e : Json.Error, (ModelFileError.json e).messages.head? =
      some ("Failed to parse JSON: " ++ e.message) := by
  refine ⟨Json.modelText_mappingText, fun entries text h => ⟨ofJson_of_modelText h, fun m hm => ?_⟩,
    fun entries found text => ofJson_of_modelStart, fun entries settings text h => ?_,
    fun entries cause fields more settings text hcause hfields h => ?_,
    fun entries found rest settings text hfields h => ?_, fun _ _ _ => rfl, fun _ => rfl,
    fun _ => rfl, fun _ => rfl⟩
  · rw [ofJson_of_modelText h] at hm
    exact map_fst_of_declares (parse_eq_ok_iff.mp (mapError_eq_ok_iff.mp hm)).1
  · rw [ModelFile.parse, ModelFile.ofJson_of_text h, Json.modelOf]
    rcases parse entries with _ | _ <;> rfl
  · have hread : Json.readModel (Json.tokens (fields ++ more)) = .error (.data (.model cause)) := by
      rw [hfields.readModel_eq, Json.modelOf, hcause]
      rfl
    rw [ModelFile.parse, ModelFile.ofJson_of_fileStart h hread]
    rfl
  · rw [ModelFile.parse, ModelFile.ofJson_of_fileStart h (Json.readModel_of_modelStart hfields)]
    rfl

/-- A repeated name with an escape in it and a refused type string; the same with a sequence after
it and nothing else; a model file with a seed before its fields and a member that is skipped behind
them; and files cut off where the fields end or where they are no strings. -/
theorem Model.json_members_parse_escaped_and_cut :
    (Json.ModelText [("id", "i:1-6"), ("id", "x")]
        "\x7b\"\\u0069d\" :\"i:1-6\",\"id\":\"x\"\x7d\n".toList ∧
      ofJson "\x7b\"\\u0069d\" :\"i:1-6\",\"id\":\"x\"\x7d\n" =
        .error (.data (.model (.invalidField "id" "x" (.unsupportedCode "x"))))) ∧
    (Json.ModelStart [("id", "x"), ("id", "i")] (some .sequence)
        "\x7b\"id\":\"x\",\"id\":\"i\",\"n\":[".toList ∧
      ofJson "\x7b\"id\":\"x\",\"id\":\"i\",\"n\":[" =
        .error (.data (.wrongType .sequence "a string"))) ∧
    (∃ m, parse [("id", "i:1-6")] = .ok m ∧
      ofJson "\x7b\"id\":\"i:1-6\"\x7d" = .ok m ∧ m.names = ["id"] ∧
      Json.ModelFileText [("id", "i:1-6")] [(.seed, some 7)]
        "\x7b\"seed\":7,\"fields\":\x7b\"id\":\"i:1-6\"\x7d,\"n\":[true]\x7d".toList ∧
      ModelFile.parse .json "\x7b\"seed\":7,\"fields\":\x7b\"id\":\"i:1-6\"\x7d,\"n\":[true]\x7d" =
        .ok ⟨none, some 7, m⟩) ∧
    ModelFile.parse .json "\x7b\"seed\":7,\"fields\":\x7b\"id\":\"x\"\x7d" =
      .error (.json (.data (.model (.invalidField "id" "x" (.unsupportedCode "x"))))) ∧
    ModelFile.parse .json "\x7b\"seed\":7,\"fields\":\x7b\"id\":\"x\",\"id\":\"i\",\"n\":[" =
      .error (.json (.data (.wrongType .sequence "a string"))) := by
  obtain ⟨-, hmodel, hstart, hfile, hrefused, hmismatch, -⟩ := json_members_parse_in_order
  have hquotes : ∀ s : String, ∀ cs, Json.quoted s = cs → Json.Quotes cs s :=
    fun s cs hcs => hcs ▸ Json.quotes_quoted s
  have hentry : ∀ entry cs, Json.quoted entry.1 ++ ':' :: Json.quoted entry.2 = cs →
      Json.EntryText entry cs := fun entry cs hcs => hcs ▸ Json.entryText_quoted entry
  have hidX : Json.EntryText ("id", "x") "\"id\":\"x\"".toList := hentry _ _ (by decide +kernel)
  have hidI : Json.EntryText ("id", "i") "\"id\":\"i\"".toList := hentry _ _ (by decide +kernel)
  have hidRange : Json.EntryText ("id", "i:1-6") "\"id\":\"i:1-6\"".toList :=
    hentry _ _ (by decide +kernel)
  have hn : Json.Quotes "\"n\"".toList "n" := hquotes _ _ (by decide +kernel)
  -- The escape stands for the first letter of the name, and a space stands behind the quotes.
  have hescaped : Json.Escaped "\\u0069d".toList [.ofNat 0x69, .char 'd'] :=
    .hex rfl (.plain (by decide) (by decide) (by decide) .nil)
  have hspace : ∀ c, Json.isSpace c = true → Json.Spaces [c] :=
    fun c hc => List.forall_mem_singleton.mpr hc
  have hname : Json.Quotes "\"\\u0069d\" ".toList "id" :=
    ⟨_, ⟨[], "\"\\u0069d\"".toList, [' '], Json.spaces_nil, ⟨_, hescaped, rfl⟩, hspace _ rfl, rfl⟩,
      rfl⟩
  have hrange : Json.EntryText ("id", "i:1-6") "\"\\u0069d\" :\"i:1-6\"".toList :=
    ⟨_, _, hname, hquotes _ _ (by decide +kernel), rfl⟩
  have htwice : Json.ModelText [("id", "i:1-6"), ("id", "x")]
      "\x7b\"\\u0069d\" :\"i:1-6\",\"id\":\"x\"\x7d\n".toList :=
    .mk Json.spaces_nil Json.spaces_nil (hspace '\n' rfl) (.cons hrange (.cons hidX .nil))
  have hcut : Json.ModelStart [("id", "x"), ("id", "i")] (some .sequence)
      "\x7b\"id\":\"x\",\"id\":\"i\",\"n\":[".toList :=
    .mk Json.spaces_nil Json.spaces_nil (.cons hidX (.cons hidI .nil)) hn (.sequence [])
  have hsingle : ∀ entry cs, Json.EntryText entry cs →
      Json.ModelText [entry] ('\x7b' :: (cs ++ ['\x7d'])) := by
    intro entry cs hcs
    have htext := Json.ModelText.mk Json.spaces_nil Json.spaces_nil Json.spaces_nil (.cons hcs .nil)
    rwa [List.append_nil] at htext
  have hone : Json.ModelText [("id", "i:1-6")] "\x7b\"id\":\"i:1-6\"\x7d".toList :=
    hsingle _ _ hidRange
  -- The members of the model file before its fields and behind them.
  have hseed : Json.Quotes "\"seed\"".toList ModelFile.Member.seed.name :=
    hquotes _ _ (by decide +kernel)
  have hseven : Json.SettingText "7".toList (some 7) :=
    .number ⟨Json.Literal.wellFormed_ofInt 7, [], .none, rfl⟩ (Json.Literal.value?_natural 7)
  have hbefore : Json.Others ["\"seed\":7".toList] [(.seed, some 7)] :=
    .setting (by decide) hseed hseven .nil
  have hafter : Json.Others ["\"n\":[true]".toList] [] := by
    refine .ignored (fun member => ?_) hn
      (.sequence Json.spaces_nil (List.forall_mem_singleton.mpr .true)) .nil
    cases member <;> decide
  have hfields : Json.Quotes "\"fields\"".toList ModelFile.Member.fields.name :=
    hquotes _ _ (by decide +kernel)
  have hwhole : Json.ModelFileText [("id", "i:1-6")] [(.seed, some 7)]
      "\x7b\"seed\":7,\"fields\":\x7b\"id\":\"i:1-6\"\x7d,\"n\":[true]\x7d".toList :=
    .mk Json.spaces_nil Json.spaces_nil Json.spaces_nil hbefore hafter (by decide) hfields hone
  have hfileStart : ∀ rest : List Char, Json.FileStart [(.seed, some 7)] rest
      ("\x7b\"seed\":7,\"fields\":".toList ++ rest) :=
    fun rest => .mk Json.spaces_nil Json.spaces_nil hbefore (by decide) hfields
  exact ⟨⟨htwice, (hmodel _ _ htwice).1⟩, ⟨hcut, hstart _ _ _ hcut⟩,
    ⟨_, rfl, (hmodel _ _ hone).1, (hmodel _ _ hone).2 _ (hmodel _ _ hone).1, hwhole,
      hfile _ _ _ hwhole⟩,
    hrefused _ _ _ [] _ _ rfl (hsingle _ _ hidX) (hfileStart _),
    hmismatch _ _ _ _ _ hcut (hfileStart _)⟩

end Specimen
