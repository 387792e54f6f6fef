import Specimen.Json.Reader
import Specimen.Proofs.JsonTokens

/-!
# JSON values as they may be written

A value may be written with spaces around each of its tokens, with characters escaped or not, and
with an exponent in several ways. `ValueText` derives the texts of all values from those of their
parts, and such a text is skipped as a whole, whatever follows it (`spells_value`). A value that is
no string is told by how its text begins (`Begins`), and is reported as what it is in place of a
string (`mismatch_of_begins`), whatever comes after its first token.
-/

namespace Specimen.Json

/-- Nothing but spaces. -/
def Spaces (cs : List Char) : Prop :=
  ∀ c ∈ cs, isSpace c = true

theorem spaces_nil : Spaces [] :=
  fun _ hc => absurd hc List.not_mem_nil

theorem spells_spaced {left cs right : List Char} {ts : List Token} (hleft : Spaces left)
    (h : Spells cs ts) (hright : Spaces right) : Spells (left ++ cs ++ right) ts := by
  intro rest hrest
  simp [tokens_spaces hleft, h _ (endsNumber_spaces hright hrest), tokens_spaces hright]

/-- `SpacedString cs us`: a string with spaces around it, and what it stands for. -/
def SpacedString (cs : List Char) (us : List Unit) : Prop :=
  ∃ left string right, Spaces left ∧ StringText string us ∧ Spaces right ∧
    cs = left ++ string ++ right

theorem SpacedString.spells {cs : List Char} {us : List Unit} (h : SpacedString cs us) :
    Spells cs [.string us] := by
  obtain ⟨left, string, right, hleft, hstring, hright, rfl⟩ := h
  exact spells_spaced hleft (spells_string hstring) hright

/-! ## Values -/

/-- The texts of values, with spaces around them and inside of them. -/
inductive ValueText : List Char → Prop where
  | spaced {left cs right : List Char} (hleft : Spaces left) (h : ValueText cs)
      (hright : Spaces right) : ValueText (left ++ cs ++ right)
  | null : ValueText "null".toList
  | true : ValueText "true".toList
  | false : ValueText "false".toList
  | number {cs : List Char} {l : Literal} (h : NumberText cs l) : ValueText cs
  | string {cs : List Char} {us : List Unit} (h : StringText cs us) : ValueText cs
  | sequence {space : List Char} {items : List (List Char)} (hspace : Spaces space)
      (hitems : ∀ item ∈ items, ValueText item) :
      ValueText ('[' :: (space ++ Text.joinWith [','] items ++ [']']))
  | mapping {space : List Char} {members : List (List Char × List Char)} (hspace : Spaces space)
      (hnames : ∀ member ∈ members, ∃ us, SpacedString member.1 us)
      (hvalues : ∀ member ∈ members, ValueText member.2) :
      ValueText ('\x7b' :: (space ++
        Text.joinWith [','] (members.map fun member => member.1 ++ ':' :: member.2) ++ ['\x7d']))

/-- The tokens left after a value inside of open frames. -/
def afterValue (opened : List Frame) (ts : List Token) : Option (List Token) :=
  match opened with
  | [] => some ts
  | _ :: _ => skipFrom .form opened .afterValue ts

/-- Tokens that are skipped as one value, at any place for one. -/
def IsSkipped (ts : List Token) : Prop :=
  ∀ opened rest, skipFrom .form opened .value (ts ++ rest) = afterValue opened rest ∧
    skipFrom .form opened .firstItem (ts ++ rest) = afterValue opened rest

theorem IsSkipped.skip_eq {ts : List Token} (h : IsSkipped ts) (rest : List Token) :
    skip .form (ts ++ rest) = some rest :=
  (h [] rest).1

/-- The tokens of a value that is neither a sequence nor a mapping. -/
inductive IsScalar : Token → Prop where
  | null : IsScalar .null
  | boolean (b : Bool) : IsScalar (.boolean b)
  | number (l : Literal) : IsScalar (.number l)
  | string (us : List Unit) : IsScalar (.string us)

theorem IsScalar.isSkipped {t : Token} (h : IsScalar t) : IsSkipped [t] := by
  intro opened rest
  rw [List.singleton_append]
  constructor
  · cases h <;> rw [skipFrom] <;> rfl
  · cases h <;> rw [skipFrom] <;> rfl

/-- The tokens of a member whose value is skipped. -/
def IsSkippedMember (member : List Token) : Prop :=
  ∃ us ts, member = .string us :: .colon :: ts ∧ IsSkipped ts

/-- How items between two brackets are skipped in an open frame: the places of the first item and of
the later ones, and what counts as an item. -/
structure SkipsItems (opening closing : Token) (frame : Frame) (first later : Place)
    (item : List Token → Prop) : Prop where
  opened (outer : List Frame) (ts : List Token) :
    skipFrom .form outer .value (opening :: ts) = skipFrom .form (frame :: outer) first ts ∧
      skipFrom .form outer .firstItem (opening :: ts) = skipFrom .form (frame :: outer) first ts
  empty (outer : List Frame) (rest : List Token) :
    skipFrom .form (frame :: outer) first (closing :: rest) = afterValue outer rest
  closed (outer : List Frame) (rest : List Token) :
    skipFrom .form (frame :: outer) .afterValue (closing :: rest) = afterValue outer rest
  comma (outer : List Frame) (ts : List Token) :
    skipFrom .form (frame :: outer) .afterValue (.comma :: ts) =
      skipFrom .form (frame :: outer) later ts
  item_eq {ts : List Token} (h : item ts) {place : Place} (hplace : place = first ∨ place = later)
    (outer : List Frame) (rest : List Token) :
    skipFrom .form (frame :: outer) place (ts ++ rest) =
      skipFrom .form (frame :: outer) .afterValue rest

theorem skipsItems_sequence :
    SkipsItems .openBracket .closeBracket .sequence .firstItem .value IsSkipped where
  opened outer ts := by
    constructor
    · rw [skipFrom]
      rfl
    · rw [skipFrom]
      rfl
  empty outer rest := by
    rw [skipFrom]
    cases outer <;> rfl
  closed outer rest := by
    rw [skipFrom]
    cases outer <;> rfl
  comma outer ts := by rw [skipFrom]
  item_eq h place hplace outer rest := by
    rcases hplace with rfl | rfl
    · exact (h _ rest).2
    · exact (h _ rest).1

theorem skipsItems_mapping :
    SkipsItems .openBrace .closeBrace .mapping .firstMember .member IsSkippedMember where
  opened outer ts := by
    constructor
    · rw [skipFrom]
      rfl
    · rw [skipFrom]
      rfl
  empty outer rest := by
    rw [skipFrom]
    cases outer <;> rfl
  closed outer rest := by
    rw [skipFrom]
    cases outer <;> rfl
  comma outer ts := by rw [skipFrom]
  item_eq h place hplace outer rest := by
    obtain ⟨us, ts, rfl, hts⟩ := h
    have hvalue := (hts (.mapping :: outer) rest).1
    rw [List.cons_append, List.cons_append]
    rcases hplace with rfl | rfl
    · rw [skipFrom]
      exact hvalue
    · rw [skipFrom]
      exact hvalue

section SkipsItems

variable {opening closing : Token} {frame : Frame} {first later : Place}
  {item : List Token → Prop} {items : List (List Token)}

/-- What follows an item up to the closing bracket: by induction on the items. -/
theorem SkipsItems.after_eq (h : SkipsItems opening closing frame first later item)
    (hitems : ∀ ts ∈ items, item ts) (outer : List Frame) (rest : List Token) :
    skipFrom .form (frame :: outer) .afterValue (withCommas items ++ closing :: rest) =
      afterValue outer rest := by
  induction items with
  | nil => exact h.closed outer rest
  | cons ts items ih =>
    obtain ⟨hts, hitems⟩ := List.forall_mem_cons.mp hitems
    simp [h.comma, h.item_eq hts (Or.inr rfl), ih hitems]

theorem SkipsItems.isSkipped (h : SkipsItems opening closing frame first later item)
    (hitems : ∀ ts ∈ items, item ts) : IsSkipped (enclosed opening closing items) := by
  intro outer rest
  have hfirst : skipFrom .form (frame :: outer) first
      ((withCommas items).tail ++ closing :: rest) = afterValue outer rest := by
    cases items with
    | nil => exact h.empty outer rest
    | cons ts items =>
      obtain ⟨hts, hitems⟩ := List.forall_mem_cons.mp hitems
      simp [h.item_eq hts (Or.inl rfl), h.after_eq hitems]
  obtain ⟨hvalue, hitem⟩ := h.opened outer ((withCommas items).tail ++ closing :: rest)
  rw [enclosed_append, hvalue, hitem]
  exact ⟨hfirst, hfirst⟩

end SkipsItems

/-! ## The tokens of values -/

theorem exists_forall₂ {α β : Type} {R : α → β → Prop} {l : List α} (h : ∀ a ∈ l, ∃ b, R a b) :
    ∃ l', List.Forall₂ R l l' := by
  induction l with
  | nil => exact ⟨[], .nil⟩
  | cons a l ih =>
    obtain ⟨⟨b, hb⟩, hl⟩ := List.forall_mem_cons.mp h
    obtain ⟨l', hl'⟩ := ih hl
    exact ⟨b :: l', .cons hb hl'⟩

@[simp]
theorem tokens_null (rest : List Char) : tokens ("null".toList ++ rest) = .null :: tokens rest :=
  tokens_cons rfl _

@[simp]
theorem tokens_true (rest : List Char) :
    tokens ("true".toList ++ rest) = .boolean true :: tokens rest :=
  tokens_cons rfl _

@[simp]
theorem tokens_false (rest : List Char) :
    tokens ("false".toList ++ rest) = .boolean false :: tokens rest :=
  tokens_cons rfl _

theorem tokens_brackets {opening closing : Char} {first last : Token}
    (hfirst : (opening, first) ∈ marks) (hlast : (closing, last) ∈ marks) {space : List Char}
    (hspace : Spaces space) {items : List (List Char)} {spelled : List (List Token)}
    (h : List.Forall₂ Spells items spelled) (rest : List Char) :
    tokens (opening :: (space ++ Text.joinWith [','] items ++ [closing]) ++ rest) =
      enclosed first last spelled ++ tokens rest := by
  have htokens := tokens_enclosed hfirst hlast space [] [] hspace spaces_nil spaces_nil h rest
  rwa [List.append_nil, List.cons_append, List.cons_append] at htokens

theorem exists_spelled {p : List Token → Prop} {items : List (List Char)}
    (h : ∀ item ∈ items, ∃ ts, Spells item ts ∧ p ts) :
    ∃ spelled, List.Forall₂ Spells items spelled ∧ ∀ ts ∈ spelled, p ts := by
  obtain ⟨spelled, hspelled⟩ := exists_forall₂ h
  refine ⟨spelled, hspelled.imp fun _ _ h => h.1, ?_⟩
  have hright := (List.forall₂_and_left _ _).mp (hspelled.flip.imp fun _ _ h => h.symm)
  exact hright.1

/-- A value is skipped, however it is written. -/
theorem spells_value {cs : List Char} (h : ValueText cs) : ∃ ts, Spells cs ts ∧ IsSkipped ts := by
  induction h with
  | spaced hleft _ hright ih =>
    obtain ⟨ts, hspells, hskipped⟩ := ih
    exact ⟨ts, spells_spaced hleft hspells hright, hskipped⟩
  | null => exact ⟨_, fun rest _ => tokens_null rest, IsScalar.null.isSkipped⟩
  | true => exact ⟨_, fun rest _ => tokens_true rest, (IsScalar.boolean true).isSkipped⟩
  | false => exact ⟨_, fun rest _ => tokens_false rest, (IsScalar.boolean false).isSkipped⟩
  | number h => exact ⟨_, spells_number h, (IsScalar.number _).isSkipped⟩
  | string h => exact ⟨_, spells_string h, (IsScalar.string _).isSkipped⟩
  | sequence hspace _ ih =>
    obtain ⟨spelled, hspelled, hskipped⟩ := exists_spelled ih
    exact ⟨_, fun rest _ =>
      tokens_brackets openBracket_mem_marks closeBracket_mem_marks hspace hspelled rest,
      skipsItems_sequence.isSkipped hskipped⟩
  | @mapping space members hspace hnames _ ih =>
    have hmembers : ∀ item ∈ members.map fun member => member.1 ++ ':' :: member.2,
        ∃ ts, Spells item ts ∧ IsSkippedMember ts := by
      refine List.forall_mem_map.mpr ?_
      intro member hmember
      obtain ⟨us, hname⟩ := hnames member hmember
      obtain ⟨ts, hspells, hvalue⟩ := ih member hmember
      exact ⟨_, spells_pair hname.spells hspells, us, ts, rfl, hvalue⟩
    obtain ⟨spelled, hspelled, hskipped⟩ := exists_spelled hmembers
    exact ⟨_, fun rest _ =>
      tokens_brackets openBrace_mem_marks closeBrace_mem_marks hspace hspelled rest,
      skipsItems_mapping.isSkipped hskipped⟩

/-! ## Values that are no strings -/

/-- What a number is found as. -/
def Number.found : Number → Found
  | natural n => .integer n.toNat
  | negative n => .integer n.toInt
  | float x => .float x

/-- `Begins cs found`: the first value in a text is no string and is found as something else, or as
nothing if it is a number beyond every float. A sequence or a mapping is told by its bracket. -/
inductive Begins : List Char → Option Found → Prop where
  | spaced {space cs : List Char} {found : Option Found} (hspace : Spaces space)
      (h : Begins cs found) : Begins (space ++ cs) found
  | null (rest : List Char) : Begins ("null".toList ++ rest) (some .null)
  | true (rest : List Char) : Begins ("true".toList ++ rest) (some (.boolean true))
  | false (rest : List Char) : Begins ("false".toList ++ rest) (some (.boolean false))
  | number {cs rest : List Char} {l : Literal} (h : NumberText cs l) (hrest : EndsNumber rest) :
      Begins (cs ++ rest) (l.value?.map Number.found)
  | sequence (rest : List Char) : Begins ('[' :: rest) (some .sequence)
  | mapping (rest : List Char) : Begins ('\x7b' :: rest) (some .mapping)

/-- Why what is found in place of something expected is refused. -/
def refusal (expected : String) : Option Found → Error
  | some found => .data (.wrongType found expected)
  | none => .malformed

/-- A value that is no string is reported as what it is, whatever follows it. -/
theorem mismatch_of_begins {cs : List Char} {found : Option Found} (h : Begins cs found) :
    ∃ t ts, tokens cs = t :: ts ∧ (∀ us, t ≠ .string us) ∧
      ∀ expected, mismatch expected (t :: ts) = refusal expected found := by
  induction h with
  | spaced hspace _ ih =>
    rw [tokens_spaces hspace]
    exact ih
  | null rest => exact ⟨.null, tokens rest, tokens_null rest, by simp, fun _ => rfl⟩
  | true rest => exact ⟨.boolean true, tokens rest, tokens_true rest, by simp, fun _ => rfl⟩
  | false rest => exact ⟨.boolean false, tokens rest, tokens_false rest, by simp, fun _ => rfl⟩
  | @number cs rest l h hrest =>
    refine ⟨.number l, tokens rest, spells_number h rest hrest, by simp, fun expected => ?_⟩
    rw [mismatch]
    rcases l.value? with _ | n
    · rfl
    · cases n <;> rfl
  | sequence rest =>
    exact ⟨.openBracket, tokens rest, tokens_mark openBracket_mem_marks rest, by simp, fun _ => rfl⟩
  | mapping rest =>
    exact ⟨.openBrace, tokens rest, tokens_mark openBrace_mem_marks rest, by simp, fun _ => rfl⟩

end Specimen.Json
