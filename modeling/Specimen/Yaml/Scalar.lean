import Specimen.Yaml.Cursor
import Specimen.Yaml.Token

/-!
# The texts of YAML scalars

A scalar may run over several lines. Within plain and quoted scalars a single line end is folded
into a space and further ones are kept; in block scalars the indentation is dropped and the line
ends are kept or folded by the indicator.

The functions that go through a scalar take a bound on their steps, for which the length of the text
will do: each step moves the cursor.
-/

namespace Specimen.Yaml

/-- Blanks and line ends that are read and not yet part of a scalar. -/
structure Folding where
  /-- The blanks since the last word, in reverse, if no line has ended. -/
  blanks : List Char
  /-- The first line end. -/
  firstBreak : List Char
  /-- The line ends after the first, in reverse. -/
  moreBreaks : List Char
  /-- Whether a line has ended. -/
  isBroken : Bool

namespace Folding

def empty : Folding :=
  ⟨[], [], [], false⟩

/-- A line end that is escaped and leaves nothing. -/
def escapedBreak : Folding :=
  ⟨[], [], [], true⟩

/-- What stands in the scalar for blanks and line ends. -/
def text (f : Folding) : List Char :=
  if f.isBroken then
    if f.firstBreak = ['\n'] then
      if f.moreBreaks = [] then [' '] else f.moreBreaks.reverse
    else f.firstBreak ++ f.moreBreaks.reverse
  else f.blanks.reverse

/-- The blanks and line ends from a place on, after those read before, and the place after them. A
tab left of a column is refused on a line of its own. -/
def scan (minColumn : Nat) : Nat → Folding → Cursor → Option (Folding × Cursor)
  | 0, f, c => some (f, c)
  | steps + 1, f, c =>
    if c.atBlank then
      if f.isBroken && c.column < minColumn && c.atChar '\t' then none
      else
        let blanks := if f.isBroken then f.blanks else c.rest.take 1 ++ f.blanks
        scan minColumn steps { f with blanks } c.skip
    else if c.atBreak then
      let (lineEnd, c) := c.takeBreak
      if f.isBroken then
        scan minColumn steps { f with moreBreaks := lineEnd.reverse ++ f.moreBreaks } c
      else scan minColumn steps ⟨[], lineEnd, f.moreBreaks, true⟩ c
    else some (f, c)

end Folding

/-! ## Plain scalars -/

/-- Whether a character separates the items of flow collections. -/
def isFlowIndicator (x : Char) : Bool :=
  x == ',' || x == '[' || x == ']' || x == '{' || x == '}'

/-- The characters of a word of a plain scalar, put before `word` in reverse, and the place after
it. -/
def scanWord (inFlow : Bool) : Nat → List Char → Cursor → Option (List Char × Cursor)
  | 0, word, c => some (word, c)
  | steps + 1, word, c =>
    match c.rest with
    | [] => some (word, c)
    | x :: rest =>
      if c.atGap then some (word, c)
      else if inFlow && x == ':' && rest.head?.any fun y => y == '?' || isFlowIndicator y then none
      else if (x == ':' && c.gapNext) || (inFlow && isFlowIndicator x) then some (word, c)
      else scanWord inFlow steps (x :: word) c.skip

/-- A plain scalar from a place on: its text in reverse, what follows it that is blank, and the
place after that. -/
def scanPlain (inFlow : Bool) (minColumn : Nat) (steps : Nat) :
    Nat → List Char → Folding → Cursor → Option (List Char × Folding × Cursor)
  | 0, text, f, c => some (text, f, c)
  | lines + 1, text, f, c =>
    if c.atAnyDocumentMark || c.atChar '#' then some (text, f, c)
    else
      match scanWord inFlow steps [] c with
      | none => none
      | some (word, c) =>
        let (text, f) := if word = [] then (text, f) else (word ++ f.text.reverse ++ text, .empty)
        if c.atBlank || c.atBreak then
          match f.scan minColumn steps c with
          | none => none
          | some (f, c) =>
            if !inFlow && c.column < minColumn then some (text, f, c)
            else scanPlain inFlow minColumn steps lines text f c
        else some (text, f, c)

/-! ## Quoted scalars -/

def hexValue? (x : Char) : Option Nat :=
  if '0' ≤ x ∧ x ≤ '9' then some (x.toNat - '0'.toNat)
  else if 'a' ≤ x ∧ x ≤ 'f' then some (x.toNat - 'a'.toNat + 10)
  else if 'A' ≤ x ∧ x ≤ 'F' then some (x.toNat - 'A'.toNat + 10)
  else none

/-- The number of some hexadecimal digits. -/
def hexNumber? (digits : List Char) : Option Nat :=
  digits.foldlM (fun n x => (hexValue? x).map (n * 16 + ·)) 0

/-- The characters that single letters stand for after a backslash. -/
def letterEscapes : List (Char × Char) :=
  [('0', '\x00'), ('a', '\x07'), ('b', '\x08'), ('t', '\t'), ('\t', '\t'), ('n', '\n'),
    ('v', '\x0b'), ('f', '\x0c'), ('r', '\r'), ('e', '\x1b'), (' ', ' '), ('"', '"'), ('/', '/'),
    ('\\', '\\'), ('N', '\x85'), ('_', '\xa0'), ('L', '\u2028'), ('P', '\u2029')]

/-- The numbers of digits that letters announce after a backslash. -/
def codeEscapes : List (Char × Nat) :=
  [('x', 2), ('u', 4), ('U', 8)]

/-- The character of an escape and the number of characters after the backslash that it takes. -/
def unescape? : List Char → Option (Char × Nat)
  | [] => none
  | letter :: rest =>
    match letterEscapes.lookup letter with
    | some x => some (x, 1)
    | none => do
      let length ← codeEscapes.lookup letter
      let digits := rest.take length
      let code ← hexNumber? digits
      if digits.length = length ∧ code.isValidChar then some (Char.ofNat code, length + 1) else none

/-- The characters of a quoted scalar up to a blank, a line end or the closing quote, put before
`word` in reverse, and whether an escaped line end stopped them. -/
def scanQuotedWord (quote : Char) : Nat → List Char → Cursor → Option (List Char × Bool × Cursor)
  | 0, word, c => some (word, false, c)
  | steps + 1, word, c =>
    match c.rest with
    | [] => some (word, false, c)
    | x :: rest =>
      if c.atGap then some (word, false, c)
      else if x == '\'' && quote == '\'' && rest.head? == some '\'' then
        scanQuotedWord quote steps ('\'' :: word) c.skip.skip
      else if x == quote then some (word, false, c)
      else if x == '\\' && quote == '"' then
        if c.skip.atBreak then some (word, true, c.skip.skipBreak)
        else
          match unescape? rest with
          | none => none
          | some (y, length) => scanQuotedWord quote steps (y :: word) (c.skipMany (length + 1))
      else scanQuotedWord quote steps (x :: word) c.skip

/-- A quoted scalar from the place after its quote on: its text in reverse and the place after the
closing quote. -/
def scanQuoted (quote : Char) (steps : Nat) :
    Nat → List Char → Cursor → Option (List Char × Cursor)
  | 0, _, _ => none
  | lines + 1, text, c =>
    if c.atAnyDocumentMark || c.atEnd then none
    else
      match scanQuotedWord quote steps text c with
      | none => none
      | some (text, isEscaped, c) =>
        if c.atChar quote then some (text, c.skip)
        else
          match (if isEscaped then Folding.escapedBreak else .empty).scan 0 steps c with
          | none => none
          | some (f, c) => scanQuoted quote steps lines (f.text.reverse ++ text) c

/-! ## Block scalars -/

/-- What becomes of the line ends at the end of a block scalar. -/
inductive Chomping where
  | strip
  | clip
  | keep
  deriving DecidableEq, Repr

/-- The chomping that a character indicates. -/
def Chomping.ofChar? : Char → Option Chomping
  | '+' => some keep
  | '-' => some strip
  | _ => none

/-- The chomping and the indentation that are written after the indicator of a block scalar, in
either order, and the place after them. The indentation is zero if it is not written. -/
def scanBlockHeader (c : Cursor) : Option (Chomping × Nat × Cursor) :=
  let digit (c : Cursor) : Option (Nat × Cursor) :=
    match c.rest with
    | x :: _ =>
      if x == '0' then none
      else if x.isDigit then some (x.toNat - '0'.toNat, c.skip)
      else some (0, c)
    | [] => some (0, c)
  match c.rest.head?.bind Chomping.ofChar? with
  | some chomping => do
    let (increment, c) ← digit c.skip
    some (chomping, increment, c)
  | none => do
    let (increment, c) ← digit c
    match if increment = 0 then none else c.rest.head?.bind Chomping.ofChar? with
    | some chomping => some (chomping, increment, c.skip)
    | none => some (.clip, increment, c)

/-- The line ends before the next line of a block scalar, put before `breaks` in reverse, the
greatest column reached and the place of the line. Spaces count as indentation up to column
`indent`, or all of them if `indent` is zero. -/
def scanBlockBreaks (indent : Nat) :
    Nat → List Char → Nat → Cursor → Option (List Char × Nat × Cursor)
  | 0, breaks, widest, c => some (breaks, widest, c)
  | steps + 1, breaks, widest, c =>
    if (indent == 0 || c.column < indent) && c.atChar ' ' then
      scanBlockBreaks indent steps breaks widest c.skip
    else
      let widest := max widest c.column
      if (indent == 0 || c.column < indent) && c.atChar '\t' then none
      else if c.atBreak then
        let (lineEnd, c) := c.takeBreak
        scanBlockBreaks indent steps (lineEnd.reverse ++ breaks) widest c
      else some (breaks, widest, c)

/-- The lines of a block scalar from a place on: the text in reverse, the line end of the last line
and those after it. `wasBlank` says whether the line before began with a blank. -/
def scanBlockLines (isLiteral : Bool) (indent steps : Nat) :
    Nat → List Char → List Char → List Char → Bool → Cursor →
      Option (List Char × List Char × List Char × Cursor)
  | 0, text, lineEnd, breaks, _, c => some (text, lineEnd, breaks, c)
  | lines + 1, text, lineEnd, breaks, wasBlank, c =>
    if c.column == indent && !c.atEnd then
      let isBlankLine := c.atBlank
      let joined :=
        if !isLiteral && lineEnd == ['\n'] && !wasBlank && !isBlankLine then
          if breaks = [] then [' '] else []
        else lineEnd
      let (line, c) := c.takeWhile (!isBreak ·)
      let text := line.reverse ++ breaks ++ joined.reverse ++ text
      let (lineEnd, c) := c.takeBreak
      match scanBlockBreaks indent steps [] 0 c with
      | none => none
      | some (breaks, _, c) =>
        scanBlockLines isLiteral indent steps lines text lineEnd breaks isBlankLine c
    else some (text, lineEnd, breaks, c)

/-- A block scalar from the place of its indicator on, inside of a block indented by `parent`, and
the place after it. -/
def scanBlock (isLiteral : Bool) (parent : Int) (steps : Nat) (c : Cursor) :
    Option (List Char × Cursor) := do
  let (chomping, increment, c) ← scanBlockHeader c.skip
  let c := (c.skipWhile isBlank).skipComment
  if !c.atLineEnd then none
  else
    let c := c.skipBreak
    let written := if increment = 0 then 0 else (max parent 0).toNat + increment
    let (breaks, widest, c) ← scanBlockBreaks written steps [] 0 c
    let indent := if written = 0 then max (max widest (parent + 1).toNat) 1 else written
    let (text, lineEnd, breaks, c) ←
      scanBlockLines isLiteral indent steps steps [] [] breaks false c
    let tail := match chomping with
      | .strip => []
      | .clip => lineEnd
      | .keep => lineEnd ++ breaks.reverse
    some (text.reverse ++ tail, c)

end Specimen.Yaml
