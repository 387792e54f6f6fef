/-!
# Places in a YAML text

A cursor is the rest of a text with the place it begins at. Line and column decide about
indentation, so they are kept with every step.
-/

namespace Specimen.Yaml

def isBreak (c : Char) : Bool :=
  c == '\n' || c == '\r' || c == '\x85' || c == '\u2028' || c == '\u2029'

/-- Whether a character is a space or a tab. -/
def isBlank (c : Char) : Bool :=
  c == ' ' || c == '\t'

/-- Whether a character may stand in names of anchors, directives and tag handles. -/
def isWordChar (c : Char) : Bool :=
  c.isAlphanum || c == '_' || c == '-'

/-- Whether a character may stand in a YAML text at all. -/
def isAllowed (c : Char) : Bool :=
  let n := c.toNat
  n == 0x09 || n == 0x0A || n == 0x0D || (0x20 ≤ n && n ≤ 0x7E) || n == 0x85 ||
    (0xA0 ≤ n && n ≤ 0xD7FF) || (0xE000 ≤ n && n ≤ 0xFFFD) || 0x10000 ≤ n

/-- The rest of a text and its place. -/
structure Cursor where
  rest : List Char
  /-- The number of characters before. -/
  index : Nat
  /-- The number of line ends before. -/
  line : Nat
  /-- The number of characters before on the same line. -/
  column : Nat

namespace Cursor

def start (cs : List Char) : Cursor :=
  ⟨cs, 0, 0, 0⟩

def atEnd (c : Cursor) : Bool :=
  c.rest.isEmpty

def atChar (c : Cursor) (x : Char) : Bool :=
  c.rest.head? == some x

/-- Whether a character with a property stands here. -/
def atSome (c : Cursor) (p : Char → Bool) : Bool :=
  c.rest.head?.any p

def atBreak (c : Cursor) : Bool :=
  c.atSome isBreak

def atLineEnd (c : Cursor) : Bool :=
  c.atEnd || c.atBreak

def atBlank (c : Cursor) : Bool :=
  c.atSome isBlank

/-- Whether a blank stands at the head of a text, or a line or the text ends there. -/
def isGap : List Char → Bool
  | [] => true
  | x :: _ => isBlank x || isBreak x

/-- Whether a blank stands here, or a line or the text ends. -/
def atGap (c : Cursor) : Bool :=
  isGap c.rest

/-- Whether there is a gap after the next character. -/
def gapNext (c : Cursor) : Bool :=
  isGap (c.rest.drop 1)

/-- The place after the next character of the line. -/
def skip (c : Cursor) : Cursor :=
  match c.rest with
  | [] => c
  | _ :: rest => { c with rest, index := c.index + 1, column := c.column + 1 }

/-- The place after several characters of the line. -/
def skipMany : Nat → Cursor → Cursor
  | 0, c => c
  | n + 1, c => skipMany n c.skip

/-- The place after the characters of the line with a property. -/
def skipWhile (p : Char → Bool) (c : Cursor) : Cursor :=
  let taken := (c.rest.takeWhile p).length
  { c with rest := c.rest.drop taken, index := c.index + taken, column := c.column + taken }

/-- The characters with a property, and the place after them. -/
def takeWhile (p : Char → Bool) (c : Cursor) : List Char × Cursor :=
  (c.rest.takeWhile p, c.skipWhile p)

/-- The line end that stands here, as it is kept in a text, and the place after it. All line ends
are kept as line feeds but the two that Unicode calls separators. -/
def takeBreak (c : Cursor) : List Char × Cursor :=
  match c.rest with
  | '\r' :: '\n' :: rest => (['\n'], ⟨rest, c.index + 2, c.line + 1, 0⟩)
  | x :: rest =>
    if isBreak x then
      (if x == '\u2028' || x == '\u2029' then [x] else ['\n'], ⟨rest, c.index + 1, c.line + 1, 0⟩)
    else ([], c)
  | [] => ([], c)

/-- The place after the line end that stands here, if there is one. -/
def skipBreak (c : Cursor) : Cursor :=
  c.takeBreak.2

/-- The place after a comment, if one stands here: at the end of the line. -/
def skipComment (c : Cursor) : Cursor :=
  if c.atChar '#' then c.skipWhile (!isBreak ·) else c

/-- Whether three equal characters stand at the beginning of a line as a word of their own. -/
def atDocumentMark (c : Cursor) (x : Char) : Bool :=
  c.column == 0 && c.rest.take 3 == [x, x, x] && isGap (c.rest.drop 3)

/-- Whether a document begins or ends here explicitly. -/
def atAnyDocumentMark (c : Cursor) : Bool :=
  c.atDocumentMark '-' || c.atDocumentMark '.'

end Cursor

end Specimen.Yaml
