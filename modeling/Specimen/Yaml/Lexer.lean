import Specimen.Yaml.Tag

/-!
# From text to YAML tokens

Blocks are shown by indentation, and a mapping in block style begins before its first key, although
only the colon after the key tells that it is one. So tokens are held back while a key may still
turn out to begin at the first of them, and a text that turns out to be faulty has given all tokens
that were released before.
-/

namespace Specimen.Yaml

/-- A place where a key may begin. -/
structure KeyMark where
  /-- Whether nothing else than a key can begin here. -/
  isRequired : Bool
  /-- The number of the token that begins here. -/
  tokenNumber : Nat
  index : Nat
  line : Nat
  column : Nat

/-- A text that is read up to a place, with the tokens found and the blocks that are open. -/
structure Lexer where
  cursor : Cursor
  tokens : Array Token
  /-- The column of the innermost block; `-1` if none is open. -/
  indent : Int
  outerIndents : List Int
  /-- Whether a key may begin at the next token. -/
  mayBeginKey : Bool
  /-- For each flow collection that is open, from the innermost on, and at last for the blocks, the
  place where a key may have begun. -/
  keyMarks : List (Option KeyMark)
  /-- A bound on the steps of going through a scalar: more than the length of the text. -/
  steps : Nat

namespace Lexer

def start (cs : List Char) : Lexer where
  cursor := .start cs
  tokens := #[.streamStart]
  indent := -1
  outerIndents := []
  mayBeginKey := true
  keyMarks := [none]
  steps := cs.length + 1

def inFlow (l : Lexer) : Bool :=
  1 < l.keyMarks.length

/-- The token at the end. -/
def push (l : Lexer) (t : Token) : Lexer :=
  { l with tokens := l.tokens.push t }

/-- The token before the one of a number. -/
def insertAt (l : Lexer) (number : Nat) (t : Token) : Lexer :=
  { l with tokens := l.tokens.insertIdxIfInBounds number t }

/-- The token at the end, after some characters. -/
def pushAfter (l : Lexer) (length : Nat) (t : Token) : Lexer :=
  { l with cursor := l.cursor.skipMany length, tokens := l.tokens.push t }

/-! ## Places of keys -/

/-- Whether a mark is too far back: a key is on one line and not longer than 1024 characters. -/
def isStale (c : Cursor) (mark : KeyMark) : Bool :=
  mark.line < c.line || mark.index + 1024 < c.index

/-- Without the marks that are too far back, unless a key is required at one. -/
def dropStaleMarks (l : Lexer) : Option Lexer :=
  let isStaleMark (mark : Option KeyMark) : Bool := mark.any (isStale l.cursor)
  if l.keyMarks.any fun mark => isStaleMark mark && mark.any (·.isRequired) then none
  else
    some { l with keyMarks := l.keyMarks.map fun mark => if isStaleMark mark then none else mark }

/-- Without the innermost mark, unless a key is required there. -/
def dropMark (l : Lexer) : Option Lexer :=
  match l.keyMarks with
  | some mark :: outer =>
    if mark.isRequired then none else some { l with keyMarks := none :: outer }
  | _ => some l

/-- With the next token marked, if a key may begin there. -/
def markKey (l : Lexer) : Option Lexer :=
  if l.mayBeginKey then do
    let isRequired := !l.inFlow && l.indent == (l.cursor.column : Int)
    let mark : KeyMark :=
      ⟨isRequired, l.tokens.size, l.cursor.index, l.cursor.line, l.cursor.column⟩
    let l ← l.dropMark
    some { l with keyMarks := some mark :: l.keyMarks.tail }
  else some l

/-! ## Indentation -/

/-- With a block opened at a column, if it is right of the innermost block; its token comes before
the token of a number, or last. -/
def openBlock (l : Lexer) (column : Nat) (before : Option Nat) (t : Token) : Lexer :=
  if !l.inFlow && l.indent < (column : Int) then
    let l := { l with indent := column, outerIndents := l.indent :: l.outerIndents }
    match before with
    | none => l.push t
    | some number => l.insertAt number t
  else l

/-- The ends of the blocks right of a column, when `outer` are around the block at `indent`. -/
def closings (column : Int) (indent : Int) : List Int → List Token × Int × List Int
  | [] => ([], indent, [])
  | next :: outer =>
    if column < indent then
      let (ends, indent, outer) := closings column next outer
      (.blockEnd :: ends, indent, outer)
    else ([], indent, next :: outer)

/-- With the blocks right of a column closed. -/
def closeBlocks (l : Lexer) (column : Int) : Lexer :=
  if l.inFlow then l
  else
    let (ends, indent, outerIndents) := closings column l.indent l.outerIndents
    { l with tokens := l.tokens ++ ends, indent, outerIndents }

/-! ## Tokens -/

/-- The place of the next token; after the end of a line in a block a key may begin. -/
def skipGapFrom : Nat → Lexer → Lexer
  | 0, l => l
  | steps + 1, l =>
    let c := if l.cursor.index == 0 && l.cursor.atChar '\ufeff' then l.cursor.skip else l.cursor
    let c := c.skipWhile fun x => x == ' ' || ((l.inFlow || !l.mayBeginKey) && x == '\t')
    let c := c.skipComment
    if c.atBreak then
      skipGapFrom steps { l with cursor := c.skipBreak, mayBeginKey := l.mayBeginKey || !l.inFlow }
    else { l with cursor := c }

/-- The place of the next token, with the blocks closed that end before it. -/
def skipGap (l : Lexer) : Option Lexer := do
  let l ← (skipGapFrom l.steps l).dropStaleMarks
  some (l.closeBlocks l.cursor.column)

def readEnd (l : Lexer) : Option Lexer := do
  let l ← (l.closeBlocks (-1)).dropMark
  some { l.push .streamEnd with mayBeginKey := false }

def readDirective (l : Lexer) : Option Lexer := do
  let l ← (l.closeBlocks (-1)).dropMark
  let (t, cursor) ← scanDirective l.steps l.cursor
  some { l.push t with cursor, mayBeginKey := false }

/-- The mark of the beginning or end of a document. -/
def readDocumentMark (l : Lexer) (t : Token) : Option Lexer := do
  let l ← (l.closeBlocks (-1)).dropMark
  some { l.pushAfter 3 t with mayBeginKey := false }

def readFlowStart (l : Lexer) (t : Token) : Option Lexer := do
  let l ← l.markKey
  some { l.pushAfter 1 t with keyMarks := none :: l.keyMarks, mayBeginKey := true }

def readFlowEnd (l : Lexer) (t : Token) : Option Lexer := do
  let l ← l.dropMark
  let keyMarks := if l.inFlow then l.keyMarks.tail else l.keyMarks
  some { l.pushAfter 1 t with keyMarks, mayBeginKey := false }

/-- The comma between the items of a flow collection. -/
def readFlowEntry (l : Lexer) : Option Lexer := do
  let l ← l.dropMark
  some { l.pushAfter 1 .flowEntry with mayBeginKey := true }

/-- With a block opened for an indicator that stands in it, where one may be opened. -/
def openBlockHere (l : Lexer) (t : Token) : Option Lexer :=
  if l.inFlow then some l
  else if l.mayBeginKey then some (l.openBlock l.cursor.column none t)
  else none

/-- The dash before an item of a block sequence. -/
def readBlockEntry (l : Lexer) : Option Lexer := do
  let l ← (← l.openBlockHere .blockSequenceStart).dropMark
  some { l.pushAfter 1 .blockEntry with mayBeginKey := true }

/-- The question mark before a key. -/
def readKey (l : Lexer) : Option Lexer := do
  let l ← (← l.openBlockHere .blockMappingStart).dropMark
  some { l.pushAfter 1 .key with mayBeginKey := !l.inFlow }

/-- The colon before a value. If a key may have begun at a mark, it has. -/
def readValue (l : Lexer) : Option Lexer :=
  match l.keyMarks with
  | some mark :: outer =>
    let l := { l.insertAt mark.tokenNumber .key with keyMarks := none :: outer }
    let l := l.openBlock mark.column (some mark.tokenNumber) .blockMappingStart
    some { l.pushAfter 1 .value with mayBeginKey := false }
  | _ => do
    let l ← l.openBlockHere .blockMappingStart
    some { l.pushAfter 1 .value with mayBeginKey := !l.inFlow }

def readName (l : Lexer) (t : List Char → Token) : Option Lexer := do
  let l ← l.markKey
  let (name, cursor) ← scanName l.cursor
  some { l.push (t name) with cursor, mayBeginKey := false }

def readTag (l : Lexer) : Option Lexer := do
  let l ← l.markKey
  let (t, cursor) ← scanTag l.inFlow l.steps l.cursor
  some { l.push t with cursor, mayBeginKey := false }

def readBlockScalar (l : Lexer) (style : ScalarStyle) : Option Lexer := do
  let l ← l.dropMark
  let (text, cursor) ← scanBlock (style == .literal) l.indent l.steps l.cursor
  some { l.push (.scalar text style) with cursor, mayBeginKey := true }

def readQuoted (l : Lexer) (quote : Char) (style : ScalarStyle) : Option Lexer := do
  let l ← l.markKey
  let (text, cursor) ← scanQuoted quote l.steps l.steps [] l.cursor.skip
  some { l.push (.scalar text.reverse style) with cursor, mayBeginKey := false }

/-- A scalar without quotes. If a line ends after it, a key may begin. -/
def readPlain (l : Lexer) : Option Lexer := do
  let l ← l.markKey
  let (text, gap, cursor) ←
    scanPlain l.inFlow (l.indent + 1).toNat l.steps l.steps [] .empty l.cursor
  some { l.push (.scalar text.reverse .plain) with cursor, mayBeginKey := gap.isBroken }

/-- Whether a character has a meaning of its own at the beginning of a token. -/
def isIndicator (x : Char) : Bool :=
  "-?:,[]\x7b\x7d#&*!|>'\"%@".toList.contains x || x == '\x60'

/-- Whether a plain scalar begins at a place. -/
def beginsPlain (inFlow : Bool) (c : Cursor) : Bool :=
  (!c.atGap && !c.atSome isIndicator) ||
    (c.atChar '-' && !(c.rest[1]?.any isBlank)) ||
    (!inFlow && (c.atChar '?' || c.atChar ':') && !c.gapNext)

/-- The next token, with those that come with it. -/
def readToken (l : Lexer) : Option Lexer := do
  let l ← l.skipGap
  let c := l.cursor
  match c.rest with
  | [] => l.readEnd
  | x :: _ =>
    if c.column == 0 && x == '%' then l.readDirective
    else if c.atDocumentMark '-' then l.readDocumentMark .documentStart
    else if c.atDocumentMark '.' then l.readDocumentMark .documentEnd
    else if x == '[' then l.readFlowStart .flowSequenceStart
    else if x == '\x7b' then l.readFlowStart .flowMappingStart
    else if x == ']' then l.readFlowEnd .flowSequenceEnd
    else if x == '\x7d' then l.readFlowEnd .flowMappingEnd
    else if x == ',' then l.readFlowEntry
    else if x == '-' && c.gapNext then l.readBlockEntry
    else if x == '?' && (l.inFlow || c.gapNext) then l.readKey
    else if x == ':' && (l.inFlow || c.gapNext) then l.readValue
    else if x == '*' then l.readName .alias
    else if x == '&' then l.readName .anchor
    else if x == '!' then l.readTag
    else if x == '|' && !l.inFlow then l.readBlockScalar .literal
    else if x == '>' && !l.inFlow then l.readBlockScalar .folded
    else if x == '\'' then l.readQuoted '\'' .singleQuoted
    else if x == '"' then l.readQuoted '"' .doubleQuoted
    else if beginsPlain l.inFlow c then l.readPlain
    else none

/-! ## All tokens -/

/-- Whether a key may still begin at the token of a number. -/
def isHeldBack (l : Lexer) (number : Nat) : Bool :=
  l.keyMarks.any fun mark => mark.any (·.tokenNumber == number)

/-- The tokens from the text when `released` of them are released already, and whether the text is
read to its end. -/
def release : Nat → Nat → Lexer → List Token × Bool
  | 0, released, l => ((l.tokens.extract 0 released).toList, false)
  | steps + 1, released, l =>
    let step : Option (Nat × Lexer) :=
      if released < l.tokens.size then do
        let l ← l.dropStaleMarks
        if l.isHeldBack released then (l.readToken).map (released, ·) else some (released + 1, l)
      else l.readToken.map (released, ·)
    match step with
    | none => ((l.tokens.extract 0 released).toList, false)
    | some (released, l) =>
      if 0 < released && l.tokens[released - 1]? == some .streamEnd then (l.tokens.toList, true)
      else release steps released l

end Lexer

/-- The text without the mark of its byte order. -/
def dropOrderMark : List Char → List Char
  | '\ufeff' :: cs => cs
  | cs => cs

/-- The tokens of a text up to its first fault, and whether it has none. Each character gives rise
to a few tokens at most. -/
def tokens (text : String) : List Token × Bool :=
  let cs := dropOrderMark text.toList
  if cs.all isAllowed then (Lexer.start cs).release (8 * cs.length + 32) 0 else ([], false)

end Specimen.Yaml
