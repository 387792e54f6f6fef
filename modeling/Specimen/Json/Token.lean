import Specimen.Decode.Error
import Specimen.Json.Number
import Specimen.Json.Text

/-!
# JSON tokens

A text is read as a list of tokens. Where the text is no JSON the list ends with a faulty token, so
that a reader that goes from left to right meets the first fault where it stands, and a wrong value
before it first.
-/

namespace Specimen.Json

/-- A token. A string is kept in units, since what stands in an ignored place need not be text. -/
inductive Token where
  | openBrace
  | closeBrace
  | openBracket
  | closeBracket
  | comma
  | colon
  | null
  | boolean (b : Bool)
  | number (l : Literal)
  | string (units : List Unit)
  /-- No token of the format stands here. -/
  | faulty
  deriving DecidableEq

/-- Whether a character may stand between tokens. -/
def isSpace (c : Char) : Bool :=
  c == ' ' || c == '\n' || c == '\t' || c == '\r'

namespace Token

/-- The token for the outcome of a scan. -/
def ofScan {α : Type} (token : α → Token) : Option (α × List Char) → Token × List Char
  | some (a, rest) => (token a, rest)
  | none => (faulty, [])

theorem length_ofScan {α : Type} {token : α → Token} {scan : Option (α × List Char)}
    {cs : List Char} (h : ∀ a rest, scan = some (a, rest) → rest.length ≤ cs.length) :
    (ofScan token scan).2.length ≤ cs.length := by
  cases scan with
  | none => simp [ofScan]
  | some p => exact h p.1 p.2 rfl

/-- The token that begins with a character, and what follows it. -/
def read (c : Char) (cs : List Char) : Token × List Char :=
  match c, cs with
  | '\x7b', cs => (openBrace, cs)
  | '\x7d', cs => (closeBrace, cs)
  | '[', cs => (openBracket, cs)
  | ']', cs => (closeBracket, cs)
  | ',', cs => (comma, cs)
  | ':', cs => (colon, cs)
  | 'n', 'u' :: 'l' :: 'l' :: rest => (null, rest)
  | 't', 'r' :: 'u' :: 'e' :: rest => (boolean true, rest)
  | 'f', 'a' :: 'l' :: 's' :: 'e' :: rest => (boolean false, rest)
  | '"', cs => ofScan string (scanString cs)
  | '-', cs => ofScan number (scanNumber true cs)
  | c, cs => if c.isDigit then ofScan number (scanNumber false (c :: cs)) else (faulty, [])

theorem length_read (c : Char) (cs : List Char) : (read c cs).2.length ≤ cs.length := by
  unfold read
  split
  case h_10 => exact length_ofScan fun _ _ h => length_scanString h
  case h_11 => exact length_ofScan fun _ _ h => Nat.le_of_lt (length_scanNumber h)
  case h_12 =>
    split
    · exact length_ofScan fun _ _ h => Nat.le_of_lt_succ (length_scanNumber h)
    · exact Nat.zero_le _
  all_goals
    simp only [List.length_cons]
    omega

end Token

/-- The tokens of a text, up to the first that is faulty. -/
def tokens : List Char → List Token
  | [] => []
  | c :: cs =>
    if isSpace c then tokens cs
    else
      let next := Token.read c cs
      next.1 :: tokens next.2
termination_by cs => cs.length
decreasing_by
  · exact Nat.lt_succ_self _
  · exact Nat.lt_succ_of_le (Token.length_read c cs)

end Specimen.Json
