import Specimen.Yaml.Cursor
import Specimen.Yaml.Scalar
import Specimen.Yaml.Token

/-!
# YAML directives, anchors and tags

A tag is written as a handle with a suffix, or whole between angle brackets. A `%TAG` directive says
what a handle stands for, a `%YAML` directive which version of the format a document is in.
-/

namespace Specimen.Yaml

/-! ## Addresses -/

/-- The octet of an escape `%xx` at the head of a text and the rest. -/
def scanOctet : List Char → Option (UInt8 × List Char)
  | '%' :: a :: b :: rest => do
    let n ← hexNumber? [a, b]
    some (UInt8.ofNat n, rest)
  | _ => none

/-- The number of octets that the first octet of a character announces. -/
def octetCount? (first : UInt8) : Option Nat :=
  if first &&& 0x80 = 0 then some 1
  else if first &&& 0xE0 = 0xC0 then some 2
  else if first &&& 0xF0 = 0xE0 then some 3
  else if first &&& 0xF8 = 0xF0 then some 4
  else none

/-- The octets of escapes that continue a character and the rest. -/
def scanContinuation : Nat → List Char → Option (List UInt8 × List Char)
  | 0, cs => some ([], cs)
  | n + 1, cs => do
    let (octet, cs) ← scanOctet cs
    if octet &&& 0xC0 ≠ 0x80 then none
    else
      let (octets, cs) ← scanContinuation n cs
      some (octet :: octets, cs)

/-- The character that escapes `%xx` stand for and the number of characters they take. -/
def unescapeOctets? (cs : List Char) : Option (Char × Nat) := do
  let (first, rest) ← scanOctet cs
  let count ← octetCount? first
  let (others, _) ← scanContinuation (count - 1) rest
  let decoded := String.fromUTF8? ⟨(first :: others).toArray⟩
  some ((decoded.bind (·.toList.head?)).getD '\ufffd', 3 * count)

/-- Whether a character may stand in the address of a tag. Those that end the items of flow
collections may not stand in a suffix. -/
def isAddressChar (isWhole : Bool) (x : Char) : Bool :=
  isWordChar x || ";/?:@&=+$.%!~*'()".toList.contains x || (isWhole && ",[]".toList.contains x)

/-- The characters of an address, put before `address` in reverse, and the place after it. -/
def scanAddressFrom (isWhole : Bool) : Nat → List Char → Cursor → Option (List Char × Cursor)
  | 0, address, c => some (address, c)
  | steps + 1, address, c =>
    match c.rest with
    | [] => some (address, c)
    | x :: _ =>
      if x == '%' then
        match unescapeOctets? c.rest with
        | none => none
        | some (y, length) => scanAddressFrom isWhole steps (y :: address) (c.skipMany length)
      else if isAddressChar isWhole x then scanAddressFrom isWhole steps (x :: address) c.skip
      else some (address, c)

/-- An address that begins with characters read before. It must not be empty. -/
def scanAddress (isWhole : Bool) (steps : Nat) (before : List Char) (c : Cursor) :
    Option (List Char × Cursor) := do
  let (address, next) ← scanAddressFrom isWhole steps before.reverse c
  if before.isEmpty && next.index == c.index then none else some (address.reverse, next)

/-! ## Tags -/

/-- A handle: `!`, or a word between two exclamation marks. The second mark may be missing where a
tag begins, not in a directive. -/
def scanHandle (inDirective : Bool) (c : Cursor) : Option (List Char × Cursor) :=
  if !c.atChar '!' then none
  else
    let (word, c) := c.skip.takeWhile isWordChar
    if c.atChar '!' then some ('!' :: word ++ ['!'], c.skip)
    else if inDirective && !word.isEmpty then none
    else some ('!' :: word, c)

/-- Whether a handle has two exclamation marks. -/
def isNamedHandle (handle : List Char) : Bool :=
  1 < handle.length && handle.getLast? == some '!'

/-- A tag without the check of what follows it. -/
def scanTagText (steps : Nat) (c : Cursor) : Option (Token × Cursor) :=
  if c.rest.take 2 == ['!', '<'] then do
    let (address, c) ← scanAddress true steps [] (c.skipMany 2)
    if c.atChar '>' then some (.tag [] address, c.skip) else none
  else do
    let (handle, c) ← scanHandle false c
    if isNamedHandle handle then
      let (suffix, c) ← scanAddress false steps [] c
      some (.tag handle suffix, c)
    else
      let (address, c) ← scanAddressFrom false steps handle.reverse c
      match address.reverse with
      | _ :: x :: suffix => some (.tag ['!'] (x :: suffix), c)
      | _ => some (.tag [] ['!'], c)

def scanTag (inFlow : Bool) (steps : Nat) (c : Cursor) : Option (Token × Cursor) := do
  let (token, c) ← scanTagText steps c
  if c.atGap || (inFlow && c.atChar ',') then some (token, c) else none

/-! ## Anchors and aliases -/

/-- The name after the mark of an anchor or alias and the place after it. -/
def scanName (c : Cursor) : Option (List Char × Cursor) :=
  let (name, c) := c.skip.takeWhile isWordChar
  if name.isEmpty then none
  else if c.atGap || c.atSome ("?:,]\x7d%@".toList.contains ·) || c.atChar '\x60' then
    some (name, c)
  else none

/-! ## Directives -/

/-- A number of a version: at most nine digits. -/
def scanVersionNumber (c : Cursor) : Option (Nat × Cursor) :=
  let (digits, c) := c.takeWhile Char.isDigit
  if digits.isEmpty || 9 < digits.length then none
  else some (Nat.ofDigitChars 10 digits 0, c)

/-- What follows the name of a `%YAML` directive. -/
def scanVersion (c : Cursor) : Option (Token × Cursor) := do
  let (major, c) ← scanVersionNumber (c.skipWhile isBlank)
  if !c.atChar '.' then none
  else
    let (minor, c) ← scanVersionNumber c.skip
    some (.versionDirective major minor, c)

/-- What follows the name of a `%TAG` directive. -/
def scanTagMeaning (steps : Nat) (c : Cursor) : Option (Token × Cursor) := do
  let (handle, c) ← scanHandle true (c.skipWhile isBlank)
  if !c.atBlank then none
  else
    let (address, c) ← scanAddress true steps [] (c.skipWhile isBlank)
    if c.atGap then some (.tagDirective handle address, c) else none

def scanDirective (steps : Nat) (c : Cursor) : Option (Token × Cursor) := do
  let (name, c) := c.skip.takeWhile isWordChar
  let (token, c) ←
    if name == "YAML".toList then scanVersion c
    else if name == "TAG".toList then scanTagMeaning steps c
    else none
  let c := (c.skipWhile isBlank).skipComment
  if c.atLineEnd then some (token, c.skipBreak) else none

end Specimen.Yaml
