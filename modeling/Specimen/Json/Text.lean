/-!
# JSON strings

A string stands between quotes. Written, only quotes, backslashes and control characters are
escaped; read, every escape of the format is understood, characters beyond 16 bits being two
escapes.
-/

namespace Specimen.Json

/-- The letter that stands for a character after a backslash, both ways. -/
def letterEscapes : List (Char × Char) :=
  [('"', '"'), ('\\', '\\'), ('b', '\x08'), ('f', '\x0c'), ('n', '\n'), ('r', '\r'), ('t', '\t')]

def hexDigit (n : Nat) : Char :=
  Nat.digitChar n

/-- A character as it is written between quotes. -/
def escape (c : Char) : List Char :=
  match letterEscapes.find? (·.2 == c) with
  | some (letter, _) => ['\\', letter]
  | none =>
    if c.toNat < 0x20 then
      ['\\', 'u', '0', '0', hexDigit (c.toNat / 16), hexDigit (c.toNat % 16)]
    else [c]

def quoted (s : String) : List Char :=
  '"' :: s.toList.flatMap escape ++ ['"']

def hexValue? (c : Char) : Option Nat :=
  if '0' ≤ c ∧ c ≤ '9' then some (c.toNat - '0'.toNat)
  else if 'a' ≤ c ∧ c ≤ 'f' then some (c.toNat - 'a'.toNat + 10)
  else if 'A' ≤ c ∧ c ≤ 'F' then some (c.toNat - 'A'.toNat + 10)
  else none

def hexValues? (a b c d : Char) : Option Nat := do
  let a ← hexValue? a
  let b ← hexValue? b
  let c ← hexValue? c
  let d ← hexValue? d
  some (((a * 16 + b) * 16 + c) * 16 + d)

/-- The character that a letter after a backslash stands for. -/
def unescape? (letter : Char) : Option Char :=
  if letter = '/' then some '/' else letterEscapes.lookup letter

/-- What one character or escape of a string stands for: a character, or half of one. -/
inductive Unit where
  | char (c : Char)
  | highHalf (n : Nat)
  | lowHalf (n : Nat)
  deriving DecidableEq, Repr

namespace Unit

/-- The unit that a number of sixteen bits stands for. -/
def ofNat (n : Nat) : Unit :=
  if 0xD800 ≤ n ∧ n < 0xDC00 then highHalf n
  else if 0xDC00 ≤ n ∧ n < 0xE000 then lowHalf n
  else char (Char.ofNat n)

/-- The characters of units, if each half stands with its other half. -/
def characters? : List Unit → Option (List Char)
  | [] => some []
  | char c :: units => (characters? units).map (c :: ·)
  | highHalf high :: lowHalf low :: units =>
    (characters? units).map
      (Char.ofNat (0x10000 + (high - 0xD800) * 0x400 + (low - 0xDC00)) :: ·)
  | _ => none

end Unit

/-- The units up to the closing quote and what follows it, unless the string does not end or holds a
control character or an unknown escape. -/
def scanString : List Char → Option (List Unit × List Char)
  | [] => none
  | '"' :: rest => some ([], rest)
  | '\\' :: 'u' :: a :: b :: c :: d :: rest =>
    match hexValues? a b c d with
    | none => none
    | some n => (scanString rest).map fun (units, tail) => (.ofNat n :: units, tail)
  | '\\' :: letter :: rest =>
    match unescape? letter with
    | none => none
    | some c => (scanString rest).map fun (units, tail) => (.char c :: units, tail)
  | c :: rest =>
    if c.toNat < 0x20 ∨ c = '\\' then none
    else (scanString rest).map fun (units, tail) => (.char c :: units, tail)

theorem length_scanString {cs : List Char} {units : List Unit} {tail : List Char}
    (h : scanString cs = some (units, tail)) : tail.length ≤ cs.length := by
  fun_induction scanString cs generalizing units tail with
  | case1 => simp at h
  | case2 => simp_all
  | case3 => simp at h
  | case4 _ _ _ _ _ _ _ ih =>
    obtain ⟨⟨u, t⟩, ht, heq⟩ := Option.map_eq_some_iff.1 h
    have hle := ih ht
    simp only [Prod.mk.injEq] at heq
    simp only [← heq.2, List.length_cons]
    omega
  | case5 => simp at h
  | case6 _ _ _ _ _ ih =>
    obtain ⟨⟨u, t⟩, ht, heq⟩ := Option.map_eq_some_iff.1 h
    have hle := ih ht
    simp only [Prod.mk.injEq] at heq
    simp only [← heq.2, List.length_cons]
    omega
  | case7 => simp at h
  | case8 _ _ _ _ _ _ ih =>
    obtain ⟨⟨u, t⟩, ht, heq⟩ := Option.map_eq_some_iff.1 h
    have hle := ih ht
    simp only [Prod.mk.injEq] at heq
    simp only [← heq.2, List.length_cons]
    omega

end Specimen.Json
