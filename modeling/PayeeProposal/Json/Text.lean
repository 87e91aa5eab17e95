import PayeeProposal.Digits
import PayeeProposal.Json.Failure

/-!
# JSON strings

What stands between the quotation marks, read one character at a time by a machine that keeps
what an escape still lacks. Where the text is wanted, a surrogate must come with its partner;
where the string is only passed over, four hexadecimal digits are enough.
-/

namespace PayeeProposal.Json

/-- The character that a letter after a backslash stands for. -/
def unescape? (c : Char) : Option Char :=
  if c = '\x22' ∨ c = '\\' ∨ c = '/' then some c
  else if c = 'b' then some '\x08'
  else if c = 'f' then some '\x0c'
  else if c = 'n' then some '\n'
  else if c = 'r' then some '\r'
  else if c = 't' then some '\t'
  else none

/-- Whether at least four bytes are left, which an escape of four digits needs. -/
def fourBytesLeft (s : List Char) : Bool :=
  4 ≤ (s.take 4).foldl (fun n c => n + c.utf8Size) 0

/-- Whether a character may stand unescaped in a string. -/
def isControl (c : Char) : Bool :=
  c.toNat < 0x20

/-- Whether a unit is the first half of a pair. -/
def isHighSurrogate (unit : Nat) : Bool :=
  0xd800 ≤ unit && unit ≤ 0xdbff

/-- Whether a unit is the second half of a pair. -/
def isLowSurrogate (unit : Nat) : Bool :=
  0xdc00 ≤ unit && unit ≤ 0xdfff

/-- The character of a pair. -/
def pairChar (high low : Nat) : Char :=
  Char.ofNat (0x10000 + (high - 0xd800) * 0x400 + (low - 0xdc00))

/-- What a string that is being read still lacks. -/
inductive Pending where
  /-- Nothing. -/
  | nothing
  /-- The letter after a backslash. -/
  | letter
  /-- Some more digits of a unit, whose digits so far are given, after a first half if any. -/
  | digits (more : Nat) (unit : Nat) (high : Option Nat)
  /-- The backslash of the second half. -/
  | backslash (high : Nat)
  /-- The letter of the second half. -/
  | partner (high : Nat)
deriving DecidableEq

/-- What a complete unit gives: a character, or what is still lacking. -/
def unitStep (unit : Nat) : Option Nat → Except Failure (Char ⊕ Pending)
  | none =>
    if isLowSurrogate unit then .error .malformed
    else if isHighSurrogate unit then .ok (.inr (.backslash unit))
    else .ok (.inl (Char.ofNat unit))
  | some high =>
    if isLowSurrogate unit then .ok (.inl (pairChar high unit)) else .error .malformed

/-- Reads the rest of a string; the characters read so far come last first. -/
def textFrom : Pending → List Char → Reader String
  | _, _, [] => .error .truncated
  | .nothing, acc, c :: s =>
    if c = '\x22' then .ok (String.ofList acc.reverse, s)
    else if c = '\\' then textFrom .letter acc s
    else if isControl c then .error .malformed
    else textFrom .nothing (c :: acc) s
  | .letter, acc, c :: s =>
    if c = 'u' then
      if fourBytesLeft s then textFrom (.digits 3 0 none) acc s else .error .truncated
    else
      match unescape? c with
      | some d => textFrom .nothing (d :: acc) s
      | none => .error .malformed
  | .digits more unit high, acc, c :: s =>
    match Digits.ofChar? 16 c with
    | none => .error .malformed
    | some v =>
      match more with
      | more + 1 => textFrom (.digits more (16 * unit + v) high) acc s
      | 0 =>
        match unitStep (16 * unit + v) high with
        | .error e => .error e
        | .ok (.inl d) => textFrom .nothing (d :: acc) s
        | .ok (.inr pending) => textFrom pending acc s
  | .backslash high, acc, c :: s =>
    if c = '\\' then textFrom (.partner high) acc s else .error .malformed
  | .partner high, acc, c :: s =>
    if c = 'u' then
      if fourBytesLeft s then textFrom (.digits 3 0 (some high)) acc s else .error .truncated
    else .error .malformed

/-- Reads a string whose opening quotation mark has been taken off. -/
def text : Reader String :=
  textFrom .nothing []

/-- What a string that is being passed over still lacks. -/
inductive Lacking where
  | nothing
  | letter
  | digits (more : Nat)
deriving DecidableEq

/-- Passes over the rest of a string. -/
def skipTextFrom : Lacking → List Char → Except Failure (List Char)
  | _, [] => .error .truncated
  | .nothing, c :: s =>
    if c = '\x22' then .ok s
    else if c = '\\' then skipTextFrom .letter s
    else if isControl c then .error .malformed
    else skipTextFrom .nothing s
  | .letter, c :: s =>
    if c = 'u' then
      if fourBytesLeft s then skipTextFrom (.digits 3) s else .error .truncated
    else if (unescape? c).isSome then skipTextFrom .nothing s
    else .error .malformed
  | .digits more, c :: s =>
    if (Digits.ofChar? 16 c).isSome then
      match more with
      | more + 1 => skipTextFrom (.digits more) s
      | 0 => skipTextFrom .nothing s
    else .error .malformed

/-- Passes over a string whose opening quotation mark has been taken off. -/
def skipText : List Char → Except Failure (List Char) :=
  skipTextFrom .nothing

end PayeeProposal.Json
