import PayeeProposal.Digits

/-!
# Laid-out JSON

The written form of JSON values on several lines: every element and member has a line of its own,
indented by two spaces more than what it is part of.
-/

namespace PayeeProposal.Json

/-- The hexadecimal digits of a number below 256, in lower case. -/
def hexPair (n : Nat) : List Char :=
  [Nat.digitChar (n / 16), Nat.digitChar (n % 16)]

/-- How a character is written in a string. -/
def escapeChar (c : Char) : List Char :=
  if c = '\x22' then ['\\', '\x22']
  else if c = '\\' then ['\\', '\\']
  else if c = '\x08' then ['\\', 'b']
  else if c = '\x0c' then ['\\', 'f']
  else if c = '\n' then ['\\', 'n']
  else if c = '\r' then ['\\', 'r']
  else if c = '\t' then ['\\', 't']
  else if c.toNat < 0x20 then ['\\', 'u', '0', '0'] ++ hexPair c.toNat
  else [c]

/-- A text as a JSON string. -/
def quote (s : String) : String :=
  String.ofList ('\x22' :: s.toList.flatMap escapeChar ++ ['\x22'])

/-- The written form of a value, by how deep it stands. -/
abbrev Layout : Type :=
  Nat → String

namespace Layout

/-- The start of a line at some depth. -/
def newline (depth : Nat) : String :=
  String.ofList ('\n' :: List.replicate (2 * depth) ' ')

/-- A string. -/
def string (s : String) : Layout := fun _ =>
  quote s

/-- A truth value. -/
def boolean (b : Bool) : Layout := fun _ =>
  if b then "true" else "false"

/-- Items between two brackets. -/
def enclose (opening closing : String) (items : List Layout) : Layout := fun depth =>
  if items.isEmpty then opening ++ closing
  else
    let lines := items.map fun item => newline (depth + 1) ++ item (depth + 1)
    opening ++ ",".intercalate lines ++ newline depth ++ closing

/-- A list. -/
def list (items : List Layout) : Layout :=
  enclose "[" "]" items

/-- An object. -/
def object (members : List (String × Layout)) : Layout :=
  enclose "\x7b" "\x7d" (members.map fun m => fun depth => quote m.1 ++ ": " ++ m.2 depth)

end Layout

end PayeeProposal.Json
