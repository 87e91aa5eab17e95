import PayeeProposal.Digits
import PayeeProposal.Yaml.Cursor
import PayeeProposal.Yaml.Token

/-!
# Properties of nodes

The names of anchors and aliases, and tags. A tag is written in full between angle brackets, or as
a handle and what follows it.
-/

namespace PayeeProposal.Yaml.Property

/-- Whether the name of an anchor or alias may end before the rest of a text. -/
def endsName (rest : List Char) : Bool :=
  isGap rest || rest.head?.any ['?', ':', ',', ']', '\x7d', '%', '@', '\x60'].contains

/-- Reads the name behind the mark of an anchor or alias. -/
def readName (c : Cursor) : Option (String × Cursor) :=
  let (name, c) := c.next.span isWordChar
  if name.isEmpty || !endsName c.rest then none else some (String.ofList name, c)

/-! ## Tags -/

/-- The characters of a tag other than name characters; `wide` allows some that have a meaning in
flow collections. -/
def isTagMark (wide : Bool) (c : Char) : Bool :=
  [';', '/', '?', ':', '@', '&', '=', '+', '$', '.', '!', '~', '*', '\'', '(', ')'].contains c ||
    (wide && [',', '[', ']'].contains c)

/-- The byte that a percent sign and two digits stand for. -/
def escapedByte? : List Char → Option UInt8
  | '%' :: a :: b :: _ => (Digits.ofChars? 16 [a, b]).map UInt8.ofNat
  | _ => none

/-- How many bytes a character of the given first byte has. -/
def widthOf (b : UInt8) : Option Nat :=
  if b < 0x80 then some 1
  else if 0xc0 ≤ b ∧ b < 0xe0 then some 2
  else if 0xe0 ≤ b ∧ b < 0xf0 then some 3
  else if 0xf0 ≤ b ∧ b < 0xf8 then some 4
  else none

/-- Reads a given number of escaped bytes that continue a character. -/
def continuation : Nat → List Char → Option (List UInt8)
  | 0, _ => some []
  | n + 1, cs => do
    let b ← escapedByte? cs
    if b &&& 0xc0 = 0x80 then
      let bs ← continuation n (cs.drop 3)
      pure (b :: bs)
    else none

/-- Reads one escaped character. -/
def escaped (cs : List Char) : Option (List UInt8) := do
  let b ← escapedByte? cs
  let width ← widthOf b
  let bs ← continuation (width - 1) (cs.drop 3)
  pure (b :: bs)

/-- Reads the characters of a tag as bytes, in at most as many steps as the budget has
characters. -/
def tagBytes (wide : Bool) : List Char → Cursor → Option (List UInt8 × Cursor)
  | [], c => some ([], c)
  | _ :: budget, c =>
    match c.rest with
    | [] => some ([], c)
    | x :: _ =>
      if x = '%' then do
        let here ← escaped c.rest
        let (bs, c) ← tagBytes wide budget (c.skip (3 * here.length))
        pure (here ++ bs, c)
      else if isWordChar x || isTagMark wide x then do
        let (bs, c) ← tagBytes wide budget c.next
        pure (UInt8.ofNat x.toNat :: bs, c)
      else some ([], c)

/-- Reads what follows a handle, or a whole tag; a zero byte ends it, and a text of no characters
is no tag. -/
def readTagBytes (wide : Bool) (c : Cursor) : Option (List UInt8 × Cursor) := do
  let (bs, behind) ← tagBytes wide c.rest c
  if behind.column = c.column then none
  else pure (bs.takeWhile (· ≠ 0), behind)

/-- Reads an exclamation mark, the name characters behind it, and another mark if there is one. -/
def readHandle (c : Cursor) : Option (List Char × Cursor) :=
  if c.sees '!' then
    let (name, c) := c.next.span isWordChar
    if c.sees '!' then some ('!' :: name ++ ['!'], c.next) else some ('!' :: name, c)
  else none

/-- Whether a tag may end before the rest of a text. -/
def endsTag (inFlow : Bool) (rest : List Char) : Bool :=
  isGap rest || (inFlow && rest.head? == some ',')

/-- Reads a tag between angle brackets, whose opening bracket stands behind the exclamation mark
at a place. -/
def readFullTag (c : Cursor) : Option (TagText × Cursor) := do
  let (bs, c) ← readTagBytes true (c.skip 2)
  if c.sees '>' then pure (⟨"", bs⟩, c.next) else none

/-- Reads a tag that starts with a handle. A name that no second mark follows is not part of the
handle but of what comes behind it, and a single mark alone is a tag without a handle. -/
def readShortTag (c : Cursor) : Option (TagText × Cursor) := do
  let (handle, behind) ← readHandle c
  if 2 ≤ handle.length ∧ handle.getLast? = some '!' then
    let (bs, c) ← readTagBytes false behind
    pure (⟨String.ofList handle, bs⟩, c)
  else
    let name := handle.tail.map fun x => UInt8.ofNat x.toNat
    let (bs, c) ← tagBytes false behind.rest behind
    match name ++ bs.takeWhile (· ≠ 0) with
    | [] => pure (⟨"", [0x21]⟩, c)
    | suffix => pure (⟨"!", suffix⟩, c)

/-- Reads the tag that starts at a place. -/
def readTag (inFlow : Bool) (c : Cursor) : Option (TagText × Cursor) := do
  let (tag, c) ← if c.next.sees '<' then readFullTag c else readShortTag c
  if endsTag inFlow c.rest then pure (tag, c) else none

end PayeeProposal.Yaml.Property
