import PayeeProposal.Yaml.Property

/-!
# Directives

A line that starts with a percent sign states the version that a document follows or gives a tag
handle its meaning.
-/

namespace PayeeProposal.Yaml.Directive

/-- The most digits that a part of a version number may have. -/
def maxDigits : Nat :=
  9

/-- Reads a number. -/
def readNumber (c : Cursor) : Option (Nat × Cursor) := do
  let (digits, c) := c.span Char.isDigit
  if digits.isEmpty || maxDigits < digits.length then none
  else
    let n ← Digits.ofChars? 10 digits
    pure (n, c)

/-- Reads a version, which is two numbers with a point between them. -/
def readVersion (c : Cursor) : Option (Token × Cursor) := do
  let (major, c) ← readNumber (c.skipWhile isBlank)
  if c.sees '.' then
    let (minor, c) ← readNumber c.next
    pure (.version major minor, c)
  else none

/-- Whether a text is a handle that a directive can define. -/
def isHandle (handle : List Char) : Bool :=
  handle == ['!'] || (2 ≤ handle.length && handle.getLast? == some '!')

/-- Reads a handle and what it stands for. -/
def readMeaning (c : Cursor) : Option (Token × Cursor) := do
  let (handle, c) ← Property.readHandle (c.skipWhile isBlank)
  if isHandle handle && c.rest.head?.any isBlank then
    let (expansion, c) ← Property.readTagBytes true (c.skipWhile isBlank)
    if isGap c.rest then pure (.handle (String.ofList handle) expansion, c) else none
  else none

/-- Reads the directive whose percent sign stands at a place, with its line break. -/
def read (c : Cursor) : Option (Token × Cursor) := do
  let (name, c) := c.next.span isWordChar
  let (token, c) ←
    if !isGap c.rest then none
    else if name = "YAML".toList then readVersion c
    else if name = "TAG".toList then readMeaning c
    else none
  let c := (c.skipWhile isBlank).skipComment
  if isLineEnd c.rest then pure (token, c.next) else none

end PayeeProposal.Yaml.Directive
