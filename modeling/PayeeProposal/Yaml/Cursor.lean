/-!
# Places in a YAML text

A cursor holds the text that is left together with its line and column. All line breaks that are
the same to a reader have become line feeds before, so that a break is always one character.
-/

namespace PayeeProposal.Yaml

/-- The characters that may stand in a text. -/
def isAllowed (c : Char) : Bool :=
  let n := c.toNat
  n == 0x09 || n == 0x0a || n == 0x0d || (0x20 ≤ n && n ≤ 0x7e) || n == 0x85 ||
    (0xa0 ≤ n && n ≤ 0xfffd) || 0x10000 ≤ n

/-- A text with every line break in one form: a carriage return, alone or before a line feed, and
the next-line character become line feeds. The two Unicode separators stay what they are. -/
def unifyBreaks : List Char → List Char
  | [] => []
  | '\r' :: '\n' :: cs => '\n' :: unifyBreaks cs
  | c :: cs => (if c == '\r' || c == '\x85' then '\n' else c) :: unifyBreaks cs

/-- A space or a tab. -/
def isBlank (c : Char) : Bool :=
  c == ' ' || c == '\t'

/-- A line feed or one of the two Unicode separators. -/
def isBreak (c : Char) : Bool :=
  c == '\n' || c == '\u2028' || c == '\u2029'

/-- Whether a text ends or a blank or a break comes. -/
def isGap : List Char → Bool
  | [] => true
  | c :: _ => isBlank c || isBreak c

/-- Whether a text ends or a break comes. -/
def isLineEnd : List Char → Bool
  | [] => true
  | c :: _ => isBreak c

/-- The characters of names. -/
def isWordChar (c : Char) : Bool :=
  c.isAlphanum || c == '_' || c == '-'

/-- A place in a text. -/
structure Cursor where
  rest : List Char
  line : Nat
  column : Nat
deriving DecidableEq, Repr

namespace Cursor

/-- The start of a text. -/
def start (text : List Char) : Cursor :=
  ⟨text, 0, 0⟩

/-- The place behind the next character. -/
def next (c : Cursor) : Cursor :=
  match c.rest with
  | [] => c
  | x :: rest => if isBreak x then ⟨rest, c.line + 1, 0⟩ else ⟨rest, c.line, c.column + 1⟩

/-- The place some characters further on. -/
def skip (c : Cursor) : Nat → Cursor
  | 0 => c
  | n + 1 => c.next.skip n

/-- The longest stretch of characters of a kind, and the place behind it. -/
def span (c : Cursor) (kind : Char → Bool) : List Char × Cursor :=
  let stretch := c.rest.takeWhile kind
  (stretch, c.skip stretch.length)

/-- The place behind the characters of a kind. -/
def skipWhile (c : Cursor) (kind : Char → Bool) : Cursor :=
  (c.span kind).2

/-- Whether the next character is the given one. -/
def sees (c : Cursor) (x : Char) : Bool :=
  c.rest.head? == some x

/-- The place at the end of the line if a comment starts here, and this place if not. -/
def skipComment (c : Cursor) : Cursor :=
  if c.sees '#' then c.skipWhile fun x => !isBreak x else c

/-- The line that marks the start of a document. -/
def startMarker : List Char :=
  ['-', '-', '-']

/-- The line that marks the end of a document. -/
def endMarker : List Char :=
  ['.', '.', '.']

/-- Whether a marker stands here: at the start of a line and with a gap behind it. -/
def atMarker (c : Cursor) (marker : List Char) : Bool :=
  c.column == 0 && marker.isPrefixOf c.rest && isGap (c.rest.drop 3)

/-- Whether a document starts or ends here. -/
def atDocumentEdge (c : Cursor) : Bool :=
  c.atMarker startMarker || c.atMarker endMarker

end Cursor

end PayeeProposal.Yaml
