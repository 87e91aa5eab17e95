import PayeeProposal.Yaml.Scalar.Folding

/-!
# Block scalars

A block scalar is the indented text below a `|` or `>`. Its indentation is given behind the mark
or taken from its first line that is not empty; a `>` joins lines that start without a blank; and
the mark also says which of the breaks at the end are kept.
-/

namespace PayeeProposal.Yaml.Block

/-- Which breaks at the end are kept. -/
inductive Chomping where
  | strip
  | clip
  | keep
deriving DecidableEq, Repr

/-- What stands behind the mark. -/
structure Header where
  chomping : Chomping
  /-- The indentation against the surrounding block, if it is given. -/
  increment : Option Nat
deriving DecidableEq, Repr

/-- What a sign says. -/
def chomping? : Char → Option Chomping
  | '+' => some .keep
  | '-' => some .strip
  | _ => none

/-- Reads a sign, if there is one. -/
def readChomping (c : Cursor) : Option Chomping × Cursor :=
  match c.rest.head? with
  | none => (none, c)
  | some x =>
    match chomping? x with
    | none => (none, c)
    | some chomping => (some chomping, c.next)

/-- Reads a digit, if there is one; zero is refused. -/
def readIncrement (c : Cursor) : Option (Option Nat × Cursor) :=
  match c.rest.head? with
  | none => some (none, c)
  | some x =>
    if !x.isDigit then some (none, c)
    else if x = '0' then none
    else some (some (x.toNat - 48), c.next)

/-- Reads a sign and a digit in either order. -/
def readHeader (c : Cursor) : Option (Header × Cursor) :=
  match readChomping c with
  | (some chomping, c) => do
    let (increment, c) ← readIncrement c
    pure (⟨chomping, increment⟩, c)
  | (none, c) => do
    match ← readIncrement c with
    | (none, c) => pure (⟨.clip, none⟩, c)
    | (some increment, c) =>
      let (chomping, c) := readChomping c
      pure (⟨chomping.getD .clip, some increment⟩, c)

/-- The place at the start of the line below a header, behind which only a comment may stand. -/
def endHeader (c : Cursor) : Option Cursor :=
  let c := (c.skipWhile isBlank).skipComment
  if isLineEnd c.rest then some c.next else none

/-- What stands between two lines of the text: the breaks, the widest indentation met, and the
place behind. -/
structure Indentation where
  breaks : List Char
  widest : Nat
  cursor : Cursor

/-- Reads indentation and empty lines, going no further than the column `indent` if one is known,
from a place given by line and column. -/
def readIndentation (indent : Option Nat) (breaks : List Char) (widest line column : Nat) :
    List Char → Option Indentation
  | [] => some ⟨breaks, max widest column, ⟨[], line, column⟩⟩
  | c :: rest =>
    let free := indent.all (column < ·)
    if c = ' ' ∧ free then readIndentation indent breaks widest line (column + 1) rest
    else if c = '\t' ∧ free then none
    else if isBreak c then
      readIndentation indent (breaks ++ [c]) (max widest column) (line + 1) 0 rest
    else some ⟨breaks, max widest column, ⟨c :: rest, line, column⟩⟩

/-- Reads indentation and empty lines. -/
def skipIndentation (indent : Option Nat) (c : Cursor) : Option Indentation :=
  readIndentation indent [] 0 c.line c.column c.rest

/-- A text in the making. -/
structure Progress where
  /-- The pieces of the text, the last one first. -/
  pieces : List (List Char)
  /-- The break behind the last line. -/
  lineBreak : List Char
  /-- The breaks of the empty lines behind it. -/
  emptyLines : List Char
  /-- Whether the last line starts with a blank. -/
  blankStart : Bool
  cursor : Cursor

/-- Whether a blank comes. -/
def startsBlank (c : Cursor) : Bool :=
  c.rest.head?.any isBlank

/-- What joins the last line and the one that comes. -/
def join (literal : Bool) (p : Progress) : List Char :=
  if !literal && p.lineBreak = ['\n'] && !p.blankStart && !startsBlank p.cursor then
    if p.emptyLines.isEmpty then [' '] else p.emptyLines
  else p.lineBreak ++ p.emptyLines

/-- Reads the lines that are indented as far as the column `indent`, at most as many as the budget
has characters. -/
def readLines (literal : Bool) (indent : Nat) : List Char → Progress → Option Progress
  | [], p => some p
  | _ :: budget, p =>
    if p.cursor.column ≠ indent ∨ p.cursor.rest = [] then some p
    else do
      let (line, c) := p.cursor.span fun x => !isBreak x
      let below ← skipIndentation (some indent) c.next
      readLines literal indent budget
        ⟨line :: join literal p :: p.pieces, c.rest.take 1, below.breaks, startsBlank p.cursor,
          below.cursor⟩

/-- The text with those breaks at its end that are kept. -/
def chomp (p : Progress) : Chomping → List Char
  | .strip => p.pieces.reverse.flatten
  | .clip => p.pieces.reverse.flatten ++ p.lineBreak
  | .keep => p.pieces.reverse.flatten ++ p.lineBreak ++ p.emptyLines

/-- Reads the scalar whose mark stands at a place; given is also the column that the surrounding
block is indented to, if there is one. -/
def read (literal : Bool) (outer : Option Nat) (c : Cursor) : Option (String × Cursor) := do
  let (header, c) ← readHeader c.next
  let c ← endHeader c
  let given := header.increment.map (outer.getD 0 + ·)
  let first ← skipIndentation given c
  let least := max 1 (outer.elim 0 (· + 1))
  let indent := given.getD (max first.widest least)
  let p ← readLines literal indent c.rest ⟨[], [], first.breaks, false, first.cursor⟩
  pure (String.ofList (chomp p header.chomping), p.cursor)

end PayeeProposal.Yaml.Block
