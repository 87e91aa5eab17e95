import PayeeProposal.Yaml.Cursor

/-!
# Folding of gaps

A gap is a run of blanks and line breaks inside a scalar. Within a line it stands as it is. A
single line feed becomes a space, of several the first is left out, and blanks next to a break are
dropped.
-/

namespace PayeeProposal.Yaml

/-- A gap of which some characters have been seen. -/
structure Gap where
  /-- The blanks before the first break, the last one first. -/
  blanks : List Char
  /-- Whether a break has been seen. -/
  broken : Bool
  /-- The first break, unless it was escaped. -/
  firstBreak : List Char
  /-- The breaks behind the first, the last one first. -/
  moreBreaks : List Char
deriving DecidableEq, Repr

namespace Gap

/-- A gap that starts within a line. -/
def inLine : Gap :=
  ⟨[], false, [], []⟩

/-- A gap that starts with an escaped break. -/
def afterEscape : Gap :=
  ⟨[], true, [], []⟩

/-- What a break and those behind it, in their order, become. -/
def foldBreaks (firstBreak moreBreaks : List Char) : List Char :=
  if firstBreak = ['\n'] then
    if moreBreaks.isEmpty then [' '] else moreBreaks
  else firstBreak ++ moreBreaks

/-- What a gap becomes in the scalar. -/
def text (g : Gap) : List Char :=
  if g.broken then foldBreaks g.firstBreak g.moreBreaks.reverse else g.blanks.reverse

/-- The gap with one more character. -/
def add (g : Gap) (c : Char) : Gap :=
  if isBreak c then
    if g.broken then { g with moreBreaks := c :: g.moreBreaks }
    else ⟨[], true, [c], []⟩
  else if g.broken then g
  else { g with blanks := c :: g.blanks }

/-- Reads a gap to its end from a place given by line and column. A tab at the start of a line and
before the column `indent` is refused. -/
def readFrom (indent : Nat) (g : Gap) (line column : Nat) : List Char → Option (Gap × Cursor)
  | [] => some (g, ⟨[], line, column⟩)
  | c :: rest =>
    if isBreak c then readFrom indent (g.add c) (line + 1) 0 rest
    else if isBlank c then
      if c = '\t' ∧ g.broken ∧ column < indent then none
      else readFrom indent (g.add c) line (column + 1) rest
    else some (g, ⟨c :: rest, line, column⟩)

/-- Reads a gap to its end. -/
def read (indent : Nat) (g : Gap) (c : Cursor) : Option (Gap × Cursor) :=
  readFrom indent g c.line c.column c.rest

@[simp] theorem text_inLine : inLine.text = [] := rfl

@[simp] theorem text_afterEscape : afterEscape.text = [] := rfl

theorem foldBreaks_single : foldBreaks ['\n'] [] = [' '] := rfl

end Gap

end PayeeProposal.Yaml
