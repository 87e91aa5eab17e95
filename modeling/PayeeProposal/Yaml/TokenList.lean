import PayeeProposal.Yaml.Directive
import PayeeProposal.Yaml.Scalar.Block
import PayeeProposal.Yaml.Scalar.Plain
import PayeeProposal.Yaml.Scalar.Quoted

/-!
# The tokens of a text

A text is read from left to right. Indentation opens and closes block collections; a scalar or a
collection turns out to be a key only when a colon follows, and the tokens that make it one are
then put in front of it. Such a key has to end on its line and within 1024 characters.
-/

namespace PayeeProposal.Yaml

/-- Something that is a key if a colon follows. -/
structure KeyCandidate where
  /-- Whether it stands where a block mapping needs a key. -/
  isRequired : Bool
  /-- How many tokens there were before it. -/
  position : Nat
  line : Nat
  column : Nat
deriving DecidableEq, Repr

/-- A text of which some tokens have been read. -/
structure Scan where
  cursor : Cursor
  /-- The columns of the block collections that are open, innermost first. -/
  indents : List Nat
  /-- What may be a key at present, for each open flow collection and the block around them,
  innermost first. -/
  candidates : List (Option KeyCandidate)
  /-- Whether a key may start at present. -/
  keyAllowed : Bool
  /-- The tokens, the last one first. -/
  tokens : List Token
  /-- How many tokens there are. -/
  count : Nat

namespace Scan

/-- The longest that a key may be without a mark of its own, in characters. -/
def maxKeySize : Nat :=
  1024

/-- A text of which nothing has been read. -/
def start (text : List Char) : Scan :=
  ⟨Cursor.start text, [], [none], true, [], 0⟩

/-- Whether a flow collection is open. -/
def inFlow (s : Scan) : Bool :=
  1 < s.candidates.length

/-- Adds a token at the end. -/
def push (s : Scan) (t : Token) : Scan :=
  { s with tokens := t :: s.tokens, count := s.count + 1 }

/-- Adds a token in front of all those that came after a position. -/
def insert (s : Scan) (position : Nat) (t : Token) : Scan :=
  let later := s.count - position
  { s with tokens := s.tokens.take later ++ t :: s.tokens.drop later, count := s.count + 1 }

/-- Goes on to another place. -/
def moveTo (s : Scan) (c : Cursor) : Scan :=
  { s with cursor := c }

/-- Takes the next character as a token. -/
def take (s : Scan) (t : Token) : Scan :=
  (s.moveTo s.cursor.next).push t

/-- Says whether a key may start. -/
def allowKey (s : Scan) (allowed : Bool) : Scan :=
  { s with keyAllowed := allowed }

/-! ## Indentation -/

/-- Whether a column is further right than the innermost block collection. -/
def isDeeper (s : Scan) (column : Nat) : Bool :=
  s.indents.head?.all (· < column)

/-- Opens a block collection at a column further right than the innermost one. -/
def openAt (s : Scan) (column : Nat) (add : Scan → Scan) : Scan :=
  if !s.inFlow && s.isDeeper column then add { s with indents := column :: s.indents } else s

/-- The block collections that stay open at a column, and how many do not. -/
def closing (column : Nat) : List Nat → List Nat × Nat
  | [] => ([], 0)
  | i :: is =>
    if column < i then
      let (still, n) := closing column is
      (still, n + 1)
    else (i :: is, 0)

/-- Ends a number of block collections. -/
def pushEnds (s : Scan) : Nat → Scan
  | 0 => s
  | n + 1 => (s.push .blockEnd).pushEnds n

/-- Ends the block collections that are further right than a column. -/
def closeTo (s : Scan) (column : Nat) : Scan :=
  if s.inFlow then s
  else
    let (still, n) := closing column s.indents
    { s with indents := still }.pushEnds n

/-- Ends all block collections. -/
def closeAll (s : Scan) : Scan :=
  if s.inFlow then s else { s with indents := [] }.pushEnds s.indents.length

/-! ## Keys -/

/-- Drops the innermost candidate; one that is required may not be dropped. -/
def dropCandidate (s : Scan) : Option Scan :=
  match s.candidates with
  | some k :: ks => if k.isRequired then none else some { s with candidates := none :: ks }
  | _ => some s

/-- Makes what comes a candidate, if a key may start here. -/
def addCandidate (s : Scan) : Option Scan :=
  if s.keyAllowed then do
    let isRequired := !s.inFlow && s.indents.head? == some s.cursor.column
    let s ← s.dropCandidate
    pure { s with
      candidates :=
        some ⟨isRequired, s.count, s.cursor.line, s.cursor.column⟩ :: s.candidates.tail }
  else some s

/-- Whether a place is too far behind a candidate. -/
def isStale (c : Cursor) (k : KeyCandidate) : Bool :=
  k.line < c.line || k.column + maxKeySize < c.column

/-- Drops the candidates that are too far back. -/
def dropStale (s : Scan) : Option Scan := do
  let candidates ← s.candidates.mapM fun candidate =>
    match candidate with
    | none => some none
    | some k =>
      if !isStale s.cursor k then some (some k) else if k.isRequired then none else some none
  pure { s with candidates := candidates }

/-! ## Tokens -/

/-- Goes on to the start of the next token, over at most as many lines as the budget has
characters: over spaces, over tabs where no key may start, and over comments and breaks. -/
def toNextToken : List Char → Scan → Scan
  | [], s => s
  | _ :: budget, s =>
    let c := s.cursor
    let c := if c.column == 0 && c.sees '\ufeff' then c.next else c
    let c := c.skipWhile fun x => x == ' ' || (x == '\t' && (s.inFlow || !s.keyAllowed))
    let c := c.skipComment
    if !c.rest.isEmpty && isLineEnd c.rest then
      toNextToken budget { s with cursor := c.next, keyAllowed := !s.inFlow || s.keyAllowed }
    else s.moveTo c

/-- Opens a flow collection. -/
def openFlow (s : Scan) (t : Token) : Option Scan := do
  let s ← s.addCandidate
  pure (({ s with candidates := none :: s.candidates }.allowKey true).take t)

/-- Closes a flow collection. -/
def closeFlow (s : Scan) (t : Token) : Option Scan := do
  let s ← s.dropCandidate
  let outer := if s.inFlow then s.candidates.tail else s.candidates
  pure (({ s with candidates := outer }.allowKey false).take t)

/-- Takes a comma. -/
def flowEntry (s : Scan) : Option Scan := do
  let s ← s.dropCandidate
  pure ((s.allowKey true).take .flowEntry)

/-- Opens a block collection at the place reached; it has to be one where a key may start. -/
def openHere (s : Scan) (t : Token) : Option Scan :=
  if s.inFlow then some s
  else if s.keyAllowed then some (s.openAt s.cursor.column (·.push t))
  else none

/-- Takes a dash. -/
def blockEntry (s : Scan) : Option Scan := do
  let s ← s.openHere .blockSequenceStart
  let s ← s.dropCandidate
  pure ((s.allowKey true).take .blockEntry)

/-- Takes a question mark. -/
def explicitKey (s : Scan) : Option Scan := do
  let s ← s.openHere .blockMappingStart
  let s ← s.dropCandidate
  pure ((s.allowKey (!s.inFlow)).take .key)

/-- Takes a colon: what stands before it becomes a key, if there is a candidate. -/
def value (s : Scan) : Option Scan :=
  match s.candidates with
  | some k :: ks =>
    let s := s.insert k.position .key
    let s := s.openAt k.column (·.insert k.position .blockMappingStart)
    some (({ s with candidates := none :: ks }.allowKey false).take .value)
  | _ => do
    let s ← s.openHere .blockMappingStart
    pure ((s.allowKey (!s.inFlow)).take .value)

/-- Takes the marker of the start or end of a document. -/
def documentMarker (s : Scan) (t : Token) : Option Scan := do
  let s ← s.closeAll.dropCandidate
  pure (((s.allowKey false).moveTo (s.cursor.skip 3)).push t)

/-- Takes a directive. -/
def directive (s : Scan) : Option Scan := do
  let s ← s.closeAll.dropCandidate
  let (t, c) ← Directive.read s.cursor
  pure (((s.allowKey false).moveTo c).push t)

/-- Takes something that may start a key. -/
def candidate (s : Scan) (read : Cursor → Option (Token × Cursor)) : Option Scan := do
  let s ← s.addCandidate
  let (t, c) ← read s.cursor
  pure (((s.allowKey false).moveTo c).push t)

/-- Takes a quoted scalar. -/
def quoted (s : Scan) (quote : Quoted.Quote) (style : Style) : Option Scan :=
  s.candidate fun c => (Quoted.read quote c).map fun (text, c) => (.scalar style text, c)

/-- Takes a plain scalar. -/
def plain (s : Scan) : Option Scan := do
  let s ← s.addCandidate
  let indent := s.indents.head?.elim 0 (· + 1)
  let (text, broken, c) ← Plain.read s.inFlow indent s.cursor
  pure (((s.allowKey broken).moveTo c).push (.scalar .plain text))

/-- Takes a block scalar. -/
def block (s : Scan) (style : Style) : Option Scan := do
  let s ← s.dropCandidate
  let (text, c) ← Block.read (style == .literal) s.indents.head? s.cursor
  pure (((s.allowKey true).moveTo c).push (.scalar style text))

/-- Whether a plain scalar can start with a character that others follow. -/
def startsPlain (inFlow : Bool) (x : Char) (rest : List Char) : Bool :=
  match x with
  | '-' => !rest.head?.any isBlank
  | '?' | ':' => !inFlow && !isGap rest
  | _ =>
    !(isGap (x :: rest) || Plain.isFlowMark x ||
      ['#', '&', '*', '!', '|', '>', '\'', '\x22', '%', '@', '\x60'].contains x)

/-- Takes the token that starts with a character that others follow. -/
def dispatch (s : Scan) (x : Char) (rest : List Char) : Option Scan :=
  let separate := isGap rest
  if s.cursor.column == 0 && x == '%' then s.directive
  else if s.cursor.atMarker Cursor.startMarker then s.documentMarker .documentStart
  else if s.cursor.atMarker Cursor.endMarker then s.documentMarker .documentEnd
  else if x == '[' then s.openFlow .flowSequenceStart
  else if x == '\x7b' then s.openFlow .flowMappingStart
  else if x == ']' then s.closeFlow .flowSequenceEnd
  else if x == '\x7d' then s.closeFlow .flowMappingEnd
  else if x == ',' then s.flowEntry
  else if x == '-' && separate then s.blockEntry
  else if x == '?' && (s.inFlow || separate) then s.explicitKey
  else if x == ':' && (s.inFlow || separate) then s.value
  else if x == '*' then
    s.candidate fun c => (Property.readName c).map fun (name, c) => (.alias name, c)
  else if x == '&' then
    s.candidate fun c => (Property.readName c).map fun (name, c) => (.anchor name, c)
  else if x == '!' then
    s.candidate fun c => (Property.readTag s.inFlow c).map fun (tag, c) => (.tag tag, c)
  else if x == '|' && !s.inFlow then s.block .literal
  else if x == '>' && !s.inFlow then s.block .folded
  else if x == '\'' then s.quoted .single .singleQuoted
  else if x == '\x22' then s.quoted .double .doubleQuoted
  else if startsPlain s.inFlow x rest then s.plain
  else none

/-- Ends the text. -/
def finish (s : Scan) : Option (List Token) := do
  let s ← s.closeAll.dropCandidate
  pure s.tokens.reverse

/-- Takes the tokens that are left, in at most the given number of steps. -/
def run : Nat → Scan → Option (List Token)
  | 0, _ => none
  | n + 1, s => do
    let s ← (toNextToken s.cursor.rest s).dropStale
    let s := s.closeTo s.cursor.column
    match s.cursor.rest with
    | [] => s.finish
    | x :: rest =>
      let s ← s.dispatch x rest
      run n s

end Scan

/-- The tokens of a text. -/
def tokensOf (text : List Char) : Option (List Token) :=
  if text.all isAllowed then
    let text := unifyBreaks text
    Scan.run (text.length + 1) (Scan.start text)
  else none

end PayeeProposal.Yaml
