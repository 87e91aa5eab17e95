import PayeeProposal.Yaml.Scalar.Folding

/-!
# Plain scalars

A plain scalar is written without quotes. It goes on over gaps, in a block as long as its lines
are indented, and ends before a comment, before a colon that ends a key, and before a mark of the
flow collection that it stands in.
-/

namespace PayeeProposal.Yaml.Plain

/-- The marks of flow collections. -/
def isFlowMark (c : Char) : Bool :=
  c == ',' || c == '[' || c == ']' || c == '\x7b' || c == '\x7d'

/-- Whether a colon in a flow collection may not stand before the rest of a text. -/
def refusesColon : List Char → Bool
  | [] => false
  | c :: _ => isFlowMark c || c == '?'

/-- Whether a scalar ends before the next character, which is no gap. -/
def endsBefore (inFlow : Bool) : List Char → Bool
  | [] => true
  | c :: rest => (c == ':' && isGap rest) || (inFlow && isFlowMark c)

/-- The characters up to the next gap or the end of the scalar. -/
def word (inFlow : Bool) : List Char → Option (List Char)
  | [] => some []
  | c :: rest =>
    if isGap (c :: rest) then some []
    else if inFlow && c == ':' && refusesColon rest then none
    else if endsBefore inFlow (c :: rest) then some []
    else (word inFlow rest).map (c :: ·)

/-- A scalar in the making: the pieces of its text, the last one first, the gap behind them, and
the place behind the gap. -/
structure Progress where
  pieces : List (List Char)
  gap : Gap
  cursor : Cursor

/-- The pieces with one more word behind a gap. -/
def extend (p : Progress) (w : List Char) : List (List Char) :=
  if w.isEmpty then p.pieces else w :: p.gap.text :: p.pieces

/-- Reads on word by word, in at most as many words as the budget has characters. -/
def readOn (inFlow : Bool) (indent : Nat) : List Char → Progress → Option Progress
  | [], p => some p
  | _ :: budget, p =>
    if p.cursor.atDocumentEdge || p.cursor.sees '#' then some p
    else do
      let w ← word inFlow p.cursor.rest
      let pieces := extend p w
      let behind := p.cursor.skip w.length
      let before := if w.isEmpty then p.gap else Gap.inLine
      match behind.rest with
      | [] => some ⟨pieces, before, behind⟩
      | c :: _ =>
        if isBlank c || isBreak c then
          let (gap, cursor) ← before.read indent behind
          if !inFlow && cursor.column < indent then some ⟨pieces, gap, cursor⟩
          else readOn inFlow indent budget ⟨pieces, gap, cursor⟩
        else some ⟨pieces, before, behind⟩

/-- Reads the scalar that starts at a place. Given back are its text, whether a line break came
behind it, and the place where the reading stopped. -/
def read (inFlow : Bool) (indent : Nat) (c : Cursor) : Option (String × Bool × Cursor) := do
  let p ← readOn inFlow indent c.rest ⟨[], Gap.inLine, c⟩
  pure (String.ofList p.pieces.reverse.flatten, p.gap.broken, p.cursor)

end PayeeProposal.Yaml.Plain
