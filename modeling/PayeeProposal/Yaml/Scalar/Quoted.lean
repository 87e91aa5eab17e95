import PayeeProposal.Digits
import PayeeProposal.Yaml.Scalar.Folding

/-!
# Quoted scalars

Between single quotes only a quote is special, and is written twice. Between double quotes a
backslash starts an escape. Gaps are folded in both.
-/

namespace PayeeProposal.Yaml.Quoted

/-- The kinds of quotes. -/
inductive Quote where
  | single
  | double
deriving DecidableEq, Repr

/-- The character of a quote. -/
def Quote.char : Quote → Char
  | .single => '\''
  | .double => '\x22'

/-- What a letter stands for behind a backslash. -/
def plainEscape : Char → Option Char
  | '0' => some '\x00'
  | 'a' => some '\x07'
  | 'b' => some '\x08'
  | 't' | '\t' => some '\t'
  | 'n' => some '\n'
  | 'v' => some '\x0b'
  | 'f' => some '\x0c'
  | 'r' => some '\r'
  | 'e' => some '\x1b'
  | ' ' => some ' '
  | '\x22' => some '\x22'
  | '/' => some '/'
  | '\\' => some '\\'
  | 'N' => some '\x85'
  | '_' => some '\u00a0'
  | 'L' => some '\u2028'
  | 'P' => some '\u2029'
  | _ => none

/-- How many hexadecimal digits follow a letter behind a backslash. -/
def codeLength : Char → Option Nat
  | 'x' => some 2
  | 'u' => some 4
  | 'U' => some 8
  | _ => none

/-- The character of a number, if it has one. -/
def charOf? (n : Nat) : Option Char :=
  if n.isValidChar then some (Char.ofNat n) else none

/-- The character that a given number of hexadecimal digits name. -/
def codeEscape (length : Nat) (cs : List Char) : Option Char := do
  if cs.length < length then none
  else
    let n ← Digits.ofChars? 16 (cs.take length)
    charOf? n

/-- The character that an escape stands for, and how many characters follow the backslash; given
is the text behind the backslash. -/
def escape : List Char → Option (Char × Nat)
  | [] => none
  | c :: rest =>
    match codeLength c with
    | some length => (codeEscape length rest).map (·, length + 1)
    | none => (plainEscape c).map (·, 1)

/-- Reads the characters up to the next gap or the closing quote, in at most as many steps as the
budget has characters. Given back are also the start of the gap and the place behind what has been read: an
escaped line break belongs to the gap. -/
def word (quote : Quote) : List Char → Cursor → Option (List Char × Gap × Cursor)
  | [], c => some ([], Gap.inLine, c)
  | _ :: budget, c =>
    if isGap c.rest then some ([], Gap.inLine, c)
    else
      match quote, c.rest with
      | .single, '\'' :: '\'' :: _ => push '\'' (word quote budget (c.skip 2))
      | .single, '\'' :: _ => some ([], Gap.inLine, c)
      | .double, '\x22' :: _ => some ([], Gap.inLine, c)
      | .double, '\\' :: x :: rest =>
        if isBreak x then some ([], Gap.afterEscape, c.skip 2)
        else
          match escape (x :: rest) with
          | none => none
          | some (e, length) => push e (word quote budget (c.skip (length + 1)))
      | .double, ['\\'] => none
      | _, x :: _ => push x (word quote budget c.next)
      | _, [] => some ([], Gap.inLine, c)
where
  /-- Puts a character in front of what is read. -/
  push (x : Char) (r : Option (List Char × Gap × Cursor)) : Option (List Char × Gap × Cursor) :=
    r.map fun (w, gap, c) => (x :: w, gap, c)

/-- Reads on to the closing quote, in at most as many words as the budget has characters; `pieces`
is what has been read before, the last piece first. -/
def readOn (quote : Quote) :
    List Char → List (List Char) → Cursor → Option (List (List Char) × Cursor)
  | [], _, _ => none
  | _ :: budget, pieces, c =>
    if c.atDocumentEdge || c.rest.isEmpty then none
    else do
      let (w, gap, c) ← word quote c.rest c
      if c.sees quote.char then pure (w :: pieces, c.next)
      else
        let (gap, c) ← gap.read 0 c
        readOn quote budget (gap.text :: w :: pieces) c

/-- Reads the scalar whose opening quote stands at a place. -/
def read (quote : Quote) (c : Cursor) : Option (String × Cursor) := do
  let (pieces, c) ← readOn quote c.rest [] c.next
  pure (String.ofList pieces.reverse.flatten, c)

theorem escape_newline (rest : List Char) : escape ('n' :: rest) = some ('\n', 1) := rfl

end PayeeProposal.Yaml.Quoted
