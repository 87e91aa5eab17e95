import PayeeProposal.Json.Number
import PayeeProposal.Json.Text

/-!
# Passing over a JSON value

The values of unknown members are checked against the grammar and dropped. The lists and objects
that are still open are kept on a stack, so there is no limit to how deep values nest.
-/

namespace PayeeProposal.Json

/-- An open list or object. -/
inductive Frame where
  | list
  | object
deriving DecidableEq

/-- The bracket that closes a frame. -/
def Frame.close : Frame → Char
  | .list => ']'
  | .object => '\x7d'

/-- Passes over the name of a member and its colon. -/
def skipName (s : List Char) : Except Failure (List Char) :=
  match skipSpace s with
  | [] => .error .truncated
  | '\x22' :: r => do
    let r ← skipText r
    match skipSpace r with
    | [] => .error .truncated
    | ':' :: r => .ok r
    | _ => .error .malformed
  | _ => .error .malformed

/-- What comes before the next value of a frame: the name, in an object. -/
def Frame.enter : Frame → List Char → Except Failure (List Char)
  | .list, s => .ok s
  | .object, s => skipName s

/-- Passes over a value that is no list and no object. -/
def skipScalar (s : List Char) : Except Failure (List Char) :=
  match s with
  | [] => .error .truncated
  | 'n' :: r => keyword ['u', 'l', 'l'] r
  | 't' :: r => keyword ['r', 'u', 'e'] r
  | 'f' :: r => keyword ['a', 'l', 's', 'e'] r
  | '-' :: r => skipUnsigned r
  | '\x22' :: r => skipText r
  | c :: _ => if c.isDigit then skipUnsigned s else .error .malformed

/-- Where the walk over a value stands. -/
inductive Stage where
  /-- A value comes next. -/
  | value
  /-- A list or object has just been opened. -/
  | opened
  /-- A value has just ended. -/
  | ended
deriving DecidableEq

/-- Walks on until no frame is open, in at most the given number of steps. -/
def walk : Nat → Stage → List Frame → List Char → Except Failure (List Char)
  | 0, _, _, _ => .error .truncated
  | n + 1, .value, frames, s =>
    match skipSpace s with
    | '[' :: r => walk n .opened (.list :: frames) r
    | '\x7b' :: r => walk n .opened (.object :: frames) r
    | r =>
      match skipScalar r with
      | .error e => .error e
      | .ok r => walk n .ended frames r
  | _ + 1, .opened, [], s | _ + 1, .ended, [], s => .ok s
  | n + 1, .opened, frame :: frames, s =>
    match skipSpace s with
    | [] => .error .truncated
    | c :: r =>
      if c = frame.close then walk n .ended frames r
      else
        match frame.enter (c :: r) with
        | .error e => .error e
        | .ok r => walk n .value (frame :: frames) r
  | n + 1, .ended, frame :: frames, s =>
    match skipSpace s with
    | [] => .error .truncated
    | c :: r =>
      if c = frame.close then walk n .ended frames r
      else if c = ',' then
        match frame.enter r with
        | .error e => .error e
        | .ok r => walk n .value (frame :: frames) r
      else .error .malformed

/-- Passes over one value. Every step but the last and the first after an opening bracket takes
a character, so twice the length of the text is enough. -/
def skipValue (s : List Char) : Except Failure (List Char) :=
  walk (2 * s.length + 2) .value [] s

end PayeeProposal.Json
