import PayeeProposal.Json.Skip
import PayeeProposal.Table

/-!
# Typed reading of JSON

Readers for strings, truth values, small numbers, lists, tables and records. A record may be
written as an object, whose unknown members are passed over, or as a list of its fields in order;
in both forms a field that is missing at the end is for the record to judge.
-/

namespace PayeeProposal.Json

/-- The failure at a value that is not of the wanted form: a scalar is read first, and its own
failure comes before the mismatch. -/
def mismatch (s : List Char) : Failure :=
  let after {α : Type} : Except Failure α → Failure
    | .error e => e
    | .ok _ => .mistyped
  match s with
  | [] => .truncated
  | 'n' :: r => after (keyword ['u', 'l', 'l'] r)
  | 't' :: r => after (keyword ['r', 'u', 'e'] r)
  | 'f' :: r => after (keyword ['a', 'l', 's', 'e'] r)
  | '\x22' :: r => after (text r)
  | '[' :: _ | '\x7b' :: _ => .mistyped
  | '-' :: _ => after (number s)
  | c :: _ => if c.isDigit then after (number s) else .malformed

/-- Reads a string. -/
def Reader.string : Reader String := fun s =>
  match skipSpace s with
  | '\x22' :: r => text r
  | r => .error (mismatch r)

/-- Reads a truth value. -/
def Reader.boolean : Reader Bool := fun s =>
  match skipSpace s with
  | 't' :: r => (keyword ['r', 'u', 'e'] r).map (true, ·)
  | 'f' :: r => (keyword ['a', 'l', 's', 'e'] r).map (false, ·)
  | r => .error (mismatch r)

/-- Reads a whole number below 256. -/
def Reader.byte : Reader UInt8 := fun s =>
  let r := skipSpace s
  let numeric :=
    match r with
    | c :: _ => c == '-' || c.isDigit
    | [] => false
  if numeric then
    match number r with
    | .error e => .error e
    | .ok (.whole n, r) => if n < 256 then .ok (UInt8.ofNat n, r) else .error .mistyped
    | .ok (.other, _) => .error .mistyped
  else .error (mismatch r)

/-- Whether a list goes on with another element or has been closed, and the text from there on:
nothing comes before the first element, and a comma before any other. -/
def nextElement (first : Bool) (s : List Char) : Except Failure (Bool × List Char) :=
  match skipSpace s with
  | [] => .error .truncated
  | ']' :: r => .ok (false, r)
  | ',' :: r =>
    if first then .ok (true, ',' :: r)
    else
      match skipSpace r with
      | [] => .error .truncated
      | ']' :: _ => .error .malformed
      | r => .ok (true, r)
  | r => if first then .ok (true, r) else .error .malformed

/-- The elements of a list whose opening bracket has been taken off, in at most as many steps as
the budget has characters. -/
def elements {α : Type} (element : Reader α) : List Char → Bool → Reader (List α)
  | [], _, _ => .error .truncated
  | _ :: budget, first, s => do
    match ← nextElement first s with
    | (false, r) => pure ([], r)
    | (true, r) =>
      let (a, r) ← element r
      let (as, r) ← elements element budget false r
      pure (a :: as, r)

/-- Reads a list. -/
def Reader.list {α : Type} (element : Reader α) : Reader (List α) := fun s =>
  match skipSpace s with
  | '[' :: r => elements element ('[' :: r) true r
  | r => .error (mismatch r)

/-- The name of the next member of an object, or `none` when the object has been closed. -/
def nextName (first : Bool) (s : List Char) : Except Failure (Option String × List Char) :=
  match skipSpace s with
  | [] => .error .truncated
  | '\x7d' :: r => .ok (none, r)
  | ',' :: r =>
    if first then .error .malformed
    else
      match skipSpace r with
      | [] => .error .truncated
      | '\x22' :: r => (text r).map fun (name, r) => (some name, r)
      | _ => .error .malformed
  | '\x22' :: r =>
    if first then (text r).map fun (name, r) => (some name, r) else .error .malformed
  | _ => .error .malformed

/-- Takes the colon after a name off. -/
def colon (s : List Char) : Except Failure (List Char) :=
  match skipSpace s with
  | [] => .error .truncated
  | ':' :: r => .ok r
  | _ => .error .malformed

/-- What a name means to an object that has been read in part. -/
inductive Member (σ : Type) where
  /-- The value is passed over. -/
  | unknown
  /-- The member has been there before. -/
  | repeated
  /-- The value is read into what has been read so far. -/
  | known (value : Reader σ)

/-- The members of an object whose opening brace has been taken off, in at most as many steps as
the budget has characters. -/
def members {σ : Type} (member : String → σ → Member σ) : List Char → Bool → σ → Reader σ
  | [], _, _, _ => .error .truncated
  | _ :: budget, first, sofar, s => do
    match ← nextName first s with
    | (none, r) => pure (sofar, r)
    | (some name, r) =>
      match member name sofar with
      | .repeated => .error .mistyped
      | .unknown =>
        let r ← colon r
        let r ← skipValue r
        members member budget false sofar r
      | .known value =>
        let r ← colon r
        let (sofar, r) ← value r
        members member budget false sofar r

/-- Reads an object as a table; of a repeated key the last value stays. -/
def Reader.table {α : Type} (value : Reader α) : Reader (List (String × α)) := fun s =>
  match skipSpace s with
  | '\x7b' :: r =>
    let member (key : String) (table : List (String × α)) : Member (List (String × α)) :=
      .known fun s => (value s).map fun (a, r) => (Table.rebind key a table, r)
    members member ('\x7b' :: r) true [] r
  | r => .error (mismatch r)

/-- Takes the closing bracket of a list off. -/
def closeList (s : List Char) : Except Failure (List Char) :=
  match skipSpace s with
  | [] => .error .truncated
  | ']' :: r => .ok r
  | _ => .error .malformed

/-- The fields of a record written as a list, whose opening bracket has been taken off. -/
def positions {σ : Type} : List (σ → Reader σ) → Bool → σ → Reader σ
  | [], _, sofar, s => (closeList s).map (sofar, ·)
  | field :: fields, first, sofar, s => do
    match ← nextElement first s with
    | (false, r) => pure (sofar, r)
    | (true, r) =>
      let (sofar, r) ← field sofar r
      positions fields false sofar r

/-- How a record of type `α` is read into a partial record of type `σ`. -/
structure RecordForm (σ α : Type) where
  /-- Nothing has been read. -/
  empty : σ
  /-- What a member's name means. -/
  member : String → σ → Member σ
  /-- The fields in the order of the list form. -/
  fields : List (σ → Reader σ)
  /-- The record, unless a mandatory field is missing. -/
  complete : σ → Option α

/-- Reads a record. -/
def Reader.record {σ α : Type} (form : RecordForm σ α) : Reader α := fun s => do
  let (partly, r) ←
    match skipSpace s with
    | '\x7b' :: r => members form.member ('\x7b' :: r) true form.empty r
    | '[' :: r => positions form.fields true form.empty r
    | r => .error (mismatch r)
  match form.complete partly with
  | some a => pure (a, r)
  | none => .error .mistyped

/-- The value of a whole text. -/
def parse {α : Type} (reader : Reader α) (s : String) : Except Failure α := do
  let (a, r) ← reader s.toList
  match skipSpace r with
  | [] => pure a
  | _ => .error .malformed

end PayeeProposal.Json
