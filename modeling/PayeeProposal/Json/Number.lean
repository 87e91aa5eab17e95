import PayeeProposal.Json.Failure

/-!
# JSON numbers

A number that is wanted is read to its value as far as readers here need it: a whole number
without a sign that fits 64 bits, or some other number. A number too large for a double is
refused. A number that is only passed over has the same grammar and no limit, and where the text
ends inside it the two ways differ: wanted, it is truncated; passed over, it is malformed.
-/

namespace PayeeProposal.Json

/-- A number as far as it matters. -/
inductive Number where
  /-- A whole number without sign, point or exponent, below `2 ^ 64`. -/
  | whole (n : Nat)
  /-- Any other number. -/
  | other
deriving DecidableEq, Repr

/-- The value of a decimal digit. -/
def digitValue (c : Char) : Nat :=
  c.toNat - 48

/-- The digits at the front, and what follows them. -/
def spanDigits (s : List Char) : List Nat × List Char :=
  ((s.takeWhile Char.isDigit).map digitValue, s.dropWhile Char.isDigit)

/-- Appends digits to a significand while it stays below `2 ^ 64`, and counts those left over. -/
def absorb (significand : Nat) : List Nat → Nat × Nat
  | [] => (significand, 0)
  | d :: ds =>
    if Nat.pow 2 64 ≤ 10 * significand + d then (significand, ds.length + 1)
    else absorb (10 * significand + d) ds

/-- The nearest number with at most 53 significant bits; a tie goes to the even one. -/
def roundToDouble (n : Nat) : Nat :=
  let unit := Nat.pow 2 (Nat.log2 n - 52)
  let q := n / unit
  let r := n % unit
  if unit < 2 * r ∨ (unit = 2 * r ∧ q % 2 = 1) then (q + 1) * unit else q * unit

/-- Whether `significand * 10 ^ exponent`, both factors first rounded to doubles, is too large
for a double. -/
def overflows (significand : Nat) (exponent : Int) : Bool :=
  significand ≠ 0 && 0 ≤ exponent &&
    (308 < exponent ||
      Nat.pow 2 1024 - Nat.pow 2 970 ≤ roundToDouble significand * roundToDouble (Nat.pow 10 exponent.toNat))

/-- The number once its significand and exponent are known. -/
def finish (significand : Nat) (exponent : Int) : Except Failure Number :=
  if overflows significand exponent then .error .malformed else .ok .other

/-- Reads an exponent whose letter has been taken off. -/
def exponentPart (significand : Nat) (exponent : Int) (s : List Char) :
    Except Failure (Number × List Char) :=
  let (negative, s) :=
    match s with
    | '+' :: r => (false, r)
    | '-' :: r => (true, r)
    | _ => (false, s)
  match spanDigits s with
  | ([], []) => .error .truncated
  | ([], _ :: _) => .error .malformed
  | (ds, r) =>
    let n : Nat := ds.foldl (fun n d => 10 * n + d) 0
    (finish significand (if negative then exponent - n else exponent + n)).map (·, r)

/-- Reads a fraction whose point has been taken off. -/
def fractionPart (significand : Nat) (exponent : Int) (s : List Char) :
    Except Failure (Number × List Char) :=
  match spanDigits s with
  | ([], []) => .error .truncated
  | ([], _ :: _) => .error .malformed
  | (ds, r) =>
    let (significand, left) := absorb significand ds
    let exponent := exponent - (ds.length - left : Nat)
    match r with
    | 'e' :: r | 'E' :: r => exponentPart significand exponent r
    | _ => (finish significand exponent).map (·, r)

/-- Reads what follows the digits before the point. -/
def numberRest (negative : Bool) (ds : List Nat) (s : List Char) :
    Except Failure (Number × List Char) :=
  let (significand, left) := absorb 0 ds
  match s with
  | '.' :: r => fractionPart significand left r
  | 'e' :: r | 'E' :: r => exponentPart significand left r
  | _ =>
    if left = 0 then .ok (if negative then .other else .whole significand, s)
    else (finish significand left).map (·, s)

/-- Reads the digits of a number whose sign, if any, has been taken off. -/
def unsignedNumber (negative : Bool) (s : List Char) : Except Failure (Number × List Char) :=
  match s with
  | [] => .error .truncated
  | '0' :: r =>
    match r with
    | c :: _ => if c.isDigit then .error .malformed else numberRest negative [0] r
    | [] => numberRest negative [0] r
  | c :: _ =>
    if c.isDigit then
      let (ds, r) := spanDigits s
      numberRest negative ds r
    else .error .malformed

/-- Reads a number. -/
def number : Reader Number
  | '-' :: s => unsignedNumber true s
  | s => unsignedNumber false s

/-- Passes over an exponent whose letter has been taken off. -/
def skipExponent (s : List Char) : Except Failure (List Char) :=
  let s :=
    match s with
    | '+' :: r | '-' :: r => r
    | _ => s
  match spanDigits s with
  | ([], _) => .error .malformed
  | (_, r) => .ok r

/-- Passes over what follows the digits before the point. -/
def skipNumberRest (s : List Char) : Except Failure (List Char) :=
  match s with
  | '.' :: r =>
    match spanDigits r with
    | ([], _) => .error .malformed
    | (_, 'e' :: r) | (_, 'E' :: r) => skipExponent r
    | (_, r) => .ok r
  | 'e' :: r | 'E' :: r => skipExponent r
  | _ => .ok s

/-- Passes over a number whose sign, if any, has been taken off. -/
def skipUnsigned (s : List Char) : Except Failure (List Char) :=
  match s with
  | [] => .error .malformed
  | '0' :: r =>
    match r with
    | c :: _ => if c.isDigit then .error .malformed else skipNumberRest r
    | [] => .ok []
  | c :: _ => if c.isDigit then skipNumberRest (s.dropWhile Char.isDigit) else .error .malformed

end PayeeProposal.Json
