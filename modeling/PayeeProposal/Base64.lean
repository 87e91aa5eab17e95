/-!
# Base 64 text

Bytes three at a time as four characters of six bits each, the last group padded with `=`.
-/

namespace PayeeProposal.Base64

/-- The character of a six-bit value. -/
def charOf (v : Nat) : Char :=
  if v < 26 then Char.ofNat (v + 65)
  else if v < 52 then Char.ofNat (v - 26 + 97)
  else if v < 62 then Char.ofNat (v - 52 + 48)
  else if v = 62 then '+'
  else '/'

/-- The six-bit value of a character. -/
def value? (c : Char) : Option Nat :=
  if 'A' ≤ c ∧ c ≤ 'Z' then some (c.toNat - 65)
  else if 'a' ≤ c ∧ c ≤ 'z' then some (c.toNat - 97 + 26)
  else if '0' ≤ c ∧ c ≤ '9' then some (c.toNat - 48 + 52)
  else if c = '+' then some 62
  else if c = '/' then some 63
  else none

/-- The characters of some bytes. -/
def encodeChars : List UInt8 → List Char
  | [] => []
  | [a] =>
    let n := a.toNat * 16
    [charOf (n / 64), charOf (n % 64), '=', '=']
  | [a, b] =>
    let n := (a.toNat * 256 + b.toNat) * 4
    [charOf (n / 4096), charOf (n / 64 % 64), charOf (n % 64), '=']
  | a :: b :: c :: rest =>
    let n := (a.toNat * 256 + b.toNat) * 256 + c.toNat
    charOf (n / 262144) :: charOf (n / 4096 % 64) :: charOf (n / 64 % 64) :: charOf (n % 64) ::
      encodeChars rest

/-- The text of some bytes. -/
def encode (bs : List UInt8) : String :=
  String.ofList (encodeChars bs)

/-- The bytes that characters stand for: groups of four, padding only in the last group, and no
bit set in what the padding leaves over. -/
def decodeChars : List Char → Option (List UInt8)
  | [] => some []
  | [x, y, '=', '='] => do
    let n := (← value? x) * 64 + (← value? y)
    if n % 16 = 0 then some [UInt8.ofNat (n / 16)] else none
  | [x, y, z, '='] => do
    let n := ((← value? x) * 64 + (← value? y)) * 64 + (← value? z)
    if n % 4 = 0 then some [UInt8.ofNat (n / 1024), UInt8.ofNat (n / 4)] else none
  | x :: y :: z :: w :: rest => do
    let n := (((← value? x) * 64 + (← value? y)) * 64 + (← value? z)) * 64 + (← value? w)
    let bs ← decodeChars rest
    some (UInt8.ofNat (n / 65536) :: UInt8.ofNat (n / 256) :: UInt8.ofNat n :: bs)
  | _ => none

/-- The bytes that a text stands for. -/
def decode? (s : String) : Option (List UInt8) :=
  decodeChars s.toList

theorem value?_charOf : ∀ v : Fin 64, value? (charOf v) = some v.val := by decide

theorem charOf_ne_pad : ∀ v : Fin 64, charOf v ≠ '=' := by decide

end PayeeProposal.Base64
