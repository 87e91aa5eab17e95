import PayeeProposal.Bytes.LittleEndian
import PayeeProposal.Digits

/-!
# Base 58 text

Bytes as text over 58 letters and digits: a leading zero byte is a leading `1`, and what follows
is the big-endian number that the bytes denote, in base 58. Reading back names the first
character outside the alphabet.
-/

namespace PayeeProposal.Base58

/-- The digits of base 58: no `0`, `O`, `I` or `l`. -/
def alphabet : List Char :=
  ['1', '2', '3', '4', '5', '6', '7', '8', '9',
   'A', 'B', 'C', 'D', 'E', 'F', 'G', 'H', 'J', 'K', 'L', 'M', 'N', 'P', 'Q', 'R', 'S', 'T', 'U',
   'V', 'W', 'X', 'Y', 'Z',
   'a', 'b', 'c', 'd', 'e', 'f', 'g', 'h', 'i', 'j', 'k', 'm', 'n', 'o', 'p', 'q', 'r', 's', 't',
   'u', 'v', 'w', 'x', 'y', 'z']

/-- The character of a digit below 58. -/
def charOf (d : Nat) : Char :=
  alphabet.getD d '1'

/-- The digit that a character stands for. -/
def digit? (c : Char) : Option Nat :=
  alphabet.idxOf? c

/-- Why a text is no base 58 text; the index is that of the first offending byte. -/
inductive DecodeError where
  | invalidCharacter (c : Char) (index : Nat)
  | nonAscii (index : Nat)
deriving DecidableEq, Repr

/-- A character between quotation marks, with what cannot be printed written as an escape. -/
def quoted (c : Char) : String :=
  let inner :=
    if c == '\x00' then "\\0"
    else if c == '\t' then "\\t"
    else if c == '\r' then "\\r"
    else if c == '\n' then "\\n"
    else if c == '\x27' then "\\\x27"
    else if c == '\\' then "\\\\"
    else if c.toNat < 0x20 || c.toNat == 0x7f then
      "\\u\x7b" ++ String.ofList (Nat.toDigits 16 c.toNat) ++ "\x7d"
    else String.singleton c
  "\x27" ++ inner ++ "\x27"

/-- What is reported of a text that cannot be read. -/
def DecodeError.message : DecodeError → String
  | .invalidCharacter c index =>
    "provided string contained invalid character " ++ quoted c ++ " at byte " ++ toString index
  | .nonAscii index =>
    "provided string contained non-ascii character starting at byte " ++ toString index

/-- The text of some bytes. -/
def encode (bs : List UInt8) : String :=
  let zeros := (bs.takeWhile (· == 0)).length
  let ds := Digits.digits 58 (2 * bs.length) (Bytes.ofBigEndian bs)
  String.ofList (List.replicate zeros '1' ++ (ds.map charOf).reverse)

/-- The digits of a text whose first character is at `index`. -/
def digitsOf : Nat → List Char → Except DecodeError (List Nat)
  | _, [] => .ok []
  | index, c :: cs =>
    if 0x7f < c.toNat then .error (.nonAscii index)
    else
      match digit? c with
      | none => .error (.invalidCharacter c index)
      | some d => (digitsOf (index + 1) cs).map (d :: ·)

/-- The bytes that a list of digits stands for, most significant digit first. -/
def bytesOf (ds : List Nat) : List UInt8 :=
  let ones := (ds.takeWhile (· == 0)).length
  let bs := Digits.digits 256 ds.length (Digits.value 58 ds.reverse)
  List.replicate ones 0 ++ (bs.map UInt8.ofNat).reverse

/-- The bytes that a text stands for. -/
def decode (s : String) : Except DecodeError (List UInt8) :=
  (digitsOf 0 s.toList).map bytesOf

theorem length_alphabet : alphabet.length = 58 := rfl

theorem nodup_alphabet : alphabet.Nodup := by decide

theorem digit?_charOf : ∀ d : Fin 58, digit? (charOf d) = some d.val := by decide

theorem charOf_ascii : ∀ d : Fin 58, (charOf d).toNat ≤ 0x7f := by decide

end PayeeProposal.Base58
