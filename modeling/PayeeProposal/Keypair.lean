import PayeeProposal.Address
import PayeeProposal.Bytes.Fixed
import PayeeProposal.Cause
import PayeeProposal.Ed25519.Signature
import PayeeProposal.Json.Reader
import PayeeProposal.Text.Split

/-!
# Keypairs

A keypair is a seed and the public key that belongs to it, 64 bytes in all. It may be written as
a JSON list of bytes, as decimal numbers between commas, or in base 58; the first character and
the commas of a text tell which.
-/

namespace PayeeProposal

/-- A seed and its public key. -/
structure Keypair where
  seed : Bytes.Fixed 32
  address : Address
  address_eq : address.bytes = Ed25519.publicKey seed.bytes
deriving DecidableEq

/-- Why a part of a text is no byte. -/
inductive ByteError where
  | invalidDigit
  | tooLarge
deriving DecidableEq, Repr

/-- What is reported of a part that is no byte. -/
def ByteError.message : ByteError → String
  | .invalidDigit => "invalid digit found in string"
  | .tooLarge => "number too large to fit in target type"

/-- Why a text is no keypair. -/
inductive KeypairError where
  | empty
  | json (failure : Json.Failure)
  | number (error : ByteError)
  | base58 (error : Base58.DecodeError)
  /-- The bytes are not 64, or the public key does not belong to the seed. -/
  | signature
deriving DecidableEq, Repr

/-- What is reported of a text that is no keypair. -/
def KeypairError.message (wording : Wording) : KeypairError → String
  | .empty => "keypair string empty"
  | .json failure => wording (.json failure)
  | .number error => error.message
  | .base58 error => error.message
  | .signature => "signature error"

namespace Keypair

/-- The keypair of a seed. -/
def ofSeed (seed : Bytes.Fixed 32) : Keypair :=
  ⟨seed, ⟨Ed25519.publicKey seed.bytes, Ed25519.length_publicKey _⟩, rfl⟩

/-- The 64 bytes of a keypair. -/
def bytes (k : Keypair) : List UInt8 :=
  k.seed.bytes ++ k.address.bytes

/-- The keypair with the given bytes. -/
def ofBytes (bs : List UInt8) : Except KeypairError Keypair :=
  if bs.length = 64 ∧ bs.drop 32 = Ed25519.publicKey (bs.take 32) then
    .ok (ofSeed (Bytes.Fixed.ofLeading bs))
  else .error .signature

/-- The signature of a message. -/
def sign (k : Keypair) (message : List UInt8) : Bytes.Fixed 64 :=
  ⟨Ed25519.sign k.seed.bytes message, Ed25519.length_sign _ _⟩

/-- Appends decimal digits to a number below 256. -/
def byteFrom : Nat → List Char → Except ByteError UInt8
  | n, [] => .ok (UInt8.ofNat n)
  | n, c :: cs =>
    if !c.isDigit then .error .invalidDigit
    else if 256 ≤ 10 * n + (c.toNat - 48) then .error .tooLarge
    else byteFrom (10 * n + (c.toNat - 48)) cs

/-- The byte that a decimal number, perhaps behind a plus sign, stands for. -/
def byteOf : List Char → Except ByteError UInt8
  | [] | ['+'] => .error .invalidDigit
  | '+' :: cs => byteFrom 0 cs
  | cs => byteFrom 0 cs

/-- The bytes between commas; blanks around a part and empty parts do not count. -/
def commaBytes (cs : List Char) : Except ByteError (List UInt8) :=
  let parts := (Text.splitAt ',' cs).map fun part => Text.trimRight (Text.trimLeft part)
  (parts.filter fun part => !part.isEmpty).mapM byteOf

/-- The bytes that a text without blanks at its ends denotes. -/
def bytesOf (s : String) : Except KeypairError (List UInt8) :=
  match s.toList with
  | [] => .error .empty
  | '[' :: _ => (Json.parse (Json.Reader.list Json.Reader.byte) s).mapError .json
  | cs =>
    if cs.contains ',' then (commaBytes cs).mapError .number
    else (Base58.decode s).mapError .base58

/-- The keypair that a text denotes. -/
def parse (s : String) : Except KeypairError Keypair := do
  let bs ← bytesOf (Text.trim s)
  ofBytes bs

end Keypair

end PayeeProposal
