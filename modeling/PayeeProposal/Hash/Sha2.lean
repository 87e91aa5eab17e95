import PayeeProposal.Bytes.LittleEndian

/-!
# The SHA-2 construction

A message is padded to whole blocks, each block is spread into a schedule of words, and one round
for each word of the schedule mixes it into eight working words. A `Variant` fixes the width of a
word and the constants; `length_digest` gives the width of the result.
-/

namespace PayeeProposal.Hash

/-- Eight working words of `w` bits. -/
structure Words (w : Nat) where
  a : BitVec w
  b : BitVec w
  c : BitVec w
  d : BitVec w
  e : BitVec w
  f : BitVec w
  g : BitVec w
  h : BitVec w
deriving DecidableEq

/-- What tells one member of the family from another, for words of `w` bits. -/
structure Variant (w : Nat) where
  /-- One constant for each round. -/
  roundConstants : List (BitVec w)
  /-- The working words before the first block. -/
  initial : Words w
  /-- Three rotations of the working word `a`. -/
  sumA : Nat × Nat × Nat
  /-- Three rotations of the working word `e`. -/
  sumE : Nat × Nat × Nat
  /-- Two rotations and a shift of the schedule's word fifteen back. -/
  spreadFar : Nat × Nat × Nat
  /-- Two rotations and a shift of the schedule's word two back. -/
  spreadNear : Nat × Nat × Nat

variable {w : Nat}

/-- The sum, bit by bit, of three rotations of a word. -/
def rotations (n : Nat × Nat × Nat) (x : BitVec w) : BitVec w :=
  x.rotateRight n.1 ^^^ x.rotateRight n.2.1 ^^^ x.rotateRight n.2.2

/-- The sum, bit by bit, of two rotations and a shift of a word. -/
def spread (n : Nat × Nat × Nat) (x : BitVec w) : BitVec w :=
  x.rotateRight n.1 ^^^ x.rotateRight n.2.1 ^^^ (x >>> n.2.2)

namespace Variant

/-- Extends a schedule, newest word first, by a number of further words. -/
def extend (v : Variant w) : Nat → List (BitVec w) → List (BitVec w)
  | 0, ws => ws
  | n + 1, ws =>
    let next := ws.getD 15 0 + spread v.spreadFar (ws.getD 14 0) + ws.getD 6 0 +
      spread v.spreadNear (ws.getD 1 0)
    extend v n (next :: ws)

/-- One round with a round constant and a word of the schedule. -/
def round (v : Variant w) (s : Words w) (k x : BitVec w) : Words w :=
  let choice := (s.e &&& s.f) ^^^ (~~~s.e &&& s.g)
  let majority := (s.a &&& s.b) ^^^ (s.a &&& s.c) ^^^ (s.b &&& s.c)
  let t := s.h + rotations v.sumE s.e + choice + k + x
  ⟨t + (rotations v.sumA s.a + majority), s.a, s.b, s.c, s.d + t, s.e, s.f, s.g⟩

/-- A number of big-endian words from the front of the bytes. -/
def wordsOf (w : Nat) : Nat → List UInt8 → List (BitVec w)
  | 0, _ => []
  | n + 1, bs => BitVec.ofNat w (Bytes.ofBigEndian (bs.take (w / 8))) :: wordsOf w n (bs.drop (w / 8))

/-- Mixes one block into the working words. -/
def compress (v : Variant w) (s : Words w) (block : List UInt8) : Words w :=
  let schedule := (v.extend (v.roundConstants.length - 16) (wordsOf w 16 block).reverse).reverse
  let t := (v.roundConstants.zip schedule).foldl (fun s kx => v.round s kx.1 kx.2) s
  ⟨s.a + t.a, s.b + t.b, s.c + t.c, s.d + t.d, s.e + t.e, s.f + t.f, s.g + t.g, s.h + t.h⟩

/-- The bytes of a block: sixteen words. -/
def blockSize (w : Nat) : Nat :=
  2 * w

/-- The message, a one bit, zeros, and the length of the message in bits as two big-endian words;
the zeros are the fewest that fill the last block. -/
def pad (w : Nat) (message : List UInt8) : List UInt8 :=
  let size := blockSize w
  let zeros := (2 * size - 1 - w / 4 - message.length % size) % size
  message ++ 0x80 :: List.replicate zeros 0 ++
    (Bytes.littleEndian (w / 4) (8 * message.length)).reverse

/-- Mixes a number of blocks from the front of the bytes. -/
def compressBlocks (v : Variant w) : Nat → Words w → List UInt8 → Words w
  | 0, s, _ => s
  | n + 1, s, bs =>
    compressBlocks v n (v.compress s (bs.take (blockSize w))) (bs.drop (blockSize w))

end Variant

/-- The big-endian bytes of a word. -/
def wordBytes (x : BitVec w) : List UInt8 :=
  (Bytes.littleEndian (w / 8) x.toNat).reverse

/-- The bytes of the eight words. -/
def Words.bytes (s : Words w) : List UInt8 :=
  wordBytes s.a ++ wordBytes s.b ++ wordBytes s.c ++ wordBytes s.d ++
    wordBytes s.e ++ wordBytes s.f ++ wordBytes s.g ++ wordBytes s.h

/-- The hash of a message. -/
def Variant.digest (v : Variant w) (message : List UInt8) : List UInt8 :=
  let padded := Variant.pad w message
  (v.compressBlocks (padded.length / Variant.blockSize w) v.initial padded).bytes

theorem Words.length_bytes (s : Words w) : s.bytes.length = 8 * (w / 8) := by
  simp only [Words.bytes, wordBytes, List.length_append, List.length_reverse,
    Bytes.length_littleEndian]
  omega

theorem Variant.length_digest (v : Variant w) (message : List UInt8) :
    (v.digest message).length = 8 * (w / 8) :=
  Words.length_bytes _

end PayeeProposal.Hash
