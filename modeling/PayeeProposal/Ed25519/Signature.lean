import PayeeProposal.Ed25519.Curve
import PayeeProposal.Hash.Sha512

/-!
# Ed25519 signatures

A seed of 32 bytes gives a secret multiplier and a seed for nonces; the public key is the
multiple of the base point. A signature is a point of 32 bytes and a number of 32 bytes: the
multiple of the base point by a nonce, and the nonce plus the multiplier times a hash of the point,
the public key and the message, below the order of the base point. There is one signature of a
message by a seed.
-/

namespace PayeeProposal.Ed25519

/-- The secret multiplier of a seed: the first half of its hash, with the three lowest bits and
the top bit cleared and the bit below the top set. -/
def multiplier (seed : List UInt8) : Nat :=
  let n := Bytes.ofLittleEndian ((Hash.sha512 seed).take 32)
  n % Nat.pow 2 254 / 8 * 8 + Nat.pow 2 254

/-- What the nonces of a seed are derived from: the second half of its hash. -/
def nonceSeed (seed : List UInt8) : List UInt8 :=
  (Hash.sha512 seed).drop 32

/-- The public key of a seed. -/
def publicKey (seed : List UInt8) : List UInt8 :=
  (Point.base.scale 255 (multiplier seed)).bytes

/-- A hash as a multiplier of the base point. -/
def scalarOf (bs : List UInt8) : Nat :=
  Bytes.ofLittleEndian (Hash.sha512 bs) % order

/-- The signature of a message by a seed. -/
def sign (seed message : List UInt8) : List UInt8 :=
  let r := scalarOf (nonceSeed seed ++ message)
  let point := (Point.base.scale 255 r).bytes
  let k := scalarOf (point ++ publicKey seed ++ message)
  point ++ Bytes.littleEndian 32 ((r + k * multiplier seed) % order)

/-- Of the hashed seed, the multiplier keeps the bits from the third up to the 254th, where it has a
one; below and above it has none. -/
theorem testBit_multiplier (seed : List UInt8) (i : Nat) :
    (multiplier seed).testBit i =
      if i < 3 then false
      else if i < 254 then
        (Bytes.ofLittleEndian ((Hash.sha512 seed).take 32)).testBit i
      else i = 254 := by
  let n := Bytes.ofLittleEndian ((Hash.sha512 seed).take 32)
  have hkept : n % 2 ^ 254 / 2 ^ 3 * 2 ^ 3 < 2 ^ 254 :=
    Nat.lt_of_le_of_lt (Nat.div_mul_le_self _ _) (Nat.mod_lt _ (by decide))
  show (n % 2 ^ 254 / 2 ^ 3 * 2 ^ 3 + 2 ^ 254).testBit i = _
  rw [Nat.add_comm]
  rcases Nat.lt_trichotomy i 254 with hi | rfl | hi
  · rw [Nat.testBit_two_pow_add_gt hi, Nat.testBit_mul_two_pow, Nat.testBit_div_two_pow,
      Nat.testBit_mod_two_pow]
    by_cases hlow : i < 3
    · simp [hlow, Nat.not_le.mpr hlow]
    · have hle : 3 ≤ i := Nat.le_of_not_lt hlow
      simp [hlow, hle, hi, n]
  · rw [Nat.testBit_two_pow_add_eq, Nat.testBit_lt_two_pow hkept]
    rfl
  · rw [Nat.testBit_lt_two_pow]
    · rw [if_neg (by omega), if_neg (by omega), decide_eq_false (by omega)]
    · calc 2 ^ 254 + n % 2 ^ 254 / 2 ^ 3 * 2 ^ 3 < 2 ^ 254 + 2 ^ 254 := Nat.add_lt_add_left hkept _
        _ = 2 ^ 255 := by decide
        _ ≤ 2 ^ i := Nat.pow_le_pow_right (by decide) hi

@[simp] theorem length_publicKey (seed : List UInt8) : (publicKey seed).length = 32 := by
  simp [publicKey]

@[simp] theorem length_sign (seed message : List UInt8) : (sign seed message).length = 64 := by
  simp [sign]

/-- Bytes are the signature of a message by a seed. -/
structure IsSignature (seed message bs : List UInt8) : Prop where
  length : bs.length = 64
  point : bs.take 32 = (Point.base.scale 255 (scalarOf (nonceSeed seed ++ message))).bytes
  number : Bytes.ofLittleEndian (bs.drop 32) =
    (scalarOf (nonceSeed seed ++ message) +
      scalarOf (bs.take 32 ++ publicKey seed ++ message) * multiplier seed) % order

/-- A message has one signature by a seed. -/
theorem isSignature_iff {seed message bs : List UInt8} :
    IsSignature seed message bs ↔ bs = sign seed message := by
  constructor
  · intro h
    have hlength : (bs.drop 32).length = 32 := by rw [List.length_drop, h.length]
    have hdrop := (Bytes.littleEndian_ofLittleEndian (bs.drop 32)).symm
    rw [hlength] at hdrop
    calc bs = bs.take 32 ++ bs.drop 32 := (List.take_append_drop 32 bs).symm
      _ = sign seed message := by rw [hdrop, h.number, h.point, sign]
  · rintro rfl
    have htake : (sign seed message).take 32 =
        (Point.base.scale 255 (scalarOf (nonceSeed seed ++ message))).bytes :=
      List.take_left' (Point.length_bytes _)
    refine ⟨length_sign seed message, htake, ?_⟩
    rw [htake, sign, List.drop_left' (Point.length_bytes _)]
    refine Bytes.ofLittleEndian_littleEndian (Nat.lt_trans (Nat.mod_lt _ ?_) ?_)
    · decide
    · decide

end PayeeProposal.Ed25519
