/-!
# Little-endian words

Numbers of a fixed width in bytes, least significant byte first, as account data and
instruction data hold them. Reading back what was written gives the number when it fits the
width, and writing back what was read gives the bytes.
-/

namespace PayeeProposal.Bytes

/-- The number in `width` bytes, least significant first; what does not fit is dropped. -/
def littleEndian : Nat → Nat → List UInt8
  | 0, _ => []
  | width + 1, n => UInt8.ofNat n :: littleEndian width (n / 256)

/-- The number that the bytes denote, least significant first. -/
def ofLittleEndian : List UInt8 → Nat
  | [] => 0
  | b :: bs => b.toNat + 256 * ofLittleEndian bs

/-- The number that the bytes denote, most significant first. -/
def ofBigEndian (bs : List UInt8) : Nat :=
  ofLittleEndian bs.reverse

@[simp] theorem length_littleEndian (width n : Nat) : (littleEndian width n).length = width := by
  induction width generalizing n with
  | zero => rfl
  | succ width ih => simp [littleEndian, ih]

theorem ofLittleEndian_lt (bs : List UInt8) : ofLittleEndian bs < Nat.pow 256 bs.length := by
  induction bs with
  | nil => simp [ofLittleEndian]
  | cons b bs ih =>
    have hb : b.toNat < 256 := b.toNat_lt
    show b.toNat + 256 * ofLittleEndian bs < Nat.pow 256 bs.length * 256
    omega

theorem ofLittleEndian_littleEndian {width n : Nat} (h : n < Nat.pow 256 width) :
    ofLittleEndian (littleEndian width n) = n := by
  induction width generalizing n with
  | zero => simp [Nat.pow] at h; simp [h, littleEndian, ofLittleEndian]
  | succ width ih =>
    have hlt : n / 256 < Nat.pow 256 width := by
      apply Nat.div_lt_of_lt_mul
      have hw : n < Nat.pow 256 width * 256 := h
      rwa [Nat.mul_comm] at hw
    simp only [littleEndian, ofLittleEndian, ih hlt, UInt8.toNat_ofNat']
    omega

theorem littleEndian_ofLittleEndian (bs : List UInt8) :
    littleEndian bs.length (ofLittleEndian bs) = bs := by
  induction bs with
  | nil => rfl
  | cons b bs ih =>
    have hb : b.toNat < 256 := b.toNat_lt
    have hdiv : (b.toNat + 256 * ofLittleEndian bs) / 256 = ofLittleEndian bs := by omega
    simp only [List.length_cons, littleEndian, ofLittleEndian, hdiv, ih, List.cons.injEq, and_true]
    apply UInt8.toNat_inj.mp
    simp only [UInt8.toNat_ofNat']
    omega

end PayeeProposal.Bytes
