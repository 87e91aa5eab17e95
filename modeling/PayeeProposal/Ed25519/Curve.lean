import PayeeProposal.Bytes.LittleEndian

/-!
# The twisted Edwards curve over the field of `2 ^ 255 - 19` elements

Field elements are naturals below the prime, and a point is kept in extended homogeneous
coordinates, so that adding needs no division. A point is written as 32 bytes: its `y`, and the
parity of its `x` in the top bit.
-/

namespace PayeeProposal.Ed25519

/-- The number of field elements. -/
def prime : Nat :=
  Nat.pow 2 255 - 19

/-- The number of multiples of the base point. -/
def order : Nat :=
  Nat.pow 2 252 + 27742317777372353535851937790883648493

/-- The coefficient of the curve: the field's `-121665 / 121666`. -/
def coefficient : Nat :=
  37095705934669439343138083508754565189542113879843219016388785533085940283555

/-- The field product. -/
def mul (x y : Nat) : Nat :=
  x * y % prime

/-- The field sum. -/
def add (x y : Nat) : Nat :=
  (x + y) % prime

/-- The field difference of two field elements. -/
def sub (x y : Nat) : Nat :=
  (x + (prime - y)) % prime

/-- A field power whose exponent has at most the given number of bits. -/
def power : Nat → Nat → Nat → Nat
  | 0, _, _ => 1
  | bits + 1, x, n =>
    let r := power bits (mul x x) (n / 2)
    if n % 2 = 1 then mul x r else r

/-- The field inverse of a nonzero element. -/
def inverse (x : Nat) : Nat :=
  power 255 x (prime - 2)

/-- A point in extended coordinates: `x / z` and `y / z` are the affine ones, and `t * z` is
`x * y`. -/
structure Point where
  x : Nat
  y : Nat
  z : Nat
  t : Nat
deriving DecidableEq

namespace Point

/-- The neutral element. -/
def neutral : Point :=
  ⟨0, 1, 1, 0⟩

/-- The base point: the one with `y = 4 / 5` and an even `x`. -/
def base : Point :=
  let x := 15112221349535400772501151409588531511454012693041857206046113283949847762202
  let y := 46316835694926478169428394003475163141307993866256225615783033603165251855960
  ⟨x, y, 1, mul x y⟩

/-- The sum of two points; it is also right for doubling. -/
def add (p q : Point) : Point :=
  let a := mul (sub p.y p.x) (sub q.y q.x)
  let b := mul (Ed25519.add p.y p.x) (Ed25519.add q.y q.x)
  let c := mul (mul p.t (mul 2 coefficient)) q.t
  let d := mul (mul p.z 2) q.z
  let e := sub b a
  let f := sub d c
  let g := Ed25519.add d c
  let h := Ed25519.add b a
  ⟨mul e f, mul g h, mul f g, mul e h⟩

/-- The multiple of a point by a number of at most the given number of bits. -/
def scale : Nat → Nat → Point → Point
  | 0, _, _ => neutral
  | bits + 1, n, p =>
    let r := scale bits (n / 2) (add p p)
    if n % 2 = 1 then add p r else r

/-- The written form of a point. -/
def bytes (p : Point) : List UInt8 :=
  let i := inverse p.z
  Bytes.littleEndian 32 (mul p.y i + mul p.x i % 2 * Nat.pow 2 255)

@[simp] theorem length_bytes (p : Point) : p.bytes.length = 32 := by
  simp [bytes]

end Point

/-- Whether 32 bytes are the written form of a point: the `y` that they give has an `x` on the
curve, that is, `(y * y - 1) / (coefficient * y * y + 1)` is a square. -/
def isOnCurve (bs : List UInt8) : Bool :=
  let y := Bytes.ofLittleEndian bs % Nat.pow 2 255 % prime
  let u := sub (mul y y) 1
  let v := add (mul coefficient (mul y y)) 1
  power 255 (mul u v) ((prime - 1) / 2) ≠ prime - 1

end PayeeProposal.Ed25519
