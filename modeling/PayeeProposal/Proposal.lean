import PayeeProposal.Address
import PayeeProposal.Bytes.Fixed

/-!
# Proposal accounts

A proposal names the oracles of an aggregator in nineteen slots, of which the first `len` are
active; the transmitters of the active slots, in order, decide the order of payees. Its account
data has a fixed layout after an eight-byte discriminator.
-/

namespace PayeeProposal

/-- An oracle: the address it transmits from, its signing key, and its current payee. -/
structure Oracle where
  transmitter : Address
  signer : Bytes.Fixed 20
  payee : Address
deriving DecidableEq

/-- A proposal with all its slots. -/
structure Proposal where
  version : UInt8
  owner : Address
  state : UInt8
  f : UInt8
  tokenMint : Address
  oracles : List Oracle
  len : Nat
deriving DecidableEq

/-- Why account data are no proposal. -/
inductive ProposalError where
  | tooShort (actual : Nat)
  | discriminator
  | lenOutOfRange (len : Nat)
deriving DecidableEq, Repr

namespace Proposal

/-! ## Layout -/

/-- The number of oracle slots. -/
def maxOracles : Nat :=
  19

/-- The first bytes of every proposal account. -/
def discriminator : List UInt8 :=
  [26, 94, 189, 187, 116, 136, 53, 33]

/-- Where the version is. -/
def versionOffset : Nat := 8

/-- Where the owner is. -/
def ownerOffset : Nat := 9

/-- Where the state is. -/
def stateOffset : Nat := 41

/-- Where the number of faulty oracles that are tolerated is. -/
def fOffset : Nat := 42

/-- Where the mint of the reward token is, after five unused bytes. -/
def tokenMintOffset : Nat := 48

/-- Where the slots begin. -/
def oraclesOffset : Nat := 80

/-- The bytes of a slot: transmitter, signer, four unused bytes, payee. -/
def slotSize : Nat := 88

/-- Where the number of active slots is. -/
def lenOffset : Nat :=
  oraclesOffset + maxOracles * slotSize

/-- The fewest bytes that a proposal account has. -/
def minSize : Nat :=
  lenOffset + 8

end Proposal

/-- What is reported of account data that are no proposal. -/
def ProposalError.message : ProposalError → String
  | .tooShort actual =>
    "提案账户数据过短: " ++ toString actual ++ " 字节，至少需要 " ++ toString Proposal.minSize ++ " 字节"
  | .discriminator => "提案账户 discriminator 不匹配"
  | .lenOutOfRange len =>
    "提案 oracle 数量 " ++ toString len ++ " 超过上限 " ++ toString Proposal.maxOracles

namespace Proposal

/-! ## Reading -/

/-- The address at an offset. -/
def addressAt (offset : Nat) (data : List UInt8) : Address :=
  Address.ofLeading (data.drop offset)

/-- The byte at an offset. -/
def byteAt (offset : Nat) (data : List UInt8) : UInt8 :=
  data.getD offset 0

/-- The oracle in the slot at an offset. -/
def oracleAt (offset : Nat) (data : List UInt8) : Oracle where
  transmitter := addressAt offset data
  signer := Bytes.Fixed.ofLeading (data.drop (offset + 32))
  payee := addressAt (offset + 56) data

/-- The number of active slots that account data give. -/
def lenOf (data : List UInt8) : Nat :=
  Bytes.ofLittleEndian (Bytes.slice lenOffset 8 data)

/-- The proposal that account data hold. -/
def decode (data : List UInt8) : Except ProposalError Proposal :=
  if data.length < minSize then .error (.tooShort data.length)
  else if data.take 8 ≠ discriminator then .error .discriminator
  else if maxOracles < lenOf data then .error (.lenOutOfRange (lenOf data))
  else
    .ok
      { version := byteAt versionOffset data
        owner := addressAt ownerOffset data
        state := byteAt stateOffset data
        f := byteAt fOffset data
        tokenMint := addressAt tokenMintOffset data
        oracles := (List.range maxOracles).map fun i => oracleAt (oraclesOffset + i * slotSize) data
        len := lenOf data }

/-! ## Writing -/

/-- The bytes of a slot. -/
def encodeOracle (o : Oracle) : List UInt8 :=
  o.transmitter.bytes ++ o.signer.bytes ++ List.replicate 4 0 ++ o.payee.bytes

/-- The bytes of all slots: as many oracles as there are slots, and zeros in slots that are left. -/
def encodeSlots (os : List Oracle) : List UInt8 :=
  let slots := (os.take maxOracles).flatMap encodeOracle
  slots ++ List.replicate (maxOracles * slotSize - slots.length) 0

/-- The account data of a proposal, with zeros in the unused bytes. -/
def encode (p : Proposal) : List UInt8 :=
  discriminator ++ [p.version] ++ p.owner.bytes ++ [p.state, p.f] ++ List.replicate 5 0 ++
    p.tokenMint.bytes ++ encodeSlots p.oracles ++ Bytes.littleEndian 8 p.len

/-! ## Active slots -/

/-- The oracles of the active slots. -/
def activeOracles (p : Proposal) : List Oracle :=
  p.oracles.take p.len

/-- The transmitters of the active slots. -/
def transmitters (p : Proposal) : List Address :=
  p.activeOracles.map Oracle.transmitter

theorem lenOffset_eq : lenOffset = 1752 := rfl

theorem minSize_eq : minSize = 1760 := rfl

theorem length_encodeOracle (o : Oracle) : (encodeOracle o).length = slotSize := by
  simp [encodeOracle, o.transmitter.length_eq, o.signer.length_eq, o.payee.length_eq, slotSize]

theorem decode_tooShort_iff {data : List UInt8} {n : Nat} :
    decode data = .error (.tooShort n) ↔ data.length < minSize ∧ n = data.length := by
  unfold decode
  split
  · simp [*, eq_comm]
  · split
    · simp [*]
    · split <;> simp [*]

end Proposal

end PayeeProposal
