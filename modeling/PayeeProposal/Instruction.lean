import PayeeProposal.Address

/-!
# Instructions

An instruction calls a program with some accounts and data. The one that proposes payees takes
the proposal, which it writes, and the authority, which signs; its data are a discriminator, the
mint of the reward token, and the payees behind their number. `readPayees` reads the data back.
-/

namespace PayeeProposal

/-- An account that an instruction is given. -/
structure AccountRef where
  address : Address
  isSigner : Bool
  isWritable : Bool
deriving DecidableEq

/-- A call of a program. -/
structure Instruction where
  program : Address
  accounts : List AccountRef
  data : List UInt8
deriving DecidableEq

namespace Instruction

/-- The first bytes of the data of an instruction that proposes payees. -/
def proposePayeesDiscriminator : List UInt8 :=
  [76, 228, 45, 220, 157, 7, 182, 228]

/-- The data of an instruction that proposes payees. -/
def proposePayeesData (mint : Address) (payees : List Address) : List UInt8 :=
  proposePayeesDiscriminator ++ mint.bytes ++ Bytes.littleEndian 4 payees.length ++
    payees.flatMap Address.bytes

/-- The instruction that proposes payees. -/
def proposePayees (program mint : Address) (payees : List Address) (proposal authority : Address) :
    Instruction where
  program := program
  accounts := [⟨proposal, false, true⟩, ⟨authority, true, false⟩]
  data := proposePayeesData mint payees

/-- Takes an address off the front. -/
def readAddress (bs : List UInt8) : Option (Address × List UInt8) :=
  (Address.ofBytes? (bs.take 32)).map (·, bs.drop 32)

/-- Takes a number of addresses off the front. -/
def readAddresses : Nat → List UInt8 → Option (List Address × List UInt8)
  | 0, bs => some ([], bs)
  | n + 1, bs => do
    let (a, bs) ← readAddress bs
    let (as, bs) ← readAddresses n bs
    pure (a :: as, bs)

/-- The mint and the payees that the data of an instruction hold, when nothing is left over. -/
def readPayees (data : List UInt8) : Option (Address × List Address) :=
  if data.take 8 = proposePayeesDiscriminator then do
    let (mint, bs) ← readAddress (data.drop 8)
    if 4 ≤ bs.length then
      let (payees, rest) ← readAddresses (Bytes.ofLittleEndian (bs.take 4)) (bs.drop 4)
      if rest = [] then pure (mint, payees) else none
    else none
  else none

theorem readAddress_append (a : Address) (bs : List UInt8) :
    readAddress (a.bytes ++ bs) = some (a, bs) := by
  have htake : (a.bytes ++ bs).take 32 = a.bytes := by
    rw [← a.length_eq, List.take_left]
  have hdrop : (a.bytes ++ bs).drop 32 = bs := by
    rw [← a.length_eq, List.drop_left]
  simp [readAddress, htake, hdrop]

theorem readAddresses_append (as : List Address) (bs : List UInt8) :
    readAddresses as.length (as.flatMap Address.bytes ++ bs) = some (as, bs) := by
  induction as with
  | nil => rfl
  | cons a as ih =>
    simp [readAddresses, List.flatMap_cons, List.append_assoc, readAddress_append, ih]

theorem length_flatMap_bytes (as : List Address) :
    (as.flatMap Address.bytes).length = 32 * as.length := by
  induction as with
  | nil => rfl
  | cons a as ih =>
    simp only [List.flatMap_cons, List.length_append, a.length_eq, ih, List.length_cons]
    omega

theorem length_proposePayeesData (mint : Address) (payees : List Address) :
    (proposePayeesData mint payees).length = 44 + 32 * payees.length := by
  simp only [proposePayeesData, List.length_append, mint.length_eq, Bytes.length_littleEndian,
    length_flatMap_bytes, proposePayeesDiscriminator, List.length_cons, List.length_nil]

end Instruction

end PayeeProposal
