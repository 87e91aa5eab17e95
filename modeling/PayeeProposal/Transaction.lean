import PayeeProposal.Instruction
import PayeeProposal.Keypair

/-!
# Transactions

A message holds a table of the keys that its instructions use, and its instructions refer to keys
by their place in the table. The fee payer comes first; the other keys follow in four groups,
signers before the rest and writable keys before read-only ones, and in the order of addresses
within a group. A transaction is a message behind the signatures that it requires. `read` takes
the written form apart again, and `Message.instructions?` undoes the references.
-/

namespace PayeeProposal

/-- A hash of a recent block. -/
abbrev Blockhash : Type :=
  Bytes.Fixed 32

/-- The block hash that a text denotes. -/
def Blockhash.parse? (s : String) : Option Blockhash :=
  if Address.maxTextSize < s.utf8ByteSize then none
  else
    match Base58.decode s with
    | .ok bs => Bytes.Fixed.ofBytes? bs
    | .error _ => none

/-- An instruction whose program and accounts are places in the table of keys. -/
structure CompiledInstruction where
  program : Nat
  accounts : List Nat
  data : List UInt8
deriving DecidableEq

/-- How many keys of the table sign, and how many of the signers and of the others are
read-only. -/
structure MessageHeader where
  signers : Nat
  readonlySigners : Nat
  readonlyOthers : Nat
deriving DecidableEq

/-- What is signed. -/
structure Message where
  header : MessageHeader
  keys : List Address
  blockhash : Blockhash
  instructions : List CompiledInstruction
deriving DecidableEq

/-- A message and its signatures. -/
structure Transaction where
  signatures : List (Bytes.Fixed 64)
  message : Message
deriving DecidableEq

namespace Message

/-! ## The table of keys -/

/-- Notes that a key is used, in a list in the order of addresses; what one use needs is added to
what others need. -/
def note (key : AccountRef) : List AccountRef → List AccountRef
  | [] => [key]
  | k :: ks =>
    if key.address = k.address then
      ⟨k.address, k.isSigner || key.isSigner, k.isWritable || key.isWritable⟩ :: ks
    else if key.address.rank < k.address.rank then key :: k :: ks
    else k :: note key ks

/-- The uses that an instruction makes of keys. -/
def usesOf (i : Instruction) : List AccountRef :=
  ⟨i.program, false, false⟩ :: i.accounts

/-- The keys that instructions use besides the payer, in the order of addresses. -/
def otherKeys (payer : Address) (instructions : List Instruction) : List AccountRef :=
  ((instructions.flatMap usesOf).foldl (fun ks key => note key ks) []).filter
    fun k => k.address ≠ payer

/-- The addresses of the keys that sign or not, and are writable or not. -/
def group (isSigner isWritable : Bool) (keys : List AccountRef) : List Address :=
  (keys.filter fun k => k.isSigner == isSigner && k.isWritable == isWritable).map
    AccountRef.address

/-- The instruction with places in the table of keys for addresses. -/
def compileInstruction (keys : List Address) (i : Instruction) : CompiledInstruction where
  program := keys.idxOf i.program
  accounts := i.accounts.map fun k => keys.idxOf k.address
  data := i.data

/-- The message of some instructions. -/
def compile (payer : Address) (instructions : List Instruction) (blockhash : Blockhash) :
    Message :=
  let others := otherKeys payer instructions
  let readonlySigners := group true false others
  let readonlyOthers := group false false others
  let signers := payer :: group true true others ++ readonlySigners
  let keys := signers ++ group false true others ++ readonlyOthers
  { header := ⟨signers.length, readonlySigners.length, readonlyOthers.length⟩
    keys := keys
    blockhash := blockhash
    instructions := instructions.map (compileInstruction keys) }

/-- Whether the key at a place signs. -/
def isSignerAt (m : Message) (i : Nat) : Bool :=
  i < m.header.signers

/-- Whether the key at a place is writable. -/
def isWritableAt (m : Message) (i : Nat) : Bool :=
  if i < m.header.signers then i + m.header.readonlySigners < m.header.signers
  else i + m.header.readonlyOthers < m.keys.length

/-- The instruction that a compiled one stands for. -/
def instruction? (m : Message) (c : CompiledInstruction) : Option Instruction := do
  let program ← m.keys[c.program]?
  let accounts ← c.accounts.mapM fun i =>
    (m.keys[i]?).map fun a => ⟨a, m.isSignerAt i, m.isWritableAt i⟩
  pure ⟨program, accounts, c.data⟩

/-- The instructions of a message, with the rights that its table gives to keys. -/
def instructions? (m : Message) : Option (List Instruction) :=
  m.instructions.mapM m.instruction?

/-! ## Writing -/

/-- A number below `2 ^ 16` in one to three bytes of seven bits, lowest first, where the top bit
says that another byte follows. -/
def compact (n : Nat) : List UInt8 :=
  if n < 0x80 then [UInt8.ofNat n]
  else if n < 0x4000 then [UInt8.ofNat (n % 0x80 + 0x80), UInt8.ofNat (n / 0x80)]
  else [UInt8.ofNat (n % 0x80 + 0x80), UInt8.ofNat (n / 0x80 % 0x80 + 0x80),
    UInt8.ofNat (n / 0x4000)]

/-- The bytes of a compiled instruction. -/
def encodeInstruction (c : CompiledInstruction) : List UInt8 :=
  UInt8.ofNat c.program :: compact c.accounts.length ++ c.accounts.map UInt8.ofNat ++
    compact c.data.length ++ c.data

/-- The bytes of a message. -/
def encode (m : Message) : List UInt8 :=
  [UInt8.ofNat m.header.signers, UInt8.ofNat m.header.readonlySigners,
    UInt8.ofNat m.header.readonlyOthers] ++
    compact m.keys.length ++ m.keys.flatMap Address.bytes ++ m.blockhash.bytes ++
    compact m.instructions.length ++ m.instructions.flatMap encodeInstruction

/-! ## Reading -/

/-- Takes a number off the front. -/
def readCompact : List UInt8 → Option (Nat × List UInt8)
  | a :: bs =>
    if a < 0x80 then some (a.toNat, bs)
    else
      match bs with
      | b :: bs =>
        if b < 0x80 then some (a.toNat - 0x80 + 0x80 * b.toNat, bs)
        else
          match bs with
          | c :: bs => some (a.toNat - 0x80 + 0x80 * (b.toNat - 0x80) + 0x4000 * c.toNat, bs)
          | [] => none
      | [] => none
  | [] => none

/-- Takes a number of bytes off the front. -/
def readBytes (n : Nat) (bs : List UInt8) : Option (List UInt8 × List UInt8) :=
  if n ≤ bs.length then some (bs.take n, bs.drop n) else none

/-- Takes a compiled instruction off the front. -/
def readInstruction : List UInt8 → Option (CompiledInstruction × List UInt8)
  | [] => none
  | program :: bs => do
    let (count, bs) ← readCompact bs
    let (accounts, bs) ← readBytes count bs
    let (size, bs) ← readCompact bs
    let (data, bs) ← readBytes size bs
    pure (⟨program.toNat, accounts.map UInt8.toNat, data⟩, bs)

/-- Takes a number of compiled instructions off the front. -/
def readInstructions : Nat → List UInt8 → Option (List CompiledInstruction × List UInt8)
  | 0, bs => some ([], bs)
  | n + 1, bs => do
    let (c, bs) ← readInstruction bs
    let (cs, bs) ← readInstructions n bs
    pure (c :: cs, bs)

/-- Takes a message off the front. -/
def read : List UInt8 → Option (Message × List UInt8)
  | signers :: readonlySigners :: readonlyOthers :: bs => do
    let (count, bs) ← readCompact bs
    let (keys, bs) ← Instruction.readAddresses count bs
    let (hash, bs) ← readBytes 32 bs
    let blockhash ← Bytes.Fixed.ofBytes? hash
    let (count, bs) ← readCompact bs
    let (instructions, bs) ← readInstructions count bs
    let header := ⟨signers.toNat, readonlySigners.toNat, readonlyOthers.toNat⟩
    pure (⟨header, keys, blockhash, instructions⟩, bs)
  | _ => none

end Message

namespace Transaction

/-- The message signed by its fee payer, unless it requires other signatures too. -/
def sign? (payer : Keypair) (message : Message) : Option Transaction :=
  if message.header.signers = 1 then some ⟨[payer.sign message.encode], message⟩ else none

/-- The bytes of a transaction. -/
def encode (t : Transaction) : List UInt8 :=
  Message.compact t.signatures.length ++ t.signatures.flatMap Bytes.Fixed.bytes ++
    t.message.encode

/-- Takes a number of signatures off the front. -/
def readSignatures : Nat → List UInt8 → Option (List (Bytes.Fixed 64) × List UInt8)
  | 0, bs => some ([], bs)
  | n + 1, bs => do
    let (s, bs) ← Message.readBytes 64 bs
    let s ← Bytes.Fixed.ofBytes? s
    let (ss, bs) ← readSignatures n bs
    pure (s :: ss, bs)

/-- The transaction that some bytes are. -/
def read? (bs : List UInt8) : Option Transaction := do
  let (count, bs) ← Message.readCompact bs
  let (signatures, bs) ← readSignatures count bs
  let (message, bs) ← Message.read bs
  if bs = [] then pure ⟨signatures, message⟩ else none

end Transaction

end PayeeProposal
