import PayeeProposal.Base58
import PayeeProposal.Text.Blank

/-!
# Addresses

An address is 32 bytes, written in base 58. A text of more than 44 bytes cannot be one and is
refused for its size before its characters are looked at.
-/

namespace PayeeProposal

/-- The address of an account or program. -/
structure Address where
  bytes : List UInt8
  length_eq : bytes.length = 32
deriving DecidableEq

/-- Why a text is no address. -/
inductive AddressError where
  | wrongSize
  | invalidCharacter
deriving DecidableEq, Repr

/-- What is reported of a text that is no address. -/
def AddressError.message : AddressError → String
  | .wrongSize => "String is the wrong size"
  | .invalidCharacter => "Invalid Base58 string"

namespace Address

/-- The address with the given bytes, if there are 32. -/
def ofBytes? (bs : List UInt8) : Option Address :=
  if h : bs.length = 32 then some ⟨bs, h⟩ else none

/-- The address made of the first 32 bytes, missing ones being zero. -/
def ofLeading (bs : List UInt8) : Address :=
  ⟨(bs ++ List.replicate 32 0).take 32, by simp⟩

/-- The text of an address. -/
def text (a : Address) : String :=
  Base58.encode a.bytes

/-- The longest text that an address has, in bytes. -/
def maxTextSize : Nat :=
  44

/-- The address that a text denotes, with nothing around it. -/
def parse (s : String) : Except AddressError Address :=
  if maxTextSize < s.utf8ByteSize then .error .wrongSize
  else
    match Base58.decode s with
    | .error _ => .error .invalidCharacter
    | .ok bs =>
      match ofBytes? bs with
      | none => .error .wrongSize
      | some a => .ok a

/-- The address that a text denotes when the blanks around it are ignored. -/
def parseTrimmed (s : String) : Except AddressError Address :=
  parse (Text.trim s)

/-- The place of an address in the order of addresses: their bytes read as a number. -/
def rank (a : Address) : Nat :=
  Bytes.ofBigEndian a.bytes

/-- The program that owns plain accounts: 32 ones as text. -/
def systemProgram : Address :=
  ⟨List.replicate 32 0, rfl⟩

/-- The program that owns token accounts, `TokenkegQfeZyiNwAJbNbGKPFXCWuBvf9Ss623VQ5DA`. -/
def tokenProgram : Address :=
  ⟨[0x06, 0xdd, 0xf6, 0xe1, 0xd7, 0x65, 0xa1, 0x93, 0xd9, 0xcb, 0xe1, 0x46, 0xce, 0xeb, 0x79, 0xac,
    0x1c, 0xb4, 0x85, 0xed, 0x5f, 0x5b, 0x37, 0x91, 0x3a, 0x8c, 0xf5, 0x85, 0x7e, 0xff, 0x00, 0xa9],
    rfl⟩

/-- The program under which a wallet's token accounts are derived,
`ATokenGPvbdGVxr1b2hvZbsiqW5xWH25efTNsLJA8knL`. -/
def associatedTokenProgram : Address :=
  ⟨[0x8c, 0x97, 0x25, 0x8f, 0x4e, 0x24, 0x89, 0xf1, 0xbb, 0x3d, 0x10, 0x29, 0x14, 0x8e, 0x0d, 0x83,
    0x0b, 0x5a, 0x13, 0x99, 0xda, 0xff, 0x10, 0x84, 0x04, 0x8e, 0x7b, 0xd8, 0xdb, 0xe9, 0xf8, 0x59],
    rfl⟩

theorem ext_bytes {a b : Address} (h : a.bytes = b.bytes) : a = b := by
  cases a
  cases b
  simpa using h

@[simp] theorem ofBytes?_bytes (a : Address) : ofBytes? a.bytes = some a := by
  simp [ofBytes?, a.length_eq]

theorem bytes_of_ofBytes? {bs : List UInt8} {a : Address} (h : ofBytes? bs = some a) :
    a.bytes = bs := by
  unfold ofBytes? at h
  split at h
  · simp only [Option.some.injEq] at h
    rw [← h]
  · simp at h

theorem ofLeading_append (a : Address) (bs : List UInt8) : ofLeading (a.bytes ++ bs) = a := by
  apply ext_bytes
  simp [ofLeading, a.length_eq]

theorem rank_inj {a b : Address} (h : a.rank = b.rank) : a = b := by
  apply ext_bytes
  have ha := Bytes.littleEndian_ofLittleEndian a.bytes.reverse
  have hb := Bytes.littleEndian_ofLittleEndian b.bytes.reverse
  simp only [List.length_reverse, a.length_eq, b.length_eq] at ha hb
  simp only [rank, Bytes.ofBigEndian] at h
  rw [h, hb] at ha
  exact (List.reverse_inj.mp ha).symm

end Address

end PayeeProposal
