import PayeeProposal.Address
import PayeeProposal.Ed25519.Curve
import PayeeProposal.Hash.Sha256
import PayeeProposal.Text.Utf8

/-!
# Associated token addresses

The address at which a wallet's tokens of one mint are kept: a hash of the wallet, the token
program, the mint and a bump, under the program that derives such addresses. The bump is the
largest below 256 for which the hash is no point of the curve, so that no key belongs to the
address. A cache remembers derivations.
-/

namespace PayeeProposal

/-- Whose tokens, of which mint, and under which token program. -/
structure TokenHolding where
  wallet : Address
  mint : Address
  tokenProgram : Address
deriving DecidableEq

namespace TokenHolding

/-- The text at the end of what is hashed. -/
def marker : List UInt8 :=
  Text.utf8 "ProgramDerivedAddress"

/-- The hash for a bump. -/
def candidate (t : TokenHolding) (bump : Nat) : Address :=
  ⟨Hash.sha256 (t.wallet.bytes ++ t.tokenProgram.bytes ++ t.mint.bytes ++ [UInt8.ofNat bump] ++
    Address.associatedTokenProgram.bytes ++ marker), Hash.length_sha256 _⟩

/-- Whether the hash for a bump may be an address. -/
def isSuitable (t : TokenHolding) (bump : Nat) : Bool :=
  !Ed25519.isOnCurve (t.candidate bump).bytes

/-- The largest suitable bump from the given number down to one. -/
def bumpFrom (t : TokenHolding) : Nat → Option Nat
  | 0 => none
  | bump + 1 => if t.isSuitable (bump + 1) then some (bump + 1) else t.bumpFrom bump

/-- The associated token address. -/
def address? (t : TokenHolding) : Option Address :=
  (t.bumpFrom 255).map t.candidate

end TokenHolding

/-- Derivations that have been made, newest first. -/
structure AddressCache where
  entries : List (TokenHolding × Option Address)

namespace AddressCache

/-- No derivation has been made. -/
def empty : AddressCache :=
  ⟨[]⟩

/-- The associated token address, derived only if it is not in the cache, and the cache with
it. -/
def lookup (cache : AddressCache) (t : TokenHolding) : Option Address × AddressCache :=
  match cache.entries.lookup t with
  | some a => (a, cache)
  | none => (t.address?, ⟨(t, t.address?) :: cache.entries⟩)

/-- The addresses for some holdings one after another, and the cache after them. -/
def lookupAll (cache : AddressCache) : List TokenHolding → List (Option Address) × AddressCache
  | [] => ([], cache)
  | t :: ts =>
    let (a, cache) := cache.lookup t
    let (as, cache) := lookupAll cache ts
    (a :: as, cache)

end AddressCache

end PayeeProposal
