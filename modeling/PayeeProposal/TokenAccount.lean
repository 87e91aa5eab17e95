import PayeeProposal.Address
import PayeeProposal.Bytes.Fixed

/-!
# Token accounts

The account data of a token account have a fixed size and layout; the three optional fields carry
a tag, and the state says whether the account is in use.
-/

namespace PayeeProposal

/-- Why account data are no token account. -/
inductive TokenAccountError where
  | invalid
  | uninitialized
deriving DecidableEq, Repr

/-- What is reported of account data that are no token account. -/
def TokenAccountError.message : TokenAccountError → String
  | .invalid => "An account's data contents was invalid"
  | .uninitialized => "An attempt to operate on an account that hasn't been initialized"

namespace TokenAccount

/-- The size of the data of a token account. -/
def size : Nat :=
  165

/-- Where the state is. -/
def stateOffset : Nat :=
  108

/-- Where the tags of the optional fields are: the delegate, the reserve of a wrapped native
token, and the authority that may close the account. -/
def tagOffsets : List Nat :=
  [72, 109, 129]

/-- Whether a tag says that its field is there or is not there. -/
def isTag (tag : List UInt8) : Bool :=
  tag == [0, 0, 0, 0] || tag == [1, 0, 0, 0]

/-- The mint of the token account that account data hold. -/
def mint (data : List UInt8) : Except TokenAccountError Address :=
  if data.length ≠ size then .error .invalid
  else if !tagOffsets.all fun offset => isTag (Bytes.slice offset 4 data) then .error .invalid
  else
    let state := data.getD stateOffset 0
    if 2 < state then .error .invalid
    else if state = 0 then .error .uninitialized
    else .ok (Address.ofLeading data)

end TokenAccount

end PayeeProposal
