import PayeeProposal.Address

/-!
# Accounts on the chain

What can be known of the chain at one moment: at each address an account, nothing, or a lookup
that does not give an answer.
-/

namespace PayeeProposal

/-- An account: the program that owns it, and its data. -/
structure Account where
  owner : Address
  data : List UInt8
deriving DecidableEq

/-- What comes of looking at an address. -/
inductive Lookup where
  /-- There is no account. -/
  | absent
  /-- There is an account. -/
  | found (account : Account)
  /-- The lookup fails, and says why. -/
  | failed (reason : String)
  /-- The lookup breaks off without an answer. -/
  | crashed
deriving DecidableEq

/-- What comes of looking at each address. -/
abbrev Chain : Type :=
  Address → Lookup

namespace Chain

/-- The chain with the given lookups, and no account elsewhere. -/
def ofList (entries : List (Address × Lookup)) : Chain :=
  fun a => (entries.lookup a).getD .absent

/-- The chain with another lookup at one address. -/
def set (chain : Chain) (a : Address) (l : Lookup) : Chain :=
  fun b => if b = a then l else chain b

@[simp] theorem set_same (chain : Chain) (a : Address) (l : Lookup) : chain.set a l a = l := by
  simp [set]

theorem set_other (chain : Chain) {a b : Address} (l : Lookup) (h : b ≠ a) :
    chain.set a l b = chain b := by
  simp [set, h]

end Chain

end PayeeProposal
