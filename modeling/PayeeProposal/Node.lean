import PayeeProposal.Chain
import PayeeProposal.Commitment
import PayeeProposal.Transaction

/-!
# Nodes

A node answers requests about the chain and passes transactions on. The accounts and the latest
block hash stay the same for the time of one run; a transaction may be asked about several times
before anything is known of it. Which requests reach a node is kept as a list of calls. At an
address where no node is, every request fails and leaves no trace.
-/

namespace PayeeProposal

/-- What becomes of a transaction after it has been passed on. -/
inductive Fate where
  /-- It is carried out. -/
  | landed
  /-- It is carried out and fails. -/
  | rejected
  /-- It is not found again before its block hash expires. -/
  | missing
deriving DecidableEq, Repr

/-- What a node answers. -/
structure Node where
  /-- The accounts. -/
  accounts : Chain
  /-- The text of the latest block hash, if the node gives one. -/
  blockhash : Option String
  /-- Whether the node refuses transactions. -/
  refusesTransactions : Bool
  /-- How often nothing is known of a transaction while its block hash is still valid. -/
  polls : Nat
  /-- What becomes of a transaction in the end. -/
  fate : Fate

/-- A request that reached a node. -/
inductive Call where
  | accountInfo (a : Address) (c : Commitment)
  | latestBlockhash (c : Commitment)
  | sendTransaction
  | signatureStatuses
  | blockhashValid
deriving DecidableEq

/-- The written form of a call. -/
def Call.text : Call → String
  | .accountInfo a c => "getAccountInfo " ++ a.text ++ " " ++ c.text
  | .latestBlockhash c => "getLatestBlockhash " ++ c.text
  | .sendTransaction => "sendTransaction"
  | .signatureStatuses => "getSignatureStatuses"
  | .blockhashValid => "isBlockhashValid processed"

/-- The nodes that can be reached, by their addresses. -/
structure Network where
  nodes : List (String × Node)

namespace Network

/-- The network without nodes. -/
def unreachable : Network :=
  ⟨[]⟩

/-- The node at an address. -/
def node? (n : Network) (url : String) : Option Node :=
  n.nodes.lookup url

end Network

/-- A connection to the node at an address, if there is one, with the commitment level that
requests ask for. -/
structure Connection where
  url : String
  commitment : Commitment
  node : Option Node

namespace Connection

/-- The accounts as seen through a connection. -/
def accounts (c : Connection) : Chain :=
  match c.node with
  | some node => node.accounts
  | none => fun _ => .failed "no node answers"

/-- The calls that reading the accounts at some addresses makes. -/
def accountCalls (c : Connection) (reads : List Address) : List Call :=
  match c.node with
  | some _ => reads.map fun a => .accountInfo a c.commitment
  | none => []

end Connection

end PayeeProposal
