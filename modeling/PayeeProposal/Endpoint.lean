import PayeeProposal.Config
import PayeeProposal.Node

/-!
# The endpoint

Where the node is that a run talks to, and the commitment level that it asks for.
-/

namespace PayeeProposal

/-- The address of a node and a commitment level. -/
structure Endpoint where
  url : String
  commitment : Commitment
deriving DecidableEq, Repr

namespace Endpoint

/-- The node that is asked when no other is named. -/
def defaultUrl : String :=
  "https://api.mainnet-beta.solana.com"

/-- The address of the node: from the environment unless blank there, from the configuration, or
the default. Blanks around it do not count. -/
def urlOf (global : GlobalConfig) (environment : Option String) : String :=
  Text.trim (((environment.bind Text.unlessBlank).or global.rpcUrl).getD defaultUrl)

/-- The endpoint of a run; of a commitment level that is none, what it was compared as. -/
def resolve (global : GlobalConfig) (environment : Option String) : Except String Endpoint := do
  let commitment ← Commitment.parse global.commitment
  pure ⟨urlOf global environment, commitment⟩

/-- The connection to the endpoint in a network. -/
def connect (e : Endpoint) (network : Network) : Connection :=
  ⟨e.url, e.commitment, network.node? e.url⟩

end Endpoint

end PayeeProposal
