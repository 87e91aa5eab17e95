import PayeeProposal.ProposeError

/-!
# The wallet

The keypair that signs comes from the environment, or from the configuration if the environment
has nothing but blanks for it.
-/

namespace PayeeProposal.Wallet

/-- The keypair of a run; given are the texts in the environment and in the configuration. -/
def load (environment : Option String) (configured : String) : Except ProposeError Keypair :=
  match environment.bind Text.unlessBlank with
  | some s => (Keypair.parse s).mapError fun e => .configuration (.environmentKey e)
  | none =>
    match Text.unlessBlank configured with
    | some s => (Keypair.parse s).mapError fun e => .configuration (.configuredKey e)
    | none => .error (.configuration .missingKey)

end PayeeProposal.Wallet
