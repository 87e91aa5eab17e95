import PayeeProposal.Arguments
import PayeeProposal.Config
import PayeeProposal.ProposeError

/-!
# Parameters of a proposal

The addresses that a run works with, out of its arguments, its environment and its configuration,
and the list of payees that it proposes.
-/

namespace PayeeProposal

/-- The aggregator, the proposal, the token of the rewards, and the program. -/
structure Parameters where
  state : String
  proposal : Address
  tokenMint : Address
  programId : Address
deriving DecidableEq

namespace Parameters

/-- A text that has to be there, without the blanks around it. -/
def required (s : Option String) (fault : SettingsFault) : Except ProposeError String :=
  match s.bind Text.unlessBlank with
  | some s => .ok (Text.trim s)
  | none => .error (.configuration fault)

/-- The text of the mint: the first that is there of the argument, the environment and the
configuration; it may not be blank. -/
def mintText (argument environment configured : Option String) : Except ProposeError String :=
  match ((argument.or environment).or configured).bind Text.unlessBlank with
  | some s => .ok s
  | none => .error (.configuration .missingMint)

/-- The parameters of a run. -/
def resolve (arguments : ProposeArguments) (program : ProgramConfig) (link : Option String) :
    Except ProposeError Parameters := do
  let state ← required arguments.state .missingState
  let proposal ← required arguments.proposal .missingProposal
  let mint ← mintText arguments.link link program.linkMint
  let proposal ← Address.require proposal
  let tokenMint ← Address.require mint
  let programId ← Address.require program.programId
  pure ⟨state, proposal, tokenMint, programId⟩

end Parameters

namespace PayeeInput

/-- The JSON text that an argument gives: the argument itself if it starts with a brace, and else
what the file of that name holds. -/
def textOf (files : Files) (argument : String) : Except ProposeError String :=
  let trimmed := Text.trim argument
  if trimmed.toList.head? = some '\x7b' then .ok trimmed
  else (files.readText trimmed).mapError fun e => .configuration (.unreadableInput trimmed e)

/-- The list of payees that an argument gives. -/
def ofArgument (files : Files) (argument : String) : Except ProposeError PayeeInput := do
  let s ← textOf files argument
  (ofJson s).mapError fun e => .configuration (.unparsableInput e)

/-- The list of payees for an aggregator that follows from the deployment description at a path. -/
def ofDescription (files : Files) (state : String) (path : Option String) :
    Except ProposeError PayeeInput :=
  match path with
  | none => .error (.configuration .missingInput)
  | some path => do
    let deployment ← (Deployment.load files path).mapError .resolution
    (deployment.payeeInput state).mapError .resolution

/-- The list of payees of a run: from the argument for it, or else from a deployment
description. The flag may allow payees without a token account. -/
def load (files : Files) (arguments : ProposeArguments) (configured : Option String)
    (state : String) : Except ProposeError PayeeInput := do
  let input ←
    match arguments.input with
    | some argument => ofArgument files argument
    | none => ofDescription files state (arguments.description.or configured)
  pure { input with allowUnfunded := input.allowUnfunded || arguments.allowUnfunded }

end PayeeInput

end PayeeProposal
