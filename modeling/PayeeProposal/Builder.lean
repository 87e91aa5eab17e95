import PayeeProposal.Eligibility
import PayeeProposal.ProposeError
import PayeeProposal.Table

/-!
# Building the instruction

The assignments are parsed, the payees checked, the proposal read, and the payees put into the
order of the proposal's active transmitters. The first stage that fails decides the outcome, and
what has been read from the chain up to there is part of it.
-/

namespace PayeeProposal

/-- What is to be proposed: which payees, in which proposal, for rewards in which token. -/
structure Request where
  input : PayeeInput
  proposal : Address
  tokenMint : Address
deriving DecidableEq

/-- How instructions are written for a program; given are the mint, the payees, the proposal and
the authority. -/
structure Encoder where
  program : Address
  encode : Address → List Address → Address → Address → Except String Instruction

namespace Encoder

/-- The instruction format of the program at an address; payees whose number does not fit into four
bytes are refused. -/
def forProgram (program : Address) : Encoder where
  program := program
  encode mint payees proposal authority :=
    if payees.length < 0x100000000 then
      .ok (Instruction.proposePayees program mint payees proposal authority)
    else .error "invalid data"

/-- An encoder for the program at an address that writes nothing. -/
def refusing (program : Address) (reason : String) : Encoder where
  program := program
  encode _ _ _ _ := .error reason

end Encoder

/-- Payees by transmitter. -/
abbrev PayeeTable : Type :=
  List (Address × Address)

namespace PayeeTable

/-- An assignment as two addresses; the transmitter is looked at first. -/
def parse (a : Assignment) : Except ProposeError (Address × Address) := do
  let transmitter ← Address.require a.transmitter
  let payee ← Address.require a.payee
  pure (transmitter, payee)

/-- Enters assignments into a table, one after another. A transmitter that comes again takes the
place of the one before; `again` has the texts of such transmitters, each once. -/
def enter (table : PayeeTable) (again : List String) :
    List Assignment → Except ProposeError (PayeeTable × List String)
  | [] => .ok (table, again)
  | a :: as => do
    let (transmitter, payee) ← parse a
    let again :=
      if (table.lookup transmitter).isSome && !again.contains transmitter.text then
        again ++ [transmitter.text]
      else again
    enter (Table.rebind transmitter payee table) again as

/-- The table of an input, if all addresses are valid and no transmitter is there twice. -/
def ofInput (input : PayeeInput) : Except ProposeError PayeeTable := do
  let (table, again) ← enter [] [] input.operators
  if again.isEmpty then pure table
  else .error (.validation .duplicateTransmitters again)

/-- The payees of some transmitters, in the order of the transmitters. -/
def order (table : PayeeTable) (transmitters : List Address) :
    Except ProposeError (List Address) :=
  transmitters.mapM fun t =>
    match table.lookup t with
    | some payee => .ok payee
    | none => .error (.missingPayee t)

end PayeeTable

/-- What comes of building: the instructions or an error, the addresses that were looked at, how
often the encoder was asked, and of how many ineligible payees it was decided to go on in spite
of them. -/
structure Build where
  result : Except ProposeError (List Instruction)
  reads : List Address
  encoded : Nat
  unfunded : Option Nat

namespace Build

/-- What building has done so far, whether it fails or not. -/
structure Trace where
  reads : List Address
  encoded : Nat
  unfunded : Option Nat

/-- Nothing has been done. -/
def Trace.start : Trace :=
  ⟨[], 0, none⟩

/-- A part of building. -/
abbrev Part (α : Type) : Type :=
  ExceptT ProposeError (StateM Trace) α

/-- What a part comes to after what has been done before, and what has been done then. -/
def Part.after {α : Type} (t : Trace) (x : Part α) : Except ProposeError α × Trace :=
  x.run.run t

/-- Has the payees checked, all at once. -/
def checkPayees (chain : Chain) (request : Request) : Part EligibilityReport := do
  let checked := Eligibility.checked chain request.tokenMint request.input.payees
  modify fun t => { t with reads := t.reads ++ checked.asked }
  pure checked.report

/-- Goes on if all payees are eligible, or if they need not be. -/
def pass (input : PayeeInput) (report : EligibilityReport) : Part Unit :=
  if report.allEligible then pure ()
  else if input.allowUnfunded then
    modify fun t => { t with unfunded := some report.failed.length }
  else throw (.validation .unfundedPayees report.failed)

/-- The proposal in what is found at its address. -/
def proposalIn (program proposal : Address) : Lookup → Except ProposeError Proposal
  | .failed reason => .error (.rpc reason)
  | .crashed => .error (.rpc "the lookup broke off")
  | .absent => .error (.proposalNotFound proposal)
  | .found account =>
    if account.owner ≠ program then .error (.proposalOwner proposal account.owner program)
    else (Proposal.decode account.data).mapError .proposalDecode

/-- Reads the proposal. -/
def fetchProposal (chain : Chain) (program proposal : Address) : Part Proposal := do
  modify fun t => { t with reads := t.reads ++ [proposal] }
  proposalIn program proposal (chain proposal)

/-- Asks the encoder for the instruction. -/
def encode (encoder : Encoder) (request : Request) (payees : List Address) (signer : Address) :
    Part Instruction := do
  modify fun t => { t with encoded := t.encoded + 1 }
  (encoder.encode request.tokenMint payees request.proposal signer).mapError ProposeError.encode

/-- Goes on with payees that have passed: reads the proposal, puts the payees into its order, and
asks for the instruction. -/
def proposeOrdered (chain : Chain) (encoder : Encoder) (request : Request) (signer : Address)
    (table : PayeeTable) : Part (List Instruction) := do
  let proposal ← fetchProposal chain encoder.program request.proposal
  let payees ← table.order proposal.transmitters
  let instruction ← encode encoder request payees signer
  pure [instruction]

/-- The instructions that a signer is to submit. -/
def instructions (chain : Chain) (encoder : Encoder) (request : Request) (signer : Address) :
    Part (List Instruction) := do
  let table ← PayeeTable.ofInput request.input
  let report ← checkPayees chain request
  pass request.input report
  proposeOrdered chain encoder request signer table

/-- A result and what has been done on the way to it. -/
def ofOutcome (r : Except ProposeError (List Instruction) × Trace) : Build :=
  ⟨r.1, r.2.reads, r.2.encoded, r.2.unfunded⟩

/-- Builds the instructions that a signer is to submit. -/
def run (chain : Chain) (encoder : Encoder) (request : Request) (signer : Address) : Build :=
  ofOutcome ((instructions chain encoder request signer).after .start)

end Build

/-! ## Sessions -/

/-- A builder over a time in which the chain and the encoder change, with the number of accounts
looked at and of questions to the encoder so far. -/
structure Session where
  request : Request
  program : Address
  chain : Chain
  /-- What the encoder says when it refuses; nothing while it works. -/
  refusal : Option String
  reads : Nat
  encoded : Nat

/-- One thing that happens in a session. -/
inductive SessionStep where
  | build (signer : Address)
  | setAccount (a : Address) (l : Lookup)
  | setRefusal (refusal : Option String)

namespace Session

/-- A session that starts. -/
def start (request : Request) (program : Address) (chain : Chain) : Session :=
  ⟨request, program, chain, none, 0, 0⟩

/-- The encoder at present. -/
def encoder (s : Session) : Encoder :=
  match s.refusal with
  | none => Encoder.forProgram s.program
  | some reason => Encoder.refusing s.program reason

/-- What a step gives, if it builds, and the session after it. -/
def step (s : Session) : SessionStep → Option Build × Session
  | .build signer =>
    let b := Build.run s.chain s.encoder s.request signer
    (some b, { s with reads := s.reads + b.reads.length, encoded := s.encoded + b.encoded })
  | .setAccount a l => (none, { s with chain := s.chain.set a l })
  | .setRefusal refusal => (none, { s with refusal := refusal })

/-- What each of some steps gives, with the session after it. -/
def run (s : Session) : List SessionStep → List (Option Build × Session)
  | [] => []
  | step :: steps =>
    let r := s.step step
    r :: run r.2 steps

end Session

end PayeeProposal
