import PayeeProposal.Builder
import PayeeProposal.Endpoint
import PayeeProposal.Parameters
import PayeeProposal.Prompt
import PayeeProposal.Report
import PayeeProposal.Wallet

/-!
# The command

A run of the program as a function of everything around it: the words of the command line, the
environment, the files, the input, and the network. It gives what is printed, which calls reach a
node, which transactions are sent, and how it ends.
-/

namespace PayeeProposal

/-- The variables of the environment that a run looks at. -/
structure Environment where
  link : Option String
  rpcUrl : Option String
  privateKey : Option String
deriving DecidableEq, Repr

/-- What is around a run. -/
structure Surroundings where
  environment : Environment
  files : Files
  input : List UInt8
  network : Network

/-- Why a run fails. -/
inductive RunError where
  | usage (error : UsageError)
  | config (error : ConfigError)
  | loggingOffset (hours : Int)
  | commitment (name : String)
  | propose (error : ProposeError)
  | unreadableAnswer (error : FileError)
deriving DecidableEq

/-- What is reported of a run that fails. -/
def RunError.message (wording : Wording) : RunError → String
  | .usage error => error.message
  | .config error => error.message wording
  | .loggingOffset hours =>
    "invalid logging timezone offset " ++ toString hours ++ ": offset hour was not in range"
  | .commitment name =>
    "global.commitment 期望 processed / confirmed / finalized，实际为 " ++ name
  | .propose error => error.message wording
  | .unreadableAnswer error => "读取确认输入失败: " ++ wording (.file error)

/-- What comes of a run. -/
structure Run where
  result : Except RunError Unit
  output : String
  calls : List Call
  sent : List (List UInt8)

/-- The hours that local time may be ahead of or behind universal time. -/
def LoggingConfig.maxOffset : Int :=
  25

/-- Whether logging can start with a configuration. -/
def LoggingConfig.check (c : LoggingConfig) : Except RunError Unit :=
  if -maxOffset ≤ c.offsetHours ∧ c.offsetHours ≤ maxOffset then .ok ()
  else .error (.loggingOffset c.offsetHours)

/-- The endpoint of a run, with what a run reports when there is none. -/
def Endpoint.require (global : GlobalConfig) (environment : Option String) :
    Except RunError Endpoint :=
  (Endpoint.resolve global environment).mapError .commitment

namespace Command

/-- What a run has found out before it looks at the chain. -/
structure Prepared where
  parameters : Parameters
  input : PayeeInput
  wallet : Keypair
  endpoint : Endpoint
deriving DecidableEq

namespace Prepared

/-- What is to be proposed. -/
def request (p : Prepared) : Request :=
  ⟨p.input, p.parameters.proposal, p.parameters.tokenMint⟩

/-- The instruction format of the program. -/
def encoder (p : Prepared) : Encoder :=
  Encoder.forProgram p.parameters.programId

end Prepared

/-- Works out the parameters, the list of payees, the wallet and the endpoint, in this order. -/
def prepare (s : Surroundings) (config : Config) (arguments : ProposeArguments) :
    Except RunError Prepared := do
  let parameters ←
    (Parameters.resolve arguments config.program s.environment.link).mapError .propose
  let input ←
    (PayeeInput.load s.files arguments config.program.descriptionPath parameters.state).mapError
      .propose
  let wallet ←
    (Wallet.load s.environment.privateKey config.global.privateKey).mapError .propose
  let endpoint ← Endpoint.require config.global s.environment.rpcUrl
  pure ⟨parameters, input, wallet, endpoint⟩

/-- What the user is asked before a transaction for a proposal is submitted. -/
def question (proposal : Address) : String :=
  "将为提案 " ++ proposal.text ++ " 提交 propose_payees 交易，是否继续?"

/-- Whether the submission is agreed to, and what is printed to ask for it. -/
def consent (arguments : ProposeArguments) (proposal : Address) (input : List UInt8) :
    Except RunError Unit × String :=
  if arguments.yes then (.ok (), "")
  else
    let shown := Prompt.question (question proposal)
    match (Prompt.ask input).1 with
    | .error e => (.error (.unreadableAnswer e), shown)
    | .ok true => (.ok (), shown)
    | .ok false => (.error (.propose .cancelled), shown)

/-- What is printed of instructions that are not submitted. -/
def printInstructions (instructions : List Instruction) : String :=
  InstructionReport.print (instructions.map InstructionReport.ofInstruction) ++ "\n"

/-- What is printed of a submission. -/
def printSubmission (signature : Bytes.Fixed 64) (state : String) : String :=
  SubmissionReport.print ⟨Base58.encode signature.bytes, state⟩ ++ "\n"

/-- Submits instructions that are agreed to; given is what has been printed and called before. -/
def submit (connection : Connection) (p : Prepared) (instructions : List Instruction)
    (shown : String) (calls : List Call) : Run :=
  let s := Submission.submit connection p.wallet instructions
  match s.result with
  | .error e => ⟨.error (.propose (.submission e)), shown, calls ++ s.calls, s.sent⟩
  | .ok signature =>
    ⟨.ok (), shown ++ printSubmission signature p.parameters.state, calls ++ s.calls, s.sent⟩

/-- Goes on with instructions that have been built. -/
def finish (s : Surroundings) (arguments : ProposeArguments) (p : Prepared)
    (connection : Connection) (instructions : List Instruction) (calls : List Call) : Run :=
  if arguments.dryRun then ⟨.ok (), printInstructions instructions, calls, []⟩
  else
    match consent arguments p.parameters.proposal s.input with
    | (.error e, shown) => ⟨.error e, shown, calls, []⟩
    | (.ok (), shown) => submit connection p instructions shown calls

/-- Builds the instructions and goes on with them. -/
def propose (s : Surroundings) (arguments : ProposeArguments) (p : Prepared) : Run :=
  let connection := p.endpoint.connect s.network
  let build := Build.run connection.accounts p.encoder p.request p.wallet.address
  let calls := connection.accountCalls build.reads
  match build.result with
  | .error e => ⟨.error (.propose e), "", calls, []⟩
  | .ok instructions => finish s arguments p connection instructions calls

/-- What has to hold before anything is proposed: the configuration is loaded and logging can
start. -/
def configure (s : Surroundings) (path : Option String) : Except RunError Config := do
  let config ← (Config.load s.files path).mapError .config
  config.global.logging.check
  pure config

/-- Runs with a configuration. -/
def runWith (s : Surroundings) (config : Config) (arguments : ProposeArguments) : Run :=
  match prepare s config arguments with
  | .error e => ⟨.error e, "", [], []⟩
  | .ok p => propose s arguments p

/-- Runs a command line that has been read. -/
def runLine (s : Surroundings) (line : CommandLine) : Run :=
  match configure s line.config with
  | .error e => ⟨.error e, "", [], []⟩
  | .ok config => runWith s config line.arguments

/-- Runs the program; the first word names it. -/
def run (argv : List String) (s : Surroundings) : Run :=
  match CommandLine.parse argv with
  | .error e => ⟨.error (.usage e), "", [], []⟩
  | .ok line => runLine s line

end Command

end PayeeProposal
