import PayeeProposal.Proofs.BuildStages
import PayeeProposal.Proofs.Command
import PayeeProposal.Proofs.KeyNotation
import PayeeProposal.Proofs.Parameters

/-!
# The stages of a run

A run goes from its words through the configuration, the parameters, the list of payees and the
wallet to the build, and from there through the consent to the submission. Each stage may fail in
its own way.
-/

namespace PayeeProposal

theorem Commitment.parse_eq_error_iff {s name : String} :
    Commitment.parse s = .error name ↔
      Commitment.normalize s ∉ ["processed", "confirmed", "", "finalized"] ∧
        name = Commitment.normalize s := by
  simp only [Commitment.parse, List.mem_cons, List.not_mem_nil, or_false, not_or]
  split_ifs with h₁ h₂ h₃
  · simp [h₁]
  · rcases h₂ with h₂ | h₂ <;> simp [h₂]
  · simp [h₃]
  · rw [not_or] at h₂
    simp [h₁, h₂.1, h₂.2, h₃, eq_comm]

theorem LoggingConfig.check_eq_error_iff {c : LoggingConfig} {e : RunError} :
    c.check = .error e ↔ 25 < c.offsetHours.natAbs ∧ e = .loggingOffset c.offsetHours := by
  unfold LoggingConfig.check LoggingConfig.maxOffset
  split
  · simp only [reduceCtorEq, false_iff, not_and]
    omega
  · rename_i h
    have hlarge : 25 < c.offsetHours.natAbs := by omega
    simp [hlarge, eq_comm]

theorem Endpoint.require_eq (global : GlobalConfig) (environment : Option String) :
    Endpoint.require global environment =
      (Commitment.parse global.commitment).mapError RunError.commitment >>= fun commitment =>
        pure ⟨Endpoint.urlOf global environment, commitment⟩ := by
  unfold Endpoint.require Endpoint.resolve
  cases Commitment.parse global.commitment <;> rfl

namespace Command

open Traversal

/-! ## Stages -/

/-- The stages of a run. -/
inductive Stage where
  | arguments
  | configuration
  | logging
  | parameters (stage : Parameters.Stage)
  | input
  | wallet
  | commitment
  | building (stage : Build.Stage)
  | consent
  | submission (stage : Submission.Stage)
deriving DecidableEq

/-- All stages in order. -/
def Stage.order : List Stage :=
  [.arguments, .configuration, .logging] ++ Parameters.Stage.order.map .parameters ++
    [.input, .wallet, .commitment] ++ Build.Stage.order.map .building ++ [.consent] ++
    Submission.Stage.order.map .submission

/-- A command line and the configuration that it names. -/
structure Given (argv : List String) (s : Surroundings) (line : CommandLine) (config : Config) :
    Prop where
  parsed : CommandLine.parse argv = .ok line
  loaded : Config.load s.files line.config = .ok config

/-- What a run has found out when it begins to look at the chain. -/
structure Ready (argv : List String) (s : Surroundings) (line : CommandLine) (config : Config)
    (p : Prepared) : Prop where
  given : Given argv s line config
  logging : config.global.logging.check = .ok ()
  parameters : Parameters.resolve line.arguments config.program s.environment.link =
    .ok p.parameters
  input : PayeeInput.load s.files line.arguments config.program.descriptionPath
    p.parameters.state = .ok p.input
  wallet : Wallet.load s.environment.privateKey config.global.privateKey = .ok p.wallet
  commitment : Commitment.parse config.global.commitment = .ok p.endpoint.commitment
  url : p.endpoint.url = Endpoint.urlOf config.global s.environment.rpcUrl

/-- How a stage fails, and with which error; of stages before it nothing is assumed but what the
stage goes on with. -/
inductive Fails (argv : List String) (s : Surroundings) (node : Node) : Stage → RunError → Prop
  | arguments {error : UsageError} (h : CommandLine.parse argv = .error error) :
    Fails argv s node .arguments (.usage error)
  | configuration {line : CommandLine} {error : ConfigError}
    (hline : CommandLine.parse argv = .ok line)
    (h : Config.load s.files line.config = .error error) :
    Fails argv s node .configuration (.config error)
  | logging {line : CommandLine} {config : Config} (hgiven : Given argv s line config)
    (h : 25 < config.global.logging.offsetHours.natAbs) :
    Fails argv s node .logging (.loggingOffset config.global.logging.offsetHours)
  | parameters {line : CommandLine} {config : Config} {stage : Parameters.Stage}
    {error : ProposeError} (hgiven : Given argv s line config)
    (h : Parameters.Fails line.arguments config.program s.environment.link stage error) :
    Fails argv s node (.parameters stage) (.propose error)
  | input {line : CommandLine} {config : Config} {parameters : Parameters} {error : ProposeError}
    (hgiven : Given argv s line config)
    (hparameters : Parameters.resolve line.arguments config.program s.environment.link =
      .ok parameters)
    (h : PayeeInput.load s.files line.arguments config.program.descriptionPath parameters.state =
      .error error) :
    Fails argv s node .input (.propose error)
  | wallet {line : CommandLine} {config : Config} {error : ProposeError}
    (hgiven : Given argv s line config)
    (h : Wallet.load s.environment.privateKey config.global.privateKey = .error error) :
    Fails argv s node .wallet (.propose error)
  | commitment {line : CommandLine} {config : Config} (hgiven : Given argv s line config)
    (h : Commitment.normalize config.global.commitment ∉
      ["processed", "confirmed", "", "finalized"]) :
    Fails argv s node .commitment (.commitment (Commitment.normalize config.global.commitment))
  | building {line : CommandLine} {config : Config} {p : Prepared} {stage : Build.Stage}
    {error : ProposeError} (hready : Ready argv s line config p)
    (h : Build.Fails node.accounts p.encoder p.request p.wallet.address stage error) :
    Fails argv s node (.building stage) (.propose error)
  | unreadable {line : CommandLine} (hline : CommandLine.parse argv = .ok line)
    (hnotDry : line.arguments.dryRun = false) (hask : line.arguments.yes = false)
    (h : Prompt.Unreadable s.input) :
    Fails argv s node .consent (.unreadableAnswer .notUtf8)
  | declined {line : CommandLine} (hline : CommandLine.parse argv = .ok line)
    (hnotDry : line.arguments.dryRun = false) (hask : line.arguments.yes = false)
    (hread : ¬ Prompt.Unreadable s.input) (h : ¬ Prompt.Affirms s.input) :
    Fails argv s node .consent (.propose .cancelled)
  | submission {line : CommandLine} {stage : Submission.Stage} {error : SubmissionError}
    (hline : CommandLine.parse argv = .ok line) (hnotDry : line.arguments.dryRun = false)
    (h : Submission.Fails node stage error) :
    Fails argv s node (.submission stage) (.propose (.submission error))

variable {argv : List String} {s : Surroundings} {node : Node} {line : CommandLine}
  {config : Config} {p : Prepared} {e : RunError}

/-! ## What a run is when it comes to a stage -/

theorem Given.unique {line' : CommandLine} {config' : Config} (h : Given argv s line config)
    (h' : Given argv s line' config') : line = line' ∧ config = config' := by
  obtain rfl := Except.ok.inj (h.parsed.symm.trans h'.parsed)
  exact ⟨rfl, Except.ok.inj (h.loaded.symm.trans h'.loaded)⟩

theorem Ready.prepare (h : Ready argv s line config p) :
    prepare s config line.arguments = .ok p := by
  obtain ⟨parameters, input, wallet, url, commitment⟩ := p
  simp only [Command.prepare, mapError_eq_ok.mpr h.parameters, mapError_eq_ok.mpr h.input,
    mapError_eq_ok.mpr h.wallet, ok_bind, Endpoint.require_eq, mapError_eq_ok.mpr h.commitment]
  rw [← h.url]
  rfl

theorem Ready.unique {line' : CommandLine} {config' : Config} {p' : Prepared}
    (h : Ready argv s line config p) (h' : Ready argv s line' config' p') :
    line = line' ∧ config = config' ∧ p = p' := by
  obtain ⟨rfl, rfl⟩ := h.given.unique h'.given
  exact ⟨rfl, rfl, Except.ok.inj (h.prepare.symm.trans h'.prepare)⟩

theorem Given.configure (h : Given argv s line config)
    (hlogging : config.global.logging.check = .ok ()) :
    Command.configure s line.config = .ok config := by
  simp only [Command.configure, mapError_eq_ok.mpr h.loaded, ok_bind, hlogging]
  rfl

theorem Ready.prepares (h : Ready argv s line config p) : Prepares s line p :=
  ⟨config, h.given.configure h.logging, h.prepare⟩

theorem run_of_ready (h : Ready argv s line config p) :
    run argv s = propose s line.arguments p := by
  rw [run_of_parse h.given.parsed, runLine_of_prepares h.prepares]

/-! ## When a stage fails -/

theorem fails_arguments_iff :
    Fails argv s node .arguments e ↔
      (CommandLine.parse argv).mapError RunError.usage = .error e := by
  rw [mapError_eq_error]
  exact ⟨fun | .arguments h => ⟨_, h, rfl⟩, fun ⟨_, h, he⟩ => he ▸ .arguments h⟩

theorem fails_configuration_iff (hline : CommandLine.parse argv = .ok line) :
    Fails argv s node .configuration e ↔
      (Config.load s.files line.config).mapError RunError.config = .error e := by
  rw [mapError_eq_error]
  constructor
  · intro h
    cases h with
    | configuration hline' h =>
      cases hline.symm.trans hline'
      exact ⟨_, h, rfl⟩
  · rintro ⟨_, h, rfl⟩
    exact .configuration hline h

section Given

variable (hgiven : Given argv s line config)

include hgiven

theorem fails_logging_iff :
    Fails argv s node .logging e ↔ config.global.logging.check = .error e := by
  rw [LoggingConfig.check_eq_error_iff]
  constructor
  · intro h
    cases h with
    | logging hgiven' h =>
      obtain ⟨rfl, rfl⟩ := hgiven.unique hgiven'
      exact ⟨h, rfl⟩
  · rintro ⟨h, rfl⟩
    exact .logging hgiven h

theorem fails_parameters_iff {stage : Parameters.Stage} :
    Fails argv s node (.parameters stage) e ↔
      ∃ d, Parameters.Fails line.arguments config.program s.environment.link stage d ∧
        RunError.propose d = e := by
  constructor
  · intro h
    cases h with
    | parameters hgiven' h =>
      obtain ⟨rfl, rfl⟩ := hgiven.unique hgiven'
      exact ⟨_, h, rfl⟩
  · rintro ⟨_, h, rfl⟩
    exact .parameters hgiven h

theorem fails_input_iff {parameters : Parameters}
    (hparameters : Parameters.resolve line.arguments config.program s.environment.link =
      .ok parameters) :
    Fails argv s node .input e ↔
      (PayeeInput.load s.files line.arguments config.program.descriptionPath
        parameters.state).mapError RunError.propose = .error e := by
  rw [mapError_eq_error]
  constructor
  · intro h
    cases h with
    | input hgiven' hparameters' h =>
      obtain ⟨rfl, rfl⟩ := hgiven.unique hgiven'
      cases hparameters.symm.trans hparameters'
      exact ⟨_, h, rfl⟩
  · rintro ⟨_, h, rfl⟩
    exact .input hgiven hparameters h

theorem fails_wallet_iff :
    Fails argv s node .wallet e ↔
      (Wallet.load s.environment.privateKey config.global.privateKey).mapError RunError.propose =
        .error e := by
  rw [mapError_eq_error]
  constructor
  · intro h
    cases h with
    | wallet hgiven' h =>
      obtain ⟨rfl, rfl⟩ := hgiven.unique hgiven'
      exact ⟨_, h, rfl⟩
  · rintro ⟨_, h, rfl⟩
    exact .wallet hgiven h

theorem fails_commitment_iff :
    Fails argv s node .commitment e ↔
      (Commitment.parse config.global.commitment).mapError RunError.commitment = .error e := by
  simp only [mapError_eq_error, Commitment.parse_eq_error_iff]
  constructor
  · intro h
    cases h with
    | commitment hgiven' h =>
      obtain ⟨rfl, rfl⟩ := hgiven.unique hgiven'
      exact ⟨_, ⟨h, rfl⟩, rfl⟩
  · rintro ⟨_, ⟨h, rfl⟩, rfl⟩
    exact .commitment hgiven h

end Given

theorem fails_building_iff (hready : Ready argv s line config p) {stage : Build.Stage} :
    Fails argv s node (.building stage) e ↔
      ∃ d, Build.Fails node.accounts p.encoder p.request p.wallet.address stage d ∧
        RunError.propose d = e := by
  constructor
  · intro h
    cases h with
    | building hready' h =>
      obtain ⟨rfl, rfl, rfl⟩ := hready.unique hready'
      exact ⟨_, h, rfl⟩
  · rintro ⟨_, h, rfl⟩
    exact .building hready h

section Parsed

variable (hline : CommandLine.parse argv = .ok line)

include hline

theorem fails_consent_iff (hnotDry : line.arguments.dryRun = false) (proposal : Address) :
    Fails argv s node .consent e ↔ (consent line.arguments proposal s.input).1 = .error e := by
  constructor
  · intro h
    cases h with
    | unreadable hline' _ hask h =>
      cases hline.symm.trans hline'
      simp only [consent, hask, Prompt.ask_eq_error_iff.mpr ⟨h, rfl⟩]
      rfl
    | declined hline' _ hask hread h =>
      cases hline.symm.trans hline'
      simp only [consent, hask, Prompt.ask_eq_ok_false_iff.mpr ⟨hread, h⟩]
      rfl
  · intro h
    unfold consent at h
    cases hask : line.arguments.yes with
    | true =>
      rw [hask] at h
      cases h
    | false =>
      rw [hask] at h
      cases hanswer : (Prompt.ask s.input).1 with
      | error error =>
        rw [hanswer] at h
        obtain ⟨hun, rfl⟩ := Prompt.ask_eq_error_iff.mp hanswer
        rw [← Except.error.inj h]
        exact .unreadable hline hnotDry hask hun
      | ok answer =>
        rw [hanswer] at h
        cases answer with
        | true => cases h
        | false =>
          obtain ⟨hread, hno⟩ := Prompt.ask_eq_ok_false_iff.mp hanswer
          rw [← Except.error.inj h]
          exact .declined hline hnotDry hask hread hno

theorem fails_submission_iff (hnotDry : line.arguments.dryRun = false)
    {stage : Submission.Stage} :
    Fails argv s node (.submission stage) e ↔
      ∃ d, Submission.Fails node stage d ∧ RunError.propose (.submission d) = e := by
  constructor
  · intro h
    cases h with
    | submission _ _ h => exact ⟨_, h, rfl⟩
  · rintro ⟨_, h, rfl⟩
    exact .submission hline hnotDry h

/-- A dry run does not ask for consent and submits nothing. -/
theorem not_fails_of_dryRun (hdry : line.arguments.dryRun = true) :
    ∀ stage ∈ Stage.consent :: Submission.Stage.order.map .submission, ∀ e,
      ¬ Fails argv s node stage e := by
  intro stage hstage e h
  have hdry' : ∀ line', CommandLine.parse argv = .ok line' → line'.arguments.dryRun ≠ false := by
    intro line' hline'
    rw [← Except.ok.inj (hline.symm.trans hline'), hdry]
    decide
  rcases List.mem_cons.mp hstage with rfl | hstage
  · cases h with
    | unreadable hline' hnotDry => exact hdry' _ hline' hnotDry
    | declined hline' hnotDry => exact hdry' _ hline' hnotDry
  · obtain ⟨stage, -, rfl⟩ := List.mem_map.mp hstage
    cases h with
    | submission hline' hnotDry => exact hdry' _ hline' hnotDry

end Parsed

end Command

/-! ## A run that lands

The one payee has no account, and is allowed all the same or not. The proposal has one slot for it,
and the node carries out what it is sent, though it does not know of it when it is first asked. -/

namespace Command.Landing

/-- The text of the address zero. -/
def zeros : String :=
  "11111111111111111111111111111111"

/-- The program that is meant where none is configured. -/
def program : Address :=
  (Address.parse ({} : ProgramConfig).programId).toOption.getD .systemProgram

/-- A node with one account, a proposal whose one slot has the transmitter zero. -/
def node : Node where
  accounts a :=
    if a = .tokenProgram then
      .found ⟨program, Proposal.discriminator ++ List.replicate 1744 0 ++ Bytes.littleEndian 8 1⟩
    else .absent
  blockhash := some zeros
  refusesTransactions := false
  polls := 1
  fate := .landed

/-- Surroundings with the wallet in the environment and a yes to whatever is asked. -/
def surroundings (wallet : Keypair) : Surroundings where
  environment := ⟨some zeros, some "http://localhost:8899", some (Base58.encode wallet.bytes)⟩
  files _ := .error .notFound
  input := Text.utf8 "yes\n"
  network := ⟨[("http://localhost:8899", node)]⟩

/-- The list of payees. -/
def list : String :=
  "\x7b\"operators\":" ++
    "[[\"11111111111111111111111111111111\",\"11111111111111111111111111111111\"]]\x7d"

/-- The words of a command line, with payees allowed that are not eligible or not. -/
def words (allow : Bool) : List String :=
  ["ocr2-payees", "propose-payees"] ++ (if allow then ["--allow-unfunded-payee"] else []) ++
    ["--state", "S", "--proposal", "TokenkegQfeZyiNwAJbNbGKPFXCWuBvf9Ss623VQ5DA", "--input", list]

/-- What the words say. -/
def commandLine (allow : Bool) : CommandLine where
  config := none
  arguments :=
    { state := some "S"
      proposal := some "TokenkegQfeZyiNwAJbNbGKPFXCWuBvf9Ss623VQ5DA"
      input := some list
      description := none
      link := none
      allowUnfunded := allow
      yes := false
      dryRun := false }

/-- What is to be proposed. -/
def request (allow : Bool) : Request :=
  ⟨⟨[⟨zeros, zeros⟩], allow⟩, .tokenProgram, .systemProgram⟩

/-- What is prepared for the command line. -/
def prepared (allow : Bool) (wallet : Keypair) : Prepared where
  parameters := ⟨"S", .tokenProgram, .systemProgram, program⟩
  input := (request allow).input
  wallet := wallet
  endpoint := ⟨"http://localhost:8899", .confirmed⟩

/-- What is built for the command line. -/
def instruction (wallet : Keypair) : Instruction :=
  .proposePayees program .systemProgram [.systemProgram] .tokenProgram wallet.address

theorem load_wallet (wallet : Keypair) (configured : String) :
    Wallet.load (some (Base58.encode wallet.bytes)) configured = .ok wallet := by
  have hparse := Keypair.parse_encode wallet
  have hblank : Text.allBlank (Base58.encode wallet.bytes) = false := by
    refine Text.allBlank_of_bare (Base58.bare_encode _) fun hempty => ?_
    rw [hempty] at hparse
    cases hparse
  simp only [Wallet.load, Option.bind_some, Text.unlessBlank_eq_some_iff.mpr ⟨rfl, hblank⟩, hparse]
  rfl

theorem parse_words (allow : Bool) :
    CommandLine.parse (words allow) = .ok (commandLine allow) := by
  revert allow
  decide +kernel

theorem load_list (allow : Bool) :
    PayeeInput.load (fun _ => .error .notFound) (commandLine allow).arguments none "S" =
      .ok (request allow).input := by
  revert allow
  decide +kernel

/-- The wallet plays no part in what is prepared beside it. -/
theorem ready (allow : Bool) (wallet : Keypair) :
    Ready (words allow) (surroundings wallet) (commandLine allow) {} (prepared allow wallet) where
  given := by
    refine ⟨parse_words allow, ?_⟩
    show Config.load (fun _ => .error .notFound) none = .ok {}
    decide +kernel
  logging := rfl
  parameters := show Parameters.resolve (commandLine true).arguments {} (some zeros) =
      .ok ⟨"S", .tokenProgram, .systemProgram, program⟩ by decide +kernel
  input := load_list allow
  wallet := load_wallet wallet _
  commitment := rfl
  url := by
    show "http://localhost:8899" = Endpoint.urlOf {} (some "http://localhost:8899")
    decide +kernel

theorem table_request (allow : Bool) :
    PayeeTable.ofInput (request allow).input = .ok [(.systemProgram, .systemProgram)] := by
  revert allow
  decide +kernel

theorem build_eq (wallet : Keypair) :
    Build.run node.accounts (prepared true wallet).encoder (prepared true wallet).request
        wallet.address =
      ⟨.ok [instruction wallet], [.systemProgram, .tokenProgram], 1, some 1⟩ := by
  have hreads : Eligibility.reads (request true).input.payees = [.systemProgram] := by
    decide +kernel
  have hreport : (Build.reportOn node.accounts (request true)).allEligible = false ∧
      (Build.reportOn node.accounts (request true)).failed.length = 1 := by decide +kernel
  have hordered : Build.orderedPayees node.accounts (Encoder.forProgram program).program
      (request true) [(.systemProgram, .systemProgram)] = .ok [.systemProgram] := by
    decide +kernel
  have hencode := Build.encode_of_orderedPayees hordered .systemProgram .tokenProgram
    wallet.address
  show Build.run node.accounts (Encoder.forProgram program) (request true) wallet.address = _
  rw [Build.run_of_table (table_request true), hreport.1, hreport.2, if_neg Bool.false_ne_true,
    if_pos (show (request true).input.allowUnfunded = true from rfl), Build.afterCheck, hreads,
    hordered]
  simp only [show (request true).tokenMint = .systemProgram from rfl,
    show (request true).proposal = .tokenProgram from rfl, hencode]
  rfl

theorem builds (wallet : Keypair) :
    Builds (surroundings wallet) (prepared true wallet) [instruction wallet] := by
  show (Build.run node.accounts (prepared true wallet).encoder (prepared true wallet).request
    wallet.address).result = _
  rw [build_eq]

theorem consents :
    (consent (commandLine true).arguments .tokenProgram (Text.utf8 "yes\n")).1 = .ok () := by
  decide +kernel

/-- What is built is signed by the wallet, and lands. -/
theorem lands (wallet : Keypair) (shown : String) (calls : List Call) :
    ∃ blockhash,
      let t := Transaction.ofInstructions wallet [instruction wallet] blockhash
      submit ((prepared true wallet).endpoint.connect (surroundings wallet).network)
          (prepared true wallet) [instruction wallet] shown calls =
        ⟨.ok (), shown ++ printSubmission (wallet.sign t.message.encode) "S",
          calls ++ [.latestBlockhash .confirmed, .sendTransaction, .signatureStatuses,
            .blockhashValid, .signatureStatuses], [t.encode]⟩ := by
  obtain ⟨blockhash, hhash⟩ : ∃ b, node.blockhash.bind Blockhash.parse? = some b :=
    Option.isSome_iff_exists.mp (by decide +kernel)
  have hsigned := (propose_of_builds (builds wallet)).signedBy
  refine ⟨blockhash, ?_⟩
  rw [submit, Submission.submit_of_blockhash (show _ = some node from rfl) hhash
    (List.cons_ne_nil _ []) hsigned]
  rfl

/-- The run asks, is allowed to go on, and ends well. -/
theorem run_eq (wallet : Keypair) :
    ∃ output sent, run (words true) (surroundings wallet) =
      ⟨.ok (), output, [.accountInfo .systemProgram .confirmed,
        .accountInfo .tokenProgram .confirmed, .latestBlockhash .confirmed, .sendTransaction,
        .signatureStatuses, .blockhashValid, .signatureStatuses], sent⟩ := by
  have hlookups : lookups (surroundings wallet) (prepared true wallet) =
      [.accountInfo .systemProgram .confirmed, .accountInfo .tokenProgram .confirmed] :=
    congrArg (fun b : Build => b.reads.map fun a => Call.accountInfo a .confirmed)
      (build_eq wallet)
  have hconsent : consent (commandLine true).arguments
      (prepared true wallet).parameters.proposal (surroundings wallet).input = (.ok (), _) :=
    Prod.ext consents rfl
  rw [run_of_ready (ready true wallet), propose_eq_finish (builds wallet), hlookups]
  simp only [finish, hconsent]
  obtain ⟨blockhash, hlands⟩ := lands wallet _ _
  exact ⟨_, _, hlands⟩

end Command.Landing

end PayeeProposal
