import PayeeProposal.Proofs.Arguments
import PayeeProposal.Proofs.DryRun
import PayeeProposal.Proofs.Funding

/-!
# Allowing payees without funds

The flag on the command line allows payees that are not eligible, and does nothing else. A run
without it that does not fail for its payees is the same run with it. For payees out of a
deployment description, or out of a list that allows such payees itself, the flag does not matter.
-/

namespace PayeeProposal

open Traversal

namespace PayeeInput

/-- The list with payees allowed that are not eligible, if the flag says so. -/
def allowing (input : PayeeInput) (allow : Bool) : PayeeInput :=
  { input with allowUnfunded := input.allowUnfunded || allow }

/-- The flag is looked at when the list has been read, and changes nothing else of it. -/
theorem load_withAllow (files : Files) (arguments : ProposeArguments) (configured : Option String)
    (state : String) (allow : Bool) :
    load files (arguments.withAllow allow) configured state =
      (load files (arguments.withAllow false) configured state).map fun input =>
        input.allowing allow := by
  unfold load ProposeArguments.withAllow
  cases arguments.input with
  | some argument =>
    simp only
    cases ofArgument files argument with
    | error e => rfl
    | ok input =>
      simp only [ok_bind, Bool.or_false]
      rfl
  | none =>
    simp only
    cases ofDescription files state (arguments.description.or configured) with
    | error e => rfl
    | ok input =>
      simp only [ok_bind, Bool.or_false]
      rfl

theorem allowUnfunded_of_payeeInput {d : Deployment} {name : String} {input : PayeeInput}
    (h : d.payeeInput name = .ok input) : input.allowUnfunded = true := by
  obtain ⟨aggregator, -, h⟩ := bind_eq_ok.mp h
  obtain ⟨operators, -, h⟩ := bind_eq_ok.mp h
  cases Except.ok.inj h
  rfl

/-- A list of payees out of a deployment description allows those that are not eligible. -/
theorem allowUnfunded_of_load {files : Files} {arguments : ProposeArguments}
    {configured : Option String} {state : String} {input : PayeeInput}
    (hnone : arguments.input = none) (h : load files arguments configured state = .ok input) :
    input.allowUnfunded = true := by
  unfold load at h
  rw [hnone] at h
  obtain ⟨described, hdescribed, h⟩ := bind_eq_ok.mp h
  cases Except.ok.inj h
  cases hpath : arguments.description.or configured with
  | none =>
    rw [hpath] at hdescribed
    cases hdescribed
  | some path =>
    rw [hpath] at hdescribed
    obtain ⟨deployment, -, hdescribed⟩ := bind_eq_ok.mp hdescribed
    rw [allowUnfunded_of_payeeInput (mapError_eq_ok.mp hdescribed)]
    rfl

end PayeeInput

theorem Connection.accountCalls_append (c : Connection) (reads later : List Address) :
    c.accountCalls (reads ++ later) = c.accountCalls reads ++ c.accountCalls later := by
  unfold Connection.accountCalls
  split
  · exact List.map_append
  · rfl

namespace Command

variable {s : Surroundings} {config : Config} {line : CommandLine} {p : Prepared}
  {arguments : ProposeArguments}

/-- What has been prepared, with payees allowed that are not eligible, if the flag says so. -/
def Prepared.allowing (p : Prepared) (allow : Bool) : Prepared :=
  { p with input := p.input.allowing allow }

theorem prepare_withAllow (s : Surroundings) (config : Config) (arguments : ProposeArguments)
    (allow : Bool) :
    prepare s config (arguments.withAllow allow) =
      (prepare s config (arguments.withAllow false)).map fun p => p.allowing allow := by
  have hresolve : ∀ allow, Parameters.resolve (arguments.withAllow allow) config.program
      s.environment.link = Parameters.resolve arguments config.program s.environment.link :=
    fun _ => rfl
  unfold prepare
  simp only [hresolve, PayeeInput.load_withAllow _ arguments _ _ allow]
  cases Parameters.resolve arguments config.program s.environment.link with
  | error e => rfl
  | ok parameters =>
    simp only [Except.mapError, ok_bind]
    cases PayeeInput.load s.files (arguments.withAllow false) config.program.descriptionPath
      parameters.state with
    | error e => rfl
    | ok input =>
      -- what is left does not look at the list of payees
      cases Wallet.load s.environment.privateKey config.global.privateKey with
      | error e => rfl
      | ok wallet =>
        simp only [Except.map, ok_bind]
        cases Endpoint.require config.global s.environment.rpcUrl <;> rfl

theorem Unprepared.withAllow {e : RunError} (h : Unprepared s (line.withAllow false) e)
    (allow : Bool) : Unprepared s (line.withAllow allow) e := by
  cases h with
  | configuration h => exact .configuration h
  | preparation hconfig h =>
    refine .preparation hconfig ?_
    show prepare s _ (line.arguments.withAllow allow) = _
    rw [prepare_withAllow, show prepare s _ (line.arguments.withAllow false) = _ from h]
    rfl

theorem Prepares.withAllow (h : Prepares s (line.withAllow false) p) (allow : Bool) :
    Prepares s (line.withAllow allow) (p.allowing allow) := by
  obtain ⟨config, hconfig, hp⟩ := h
  refine ⟨config, hconfig, ?_⟩
  show prepare s config (line.arguments.withAllow allow) = _
  rw [prepare_withAllow, show prepare s config (line.arguments.withAllow false) = _ from hp]
  rfl

/-- With the flag or without it, a line fails in the same way for its settings, or proposes what
has been prepared. -/
theorem runLine_withAllow (s : Surroundings) (line : CommandLine) :
    (∃ e, e.isSetting = true ∧ (∀ p, ¬ Prepares s (line.withAllow false) p) ∧
        ∀ allow, runLine s (line.withAllow allow) = ⟨.error e, "", [], []⟩) ∨
      ∃ p, Prepares s (line.withAllow false) p ∧
        ∀ allow, runLine s (line.withAllow allow) =
          propose s line.arguments (p.allowing allow) := by
  rcases unprepared_or_prepares s (line.withAllow false) with ⟨e, h⟩ | ⟨p, h⟩
  · left
    exact ⟨e, isSetting_of_unprepared h, h.not_prepares,
      fun allow => runLine_of_unprepared (h.withAllow allow)⟩
  · right
    exact ⟨p, h, fun allow => runLine_of_prepares (h.withAllow allow)⟩

/-- A list that allows such payees itself stays as it is. -/
theorem allowing_eq_self {allow : Bool}
    (h : (p.input.allowUnfunded || allow) = p.input.allowUnfunded) : p.allowing allow = p := by
  unfold Prepared.allowing PayeeInput.allowing
  rw [h]

theorem allowing_false (p : Prepared) : p.allowing false = p :=
  allowing_eq_self (Bool.or_false _)

theorem request_allowing_true (p : Prepared) :
    (p.allowing true).request = p.request.withAllow true := by
  unfold Prepared.allowing PayeeInput.allowing
  rw [Bool.or_true]
  rfl

/-! ## What is proposed -/

/-- What is built for a prepared run, or why nothing is. -/
def buildOf (s : Surroundings) (p : Prepared) (request : Request) : Build :=
  Build.run (p.endpoint.connect s.network).accounts p.encoder request p.wallet.address

/-- Of the list of payees a run looks at nothing but what is built. -/
theorem propose_allowing {allow : Bool}
    (h : buildOf s p (p.allowing allow).request = buildOf s p p.request) :
    propose s arguments (p.allowing allow) = propose s arguments p := by
  unfold buildOf at h
  unfold propose
  simp only [show (p.allowing allow).endpoint = p.endpoint from rfl,
    show (p.allowing allow).encoder = p.encoder from rfl,
    show (p.allowing allow).wallet = p.wallet from rfl, h]
  rfl

/-- A run that has built its instructions is dry, or not agreed to, or submits them. -/
theorem finish_cases (s : Surroundings) (arguments : ProposeArguments) (p : Prepared)
    (c : Connection) (instructions : List Instruction) (calls : List Call) :
    finish s arguments p c instructions calls =
        ⟨.ok (), printInstructions instructions, calls, []⟩ ∨
      (∃ e shown, finish s arguments p c instructions calls = ⟨.error e, shown, calls, []⟩ ∧
        consent arguments p.parameters.proposal s.input = (.error e, shown)) ∨
      ∃ shown, finish s arguments p c instructions calls = submit c p instructions shown calls := by
  unfold finish
  split
  · exact .inl rfl
  · cases consent arguments p.parameters.proposal s.input with
    | mk result shown =>
      cases result with
      | error e => exact .inr (.inl ⟨e, shown, rfl, rfl⟩)
      | ok u => exact .inr (.inr ⟨shown, rfl⟩)

theorem ne_validation_of_consent {proposal : Address} {input : List UInt8} {e : RunError}
    {shown : String} (h : consent arguments proposal input = (.error e, shown))
    (reason : ValidationReason) (failed : List String) :
    e ≠ .propose (.validation reason failed) := by
  rintro rfl
  unfold consent at h
  split at h
  · cases h
  · simp only at h
    split at h
    · cases h
    · cases h
    · cases h

/-- Once there are instructions, nothing is wrong with the list of payees. -/
theorem result_finish_ne_validation {c : Connection} {instructions : List Instruction}
    {calls : List Call} (reason : ValidationReason) (failed : List String) :
    (finish s arguments p c instructions calls).result ≠
      .error (.propose (.validation reason failed)) := by
  intro h
  rcases finish_cases s arguments p c instructions calls with
    hdry | ⟨e, shown, hdeclined, hconsent⟩ | ⟨shown, hsubmit⟩
  · rw [hdry] at h
    cases h
  · rw [hdeclined] at h
    exact ne_validation_of_consent hconsent reason failed (Except.error.inj h)
  · rw [hsubmit] at h
    cases hresult : (Submission.submit c p.wallet instructions).result with
    | error e =>
      rw [submit_of_error hresult] at h
      cases h
    | ok signature =>
      simp only [submit, hresult] at h
      cases h

theorem exists_calls_finish (s : Surroundings) (arguments : ProposeArguments) (p : Prepared)
    (c : Connection) (instructions : List Instruction) (calls : List Call) :
    ∃ later, (finish s arguments p c instructions calls).calls = calls ++ later := by
  rcases finish_cases s arguments p c instructions calls with
    hdry | ⟨e, shown, hdeclined, -⟩ | ⟨shown, hsubmit⟩
  · exact ⟨[], by rw [hdry, List.append_nil]⟩
  · exact ⟨[], by rw [hdeclined, List.append_nil]⟩
  · exact ⟨_, by rw [hsubmit, calls_submit]⟩

/-- A run reads the accounts that its build reads, before anything else. -/
theorem exists_calls_propose (s : Surroundings) (arguments : ProposeArguments) (p : Prepared) :
    ∃ later, (propose s arguments p).calls =
      (p.endpoint.connect s.network).accountCalls (buildOf s p p.request).reads ++ later := by
  cases h : (buildOf s p p.request).result with
  | error e => exact ⟨[], by rw [propose_eq_error h, List.append_nil, lookups, buildOf]⟩
  | ok instructions =>
    rw [propose_eq_finish h]
    exact exists_calls_finish _ _ _ _ _ _

/-- A run fails for its payees exactly when its build does. -/
theorem result_propose_eq_unfunded_iff {failed : List String} :
    (propose s arguments p).result = .error (.propose (.validation .unfundedPayees failed)) ↔
      (buildOf s p p.request).result = .error (.validation .unfundedPayees failed) := by
  cases h : (buildOf s p p.request).result with
  | error e =>
    rw [propose_eq_error h]
    simp
  | ok instructions =>
    rw [propose_eq_finish h]
    exact iff_of_false (result_finish_ne_validation _ _) nofun

/-! ## Runs with and without the flag -/

/-- A run fails for its payees exactly when they are all that is wrong and the list of payees does
not allow them. -/
theorem refused_iff {failed : List String} :
    (propose s arguments p).result = .error (.propose (.validation .unfundedPayees failed)) ↔
      p.input.allowUnfunded = false ∧
        Build.LacksFunds (p.endpoint.connect s.network).accounts p.request ∧
          failed = p.request.unfundedPayees (p.endpoint.connect s.network).accounts :=
  result_propose_eq_unfunded_iff.trans Build.result_eq_unfunded_iff

/-- Where such payees are allowed already or are not what is missing, the flag does not matter. -/
theorem propose_allowing_of_not_lacksFunds
    (h : ¬ (p.input.allowUnfunded = false ∧
      Build.LacksFunds (p.endpoint.connect s.network).accounts p.request)) :
    propose s arguments (p.allowing true) = propose s arguments p := by
  cases hallow : p.input.allowUnfunded with
  | true =>
    rw [allowing_eq_self]
    rw [hallow, Bool.or_true]
  | false =>
    apply propose_allowing
    rw [request_allowing_true]
    exact Build.run_withAllow (fun hlacks => h ⟨hallow, hlacks⟩) true

/-- A run that is allowed to go on calls first what it calls when it is not. -/
theorem calls_propose_allowing (arguments : ProposeArguments)
    (hstrict : p.input.allowUnfunded = false)
    (hlacks : Build.LacksFunds (p.endpoint.connect s.network).accounts p.request) :
    ∃ later, (propose s arguments (p.allowing true)).calls =
      (propose s arguments p).calls ++ later := by
  obtain ⟨later, hlater⟩ := exists_calls_propose s arguments (p.allowing true)
  obtain ⟨reads, hreads⟩ := Build.reads_withAllow p.encoder p.wallet.address hlacks
  have hrequest : p.request.withAllow false = p.request := by
    unfold Request.withAllow
    rw [← hstrict]
    rfl
  have hrefused : (buildOf s p p.request).result = .error (.validation .unfundedPayees
      (p.request.unfundedPayees (p.endpoint.connect s.network).accounts)) :=
    Build.result_eq_unfunded_iff.mpr ⟨hstrict, hlacks, rfl⟩
  have hbuilt : (buildOf s (p.allowing true) (p.allowing true).request).reads =
      (buildOf s p p.request).reads ++ reads := by
    rw [hrequest] at hreads
    rw [request_allowing_true]
    exact hreads
  rw [hlater, hbuilt, Connection.accountCalls_append, List.append_assoc, propose_eq_error hrefused]
  exact ⟨_, rfl⟩

/-- Nothing stands in the way of a run without the flag but payees that are not eligible. -/
structure LacksFunds (s : Surroundings) (line : CommandLine) (p : Prepared) : Prop where
  prepares : Prepares s (line.withAllow false) p
  strict : p.input.allowUnfunded = false
  lacks : Build.LacksFunds (p.endpoint.connect s.network).accounts p.request

/-- What becomes of a command line with the flag, against what becomes of it without. -/
structure Lifts (s : Surroundings) (line : CommandLine) (strict lenient : Run) : Prop where
  keeps : strict.result = .ok () → lenient = strict
  fails : ∀ e, lenient.result = .error e →
    strict.result = .error e ∨
      ∃ failed, strict.result = .error (.propose (.validation .unfundedPayees failed))
  refuses : (∃ failed, strict.result = .error (.propose (.validation .unfundedPayees failed))) ↔
    ∃ p, LacksFunds s line p
  lists : ∀ failed p, strict.result = .error (.propose (.validation .unfundedPayees failed)) →
    Prepares s (line.withAllow false) p →
      failed = p.request.unfundedPayees (p.endpoint.connect s.network).accounts
  calls : ∃ later, lenient.calls = strict.calls ++ later
  same : (∀ failed, strict.result ≠ .error (.propose (.validation .unfundedPayees failed))) →
    lenient = strict
  described : line.arguments.input = none → lenient = strict

/-- A run that the flag does not change and that does not fail for its payees. -/
theorem lifts_self {run : Run}
    (hnot : ∀ failed, run.result ≠ .error (.propose (.validation .unfundedPayees failed)))
    (hlacks : ¬ ∃ p, LacksFunds s line p) : Lifts s line run run := by
  constructor
  case keeps => exact fun _ => rfl
  case fails => exact fun _ h => .inl h
  case refuses => exact iff_of_false (fun ⟨failed, h⟩ => hnot failed h) hlacks
  case lists => exact fun failed _ h => absurd h (hnot failed)
  case calls => exact ⟨[], (List.append_nil _).symm⟩
  case same => exact fun _ => rfl
  case described => exact fun _ => rfl

/-- A list that does not allow such payees was not taken out of a description. -/
theorem allowUnfunded_of_prepares (hprepares : Prepares s line p)
    (hnone : line.arguments.input = none) : p.input.allowUnfunded = true := by
  obtain ⟨config, -, hprepare⟩ := hprepares
  obtain ⟨parameters, -, h⟩ := bind_eq_ok.mp hprepare
  obtain ⟨input, hload, h⟩ := bind_eq_ok.mp h
  obtain ⟨wallet, -, h⟩ := bind_eq_ok.mp h
  obtain ⟨endpoint, -, h⟩ := bind_eq_ok.mp h
  cases Except.ok.inj h
  exact PayeeInput.allowUnfunded_of_load hnone (mapError_eq_ok.mp hload)

/-- With the flag, a command line that has been read does what it does without, unless that fails
for its payees. -/
theorem lifts_runLine (s : Surroundings) (line : CommandLine) :
    Lifts s line (runLine s (line.withAllow false)) (runLine s (line.withAllow true)) := by
  rcases runLine_withAllow s line with ⟨e, hsetting, hnone, hruns⟩ | ⟨p, hprepares, hruns⟩
  · rw [hruns false, hruns true]
    refine lifts_self ?_ (fun ⟨p, h⟩ => hnone p h.prepares)
    rintro failed ⟨⟩
    cases hsetting
  · rw [hruns false, hruns true, allowing_false]
    by_cases hlacks : p.input.allowUnfunded = false ∧
        Build.LacksFunds (p.endpoint.connect s.network).accounts p.request
    · obtain ⟨hstrict, hfunds⟩ := hlacks
      have hrefused : (propose s line.arguments p).result = .error (.propose (.validation
          .unfundedPayees
            (p.request.unfundedPayees (p.endpoint.connect s.network).accounts))) :=
        refused_iff.mpr ⟨hstrict, hfunds, rfl⟩
      constructor
      case keeps =>
        intro h
        cases hrefused.symm.trans h
      case fails => exact fun e _ => .inr ⟨_, hrefused⟩
      case refuses => exact iff_of_true ⟨_, hrefused⟩ ⟨p, hprepares, hstrict, hfunds⟩
      case lists =>
        intro failed p' h hp'
        rw [hp'.unique hprepares]
        exact (refused_iff.mp h).2.2
      case calls => exact calls_propose_allowing line.arguments hstrict hfunds
      case same => exact fun h => absurd hrefused (h _)
      case described =>
        intro hnone
        cases hstrict.symm.trans (allowUnfunded_of_prepares hprepares hnone)
    · rw [propose_allowing_of_not_lacksFunds hlacks]
      refine lifts_self (fun failed h => ?_) ?_
      · have hcause := refused_iff.mp h
        exact hlacks ⟨hcause.1, hcause.2.1⟩
      · rintro ⟨p', h⟩
        rw [h.prepares.unique hprepares] at h
        exact hlacks ⟨h.strict, h.lacks⟩

/-- Allowing payees that are not eligible lifts the check of the payees and nothing else: of a
build, of two runs whose command lines differ in the flag, and so of a run and the one that has the
flag as one more word. -/
theorem allow_lifts_only_funding :
    (∀ (chain : Chain) (encoder : Encoder) (request : Request) (signer : Address),
      Build.Lifts chain request (Build.run chain encoder (request.withAllow false) signer)
        (Build.run chain encoder (request.withAllow true) signer)) ∧
    (∀ (s : Surroundings) (argv argv' : List String) (line : CommandLine),
      CommandLine.parse argv = .ok (line.withAllow false) →
        CommandLine.parse argv' = .ok (line.withAllow true) →
          Lifts s line (run argv s) (run argv' s)) ∧
    ∀ (s : Surroundings) (argv : List String) (line : CommandLine),
      CommandLine.parse argv = .ok line → line.arguments.allowUnfunded = false →
        argv.getLast? ≠ some "--" → Lifts s line (run argv s) (run (argv ++ [allowWord]) s) := by
  have hruns : ∀ (s : Surroundings) (argv argv' : List String) (line : CommandLine),
      CommandLine.parse argv = .ok (line.withAllow false) →
        CommandLine.parse argv' = .ok (line.withAllow true) →
          Lifts s line (run argv s) (run argv' s) := by
    intro s argv argv' line hstrict hlenient
    rw [run_of_parse hstrict, run_of_parse hlenient]
    exact lifts_runLine s line
  refine ⟨Build.lifts_run, hruns, fun s argv line hline hnew hlast => ?_⟩
  apply hruns s argv (argv ++ [allowWord]) line
  · rw [hline, CommandLine.withAllow_eq_self hnew]
  · exact CommandLine.parse_append hlast hline hnew

/-- A run that is refused for its one payee ends well with the flag, wherever it stands. -/
theorem allow_lifts_only_funding_landed :
    let wallet := Keypair.ofSeed ⟨List.replicate 32 0, List.length_replicate⟩
    let s := Landing.surroundings wallet
    let line := Landing.commandLine false
    let strict := run (Landing.words false) s
    let lenient := run (Landing.words true) s
    CommandLine.parse (Landing.words false) = .ok (line.withAllow false) ∧
      CommandLine.parse (Landing.words true) = .ok (line.withAllow true) ∧
      Lifts s line strict lenient ∧
      line.arguments.allowUnfunded = false ∧ (Landing.words false).getLast? ≠ some "--" ∧
      Lifts s line strict (run (Landing.words false ++ [allowWord]) s) ∧
      strict.result = .error (.propose (.validation .unfundedPayees [Landing.zeros])) ∧
      lenient.result = .ok () := by
  intro wallet s line strict lenient
  have hstrict := Landing.parse_words false
  have hlenient := Landing.parse_words true
  have hlast : (Landing.words false).getLast? ≠ some "--" := by decide
  have hlifts : Lifts s line strict lenient :=
    allow_lifts_only_funding.2.1 s _ _ line hstrict hlenient
  have hlonger := allow_lifts_only_funding.2.2 s _ line hstrict rfl hlast
  have hprepares : Prepares s (line.withAllow false) (Landing.prepared false wallet) :=
    (Landing.ready false wallet).prepares
  obtain ⟨hwell, hdistinct⟩ :=
    PayeeTable.exists_ofInput_eq_ok_iff.mp ⟨_, Landing.table_request false⟩
  have hineligible : (Eligibility.check Landing.node.accounts .systemProgram
      Landing.zeros).isEligible = false := by decide +kernel
  have hlisted : (Landing.request false).unfundedPayees Landing.node.accounts = [Landing.zeros] :=
    List.filter_cons_of_pos (congrArg not hineligible)
  have hlacks : LacksFunds s line (Landing.prepared false wallet) := by
    refine ⟨hprepares, rfl, hwell, hdistinct, _, List.mem_singleton_self _, fun h => ?_⟩
    cases hineligible.symm.trans (Eligibility.isEligible_check_iff.mpr h)
  obtain ⟨failed, hrefused⟩ := hlifts.refuses.mpr ⟨_, hlacks⟩
  obtain rfl : failed = [Landing.zeros] := (hlifts.lists failed _ hrefused hprepares).trans hlisted
  obtain ⟨output, sent, hrun⟩ := Landing.run_eq wallet
  have hlands : lenient = _ := hrun
  exact ⟨hstrict, hlenient, hlifts, rfl, hlast, hlonger, hrefused, by rw [hlands]⟩

end Command

end PayeeProposal
