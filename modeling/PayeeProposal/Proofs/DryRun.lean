import PayeeProposal.Proofs.Report
import PayeeProposal.Proofs.RunStages

/-!
# Dry runs

A dry run foretells what the run that submits without asking does in the same surroundings. Up to
the submission the two do the same, and the report that the dry one prints tells of the
instruction that the other one sends.
-/

namespace PayeeProposal

open Traversal

/-- The same command line, dry or not, and with or without the question. -/
def CommandLine.withFlags (line : CommandLine) (dryRun yes : Bool) : CommandLine :=
  { line with arguments := { line.arguments with dryRun := dryRun, yes := yes } }

/-- A request for an account. -/
def Call.isAccountInfo : Call → Bool
  | .accountInfo _ _ => true
  | .latestBlockhash _ | .sendTransaction | .signatureStatuses | .blockhashValid => false

/-- A failure of the submission. -/
def RunError.isSubmission : RunError → Bool
  | .propose (.submission _) => true
  | _ => false

/-- A failure of the settings: what is given is missing, unreadable, malformed or out of range. -/
def RunError.isSetting : RunError → Bool
  | .config _ | .loggingOffset _ | .commitment _ => true
  | .propose (.configuration _) | .propose (.resolution _) | .propose (.invalidAddress _ _) => true
  | _ => false

theorem RunError.isSubmission_of_isSetting {e : RunError} (h : e.isSetting = true) :
    e.isSubmission = false := by
  unfold RunError.isSubmission
  split
  · cases h
  · rfl

/-! ## Failures before the submission -/

theorem PayeeInput.load_eq_error {files : Files} {arguments : ProposeArguments}
    {configured : Option String} {state : String} {e : ProposeError}
    (h : load files arguments configured state = .error e) :
    (∃ fault, e = .configuration fault) ∨ ∃ error, e = .resolution error := by
  unfold load at h
  cases harg : arguments.input with
  | some argument =>
    rw [harg] at h
    rcases bind_eq_error.mp (bind_pure_eq_error.mp h) with h | ⟨s, -, h⟩
    · simp only [textOf] at h
      split at h
      · cases h
      · obtain ⟨error, -, rfl⟩ := mapError_eq_error.mp h
        exact .inl ⟨_, rfl⟩
    · obtain ⟨failure, -, rfl⟩ := mapError_eq_error.mp h
      exact .inl ⟨_, rfl⟩
  | none =>
    rw [harg] at h
    have h := bind_pure_eq_error.mp h
    cases hpath : arguments.description.or configured with
    | none =>
      rw [hpath] at h
      exact .inl ⟨_, (Except.error.inj h).symm⟩
    | some path =>
      rw [hpath] at h
      rcases bind_eq_error.mp h with h | ⟨deployment, -, h⟩
      · obtain ⟨error, -, rfl⟩ := mapError_eq_error.mp h
        exact .inr ⟨error, rfl⟩
      · obtain ⟨error, -, rfl⟩ := mapError_eq_error.mp h
        exact .inr ⟨error, rfl⟩

theorem Wallet.load_eq_error {environment : Option String} {configured : String}
    {e : ProposeError} (h : load environment configured = .error e) :
    ∃ fault, e = .configuration fault := by
  unfold load at h
  split at h
  · obtain ⟨error, -, rfl⟩ := mapError_eq_error.mp h
    exact ⟨_, rfl⟩
  · split at h
    · obtain ⟨error, -, rfl⟩ := mapError_eq_error.mp h
      exact ⟨_, rfl⟩
    · exact ⟨_, (Except.error.inj h).symm⟩

theorem Build.outcome_ne_submission {chain : Chain} {encoder : Encoder} {request : Request}
    {signer : Address} (error : SubmissionError) :
    outcome chain encoder request signer ≠ .error (.submission error) := by
  intro h
  rcases outcome_eq_error h with ⟨text, reason, he⟩ | ⟨reason, failed, he⟩ | ⟨table, h⟩
  · cases he
  · cases he
  · rcases encodeOrdered_eq_error h with h | ⟨payees, reason, -, -, he⟩
    · simpa using orderedPayees_eq_error h
    · cases he

namespace Command

variable {s : Surroundings} {config : Config} {line : CommandLine} {p : Prepared}
  {arguments : ProposeArguments} {e : RunError}

theorem isSetting_of_configure {path : Option String} (h : configure s path = .error e) :
    e.isSetting = true := by
  rcases bind_eq_error.mp h with h | ⟨config, -, h⟩
  · obtain ⟨error, -, rfl⟩ := mapError_eq_error.mp h
    rfl
  · obtain ⟨-, rfl⟩ := LoggingConfig.check_eq_error_iff.mp (bind_pure_eq_error.mp h)
    rfl

theorem isSetting_of_prepare (h : prepare s config arguments = .error e) :
    e.isSetting = true := by
  rcases bind_eq_error.mp h with h | ⟨parameters, -, h⟩
  · obtain ⟨error, herror, rfl⟩ := mapError_eq_error.mp h
    obtain ⟨stage, hfails⟩ := Parameters.fails_of_resolve_eq_error herror
    cases hfails <;> rfl
  rcases bind_eq_error.mp h with h | ⟨input, -, h⟩
  · obtain ⟨error, herror, rfl⟩ := mapError_eq_error.mp h
    rcases PayeeInput.load_eq_error herror with ⟨fault, rfl⟩ | ⟨reason, rfl⟩
    · rfl
    · rfl
  rcases bind_eq_error.mp h with h | ⟨wallet, -, h⟩
  · obtain ⟨error, herror, rfl⟩ := mapError_eq_error.mp h
    obtain ⟨fault, rfl⟩ := Wallet.load_eq_error herror
    rfl
  · obtain ⟨name, -, rfl⟩ := mapError_eq_error.mp (bind_pure_eq_error.mp h)
    rfl

theorem isSubmission_of_build {chain : Chain} {encoder : Encoder} {request : Request}
    {signer : Address} {d : ProposeError}
    (h : (Build.run chain encoder request signer).result = .error d) :
    (RunError.propose d).isSubmission = false := by
  rw [Build.result_run] at h
  cases d with
  | submission error => exact absurd h (Build.outcome_ne_submission error)
  | _ => rfl

theorem isSetting_of_unprepared (h : Unprepared s line e) : e.isSetting = true := by
  cases h with
  | configuration h => exact isSetting_of_configure h
  | preparation _ h => exact isSetting_of_prepare h

/-! ## How far the flags do not matter -/

/-- A command line comes to no instruction: nothing can be prepared for it, or no instruction can be
built from what is prepared. Given are the error and the requests that have been made by then. -/
inductive Stops (s : Surroundings) (line : CommandLine) : RunError → List Call → Prop
  | unprepared {e : RunError} (h : Unprepared s line e) : Stops s line e []
  | unbuilt {p : Prepared} {d : ProposeError} (hprepares : Prepares s line p)
    (h : (Build.run (p.endpoint.connect s.network).accounts p.encoder p.request
      p.wallet.address).result = .error d) : Stops s line (.propose d) (lookups s p)

theorem stops_or_builds (s : Surroundings) (line : CommandLine) :
    (∃ e calls, Stops s line e calls) ∨ ∃ p i, Prepares s line p ∧ Builds s p [i] := by
  rcases unprepared_or_prepares s line with ⟨e, h⟩ | ⟨p, hprepares⟩
  · exact .inl ⟨e, [], .unprepared h⟩
  · cases hbuild : (Build.run (p.endpoint.connect s.network).accounts p.encoder p.request
        p.wallet.address).result with
    | error d => exact .inl ⟨_, _, .unbuilt hprepares hbuild⟩
    | ok instructions =>
      have hbuilds : Builds s p instructions := hbuild
      obtain ⟨payees, -, rfl⟩ := exists_of_builds hbuilds
      exact .inr ⟨p, _, hprepares, hbuilds⟩

theorem isAccountInfo_of_accountCalls {c : Connection} {reads : List Address} :
    ∀ call ∈ c.accountCalls reads, call.isAccountInfo = true := by
  intro call hcall
  unfold Connection.accountCalls at hcall
  split at hcall
  · obtain ⟨a, -, rfl⟩ := List.mem_map.mp hcall
    rfl
  · cases hcall

namespace Stops

variable {calls : List Call}

theorem isSubmission_eq_false (h : Stops s line e calls) : e.isSubmission = false := by
  cases h with
  | unprepared h => exact RunError.isSubmission_of_isSetting (isSetting_of_unprepared h)
  | unbuilt _ h => exact isSubmission_of_build h

theorem isAccountInfo (h : Stops s line e calls) : ∀ call ∈ calls, call.isAccountInfo = true := by
  cases h with
  | unprepared _ => simp
  | unbuilt _ _ => exact isAccountInfo_of_accountCalls

theorem not_builds (h : Stops s line e calls) (hprepares : Prepares s line p)
    (instructions : List Instruction) : ¬ Builds s p instructions := by
  intro hbuilds
  cases h with
  | unprepared h => exact h.not_prepares p hprepares
  | unbuilt hprepares' h =>
    cases hprepares.unique hprepares'
    cases h.symm.trans hbuilds

/-- Where a line comes to no instruction, the flags do not matter. -/
theorem runLine_withFlags (h : Stops s line e calls) (dryRun yes : Bool) :
    runLine s (line.withFlags dryRun yes) = ⟨.error e, "", calls, []⟩ := by
  cases h with
  | unprepared h =>
    -- nothing that is prepared hangs on the flags
    have hsame : Unprepared s (line.withFlags dryRun yes) e := by
      cases h with
      | configuration h => exact .configuration h
      | preparation hconfig h => exact .preparation hconfig h
    exact runLine_of_unprepared hsame
  | unbuilt hprepares h =>
    have hsame : Prepares s (line.withFlags dryRun yes) _ := hprepares
    rw [runLine_of_prepares hsame, propose_eq_error h]

end Stops

/-- Once an instruction is built, the flags decide how a run goes on with it. -/
theorem runLine_of_builds {instructions : List Instruction} (hprepares : Prepares s line p)
    (hbuilds : Builds s p instructions) (dryRun yes : Bool) :
    runLine s (line.withFlags dryRun yes) =
      finish s (line.withFlags dryRun yes).arguments p (p.endpoint.connect s.network)
        instructions (lookups s p) := by
  have hsame : Prepares s (line.withFlags dryRun yes) p := hprepares
  rw [runLine_of_prepares hsame, propose_eq_finish hbuilds]

theorem runLine_dry {instructions : List Instruction} (hprepares : Prepares s line p)
    (hbuilds : Builds s p instructions) (yes : Bool) :
    runLine s (line.withFlags true yes) =
      ⟨.ok (), printInstructions instructions, lookups s p, []⟩ := by
  rw [runLine_of_builds hprepares hbuilds]
  rfl

theorem runLine_real {instructions : List Instruction} (hprepares : Prepares s line p)
    (hbuilds : Builds s p instructions) :
    runLine s (line.withFlags false true) =
      submit (p.endpoint.connect s.network) p instructions "" (lookups s p) := by
  rw [runLine_of_builds hprepares hbuilds]
  rfl

/-! ## What a dry run foretells -/

/-- The dry run ends well, has made the requests that building makes, and prints one report; the
report tells of the instruction that has been built, and whatever the real run sends carries that
instruction. -/
structure Shows (s : Surroundings) (p : Prepared) (built : Instruction) (dry real : Run) :
    Prop where
  result : dry.result = .ok ()
  calls : dry.calls = lookups s p
  report : ∃ report, InstructionReport.ofJson dry.output = .ok [report] ∧
    report.instruction? = some built
  sent : ∀ bytes ∈ real.sent, ∃ t, Transaction.read? bytes = some t ∧
    Carries t built p.wallet.address

/-- A line that comes to no instruction fails in the same way dry and real, with the requests made
by then. One that builds its instruction ends well when it is dry, and shows the instruction; the
real one can then only fail to submit it. The dry run makes the same requests for accounts as the
real one, and no others; and it sends nothing. -/
structure Foretells (s : Surroundings) (line : CommandLine) (dry real : Run) : Prop where
  stops : ∀ e calls, Stops s line e calls → dry = ⟨.error e, "", calls, []⟩ ∧ real = dry
  stopped : ∀ e, dry.result = .error e → ∃ calls, Stops s line e calls
  fails : ∀ e, dry.result = .error e ↔ real.result = .error e ∧ e.isSubmission = false
  builds : ∀ p i, Prepares s line p → Builds s p [i] → Shows s p i dry real
  built : dry.result = .ok () → ∃ p i, Prepares s line p ∧ Builds s p [i]
  reads : ∃ later, real.calls = dry.calls ++ later ∧
    (∀ call ∈ dry.calls, call.isAccountInfo = true) ∧
    ∀ call ∈ later, call.isAccountInfo = false
  silent : dry.sent = []
  sends : real.sent ≠ [] → dry.result = .ok ()

/-- A line that comes to no instruction is foretold by any run that fails like it. -/
theorem foretells_of_stops {calls : List Call} (h : Stops s line e calls) :
    Foretells s line ⟨.error e, "", calls, []⟩ ⟨.error e, "", calls, []⟩ where
  stops := by
    intro e' calls' h'
    have hsame := (h.runLine_withFlags true true).symm.trans (h'.runLine_withFlags true true)
    exact ⟨hsame, rfl⟩
  stopped := by
    intro e' he
    cases he
    exact ⟨calls, h⟩
  fails := by
    intro d
    constructor
    · intro hd
      cases hd
      exact ⟨rfl, h.isSubmission_eq_false⟩
    · exact And.left
  builds := fun p i hprepares hbuilds => absurd hbuilds (h.not_builds hprepares [i])
  built := nofun
  reads := ⟨[], (List.append_nil _).symm, h.isAccountInfo, by simp⟩
  silent := rfl
  sends := fun h => absurd rfl h

theorem isAccountInfo_of_await {fate : Fate} {t : Transaction} {polls : Nat} :
    ∀ call ∈ (Submission.await fate t polls).2, call.isAccountInfo = false := by
  induction polls with
  | zero =>
    cases fate <;> cases hs : t.signatures <;> simp [Submission.await, hs, Call.isAccountInfo]
  | succ polls ih =>
    intro call hcall
    rcases List.mem_cons.mp hcall with rfl | hcall
    · rfl
    · rcases List.mem_cons.mp hcall with rfl | hcall
      · rfl
      · exact ih call hcall

theorem isAccountInfo_of_submit {c : Connection} {wallet : Keypair}
    {instructions : List Instruction} :
    ∀ call ∈ (Submission.submit c wallet instructions).calls, call.isAccountInfo = false := by
  have hsend : ∀ node t, ∀ call ∈ (Submission.send node t).calls, call.isAccountInfo = false := by
    intro node t call hcall
    unfold Submission.send at hcall
    split at hcall
    · rw [List.mem_singleton.mp hcall]
      rfl
    · rcases List.mem_cons.mp hcall with rfl | hcall
      · rfl
      · exact isAccountInfo_of_await call hcall
  unfold Submission.submit
  split
  · simp
  · cases c.node with
    | none => simp
    | some node =>
      cases hhash : node.blockhash.bind Blockhash.parse? with
      | none => simp [hhash, Call.isAccountInfo]
      | some blockhash =>
        simp only [hhash, Submission.signAndSend]
        intro call hcall
        rcases List.mem_cons.mp hcall with rfl | hcall
        · rfl
        · split at hcall
          · cases hcall
          · exact hsend _ _ call hcall

/-- What is sent for an instruction that has been built. -/
theorem carries_of_sent {i : Instruction} {calls : List Call} {shown : String}
    (hbuilds : Builds s p [i]) {bytes : List UInt8}
    (h : bytes ∈ (submit (p.endpoint.connect s.network) p [i] shown calls).sent) :
    ∃ t, Transaction.read? bytes = some t ∧ Carries t i p.wallet.address := by
  have hsigned := (propose_of_builds hbuilds).signedBy
  rw [sent_submit] at h
  rcases Submission.submit_cases (p.endpoint.connect s.network) p.wallet [i] with
    ⟨-, hnone⟩ | ⟨node, blockhash, t, -, hsign, hone, -⟩
  · rw [hnone] at h
    cases h
  · rw [Transaction.sign?_compile hsigned] at hsign
    obtain rfl := Option.some.inj hsign
    rw [hone] at h
    obtain rfl := List.mem_singleton.mp h
    exact ⟨_, read?_of_builds hbuilds blockhash, carries_ofInstructions hsigned blockhash⟩

theorem shows_of_builds {i : Instruction} (hbuilds : Builds s p [i]) :
    Shows s p i ⟨.ok (), printInstructions [i], lookups s p, []⟩
      (submit (p.endpoint.connect s.network) p [i] "" (lookups s p)) where
  result := rfl
  calls := rfl
  report := ⟨_, InstructionReport.ofJson_print _, InstructionReport.instruction?_ofInstruction i⟩
  sent := fun _ => carries_of_sent hbuilds

/-- A run that has built its instruction is foretold by the dry one. -/
theorem foretells_of_builds {i : Instruction} (hprepares : Prepares s line p)
    (hbuilds : Builds s p [i]) :
    Foretells s line ⟨.ok (), printInstructions [i], lookups s p, []⟩
      (submit (p.endpoint.connect s.network) p [i] "" (lookups s p)) where
  stops := fun e calls h => absurd hbuilds (h.not_builds hprepares [i])
  stopped := nofun
  fails := by
    intro e
    constructor
    · intro h
      cases h
    · rintro ⟨h, he⟩
      -- the only error that is left is one of the submission
      cases hresult : (Submission.submit (p.endpoint.connect s.network) p.wallet [i]).result with
      | error d =>
        rw [submit_of_error hresult] at h
        cases h
        cases he
      | ok signature =>
        simp only [submit, hresult] at h
        cases h
  builds := by
    intro p' i' hprepares' hbuilds'
    cases hprepares.unique hprepares'
    cases hbuilds.symm.trans hbuilds'
    exact shows_of_builds hbuilds
  built := fun _ => ⟨p, i, hprepares, hbuilds⟩
  reads := ⟨_, calls_submit, isAccountInfo_of_accountCalls, isAccountInfo_of_submit⟩
  silent := rfl
  sends := fun _ => rfl

/-- A command line as a dry run foretells the same one as a run that submits without asking. -/
theorem dry_foretells_real (s : Surroundings) (line : CommandLine) :
    Foretells s line (runLine s (line.withFlags true line.arguments.yes))
      (runLine s (line.withFlags false true)) := by
  rcases stops_or_builds s line with ⟨e, calls, hstops⟩ | ⟨p, i, hprepares, hbuilds⟩
  · rw [hstops.runLine_withFlags, hstops.runLine_withFlags]
    exact foretells_of_stops hstops
  · rw [runLine_dry hprepares hbuilds, runLine_real hprepares hbuilds]
    exact foretells_of_builds hprepares hbuilds

/-- The dry run shows the instruction that the real one sends. -/
theorem dry_foretells_real_landed :
    let wallet := Keypair.ofSeed ⟨List.replicate 32 0, List.length_replicate⟩
    let s := Landing.surroundings wallet
    let line := Landing.commandLine true
    let p := Landing.prepared true wallet
    let i := Landing.instruction wallet
    let dry := runLine s (line.withFlags true false)
    let real := runLine s (line.withFlags false true)
    Prepares s line p ∧ Builds s p [i] ∧ Shows s p i dry real ∧
      real.result = .ok () ∧
      ∃ bytes t, real.sent = [bytes] ∧ Transaction.read? bytes = some t ∧
        Carries t i wallet.address := by
  intro wallet s line p i dry real
  have hprepares := (Landing.ready true wallet).prepares
  have hbuilds := Landing.builds wallet
  have hshows := (dry_foretells_real s line).builds p i hprepares hbuilds
  obtain ⟨blockhash, hlands⟩ := Landing.lands wallet "" (lookups s p)
  have hreal : real = submit (p.endpoint.connect s.network) p [i] "" (lookups s p) :=
    runLine_real hprepares hbuilds
  rw [hlands] at hreal
  have hsent : real.sent = [(Transaction.ofInstructions wallet [i] blockhash).encode] := by
    rw [hreal]
  obtain ⟨t, hread, hcarries⟩ := hshows.sent _ (hsent ▸ List.mem_singleton.mpr rfl)
  exact ⟨hprepares, hbuilds, hshows, by rw [hreal], _, t, hsent, hread, hcarries⟩

end Command

end PayeeProposal
