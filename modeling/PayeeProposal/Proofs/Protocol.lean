import PayeeProposal.Proofs.RunStages

/-!
# The protocol of a run

A run reports the first of its stages that fails. The calls that it makes are the first parts of a
fixed protocol, as many as the stage allows at which it ends; it makes none before its words, its
settings and its list of payees have been checked.
-/

namespace PayeeProposal.Command

open Traversal

/-- How many parts of the protocol a run has gone through when it ends at a stage. -/
def Stage.depth : Stage → Nat
  | .arguments | .configuration | .logging | .parameters _ | .input | .wallet | .commitment => 0
  | .building .addresses | .building .duplicates => 0
  | .building .eligibility => 1
  | .building _ | .consent => 2
  | .submission stage => 2 + stage.depth

/-- The calls of a run in parts, for the payees of the assignments, the proposal, the commitment
level, and the number of rounds in which a node knows nothing of the transaction yet. -/
def protocol (payees : List Address) (proposal : Address) (c : Commitment) (polls : Nat) :
    List (List Call) :=
  [payees.map fun a => .accountInfo a c, [.accountInfo proposal c], [.latestBlockhash c],
    [.sendTransaction], Submission.waiting polls ++ [.signatureStatuses], [.blockhashValid]]

/-- The calls to a node that knows at once what has become of a transaction. -/
example (payees : List Address) (proposal : Address) (c : Commitment) :
    protocol payees proposal c 0 =
      [payees.map fun a => .accountInfo a c, [.accountInfo proposal c], [.latestBlockhash c],
        [.sendTransaction], [.signatureStatuses], [.blockhashValid]] := rfl

/-- Calls to a node are, in some order, the first parts of the protocol. -/
def Makes (argv : List String) (s : Surroundings) (node : Node) : Nat → List Call → Prop
  | 0, calls => calls = []
  | k + 1, calls =>
    ∃ line config p payees, Ready argv s line config p ∧ p.input.PayeesAt payees ∧ calls.Perm
      ((protocol payees p.parameters.proposal p.endpoint.commitment node.polls).take
        (k + 1)).flatten

/-- A run has ended at a stage with an error. -/
structure StopsAt (argv : List String) (s : Surroundings) (node : Node) (stage : Stage)
    (e : RunError) : Prop where
  result : (run argv s).result = .error e
  calls : Makes argv s node stage.depth (run argv s).calls
  silent : (run argv s).calls = [] ↔ stage.depth = 0

/-- A run has come to its end: a dry one with the accounts read, another one with a transaction
that has landed. -/
structure Completes (argv : List String) (s : Surroundings) (node : Node) : Prop where
  result : (run argv s).result = .ok ()
  calls : ∃ line, CommandLine.parse argv = .ok line ∧
    Makes argv s node (if line.arguments.dryRun then 2 else 5) (run argv s).calls
  nonempty : (run argv s).calls ≠ []

/-- A node answers every request for an account, if only with an error. -/
def Answers (node : Node) : Prop :=
  ∀ a, node.accounts a ≠ .crashed

/-- The node at the address that a run takes its node from, if it comes so far. -/
def Reaches (argv : List String) (s : Surroundings) (node : Node) : Prop :=
  ∀ line config, Given argv s line config →
    s.network.node? (Endpoint.urlOf config.global s.environment.rpcUrl) = some node

variable {argv : List String} {s : Surroundings} {node : Node} {line : CommandLine}
  {config : Config} {p : Prepared} {e : RunError}

/-! ## The calls -/

theorem flatten_take_protocol (payees : List Address) (proposal : Address) (c : Commitment)
    (polls k : Nat) :
    ((protocol payees proposal c polls).take (2 + k)).flatten =
      (payees ++ [proposal]).map (fun a => .accountInfo a c) ++
        ((Submission.requests c polls).take k).flatten := by
  have hrequests : (protocol payees proposal c polls).drop 2 = Submission.requests c polls := rfl
  rw [List.take_add, hrequests, List.flatten_append]
  simp [protocol]

/-- A run that has read the proposal makes calls. -/
theorem Makes.ne_nil {k : Nat} {calls : List Call} (h : Makes argv s node (2 + k) calls) :
    calls ≠ [] := by
  rintro rfl
  rw [Nat.add_comm] at h
  obtain ⟨line, config, p, payees, -, -, hperm⟩ := h
  rw [show k + 1 + 1 = 2 + k by omega, flatten_take_protocol] at hperm
  simpa using hperm.length_eq

/-- Calls that are made once a run is ready and has read the proposal. -/
theorem Ready.makes (h : Ready argv s line config p) {rs : List Address} {calls : List Call}
    {k : Nat} (hreads : ∃ as, p.input.PayeesAt as ∧ rs = as ++ [p.parameters.proposal])
    (hcalls : calls = rs.map (fun a => .accountInfo a p.endpoint.commitment) ++
      ((Submission.requests p.endpoint.commitment node.polls).take k).flatten) :
    Makes argv s node (2 + k) calls := by
  obtain ⟨as, has, rfl⟩ := hreads
  rw [hcalls, ← flatten_take_protocol, Nat.add_comm]
  exact ⟨line, config, p, as, h, has, .rfl⟩

theorem Ready.makes_reads (h : Ready argv s line config p) {rs : List Address} {calls : List Call}
    (hreads : ∃ as, p.input.PayeesAt as ∧ rs = as ++ [p.parameters.proposal])
    (hcalls : calls = rs.map fun a => .accountInfo a p.endpoint.commitment) :
    Makes argv s node (2 + 0) calls :=
  h.makes hreads (hcalls.trans (List.append_nil _).symm)

/-- A run that stops after it has read the proposal. -/
theorem StopsAt.of_makes {stage : Stage} {k : Nat} (hdepth : stage.depth = 2 + k)
    (hresult : (run argv s).result = .error e)
    (hmakes : Makes argv s node (2 + k) (run argv s).calls) :
    StopsAt argv s node stage e := by
  refine ⟨hresult, hdepth ▸ hmakes, iff_of_false hmakes.ne_nil ?_⟩
  omega

theorem StopsAt.of_silent {stage : Stage} (hdepth : stage.depth = 0)
    (h : run argv s = ⟨.error e, "", [], []⟩) : StopsAt argv s node stage e := by
  refine ⟨by rw [h], ?_, ?_⟩
  · rw [hdepth, h]
    rfl
  · rw [hdepth, h]
    exact iff_of_true rfl rfl

/-! ## Behind the settings -/

theorem accounts_connect {endpoint : Endpoint} {network : Network}
    (h : network.node? endpoint.url = some node) :
    (endpoint.connect network).accounts = node.accounts := by
  simp only [Connection.accounts, Endpoint.connect, h]

theorem accountCalls_connect {endpoint : Endpoint} {network : Network}
    (h : network.node? endpoint.url = some node) (rs : List Address) :
    (endpoint.connect network).accountCalls rs =
      rs.map fun a => .accountInfo a endpoint.commitment := by
  simp only [Connection.accountCalls, Endpoint.connect, h]

/-- A run that is not dry goes on with the answer to its question. -/
theorem finish_of_notDry {c : Connection} {instructions : List Instruction} {calls : List Call}
    (hnotDry : line.arguments.dryRun = false) :
    finish s line.arguments p c instructions calls =
      match (consent line.arguments p.parameters.proposal s.input).1 with
      | .error e =>
        ⟨.error e, (consent line.arguments p.parameters.proposal s.input).2, calls, []⟩
      | .ok () =>
        submit c p instructions (consent line.arguments p.parameters.proposal s.input).2 calls := by
  rw [finish, hnotDry]
  rcases consent line.arguments p.parameters.proposal s.input with ⟨_ | _, shown⟩
  · rfl
  · rfl

section Ready

variable (hready : Ready argv s line config p)
  (hnode : s.network.node? p.endpoint.url = some node)

include hready hnode

theorem run_of_build_error {e : ProposeError}
    (h : (Build.run node.accounts p.encoder p.request p.wallet.address).result = .error e) :
    run argv s = ⟨.error (.propose e), "",
      (Build.run node.accounts p.encoder p.request p.wallet.address).reads.map
        fun a => .accountInfo a p.endpoint.commitment, []⟩ := by
  rw [← accounts_connect hnode] at h ⊢
  rw [run_of_ready hready, propose_eq_error h, lookups, accountCalls_connect hnode]

theorem run_of_build_ok {instructions : List Instruction}
    (h : (Build.run node.accounts p.encoder p.request p.wallet.address).result =
      .ok instructions) :
    run argv s = finish s line.arguments p (p.endpoint.connect s.network) instructions
      ((Build.run node.accounts p.encoder p.request p.wallet.address).reads.map
        fun a => .accountInfo a p.endpoint.commitment) := by
  rw [← accounts_connect hnode] at h ⊢
  rw [run_of_ready hready, propose_eq_finish h, lookups, accountCalls_connect hnode]

theorem stopsAt_building {stage : Build.Stage} {e : ProposeError}
    (hfails : Build.Fails node.accounts p.encoder p.request p.wallet.address stage e)
    (hends : Build.EndsAt (Build.run node.accounts p.encoder p.request p.wallet.address)
      p.request stage e) :
    StopsAt argv s node (.building stage) (.propose e) := by
  have hrun := run_of_build_error hready hnode hends.result
  have hreads := hends.reads
  cases stage
  case addresses | duplicates =>
    refine .of_silent rfl ?_
    rw [hrun, show _ = [] from hreads]
    rfl
  case eligibility =>
    have hmakes : Makes argv s node 1 (run argv s).calls := by
      refine ⟨line, config, p, _, hready, hreads, ?_⟩
      rw [hrun]
      simp [protocol]
    refine ⟨by rw [hrun], hmakes, iff_of_false ?_ (by decide)⟩
    -- some payee is not eligible, so there is one
    cases hfails with
    | eligibility _ ho _ =>
      rw [hrun]
      obtain ⟨a, ha, -⟩ := exists_of_mem_left hreads ho
      exact List.ne_nil_of_mem (List.mem_map_of_mem ha)
  all_goals
    exact .of_makes rfl (by rw [hrun]) (hready.makes_reads hreads (by rw [hrun]))

/-- The stages of a run that submits what it has built. -/
theorem submission_course (hnotDry : line.arguments.dryRun = false) {i : Instruction}
    {rs : List Address} {shown : String} (hsigned : SignedBy p.wallet.address [i])
    (hreads : ∃ as, p.input.PayeesAt as ∧ rs = as ++ [p.parameters.proposal])
    (hrun : run argv s = submit (p.endpoint.connect s.network) p [i] shown
      (rs.map fun a => .accountInfo a p.endpoint.commitment)) :
    Course (Fails argv s node) (StopsAt argv s node) (Completes argv s node)
      (Submission.Stage.order.map .submission) := by
  have hcalls : ∀ k,
      (Submission.submit (p.endpoint.connect s.network) p.wallet [i]).calls =
          ((Submission.requests p.endpoint.commitment node.polls).take k).flatten →
        Makes argv s node (2 + k) (run argv s).calls := by
    intro k hk
    refine hready.makes hreads ?_
    rw [hrun, calls_submit, hk]
  have hcourse := Submission.submit_course (c := p.endpoint.connect s.network) hnode
    (List.cons_ne_nil i []) hsigned
  rw [← List.append_nil (List.map _ _)]
  refine hcourse.embed (fun _ _ => fails_submission_iff hready.given.parsed hnotDry)
    (fun stage e _ h => ?_) fun h => .finish ?_
  · refine .of_makes rfl ?_ (hcalls _ h.2)
    rw [hrun, submit_of_error h.1]
  · obtain ⟨⟨signature, hsignature⟩, htaken⟩ := h
    have hmakes := hcalls _ htaken
    refine ⟨?_, ⟨line, hready.given.parsed, ?_⟩, hmakes.ne_nil⟩
    · rw [hrun]
      simp only [submit, hsignature]
    · rwa [hnotDry]

/-- The last stages of a run, once the instruction has been built. -/
theorem finish_course
    (hbuilt : Build.Succeeds (Build.run node.accounts p.encoder p.request p.wallet.address)
      p.request) :
    Course (Fails argv s node) (StopsAt argv s node) (Completes argv s node)
      (.consent :: Submission.Stage.order.map .submission) := by
  obtain ⟨i, hresult⟩ := hbuilt.result
  have hrun := run_of_build_ok hready hnode hresult
  cases hdry : line.arguments.dryRun with
  | true =>
    rw [finish, hdry, if_pos rfl] at hrun
    have hmakes : Makes argv s node (2 + 0) (run argv s).calls :=
      hready.makes_reads hbuilt.reads (by rw [hrun])
    refine .skip (not_fails_of_dryRun hready.given.parsed hdry) ⟨by rw [hrun], ?_, hmakes.ne_nil⟩
    refine ⟨line, hready.given.parsed, ?_⟩
    rwa [hdry]
  | false =>
    refine .ask (fun _ => fails_consent_iff hready.given.parsed hdry p.parameters.proposal)
      (fun e h => ?_) fun _ h => ?_
    · rw [finish_of_notDry hdry, h] at hrun
      exact .of_makes rfl (by rw [hrun]) (hready.makes_reads hbuilt.reads (by rw [hrun]))
    · rw [finish_of_notDry hdry, h] at hrun
      have hbuilds : Builds s p [i] := by
        rw [Builds, accounts_connect hnode]
        exact hresult
      have hsigned := (propose_of_builds hbuilds).signedBy
      exact submission_course hready hnode hdry hsigned hbuilt.reads hrun

/-- The stages of a run that is ready. -/
theorem building_course (hserved : node.accounts p.parameters.proposal ≠ .crashed) :
    Course (Fails argv s node) (StopsAt argv s node) (Completes argv s node)
      (Build.Stage.order.map .building ++
        .consent :: Submission.Stage.order.map .submission) :=
  (Build.run_course node.accounts p.encoder p.request p.wallet.address hserved).embed
    (fun _ _ => fails_building_iff hready)
    (fun _ _ hfails hends => stopsAt_building hready hnode hfails hends)
    fun hbuilt => finish_course hready hnode hbuilt

end Ready

/-! ## All stages -/

theorem stopsAt_of_unprepared {stage : Stage} (hdepth : stage.depth = 0)
    (hline : CommandLine.parse argv = .ok line) (h : Unprepared s line e) :
    StopsAt argv s node stage e :=
  .of_silent hdepth (by rw [run_of_parse hline, runLine_of_unprepared h])

theorem stopsAt_of_prepare {stage : Stage} (hdepth : stage.depth = 0)
    (hgiven : Given argv s line config) (hlogging : config.global.logging.check = .ok ())
    (h : prepare s config line.arguments = .error e) : StopsAt argv s node stage e :=
  stopsAt_of_unprepared hdepth hgiven.parsed (.preparation (hgiven.configure hlogging) h)

/-- The stages of a run with a configuration. -/
theorem settings_course (hgiven : Given argv s line config)
    (hlogging : config.global.logging.check = .ok ())
    (hnode : s.network.node? (Endpoint.urlOf config.global s.environment.rpcUrl) = some node)
    (hanswers : Answers node) :
    Course (Fails argv s node) (StopsAt argv s node) (Completes argv s node)
      (Parameters.Stage.order.map .parameters ++ .input :: .wallet :: .commitment ::
        (Build.Stage.order.map .building ++
          .consent :: Submission.Stage.order.map .submission)) := by
  have hcourse := Parameters.resolve_course line.arguments config.program s.environment.link
  refine hcourse.embed (fun _ _ => fails_parameters_iff hgiven)
    (fun _ e _ h => stopsAt_of_prepare rfl hgiven hlogging ?_) ?_
  · simp only [prepare, mapError_eq_error.mpr ⟨e, h, rfl⟩, error_bind]
  rintro ⟨parameters, hparameters⟩
  refine .ask (fun _ => fails_input_iff hgiven hparameters)
    (fun e h => stopsAt_of_prepare rfl hgiven hlogging ?_) fun input hinput => ?_
  · simp only [prepare, mapError_eq_ok.mpr hparameters, ok_bind, h, error_bind]
  refine .ask (fun _ => fails_wallet_iff hgiven)
    (fun e h => stopsAt_of_prepare rfl hgiven hlogging ?_) fun wallet hwallet => ?_
  · simp only [prepare, mapError_eq_ok.mpr hparameters, hinput, ok_bind, h, error_bind]
  refine .ask (fun _ => fails_commitment_iff hgiven)
    (fun e h => stopsAt_of_prepare rfl hgiven hlogging ?_) fun commitment hcommitment => ?_
  · simp only [prepare, mapError_eq_ok.mpr hparameters, hinput, hwallet, ok_bind,
      Endpoint.require_eq, h, error_bind]
  · let url := Endpoint.urlOf config.global s.environment.rpcUrl
    have hready : Ready argv s line config ⟨parameters, input, wallet, ⟨url, commitment⟩⟩ :=
      ⟨hgiven, hlogging, hparameters, mapError_eq_ok.mp hinput, mapError_eq_ok.mp hwallet,
        mapError_eq_ok.mp hcommitment, rfl⟩
    exact building_course hready hnode (hanswers _)

/-- A run that talks to a node goes through its stages in order: it ends at the first one that
fails, with that stage's error, and has made the calls of the protocol up to there. -/
theorem run_follows_protocol (argv : List String) (s : Surroundings) (node : Node)
    (hreaches : Reaches argv s node) (hanswers : Answers node) :
    Course (Fails argv s node) (StopsAt argv s node) (Completes argv s node) Stage.order := by
  -- one stage after another, each with the value that the later ones go on with
  show Course (Fails argv s node) (StopsAt argv s node) (Completes argv s node)
    (.arguments :: .configuration :: .logging ::
      (Parameters.Stage.order.map .parameters ++ .input :: .wallet :: .commitment ::
        (Build.Stage.order.map .building ++ .consent :: Submission.Stage.order.map .submission)))
  refine .ask (fun _ => fails_arguments_iff) (fun e h => .of_silent rfl ?_) fun line hline => ?_
  · obtain ⟨error, herror, rfl⟩ := mapError_eq_error.mp h
    simp only [run, herror]
  have hline := mapError_eq_ok.mp hline
  refine .ask (fun _ => fails_configuration_iff hline)
    (fun e h => stopsAt_of_unprepared rfl hline (.configuration ?_)) fun config hconfig => ?_
  · simp only [configure, h, error_bind]
  have hgiven : Given argv s line config := ⟨hline, mapError_eq_ok.mp hconfig⟩
  refine .ask (fun _ => fails_logging_iff hgiven)
    (fun e h => stopsAt_of_unprepared rfl hline (.configuration ?_)) fun _ hlogging => ?_
  · simp only [configure, hconfig, ok_bind, h, error_bind]
  · exact settings_course hgiven hlogging (hreaches line config hgiven) hanswers

/-- A payee without an account is allowed, the proposal has room for it, and the transaction
lands. -/
theorem run_follows_protocol_landed :
    let wallet := Keypair.ofSeed ⟨List.replicate 32 0, List.length_replicate⟩
    let argv := Landing.words true
    let s := Landing.surroundings wallet
    Reaches argv s Landing.node ∧ Answers Landing.node ∧ Completes argv s Landing.node ∧
      (run argv s).calls = [.accountInfo .systemProgram .confirmed,
        .accountInfo .tokenProgram .confirmed, .latestBlockhash .confirmed, .sendTransaction,
        .signatureStatuses, .blockhashValid, .signatureStatuses] := by
  intro wallet argv s
  have hready := Landing.ready true wallet
  have hreaches : Reaches argv s Landing.node := by
    intro line config h
    obtain ⟨rfl, rfl⟩ := h.unique hready.given
    rw [← hready.url]
    rfl
  have hanswers : Answers Landing.node := by
    intro a
    show (if a = Address.tokenProgram then _ else _) ≠ _
    split <;> nofun
  obtain ⟨output, sent, hrun⟩ := Landing.run_eq wallet
  refine ⟨hreaches, hanswers, ?_, by rw [hrun]⟩
  rcases (run_follows_protocol argv s Landing.node hreaches hanswers).stops_or_complete with
    ⟨_, -, _, -, hstops⟩ | hcompletes
  · have hresult := hstops.result
    rw [hrun] at hresult
    cases hresult
  · exact hcompletes

end PayeeProposal.Command
