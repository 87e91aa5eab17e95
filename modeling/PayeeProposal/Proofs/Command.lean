import PayeeProposal.Command
import PayeeProposal.Proofs.Build
import PayeeProposal.Proofs.Prompt
import PayeeProposal.Proofs.Submission

/-!
# Runs

A run that sends a transaction was not a dry run, was agreed to, and sends nothing but the one
instruction that was built. A run that ends well without being dry has sent it, and the node has
carried it out.
-/

namespace PayeeProposal.Command

variable {s : Surroundings} {line : CommandLine} {p : Prepared} {instructions : List Instruction}

/-! ## How far a run gets -/

/-- What a command line leads to in its surroundings, before it looks at the chain. -/
def Prepares (s : Surroundings) (line : CommandLine) (p : Prepared) : Prop :=
  ∃ config, configure s line.config = .ok config ∧ prepare s config line.arguments = .ok p

/-- Nothing can be prepared for a command line: its configuration cannot be used, or something that
it needs is missing or malformed. -/
inductive Unprepared (s : Surroundings) (line : CommandLine) : RunError → Prop
  | configuration {e : RunError} (h : configure s line.config = .error e) : Unprepared s line e
  | preparation {config : Config} {e : RunError} (hconfig : configure s line.config = .ok config)
    (h : prepare s config line.arguments = .error e) : Unprepared s line e

theorem unprepared_or_prepares (s : Surroundings) (line : CommandLine) :
    (∃ e, Unprepared s line e) ∨ ∃ p, Prepares s line p := by
  cases hconfig : configure s line.config with
  | error e => exact .inl ⟨e, .configuration hconfig⟩
  | ok config =>
    cases hprepare : prepare s config line.arguments with
    | error e => exact .inl ⟨e, .preparation hconfig hprepare⟩
    | ok p => exact .inr ⟨p, config, hconfig, hprepare⟩

theorem Prepares.unique {p' : Prepared} (h : Prepares s line p) (h' : Prepares s line p') :
    p = p' := by
  obtain ⟨config, hconfig, hp⟩ := h
  obtain ⟨config', hconfig', hp'⟩ := h'
  cases hconfig.symm.trans hconfig'
  exact Except.ok.inj (hp.symm.trans hp')

theorem Unprepared.not_prepares {e : RunError} (h : Unprepared s line e) (p : Prepared) :
    ¬ Prepares s line p := by
  rintro ⟨config, hconfig, hp⟩
  cases h with
  | configuration h => cases h.symm.trans hconfig
  | preparation hconfig' h =>
    cases hconfig'.symm.trans hconfig
    cases h.symm.trans hp

theorem runLine_of_unprepared {e : RunError} (h : Unprepared s line e) :
    runLine s line = ⟨.error e, "", [], []⟩ := by
  cases h with
  | configuration h => simp only [runLine, h]
  | preparation hconfig h => simp only [runLine, hconfig, runWith, h]

theorem runLine_of_prepares (h : Prepares s line p) :
    runLine s line = propose s line.arguments p := by
  obtain ⟨config, hconfig, hp⟩ := h
  simp only [runLine, hconfig, runWith, hp]

theorem run_of_parse {argv : List String} (h : CommandLine.parse argv = .ok line) :
    run argv s = runLine s line := by
  simp only [run, h]

/-- What is built for a prepared run. -/
def Builds (s : Surroundings) (p : Prepared) (instructions : List Instruction) : Prop :=
  (Build.run (p.endpoint.connect s.network).accounts p.encoder p.request
    p.wallet.address).result = .ok instructions

/-- The requests for accounts that building makes for a prepared run. -/
def lookups (s : Surroundings) (p : Prepared) : List Call :=
  let c := p.endpoint.connect s.network
  c.accountCalls (Build.run c.accounts p.encoder p.request p.wallet.address).reads

theorem propose_eq_error {arguments : ProposeArguments} {e : ProposeError}
    (h : (Build.run (p.endpoint.connect s.network).accounts p.encoder p.request
      p.wallet.address).result = .error e) :
    propose s arguments p = ⟨.error (.propose e), "", lookups s p, []⟩ := by
  simp only [propose, h, lookups]

theorem propose_eq_finish {arguments : ProposeArguments} (h : Builds s p instructions) :
    propose s arguments p =
      finish s arguments p (p.endpoint.connect s.network) instructions (lookups s p) := by
  simp only [propose, show _ = _ from h, lookups]

/-- The submission is agreed to on the command line or by the first line of the input. -/
def Agreed (arguments : ProposeArguments) (input : List UInt8) : Prop :=
  arguments.yes = true ∨ Prompt.Affirms input

/-- What has been printed when a submission is agreed to. -/
def shownBefore (arguments : ProposeArguments) (proposal : Address) : String :=
  if arguments.yes then "" else Prompt.question (question proposal)

theorem consent_cases (arguments : ProposeArguments) (proposal : Address) (input : List UInt8) :
    (∃ e shown, consent arguments proposal input = (.error e, shown)) ∨
      Agreed arguments input ∧
        consent arguments proposal input = (.ok (), shownBefore arguments proposal) := by
  unfold consent shownBefore Agreed
  cases hyes : arguments.yes with
  | true => exact .inr ⟨.inl rfl, rfl⟩
  | false =>
    cases hask : (Prompt.ask input).1 with
    | error e => exact .inl ⟨_, _, rfl⟩
    | ok answer =>
      cases answer with
      | false => exact .inl ⟨_, _, rfl⟩
      | true => exact .inr ⟨.inr (Prompt.ask_eq_ok_true_iff.mp hask), rfl⟩

/-- A run fails with nothing sent, is dry, or submits what it has built and agreed on. -/
theorem run_cases (argv : List String) (s : Surroundings) :
    ((∃ e, (run argv s).result = .error e) ∧ (run argv s).sent = []) ∨
      ∃ line p instructions, CommandLine.parse argv = .ok line ∧ Prepares s line p ∧
        Builds s p instructions ∧
        (line.arguments.dryRun = true ∧ (run argv s).sent = [] ∨
          line.arguments.dryRun = false ∧ Agreed line.arguments s.input ∧
            ∃ calls, run argv s = submit (p.endpoint.connect s.network) p instructions
              (shownBefore line.arguments p.parameters.proposal) calls) := by
  cases hparse : CommandLine.parse argv with
  | error e =>
    have hrun : run argv s = ⟨.error (.usage e), "", [], []⟩ := by simp only [run, hparse]
    rw [hrun]
    exact .inl ⟨⟨_, rfl⟩, rfl⟩
  | ok line =>
    rw [run_of_parse hparse]
    rcases unprepared_or_prepares s line with ⟨e, hunprepared⟩ | ⟨p, hprepares⟩
    · rw [runLine_of_unprepared hunprepared]
      exact .inl ⟨⟨_, rfl⟩, rfl⟩
    · rw [runLine_of_prepares hprepares]
      cases hbuild : (Build.run (p.endpoint.connect s.network).accounts p.encoder p.request
          p.wallet.address).result with
      | error e =>
        rw [propose_eq_error hbuild]
        exact .inl ⟨⟨_, rfl⟩, rfl⟩
      | ok instructions =>
        rw [propose_eq_finish hbuild, finish]
        cases hdry : line.arguments.dryRun with
        | true =>
          right
          exact ⟨line, p, instructions, rfl, hprepares, hbuild, .inl ⟨hdry, rfl⟩⟩
        | false =>
          rcases consent_cases line.arguments p.parameters.proposal s.input with
            ⟨e, shown, hconsent⟩ | ⟨hagreed, hconsent⟩
          · rw [hconsent]
            exact .inl ⟨⟨_, rfl⟩, rfl⟩
          · rw [hconsent]
            right
            exact ⟨line, p, instructions, rfl, hprepares, hbuild, .inr ⟨hdry, hagreed, _, rfl⟩⟩

/-! ## What a run sends -/

/-- What is built is one instruction, for no more payees than a proposal has room for. -/
theorem exists_of_builds (h : Builds s p instructions) :
    ∃ payees, payees.length ≤ Proposal.maxOracles ∧
      instructions = [Instruction.proposePayees p.parameters.programId p.parameters.tokenMint payees
        p.parameters.proposal p.wallet.address] := by
  unfold Builds at h
  rw [Build.result_run] at h
  obtain ⟨proposal, payees, -, rfl, hcount, hle, -⟩ := Build.built_of_outcome h
  exact ⟨payees, hcount ▸ hle, rfl⟩

theorem propose_of_builds (h : Builds s p instructions) :
    Propose p.wallet.address instructions := by
  obtain ⟨payees, -, rfl⟩ := exists_of_builds h
  intro i hi
  exact ⟨_, _, payees, _, List.mem_singleton.mp hi⟩

theorem sized_of_builds (h : Builds s p instructions) : Sized instructions := by
  have hpropose := propose_of_builds h
  obtain ⟨payees, hle, rfl⟩ := exists_of_builds h
  have hle : payees.length ≤ 19 := hle
  refine hpropose.sized (by simp) ?_
  intro i hi
  obtain rfl := List.mem_singleton.mp hi
  show (Instruction.proposePayeesData _ payees).length < 0x10000
  rw [Instruction.length_proposePayeesData]
  omega

theorem length_keys_of_builds (h : Builds s p instructions) (blockhash : Blockhash) :
    (Message.compile p.wallet.address instructions blockhash).keys.length ≤ 256 := by
  obtain ⟨payees, -, rfl⟩ := exists_of_builds h
  refine Nat.le_trans Message.length_keys_le ?_
  show 3 + 1 ≤ 256
  decide

theorem read?_of_builds (h : Builds s p instructions) (blockhash : Blockhash) :
    Transaction.read? (Transaction.ofInstructions p.wallet instructions blockhash).encode =
      some (Transaction.ofInstructions p.wallet instructions blockhash) :=
  Transaction.read?_ofInstructions (sized_of_builds h) (propose_of_builds h).signedBy
    (length_keys_of_builds h blockhash)

/-- The message of a transaction holds one instruction, which calls the same program with the same
accounts and data as the one that was built. -/
structure Carries (t : Transaction) (built : Instruction) (payer : Address) : Prop where
  instruction : ∃ sent, t.message.instructions? = some [sent] ∧ sent.program = built.program ∧
    sent.accounts.map AccountRef.address = built.accounts.map AccountRef.address ∧
    sent.data = built.data
  payer : t.message.keys.head? = some payer
  signers : t.message.header.signers = 1

theorem carries_ofInstructions {wallet : Keypair} {built : Instruction}
    (h : SignedBy wallet.address [built]) (blockhash : Blockhash) :
    Carries (Transaction.ofInstructions wallet [built] blockhash) built wallet.address where
  instruction := by
    refine ⟨_, Message.instructions?_compile, rfl, ?_, rfl⟩
    simp [Message.readBack]
  payer := Message.head?_keys
  signers := h.signers

/-- A run stands behind a transaction: it is not dry, it was agreed to, and the transaction
carries the one instruction that was built, signed by the wallet alone. -/
structure Authorizes (s : Surroundings) (line : CommandLine) (p : Prepared) (t : Transaction) :
    Prop where
  notDry : line.arguments.dryRun = false
  agreed : Agreed line.arguments s.input
  prepared : Prepares s line p
  carries : ∃ built, Builds s p [built] ∧ Carries t built p.wallet.address

/-- A run succeeds with a transaction that a node has confirmed, and prints its first signature. -/
structure Reports (r : Run) (s : Surroundings) (line : CommandLine) (p : Prepared)
    (t : Transaction) : Prop where
  sent : r.sent = [t.encode]
  confirmed : ∃ node signature, s.network.node? p.endpoint.url = some node ∧
    Submission.Confirms node t signature ∧
    r.output = shownBefore line.arguments p.parameters.proposal ++
      SubmissionReport.print ⟨Base58.encode signature.bytes, p.parameters.state⟩ ++ "\n"

section Submit

variable {c : Connection} {shown : String} {calls : List Call}

theorem submit_of_error {e : SubmissionError}
    (h : (Submission.submit c p.wallet instructions).result = .error e) :
    (submit c p instructions shown calls).result = .error (.propose (.submission e)) := by
  simp only [submit, h]

theorem submit_of_ok {signature : Bytes.Fixed 64}
    (h : (Submission.submit c p.wallet instructions).result = .ok signature) :
    (submit c p instructions shown calls).output =
      shown ++ printSubmission signature p.parameters.state := by
  simp only [submit, h]

theorem sent_submit :
    (submit c p instructions shown calls).sent =
      (Submission.submit c p.wallet instructions).sent := by
  unfold submit
  cases hresult : (Submission.submit c p.wallet instructions).result with
  | error e => simp only [hresult]
  | ok signature => simp only [hresult]

theorem calls_submit :
    (submit c p instructions shown calls).calls =
      calls ++ (Submission.submit c p.wallet instructions).calls := by
  simp only [submit]
  split <;> rfl

theorem submit_eq_ok (h : (submit c p instructions shown calls).result = .ok ()) :
    ∃ signature, (Submission.submit c p.wallet instructions).result = .ok signature := by
  cases hresult : (Submission.submit c p.wallet instructions).result with
  | error e =>
    rw [submit_of_error hresult] at h
    cases h
  | ok signature => exact ⟨signature, rfl⟩

end Submit

/-- What has been built and agreed on is sent once or not at all, and only what a node confirms
is reported as done. -/
theorem submit_cases (hnotDry : line.arguments.dryRun = false)
    (hagreed : Agreed line.arguments s.input) (hprepares : Prepares s line p)
    (hbuilds : Builds s p instructions) {r : Run} {calls : List Call}
    (hr : r = submit (p.endpoint.connect s.network) p instructions
      (shownBefore line.arguments p.parameters.proposal) calls) :
    (r.sent = [] ∧ r.result ≠ .ok ()) ∨
      ∃ t, r.sent = [t.encode] ∧ Transaction.read? t.encode = some t ∧ Authorizes s line p t ∧
        (r.result = .ok () → Reports r s line p t) := by
  have hsigned := (propose_of_builds hbuilds).signedBy
  have hsent : r.sent =
      (Submission.submit (p.endpoint.connect s.network) p.wallet instructions).sent := by
    rw [hr, sent_submit]
  rcases Submission.submit_cases (p.endpoint.connect s.network) p.wallet instructions with
    ⟨⟨e, herror⟩, hnone⟩ | ⟨node, blockhash, t, hnode, hsign, hone, hconfirms⟩
  · left
    refine ⟨hsent.trans hnone, ?_⟩
    intro h
    rw [hr, submit_of_error herror] at h
    cases h
  · right
    -- the wallet is all that has to sign, so the transaction is the one for what was built
    rw [Transaction.sign?_compile hsigned] at hsign
    obtain rfl := Option.some.inj hsign
    obtain ⟨payees, -, rfl⟩ := exists_of_builds hbuilds
    refine ⟨_, hsent.trans hone, ?_, ⟨hnotDry, hagreed, hprepares, ?_⟩, ?_⟩
    · exact read?_of_builds hbuilds blockhash
    · exact ⟨_, hbuilds, carries_ofInstructions hsigned blockhash⟩
    · intro h
      rw [hr] at h
      obtain ⟨signature, hsignature⟩ := submit_eq_ok h
      refine ⟨hsent.trans hone, node, signature, hnode, (hconfirms signature).mp hsignature, ?_⟩
      rw [hr, submit_of_ok hsignature, printSubmission, String.append_assoc]

/-- A run sends one transaction at most, and only one that it stands behind; when it ends well
without being dry, it has sent one that was confirmed, and has printed its signature. -/
theorem run_authorizes (argv : List String) (s : Surroundings) :
    (run argv s).sent.length ≤ 1 ∧
      (∀ bytes ∈ (run argv s).sent, ∃ line p t, CommandLine.parse argv = .ok line ∧
        Transaction.read? bytes = some t ∧ Authorizes s line p t) ∧
      ((run argv s).result = .ok () → ∃ line, CommandLine.parse argv = .ok line ∧
        (line.arguments.dryRun = true ∨
          ∃ p t, Transaction.read? t.encode = some t ∧ Authorizes s line p t ∧
            Reports (run argv s) s line p t)) := by
  rcases run_cases argv s with
    ⟨⟨e, herror⟩, hsent⟩ | ⟨line, p, instructions, hparse, hprepares, hbuilds, hrun⟩
  · rw [hsent, herror]
    exact ⟨by simp, by simp, fun h => nomatch h⟩
  · rcases hrun with ⟨hdry, hsent⟩ | ⟨hnotDry, hagreed, calls, hrun⟩
    · rw [hsent]
      exact ⟨by simp, by simp, fun _ => ⟨line, hparse, .inl hdry⟩⟩
    · rcases submit_cases hnotDry hagreed hprepares hbuilds hrun with
        ⟨hsent, hresult⟩ | ⟨t, hsent, hread, hauthorizes, hreports⟩
      · rw [hsent]
        exact ⟨by simp, by simp, fun h => absurd h hresult⟩
      · refine ⟨by simp [hsent], ?_, ?_⟩
        · intro bytes hbytes
          rw [hsent] at hbytes
          obtain rfl := List.mem_singleton.mp hbytes
          exact ⟨line, p, t, hparse, hread, hauthorizes⟩
        · exact fun h => ⟨line, hparse, .inr ⟨p, t, hread, hauthorizes, hreports h⟩⟩

end PayeeProposal.Command
