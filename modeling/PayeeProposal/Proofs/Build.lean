import PayeeProposal.Proofs.Eligibility
import PayeeProposal.Proofs.Instruction
import PayeeProposal.Proofs.PayeeTable
import PayeeProposal.Proofs.Proposal

/-!
# When an instruction is built, and which

`outcome` is what building comes to, as one chain of steps that may fail; `Buildable` says what a
request needs, without the steps. A request is built exactly when it is buildable, into the one
instruction that gives the transmitter of each active slot the payee that is assigned to it.
-/

namespace PayeeProposal.Build

open Traversal

variable {chain : Chain} {encoder : Encoder} {program : Address} {request : Request}

/-! ## The parts of building -/

theorem after_bind {α β : Type} (t : Trace) (x : Part α) (f : α → Part β) :
    (x >>= f).after t =
      match x.after t with
      | (.ok a, t) => (f a).after t
      | (.error e, t) => (.error e, t) := by
  simp only [Part.after, ExceptT.run_bind, StateT.run_bind]
  show (match x.run.run t with | (r, t) => _) = _
  cases x.run.run t with
  | mk r t => cases r <;> rfl

theorem after_lift {α : Type} (t : Trace) (x : Except ProposeError α) :
    (liftM x : Part α).after t = (x, t) := by
  cases x <;> rfl

theorem after_checkPayees (chain : Chain) (request : Request) (t : Trace) :
    (checkPayees chain request).after t =
      (.ok (Eligibility.report chain request.tokenMint request.input.payees),
        { t with reads := t.reads ++ Eligibility.reads request.input.payees }) := by
  rw [← Eligibility.asked_checked chain request.tokenMint]
  rfl

theorem after_pass (input : PayeeInput) (report : EligibilityReport) (t : Trace) :
    (pass input report).after t =
      if report.allEligible then (.ok (), t)
      else if input.allowUnfunded then
        (.ok (), { t with unfunded := some report.failed.length })
      else (.error (.validation .unfundedPayees report.failed), t) := by
  unfold pass
  split
  · rfl
  · split <;> rfl

theorem after_fetchProposal (chain : Chain) (program proposal : Address) (t : Trace) :
    (fetchProposal chain program proposal).after t =
      (proposalIn program proposal (chain proposal),
        { t with reads := t.reads ++ [proposal] }) :=
  after_lift _ _

theorem after_encode (encoder : Encoder) (request : Request) (payees : List Address)
    (signer : Address) (t : Trace) :
    (encode encoder request payees signer).after t =
      ((encoder.encode request.tokenMint payees request.proposal signer).mapError .encode,
        { t with encoded := t.encoded + 1 }) :=
  after_lift _ _

/-- The report on the payees of a request. -/
def reportOn (chain : Chain) (request : Request) : EligibilityReport :=
  Eligibility.report chain request.tokenMint request.input.payees

/-- The payees in the order of the proposal that the chain holds. -/
def orderedPayees (chain : Chain) (program : Address) (request : Request) (table : PayeeTable) :
    Except ProposeError (List Address) := do
  let proposal ← proposalIn program request.proposal (chain request.proposal)
  table.order proposal.transmitters

/-- What building comes to once the payees have passed: the proposal has been read behind their
accounts, and the encoder has been asked if the payees could be put into order. -/
def afterCheck (chain : Chain) (encoder : Encoder) (request : Request) (signer : Address)
    (table : PayeeTable) (unfunded : Option Nat) : Build :=
  let reads := Eligibility.reads request.input.payees ++ [request.proposal]
  match orderedPayees chain encoder.program request table with
  | .error e => ⟨.error e, reads, 0, unfunded⟩
  | .ok payees =>
    match encoder.encode request.tokenMint payees request.proposal signer with
    | .error reason => ⟨.error (.encode reason), reads, 1, unfunded⟩
    | .ok instruction => ⟨.ok [instruction], reads, 1, unfunded⟩

theorem ofOutcome_proposeOrdered (chain : Chain) (encoder : Encoder) (request : Request)
    (signer : Address) (table : PayeeTable) (unfunded : Option Nat) :
    ofOutcome ((proposeOrdered chain encoder request signer table).after
        ⟨Eligibility.reads request.input.payees, 0, unfunded⟩) =
      afterCheck chain encoder request signer table unfunded := by
  simp only [proposeOrdered, after_bind, after_fetchProposal, after_lift, after_encode, afterCheck,
    orderedPayees]
  cases proposalIn encoder.program request.proposal (chain request.proposal) with
  | error e => rfl
  | ok proposal =>
    simp only [ok_bind]
    cases table.order proposal.transmitters with
    | error e => rfl
    | ok payees =>
      simp only
      cases encoder.encode request.tokenMint payees request.proposal signer with
      | error reason => rfl
      | ok instruction => rfl

theorem run_of_no_table {e : ProposeError} (h : PayeeTable.ofInput request.input = .error e)
    (signer : Address) : run chain encoder request signer = ⟨.error e, [], 0, none⟩ := by
  simp only [run, instructions, after_bind, after_lift, h]
  rfl

/-- With a table, building goes on exactly when the payees pass. -/
theorem run_of_table {table : PayeeTable} (h : PayeeTable.ofInput request.input = .ok table)
    (signer : Address) :
    run chain encoder request signer =
      if (reportOn chain request).allEligible then
        afterCheck chain encoder request signer table none
      else if request.input.allowUnfunded then
        afterCheck chain encoder request signer table (some (reportOn chain request).failed.length)
      else
        ⟨.error (.validation .unfundedPayees (reportOn chain request).failed),
          Eligibility.reads request.input.payees, 0, none⟩ := by
  simp only [run, instructions, after_bind, after_lift, h, after_checkPayees, after_pass]
  unfold reportOn
  cases (Eligibility.report chain request.tokenMint request.input.payees).allEligible with
  | true => exact ofOutcome_proposeOrdered chain encoder request signer table none
  | false =>
    cases request.input.allowUnfunded with
    | true => exact ofOutcome_proposeOrdered chain encoder request signer table (some _)
    | false => rfl

/-! ## The outcome as a chain of steps -/

/-- The instruction for payees that have passed, in the order of the proposal. -/
def encodeOrdered (chain : Chain) (encoder : Encoder) (request : Request) (signer : Address)
    (table : PayeeTable) : Except ProposeError (List Instruction) := do
  let payees ← orderedPayees chain encoder.program request table
  let instruction ←
    (encoder.encode request.tokenMint payees request.proposal signer).mapError .encode
  pure [instruction]

/-- Whether the payees of a request pass. -/
def passes (chain : Chain) (request : Request) : Bool :=
  (reportOn chain request).allEligible || request.input.allowUnfunded

/-- What building comes to, without what is read and asked on the way. -/
def outcome (chain : Chain) (encoder : Encoder) (request : Request) (signer : Address) :
    Except ProposeError (List Instruction) := do
  let table ← PayeeTable.ofInput request.input
  if passes chain request then encodeOrdered chain encoder request signer table
  else .error (.validation .unfundedPayees (reportOn chain request).failed)

theorem result_afterCheck (chain : Chain) (encoder : Encoder) (request : Request)
    (signer : Address) (table : PayeeTable) (unfunded : Option Nat) :
    (afterCheck chain encoder request signer table unfunded).result =
      encodeOrdered chain encoder request signer table := by
  unfold afterCheck encodeOrdered
  cases orderedPayees chain encoder.program request table with
  | error e => rfl
  | ok payees =>
    simp only [bind, Except.bind]
    cases encoder.encode request.tokenMint payees request.proposal signer <;> rfl

theorem result_run (chain : Chain) (encoder : Encoder) (request : Request) (signer : Address) :
    (run chain encoder request signer).result = outcome chain encoder request signer := by
  unfold outcome passes
  cases htable : PayeeTable.ofInput request.input with
  | error e =>
    rw [run_of_no_table htable]
    rfl
  | ok table =>
    rw [run_of_table htable, ok_bind]
    cases (reportOn chain request).allEligible with
    | true => exact result_afterCheck chain encoder request signer table none
    | false =>
      cases request.input.allowUnfunded with
      | true => exact result_afterCheck chain encoder request signer table _
      | false => rfl

theorem passes_iff :
    passes chain request = true ↔
      (∀ a ∈ request.input.operators, Eligible chain request.tokenMint a.payee) ∨
        request.input.allowUnfunded = true := by
  unfold passes reportOn
  rw [Bool.or_eq_true, Eligibility.allEligible_report_iff]
  simp [PayeeInput.payees]

theorem orderedPayees_eq_ok_iff {table : PayeeTable} {payees : List Address} :
    orderedPayees chain program request table = .ok payees ↔
      ∃ account p, chain request.proposal = .found account ∧ account.owner = program ∧
        Proposal.decode account.data = .ok p ∧ table.order p.transmitters = .ok payees := by
  unfold orderedPayees
  rw [bind_eq_ok]
  cases chain request.proposal with
  | absent => simp [proposalIn]
  | failed reason => simp [proposalIn]
  | crashed => simp [proposalIn]
  | found account =>
    by_cases howner : account.owner = program
    · cases hp : Proposal.decode account.data with
      | error e => simp [proposalIn, howner, hp, Except.mapError]
      | ok p => simp [proposalIn, howner, hp, Except.mapError]
    · simp [proposalIn, howner]

theorem encodeOrdered_eq_ok_iff {signer : Address} {table : PayeeTable}
    {is : List Instruction} :
    encodeOrdered chain encoder request signer table = .ok is ↔
      ∃ payees instruction, orderedPayees chain encoder.program request table = .ok payees ∧
        encoder.encode request.tokenMint payees request.proposal signer = .ok instruction ∧
        is = [instruction] := by
  unfold encodeOrdered
  rw [bind_eq_ok]
  refine exists_congr fun payees => ?_
  rw [bind_eq_ok, ← exists_and_left]
  refine exists_congr fun instruction => and_congr_right fun _ => ?_
  cases encoder.encode request.tokenMint payees request.proposal signer with
  | error reason => simp [Except.mapError]
  | ok i => simp [Except.mapError, pure, Except.pure, eq_comm]

theorem outcome_eq_ok_iff {signer : Address} {is : List Instruction} :
    outcome chain encoder request signer = .ok is ↔
      ∃ table, PayeeTable.ofInput request.input = .ok table ∧ passes chain request = true ∧
        encodeOrdered chain encoder request signer table = .ok is := by
  unfold outcome
  rw [bind_eq_ok]
  refine exists_congr fun table => and_congr_right fun _ => ?_
  cases passes chain request <;> simp

/-! ## Failures -/

/-- Without an order of the payees, there is no proposal to be had, or it lists a transmitter that
has no payee. -/
theorem orderedPayees_eq_error {table : PayeeTable} {e : ProposeError}
    (h : orderedPayees chain program request table = .error e) :
    (∃ reason, e = .rpc reason) ∨ e = .proposalNotFound request.proposal ∨
      (∃ owner, e = .proposalOwner request.proposal owner program) ∨
      (∃ error, e = .proposalDecode error) ∨ ∃ t, e = .missingPayee t := by
  unfold orderedPayees at h
  rcases bind_eq_error.mp h with h | ⟨p, -, h⟩
  · cases hlookup : chain request.proposal with
    | absent =>
      rw [hlookup] at h
      exact .inr (.inl (Except.error.inj h).symm)
    | failed reason =>
      rw [hlookup] at h
      exact .inl ⟨reason, (Except.error.inj h).symm⟩
    | crashed =>
      rw [hlookup] at h
      exact .inl ⟨_, (Except.error.inj h).symm⟩
    | found account =>
      rw [hlookup, proposalIn] at h
      by_cases howner : account.owner = program
      · rw [if_neg (not_not_intro howner)] at h
        obtain ⟨error, -, rfl⟩ := mapError_eq_error.mp h
        exact .inr (.inr (.inr (.inl ⟨error, rfl⟩)))
      · rw [if_pos howner] at h
        exact .inr (.inr (.inl ⟨account.owner, (Except.error.inj h).symm⟩))
  · obtain ⟨before, t, after, -, -, -, rfl⟩ := PayeeTable.order_eq_error h
    exact .inr (.inr (.inr (.inr ⟨t, rfl⟩)))

/-- Once the payees have passed, they cannot be ordered or are refused by the encoder. -/
theorem encodeOrdered_eq_error {signer : Address} {table : PayeeTable} {e : ProposeError}
    (h : encodeOrdered chain encoder request signer table = .error e) :
    orderedPayees chain encoder.program request table = .error e ∨
      ∃ payees reason, orderedPayees chain encoder.program request table = .ok payees ∧
        encoder.encode request.tokenMint payees request.proposal signer = .error reason ∧
        e = .encode reason := by
  unfold encodeOrdered at h
  rcases bind_eq_error.mp h with h | ⟨payees, hpayees, h⟩
  · exact .inl h
  · obtain ⟨reason, hreason, rfl⟩ := mapError_eq_error.mp (bind_pure_eq_error.mp h)
    exact .inr ⟨payees, reason, hpayees, hreason, rfl⟩

/-- Building fails for the input, or for its payees, or once the payees have passed. -/
theorem outcome_eq_error {signer : Address} {e : ProposeError}
    (h : outcome chain encoder request signer = .error e) :
    (∃ text reason, e = .invalidAddress text reason) ∨
      (∃ reason failed, e = .validation reason failed) ∨
      ∃ table, encodeOrdered chain encoder request signer table = .error e := by
  unfold outcome at h
  rcases bind_eq_error.mp h with h | ⟨table, -, h⟩
  · rcases PayeeTable.ofInput_eq_error h with ⟨text, reason, rfl⟩ | ⟨again, rfl⟩
    · exact .inl ⟨text, reason, rfl⟩
    · exact .inr (.inl ⟨_, again, rfl⟩)
  · split at h
    · exact .inr (.inr ⟨table, h⟩)
    · exact .inr (.inl ⟨_, _, (Except.error.inj h).symm⟩)

/-! ## What a request needs -/

/-- What a request needs for an instruction to be built from it; `p` is the proposal on the
chain. -/
structure Buildable (chain : Chain) (program : Address) (request : Request) (p : Proposal) :
    Prop where
  wellFormed : request.input.WellFormed
  distinct : request.input.Distinct
  funded : (∀ a ∈ request.input.operators, Eligible chain request.tokenMint a.payee) ∨
    request.input.allowUnfunded = true
  proposal : ∃ account, chain request.proposal = .found account ∧ account.owner = program ∧
    Proposal.decode account.data = .ok p
  assigned : ∀ o ∈ p.oracles.take p.len, ∃ a ∈ request.input.operators,
    Address.parseTrimmed a.transmitter = .ok o.transmitter

theorem order_of_buildable {p : Proposal} {table : PayeeTable}
    (h : Buildable chain program request p)
    (htable : PayeeTable.ofInput request.input = .ok table) :
    ∃ payees, table.order p.transmitters = .ok payees := by
  unfold PayeeTable.order
  rw [exists_mapM_eq_ok_iff]
  intro t ht
  obtain ⟨o, ho, rfl⟩ := List.mem_map.mp ht
  obtain ⟨a, ha, hat⟩ := h.assigned o ho
  obtain ⟨e, he⟩ := h.wellFormed a ha
  have hlookup : table.lookup o.transmitter = some e.2 :=
    (PayeeTable.lookup_ofInput htable).mpr ⟨a, ha, hat, he.2⟩
  exact ⟨e.2, by rw [hlookup]⟩

/-- The payee at a place is the one assigned to the transmitter of the slot at that place. -/
theorem assigns_of_order {p : Proposal} {table : PayeeTable} {payees : List Address}
    (htable : PayeeTable.ofInput request.input = .ok table)
    (horder : table.order p.transmitters = .ok payees) {i : Nat} (hi : i < payees.length) :
    ∃ o payee, (p.oracles.take p.len)[i]? = some o ∧ payees[i]? = some payee ∧
      request.input.Assigns o.transmitter payee := by
  have hrel := PayeeTable.order_eq_ok_iff.mp horder
  have hlen : i < p.transmitters.length := by rw [hrel.length_eq]; exact hi
  have hget := hrel.get hlen hi
  have hslot : i < (p.oracles.take p.len).length := by
    simpa [Proposal.transmitters, Proposal.activeOracles] using hlen
  refine ⟨(p.oracles.take p.len)[i], payees[i], List.getElem?_eq_getElem hslot,
    List.getElem?_eq_getElem hi, (PayeeTable.lookup_ofInput htable).mp ?_⟩
  simpa [Proposal.transmitters, Proposal.activeOracles] using hget

/-- A proposal has room for no more payees than an instruction can hold. -/
theorem length_orderedPayees {table : PayeeTable} {payees : List Address}
    (h : orderedPayees chain program request table = .ok payees) :
    payees.length ≤ Proposal.maxOracles := by
  obtain ⟨account, p, -, -, hdecode, horder⟩ := orderedPayees_eq_ok_iff.mp h
  rw [← (PayeeTable.order_eq_ok_iff.mp horder).length_eq,
    Proposal.length_transmitters_of_decode hdecode]
  exact Proposal.len_le_of_decode hdecode

/-- Payees that come from a proposal are not refused by the instruction format. -/
theorem encode_of_orderedPayees {table : PayeeTable} {payees : List Address}
    (h : orderedPayees chain (Encoder.forProgram program).program request table = .ok payees)
    (mint proposal authority : Address) :
    (Encoder.forProgram program).encode mint payees proposal authority =
      .ok (Instruction.proposePayees program mint payees proposal authority) :=
  if_pos (Nat.lt_of_le_of_lt (length_orderedPayees h) (by decide))

theorem exists_outcome_of_buildable {p : Proposal} (h : Buildable chain program request p)
    (signer : Address) :
    ∃ is, outcome chain (Encoder.forProgram program) request signer = .ok is := by
  obtain ⟨table, htable⟩ := PayeeTable.exists_ofInput_eq_ok_iff.mpr ⟨h.wellFormed, h.distinct⟩
  obtain ⟨payees, horder⟩ := order_of_buildable h htable
  obtain ⟨account, hfound, howner, hdecode⟩ := h.proposal
  have hordered : orderedPayees chain program request table = .ok payees :=
    orderedPayees_eq_ok_iff.mpr ⟨account, p, hfound, howner, hdecode, horder⟩
  have hencode : encodeOrdered chain (Encoder.forProgram program) request signer table = .ok
      [Instruction.proposePayees program request.tokenMint payees request.proposal signer] :=
    encodeOrdered_eq_ok_iff.mpr ⟨payees, _, hordered, encode_of_orderedPayees hordered _ _ _, rfl⟩
  exact ⟨_, outcome_eq_ok_iff.mpr ⟨table, htable, passes_iff.mpr h.funded, hencode⟩⟩

/-- What is built is the instruction for the payees assigned to the active slots, in order. -/
theorem built_of_outcome {signer : Address} {is : List Instruction}
    (h : outcome chain (Encoder.forProgram program) request signer = .ok is) :
    ∃ p payees, Buildable chain program request p ∧
      is = [Instruction.proposePayees program request.tokenMint payees request.proposal signer] ∧
      payees.length = p.len ∧ p.len ≤ Proposal.maxOracles ∧
      ∀ i < p.len, ∃ o payee, (p.oracles.take p.len)[i]? = some o ∧ payees[i]? = some payee ∧
        request.input.Assigns o.transmitter payee := by
  obtain ⟨table, htable, hpass, h⟩ := outcome_eq_ok_iff.mp h
  obtain ⟨payees, instruction, hordered, hencode, rfl⟩ := encodeOrdered_eq_ok_iff.mp h
  rw [encode_of_orderedPayees hordered] at hencode
  obtain ⟨account, p, hfound, howner, hdecode, horder⟩ := orderedPayees_eq_ok_iff.mp hordered
  obtain ⟨hwell, hdistinct⟩ := PayeeTable.exists_ofInput_eq_ok_iff.mp ⟨table, htable⟩
  have hcount : payees.length = p.len := by
    rw [← (PayeeTable.order_eq_ok_iff.mp horder).length_eq,
      Proposal.length_transmitters_of_decode hdecode]
  have hle : p.len ≤ Proposal.maxOracles := Proposal.len_le_of_decode hdecode
  have haligned : ∀ i < p.len, ∃ o payee, (p.oracles.take p.len)[i]? = some o ∧
      payees[i]? = some payee ∧ request.input.Assigns o.transmitter payee := by
    intro i hi
    exact assigns_of_order htable horder (hcount.symm ▸ hi)
  refine ⟨p, payees,
    ⟨hwell, hdistinct, passes_iff.mp hpass, ⟨account, hfound, howner, hdecode⟩, ?_⟩,
    ?_, hcount, hle, haligned⟩
  · -- the payee in the place of a slot comes from an assignment for its transmitter
    intro o ho
    obtain ⟨i, hi, hget⟩ := List.getElem_of_mem ho
    have hlen : i < p.len := Nat.lt_of_lt_of_le hi (List.length_take_le _ _)
    obtain ⟨o', payee, ho', -, a, ha, hat, -⟩ := haligned i hlen
    rw [List.getElem?_eq_getElem hi, hget] at ho'
    cases ho'
    exact ⟨a, ha, hat⟩
  · rw [← Except.ok.inj hencode]

/-- A request is built exactly when it is buildable, and then into one instruction of the program
whose data give the transmitter of each active slot its assigned payee. -/
theorem run_ok_iff_buildable (chain : Chain) (program : Address) (request : Request)
    (signer : Address) :
    ((∃ is, (run chain (Encoder.forProgram program) request signer).result = .ok is) ↔
        ∃ p, Buildable chain program request p) ∧
      ∀ is, (run chain (Encoder.forProgram program) request signer).result = .ok is →
        ∃ p payees data, Buildable chain program request p ∧
          is = [⟨program, [⟨request.proposal, false, true⟩, ⟨signer, true, false⟩], data⟩] ∧
          Instruction.readPayees data = some (request.tokenMint, payees) ∧
          payees.length = p.len ∧
          ∀ i < p.len, ∃ o payee, p.oracles[i]? = some o ∧ payees[i]? = some payee ∧
            request.input.Assigns o.transmitter payee := by
  simp only [result_run]
  refine ⟨⟨?_, ?_⟩, ?_⟩
  · rintro ⟨is, h⟩
    obtain ⟨p, -, hp, -⟩ := built_of_outcome h
    exact ⟨p, hp⟩
  · rintro ⟨p, hp⟩
    exact exists_outcome_of_buildable hp signer
  · intro is h
    obtain ⟨p, payees, hp, rfl, hcount, hle, haligned⟩ := built_of_outcome h
    have hfits : payees.length < 0x100000000 := by
      rw [hcount]
      exact Nat.lt_of_le_of_lt hle (by decide)
    refine ⟨p, payees, _, hp, rfl, Instruction.readPayees_proposePayeesData _ hfits, hcount, ?_⟩
    intro i hi
    obtain ⟨o, payee, ho, hpayee, hassigns⟩ := haligned i hi
    rw [List.getElem?_take_of_lt hi] at ho
    exact ⟨o, payee, ho, hpayee, hassigns⟩

end PayeeProposal.Build
