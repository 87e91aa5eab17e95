import PayeeProposal.Proofs.Build

/-!
# What building sees of a proposal account

Building sees the owner of the proposal account and, of its data, the active part only. Two
accounts that agree there lead to the same build, whatever else their data hold: the version, the
owner and the mint of the proposal, signing keys and payees, slots that are not active, and bytes
behind the slots.
-/

namespace PayeeProposal.Build

open Proposal

variable {chain : Chain} {encoder : Encoder} {request : Request} {signer : Address}

/-- Payees are ordered by the transmitters of the proposal, and by nothing else of it. -/
theorem orderedPayees_eq_bind (chain : Chain) (program : Address) (request : Request)
    (table : PayeeTable) :
    orderedPayees chain program request table =
      ((proposalIn program request.proposal (chain request.proposal)).map transmitters >>=
        table.order) := by
  unfold orderedPayees
  cases proposalIn program request.proposal (chain request.proposal) <;> rfl

theorem map_transmitters_proposalIn (program proposal : Address) (account : Account) :
    (proposalIn program proposal (.found account)).map transmitters =
      if account.owner ≠ program then .error (.proposalOwner proposal account.owner program)
      else ((decode account.data).map transmitters).mapError .proposalDecode := by
  simp only [proposalIn]
  split
  · rfl
  · cases decode account.data <;> rfl

/-- Two chains that differ in the proposal account only, and there not in the active part, lead
to the same build. -/
theorem run_eq_of_agreeOnActive (chain : Chain) (encoder : Encoder) (request : Request)
    (signer owner : Address) {a b : List UInt8}
    (hpayees : ∀ o ∈ request.input.operators,
      Address.parseTrimmed o.payee ≠ .ok request.proposal)
    (h : AgreeOnActive a b) :
    run (chain.set request.proposal (.found ⟨owner, a⟩)) encoder request signer =
      run (chain.set request.proposal (.found ⟨owner, b⟩)) encoder request signer := by
  have hreport : Eligibility.report (chain.set request.proposal (.found ⟨owner, a⟩))
      request.tokenMint request.input.payees =
      Eligibility.report (chain.set request.proposal (.found ⟨owner, b⟩))
        request.tokenMint request.input.payees := by
    -- the chains differ at the proposal only, where no payee's lookup is
    apply Eligibility.report_congr
    intro payee hpayee address haddress
    obtain ⟨o, ho, rfl⟩ := List.mem_map.mp hpayee
    have hne : address ≠ request.proposal := by
      rintro rfl
      exact hpayees o ho haddress
    rw [Chain.set_other _ _ hne, Chain.set_other _ _ hne]
  have hordered : ∀ table,
      orderedPayees (chain.set request.proposal (.found ⟨owner, a⟩)) encoder.program request table =
        orderedPayees (chain.set request.proposal (.found ⟨owner, b⟩)) encoder.program request
          table := by
    intro table
    rw [orderedPayees_eq_bind, orderedPayees_eq_bind, Chain.set_same, Chain.set_same,
      map_transmitters_proposalIn, map_transmitters_proposalIn, h.transmitters_eq]
  have hafter : ∀ table unfunded,
      afterCheck (chain.set request.proposal (.found ⟨owner, a⟩)) encoder request signer table
          unfunded =
        afterCheck (chain.set request.proposal (.found ⟨owner, b⟩)) encoder request signer table
          unfunded := by
    intro table unfunded
    simp only [afterCheck, hordered]
  cases htable : PayeeTable.ofInput request.input with
  | error e => rw [run_of_no_table htable, run_of_no_table htable]
  | ok table =>
    rw [run_of_table htable, run_of_table htable, hafter, hafter, reportOn, hreport, reportOn]

/-- The data of a proposal whose one active slot has the transmitter zero, with a byte everywhere
else and with some bytes behind the slots. -/
def oneActive (filler : UInt8) (tail : List UInt8) : List UInt8 :=
  discriminator ++ List.replicate 72 filler ++ List.replicate 32 0 ++ List.replicate 1640 filler ++
    [1, 0, 0, 0, 0, 0, 0, 0] ++ tail

/-- What stands beside the active part, and behind the slots, does not matter. -/
theorem run_oneActive :
    let request : Request :=
      ⟨⟨[⟨"11111111111111111111111111111111", "11111111111111111111111111111111"⟩], true⟩,
        Address.tokenProgram, Address.systemProgram⟩
    let build (data : List UInt8) :=
      run (Chain.set (fun _ => .absent) request.proposal (.found ⟨Address.systemProgram, data⟩))
        (Encoder.forProgram Address.systemProgram) request Address.systemProgram
    (∀ o ∈ request.input.operators, Address.parseTrimmed o.payee ≠ .ok request.proposal) ∧
      AgreeOnActive (oneActive 0 []) (oneActive 7 [1, 2, 3]) ∧
      build (oneActive 0 []) = build (oneActive 7 [1, 2, 3]) := by
  intro request build
  have hpayees : ∀ o ∈ request.input.operators,
      Address.parseTrimmed o.payee ≠ .ok request.proposal := by decide +kernel
  have hagree : AgreeOnActive (oneActive 0 []) (oneActive 7 [1, 2, 3]) := by
    constructor <;> decide +kernel
  exact ⟨hpayees, hagree, run_eq_of_agreeOnActive _ _ _ _ _ hpayees hagree⟩

end PayeeProposal.Build
