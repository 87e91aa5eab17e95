import PayeeProposal.Proofs.Build
import PayeeProposal.Proofs.Course

/-!
# The stages of a build

A build goes through nine stages in a fixed order and ends at the first one that fails. What has
been read by then, and whether the encoder has been asked, hangs on that stage only.
-/

namespace PayeeProposal

namespace PayeeInput

/-- The addresses of the transmitters, one for each assignment. -/
def TransmittersAt (input : PayeeInput) (as : List Address) : Prop :=
  List.Forall₂ (fun o a => Address.parseTrimmed o.transmitter = .ok a) input.operators as

/-- The addresses of the payees, one for each assignment. -/
def PayeesAt (input : PayeeInput) (as : List Address) : Prop :=
  List.Forall₂ (fun o a => Address.parseTrimmed o.payee = .ok a) input.operators as

variable {input : PayeeInput} {table : PayeeTable}

theorem transmittersAt_keys (h : List.Forall₂ Assignment.Denotes input.operators table) :
    input.TransmittersAt (table.map Prod.fst) :=
  List.forall₂_map_right_iff.mpr (h.imp fun _ _ hd => hd.1)

theorem TransmittersAt.eq {as bs : List Address} (ha : input.TransmittersAt as)
    (hb : input.TransmittersAt bs) : as = bs := by
  unfold TransmittersAt at ha hb
  generalize input.operators = operators at ha hb
  induction ha generalizing bs with
  | nil => exact (List.forall₂_nil_left_iff.mp hb).symm
  | cons hhead _ ih =>
    cases hb with
    | cons hhead' htail' => rw [ih htail', Except.ok.inj (hhead.symm.trans hhead')]

/-- Where all texts are addresses, a report asks once on behalf of each assignment. -/
theorem payeesAt_reads (h : List.Forall₂ Assignment.Denotes input.operators table) :
    input.PayeesAt (Eligibility.reads input.payees) := by
  unfold PayeesAt Eligibility.reads payees
  generalize input.operators = operators at h
  induction h with
  | nil => exact .nil
  | @cons o e operators table hd _ ih =>
    rw [List.map_cons, List.filterMap_cons_some (b := e.2)]
    · exact .cons hd.2 ih
    · rw [hd.2]
      rfl

end PayeeInput

namespace Build

open Traversal

/-- The stages of a build. -/
inductive Stage where
  | addresses
  | duplicates
  | eligibility
  | lookup
  | existence
  | owner
  | decoding
  | assignment
  | encoding
deriving DecidableEq

namespace Stage

/-- All stages in the order in which a build goes through them. -/
def order : List Stage :=
  [addresses, duplicates, eligibility, lookup, existence, owner, decoding, assignment, encoding]

/-- What has been read when a build ends at a stage: nothing, or the accounts of the payees, and
then the proposal. -/
def Reads (request : Request) (rs : List Address) : Stage → Prop
  | addresses | duplicates => rs = []
  | eligibility => request.input.PayeesAt rs
  | lookup | existence | owner | decoding | assignment | encoding =>
    ∃ as, request.input.PayeesAt as ∧ rs = as ++ [request.proposal]

/-- How many accounts have been read, for a number of assignments. -/
def readCount (assignments : Nat) : Stage → Nat
  | addresses | duplicates => 0
  | eligibility => assignments
  | lookup | existence | owner | decoding | assignment | encoding => assignments + 1

/-- How often the encoder has been asked. -/
def encoderCalls : Stage → Nat
  | encoding => 1
  | addresses | duplicates | eligibility | lookup | existence | owner | decoding | assignment => 0

theorem Reads.length_eq {request : Request} {rs : List Address} {stage : Stage}
    (h : stage.Reads request rs) : rs.length = stage.readCount request.input.operators.length := by
  cases stage
  case addresses => exact congrArg List.length h
  case duplicates => exact congrArg List.length h
  case eligibility => exact (List.Forall₂.length_eq h).symm
  all_goals
    obtain ⟨as, has, rfl⟩ := h
    rw [List.length_append, ← List.Forall₂.length_eq has]
    rfl

end Stage

/-- How a stage fails, and with which error; of stages before it nothing is assumed. -/
inductive Fails (chain : Chain) (encoder : Encoder) (request : Request) (signer : Address) :
    Stage → ProposeError → Prop
  | addresses {text : String} {reason : AddressError}
    (h : request.input.FirstMalformed text reason) :
    Fails chain encoder request signer .addresses (.invalidAddress text reason)
  | duplicates {keys : List Address} (hkeys : request.input.TransmittersAt keys)
    (h : ¬ keys.Nodup) :
    Fails chain encoder request signer .duplicates
      (.validation .duplicateTransmitters ((PayeeTable.repeated keys).map Address.text))
  | eligibility (hallow : request.input.allowUnfunded = false) {o : Assignment}
    (ho : o ∈ request.input.operators) (h : ¬ Eligible chain request.tokenMint o.payee) :
    Fails chain encoder request signer .eligibility
      (.validation .unfundedPayees (request.input.payees.filter fun payee =>
        !(Eligibility.check chain request.tokenMint payee).isEligible))
  | lookup {reason : String} (h : chain request.proposal = .failed reason) :
    Fails chain encoder request signer .lookup (.rpc reason)
  | existence (h : chain request.proposal = .absent) :
    Fails chain encoder request signer .existence (.proposalNotFound request.proposal)
  | owner {account : Account} (hfound : chain request.proposal = .found account)
    (h : account.owner ≠ encoder.program) :
    Fails chain encoder request signer .owner
      (.proposalOwner request.proposal account.owner encoder.program)
  | decoding {account : Account} {error : ProposalError}
    (hfound : chain request.proposal = .found account)
    (h : Proposal.decode account.data = .error error) :
    Fails chain encoder request signer .decoding (.proposalDecode error)
  | assignment {account : Account} {p : Proposal} {before after : List Address} {t : Address}
    (hfound : chain request.proposal = .found account)
    (hdecode : Proposal.decode account.data = .ok p)
    (hsplit : p.transmitters = before ++ t :: after)
    (hbefore : ∀ u ∈ before, ∃ payee, request.input.Assigns u payee)
    (h : ∀ payee, ¬ request.input.Assigns t payee) :
    Fails chain encoder request signer .assignment (.missingPayee t)
  | encoding {account : Account} {p : Proposal} {payees : List Address} {reason : String}
    (hfound : chain request.proposal = .found account)
    (hdecode : Proposal.decode account.data = .ok p)
    (hpayees : List.Forall₂ request.input.Assigns p.transmitters payees)
    (h : encoder.encode request.tokenMint payees request.proposal signer = .error reason) :
    Fails chain encoder request signer .encoding (.encode reason)

/-- A build has ended at a stage with an error. -/
structure EndsAt (b : Build) (request : Request) (stage : Stage) (e : ProposeError) : Prop where
  result : b.result = .error e
  reads : stage.Reads request b.reads
  encoded : b.encoded = stage.encoderCalls

/-- A build has come to an instruction. -/
structure Succeeds (b : Build) (request : Request) : Prop where
  result : ∃ i, b.result = .ok [i]
  reads : ∃ as, request.input.PayeesAt as ∧ b.reads = as ++ [request.proposal]
  encoded : b.encoded = 1

variable {chain : Chain} {encoder : Encoder} {request : Request} {signer : Address}
  {table : PayeeTable}

theorem Succeeds.length_reads {b : Build} (h : b.Succeeds request) :
    b.reads.length = request.input.operators.length + 1 := by
  obtain ⟨as, has, hreads⟩ := h.reads
  rw [hreads, List.length_append, ← List.Forall₂.length_eq has]
  rfl

/-! ## Behind the payees -/

theorem not_fails_of_found {account : Account} (hfound : chain request.proposal = .found account) :
    (∀ e, ¬ Fails chain encoder request signer .lookup e) ∧
      ∀ e, ¬ Fails chain encoder request signer .existence e := by
  constructor
  · intro e h
    cases h with
    | lookup h => cases hfound.symm.trans h
  · intro e h
    cases h with
    | existence h => cases hfound.symm.trans h

theorem not_fails_owner {account : Account} (hfound : chain request.proposal = .found account)
    (howner : account.owner = encoder.program) (e : ProposeError) :
    ¬ Fails chain encoder request signer .owner e := by
  intro h
  cases h with
  | owner hfound' h =>
    cases hfound.symm.trans hfound'
    exact h howner

theorem not_fails_decoding {account : Account} {p : Proposal}
    (hfound : chain request.proposal = .found account)
    (hdecode : Proposal.decode account.data = .ok p) (e : ProposeError) :
    ¬ Fails chain encoder request signer .decoding e := by
  intro h
  cases h with
  | decoding hfound' h =>
    cases hfound.symm.trans hfound'
    cases hdecode.symm.trans h

theorem not_fails_assignment {account : Account} {p : Proposal} {payees : List Address}
    (hfound : chain request.proposal = .found account)
    (hdecode : Proposal.decode account.data = .ok p)
    (hpayees : List.Forall₂ request.input.Assigns p.transmitters payees) (e : ProposeError) :
    ¬ Fails chain encoder request signer .assignment e := by
  intro h
  cases h with
  | @assignment _ _ _ _ t hfound' hdecode' hsplit _ h =>
    cases hfound.symm.trans hfound'
    cases hdecode.symm.trans hdecode'
    have hmem : t ∈ p.transmitters := by simp [hsplit]
    obtain ⟨payee, -, hassigns⟩ := exists_of_mem_left hpayees hmem
    exact h payee hassigns

theorem not_fails_encoding {account : Account} {p : Proposal} {payees : List Address}
    {i : Instruction} (hfound : chain request.proposal = .found account)
    (hdecode : Proposal.decode account.data = .ok p)
    (htable : PayeeTable.ofInput request.input = .ok table)
    (horder : table.order p.transmitters = .ok payees)
    (hencode : encoder.encode request.tokenMint payees request.proposal signer = .ok i)
    (e : ProposeError) : ¬ Fails chain encoder request signer .encoding e := by
  intro h
  cases h with
  | @encoding _ _ payees' _ hfound' hdecode' hpayees h =>
    cases hfound.symm.trans hfound'
    cases hdecode.symm.trans hdecode'
    -- the table gives a transmitter one payee only, so the encoder is asked for the same payees
    have horder' : table.order p.transmitters = .ok payees' :=
      PayeeTable.order_eq_ok_iff.mpr
        (hpayees.imp fun _ _ hassigns => (PayeeTable.lookup_ofInput htable).mpr hassigns)
    cases horder.symm.trans horder'
    cases hencode.symm.trans h

section AfterCheck

variable {unfunded : Option Nat}

/-- A build that has read the proposal and has not asked the encoder. -/
theorem endsAt_of_orderedPayees {stage : Stage} {e : ProposeError}
    (hpayees : request.input.PayeesAt (Eligibility.reads request.input.payees))
    (h : orderedPayees chain encoder.program request table = .error e)
    (hreads : ∀ rs, (∃ as, request.input.PayeesAt as ∧ rs = as ++ [request.proposal]) →
      stage.Reads request rs) (hcalls : stage.encoderCalls = 0) :
    EndsAt (afterCheck chain encoder request signer table unfunded) request stage e := by
  unfold afterCheck
  rw [h]
  exact ⟨rfl, hreads _ ⟨_, hpayees, rfl⟩, hcalls.symm⟩

theorem orderedPayees_of_error {e : ProposeError}
    (h : proposalIn encoder.program request.proposal (chain request.proposal) = .error e) :
    orderedPayees chain encoder.program request table = .error e :=
  bind_eq_error.mpr (.inl h)

theorem orderedPayees_of_decode {account : Account} {p : Proposal}
    (hfound : chain request.proposal = .found account)
    (howner : account.owner = encoder.program) (hdecode : Proposal.decode account.data = .ok p) :
    orderedPayees chain encoder.program request table = table.order p.transmitters := by
  unfold orderedPayees
  rw [hfound]
  simp only [proposalIn, howner, ne_eq, not_true_eq_false, if_false, hdecode, Except.mapError]
  rfl

/-- The stages of a build once the payees have passed. -/
theorem afterCheck_course (htable : PayeeTable.ofInput request.input = .ok table)
    (hserved : chain request.proposal ≠ .crashed) :
    Course (Fails chain encoder request signer)
      (EndsAt (afterCheck chain encoder request signer table unfunded) request)
      (Succeeds (afterCheck chain encoder request signer table unfunded) request)
      [.lookup, .existence, .owner, .decoding, .assignment, .encoding] := by
  have hpayees : request.input.PayeesAt (Eligibility.reads request.input.payees) :=
    PayeeInput.payeesAt_reads (PayeeTable.ofInput_eq_ok_iff.mp htable).1
  cases hfound : chain request.proposal with
  | crashed => exact absurd hfound hserved
  | failed reason =>
    refine .stop (.lookup hfound) (endsAt_of_orderedPayees hpayees ?_ (fun _ h => h) rfl)
    exact orderedPayees_of_error (by rw [hfound]; rfl)
  | absent =>
    refine .pass (fun e h => ?_) (.stop (.existence hfound) ?_)
    · cases h with
      | lookup h => cases hfound.symm.trans h
    · refine endsAt_of_orderedPayees hpayees ?_ (fun _ h => h) rfl
      exact orderedPayees_of_error (by rw [hfound]; rfl)
  | found account =>
    refine .pass (not_fails_of_found hfound).1 (.pass (not_fails_of_found hfound).2 ?_)
    by_cases howner : account.owner = encoder.program
    · refine .pass (not_fails_owner hfound howner) ?_
      cases hdecode : Proposal.decode account.data with
      | error error =>
        refine .stop (.decoding hfound hdecode) ?_
        refine endsAt_of_orderedPayees hpayees ?_ (fun _ h => h) rfl
        refine orderedPayees_of_error ?_
        rw [hfound]
        simp [proposalIn, howner, hdecode, Except.mapError]
      | ok p =>
        refine .pass (not_fails_decoding hfound hdecode) ?_
        have hordered :
            orderedPayees chain encoder.program request table = table.order p.transmitters :=
          orderedPayees_of_decode hfound howner hdecode
        cases horder : table.order p.transmitters with
        | error e =>
          obtain ⟨before, t, after, hsplit, hbefore, hnone, rfl⟩ := PayeeTable.order_eq_error horder
          refine .stop (.assignment hfound hdecode hsplit ?_ ?_) ?_
          · intro u hu
            obtain ⟨payee, hpayee⟩ := hbefore u hu
            exact ⟨payee, (PayeeTable.lookup_ofInput htable).mp hpayee⟩
          · intro payee hassigns
            cases hnone.symm.trans ((PayeeTable.lookup_ofInput htable).mpr hassigns)
          · exact endsAt_of_orderedPayees hpayees (hordered.trans horder) (fun _ h => h) rfl
        | ok payees =>
          have hassigned : List.Forall₂ request.input.Assigns p.transmitters payees :=
            (PayeeTable.order_eq_ok_iff.mp horder).imp fun _ _ hl =>
              (PayeeTable.lookup_ofInput htable).mp hl
          refine .pass (not_fails_assignment hfound hdecode hassigned) ?_
          have hordered := hordered.trans horder
          cases hencode : encoder.encode request.tokenMint payees request.proposal signer with
          | error reason =>
            refine .stop (.encoding hfound hdecode hassigned hencode) ?_
            simp only [afterCheck, hordered, hencode]
            exact ⟨rfl, ⟨_, hpayees, rfl⟩, rfl⟩
          | ok i =>
            refine .pass (not_fails_encoding hfound hdecode htable horder hencode) (.finish ?_)
            simp only [afterCheck, hordered, hencode]
            exact ⟨⟨i, rfl⟩, ⟨_, hpayees, rfl⟩, rfl⟩
    · refine .stop (.owner hfound howner) (endsAt_of_orderedPayees hpayees ?_ (fun _ h => h) rfl)
      refine orderedPayees_of_error ?_
      rw [hfound]
      simp [proposalIn, howner]

end AfterCheck

/-! ## All stages -/

theorem passes_eq_false_iff :
    passes chain request = false ↔ request.input.allowUnfunded = false ∧
      ∃ o ∈ request.input.operators, ¬ Eligible chain request.tokenMint o.payee := by
  rw [← Bool.not_eq_true, passes_iff, not_or, Bool.not_eq_true, and_comm]
  simp only [not_forall, exists_prop]

theorem run_of_not_passes (htable : PayeeTable.ofInput request.input = .ok table)
    (h : passes chain request = false) :
    run chain encoder request signer =
      ⟨.error (.validation .unfundedPayees (request.input.payees.filter fun payee =>
          !(Eligibility.check chain request.tokenMint payee).isEligible)),
        Eligibility.reads request.input.payees, 0, none⟩ := by
  obtain ⟨hreport, hallow⟩ := Bool.or_eq_false_iff.mp h
  rw [run_of_table htable, hreport, hallow, reportOn, Eligibility.failed_report]
  rfl

theorem exists_run_of_passes (htable : PayeeTable.ofInput request.input = .ok table)
    (h : passes chain request = true) :
    ∃ unfunded, run chain encoder request signer =
      afterCheck chain encoder request signer table unfunded := by
  unfold passes at h
  rw [run_of_table htable]
  cases hreport : (reportOn chain request).allEligible with
  | true => exact ⟨none, rfl⟩
  | false =>
    rw [hreport, Bool.false_or] at h
    rw [h]
    exact ⟨_, rfl⟩

/-- A build goes through its stages in order: it ends at the first one that fails, with that
stage's error, and builds an instruction when none does. -/
theorem run_course (chain : Chain) (encoder : Encoder) (request : Request) (signer : Address)
    (hserved : chain request.proposal ≠ .crashed) :
    Course (Fails chain encoder request signer)
      (EndsAt (run chain encoder request signer) request)
      (Succeeds (run chain encoder request signer) request) Stage.order := by
  by_cases hwell : request.input.WellFormed
  · obtain ⟨table, hread⟩ := PayeeTable.exists_denotes_iff.mpr hwell
    refine .pass ?_ ?_
    · intro e h
      cases h with
      | addresses h => exact hwell.not_malformed _ _ h.malformed
    · by_cases hnodup : (table.map Prod.fst).Nodup
      · have htable := PayeeTable.ofInput_eq_ok_iff.mpr ⟨hread, hnodup⟩
        refine .pass ?_ ?_
        · intro e h
          cases h with
          | duplicates hkeys h => exact h ((PayeeInput.transmittersAt_keys hread).eq hkeys ▸ hnodup)
        · cases hpasses : passes chain request with
          | false =>
            obtain ⟨hallow, o, ho, hnot⟩ := passes_eq_false_iff.mp hpasses
            refine .stop (.eligibility hallow ho hnot) ?_
            rw [run_of_not_passes htable hpasses]
            exact ⟨rfl, PayeeInput.payeesAt_reads hread, rfl⟩
          | true =>
            refine .pass ?_ ?_
            · intro e h
              cases h with
              | eligibility hallow ho hnot =>
                rw [passes_eq_false_iff.mpr ⟨hallow, _, ho, hnot⟩] at hpasses
                cases hpasses
            · obtain ⟨unfunded, hrun⟩ := exists_run_of_passes htable hpasses
              rw [hrun]
              exact afterCheck_course htable hserved
      · have htable := PayeeTable.ofInput_of_denotes hread
        rw [if_neg hnodup] at htable
        refine .stop (.duplicates (PayeeInput.transmittersAt_keys hread) hnodup) ?_
        rw [run_of_no_table htable]
        exact ⟨rfl, rfl, rfl⟩
  · obtain ⟨text, reason, hfirst, htable⟩ := PayeeTable.ofInput_of_firstMalformed hwell
    refine .stop (.addresses hfirst) ?_
    rw [run_of_no_table htable]
    exact ⟨rfl, rfl, rfl⟩

end Build

end PayeeProposal
