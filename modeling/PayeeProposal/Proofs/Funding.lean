import PayeeProposal.Proofs.BuildStages

/-!
# Builds that fail for want of funds

A build fails for its payees when nothing is wrong with the assignments but a payee that is not
eligible, and such payees are not allowed. The flag that allows them lifts this one check: a build
that does not fail for its payees is the same with and without the flag.
-/

namespace PayeeProposal

namespace Request

/-- The request with the flag set or not. -/
def withAllow (request : Request) (allow : Bool) : Request :=
  { request with input := { request.input with allowUnfunded := allow } }

/-- The payees that are not eligible, as they were given. -/
def unfundedPayees (request : Request) (chain : Chain) : List String :=
  request.input.payees.filter fun payee =>
    !(Eligibility.check chain request.tokenMint payee).isEligible

end Request

namespace Build

variable {chain : Chain} {encoder : Encoder} {request : Request} {signer : Address}
  {table : PayeeTable}

/-- The assignments of a request have nothing wrong with them but a payee that is not eligible. -/
structure LacksFunds (chain : Chain) (request : Request) : Prop where
  wellFormed : request.input.WellFormed
  distinct : request.input.Distinct
  ineligible : ∃ o ∈ request.input.operators, ¬ Eligible chain request.tokenMint o.payee

/-! ## Builds that fail for their payees -/

theorem run_of_eligible (h : PayeeTable.ofInput request.input = .ok table)
    (heligible : ∀ o ∈ request.input.operators, Eligible chain request.tokenMint o.payee) :
    run chain encoder request signer = afterCheck chain encoder request signer table none := by
  have hall : (reportOn chain request).allEligible = true := by
    rw [reportOn, Eligibility.allEligible_report_iff]
    intro payee hpayee
    obtain ⟨o, ho, rfl⟩ := List.mem_map.mp hpayee
    exact heligible o ho
  rw [run_of_table h, hall]
  rfl

/-- Once the payees have passed, the proposal is read behind their accounts. -/
theorem reads_afterCheck (count : Option Nat) :
    (afterCheck chain encoder request signer table count).reads =
      Eligibility.reads request.input.payees ++ [request.proposal] := by
  unfold afterCheck
  cases orderedPayees chain encoder.program request table with
  | error e => rfl
  | ok payees =>
    simp only
    cases encoder.encode request.tokenMint payees request.proposal signer with
    | error reason => rfl
    | ok instruction => rfl

theorem ne_validation_of_encodeOrdered {e : ProposeError}
    (h : encodeOrdered chain encoder request signer table = .error e) (reason : ValidationReason)
    (failed : List String) : e ≠ .validation reason failed := by
  rintro rfl
  rcases encodeOrdered_eq_error h with h | ⟨_, _, -, -, he⟩
  · simpa using orderedPayees_eq_error h
  · cases he

theorem table_of_lacksFunds (h : LacksFunds chain request) :
    ∃ table, PayeeTable.ofInput request.input = .ok table :=
  PayeeTable.exists_ofInput_eq_ok_iff.mpr ⟨h.wellFormed, h.distinct⟩

theorem run_of_lacksFunds (h : LacksFunds chain request)
    (hallow : request.input.allowUnfunded = false) :
    run chain encoder request signer =
      ⟨.error (.validation .unfundedPayees (request.unfundedPayees chain)),
        Eligibility.reads request.input.payees, 0, none⟩ := by
  obtain ⟨table, htable⟩ := table_of_lacksFunds h
  exact run_of_not_passes htable (passes_eq_false_iff.mpr ⟨hallow, h.ineligible⟩)

/-- A build fails for its payees exactly when they are all that is wrong with the assignments and
are not allowed. -/
theorem result_eq_unfunded_iff {failed : List String} :
    (run chain encoder request signer).result = .error (.validation .unfundedPayees failed) ↔
      request.input.allowUnfunded = false ∧ LacksFunds chain request ∧
        failed = request.unfundedPayees chain := by
  constructor
  · intro h
    cases htable : PayeeTable.ofInput request.input with
    | error e =>
      rw [run_of_no_table htable] at h
      rcases PayeeTable.ofInput_eq_error htable with ⟨text, reason, rfl⟩ | ⟨again, rfl⟩
      · cases h
      · cases h
    | ok table =>
      cases hpasses : passes chain request with
      | true =>
        obtain ⟨count, hrun⟩ := exists_run_of_passes htable hpasses
        rw [hrun, result_afterCheck] at h
        exact absurd rfl (ne_validation_of_encodeOrdered h _ _)
      | false =>
        obtain ⟨hallow, hineligible⟩ := passes_eq_false_iff.mp hpasses
        obtain ⟨hwell, hdistinct⟩ := PayeeTable.exists_ofInput_eq_ok_iff.mp ⟨table, htable⟩
        have hlacks : LacksFunds chain request := ⟨hwell, hdistinct, hineligible⟩
        rw [run_of_lacksFunds hlacks hallow] at h
        cases h
        exact ⟨hallow, hlacks, rfl⟩
  · rintro ⟨hallow, hlacks, rfl⟩
    rw [run_of_lacksFunds hlacks hallow]

/-! ## Builds with and without the flag -/

theorem lacksFunds_withAllow (allow : Bool) :
    LacksFunds chain (request.withAllow allow) ↔ LacksFunds chain request :=
  ⟨fun h => ⟨h.wellFormed, h.distinct, h.ineligible⟩,
    fun h => ⟨h.wellFormed, h.distinct, h.ineligible⟩⟩

/-- Where funds are not what is missing, the flag does not matter. -/
theorem run_withAllow (h : ¬ LacksFunds chain request) (allow : Bool) :
    run chain encoder (request.withAllow allow) signer = run chain encoder request signer := by
  cases htable : PayeeTable.ofInput request.input with
  | error e =>
    have hsame : PayeeTable.ofInput (request.withAllow allow).input = .error e := htable
    rw [run_of_no_table htable, run_of_no_table hsame]
  | ok table =>
    have hsame : PayeeTable.ofInput (request.withAllow allow).input = .ok table := htable
    obtain ⟨hwell, hdistinct⟩ := PayeeTable.exists_ofInput_eq_ok_iff.mp ⟨table, htable⟩
    have heligible : ∀ o ∈ request.input.operators, Eligible chain request.tokenMint o.payee := by
      intro o ho
      by_contra hnot
      exact h ⟨hwell, hdistinct, o, ho, hnot⟩
    rw [run_of_eligible htable heligible, run_of_eligible hsame heligible]
    rfl

/-- A build that is allowed to go on reads first what it reads when it is not. -/
theorem reads_withAllow (encoder : Encoder) (signer : Address) (h : LacksFunds chain request) :
    ∃ later, (run chain encoder (request.withAllow true) signer).reads =
      (run chain encoder (request.withAllow false) signer).reads ++ later := by
  obtain ⟨table, htable⟩ := table_of_lacksFunds h
  have htable : PayeeTable.ofInput (request.withAllow true).input = .ok table := htable
  have hpasses : passes chain (request.withAllow true) = true := passes_iff.mpr (.inr rfl)
  obtain ⟨count, hrun⟩ : ∃ count, run chain encoder (request.withAllow true) signer =
      afterCheck chain encoder (request.withAllow true) signer table count :=
    exists_run_of_passes htable hpasses
  rw [hrun, reads_afterCheck, run_of_lacksFunds ((lacksFunds_withAllow false).mpr h) rfl]
  exact ⟨_, rfl⟩

/-- What becomes of a request when the flag is set, against what becomes of it when it is not. -/
structure Lifts (chain : Chain) (request : Request) (strict lenient : Build) : Prop where
  keeps : ∀ is, strict.result = .ok is → lenient.result = .ok is
  fails : ∀ e, lenient.result = .error e →
    strict.result = .error e ∨
      ∃ failed, strict.result = .error (.validation .unfundedPayees failed)
  refuses : (∃ failed, strict.result = .error (.validation .unfundedPayees failed)) ↔
    LacksFunds chain request
  lists : ∀ failed, strict.result = .error (.validation .unfundedPayees failed) →
    failed = request.unfundedPayees chain
  reads : ∃ later, lenient.reads = strict.reads ++ later
  same : (∀ failed, strict.result ≠ .error (.validation .unfundedPayees failed)) →
    lenient = strict

theorem lifts_run (chain : Chain) (encoder : Encoder) (request : Request) (signer : Address) :
    Lifts chain request (run chain encoder (request.withAllow false) signer)
      (run chain encoder (request.withAllow true) signer) := by
  have hrefuses : ∀ failed, (run chain encoder (request.withAllow false) signer).result =
      .error (.validation .unfundedPayees failed) ↔
        LacksFunds chain request ∧ failed = request.unfundedPayees chain := by
    intro failed
    rw [result_eq_unfunded_iff, lacksFunds_withAllow]
    exact and_iff_right rfl
  have hsame : ¬ LacksFunds chain request →
      run chain encoder (request.withAllow true) signer =
        run chain encoder (request.withAllow false) signer := by
    intro h
    rw [run_withAllow h true, run_withAllow h false]
  by_cases hlacks : LacksFunds chain request
  · have hstrict := (hrefuses _).mpr ⟨hlacks, rfl⟩
    constructor
    case keeps =>
      intro is h
      cases hstrict.symm.trans h
    case fails => exact fun e _ => .inr ⟨_, hstrict⟩
    case refuses => exact iff_of_true ⟨_, hstrict⟩ hlacks
    case lists => exact fun failed h => ((hrefuses failed).mp h).2
    case reads => exact reads_withAllow encoder signer hlacks
    case same => exact fun h => absurd hstrict (h _)
  · have hnot : ∀ failed, (run chain encoder (request.withAllow false) signer).result ≠
        .error (.validation .unfundedPayees failed) :=
      fun failed h => hlacks ((hrefuses failed).mp h).1
    rw [hsame hlacks]
    constructor
    case keeps => exact fun _ h => h
    case fails => exact fun _ h => .inl h
    case refuses => exact iff_of_false (fun ⟨failed, h⟩ => hnot failed h) hlacks
    case lists => exact fun failed h => absurd h (hnot failed)
    case reads => exact ⟨[], (List.append_nil _).symm⟩
    case same => exact fun _ => rfl

end Build

end PayeeProposal
