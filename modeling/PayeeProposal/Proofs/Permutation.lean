import Mathlib.Data.List.Perm.Basic
import PayeeProposal.Proofs.Build

/-!
# The order of the assignments

Assignments given in another order lead to the same instruction or to the same failure. A failure
may differ only in the order of the texts that it lists, and in which one it names of several
texts that are no addresses.
-/

namespace PayeeProposal

/-- The request with other assignments. -/
def Request.withOperators (request : Request) (operators : List Assignment) : Request :=
  { request with input := { request.input with operators := operators } }

namespace PayeeTable

theorem lookup_perm {table table' : PayeeTable} (hnodup : (table.map Prod.fst).Nodup)
    (h : table.Perm table') (t : Address) : table.lookup t = table'.lookup t := by
  have hnodup' : (table'.map Prod.fst).Nodup := (h.map Prod.fst).nodup_iff.mp hnodup
  apply Option.ext
  intro p
  rw [lookup_eq_some_iff hnodup, lookup_eq_some_iff hnodup']
  exact h.mem_iff

end PayeeTable

namespace Build

open Traversal

variable {chain : Chain} {encoder : Encoder} {request : Request} {signer : Address}

/-- Two outcomes for the assignments of an input in two orders. -/
inductive SameOutcome (input : PayeeInput) :
    Except ProposeError (List Instruction) → Except ProposeError (List Instruction) → Prop
  | built (is : List Instruction) : SameOutcome input (.ok is) (.ok is)
  | malformed {text text' : String} {reason reason' : AddressError}
      (h : input.Malformed text reason) (h' : input.Malformed text' reason') :
      SameOutcome input (.error (.invalidAddress text reason))
        (.error (.invalidAddress text' reason'))
  | validation (reason : ValidationReason) {failed failed' : List String}
      (h : failed.Perm failed') :
      SameOutcome input (.error (.validation reason failed)) (.error (.validation reason failed'))
  | identical {e : ProposeError} (h : ∀ text reason, e ≠ .invalidAddress text reason) :
      SameOutcome input (.error e) (.error e)

/-! ## Stages behind the table -/

theorem outcome_of_table {table : PayeeTable} (h : PayeeTable.ofInput request.input = .ok table) :
    outcome chain encoder request signer =
      if passes chain request then encodeOrdered chain encoder request signer table
      else .error (.validation .unfundedPayees (reportOn chain request).failed) := by
  unfold outcome
  rw [h]
  rfl

theorem outcome_of_no_table {e : ProposeError} (h : PayeeTable.ofInput request.input = .error e) :
    outcome chain encoder request signer = .error e := by
  unfold outcome
  rw [h]
  rfl

/-- The stages behind the table only look up the transmitters of the proposal in it, and read
nothing else of the assignments. -/
theorem encodeOrdered_of_lookups {table table' : PayeeTable} (operators : List Assignment)
    (h : ∀ p, proposalIn encoder.program request.proposal (chain request.proposal) = .ok p →
      ∀ t ∈ p.transmitters, table.lookup t = table'.lookup t) :
    encodeOrdered chain encoder (request.withOperators operators) signer table' =
      encodeOrdered chain encoder request signer table := by
  have hordered : orderedPayees chain encoder.program (request.withOperators operators) table' =
      orderedPayees chain encoder.program request table := by
    unfold orderedPayees
    simp only [show (request.withOperators operators).proposal = request.proposal from rfl]
    cases hp : proposalIn encoder.program request.proposal (chain request.proposal) with
    | error e => rfl
    | ok p => exact (PayeeTable.order_congr (h p hp)).symm
  unfold encodeOrdered
  rw [hordered]
  rfl

theorem encodeOrdered_withOperators {table table' : PayeeTable} (operators : List Assignment)
    (h : ∀ t, table.lookup t = table'.lookup t) :
    encodeOrdered chain encoder (request.withOperators operators) signer table' =
      encodeOrdered chain encoder request signer table :=
  encodeOrdered_of_lookups operators fun _ _ t _ => h t

theorem ne_invalidAddress_of_encodeOrdered {table : PayeeTable} {e : ProposeError}
    (h : encodeOrdered chain encoder request signer table = .error e) (text : String)
    (reason : AddressError) : e ≠ .invalidAddress text reason := by
  rintro rfl
  rcases encodeOrdered_eq_error h with h | ⟨_, _, -, -, he⟩
  · simpa using orderedPayees_eq_error h
  · cases he

/-! ## Two orders -/

theorem passes_withOperators {operators : List Assignment}
    (h : request.input.operators.Perm operators) :
    passes chain (request.withOperators operators) = passes chain request := by
  have hsame : (reportOn chain (request.withOperators operators)).allEligible =
      (reportOn chain request).allEligible :=
    (Eligibility.allEligible_report_perm (h.map Assignment.payee)).symm
  unfold passes
  rw [hsame]
  rfl

theorem malformed_withOperators {operators : List Assignment}
    (h : request.input.operators.Perm operators) {text : String} {reason : AddressError} :
    (request.withOperators operators).input.Malformed text reason ↔
      request.input.Malformed text reason := by
  unfold PayeeInput.Malformed Request.withOperators
  simp only [h.mem_iff]

theorem wellFormed_withOperators {operators : List Assignment}
    (h : request.input.operators.Perm operators) :
    (request.withOperators operators).input.WellFormed ↔ request.input.WellFormed := by
  unfold PayeeInput.WellFormed Request.withOperators
  simp only [h.mem_iff]

/-- Another order of the assignments changes of an outcome at most which text that is no address
is named, and the order of the texts listed as failed. -/
theorem sameOutcome_of_perm (chain : Chain) (encoder : Encoder) (request : Request)
    (signer : Address) {operators : List Assignment}
    (h : request.input.operators.Perm operators) :
    SameOutcome request.input (run chain encoder request signer).result
      (run chain encoder (request.withOperators operators) signer).result := by
  rw [result_run, result_run]
  by_cases hwell : request.input.WellFormed
  · -- the tables hold the same entries, in another order
    obtain ⟨table, hread⟩ := PayeeTable.exists_denotes_iff.mpr hwell
    obtain ⟨table', hread', hperm⟩ := List.perm_comp_forall₂ h.symm hread
    have hkeys := hperm.map Prod.fst
    by_cases hnodup : (table.map Prod.fst).Nodup
    · have htable := PayeeTable.ofInput_eq_ok_iff.mpr ⟨hread, hnodup⟩
      have htable' : PayeeTable.ofInput (request.withOperators operators).input = .ok table' :=
        PayeeTable.ofInput_eq_ok_iff.mpr ⟨hread', hkeys.nodup_iff.mpr hnodup⟩
      rw [outcome_of_table htable, outcome_of_table htable', passes_withOperators h,
        encodeOrdered_withOperators operators (PayeeTable.lookup_perm hnodup hperm.symm)]
      split
      · cases he : encodeOrdered chain encoder request signer table with
        | ok is => exact .built is
        | error e => exact .identical (ne_invalidAddress_of_encodeOrdered he)
      · exact .validation .unfundedPayees
          (Eligibility.perm_failed_report (h.map Assignment.payee))
    · have hdup := PayeeTable.ofInput_of_denotes hread
      have hdup' : PayeeTable.ofInput (request.withOperators operators).input = _ :=
        PayeeTable.ofInput_of_denotes hread'
      rw [if_neg hnodup] at hdup
      rw [if_neg fun hn => hnodup (hkeys.nodup_iff.mp hn)] at hdup'
      rw [outcome_of_no_table hdup, outcome_of_no_table hdup']
      exact .validation .duplicateTransmitters
        ((PayeeTable.perm_repeated hkeys).symm.map Address.text)
  · -- some text is no address in either order, and one such text is named first
    obtain ⟨text, reason, hbad, hfail⟩ := PayeeTable.ofInput_of_not_wellFormed hwell
    obtain ⟨text', reason', hbad', hfail'⟩ :=
      PayeeTable.ofInput_of_not_wellFormed ((wellFormed_withOperators h).not.mpr hwell)
    rw [outcome_of_no_table hfail, outcome_of_no_table hfail']
    exact .malformed hbad ((malformed_withOperators h).mp hbad')

/-- Of two texts that are no addresses, the one that comes first is named. Two assignments of
addresses lead to one instruction, which has the payees in the order of the slots. -/
theorem sameOutcome_swap :
    let zeros := "11111111111111111111111111111111"
    let token := "TokenkegQfeZyiNwAJbNbGKPFXCWuBvf9Ss623VQ5DA"
    let malformed : Request :=
      ⟨⟨[⟨"?", "0"⟩, ⟨"!", "0"⟩], false⟩, Address.systemProgram, Address.systemProgram⟩
    let malformedSwapped : List Assignment := [⟨"!", "0"⟩, ⟨"?", "0"⟩]
    let valid : Request :=
      ⟨⟨[⟨zeros, token⟩, ⟨token, zeros⟩], true⟩, Address.associatedTokenProgram,
        Address.systemProgram⟩
    let validSwapped : List Assignment := [⟨token, zeros⟩, ⟨zeros, token⟩]
    let slots := Address.tokenProgram.bytes ++ List.replicate 1640 0 ++ Bytes.littleEndian 8 2
    let data := Proposal.discriminator ++ List.replicate 72 0 ++ slots
    let chain : Chain := fun a =>
      if a = Address.associatedTokenProgram then .found ⟨Address.systemProgram, data⟩ else .absent
    let encoder := Encoder.forProgram Address.systemProgram
    let build (request : Request) := (run chain encoder request Address.systemProgram).result
    let built := Instruction.proposePayees Address.systemProgram Address.systemProgram
      [Address.systemProgram, Address.tokenProgram] Address.associatedTokenProgram
      Address.systemProgram
    malformed.input.operators.Perm malformedSwapped ∧
      SameOutcome malformed.input (build malformed)
        (build (malformed.withOperators malformedSwapped)) ∧
      build malformed = .error (.invalidAddress "?" .invalidCharacter) ∧
      build (malformed.withOperators malformedSwapped) =
        .error (.invalidAddress "!" .invalidCharacter) ∧
      valid.input.operators.Perm validSwapped ∧
      SameOutcome valid.input (build valid) (build (valid.withOperators validSwapped)) ∧
      build valid = .ok [built] ∧ build (valid.withOperators validSwapped) = .ok [built] := by
  intro zeros token malformed malformedSwapped valid validSwapped slots data chain encoder build
    built
  have hmalformed : malformed.input.operators.Perm malformedSwapped := List.Perm.swap _ _ _
  have hvalid : valid.input.operators.Perm validSwapped := List.Perm.swap _ _ _
  have hsame : SameOutcome valid.input (build valid) (build (valid.withOperators validSwapped)) :=
    sameOutcome_of_perm chain encoder valid Address.systemProgram hvalid
  have hbuilt : build valid = .ok [built] := by decide +kernel
  have hbuiltSwapped : build (valid.withOperators validSwapped) = .ok [built] := by
    generalize build (valid.withOperators validSwapped) = outcome at hsame
    rw [hbuilt] at hsame
    cases hsame
    rfl
  refine ⟨hmalformed, sameOutcome_of_perm _ _ _ _ hmalformed, ?_, ?_, hvalid, hsame, hbuilt,
    hbuiltSwapped⟩
  · decide +kernel
  · decide +kernel

end Build

end PayeeProposal
