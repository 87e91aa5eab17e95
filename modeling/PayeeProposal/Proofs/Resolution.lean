import Mathlib.Data.List.NodupEquivFin
import PayeeProposal.Proofs.Funding

/-!
# Payees out of a deployment description

The payees of an aggregator are worked out oracle by oracle. They are all there when each oracle's
operator is known and has a node address; otherwise the first oracle that has no assignment decides
the error. Nothing is left out on the way, so a key from which two oracles transmit is still there
twice when the instruction is built, and the build refuses it.
-/

namespace PayeeProposal.Deployment

open Traversal

variable {d : Deployment} {state oracle : String}

/-! ## Oracles -/

/-- The operator of an oracle is known and has a node address; an assignment leads from the first
one to the address that administers the operator. -/
def Assigns (d : Deployment) (oracle : String) (a : Assignment) : Prop :=
  ∃ operator others, d.operators.lookup oracle = some operator ∧
    operator.nodeAddresses = a.transmitter :: others ∧ operator.adminAddress = a.payee

/-- Why an oracle of an aggregator has no assignment; either way its operator is named. -/
inductive Lacks (d : Deployment) (state oracle : String) : DeploymentError → Prop
  | operator (h : d.operators.lookup oracle = none) :
    Lacks d state oracle (.unknownOperator state oracle)
  | nodeAddress {operator : Operator} (h : d.operators.lookup oracle = some operator)
    (hnone : operator.nodeAddresses = []) : Lacks d state oracle (.missingNodeAddress oracle)

theorem assignment_of_lookup_none (h : d.operators.lookup oracle = none) :
    d.assignment state oracle = .error (.unknownOperator state oracle) := by
  simp [assignment, operator, h, bind, Except.bind]

theorem assignment_of_lookup {operator : Operator}
    (h : d.operators.lookup oracle = some operator) :
    d.assignment state oracle =
      match operator.nodeAddresses with
      | address :: _ => .ok ⟨address, operator.adminAddress⟩
      | [] => .error (.missingNodeAddress oracle) := by
  have hoperator : d.operator state oracle = .ok operator := by rw [Deployment.operator, h]
  rw [assignment, hoperator, ok_bind]
  unfold Operator.transmitter
  cases operator.nodeAddresses with
  | nil => rfl
  | cons address others => rfl

theorem assignment_eq_ok_iff {a : Assignment} :
    d.assignment state oracle = .ok a ↔ d.Assigns oracle a := by
  unfold Assigns
  cases h : d.operators.lookup oracle with
  | none => simp [assignment_of_lookup_none h]
  | some operator =>
    rw [assignment_of_lookup h]
    cases hnodes : operator.nodeAddresses with
    | nil => simp [hnodes]
    | cons address others =>
      obtain ⟨transmitter, payee⟩ := a
      simp [hnodes]

theorem assignment_eq_error_iff {e : DeploymentError} :
    d.assignment state oracle = .error e ↔ d.Lacks state oracle e := by
  constructor
  · intro he
    cases h : d.operators.lookup oracle with
    | none =>
      rw [assignment_of_lookup_none h, Except.error.injEq] at he
      exact he ▸ .operator h
    | some operator =>
      rw [assignment_of_lookup h] at he
      cases hnodes : operator.nodeAddresses with
      | nil =>
        rw [hnodes] at he
        cases he
        exact .nodeAddress h hnodes
      | cons address others =>
        rw [hnodes] at he
        cases he
  · rintro (h | ⟨h, hnone⟩)
    · exact assignment_of_lookup_none h
    · rw [assignment_of_lookup h, hnone]

theorem exists_assigns_iff :
    (∃ a, d.Assigns oracle a) ↔
      ∃ operator, d.operators.lookup oracle = some operator ∧ operator.nodeAddresses ≠ [] := by
  constructor
  · rintro ⟨a, operator, others, h, hnodes, -⟩
    exact ⟨operator, h, by simp [hnodes]⟩
  · rintro ⟨operator, h, hnodes⟩
    obtain ⟨address, others, hnodes⟩ := List.exists_cons_of_ne_nil hnodes
    exact ⟨⟨address, operator.adminAddress⟩, operator, others, h, hnodes, rfl⟩

/-! ## Aggregators -/

/-- The first oracle of an aggregator that has no assignment, and why it has none. -/
def FirstLacking (d : Deployment) (state : String) (aggregator : Aggregator)
    (error : DeploymentError) : Prop :=
  ∃ before oracle after, aggregator.oracles = before ++ oracle :: after ∧
    (∀ o ∈ before, ∃ a, d.Assigns o a) ∧ d.Lacks state oracle error

theorem payeeInput_of_lookup_none (h : d.aggregators.lookup state = none) :
    d.payeeInput state = .error (.unknownAggregator state) := by
  simp [payeeInput, aggregator, h, bind, Except.bind]

theorem payeeInput_of_lookup {aggregator : Aggregator}
    (h : d.aggregators.lookup state = some aggregator) :
    d.payeeInput state = aggregator.oracles.mapM (d.assignment state) >>=
      fun operators => pure ⟨operators, true⟩ := by
  have haggregator : d.aggregator state = .ok aggregator := by rw [Deployment.aggregator, h]
  rw [payeeInput, haggregator, ok_bind]

theorem payeeInput_eq_ok_iff {input : PayeeInput} :
    d.payeeInput state = .ok input ↔
      ∃ aggregator, d.aggregators.lookup state = some aggregator ∧
        List.Forall₂ d.Assigns aggregator.oracles input.operators ∧
        input.allowUnfunded = true := by
  cases h : d.aggregators.lookup state with
  | none => simp [payeeInput_of_lookup_none h]
  | some aggregator =>
    rw [payeeInput_of_lookup h, bind_eq_ok]
    simp only [mapM_eq_ok_iff, assignment_eq_ok_iff, Option.some.injEq, exists_eq_left']
    constructor
    · rintro ⟨operators, hoperators, hinput⟩
      cases Except.ok.inj hinput
      exact ⟨hoperators, rfl⟩
    · rintro ⟨hoperators, hallow⟩
      refine ⟨input.operators, hoperators, ?_⟩
      rw [← hallow]
      rfl

theorem payeeInput_eq_error_iff {e : DeploymentError} :
    d.payeeInput state = .error e ↔
      (d.aggregators.lookup state = none ∧ e = .unknownAggregator state) ∨
        ∃ aggregator, d.aggregators.lookup state = some aggregator ∧
          d.FirstLacking state aggregator e := by
  cases h : d.aggregators.lookup state with
  | none => simp [payeeInput_of_lookup_none h, eq_comm]
  | some aggregator =>
    rw [payeeInput_of_lookup h, bind_pure_eq_error, mapM_eq_error_iff]
    simp only [assignment_eq_ok_iff, assignment_eq_error_iff]
    simp [FirstLacking]

theorem exists_payeeInput_iff :
    (∃ input, d.payeeInput state = .ok input) ↔
      ∃ aggregator, d.aggregators.lookup state = some aggregator ∧
        ∀ oracle ∈ aggregator.oracles, ∃ operator,
          d.operators.lookup oracle = some operator ∧ operator.nodeAddresses ≠ [] := by
  have hassigned (oracle : String) : (∃ operator, d.operators.lookup oracle = some operator ∧
      operator.nodeAddresses ≠ []) ↔ ∃ a, d.assignment state oracle = .ok a := by
    simp only [← exists_assigns_iff, assignment_eq_ok_iff]
  simp only [hassigned, ← exists_mapM_eq_ok_iff]
  constructor
  · rintro ⟨input, h⟩
    obtain ⟨aggregator, haggregator, hoperators, -⟩ := payeeInput_eq_ok_iff.mp h
    refine ⟨aggregator, haggregator, input.operators, mapM_eq_ok_iff.mpr ?_⟩
    exact hoperators.imp fun _ _ => assignment_eq_ok_iff.mpr
  · rintro ⟨aggregator, haggregator, operators, h⟩
    refine ⟨⟨operators, true⟩, ?_⟩
    rw [payeeInput_of_lookup haggregator, h]
    rfl

/-! ## One key for two oracles -/

/-- An oracle transmits from a key, however the node address is written. -/
def TransmitsFrom (d : Deployment) (oracle : String) (key : Address) : Prop :=
  ∃ operator address others, d.operators.lookup oracle = some operator ∧
    operator.nodeAddresses = address :: others ∧ Address.parseTrimmed address = .ok key

/-- Two oracles of an aggregator transmit from one key. -/
def Coincide (d : Deployment) (aggregator : Aggregator) (key : Address) : Prop :=
  ∃ (i j : Nat) (first second : String), i < j ∧ aggregator.oracles[i]? = some first ∧
    aggregator.oracles[j]? = some second ∧ d.TransmitsFrom first key ∧ d.TransmitsFrom second key

/-- The key that an oracle transmits from is the transmitter of its assignment. -/
theorem key_eq {a : Assignment} {e : Address × Address} {key : Address}
    (h : d.TransmitsFrom oracle key) (ha : d.Assigns oracle a) (he : a.Denotes e) : e.1 = key := by
  obtain ⟨operator, address, others, hlookup, hnodes, hkey⟩ := h
  obtain ⟨operator', others', hlookup', hnodes', -⟩ := ha
  cases hlookup.symm.trans hlookup'
  obtain ⟨rfl, -⟩ := List.cons.inj (hnodes.symm.trans hnodes')
  exact Except.ok.inj (he.1.symm.trans hkey)

/-- The key that an oracle transmits from stands at the oracle's place in the table. -/
theorem getElem?_keys {aggregator : Aggregator} {operators : List Assignment} {table : PayeeTable}
    (hoperators : List.Forall₂ d.Assigns aggregator.oracles operators)
    (htable : List.Forall₂ Assignment.Denotes operators table) {i : Nat} {key : Address}
    (horacle : aggregator.oracles[i]? = some oracle) (hkey : d.TransmitsFrom oracle key) :
    (table.map Prod.fst)[i]? = some key := by
  obtain ⟨a, ha, hassigns⟩ := exists_getElem?_of_forall₂ hoperators horacle
  obtain ⟨e, he, hdenotes⟩ := exists_getElem?_of_forall₂ htable ha
  rw [List.getElem?_map, he, Option.map_some, key_eq hkey hassigns hdenotes]

theorem two_le_count {keys : List Address} {key : Address} {i j : Nat} (hlt : i < j)
    (hi : keys[i]? = some key) (hj : keys[j]? = some key) : 2 ≤ keys.count key := by
  obtain ⟨hi, hki⟩ := List.getElem?_eq_some_iff.mp hi
  obtain ⟨hj, hkj⟩ := List.getElem?_eq_some_iff.mp hj
  rw [← List.duplicate_iff_two_le_count, List.duplicate_iff_exists_distinct_get]
  exact ⟨⟨i, hi⟩, ⟨j, hj⟩, hlt, hki.symm, hkj.symm⟩

/-- Two oracles with one key are both still there when the instruction is built. -/
theorem run_of_coincide {aggregator : Aggregator} {input : PayeeInput} {key : Address}
    (haggregator : d.aggregators.lookup state = some aggregator)
    (hcoincide : d.Coincide aggregator key) (hinput : d.payeeInput state = .ok input)
    (hwell : input.WellFormed) {request : Request}
    (hrequest : request.input.operators = input.operators) (chain : Chain) (encoder : Encoder)
    (signer : Address) :
    ∃ again : List Address, key ∈ again ∧ Build.run chain encoder request signer =
      ⟨.error (.validation .duplicateTransmitters (again.map Address.text)), [], 0, none⟩ := by
  obtain ⟨_, haggregator', hoperators, -⟩ := payeeInput_eq_ok_iff.mp hinput
  cases haggregator.symm.trans haggregator'
  obtain ⟨table, htable⟩ := PayeeTable.exists_denotes_iff.mpr hwell
  obtain ⟨i, j, first, second, hlt, hfirst, hsecond, hkey, hkey'⟩ := hcoincide
  have hcount : 2 ≤ (table.map Prod.fst).count key :=
    two_le_count hlt (getElem?_keys hoperators htable hfirst hkey)
      (getElem?_keys hoperators htable hsecond hkey')
  have hnodup : ¬ (table.map Prod.fst).Nodup := by
    intro h
    have := List.nodup_iff_count_le_one.mp h key
    omega
  refine ⟨PayeeTable.repeated (table.map Prod.fst), PayeeTable.mem_repeated_iff.mpr hcount, ?_⟩
  apply Build.run_of_no_table
  rw [← hrequest] at htable
  rw [PayeeTable.ofInput_of_denotes htable, if_neg hnodup]

/-- The payees of an aggregator follow from a description exactly when it has the aggregator and
knows, for each oracle, an operator with a node address. There is then one assignment for each
oracle, in order, from the operator's first node address to its admin address, and payees without a
token account are allowed. Otherwise the aggregator is unknown, or the first oracle without an
assignment is named with what it lacks. Where two oracles transmit from one key and all addresses
are valid, no instruction is built from the assignments, and that key is among those named. -/
theorem payeeInput_resolves (d : Deployment) (state : String) :
    ((∃ input, d.payeeInput state = .ok input) ↔
        ∃ aggregator, d.aggregators.lookup state = some aggregator ∧
          ∀ oracle ∈ aggregator.oracles, ∃ operator,
            d.operators.lookup oracle = some operator ∧ operator.nodeAddresses ≠ []) ∧
      (∀ input, d.payeeInput state = .ok input ↔
        ∃ aggregator, d.aggregators.lookup state = some aggregator ∧
          List.Forall₂ d.Assigns aggregator.oracles input.operators ∧
          input.allowUnfunded = true) ∧
      (∀ error, d.payeeInput state = .error error ↔
        (d.aggregators.lookup state = none ∧ error = .unknownAggregator state) ∨
          ∃ aggregator, d.aggregators.lookup state = some aggregator ∧
            d.FirstLacking state aggregator error) ∧
      ∀ aggregator input key, d.aggregators.lookup state = some aggregator →
        d.Coincide aggregator key → d.payeeInput state = .ok input → input.WellFormed →
        ∀ chain encoder request signer, request.input.operators = input.operators →
          ∃ again : List Address, key ∈ again ∧ Build.run chain encoder request signer =
            ⟨.error (.validation .duplicateTransmitters (again.map Address.text)), [], 0,
              none⟩ := by
  refine ⟨exists_payeeInput_iff, fun _ => payeeInput_eq_ok_iff, fun _ => payeeInput_eq_error_iff,
    ?_⟩
  intro aggregator input key haggregator hcoincide hinput hwell chain encoder request signer
    hrequest
  exact run_of_coincide haggregator hcoincide hinput hwell hrequest chain encoder signer

end PayeeProposal.Deployment
