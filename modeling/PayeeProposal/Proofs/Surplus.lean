import PayeeProposal.Proofs.Funding
import PayeeProposal.Proofs.Permutation
import PayeeProposal.Proofs.ProposalView
import PayeeProposal.Proofs.Weaving

/-!
# Assignments outside the proposal

Assignments for transmitters that are neither listed otherwise nor active in the proposal change
neither what is built nor how building fails, wherever they stand among the others. Their payees
are checked with all payees, though: one that is not eligible makes a build fail that does not
allow it and has come so far.
-/

namespace PayeeProposal

namespace PayeeTable

variable {as extras all seen seen' found : List Address}

/-- Addresses that come once are not found to come again, and change nothing of what is. What has
been met is the same where it matters: for the addresses that are still to come. -/
theorem repeatedFrom_woven (h : Woven as extras all) (hnodup : extras.Nodup)
    (hapart : ∀ x ∈ extras, x ∉ as) (hnew : ∀ x ∈ extras, x ∉ seen')
    (hseen : ∀ a ∈ as, a ∈ seen' ↔ a ∈ seen) :
    repeatedFrom seen' found all = repeatedFrom seen found as := by
  induction h generalizing seen seen' found with
  | nil => rfl
  | @left a as extras all _ ih =>
    have hcontains : seen'.contains a = seen.contains a := by
      rw [Bool.eq_iff_iff, List.contains_iff_mem, List.contains_iff_mem]
      exact hseen a List.mem_cons_self
    have hapart' : ∀ x ∈ extras, x ∉ as := fun x hx hmem =>
      hapart x hx (List.mem_cons_of_mem a hmem)
    have hseen' : ∀ b ∈ as, b ∈ seen' ↔ b ∈ seen := fun b hb =>
      hseen b (List.mem_cons_of_mem a hb)
    rw [repeatedFrom, repeatedFrom, hcontains]
    split
    · exact ih hnodup hapart' hnew hseen'
    · apply ih hnodup hapart'
      · intro x hx hmem
        rcases List.mem_cons.mp hmem with rfl | hmem
        · exact hapart x hx List.mem_cons_self
        · exact hnew x hx hmem
      · intro b hb
        rw [List.mem_cons, List.mem_cons, hseen' b hb]
  | @right x as extras all _ ih =>
    obtain ⟨hfirst, hnodup'⟩ := List.nodup_cons.mp hnodup
    have hx : ¬ seen'.contains x = true := by
      rw [List.contains_iff_mem]
      exact hnew x List.mem_cons_self
    rw [repeatedFrom, if_neg hx]
    apply ih hnodup'
    · exact fun y hy => hapart y (List.mem_cons_of_mem x hy)
    · intro y hy hmem
      rcases List.mem_cons.mp hmem with rfl | hmem
      · exact hfirst hy
      · exact hnew y (List.mem_cons_of_mem x hy) hmem
    · intro b hb
      have hbx : b ≠ x := by
        rintro rfl
        exact hapart b List.mem_cons_self hb
      rw [List.mem_cons, hseen b hb]
      exact or_iff_right hbx

theorem repeated_woven (h : Woven as extras all) (hnodup : extras.Nodup)
    (hapart : ∀ x ∈ extras, x ∉ as) : repeated all = repeated as :=
  repeatedFrom_woven h hnodup hapart (fun _ _ => List.not_mem_nil) fun _ _ => Iff.rfl

section Keys

variable {table added whole : PayeeTable} (hwoven : Woven table added whole)
  (hadded : (added.map Prod.fst).Nodup)
  (hapart : ∀ t ∈ added.map Prod.fst, t ∉ table.map Prod.fst)

include hwoven

include hadded hapart in
theorem nodup_keys_woven : (whole.map Prod.fst).Nodup ↔ (table.map Prod.fst).Nodup := by
  rw [(hwoven.map Prod.fst).perm.nodup_iff, List.nodup_append]
  constructor
  · exact fun h => h.1
  · intro h
    refine ⟨h, hadded, ?_⟩
    rintro t ht _ ht' rfl
    exact hapart t ht' ht

theorem lookup_woven {t : Address} (htable : (table.map Prod.fst).Nodup)
    (hwhole : (whole.map Prod.fst).Nodup) (ht : t ∉ added.map Prod.fst) :
    table.lookup t = whole.lookup t := by
  apply Option.ext
  intro p
  rw [lookup_eq_some_iff htable, lookup_eq_some_iff hwhole, hwoven.mem_iff]
  exact (or_iff_left fun hmem => ht (List.mem_map.mpr ⟨_, hmem, rfl⟩)).symm

end Keys

end PayeeTable

namespace Build

open Traversal

variable {chain : Chain} {encoder : Encoder} {program : Address} {request : Request}
  {signer : Address} {extras all : List Assignment}

/-- Assignments that have no part in what is proposed: their texts are addresses, and their
transmitters differ from one another, from those of the request's own assignments and from the
active ones of the proposal. -/
structure Surplus (chain : Chain) (program : Address) (request : Request)
    (extras : List Assignment) : Prop where
  wellFormed : (request.withOperators extras).input.WellFormed
  distinct : (request.withOperators extras).input.Distinct
  unlisted : ∀ e ∈ extras, ∀ o ∈ request.input.operators, ∀ t,
    Address.parseTrimmed e.transmitter = .ok t → Address.parseTrimmed o.transmitter ≠ .ok t
  inactive : ∀ account p, chain request.proposal = .found account → account.owner = program →
    Proposal.decode account.data = .ok p →
      ∀ e ∈ extras, ∀ t ∈ p.transmitters, Address.parseTrimmed e.transmitter ≠ .ok t

/-- Nothing stands in the way of the payees' check, and surplus payees do not pass it. -/
structure SurplusLacksFunds (chain : Chain) (request : Request) (extras : List Assignment) :
    Prop where
  strict : request.input.allowUnfunded = false
  wellFormed : request.input.WellFormed
  distinct : request.input.Distinct
  ineligible : ∃ e ∈ extras, ¬ Eligible chain request.tokenMint e.payee

/-! ## The table -/

/-- The keys of surplus assignments are not those of the request's own. -/
theorem Surplus.apart (h : Surplus chain program request extras) {table added : PayeeTable}
    (hread : List.Forall₂ Assignment.Denotes request.input.operators table)
    (hadded : List.Forall₂ Assignment.Denotes extras added) :
    ∀ t ∈ added.map Prod.fst, t ∉ table.map Prod.fst := by
  intro t ht hlisted
  obtain ⟨entry, hentry, rfl⟩ := List.mem_map.mp ht
  obtain ⟨entry', hentry', heq⟩ := List.mem_map.mp hlisted
  obtain ⟨e, he, hde⟩ := exists_of_mem_right hadded hentry
  obtain ⟨o, ho, hdo⟩ := exists_of_mem_right hread hentry'
  exact h.unlisted e he o ho _ hde.1 (heq ▸ hdo.1)

/-- With surplus assignments there is no table for the same reason, or there is one that gives
other transmitters the same payees. -/
theorem ofInput_surplus (hwoven : Woven request.input.operators extras all)
    (h : Surplus chain program request extras) :
    (∃ e, PayeeTable.ofInput request.input = .error e ∧
        PayeeTable.ofInput (request.withOperators all).input = .error e) ∨
      ∃ table whole, PayeeTable.ofInput request.input = .ok table ∧
        PayeeTable.ofInput (request.withOperators all).input = .ok whole ∧
        ∀ t, (∀ e ∈ extras, Address.parseTrimmed e.transmitter ≠ .ok t) →
          table.lookup t = whole.lookup t := by
  cases hparse : request.input.operators.mapM PayeeTable.parse with
  | error e =>
    -- the first text that is no address is one of the request's own
    left
    have hreads : ∀ a ∈ extras, ∃ entry, PayeeTable.parse a = .ok entry := by
      intro a ha
      obtain ⟨entry, hentry⟩ := h.wellFormed a ha
      exact ⟨entry, PayeeTable.parse_eq_ok_iff.mpr hentry⟩
    exact ⟨e, PayeeTable.ofInput_of_parse_error hparse,
      PayeeTable.ofInput_of_parse_error ((hwoven.mapM_eq_error_iff hreads).mpr hparse)⟩
  | ok table =>
    have hread := PayeeTable.mapM_parse_eq_ok_iff.mp hparse
    obtain ⟨added, hadded⟩ := PayeeTable.exists_denotes_iff.mpr h.wellFormed
    obtain ⟨whole, hentries, hwhole⟩ := hwoven.exists_forall₂ hread hadded
    have hnodup : (added.map Prod.fst).Nodup := (PayeeTable.distinct_iff hadded).mp h.distinct
    have hapart := h.apart hread hadded
    have hiff := PayeeTable.nodup_keys_woven hentries hnodup hapart
    by_cases hdistinct : (table.map Prod.fst).Nodup
    · right
      refine ⟨table, whole, PayeeTable.ofInput_eq_ok_iff.mpr ⟨hread, hdistinct⟩,
        PayeeTable.ofInput_eq_ok_iff.mpr ⟨hwhole, hiff.mpr hdistinct⟩, fun t ht => ?_⟩
      apply PayeeTable.lookup_woven hentries hdistinct (hiff.mpr hdistinct)
      intro hmem
      obtain ⟨entry, hentry, rfl⟩ := List.mem_map.mp hmem
      obtain ⟨e, he, hde⟩ := exists_of_mem_right hadded hentry
      exact ht e he hde.1
    · -- the keys that come again are those of the request's own assignments
      left
      have hsame : PayeeTable.ofInput (request.withOperators all).input = _ :=
        PayeeTable.ofInput_of_denotes hwhole
      rw [if_neg fun hall => hdistinct (hiff.mp hall),
        PayeeTable.repeated_woven (hentries.map Prod.fst) hnodup hapart] at hsame
      refine ⟨_, ?_, hsame⟩
      rw [PayeeTable.ofInput_of_denotes hread, if_neg hdistinct]

/-! ## The build -/

theorem proposalIn_eq_ok_iff {proposal : Address} {l : Lookup} {p : Proposal} :
    proposalIn program proposal l = .ok p ↔
      ∃ account, l = .found account ∧ account.owner = program ∧
        Proposal.decode account.data = .ok p := by
  cases l with
  | found account =>
    by_cases howner : account.owner = program
    · simp [proposalIn, howner, mapError_eq_ok]
    · simp [proposalIn, howner]
  | absent => simp [proposalIn]
  | failed reason => simp [proposalIn]
  | crashed => simp [proposalIn]

/-- Payees that are not eligible are listed among all such payees as they stand among all. -/
theorem unfundedPayees_woven (hwoven : Woven request.input.operators extras all) :
    Woven (request.unfundedPayees chain) ((request.withOperators extras).unfundedPayees chain)
      ((request.withOperators all).unfundedPayees chain) :=
  (hwoven.map Assignment.payee).filter _

theorem unfundedPayees_eq_of_eligible (hwoven : Woven request.input.operators extras all)
    (hextras : ∀ e ∈ extras, Eligible chain request.tokenMint e.payee) :
    (request.withOperators all).unfundedPayees chain = request.unfundedPayees chain := by
  refine (unfundedPayees_woven hwoven).eq_of_nil (List.filter_eq_nil_iff.mpr ?_)
  intro payee hpayee
  obtain ⟨e, he, rfl⟩ := List.mem_map.mp hpayee
  have heligible : (Eligibility.check chain (request.withOperators extras).tokenMint
      e.payee).isEligible = true := Eligibility.isEligible_check_iff.mpr (hextras e he)
  simp [heligible]

/-- Where no surplus payee is in the way, surplus assignments pass exactly when the others do. -/
theorem passes_surplus (hwoven : Woven request.input.operators extras all)
    (hextras : request.input.allowUnfunded = true ∨
      ∀ e ∈ extras, Eligible chain request.tokenMint e.payee) :
    passes chain (request.withOperators all) = passes chain request := by
  rw [Bool.eq_iff_iff, passes_iff, passes_iff]
  constructor
  · rintro (hall | hallow)
    · exact .inl fun o ho => hall o (hwoven.mem_iff.mpr (.inl ho))
    · exact .inr hallow
  · rintro (hown | hallow)
    · refine hextras.elim .inr fun heligible => .inl fun o ho => ?_
      rcases hwoven.mem_iff.mp ho with ho | ho
      · exact hown o ho
      · exact heligible o ho
    · exact .inr hallow

/-- What is looked up in the table is not what surplus assignments are for. -/
theorem encodeOrdered_surplus (h : Surplus chain encoder.program request extras)
    {table whole : PayeeTable}
    (hlookup : ∀ t, (∀ e ∈ extras, Address.parseTrimmed e.transmitter ≠ .ok t) →
      table.lookup t = whole.lookup t) :
    encodeOrdered chain encoder (request.withOperators all) signer whole =
      encodeOrdered chain encoder request signer table := by
  refine encodeOrdered_of_lookups all fun p hp t ht => hlookup t fun e he => ?_
  obtain ⟨account, hfound, howner, hdecode⟩ := proposalIn_eq_ok_iff.mp hp
  exact h.inactive account p hfound howner hdecode e he t ht

/-- Where a table comes to be and no surplus payee is in the way, the outcome is the same. -/
theorem outcome_surplus (hwoven : Woven request.input.operators extras all)
    (h : Surplus chain encoder.program request extras)
    (hextras : request.input.allowUnfunded = true ∨
      ∀ e ∈ extras, Eligible chain request.tokenMint e.payee)
    {table whole : PayeeTable} (htable : PayeeTable.ofInput request.input = .ok table)
    (hwhole : PayeeTable.ofInput (request.withOperators all).input = .ok whole)
    (hlookup : ∀ t, (∀ e ∈ extras, Address.parseTrimmed e.transmitter ≠ .ok t) →
      table.lookup t = whole.lookup t) :
    outcome chain encoder (request.withOperators all) signer =
      outcome chain encoder request signer := by
  rw [outcome_of_table htable, outcome_of_table hwhole, passes_surplus hwoven hextras,
    encodeOrdered_surplus h hlookup]
  cases hpasses : passes chain request with
  | true => rfl
  | false =>
    -- the request's own payees are in the way, and they are all that is listed
    have hstrict : request.input.allowUnfunded = false := (passes_eq_false_iff.mp hpasses).1
    have heligible := hextras.resolve_left (by simp [hstrict])
    have hfailed : ∀ request, (reportOn chain request).failed = request.unfundedPayees chain :=
      fun request => Eligibility.failed_report _ _ _
    rw [hfailed, hfailed, unfundedPayees_eq_of_eligible hwoven heligible]

/-- Surplus assignments are inert, but for payees of theirs that are neither eligible nor allowed:
where nothing else is wrong with the assignments, a build then fails for its payees, and lists the
request's own ones that are not eligible among those. -/
theorem surplus_inert (chain : Chain) (encoder : Encoder) (request : Request) (signer : Address)
    {extras all : List Assignment} (hwoven : Woven request.input.operators extras all)
    (h : Surplus chain encoder.program request extras) :
    (¬ SurplusLacksFunds chain request extras →
      (run chain encoder (request.withOperators all) signer).result =
        (run chain encoder request signer).result) ∧
    (SurplusLacksFunds chain request extras →
      (run chain encoder (request.withOperators all) signer).result =
          .error (.validation .unfundedPayees ((request.withOperators all).unfundedPayees chain)) ∧
        Woven (request.unfundedPayees chain)
          ((request.withOperators extras).unfundedPayees chain)
          ((request.withOperators all).unfundedPayees chain)) := by
  rcases ofInput_surplus hwoven h with
    ⟨e, htable, hwhole⟩ | ⟨table, whole, htable, hwhole, hlookup⟩
  · refine ⟨fun _ => ?_, fun hlacks => ?_⟩
    · rw [run_of_no_table htable, run_of_no_table hwhole]
    · obtain ⟨table, hok⟩ :=
        PayeeTable.exists_ofInput_eq_ok_iff.mpr ⟨hlacks.wellFormed, hlacks.distinct⟩
      cases htable.symm.trans hok
  · refine ⟨fun hnot => ?_, fun hlacks => ?_⟩
    · have hextras : request.input.allowUnfunded = true ∨
          ∀ e ∈ extras, Eligible chain request.tokenMint e.payee := by
        by_contra hneither
        obtain ⟨hstrict, hineligible⟩ := not_or.mp hneither
        obtain ⟨hwell, hdistinct⟩ := PayeeTable.exists_ofInput_eq_ok_iff.mp ⟨table, htable⟩
        exact hnot ⟨Bool.eq_false_iff.mpr hstrict, hwell, hdistinct, by simpa using hineligible⟩
      rw [result_run, result_run]
      exact outcome_surplus hwoven h hextras htable hwhole hlookup
    · obtain ⟨hwell, hdistinct⟩ := PayeeTable.exists_ofInput_eq_ok_iff.mp ⟨whole, hwhole⟩
      obtain ⟨e, he, hnot⟩ := hlacks.ineligible
      have hall : LacksFunds chain (request.withOperators all) :=
        ⟨hwell, hdistinct, e, hwoven.mem_iff.mpr (.inr he), hnot⟩
      rw [run_of_lacksFunds hall hlacks.strict]
      exact ⟨rfl, unfundedPayees_woven hwoven⟩

/-- A surplus assignment in front of the one that the proposal has a slot for. Where payees that are
not eligible are allowed, nothing changes; where they are not, the surplus payee is listed too. -/
theorem surplus_inert_front :
    let own : Assignment :=
      ⟨"11111111111111111111111111111111", "11111111111111111111111111111111"⟩
    let extra : Assignment :=
      ⟨"TokenkegQfeZyiNwAJbNbGKPFXCWuBvf9Ss623VQ5DA", "TokenkegQfeZyiNwAJbNbGKPFXCWuBvf9Ss623VQ5DA"⟩
    let request (allow : Bool) : Request :=
      ⟨⟨[own], allow⟩, Address.tokenProgram, Address.systemProgram⟩
    let chain : Chain := Chain.set (fun _ => .absent) Address.tokenProgram
      (.found ⟨Address.systemProgram, oneActive 0 []⟩)
    let encoder := Encoder.forProgram Address.systemProgram
    let signer := Address.systemProgram
    Woven [own] [extra] [extra, own] ∧
      (∀ allow, Surplus chain encoder.program (request allow) [extra]) ∧
      (run chain encoder ((request true).withOperators [extra, own]) signer).result =
        (run chain encoder (request true) signer).result ∧
      (run chain encoder (request true) signer).result.isOk = true ∧
      SurplusLacksFunds chain (request false) [extra] ∧
      (run chain encoder ((request false).withOperators [extra, own]) signer).result =
        .error (.validation .unfundedPayees [extra.payee, own.payee]) := by
  intro own extra request chain encoder signer
  have hwoven : Woven [own] [extra] [extra, own] := .right (.left .nil)
  have hown : Address.parseTrimmed own.transmitter = .ok Address.systemProgram := by decide +kernel
  have hextra : Address.parseTrimmed extra.transmitter = .ok Address.tokenProgram := by
    decide +kernel
  have hwell : ∀ allow, (request allow).input.WellFormed := by
    intro allow o ho
    obtain rfl := List.mem_singleton.mp ho
    exact ⟨(_, _), hown, hown⟩
  have hsurplus : ∀ allow, Surplus chain encoder.program (request allow) [extra] := by
    intro allow
    constructor
    case wellFormed =>
      intro o ho
      obtain rfl := List.mem_singleton.mp ho
      exact ⟨(_, _), hextra, hextra⟩
    case distinct => exact List.pairwise_singleton _ _
    case unlisted =>
      intro e he o ho t ht ht'
      obtain rfl := List.mem_singleton.mp he
      obtain rfl := List.mem_singleton.mp ho
      have hsame : Address.tokenProgram = Address.systemProgram :=
        (Except.ok.inj (hextra.symm.trans ht)).trans (Except.ok.inj (ht'.symm.trans hown))
      exact absurd hsame (by decide)
    case inactive =>
      intro account p hfound _ hdecode e he t ht hparse
      obtain rfl := List.mem_singleton.mp he
      have hactive : ((Proposal.decode (oneActive 0 [])).map Proposal.transmitters) =
          .ok [Address.systemProgram] := by decide +kernel
      cases hfound
      rw [hdecode] at hactive
      rw [Except.ok.inj hactive] at ht
      obtain rfl := List.mem_singleton.mp ht
      exact absurd (Except.ok.inj (hextra.symm.trans hparse)) (by decide)
  have hineligible : ∀ payee ∈ [extra.payee, own.payee],
      (Eligibility.check chain Address.systemProgram payee).isEligible = false := by decide +kernel
  have hlacks : SurplusLacksFunds chain (request false) [extra] := by
    refine ⟨rfl, hwell false, List.pairwise_singleton _ _, extra, List.mem_singleton_self _, ?_⟩
    intro h
    cases (hineligible _ List.mem_cons_self).symm.trans (Eligibility.isEligible_check_iff.mpr h)
  have hall : ((request false).withOperators [extra, own]).unfundedPayees chain =
      [extra.payee, own.payee] :=
    List.filter_eq_self.mpr fun payee hpayee =>
      congrArg not (hineligible payee hpayee)
  have hallowed : ¬ SurplusLacksFunds chain (request true) [extra] := fun h => by cases h.strict
  have hinert := surplus_inert chain encoder (request true) signer hwoven (hsurplus true)
  have hlisted := surplus_inert chain encoder (request false) signer hwoven (hsurplus false)
  have htable : PayeeTable.ofInput (request true).input =
      .ok [(Address.systemProgram, Address.systemProgram)] := by decide +kernel
  refine ⟨hwoven, hsurplus, hinert.1 hallowed, ?_, hlacks, ?_⟩
  · rw [result_run, outcome_of_table htable, if_pos (passes_iff.mpr (.inr rfl))]
    decide +kernel
  · rw [← hall]
    exact (hlisted.2 hlacks).1

end Build

end PayeeProposal
