import PayeeProposal.Proofs.FanOut

/-!
# The report on payees

Whatever the order in which the tasks go on and are joined, the report has for each payee, in the
order of the payees, the verdict that the payee has on its own. So a report says of a payee nothing
that hangs on the other payees, and it looks at the chain only where some payee's text leads.
-/

namespace PayeeProposal

/-- The text leads to a token account of the mint. -/
def Eligible (chain : Chain) (mint : Address) (payee : String) : Prop :=
  ∃ a account, Address.parseTrimmed payee = .ok a ∧ chain a = .found account ∧
    account.owner = Address.tokenProgram ∧ TokenAccount.mint account.data = .ok mint

namespace Eligibility

variable {chain : Chain} {mint : Address}

theorem judgeData_eq_ok_iff {data : List UInt8} :
    judgeData mint data = .ok () ↔ TokenAccount.mint data = .ok mint := by
  unfold judgeData
  cases TokenAccount.mint data with
  | error e => simp
  | ok actual =>
    by_cases h : actual = mint
    · simp [h]
    · simp [h]

theorem judge_eq_ok_iff {lookup : Lookup} :
    judge mint lookup = some (.ok ()) ↔
      ∃ account, lookup = .found account ∧ account.owner = Address.tokenProgram ∧
        TokenAccount.mint account.data = .ok mint := by
  cases lookup with
  | absent => simp [judge]
  | failed reason => simp [judge]
  | crashed => simp [judge]
  | found account =>
    by_cases h : account.owner = Address.tokenProgram
    · simp [judge, h, judgeData_eq_ok_iff]
    · simp [judge, h]

theorem verdict_eq_ok_iff {payee : String} :
    verdict chain mint payee = .ok () ↔ Eligible chain mint payee := by
  have htask : verdict chain mint payee = .ok () ↔ task chain mint payee = some (.ok ()) := by
    unfold verdict
    cases task chain mint payee <;> simp
  rw [htask]
  unfold task Eligible
  cases Address.parseTrimmed payee with
  | error e => simp
  | ok a =>
    simp only [judge_eq_ok_iff, Except.ok.injEq]
    constructor
    · rintro ⟨account, h⟩
      exact ⟨a, account, rfl, h⟩
    · rintro ⟨_, account, rfl, h⟩
      exact ⟨account, h⟩

theorem isEligible_check_iff {payee : String} :
    (check chain mint payee).isEligible = true ↔ Eligible chain mint payee := by
  rw [← verdict_eq_ok_iff]
  unfold check PayeeCheck.isEligible
  cases verdict chain mint payee with
  | ok u => simp
  | error e => simp

/-! ## The report -/

theorem count_inTurn (n i : Nat) : (inTurn n).count i = if i < n then 3 else 0 := by
  unfold inTurn
  induction n with
  | zero => rfl
  | succ n ih =>
    rw [List.range_succ, List.flatMap_append, List.flatMap_singleton, List.count_append, ih]
    by_cases hi : i = n
    · subst hi
      simp
    · have hnot : i ∉ [n, n, n] := by simpa using hi
      rw [List.count_eq_zero.mpr hnot]
      split <;> split <;> omega

theorem finished_inTurn (chain : Chain) (mint : Address) (payees : List String) :
    ((FanOut.spawn id payees).run chain mint (inTurn payees.length)).finished = true :=
  FanOut.finished_run Function.injective_id fun i hi => by rw [count_inTurn, if_pos hi]

/-- The report has the check of each payee on its own. -/
theorem report_eq (chain : Chain) (mint : Address) (payees : List String) :
    report chain mint payees = ⟨payees.map (check chain mint)⟩ :=
  FanOut.report_of_finished (FanOut.follows_run Function.injective_id _)
    (finished_inTurn chain mint payees)

theorem inTurn_succ (n : Nat) : inTurn (n + 1) = inTurn n ++ [n, n, n] := by
  rw [inTurn, List.range_succ, List.flatMap_append, List.flatMap_singleton]
  rfl

theorem reads_concat (payees : List String) (payee : String) :
    reads (payees ++ [payee]) = reads payees ++ (Address.parseTrimmed payee).toOption.toList := by
  simp only [reads, List.filterMap_eq_flatMap_toList, List.flatMap_append, List.flatMap_singleton]

/-- Tasks that go on in turn ask in the order of the payees. -/
theorem asked_inTurn {payees : List String} {n : Nat} (hn : n ≤ payees.length) :
    ((FanOut.spawn id payees).run chain mint (inTurn n)).asked = reads (payees.take n) := by
  induction n with
  | zero => rfl
  | succ n ih =>
    have hpayee := List.getElem?_eq_getElem (Nat.lt_of_succ_le hn)
    let s := (FanOut.spawn id payees).run chain mint (inTurn n)
    have hrun : (FanOut.spawn id payees).run chain mint (inTurn (n + 1)) =
        ((s.step chain mint n).step chain mint n).step chain mint n := by
      rw [inTurn_succ, FanOut.run, List.foldl_append]
      rfl
    have hfollows : s.Follows chain mint id payees fun i => (inTurn n).count i :=
      FanOut.follows_run Function.injective_id _
    have hfirst := FanOut.follows_step Function.injective_id hfollows n
    have hsecond := FanOut.follows_step Function.injective_id hfirst n
    have hcount : (inTurn n).count n = 0 := by rw [count_inTurn, if_neg (Nat.lt_irrefl n)]
    -- only the first of the three turns asks
    rw [hrun, FanOut.asked_step hsecond hpayee, FanOut.asked_step hfirst hpayee,
      FanOut.asked_step hfollows hpayee, ih (Nat.le_of_succ_le hn), hcount, List.take_add_one,
      hpayee, Option.toList_some, reads_concat]
    simp

/-- What has been asked when all payees have been checked: the addresses of the payees. -/
theorem asked_checked (chain : Chain) (mint : Address) (payees : List String) :
    (checked chain mint payees).asked = reads payees := by
  rw [checked, asked_inTurn (Nat.le_refl _), List.take_length]

theorem allEligible_report_iff {payees : List String} :
    (report chain mint payees).allEligible = true ↔
      ∀ payee ∈ payees, Eligible chain mint payee := by
  rw [report_eq]
  simp [EligibilityReport.allEligible, isEligible_check_iff]

theorem failed_report (chain : Chain) (mint : Address) (payees : List String) :
    (report chain mint payees).failed =
      payees.filter fun payee => !(check chain mint payee).isEligible := by
  rw [report_eq]
  unfold EligibilityReport.failed
  rw [List.filter_map, List.map_map]
  simp only [check, Function.comp_def, List.map_id']

/-! ## Every order of the tasks -/

theorem judgeData_ne_aborted {data : List UInt8} {reason : Abortion} :
    judgeData mint data ≠ .error (@Ineligibility.aborted reason) := by
  unfold judgeData
  cases TokenAccount.mint data with
  | error e => simp
  | ok actual => by_cases h : actual = mint <;> simp [h]

/-- A payee's task is missing a verdict exactly when the lookup of the payee's address breaks off,
and then for this reason. -/
theorem verdict_eq_aborted_iff {payee : String} {reason : Abortion} :
    verdict chain mint payee = .error (@Ineligibility.aborted reason) ↔
      reason = .crashed ∧ ∃ a, Address.parseTrimmed payee = .ok a ∧ chain a = .crashed := by
  unfold verdict task
  cases Address.parseTrimmed payee with
  | error e => simp
  | ok a =>
    cases hl : chain a with
    | absent => simp [judge, hl]
    | failed reason => simp [judge, hl]
    | crashed => simp [judge, hl, eq_comm]
    | found account =>
      by_cases howner : account.owner = Address.tokenProgram
      · simp [judge, howner, hl, judgeData_ne_aborted]
      · simp [judge, howner, hl]

/-- A fan-out has come to the report on some payees: a check for each payee in order, with the
verdict that a report on that payee alone has, from one question for each text that is an
address. -/
structure FanOut.Settles (chain : Chain) (mint : Address) (payees : List String) (s : FanOut) :
    Prop where
  report : s.report = Eligibility.report chain mint payees
  checks : s.report.checks = payees.map fun payee => ⟨payee, verdict chain mint payee⟩
  alone : s.report.checks =
    payees.flatMap fun payee => (Eligibility.report chain mint [payee]).checks
  allEligible : s.report.allEligible =
    payees.all fun payee => (check chain mint payee).isEligible
  failed : s.report.failed = payees.filter fun payee => !(check chain mint payee).isEligible
  asked : ∀ i payee, payees[i]? = some payee →
    s.readsAt i = (Address.parseTrimmed payee).toOption.toList
  reads : (s.reads.map Prod.snd).Perm (Eligibility.reads payees)

/-- In whatever order tasks go on and are joined, all are joined once each has had its turns, and
then they have come to the same report and the same questions. -/
theorem settles_of_finished (chain : Chain) (mint : Address) (payees : List String)
    {ids : Nat → Nat} (hids : Function.Injective ids) (schedule : List Nat) :
    let s := (FanOut.spawn ids payees).run chain mint schedule
    ((∀ i < payees.length, 3 ≤ schedule.count i) → s.finished = true) ∧
      (s.finished = true → s.Settles chain mint payees) ∧
      ∀ payee reason, verdict chain mint payee = .error (@Ineligibility.aborted reason) ↔
        reason = .crashed ∧ ∃ a, Address.parseTrimmed payee = .ok a ∧ chain a = .crashed := by
  intro s
  refine ⟨FanOut.finished_run hids, fun hdone => ?_, fun payee reason => verdict_eq_aborted_iff⟩
  have hfollows : s.Follows chain mint ids payees fun i => schedule.count i :=
    FanOut.follows_run hids schedule
  have hreport : s.report = report chain mint payees := by
    rw [FanOut.report_of_finished hfollows hdone, report_eq]
  have halone : ∀ payee, (report chain mint [payee]).checks = [check chain mint payee] := by
    intro payee
    rw [report_eq]
    rfl
  constructor
  case report => exact hreport
  case checks =>
    rw [hreport, report_eq]
    rfl
  case alone =>
    simp only [hreport, halone]
    rw [report_eq]
    exact List.map_eq_flatMap
  case allEligible =>
    rw [hreport, report_eq, EligibilityReport.allEligible, List.all_map]
    rfl
  case failed => rw [hreport, failed_report]
  case asked =>
    intro i payee hpayee
    rw [(FanOut.hasLane_of_finished hfollows hdone hpayee).reads, Lane.reads_final]
  case reads => exact FanOut.perm_reads_of_finished hfollows hdone

/-- Two tasks for one address break off between others that end; their numbers are not their
positions, and the last task is joined first. -/
theorem settles_interleaved :
    let payees := ["11111111111111111111111111111111", "?", " 11111111111111111111111111111111",
      "TokenkegQfeZyiNwAJbNbGKPFXCWuBvf9Ss623VQ5DA"]
    let chain : Chain := fun a => if a = Address.systemProgram then .crashed else .absent
    let s := (FanOut.spawn (fun i => 2 * i + 5) payees).run chain Address.systemProgram
      [3, 0, 2, 3, 3, 2, 1, 0, 2, 0, 1]
    Function.Injective (fun i => 2 * i + 5) ∧ s.finished = true ∧
      s.Settles chain Address.systemProgram payees ∧ s.report.failed = payees ∧
      s.reads = [(3, Address.tokenProgram), (0, Address.systemProgram),
        (2, Address.systemProgram)] := by
  intro payees chain s
  have hids : Function.Injective fun i => 2 * i + 5 := by
    intro i j (h : 2 * i + 5 = 2 * j + 5)
    omega
  have hdone : s.finished = true := by decide +kernel
  have hsettles := (settles_of_finished chain Address.systemProgram payees hids
    [3, 0, 2, 3, 3, 2, 1, 0, 2, 0, 1]).2.1 hdone
  refine ⟨hids, hdone, hsettles, ?_, ?_⟩
  · decide +kernel
  · decide +kernel

/-! ## What a report hangs on -/

theorem perm_failed_report {payees payees' : List String} (h : payees.Perm payees') :
    (report chain mint payees).failed.Perm (report chain mint payees').failed := by
  rw [failed_report, failed_report]
  exact h.filter _

theorem allEligible_report_perm {payees payees' : List String} (h : payees.Perm payees') :
    (report chain mint payees).allEligible = (report chain mint payees').allEligible := by
  rw [Bool.eq_iff_iff, allEligible_report_iff, allEligible_report_iff]
  exact forall_congr' fun payee => by rw [h.mem_iff]

theorem report_congr {chain chain' : Chain} {payees : List String}
    (h : ∀ payee ∈ payees, ∀ a, Address.parseTrimmed payee = .ok a → chain a = chain' a) :
    report chain mint payees = report chain' mint payees := by
  rw [report_eq, report_eq, EligibilityReport.mk.injEq]
  refine List.map_congr_left fun payee hp => ?_
  unfold check verdict task
  cases ha : Address.parseTrimmed payee with
  | error e => rfl
  | ok a => simp only [h payee hp a ha]

end Eligibility

end PayeeProposal
