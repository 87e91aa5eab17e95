import PayeeProposal.Proofs.Address
import PayeeProposal.Proofs.Course
import PayeeProposal.Proofs.Eligibility
import PayeeProposal.Proofs.TokenAccount

/-!
# The verdict on a payee

A payee is judged in stages: its text, the lookup, the account, the program that owns it, and its
data. The first stage that fails gives the reason; a payee that passes all of them is accepted. What
is not looked at in the data does not matter, and no account is asked for on behalf of a text that
is no address.
-/

namespace PayeeProposal.Eligibility

variable {chain : Chain} {mint : Address} {payee : String}

/-! ## Stages -/

/-- A payee's text is an address, and this comes of looking at it. -/
def LooksUp (chain : Chain) (payee : String) (l : Lookup) : Prop :=
  ∃ a, Address.parseTrimmed payee = .ok a ∧ chain a = l

/-- The stages of judging a payee. -/
inductive Stage where
  | address
  | lookup
  | existence
  | owner
  | layout
  | use
  | mint
deriving DecidableEq

/-- All stages in order. -/
def Stage.order : List Stage :=
  [.address, .lookup, .existence, .owner, .layout, .use, .mint]

/-- How a stage fails, and for which reason; of stages before it nothing is assumed but what the
stage looks at. -/
inductive Fails (chain : Chain) (mint : Address) (payee : String) : Stage → Ineligibility → Prop
  | address {error : AddressError} (h : Address.parseTrimmed payee = .error error) :
    Fails chain mint payee .address (.invalidAddress error)
  | lookup {reason : String} (h : LooksUp chain payee (.failed reason)) :
    Fails chain mint payee .lookup (.lookup reason)
  | crash (h : LooksUp chain payee .crashed) : Fails chain mint payee .lookup .crashed
  | existence (h : LooksUp chain payee .absent) : Fails chain mint payee .existence .notFound
  | owner {account : Account} (hfound : LooksUp chain payee (.found account))
    (h : account.owner ≠ Address.tokenProgram) :
    Fails chain mint payee .owner (.notTokenAccount account.owner)
  | layout {account : Account} (hfound : LooksUp chain payee (.found account))
    (h : ¬ TokenAccount.WellFormed account.data) :
    Fails chain mint payee .layout (.unreadable .invalid)
  | use {account : Account} (hfound : LooksUp chain payee (.found account))
    (h : account.data[108]? = some 0) : Fails chain mint payee .use (.unreadable .uninitialized)
  | mint {account : Account} {actual : Address} (hfound : LooksUp chain payee (.found account))
    (hactual : account.data.take 32 = actual.bytes) (h : actual ≠ mint) :
    Fails chain mint payee .mint (.mintMismatch mint actual)

theorem LooksUp.unique {l l' : Lookup} (h : LooksUp chain payee l) (h' : LooksUp chain payee l') :
    l = l' := by
  obtain ⟨a, ha, rfl⟩ := h
  obtain ⟨b, hb, rfl⟩ := h'
  cases ha.symm.trans hb
  rfl

theorem verdict_of_looksUp {l : Lookup} (h : LooksUp chain payee l) :
    verdict chain mint payee = (judge mint l).getD (.error .crashed) := by
  obtain ⟨a, ha, rfl⟩ := h
  unfold verdict task
  rw [ha]

/-! ## From the account on -/

section Found

variable {account : Account} (hfound : LooksUp chain payee (.found account))

include hfound

theorem not_fails_lookup (e : Ineligibility) : ¬ Fails chain mint payee .lookup e := by
  intro h
  cases h with
  | lookup h => cases hfound.unique h
  | crash h => cases hfound.unique h

theorem not_fails_existence (e : Ineligibility) : ¬ Fails chain mint payee .existence e := by
  intro h
  cases h with
  | existence h => cases hfound.unique h

theorem not_fails_owner (howner : account.owner = Address.tokenProgram) (e : Ineligibility) :
    ¬ Fails chain mint payee .owner e := by
  intro h
  cases h with
  | owner hfound' h =>
    cases hfound.unique hfound'
    exact h howner

theorem not_fails_layout (hwell : TokenAccount.WellFormed account.data) (e : Ineligibility) :
    ¬ Fails chain mint payee .layout e := by
  intro h
  cases h with
  | layout hfound' h =>
    cases hfound.unique hfound'
    exact h hwell

theorem not_fails_use (hused : account.data[108]? ≠ some 0) (e : Ineligibility) :
    ¬ Fails chain mint payee .use e := by
  intro h
  cases h with
  | use hfound' h =>
    cases hfound.unique hfound'
    exact hused h

theorem not_fails_mint (hmint : account.data.take 32 = mint.bytes) (e : Ineligibility) :
    ¬ Fails chain mint payee .mint e := by
  intro h
  cases h with
  | mint hfound' hactual h =>
    cases hfound.unique hfound'
    exact h (Address.ext_bytes (hactual.symm.trans hmint))

/-- The stages that look at an account's data. -/
theorem data_course (howner : account.owner = Address.tokenProgram) :
    Course (Fails chain mint payee) (fun _ e => verdict chain mint payee = .error e)
      (verdict chain mint payee = .ok ()) [.layout, .use, .mint] := by
  have hjudge : verdict chain mint payee = judgeData mint account.data := by
    rw [verdict_of_looksUp hfound, judge, if_pos howner, Option.getD_some]
  rw [hjudge]
  unfold judgeData
  rcases TokenAccount.mint_cases account.data with
    ⟨hbad, h⟩ | ⟨hwell, ⟨hunused, h⟩ | ⟨hused, h⟩⟩
  · rw [h]
    exact .stop (.layout hfound hbad) rfl
  · rw [h]
    exact .pass (not_fails_layout hfound hwell) (.stop (.use hfound hunused) rfl)
  · rw [h]
    have hlong : 32 ≤ account.data.length := by
      have hsize := hwell.size
      omega
    have hbytes := TokenAccount.bytes_ofLeading hlong
    refine .pass (not_fails_layout hfound hwell) (.pass (not_fails_use hfound hused) ?_)
    by_cases hmint : Address.ofLeading account.data = mint
    · simp only [if_pos hmint]
      exact .pass (not_fails_mint hfound (hbytes.symm.trans (congrArg _ hmint))) (.finish trivial)
    · simp only [if_neg hmint]
      exact .stop (.mint hfound hbytes.symm hmint) rfl

end Found

/-- Judging a payee goes through the stages in order: the first one that fails gives the reason, and
the payee is accepted when none does. -/
theorem verdict_course (chain : Chain) (mint : Address) (payee : String) :
    Course (Fails chain mint payee) (fun _ e => verdict chain mint payee = .error e)
      (verdict chain mint payee = .ok ()) Stage.order := by
  cases ha : Address.parseTrimmed payee with
  | error error =>
    refine .stop (.address ha) ?_
    unfold verdict task
    rw [ha]
    rfl
  | ok a =>
    have haddress : ∀ e, ¬ Fails chain mint payee .address e := by
      intro e h
      cases h with
      | address h => cases ha.symm.trans h
    refine .pass haddress ?_
    cases hlookup : chain a with
    | failed reason => exact .stop (.lookup ⟨a, ha, hlookup⟩) (verdict_of_looksUp ⟨a, ha, hlookup⟩)
    | crashed => exact .stop (.crash ⟨a, ha, hlookup⟩) (verdict_of_looksUp ⟨a, ha, hlookup⟩)
    | absent =>
      have habsent : LooksUp chain payee .absent := ⟨a, ha, hlookup⟩
      refine .pass ?_ (.stop (.existence habsent) (verdict_of_looksUp habsent))
      intro e h
      cases h with
      | lookup h => cases habsent.unique h
      | crash h => cases habsent.unique h
    | found account =>
      have hfound : LooksUp chain payee (.found account) := ⟨a, ha, hlookup⟩
      refine .pass (not_fails_lookup hfound) (.pass (not_fails_existence hfound) ?_)
      by_cases howner : account.owner = Address.tokenProgram
      · exact .pass (not_fails_owner hfound howner) (data_course hfound howner)
      · refine .stop (.owner hfound howner) ?_
        rw [verdict_of_looksUp hfound, judge, if_neg howner, Option.getD_some]

/-! ## What is looked at -/

/-- What is not looked at in the data of an account does not matter. -/
theorem verdict_congr_data (a owner : Address) {data data' : List UInt8}
    (h : TokenAccount.AgreeOnChecked data data') :
    verdict (chain.set a (.found ⟨owner, data⟩)) mint payee =
      verdict (chain.set a (.found ⟨owner, data'⟩)) mint payee := by
  unfold verdict task
  cases Address.parseTrimmed payee with
  | error e => rfl
  | ok b =>
    by_cases hb : b = a
    · subst hb
      simp only [Chain.set_same, judge, judgeData, TokenAccount.mint_congr h]
    · simp only [Chain.set_other chain _ hb]

theorem reads_after_of_error {error : AddressError}
    (h : Address.parseTrimmed payee = .error error) (turns : Nat) :
    (Lane.after chain mint payee turns).reads = [] := by
  unfold Lane.after
  induction turns with
  | zero => rfl
  | succ turns ih =>
    rw [Function.iterate_succ_apply', ← ih]
    unfold Lane.next
    split
    · rw [h]
    · rfl
    · rfl
    · rfl

/-- However far the tasks have come, none has asked for an account on behalf of a text that is no
address. -/
theorem readsAt_of_error {ids : Nat → Nat} (hids : Function.Injective ids) {payees : List String}
    {i : Nat} (hpayee : payees[i]? = some payee) {error : AddressError}
    (h : Address.parseTrimmed payee = .error error) (schedule : List Nat) :
    ((FanOut.spawn ids payees).run chain mint schedule).readsAt i = [] := by
  have hfollows : ((FanOut.spawn ids payees).run chain mint schedule).Follows chain mint ids payees
      fun i => schedule.count i := FanOut.follows_run hids schedule
  rw [(hfollows.lane i payee hpayee).reads]
  exact reads_after_of_error h _

/-- A payee is accepted exactly when its text is an address between blanks, at which there is an
account of the token program whose data hold tokens of the mint. One that is not accepted is
rejected for the first thing that is wrong. Other bytes of the data do not matter, and for a text
that is no address no account is asked for, whatever other payees are checked beside it. -/
theorem verdict_exact (chain : Chain) (mint : Address) (payee : String) :
    (verdict chain mint payee = .ok () ↔
        ∃ a account, Text.trim payee = a.text ∧ chain a = .found account ∧
          account.owner = Address.tokenProgram ∧ TokenAccount.Holds mint account.data) ∧
      Course (Fails chain mint payee) (fun _ e => verdict chain mint payee = .error e)
        (verdict chain mint payee = .ok ()) Stage.order ∧
      (∀ a owner data data', TokenAccount.AgreeOnChecked data data' →
        verdict (chain.set a (.found ⟨owner, data⟩)) mint payee =
          verdict (chain.set a (.found ⟨owner, data'⟩)) mint payee) ∧
      ((∀ a : Address, Text.trim payee ≠ a.text) →
        ∀ ids payees i schedule, Function.Injective ids → payees[i]? = some payee →
          ((FanOut.spawn ids payees).run chain mint schedule).readsAt i = []) := by
  refine ⟨?_, verdict_course chain mint payee, fun a owner _ _ h => verdict_congr_data a owner h,
    ?_⟩
  · rw [verdict_eq_ok_iff]
    unfold Eligible
    simp only [Address.parseTrimmed_eq_ok_iff, TokenAccount.mint_eq_ok_iff]
  · intro hnone ids payees i schedule hids hpayee
    cases ha : Address.parseTrimmed payee with
    | ok a => exact absurd (Address.parseTrimmed_eq_ok_iff.mp ha) (hnone a)
    | error error => exact readsAt_of_error hids hpayee ha schedule

/-- A frozen account with a delegate is as good as any other. -/
example :
    let data := List.replicate 72 0 ++ [1, 0, 0, 0] ++ List.replicate 32 7 ++ [2] ++
      List.replicate 56 0
    verdict (fun _ => .found ⟨Address.tokenProgram, data⟩) Address.systemProgram
      " 11111111111111111111111111111111\n" = .ok () := by decide +kernel

end PayeeProposal.Eligibility
