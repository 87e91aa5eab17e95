import PayeeProposal.Parameters
import PayeeProposal.Proofs.Course
import PayeeProposal.Proofs.PayeeTable

/-!
# Stages of the parameters

Working out the parameters goes through six stages: first what has to be given is there, then it
is an address.
-/

namespace PayeeProposal.Parameters

open Traversal

/-- Nothing is given but blanks. -/
def Lacking (given : Option String) : Prop :=
  ∀ s, given = some s → Text.allBlank s = true

theorem lacking_iff {given : Option String} :
    Lacking given ↔ given.bind Text.unlessBlank = none := by
  cases given with
  | none => simp [Lacking]
  | some s => simp [Lacking, Text.unlessBlank]

/-- The mint that is given first, by the argument, the environment or the configuration. -/
def givenMint (arguments : ProposeArguments) (program : ProgramConfig) (link : Option String) :
    Option String :=
  (arguments.link.or link).or program.linkMint

/-- The stages of the parameters. -/
inductive Stage where
  | statePresence
  | proposalPresence
  | mintPresence
  | proposalSyntax
  | mintSyntax
  | programSyntax
deriving DecidableEq

/-- All stages in order. -/
def Stage.order : List Stage :=
  [statePresence, proposalPresence, mintPresence, proposalSyntax, mintSyntax, programSyntax]

/-- How a stage fails, and with which error. The text of the proposal is reported without the
blanks around it, the others as they were given. -/
inductive Fails (arguments : ProposeArguments) (program : ProgramConfig) (link : Option String) :
    Stage → ProposeError → Prop
  | statePresence (h : Lacking arguments.state) :
    Fails arguments program link .statePresence (.configuration .missingState)
  | proposalPresence (h : Lacking arguments.proposal) :
    Fails arguments program link .proposalPresence (.configuration .missingProposal)
  | mintPresence (h : Lacking (givenMint arguments program link)) :
    Fails arguments program link .mintPresence (.configuration .missingMint)
  | proposalSyntax {s : String} {reason : AddressError} (hgiven : arguments.proposal = some s)
    (h : Address.parseTrimmed (Text.trim s) = .error reason) :
    Fails arguments program link .proposalSyntax (.invalidAddress (Text.trim s) reason)
  | mintSyntax {s : String} {reason : AddressError}
    (hgiven : givenMint arguments program link = some s)
    (h : Address.parseTrimmed s = .error reason) :
    Fails arguments program link .mintSyntax (.invalidAddress s reason)
  | programSyntax {reason : AddressError}
    (h : Address.parseTrimmed program.programId = .error reason) :
    Fails arguments program link .programSyntax (.invalidAddress program.programId reason)

variable {arguments : ProposeArguments} {program : ProgramConfig} {link : Option String}
  {e : ProposeError}

theorem required_eq_error_iff {given : Option String} {fault : SettingsFault} :
    required given fault = .error e ↔ Lacking given ∧ e = .configuration fault := by
  rw [lacking_iff, required]
  cases given.bind Text.unlessBlank <;> simp [eq_comm]

theorem eq_of_unlessBlank {given : Option String} {s : String}
    (h : given.bind Text.unlessBlank = some s) : given = some s := by
  obtain ⟨t, rfl, ht⟩ := Option.bind_eq_some_iff.mp h
  unfold Text.unlessBlank at ht
  split at ht
  · cases ht
  · exact ht

theorem required_eq_ok {given : Option String} {fault : SettingsFault} {t : String}
    (h : required given fault = .ok t) : ∃ s, given = some s ∧ t = Text.trim s := by
  unfold required at h
  split at h
  · rename_i s hs
    exact ⟨s, eq_of_unlessBlank hs, (Except.ok.inj h).symm⟩
  · cases h

theorem mintText_eq_error_iff :
    mintText arguments.link link program.linkMint = .error e ↔
      Lacking (givenMint arguments program link) ∧ e = .configuration .missingMint := by
  rw [lacking_iff, mintText, givenMint]
  cases ((arguments.link.or link).or program.linkMint).bind Text.unlessBlank <;> simp [eq_comm]

theorem mintText_eq_ok {t : String}
    (h : mintText arguments.link link program.linkMint = .ok t) :
    givenMint arguments program link = some t := by
  unfold mintText at h
  split at h
  · rename_i s hs
    rw [← Except.ok.inj h]
    exact eq_of_unlessBlank hs
  · cases h

theorem fails_statePresence_iff :
    Fails arguments program link .statePresence e ↔
      required arguments.state .missingState = .error e := by
  rw [required_eq_error_iff]
  exact ⟨fun | .statePresence h => ⟨h, rfl⟩, fun ⟨h, he⟩ => he ▸ .statePresence h⟩

theorem fails_proposalPresence_iff :
    Fails arguments program link .proposalPresence e ↔
      required arguments.proposal .missingProposal = .error e := by
  rw [required_eq_error_iff]
  exact ⟨fun | .proposalPresence h => ⟨h, rfl⟩, fun ⟨h, he⟩ => he ▸ .proposalPresence h⟩

theorem fails_mintPresence_iff :
    Fails arguments program link .mintPresence e ↔
      mintText arguments.link link program.linkMint = .error e := by
  rw [mintText_eq_error_iff]
  exact ⟨fun | .mintPresence h => ⟨h, rfl⟩, fun ⟨h, he⟩ => he ▸ .mintPresence h⟩

theorem fails_proposalSyntax_iff {s : String} (hgiven : arguments.proposal = some s) :
    Fails arguments program link .proposalSyntax e ↔
      Address.require (Text.trim s) = .error e := by
  rw [Address.require_eq_error_iff]
  constructor
  · intro h
    cases h with
    | proposalSyntax hgiven' h =>
      cases hgiven.symm.trans hgiven'
      exact ⟨_, h, rfl⟩
  · rintro ⟨reason, h, rfl⟩
    exact .proposalSyntax hgiven h

theorem fails_mintSyntax_iff {s : String} (hgiven : givenMint arguments program link = some s) :
    Fails arguments program link .mintSyntax e ↔ Address.require s = .error e := by
  rw [Address.require_eq_error_iff]
  constructor
  · intro h
    cases h with
    | mintSyntax hgiven' h =>
      cases hgiven.symm.trans hgiven'
      exact ⟨_, h, rfl⟩
  · rintro ⟨reason, h, rfl⟩
    exact .mintSyntax hgiven h

theorem fails_programSyntax_iff :
    Fails arguments program link .programSyntax e ↔
      Address.require program.programId = .error e := by
  rw [Address.require_eq_error_iff]
  exact ⟨fun | .programSyntax h => ⟨_, h, rfl⟩, fun ⟨_, h, he⟩ => he ▸ .programSyntax h⟩

/-- The parameters go through their stages in order. -/
theorem resolve_course (arguments : ProposeArguments) (program : ProgramConfig)
    (link : Option String) :
    Course (Fails arguments program link) (fun _ e => resolve arguments program link = .error e)
      (∃ p, resolve arguments program link = .ok p) Stage.order := by
  refine .ask (fun _ => fails_statePresence_iff) (fun e h => ?_) fun state hstate => ?_
  · simp only [resolve, h, error_bind]
  refine .ask (fun _ => fails_proposalPresence_iff) (fun e h => ?_) fun proposal hproposal => ?_
  · simp only [resolve, hstate, ok_bind, h, error_bind]
  refine .ask (fun _ => fails_mintPresence_iff) (fun e h => ?_) fun mint hmint => ?_
  · simp only [resolve, hstate, hproposal, ok_bind, h, error_bind]
  obtain ⟨given, hgiven, rfl⟩ := required_eq_ok hproposal
  refine .ask (fun _ => fails_proposalSyntax_iff hgiven) (fun e h => ?_) fun a ha => ?_
  · simp only [resolve, hstate, hproposal, hmint, ok_bind, h, error_bind]
  refine .ask (fun _ => fails_mintSyntax_iff (mintText_eq_ok hmint)) (fun e h => ?_) fun b hb => ?_
  · simp only [resolve, hstate, hproposal, hmint, ha, ok_bind, h, error_bind]
  refine .ask (fun _ => fails_programSyntax_iff) (fun e h => ?_) fun c hc => .finish ?_
  · simp only [resolve, hstate, hproposal, hmint, ha, hb, ok_bind, h, error_bind]
  · simp only [resolve, hstate, hproposal, hmint, ha, hb, hc, ok_bind]
    exact ⟨_, rfl⟩

theorem fails_of_resolve_eq_error (h : resolve arguments program link = .error e) :
    ∃ stage, Fails arguments program link stage e := by
  rcases (resolve_course arguments program link).stops_or_complete with
    ⟨stage, -, d, hfails, hd⟩ | ⟨p, hp⟩
  · cases Except.error.inj (h.symm.trans hd)
    exact ⟨stage, hfails⟩
  · cases h.symm.trans hp

end PayeeProposal.Parameters
