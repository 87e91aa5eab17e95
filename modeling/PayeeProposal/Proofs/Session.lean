import PayeeProposal.Proofs.BuildStages

/-!
# Sessions

A builder keeps nothing of the builds that it has done. Every build answers what a builder that
has just been made would answer on the chain and with the encoder as they are by then, and moves
the counters by what this one build costs.
-/

namespace PayeeProposal

namespace SessionStep

/-- The chain after a step. -/
def onChain (chain : Chain) : SessionStep → Chain
  | .setAccount a l => chain.set a l
  | .build _ | .setRefusal _ => chain

/-- What the encoder says when it refuses, after a step. -/
def onRefusal (refusal : Option String) : SessionStep → Option String
  | .setRefusal refusal' => refusal'
  | .build _ | .setAccount _ _ => refusal

/-- A step builds. -/
def isBuild : SessionStep → Bool
  | .build _ => true
  | .setAccount _ _ | .setRefusal _ => false

end SessionStep

namespace Session

/-- The session after some steps. -/
def after (s : Session) (steps : List SessionStep) : Session :=
  steps.foldl (fun s step => (s.step step).2) s

/-- A builder that has just been made, for a chain and an encoder. -/
def fresh (request : Request) (program : Address) (chain : Chain) (refusal : Option String) :
    Session :=
  { start request program chain with refusal := refusal }

variable {s : Session} {step : SessionStep} {signer : Address}

/-! ## One step -/

theorem chain_step (s : Session) (step : SessionStep) :
    (s.step step).2.chain = step.onChain s.chain := by
  cases step <;> rfl

theorem refusal_step (s : Session) (step : SessionStep) :
    (s.step step).2.refusal = step.onRefusal s.refusal := by
  cases step <;> rfl

/-- The request and the program stay what they are. -/
theorem fixed_step (s : Session) (step : SessionStep) :
    (s.step step).2.request = s.request ∧ (s.step step).2.program = s.program := by
  cases step <;> exact ⟨rfl, rfl⟩

/-- A step that does not build answers nothing and costs nothing. -/
theorem step_of_not_isBuild (h : step.isBuild = false) :
    (s.step step).1 = none ∧ (s.step step).2.reads = s.reads ∧
      (s.step step).2.encoded = s.encoded := by
  cases step with
  | build signer => cases h
  | setAccount a l => exact ⟨rfl, rfl, rfl⟩
  | setRefusal refusal => exact ⟨rfl, rfl, rfl⟩

/-! ## Many steps -/

theorem getElem?_run (s : Session) (steps : List SessionStep) (i : Nat) :
    (s.run steps)[i]? = steps[i]?.map (s.after (steps.take i)).step := by
  induction steps generalizing s i with
  | nil => rfl
  | cons step steps ih =>
    cases i with
    | zero => rfl
    | succ i =>
      rw [run, List.getElem?_cons_succ, List.getElem?_cons_succ, ih]
      rfl

/-- What steps leave behind, but for the counters, hangs on the steps that do not build. -/
theorem after_eq (s : Session) (steps : List SessionStep) :
    s.after steps =
      { s with
        chain := steps.foldl SessionStep.onChain s.chain
        refusal := steps.foldl SessionStep.onRefusal s.refusal
        reads := (s.after steps).reads
        encoded := (s.after steps).encoded } := by
  induction steps generalizing s with
  | nil => rfl
  | cons step steps ih =>
    have hfold : s.after (step :: steps) = (s.step step).2.after steps := rfl
    obtain ⟨hrequest, hprogram⟩ := s.fixed_step step
    rw [hfold, ih, chain_step, refusal_step, hrequest, hprogram]
    rfl

/-- What is never set to break off does not. -/
theorem ne_crashed_foldl {chain : Chain} {a : Address} {steps : List SessionStep}
    (hchain : chain a ≠ .crashed) (hsteps : ∀ l, .setAccount a l ∈ steps → l ≠ .crashed) :
    steps.foldl SessionStep.onChain chain a ≠ .crashed := by
  induction steps generalizing chain with
  | nil => exact hchain
  | cons step steps ih =>
    refine ih ?_ fun l hl => hsteps l (List.mem_cons_of_mem step hl)
    cases step with
    | build signer => exact hchain
    | setRefusal refusal => exact hchain
    | setAccount b l =>
      by_cases hab : a = b
      · subst hab
        show chain.set a l a ≠ .crashed
        rw [Chain.set_same]
        exact hsteps l List.mem_cons_self
      · show chain.set b l a ≠ .crashed
        rw [Chain.set_other _ _ hab]
        exact hchain

/-- A build in a session answers what a builder that has just been made answers on the chain and
with the encoder of that moment, and moves the counters by what the stage costs at which it
ends; other steps leave the counters as they are. -/
theorem build_eq_fresh (request : Request) (program : Address) (chain : Chain)
    (before after : List SessionStep) (signer : Address)
    (hchain : chain request.proposal ≠ .crashed)
    (hsteps : ∀ l, .setAccount request.proposal l ∈ before → l ≠ .crashed) :
    let now := (start request program chain).after before
    let fresh := fresh request program (before.foldl SessionStep.onChain chain)
      (before.foldl SessionStep.onRefusal none)
    let count := request.input.operators.length
    (∀ step : SessionStep, step.isBuild = false →
      (now.step step).2.reads = now.reads ∧ (now.step step).2.encoded = now.encoded) ∧
    ∃ b next,
      ((start request program chain).run (before ++ .build signer :: after))[before.length]? =
        some (some b, next) ∧
      (fresh.step (.build signer)).1 = some b ∧
      Course (Build.Fails fresh.chain fresh.encoder request signer)
        (fun stage e => b.EndsAt request stage e ∧
          next.reads = now.reads + stage.readCount count ∧
          next.encoded = now.encoded + stage.encoderCalls)
        (b.Succeeds request ∧ next.reads = now.reads + (count + 1) ∧
          next.encoded = now.encoded + 1)
        Build.Stage.order := by
  intro now fresh count
  have hnow : now = { fresh with reads := now.reads, encoded := now.encoded } :=
    after_eq (start request program chain) before
  -- the counters play no part in what is built
  have hbuild : Build.run now.chain now.encoder now.request signer =
      Build.run fresh.chain fresh.encoder request signer := by
    rw [hnow]
    rfl
  refine ⟨fun step h => (step_of_not_isBuild h).2, _, (now.step (.build signer)).2, ?_, rfl, ?_⟩
  · rw [getElem?_run, List.getElem?_append_right (Nat.le_refl _), Nat.sub_self, List.take_left,
      List.getElem?_cons_zero, Option.map_some]
    show some (now.step (.build signer)) = _
    simp only [step, hbuild]
    rfl
  · have hcourse := Build.run_course fresh.chain fresh.encoder request signer
      (ne_crashed_foldl hchain hsteps)
    refine hcourse.imp (fun stage e h => ⟨h, ?_, ?_⟩) fun h => ⟨h, ?_, ?_⟩
    · simp only [step, hbuild, h.reads.length_eq]
      rfl
    · simp only [step, hbuild, h.encoded]
    · simp only [step, hbuild, h.length_reads]
      rfl
    · simp only [step, hbuild, h.encoded]

/-- The first build finds no proposal. The second one, after the proposal's lookup has begun to fail
and the encoder to refuse, fails for the lookup, as it would have without the first. -/
theorem build_eq_fresh_after_build :
    let request : Request :=
      ⟨⟨[⟨"11111111111111111111111111111111", "11111111111111111111111111111111"⟩], true⟩,
        Address.tokenProgram, Address.systemProgram⟩
    let chain : Chain := fun _ => .absent
    let before : List SessionStep := [.build Address.systemProgram,
      .setAccount request.proposal (.failed "unavailable"), .setRefusal (some "refused")]
    let start := start request Address.systemProgram chain
    let fresh := fresh request Address.systemProgram (before.foldl SessionStep.onChain chain)
      (before.foldl SessionStep.onRefusal none)
    chain request.proposal ≠ .crashed ∧
      (∀ l, .setAccount request.proposal l ∈ before → l ≠ .crashed) ∧
      ∃ b next, (start.run (before ++ [.build Address.tokenProgram]))[before.length]? =
          some (some b, next) ∧
        (fresh.step (.build Address.tokenProgram)).1 = some b ∧
        b.result = .error (.rpc "unavailable") ∧ next.reads = 4 ∧ next.encoded = 0 := by
  intro request chain before start fresh
  have hchain : chain request.proposal ≠ .crashed := nofun
  have hsteps : ∀ l, .setAccount request.proposal l ∈ before → l ≠ .crashed := by
    intro l hl
    simp only [before, List.mem_cons, SessionStep.setAccount.injEq, reduceCtorEq, false_or,
      List.not_mem_nil, or_false] at hl
    rw [hl.2]
    nofun
  obtain ⟨-, b, next, hrun, hfresh, -⟩ := build_eq_fresh request Address.systemProgram chain before
    [] Address.tokenProgram hchain hsteps
  have hnext : ((start.run (before ++ [.build Address.tokenProgram]))[before.length]?).map
      (fun r => (r.2.reads, r.2.encoded)) = some (4, 0) := by decide +kernel
  have hresult : (fresh.step (.build Address.tokenProgram)).1.map Build.result =
      some (.error (.rpc "unavailable")) := by decide +kernel
  rw [hrun] at hnext
  rw [hfresh] at hresult
  obtain ⟨hreads, hencoded⟩ := Prod.mk.inj (Option.some.inj hnext)
  exact ⟨hchain, hsteps, b, next, hrun, hfresh, Option.some.inj hresult, hreads, hencoded⟩

end Session

end PayeeProposal
