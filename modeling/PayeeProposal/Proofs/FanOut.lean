import Mathlib.Data.List.Basic
import Mathlib.Data.List.Range
import Mathlib.Logic.Function.Iterate
import PayeeProposal.Eligibility

/-!
# Tasks that go on side by side

What is written down for a payee, and which accounts are asked for on its behalf, hangs on how
often the payee's own task has gone on, and on nothing that other tasks do. So when all tasks have
been joined, every schedule has led to the same report and to the same questions.
-/

namespace PayeeProposal.Eligibility

variable {chain : Chain} {mint : Address} {ids : Nat → Nat} {payees : List String}
  {payee : String} {i j : Nat}

/-- The check of one payee on its own. -/
def check (chain : Chain) (mint : Address) (payee : String) : PayeeCheck :=
  ⟨payee, verdict chain mint payee⟩

theorem isJoined_iff {p : Progress} : p.isJoined = true ↔ p = .joined := by
  cases p <;> simp [Progress.isJoined]

/-! ## One task on its own -/

/-- What a fan-out holds of one payee: how far its task has come, the verdict written down for it,
and the accounts that its task has asked for. -/
structure Lane where
  progress : Progress
  verdict : Option Verdict
  reads : List Address

namespace Lane

/-- A task that has been spawned. -/
def start : Lane :=
  ⟨.spawned, none, []⟩

/-- What comes next for a payee, without regard to any other. -/
def next (chain : Chain) (mint : Address) (payee : String) (lane : Lane) : Lane :=
  match lane.progress with
  | .spawned =>
    match Address.parseTrimmed payee with
    | .error e => { lane with progress := .ended (some (.error (.invalidAddress e))) }
    | .ok a => { lane with progress := .asked a, reads := lane.reads ++ [a] }
  | .asked a => { lane with progress := .ended (judge mint (chain a)) }
  | .ended outcome =>
    { lane with progress := .joined, verdict := some (outcome.getD (.error .crashed)) }
  | .joined => lane

/-- A task that has been joined: the verdict is that of the payee on its own, and the account of
the payee has been asked for once if the payee's text is an address. -/
def final (chain : Chain) (mint : Address) (payee : String) : Lane :=
  ⟨.joined, some (Eligibility.verdict chain mint payee),
    (Address.parseTrimmed payee).toOption.toList⟩

/-- What a payee's task has come to after a number of turns. -/
def after (chain : Chain) (mint : Address) (payee : String) (turns : Nat) : Lane :=
  (next chain mint payee)^[turns] start

theorem reads_final :
    (final chain mint payee).reads = (Address.parseTrimmed payee).toOption.toList := by
  rw [final]

theorem next_of_joined {lane : Lane} (h : lane.progress = .joined) :
    next chain mint payee lane = lane := by
  simp only [next, h]

/-- A task asks on its first turn, and has been spawned before that only. -/
theorem after_progress_ne_spawned (turns : Nat) :
    (after chain mint payee (turns + 1)).progress ≠ .spawned := by
  rw [after, Function.iterate_succ_apply']
  unfold next
  split
  · split <;> simp
  · simp
  · simp
  · rename_i hjoined
    simp [hjoined]

/-- Three turns bring a task to its end: it asks, ends, and is joined. -/
theorem after_three : after chain mint payee 3 = final chain mint payee := by
  simp only [after, Function.iterate_succ_apply', Function.iterate_zero_apply]
  unfold final Eligibility.verdict task
  cases hp : Address.parseTrimmed payee with
  | error e => simp only [next, start, hp, Option.getD_some, Except.toOption, Option.toList]
  | ok a => simp only [next, start, hp, List.nil_append, Except.toOption, Option.toList]

theorem after_of_three_le {turns : Nat} (h : 3 ≤ turns) :
    after chain mint payee turns = final chain mint payee := by
  obtain ⟨more, rfl⟩ := Nat.exists_eq_add_of_le' h
  rw [after, Function.iterate_add_apply]
  show (next chain mint payee)^[more] (after chain mint payee 3) = _
  rw [after_three]
  exact Function.iterate_fixed (next_of_joined rfl) more

/-- A task is joined with its own verdict, however many turns it has had. -/
theorem after_of_joined {turns : Nat} (h : (after chain mint payee turns).progress = .joined) :
    after chain mint payee turns = final chain mint payee := by
  -- a joined task stays as it is, so three more turns change nothing
  calc
    after chain mint payee turns
        = (next chain mint payee)^[3] (after chain mint payee turns) :=
      (Function.iterate_fixed (next_of_joined h) 3).symm
    _ = after chain mint payee (3 + turns) := (Function.iterate_add_apply _ 3 turns start).symm
    _ = final chain mint payee := after_of_three_le (Nat.le_add_right 3 turns)

end Lane

/-! ## One task among others -/

namespace FanOut

/-- The accounts that the task at a position has asked for. -/
def readsAt (s : FanOut) (i : Nat) : List Address :=
  (s.reads.filter fun r => r.1 = i).map Prod.snd

/-- What a fan-out holds of the payee at a position. -/
structure HasLane (s : FanOut) (i : Nat) (id : Nat) (payee : String) (lane : Lane) : Prop where
  task : s.tasks[i]? = some ⟨id, payee, lane.progress⟩
  verdict : s.verdicts[i]? = some lane.verdict
  reads : s.readsAt i = lane.reads

namespace HasLane

variable {s : FanOut} {id : Nat} {lane : Lane}

theorem move_same (h : s.HasLane i id payee lane) (p : Progress) :
    (s.move i p).HasLane i id payee { lane with progress := p } where
  task := by
    rw [move, List.getElem?_modify, h.task]
    simp
  verdict := h.verdict
  reads := h.reads

theorem move_other (h : s.HasLane i id payee lane) (hne : j ≠ i) (p : Progress) :
    (s.move j p).HasLane i id payee lane where
  task := by
    rw [move, List.getElem?_modify, h.task]
    simp [hne]
  verdict := h.verdict
  reads := h.reads

theorem ask_same (h : s.HasLane i id payee lane) (a : Address) :
    (s.ask i a).HasLane i id payee { lane with reads := lane.reads ++ [a] } where
  task := h.task
  verdict := h.verdict
  reads := by
    rw [← h.reads]
    simp [ask, readsAt]

theorem ask_other (h : s.HasLane i id payee lane) (hne : j ≠ i) (a : Address) :
    (s.ask j a).HasLane i id payee lane where
  task := h.task
  verdict := h.verdict
  reads := by
    rw [← h.reads]
    simp [ask, readsAt, hne]

theorem record_same (h : s.HasLane i id payee lane) (v : Verdict) :
    (s.record i v).HasLane i id payee { lane with verdict := some v } where
  task := h.task
  verdict := by
    obtain ⟨hlt, -⟩ := List.getElem?_eq_some_iff.mp h.verdict
    exact List.getElem?_set_self hlt
  reads := h.reads

theorem record_other (h : s.HasLane i id payee lane) (hne : j ≠ i) (v : Verdict) :
    (s.record j v).HasLane i id payee lane where
  task := h.task
  verdict := by
    rw [record, List.getElem?_set_ne hne]
    exact h.verdict
  reads := h.reads

end HasLane

/-- A task that breaks off is found again by its number. -/
theorem join_eq {s : FanOut} {id : Nat} (h : s.slots.lookup id = some i)
    (outcome : Option Verdict) :
    s.join i id outcome = (s.move i .joined).record i (outcome.getD (.error .crashed)) := by
  cases outcome with
  | some v => rfl
  | none => simp only [join, h, Option.getD_none]

section Step

variable {s : FanOut} {id id' : Nat} {payee' : String} {lane lane' : Lane}

/-- A task that goes on does for its own payee what it would do alone. -/
theorem hasLane_step_same (h : s.HasLane i id payee lane) (hslot : s.slots.lookup id = some i) :
    (s.step chain mint i).HasLane i id payee (lane.next chain mint payee) := by
  unfold step Lane.next
  rw [h.task]
  simp only
  cases lane.progress with
  | spawned =>
    cases Address.parseTrimmed payee with
    | error e => exact h.move_same _
    | ok a => exact (h.move_same _).ask_same a
  | asked a => exact h.move_same _
  | ended outcome =>
    simp only [join_eq hslot]
    exact (h.move_same _).record_same _
  | joined => exact h

/-- A task that goes on leaves what concerns another payee as it is. -/
theorem hasLane_step_other (h : s.HasLane i id payee lane) (hne : j ≠ i)
    (h' : s.HasLane j id' payee' lane') (hslot : s.slots.lookup id' = some j) :
    (s.step chain mint j).HasLane i id payee lane := by
  unfold step
  rw [h'.task]
  simp only
  cases lane'.progress with
  | spawned =>
    cases Address.parseTrimmed payee' with
    | error e => exact h.move_other hne _
    | ok a => exact (h.move_other hne _).ask_other hne a
  | asked a => exact h.move_other hne _
  | ended outcome =>
    simp only [join_eq hslot]
    exact (h.move_other hne _).record_other hne _
  | joined => exact h

end Step

/-! ## All tasks -/

/-- Every payee's part of a fan-out is what its own task comes to after the turns that the task has
had. -/
structure Follows (chain : Chain) (mint : Address) (ids : Nat → Nat) (payees : List String)
    (s : FanOut) (turns : Nat → Nat) : Prop where
  slots : s.slots = (List.range payees.length).map fun i => (ids i, i)
  tasks_length : s.tasks.length = payees.length
  verdicts_length : s.verdicts.length = payees.length
  reads_lt : ∀ r ∈ s.reads, r.1 < payees.length
  lane : ∀ i payee, payees[i]? = some payee →
    s.HasLane i (ids i) payee (Lane.after chain mint payee (turns i))

theorem lookup_slots (hids : Function.Injective ids) {positions : List Nat} (h : i ∈ positions) :
    (positions.map fun i => (ids i, i)).lookup (ids i) = some i := by
  induction positions with
  | nil => cases h
  | cons k positions ih =>
    by_cases hk : i = k
    · subst hk
      simp
    · have hne : (ids i == ids k) = false := by simpa using fun heq => hk (hids heq)
      rw [List.map_cons, List.lookup_cons, hne]
      exact ih (List.mem_of_ne_of_mem hk h)

theorem follows_spawn : (spawn ids payees).Follows chain mint ids payees fun _ => 0 where
  slots := rfl
  tasks_length := List.length_mapIdx
  verdicts_length := List.length_replicate
  reads_lt := by
    intro r hr
    cases hr
  lane := by
    intro i payee hpayee
    obtain ⟨hlt, -⟩ := List.getElem?_eq_some_iff.mp hpayee
    refine ⟨?_, ?_, rfl⟩
    · rw [spawn, List.getElem?_mapIdx, hpayee]
      rfl
    · rw [spawn, List.getElem?_replicate, if_pos hlt]
      rfl

/-- A step keeps the numbers of tasks, slots and verdicts, and asks only on behalf of the task that
goes on. -/
theorem step_frame (chain : Chain) (mint : Address) (s : FanOut) (j : Nat) :
    (s.step chain mint j).slots = s.slots ∧
      (s.step chain mint j).tasks.length = s.tasks.length ∧
      (s.step chain mint j).verdicts.length = s.verdicts.length ∧
      ∀ r ∈ (s.step chain mint j).reads, r ∈ s.reads ∨ r.1 = j ∧ j < s.tasks.length := by
  unfold step
  cases ht : s.tasks[j]? with
  | none => exact ⟨rfl, rfl, rfl, fun r hr => .inl hr⟩
  | some t =>
    obtain ⟨hlt, -⟩ := List.getElem?_eq_some_iff.mp ht
    simp only
    cases t.progress with
    | spawned =>
      cases Address.parseTrimmed t.payee with
      | error e => exact ⟨rfl, List.length_modify _ _ _, rfl, fun r hr => .inl hr⟩
      | ok a =>
        refine ⟨rfl, List.length_modify _ _ _, rfl, ?_⟩
        intro r hr
        rcases List.mem_append.mp hr with hr | hr
        · exact .inl hr
        · rw [List.mem_singleton.mp hr]
          exact .inr ⟨rfl, hlt⟩
    | asked a => exact ⟨rfl, List.length_modify _ _ _, rfl, fun r hr => .inl hr⟩
    | ended outcome =>
      simp only [join]
      split
      · exact ⟨rfl, List.length_modify _ _ _, List.length_set, fun r hr => .inl hr⟩
      · split
        · exact ⟨rfl, List.length_modify _ _ _, List.length_set, fun r hr => .inl hr⟩
        · exact ⟨rfl, List.length_modify _ _ _, rfl, fun r hr => .inl hr⟩
    | joined => exact ⟨rfl, rfl, rfl, fun r hr => .inl hr⟩

theorem step_of_length_le {s : FanOut} (h : s.tasks.length ≤ j) : s.step chain mint j = s := by
  unfold step
  rw [List.getElem?_eq_none h]

theorem follows_step (hids : Function.Injective ids) {s : FanOut} {turns : Nat → Nat}
    (h : s.Follows chain mint ids payees turns) (j : Nat) :
    (s.step chain mint j).Follows chain mint ids payees fun i => turns i + [j].count i := by
  obtain ⟨hslots, htasks, hverdicts, hreads⟩ := step_frame chain mint s j
  refine ⟨hslots.trans h.slots, htasks.trans h.tasks_length,
    hverdicts.trans h.verdicts_length, ?_, ?_⟩
  · intro r hr
    rcases hreads r hr with hr | ⟨rfl, hlt⟩
    · exact h.reads_lt r hr
    · rwa [← h.tasks_length]
  · intro i payee hpayee
    have hlane := h.lane i payee hpayee
    have hslot : ∀ k payee', payees[k]? = some payee' → s.slots.lookup (ids k) = some k := by
      intro k payee' hk
      obtain ⟨hlt, -⟩ := List.getElem?_eq_some_iff.mp hk
      rw [h.slots]
      exact lookup_slots hids (List.mem_range.mpr hlt)
    by_cases hji : j = i
    · subst hji
      simp only [List.count_singleton_self, Lane.after, Function.iterate_succ_apply']
      exact hasLane_step_same hlane (hslot j payee hpayee)
    · simp only [List.count_singleton, beq_eq_false_iff_ne.mpr hji]
      cases hj : payees[j]? with
      | none =>
        rw [step_of_length_le (h.tasks_length ▸ List.getElem?_eq_none_iff.mp hj)]
        exact hlane
      | some payee' => exact hasLane_step_other hlane hji (h.lane j payee' hj) (hslot j payee' hj)

/-- What tasks come to hangs on how often each of them has gone on, in whatever order. -/
theorem follows_run (hids : Function.Injective ids) (schedule : List Nat) :
    ((spawn ids payees).run chain mint schedule).Follows chain mint ids payees
      fun i => schedule.count i := by
  -- turns that have been had and turns to come add up, so the induction is over any fan-out
  have hrun : ∀ (s : FanOut) (turns : Nat → Nat), s.Follows chain mint ids payees turns →
      (s.run chain mint schedule).Follows chain mint ids payees
        fun i => turns i + schedule.count i := by
    induction schedule with
    | nil => exact fun s turns h => h
    | cons j schedule ih =>
      intro s turns h
      have hstep := ih _ _ (follows_step hids h j)
      have hcount : ∀ i, turns i + [j].count i + schedule.count i =
          turns i + (j :: schedule).count i := by
        intro i
        rw [Nat.add_assoc, ← List.count_append, List.singleton_append]
      simp only [hcount] at hstep
      exact hstep
  simpa using hrun _ _ follows_spawn

theorem asked_join (s : FanOut) (i id : Nat) (outcome : Option Verdict) :
    (s.join i id outcome).asked = s.asked := by
  unfold join
  split
  · rfl
  · split <;> rfl

/-- A turn asks for an account only if it is the task's first and the payee's text is an address. -/
theorem asked_step {s : FanOut} {turns : Nat → Nat} (h : s.Follows chain mint ids payees turns)
    (hpayee : payees[j]? = some payee) :
    (s.step chain mint j).asked =
      s.asked ++ if turns j = 0 then (Address.parseTrimmed payee).toOption.toList else [] := by
  have hlane := h.lane j payee hpayee
  unfold step
  rw [hlane.task]
  cases hturns : turns j with
  | zero =>
    simp only [Lane.after, Function.iterate_zero_apply, Lane.start, if_true]
    cases Address.parseTrimmed payee with
    | error e => exact (List.append_nil _).symm
    | ok a => simp [asked, ask, move, Except.toOption]
  | succ more =>
    have hspawned : (Lane.after chain mint payee (more + 1)).progress ≠ .spawned :=
      Lane.after_progress_ne_spawned more
    simp only [Nat.add_one_ne_zero, if_false, List.append_nil]
    cases hprogress : (Lane.after chain mint payee (more + 1)).progress with
    | spawned => exact absurd hprogress hspawned
    | asked a => rfl
    | ended outcome => exact asked_join s j (ids j) outcome
    | joined => rfl

/-! ## What a finished fan-out holds -/

/-- Tasks that have all had three turns have all been joined. -/
theorem finished_run (hids : Function.Injective ids) {schedule : List Nat}
    (h : ∀ i < payees.length, 3 ≤ schedule.count i) :
    ((spawn ids payees).run chain mint schedule).finished = true := by
  have hfollows : ((spawn ids payees).run chain mint schedule).Follows chain mint ids payees
      fun i => schedule.count i := follows_run hids schedule
  unfold finished
  rw [List.all_eq_true]
  intro t ht
  obtain ⟨i, hi, rfl⟩ := List.getElem_of_mem ht
  have hlt : i < payees.length := hfollows.tasks_length ▸ hi
  have htask := (hfollows.lane i _ (List.getElem?_eq_getElem hlt)).task
  rw [Lane.after_of_three_le (h i hlt), List.getElem?_eq_getElem hi, Option.some.injEq] at htask
  rw [htask]
  rfl

/-- In a finished fan-out every payee's part is final. -/
theorem hasLane_of_finished {s : FanOut} {turns : Nat → Nat}
    (h : s.Follows chain mint ids payees turns) (hdone : s.finished = true)
    (hpayee : payees[i]? = some payee) :
    s.HasLane i (ids i) payee (Lane.final chain mint payee) := by
  have hlane := h.lane i payee hpayee
  have hjoined : (Lane.after chain mint payee (turns i)).progress = .joined :=
    isJoined_iff.mp (List.all_eq_true.mp hdone _ (List.mem_of_getElem? hlane.task))
  rw [← Lane.after_of_joined hjoined]
  exact hlane

theorem report_of_finished {s : FanOut} {turns : Nat → Nat}
    (h : s.Follows chain mint ids payees turns) (hdone : s.finished = true) :
    s.report = ⟨payees.map (check chain mint)⟩ := by
  unfold report
  rw [EligibilityReport.mk.injEq]
  apply List.ext_getElem?
  intro i
  cases hpayee : payees[i]? with
  | none =>
    have hlen : (s.tasks.zip s.verdicts).length ≤ i := by
      rw [List.length_zip, h.tasks_length, h.verdicts_length, Nat.min_self]
      exact List.getElem?_eq_none_iff.mp hpayee
    rw [List.getElem?_map, List.getElem?_map, hpayee, List.getElem?_eq_none hlen]
    rfl
  | some payee =>
    have hlane := hasLane_of_finished h hdone hpayee
    have hzip : (s.tasks.zip s.verdicts)[i]? =
        some (⟨ids i, payee, .joined⟩, some (verdict chain mint payee)) :=
      List.getElem?_zip_eq_some.mpr ⟨hlane.task, hlane.verdict⟩
    rw [List.getElem?_map, List.getElem?_map, hpayee, hzip]
    simp only [Option.map_some, Option.getD_some, check]

/-- Things with keys below a bound, put in the order of their keys. -/
theorem perm_flatMap_filter {α : Type} (key : α → Nat) {n : Nat} {as : List α}
    (h : ∀ a ∈ as, key a < n) :
    as.Perm ((List.range n).flatMap fun i => as.filter fun a => key a = i) := by
  induction n generalizing as with
  | zero =>
    rw [List.eq_nil_iff_forall_not_mem.mpr fun a ha => Nat.not_lt_zero _ (h a ha)]
    exact .nil
  | succ n ih =>
    -- things with the highest key come last; the others are in order already
    have hlow : ((List.range n).flatMap fun i => as.filter fun a => key a = i) =
        (List.range n).flatMap fun i =>
          (as.filter fun a => key a < n).filter fun a => key a = i := by
      refine congrArg List.flatten (List.map_congr_left fun i hi => ?_)
      rw [List.filter_filter]
      refine List.filter_congr fun a _ => ?_
      have hin : i < n := List.mem_range.mp hi
      simp only [← Bool.decide_and, decide_eq_decide]
      omega
    have htop : (as.filter fun a => !decide (key a < n)) = as.filter fun a => key a = n := by
      refine List.filter_congr fun a ha => ?_
      have hlt := h a ha
      rw [← decide_not, decide_eq_decide]
      omega
    rw [List.range_succ, List.flatMap_append, List.flatMap_singleton, hlow, ← htop]
    exact (List.filter_append_perm _ as).symm.trans ((ih (by simp)).append_right _)

/-- The accounts that a finished fan-out has asked for are those of the payees whose text is an
address, each as often as there are such payees. -/
theorem perm_reads_of_finished {s : FanOut} {turns : Nat → Nat}
    (h : s.Follows chain mint ids payees turns) (hdone : s.finished = true) :
    (s.reads.map Prod.snd).Perm (Eligibility.reads payees) := by
  have hat : (List.range payees.length).map s.readsAt =
      payees.map fun payee => (Address.parseTrimmed payee).toOption.toList := by
    apply List.ext_getElem?
    intro i
    cases hpayee : payees[i]? with
    | none =>
      have hlen : (List.range payees.length).length ≤ i := by
        rw [List.length_range]
        exact List.getElem?_eq_none_iff.mp hpayee
      rw [List.getElem?_map, List.getElem?_map, hpayee, List.getElem?_eq_none hlen]
      rfl
    | some payee =>
      obtain ⟨hlt, -⟩ := List.getElem?_eq_some_iff.mp hpayee
      rw [List.getElem?_map, List.getElem?_map, hpayee, List.getElem?_range hlt]
      rw [Option.map_some, Option.map_some, (hasLane_of_finished h hdone hpayee).reads,
        Lane.reads_final]
  have hperm := (perm_flatMap_filter Prod.fst h.reads_lt).map Prod.snd
  rw [List.map_flatMap] at hperm
  have hreads : ((List.range payees.length).flatMap fun i =>
      (s.reads.filter fun r => r.1 = i).map Prod.snd) = Eligibility.reads payees := by
    rw [Eligibility.reads, List.filterMap_eq_flatMap_toList, List.flatMap_def, List.flatMap_def]
    exact congrArg List.flatten hat
  exact hreads ▸ hperm

end FanOut

end PayeeProposal.Eligibility
