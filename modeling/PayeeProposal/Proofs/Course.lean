/-!
# Courses

A course leads through stages in a fixed order and ends at the first one that fails. Courses are
put together from single stages and from shorter courses.
-/

namespace PayeeProposal

/-- What goes through stages in order ends at the first one that fails, and is complete when none
does. `fails` says how a stage may fail, and `stops` what is so when it is the one that does. -/
inductive Course {σ ε : Type} (fails stops : σ → ε → Prop) (complete : Prop) : List σ → Prop
  | stop {s : σ} {e : ε} {later : List σ} (hfails : fails s e) (hstops : stops s e) :
    Course fails stops complete (s :: later)
  | pass {s : σ} {later : List σ} (hpass : ∀ e, ¬ fails s e)
    (hlater : Course fails stops complete later) : Course fails stops complete (s :: later)
  | finish (hcomplete : complete) : Course fails stops complete []

namespace Course

variable {σ τ ε δ α : Type} {fails stops stops' : σ → ε → Prop} {complete complete' : Prop}
  {stages later : List σ}

theorem imp (h : Course fails stops complete stages) (hstops : ∀ s e, stops s e → stops' s e)
    (hcomplete : complete → complete') : Course fails stops' complete' stages := by
  induction h with
  | stop hfails hs => exact .stop hfails (hstops _ _ hs)
  | pass hpass _ ih => exact .pass hpass ih
  | finish hc => exact .finish (hcomplete hc)

theorem stops_or_complete (h : Course fails stops complete stages) :
    (∃ s ∈ stages, ∃ e, fails s e ∧ stops s e) ∨ complete := by
  induction h with
  | stop hf hs => exact .inl ⟨_, List.mem_cons_self, _, hf, hs⟩
  | pass _ _ ih =>
    refine ih.imp_left ?_
    rintro ⟨s, hs, e, h⟩
    exact ⟨s, List.mem_cons_of_mem _ hs, e, h⟩
  | finish hc => exact .inr hc

/-- A stage that asks for a value and goes on with it. -/
theorem ask {s : σ} {x : Except ε α} (hfails : ∀ e, fails s e ↔ x = .error e)
    (hstops : ∀ e, x = .error e → stops s e)
    (hlater : ∀ a, x = .ok a → Course fails stops complete later) :
    Course fails stops complete (s :: later) := by
  cases hx : x with
  | error e => exact .stop ((hfails e).mpr hx) (hstops e hx)
  | ok a =>
    refine .pass (fun e h => ?_) (hlater a hx)
    cases hx.symm.trans ((hfails e).mp h)

/-- Stages that do not fail. -/
theorem skip (hpass : ∀ s ∈ stages, ∀ e, ¬ fails s e) (hcomplete : complete) :
    Course fails stops complete stages := by
  induction stages with
  | nil => exact .finish hcomplete
  | cons s stages ih =>
    refine .pass (hpass s List.mem_cons_self) (ih fun s' hs' => ?_)
    exact hpass s' (List.mem_cons_of_mem s hs')

/-- A course is the first part of a longer one. -/
theorem embed {stage : σ → τ} {wrap : ε → δ} {fails' stops' : τ → δ → Prop} {later : List τ}
    (h : Course fails stops complete stages)
    (hfails : ∀ s d, fails' (stage s) d ↔ ∃ e, fails s e ∧ wrap e = d)
    (hstops : ∀ s e, fails s e → stops s e → stops' (stage s) (wrap e))
    (hlater : complete → Course fails' stops' complete' later) :
    Course fails' stops' complete' (stages.map stage ++ later) := by
  induction h with
  | stop hf hs => exact .stop ((hfails _ _).mpr ⟨_, hf, rfl⟩) (hstops _ _ hf hs)
  | pass hpass _ ih =>
    refine .pass (fun d hd => ?_) ih
    obtain ⟨e, he, -⟩ := (hfails _ _).mp hd
    exact hpass e he
  | finish hc => exact hlater hc

end Course

end PayeeProposal
