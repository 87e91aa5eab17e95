import Mathlib.Data.List.Perm.Basic
import PayeeProposal.Proofs.Traversal

/-!
# Lists woven together

A list that is woven from two lists has the items of both, and those of each in their order. Where
the second one holds what has been put in, nothing that is done item by item to the first one comes
out otherwise.
-/

namespace PayeeProposal

universe u

variable {α β ε : Type u}

/-- The last list has the items of the first two, and those of each in their order. -/
inductive Woven : List α → List α → List α → Prop
  | nil : Woven [] [] []
  | left {a : α} {as bs cs : List α} (h : Woven as bs cs) : Woven (a :: as) bs (a :: cs)
  | right {b : α} {as bs cs : List α} (h : Woven as bs cs) : Woven as (b :: bs) (b :: cs)

namespace Woven

open Traversal

variable {as bs cs : List α}

theorem perm (h : Woven as bs cs) : cs.Perm (as ++ bs) := by
  induction h with
  | nil => exact .refl _
  | left _ ih => exact ih.cons _
  | right _ ih => exact (ih.cons _).trans List.perm_middle.symm

theorem mem_iff (h : Woven as bs cs) {a : α} : a ∈ cs ↔ a ∈ as ∨ a ∈ bs := by
  rw [h.perm.mem_iff, List.mem_append]

theorem map (f : α → β) (h : Woven as bs cs) : Woven (as.map f) (bs.map f) (cs.map f) := by
  induction h with
  | nil => exact .nil
  | left _ ih => exact .left ih
  | right _ ih => exact .right ih

theorem filter (p : α → Bool) (h : Woven as bs cs) :
    Woven (as.filter p) (bs.filter p) (cs.filter p) := by
  induction h with
  | nil => exact .nil
  | @left a _ _ _ _ ih =>
    rw [List.filter_cons, List.filter_cons]
    split
    · exact .left ih
    · exact ih
  | @right b _ _ _ _ ih =>
    rw [List.filter_cons, List.filter_cons]
    split
    · exact .right ih
    · exact ih

theorem eq_of_nil (h : Woven as bs cs) (hnil : bs = []) : cs = as := by
  induction h with
  | nil => rfl
  | left _ ih => rw [ih hnil]
  | right _ _ => cases hnil

/-- What is related to the items of two lists can be woven as they are. -/
theorem exists_forall₂ {R : α → β → Prop} {as' bs' : List β} (h : Woven as bs cs)
    (ha : List.Forall₂ R as as') (hb : List.Forall₂ R bs bs') :
    ∃ cs', Woven as' bs' cs' ∧ List.Forall₂ R cs cs' := by
  induction h generalizing as' bs' with
  | nil =>
    cases ha
    cases hb
    exact ⟨[], .nil, .nil⟩
  | left _ ih =>
    cases ha with
    | cons hhead htail =>
      obtain ⟨cs', hwoven, hrelated⟩ := ih htail hb
      exact ⟨_, .left hwoven, .cons hhead hrelated⟩
  | right _ ih =>
    cases hb with
    | cons hhead htail =>
      obtain ⟨cs', hwoven, hrelated⟩ := ih ha htail
      exact ⟨_, .right hwoven, .cons hhead hrelated⟩

/-- Items that can all be read do not change how a reading fails. -/
theorem mapM_eq_error_iff {f : α → Except ε β} {e : ε} (h : Woven as bs cs)
    (hread : ∀ b ∈ bs, ∃ x, f b = .ok x) : cs.mapM f = .error e ↔ as.mapM f = .error e := by
  induction h with
  | nil => exact Iff.rfl
  | left _ ih =>
    rw [List.mapM_cons, List.mapM_cons, bind_eq_error, bind_eq_error]
    refine or_congr_right (exists_congr fun x => and_congr_right fun _ => ?_)
    exact bind_pure_eq_error.trans ((ih hread).trans bind_pure_eq_error.symm)
  | right _ ih =>
    obtain ⟨x, hx⟩ := hread _ List.mem_cons_self
    rw [List.mapM_cons, hx, ok_bind]
    exact bind_pure_eq_error.trans (ih fun b hb => hread b (List.mem_cons_of_mem _ hb))

end Woven

end PayeeProposal
