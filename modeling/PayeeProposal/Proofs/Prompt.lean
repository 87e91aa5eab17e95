import Mathlib.Data.List.Basic
import PayeeProposal.Prompt

/-!
# Answers to questions

The line that a question takes is the input up to its first line feed, and it says yes only when
it is text and, without the blanks around it, one of two words. Other text says no.
-/

namespace PayeeProposal.Prompt

theorem takeLine_fst (bs : List UInt8) :
    (takeLine bs).1 = bs.take (bs.idxOf lineFeed + 1) := by
  induction bs with
  | nil => rfl
  | cons b bs ih =>
    unfold takeLine
    split
    · rename_i heq
      rw [heq, List.idxOf_cons_self]
      rfl
    · rename_i hne
      rw [List.idxOf_cons_ne bs hne, List.take_succ_cons, ← ih]

/-- The first line of an input is text and says `y` or `yes`, in whatever case and with whatever
blanks around it. -/
def Affirms (input : List UInt8) : Prop :=
  ∃ line, Text.ofUtf8? (input.take (input.idxOf lineFeed + 1)) = some line ∧
    (Text.lowerAscii (Text.trim line) = "y" ∨ Text.lowerAscii (Text.trim line) = "yes")

theorem isAffirmative_iff {line : String} :
    isAffirmative line = true ↔
      Text.lowerAscii (Text.trim line) = "y" ∨ Text.lowerAscii (Text.trim line) = "yes" := by
  simp [isAffirmative]

theorem ask_eq_ok_true_iff {input : List UInt8} :
    (ask input).1 = .ok true ↔ Affirms input := by
  show answer (takeLine input).1 = .ok true ↔ Affirms input
  rw [takeLine_fst, Affirms, answer]
  cases Text.ofUtf8? (input.take (input.idxOf lineFeed + 1)) with
  | none => simp
  | some line => simp [isAffirmative_iff]

/-- The first line of an input is no text. -/
def Unreadable (input : List UInt8) : Prop :=
  Text.ofUtf8? (input.take (input.idxOf lineFeed + 1)) = none

theorem ask_eq_error_iff {input : List UInt8} {e : FileError} :
    (ask input).1 = .error e ↔ Unreadable input ∧ e = .notUtf8 := by
  show answer (takeLine input).1 = .error e ↔ _
  rw [takeLine_fst, Unreadable, answer]
  cases Text.ofUtf8? (input.take (input.idxOf lineFeed + 1)) with
  | none => simp [eq_comm]
  | some line => simp

theorem ask_eq_ok_false_iff {input : List UInt8} :
    (ask input).1 = .ok false ↔ ¬ Unreadable input ∧ ¬ Affirms input := by
  rw [← ask_eq_ok_true_iff]
  cases h : (ask input).1 with
  | error e => simp [(ask_eq_error_iff.mp h).1]
  | ok b =>
    have hread : ¬ Unreadable input := by
      intro hun
      cases h.symm.trans (ask_eq_error_iff.mpr ⟨hun, rfl⟩)
    simp [hread]

end PayeeProposal.Prompt
