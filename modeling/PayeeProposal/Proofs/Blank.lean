import Mathlib.Data.List.TakeWhile
import Mathlib.Data.String.Basic
import PayeeProposal.Text.Blank

/-!
# Blanks around a text

Trimming takes a text out of the blanks that it stands between, and nothing else: what is left is
the one text between blanks that does not itself start or end with a blank.
-/

namespace PayeeProposal.Text

/-- A text is another one with blanks before and behind it. -/
def Pads (s t : String) : Prop :=
  ∃ before after, s.toList = before ++ t.toList ++ after ∧
    (∀ c ∈ before, isBlank c = true) ∧ ∀ c ∈ after, isBlank c = true

/-- A text starts and ends with no blank. -/
structure Bare (t : String) : Prop where
  front : ∀ c, t.toList.head? = some c → isBlank c = false
  back : ∀ c, t.toList.getLast? = some c → isBlank c = false

theorem bare_of_forall {t : String} (h : ∀ c ∈ t.toList, isBlank c = false) : Bare t where
  front := fun c hc => h c (List.mem_of_head? hc)
  back := fun c hc => h c (List.mem_of_getLast? hc)

/-! ## Taking the blanks off -/

theorem exists_append_trimLeft (cs : List Char) :
    ∃ blanks, cs = blanks ++ trimLeft cs ∧ ∀ c ∈ blanks, isBlank c = true :=
  ⟨cs.takeWhile isBlank, List.takeWhile_append_dropWhile.symm, fun _ => List.mem_takeWhile_imp⟩

theorem head?_trimLeft {cs : List Char} {c : Char} (h : (trimLeft cs).head? = some c) :
    isBlank c = false := by
  have hnot := List.head?_dropWhile_not isBlank cs
  rw [show cs.dropWhile isBlank = trimLeft cs from rfl, h] at hnot
  exact hnot

theorem trimLeft_eq_self {cs : List Char} (h : ∀ c, cs.head? = some c → isBlank c = false) :
    trimLeft cs = cs := by
  cases cs with
  | nil => rfl
  | cons c cs => exact trimLeft_of_head (h c rfl)

/-- Blanks behind a text are taken off with those that end the text. -/
theorem trimRight_append_of_blank {cs pad : List Char} (h : ∀ c ∈ pad, isBlank c = true) :
    trimRight (cs ++ pad) = trimRight cs := by
  unfold trimRight
  rw [List.reverse_append, trimLeft_append_of_blank fun c hc => h c (List.mem_reverse.mp hc)]

theorem trimRight_eq_self {cs : List Char} (h : ∀ c, cs.getLast? = some c → isBlank c = false) :
    trimRight cs = cs := by
  unfold trimRight
  rw [trimLeft_eq_self (by simpa using h), List.reverse_reverse]

theorem exists_trimRight_append (cs : List Char) :
    ∃ blanks, cs = trimRight cs ++ blanks ∧ ∀ c ∈ blanks, isBlank c = true := by
  obtain ⟨blanks, hblanks, hblank⟩ := exists_append_trimLeft cs.reverse
  refine ⟨blanks.reverse, ?_, fun c hc => hblank c (List.mem_reverse.mp hc)⟩
  rw [trimRight, ← List.reverse_append, ← hblanks, List.reverse_reverse]

/-! ## Trimmed texts -/

theorem pads_trim (s : String) : Pads s (trim s) := by
  obtain ⟨before, hbefore, hblank⟩ := exists_append_trimLeft s.toList
  obtain ⟨after, hafter, hblank'⟩ := exists_trimRight_append (trimLeft s.toList)
  refine ⟨before, after, ?_, hblank, hblank'⟩
  rw [trim, String.toList_ofList, List.append_assoc, ← hafter]
  exact hbefore

theorem bare_trim (s : String) : Bare (trim s) where
  front := by
    intro c hc
    -- what is taken off the end leaves the first character in its place
    obtain ⟨after, hafter, -⟩ := exists_trimRight_append (trimLeft s.toList)
    rw [trim, String.toList_ofList] at hc
    have hhead : (trimLeft s.toList).head? = some c := by
      rw [hafter, List.head?_append, hc]
      rfl
    exact head?_trimLeft hhead
  back := by
    intro c hc
    rw [trim, String.toList_ofList, trimRight, List.getLast?_reverse] at hc
    exact head?_trimLeft hc

theorem trim_of_pads {s t : String} (h : Pads s t) (hbare : Bare t) : trim s = t := by
  obtain ⟨before, after, hs, hbefore, hafter⟩ := h
  have hright : trimRight (trimLeft (t.toList ++ after)) = t.toList := by
    by_cases ht : t.toList = []
    · -- nothing stands between the blanks, so they are all taken off the front
      rw [ht, List.nil_append, trimLeft_eq_nil_iff.mpr hafter]
      rfl
    · have hfront : ∀ c, (t.toList ++ after).head? = some c → isBlank c = false := by
        intro c hc
        rw [List.head?_append_of_ne_nil _ ht] at hc
        exact hbare.front c hc
      rw [trimLeft_eq_self hfront, trimRight_append_of_blank hafter, trimRight_eq_self hbare.back]
  rw [trim, hs, List.append_assoc, trimLeft_append_of_blank hbefore, hright, String.ofList_toList]

/-- The trimmed text is the one text between blanks that starts and ends with no blank. -/
theorem trim_eq_iff {s t : String} : trim s = t ↔ Pads s t ∧ Bare t := by
  constructor
  · rintro rfl
    exact ⟨pads_trim s, bare_trim s⟩
  · rintro ⟨hpads, hbare⟩
    exact trim_of_pads hpads hbare

theorem allBlank_trim (s : String) : allBlank (trim s) = allBlank s := by
  obtain ⟨before, after, hs, hbefore, hafter⟩ := pads_trim s
  have hall : before.all isBlank = true ∧ after.all isBlank = true :=
    ⟨List.all_eq_true.mpr hbefore, List.all_eq_true.mpr hafter⟩
  simp [allBlank, hs, hall]

theorem allBlank_of_bare {s : String} (h : Bare s) (hne : s ≠ "") : allBlank s = false := by
  cases hs : s.toList with
  | nil => exact absurd (String.toList_eq_nil_iff.mp hs) hne
  | cons c cs =>
    have hc : isBlank c = false := h.front c (by rw [hs]; rfl)
    simp [allBlank, hs, hc]

theorem unlessBlank_eq_some_iff {s t : String} :
    unlessBlank s = some t ↔ s = t ∧ allBlank s = false := by
  unfold unlessBlank
  split
  · rename_i h
    simp [h]
  · rename_i h
    simp [h]

end PayeeProposal.Text
