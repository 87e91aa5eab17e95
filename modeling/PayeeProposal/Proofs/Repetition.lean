import PayeeProposal.Proofs.Base58
import PayeeProposal.Proofs.BuildStages

/-!
# Transmitters that come again

The table of an input is a map from the transmitters of its assignments to their payees. When
transmitters come again, they are named in the order in which they come for the second time: the
reader of the list has met some addresses and found some of them again, and what it has found of
a first part of the list is in that order, whatever follows.
-/

namespace PayeeProposal

namespace PayeeTable

variable {as bs pre : List Address} {a b : Address}

/-- An address comes for the second time at a place of a list. -/
def SecondAt (as : List Address) (a : Address) (i : Nat) : Prop :=
  as[i]? = some a ∧ (as.take i).count a = 1

/-- An address comes for the second time before another one does. -/
def Before (as : List Address) (a b : Address) : Prop :=
  ∃ i j, SecondAt as a i ∧ SecondAt as b j ∧ i < j

/-- Addresses are those that a list has more than once, each one once, in the order in which they
come for the second time. -/
structure Again (as again : List Address) : Prop where
  mem : ∀ a, a ∈ again ↔ 2 ≤ as.count a
  nodup : again.Nodup
  order : again.Pairwise (Before as)

/-! ## Second places -/

theorem SecondAt.lt_length {i : Nat} (h : SecondAt as a i) : i < as.length :=
  (List.getElem?_eq_some_iff.mp h.1).1

/-- What stands in a first part of a list stands there in the whole list. -/
theorem SecondAt.append {i : Nat} (h : SecondAt as a i) (bs : List Address) :
    SecondAt (as ++ bs) a i := by
  have hi := h.lt_length
  refine ⟨?_, ?_⟩
  · rw [List.getElem?_append_left hi]
    exact h.1
  · rw [List.take_append_of_le_length (by omega)]
    exact h.2

theorem Before.append (h : Before as a b) (bs : List Address) : Before (as ++ bs) a b := by
  obtain ⟨i, j, hi, hj, hlt⟩ := h
  exact ⟨i, j, hi.append bs, hj.append bs, hlt⟩

/-- An address that a list has once comes for the second time behind the list. -/
theorem secondAt_length (h : as.count a = 1) (bs : List Address) :
    SecondAt (as ++ a :: bs) a as.length := by
  refine ⟨?_, ?_⟩
  · simp
  · rw [List.take_left]
    exact h

theorem exists_secondAt (h : 2 ≤ as.count a) : ∃ i, SecondAt as a i := by
  induction as using List.reverseRecOn with
  | nil => simp at h
  | append_singleton as b ih =>
    by_cases hbefore : 2 ≤ as.count a
    · obtain ⟨i, hi⟩ := ih hbefore
      exact ⟨i, hi.append [b]⟩
    · rw [List.count_append, List.count_singleton] at h
      by_cases hb : b = a
      · subst hb
        rw [beq_self_eq_true, if_pos rfl] at h
        exact ⟨as.length, secondAt_length (by omega) []⟩
      · rw [if_neg (by simpa using hb)] at h
        omega

/-! ## The order of what is found -/

/-- What has been met and what has been found again in a first part of a list. -/
structure Met (pre seen found : List Address) : Prop where
  met : ∀ b, b ∈ seen ↔ b ∈ pre
  twice : ∀ b, b ∈ found ↔ 2 ≤ pre.count b
  order : found.Pairwise (Before pre)

namespace Met

variable {seen found : List Address}

theorem count_append_singleton (pre : List Address) (a b : Address) :
    (pre ++ [a]).count b = pre.count b + if a = b then 1 else 0 := by
  simp [List.count_append, List.count_singleton]

/-- An address that is new is only kept in mind. -/
theorem first (h : Met pre seen found) (ha : a ∉ seen) : Met (pre ++ [a]) (a :: seen) found where
  met := by
    intro b
    rw [List.mem_cons, List.mem_append, List.mem_singleton, h.met, or_comm]
  twice := by
    intro b
    have hnone : pre.count a = 0 := List.count_eq_zero.mpr ((h.met a).not.mp ha)
    rw [h.twice, count_append_singleton]
    by_cases hab : a = b
    · subst hab
      rw [if_pos rfl]
      omega
    · rw [if_neg hab, Nat.add_zero]
  order := h.order.imp fun hb => hb.append [a]

theorem seen_of_mem (h : Met pre seen found) (ha : a ∈ seen) (b : Address) :
    b ∈ seen ↔ b ∈ pre ++ [a] := by
  rw [List.mem_append, List.mem_singleton, ← h.met]
  constructor
  · exact .inl
  · rintro (hb | rfl)
    · exact hb
    · exact ha

/-- An address that comes for the second time is found behind all that have been found before. -/
theorem second (h : Met pre seen found) (ha : a ∈ seen) (hnot : a ∉ found) :
    Met (pre ++ [a]) seen (found ++ [a]) := by
  have hone : pre.count a = 1 := by
    have hpos : 0 < pre.count a := List.count_pos_iff.mpr ((h.met a).mp ha)
    have hfew := (h.twice a).not.mp hnot
    omega
  refine ⟨h.seen_of_mem ha, ?_, ?_⟩
  · intro b
    rw [List.mem_append, List.mem_singleton, h.twice, count_append_singleton]
    by_cases hab : a = b
    · subst hab
      simp [hone]
    · simp [hab, Ne.symm hab]
  · rw [List.pairwise_append]
    refine ⟨h.order.imp fun hb => hb.append [a], List.pairwise_singleton _ _, ?_⟩
    intro b hb c hc
    obtain rfl := List.mem_singleton.mp hc
    obtain ⟨i, hi⟩ := exists_secondAt ((h.twice b).mp hb)
    exact ⟨i, pre.length, hi.append [c], secondAt_length hone [], hi.lt_length⟩

/-- An address that has been found is not found once more. -/
theorem third (h : Met pre seen found) (ha : a ∈ seen) (hfound : a ∈ found) :
    Met (pre ++ [a]) seen found where
  met := h.seen_of_mem ha
  twice := by
    intro b
    have htwice := (h.twice a).mp hfound
    rw [h.twice, count_append_singleton]
    by_cases hab : a = b
    · subst hab
      rw [if_pos rfl]
      omega
    · rw [if_neg hab, Nat.add_zero]
  order := h.order.imp fun hb => hb.append [a]

/-- What is found in the end is in order. -/
theorem pairwise_repeatedFrom (h : Met pre seen found) :
    (repeatedFrom seen found as).Pairwise (Before (pre ++ as)) := by
  induction as generalizing pre seen found with
  | nil =>
    rw [List.append_nil]
    exact h.order
  | cons a as ih =>
    rw [List.append_cons, repeatedFrom]
    by_cases ha : a ∈ seen
    · rw [if_pos (by simpa using ha)]
      by_cases hfound : a ∈ found
      · rw [if_pos (by simpa using hfound)]
        exact ih (h.third ha hfound)
      · rw [if_neg (by simpa using hfound)]
        exact ih (h.second ha hfound)
    · rw [if_neg (by simpa using ha)]
      exact ih (h.first ha)

end Met

theorem met_nothing : Met [] [] [] := by
  constructor <;> simp

theorem again_repeated (as : List Address) : Again as (repeated as) where
  mem := fun _ => mem_repeated_iff
  nodup := nodup_repeated as
  order := met_nothing.pairwise_repeatedFrom

/-! ## The table as a map -/

/-- A table has an entry for each assignment, no two for one transmitter, and gives a transmitter
the payee that is assigned to it. -/
structure MapOf (table : PayeeTable) (input : PayeeInput) : Prop where
  size : table.length = input.operators.length
  keys : (table.map Prod.fst).Nodup
  lookup : ∀ t p, table.lookup t = some p ↔ input.Assigns t p

theorem mapOf_of_ofInput {input : PayeeInput} {table : PayeeTable} (h : ofInput input = .ok table) :
    MapOf table input where
  size := (List.Forall₂.length_eq (ofInput_eq_ok_iff.mp h).1).symm
  keys := (ofInput_eq_ok_iff.mp h).2
  lookup := fun _ _ => lookup_ofInput h

theorem ofInput_of_not_distinct {input : PayeeInput} (hwell : input.WellFormed)
    (h : ¬ input.Distinct) :
    ∃ keys again, input.TransmittersAt keys ∧ Again keys again ∧ (again.map Address.text).Nodup ∧
      ofInput input = .error (.validation .duplicateTransmitters (again.map Address.text)) := by
  obtain ⟨table, hread⟩ := exists_denotes_iff.mpr hwell
  have hagain := again_repeated (table.map Prod.fst)
  refine ⟨_, _, PayeeInput.transmittersAt_keys hread, hagain, ?_, ?_⟩
  · exact hagain.nodup.map fun _ _ => Address.text_inj
  · rw [ofInput_of_denotes hread, if_neg ((distinct_iff hread).not.mp h)]

/-- The table of an input is the map of its assignments when all texts are addresses and no
transmitter comes again. The first text that is no address is named as it was given, whatever
comes again; without such a text, the transmitters that come again are named, each one once, in
the order in which they come for the second time. -/
theorem ofInput_map_or_named (input : PayeeInput) :
    ((∃ table, ofInput input = .ok table) ↔ input.WellFormed ∧ input.Distinct) ∧
      (∀ table, ofInput input = .ok table → MapOf table input) ∧
      (¬ input.WellFormed → ∃ text reason, input.FirstMalformed text reason ∧
        ofInput input = .error (.invalidAddress text reason)) ∧
      (input.WellFormed → ¬ input.Distinct → ∃ keys again, input.TransmittersAt keys ∧
        Again keys again ∧ (again.map Address.text).Nodup ∧
        ofInput input =
          .error (.validation .duplicateTransmitters (again.map Address.text))) :=
  ⟨exists_ofInput_eq_ok_iff, fun _ => mapOf_of_ofInput, ofInput_of_firstMalformed,
    ofInput_of_not_distinct⟩

end PayeeTable

end PayeeProposal
