/-!
# Tables

A table is a list of keys with their values. Binding a key that is there already replaces its
value in place, so that keys stay in the order in which they came first.
-/

namespace PayeeProposal.Table

variable {κ α : Type} [DecidableEq κ]

/-- Binds a key in a table; a later value replaces an earlier one. -/
def rebind (key : κ) (value : α) : List (κ × α) → List (κ × α)
  | [] => [(key, value)]
  | (k, v) :: rest =>
    if k = key then (k, value) :: rest else (k, v) :: rebind key value rest

/-- Binds the keys of some entries, one after another. -/
def bindAll (entries table : List (κ × α)) : List (κ × α) :=
  entries.foldl (fun table e => rebind e.1 e.2 table) table

/-- A key that is not there yet comes last. -/
theorem rebind_of_not_mem {key : κ} (value : α) {table : List (κ × α)}
    (h : key ∉ table.map Prod.fst) : rebind key value table = table ++ [(key, value)] := by
  induction table with
  | nil => rfl
  | cons e table ih =>
    obtain ⟨k, v⟩ := e
    rw [List.map_cons, List.mem_cons, not_or] at h
    rw [rebind, if_neg (Ne.symm h.1), ih h.2, List.cons_append]

/-- Entries with different keys are bound in their order. -/
theorem bindAll_of_nodup {entries table : List (κ × α)}
    (h : ((table ++ entries).map Prod.fst).Nodup) : bindAll entries table = table ++ entries := by
  induction entries generalizing table with
  | nil => exact (List.append_nil table).symm
  | cons e entries ih =>
    have hsplit : table ++ e :: entries = table ++ [e] ++ entries := by simp
    have hnew : e.1 ∉ table.map Prod.fst := by
      rw [List.map_append, List.nodup_append] at h
      intro hmem
      exact h.2.2 _ hmem _ List.mem_cons_self rfl
    have hbind : bindAll (e :: entries) table = bindAll entries (rebind e.1 e.2 table) := rfl
    rw [hsplit] at h ⊢
    rw [hbind, rebind_of_not_mem e.2 hnew, ih h]

variable [BEq κ] [LawfulBEq κ]

theorem lookup_cons_eq_ite (e : κ × α) (table : List (κ × α)) (name : κ) :
    (e :: table).lookup name = if name = e.1 then some e.2 else table.lookup name := by
  rw [List.lookup_cons]
  by_cases h : name = e.1
  · rw [beq_iff_eq.mpr h, if_pos h]
  · rw [beq_eq_false_iff_ne.mpr h, if_neg h]

theorem lookup_rebind (key : κ) (value : α) (table : List (κ × α)) (name : κ) :
    (rebind key value table).lookup name =
      if name = key then some value else table.lookup name := by
  induction table with
  | nil => rw [rebind, lookup_cons_eq_ite]
  | cons e table ih =>
    obtain ⟨k, v⟩ := e
    rw [rebind]
    split
    · rename_i hk
      subst hk
      simp only [lookup_cons_eq_ite]
      split <;> rfl
    · rename_i hk
      simp only [lookup_cons_eq_ite, ih]
      by_cases hn : name = k
      · subst hn
        rw [if_pos rfl, if_neg hk, if_pos rfl]
      · simp only [if_neg hn]

end PayeeProposal.Table
