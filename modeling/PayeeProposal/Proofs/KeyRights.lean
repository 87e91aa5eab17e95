import PayeeProposal.Proofs.KeyTable

/-!
# The rights of keys

The header of a message says only how many keys sign and how many are read-only; which rights the
key at a place has follows from the order of the table. They are the rights that some use of the
key asks for, and all rights for the payer.
-/

namespace PayeeProposal.Message

theorem joins_isWritable : Joins AccountRef.isWritable := fun _ _ => rfl

/-- In a list without repetitions, what stands before a mark is in the part before the mark. -/
theorem lt_length_iff_mem {α : Type} {xs ys : List α} {a : α} {i : Nat} (h : (xs ++ ys).Nodup)
    (hi : (xs ++ ys)[i]? = some a) : i < xs.length ↔ a ∈ xs := by
  constructor
  · intro hlt
    rw [List.getElem?_append_left hlt] at hi
    exact List.mem_of_getElem? hi
  · intro ha
    by_contra hge
    rw [List.getElem?_append_right (Nat.le_of_not_lt hge)] at hi
    exact (List.nodup_append'.mp h).2.2 ha (List.mem_of_getElem? hi)

/-- Four parts one after another, each writable part before a read-only one: what the two numbers of
read-only keys say of a place is whether a writable part has what stands there. -/
theorem writable_place_iff {α : Type} {ws rs wo ro : List α} {a : α} {i : Nat}
    (h : (ws ++ rs ++ wo ++ ro).Nodup) (hi : (ws ++ rs ++ wo ++ ro)[i]? = some a) :
    (if i < (ws ++ rs).length then i + rs.length < (ws ++ rs).length
      else i + ro.length < (ws ++ rs ++ wo ++ ro).length) ↔ a ∈ ws ∨ a ∈ wo := by
  have hothers := lt_length_iff_mem h hi
  rw [List.append_assoc (ws ++ rs)] at h hi
  have hsigners := lt_length_iff_mem h hi
  have hdisjoint := (List.nodup_append'.mp h).2.2
  rw [List.append_assoc ws] at h hi
  have hwritable := lt_length_iff_mem h hi
  split
  · rename_i hlt
    have hnot : a ∉ wo := fun hwo =>
      hdisjoint (hsigners.mp hlt) (List.mem_append_left ro hwo)
    rw [← hwritable, or_iff_left hnot, List.length_append]
    omega
  · rename_i hge
    obtain ⟨hws, hrs⟩ : a ∉ ws ∧ a ∉ rs := by
      rw [hsigners, List.mem_append, not_or] at hge
      exact hge
    rw [List.mem_append, List.mem_append, or_iff_right (not_or.mpr ⟨hws, hrs⟩)] at hothers
    rw [or_iff_right hws, ← hothers, List.length_append]
    omega

variable {payer : Address} {instructions : List Instruction} {blockhash : Blockhash}
  {a : Address} {i : Nat}

/-- A key besides the payer is in the group of its rights. -/
theorem grants_uses_iff {right : AccountRef → Bool} (hright : Joins right) (ha : a ≠ payer) :
    Grants right (uses instructions) a ↔
      ∃ k ∈ otherKeys payer instructions, k.address = a ∧ right k = true := by
  rw [← grants_noted hright]
  unfold Grants
  simp only [mem_otherKeys_iff]
  constructor
  · rintro ⟨k, hk, rfl, hk'⟩
    exact ⟨k, ⟨hk, ha⟩, rfl, hk'⟩
  · rintro ⟨k, ⟨hk, -⟩, rfl, hk'⟩
    exact ⟨k, hk, rfl, hk'⟩

theorem mem_signers_iff :
    a ∈ payer :: group true true (otherKeys payer instructions) ++
        group true false (otherKeys payer instructions) ↔
      a = payer ∨ Grants AccountRef.isSigner (uses instructions) a := by
  by_cases ha : a = payer
  · simp [ha]
  · rw [grants_uses_iff joins_isSigner ha]
    simp only [List.cons_append, List.mem_cons, List.mem_append, mem_group_iff, ha, false_or]
    constructor
    · rintro (⟨k, hk, hs, -, rfl⟩ | ⟨k, hk, hs, -, rfl⟩)
      · exact ⟨k, hk, rfl, hs⟩
      · exact ⟨k, hk, rfl, hs⟩
    · rintro ⟨k, hk, rfl, hs⟩
      cases hw : k.isWritable with
      | true => exact .inl ⟨k, hk, hs, hw, rfl⟩
      | false => exact .inr ⟨k, hk, hs, hw, rfl⟩

theorem mem_writable_iff :
    (a ∈ payer :: group true true (otherKeys payer instructions) ∨
        a ∈ group false true (otherKeys payer instructions)) ↔
      a = payer ∨ Grants AccountRef.isWritable (uses instructions) a := by
  by_cases ha : a = payer
  · simp [ha]
  · rw [grants_uses_iff joins_isWritable ha]
    simp only [List.mem_cons, mem_group_iff, ha, false_or]
    constructor
    · rintro (⟨k, hk, -, hw, rfl⟩ | ⟨k, hk, -, hw, rfl⟩)
      · exact ⟨k, hk, rfl, hw⟩
      · exact ⟨k, hk, rfl, hw⟩
    · rintro ⟨k, hk, rfl, hw⟩
      cases hs : k.isSigner with
      | true => exact .inl ⟨k, hk, hs, hw, rfl⟩
      | false => exact .inr ⟨k, hk, hs, hw, rfl⟩

/-- The key at a place signs exactly when it is the payer or some use of it signs. -/
theorem isSignerAt_compile_iff (h : (compile payer instructions blockhash).keys[i]? = some a) :
    (compile payer instructions blockhash).isSignerAt i = true ↔
      a = payer ∨ Grants AccountRef.isSigner (uses instructions) a := by
  have hnodup : (compile payer instructions blockhash).keys.Nodup := nodup_keys
  rw [keys_compile, List.append_assoc _ (group false true _)] at h hnodup
  rw [← mem_signers_iff, ← lt_length_iff_mem hnodup h]
  exact decide_eq_true_iff

/-- The key at a place is writable exactly when it is the payer or some use of it writes. -/
theorem isWritableAt_compile_iff (h : (compile payer instructions blockhash).keys[i]? = some a) :
    (compile payer instructions blockhash).isWritableAt i = true ↔
      a = payer ∨ Grants AccountRef.isWritable (uses instructions) a := by
  have hnodup : (compile payer instructions blockhash).keys.Nodup := nodup_keys
  rw [keys_compile] at h hnodup
  rw [← mem_writable_iff, ← writable_place_iff hnodup h]
  unfold isWritableAt
  by_cases hlt : i < (compile payer instructions blockhash).header.signers
  · rw [if_pos hlt]
    exact decide_eq_true_iff.trans (iff_of_eq (if_pos hlt).symm)
  · rw [if_neg hlt]
    exact decide_eq_true_iff.trans (iff_of_eq (if_neg hlt).symm)

end PayeeProposal.Message
