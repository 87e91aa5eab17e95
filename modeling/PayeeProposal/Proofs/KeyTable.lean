import Mathlib.Data.List.Nodup
import Mathlib.Data.List.Perm.Subperm
import PayeeProposal.Transaction
import PayeeProposal.Proofs.Traversal

/-!
# The table of keys

The table of a message holds the payer and every key that an instruction uses, each once, with
the payer first. A key has the rights that some use of it asks for, and no others. So a place in
the table leads back to the key that it was written for.
-/

namespace PayeeProposal.Message

/-! ## Uses that are noted -/

/-- Some use of an address has a right. -/
def Grants (right : AccountRef → Bool) (uses : List AccountRef) (a : Address) : Prop :=
  ∃ k ∈ uses, k.address = a ∧ right k = true

/-- A right that is there for two uses together when it is there for one of them. -/
def Joins (right : AccountRef → Bool) : Prop :=
  ∀ k key, right ⟨k.address, k.isSigner || key.isSigner, k.isWritable || key.isWritable⟩ =
    (right k || right key)

theorem joins_isSigner : Joins AccountRef.isSigner := fun _ _ => rfl

theorem joins_use : Joins fun _ => true := fun _ _ => rfl

theorem grants_cons {right : AccountRef → Bool} {k : AccountRef} {ks : List AccountRef}
    {a : Address} :
    Grants right (k :: ks) a ↔ (k.address = a ∧ right k = true) ∨ Grants right ks a := by
  simp [Grants]

theorem grants_note {right : AccountRef → Bool} (hright : Joins right) (key : AccountRef)
    (ks : List AccountRef) (a : Address) :
    Grants right (note key ks) a ↔
      Grants right ks a ∨ (key.address = a ∧ right key = true) := by
  induction ks with
  | nil => simp [note, Grants]
  | cons k ks ih =>
    unfold note
    split
    · rename_i heq
      rw [grants_cons, grants_cons, hright, heq, Bool.or_eq_true]
      grind
    · split
      · rw [grants_cons]
        exact or_comm
      · rw [grants_cons, grants_cons, ih, or_assoc]

/-- Keys in the order of addresses, each address once. -/
def Ordered (ks : List AccountRef) : Prop :=
  ks.Pairwise fun k l => k.address.rank < l.address.rank

theorem grants_use_of_mem {k : AccountRef} {ks : List AccountRef} (h : k ∈ ks) :
    Grants (fun _ => true) ks k.address :=
  ⟨k, h, rfl, rfl⟩

theorem ordered_note (key : AccountRef) {ks : List AccountRef} (h : Ordered ks) :
    Ordered (note key ks) := by
  induction ks with
  | nil => exact List.pairwise_singleton _ _
  | cons k ks ih =>
    obtain ⟨hk, hks⟩ := List.pairwise_cons.mp h
    unfold note
    split
    · exact List.pairwise_cons.mpr ⟨hk, hks⟩
    · rename_i hne
      split
      · rename_i hlt
        refine List.pairwise_cons.mpr ⟨?_, h⟩
        intro l hl
        rcases List.mem_cons.mp hl with rfl | hl
        · exact hlt
        · exact Nat.lt_trans hlt (hk l hl)
      · rename_i hge
        refine List.pairwise_cons.mpr ⟨?_, ih hks⟩
        intro l hl
        -- a key behind `k` is the new one, or was there before
        rcases (grants_note joins_use key ks l.address).mp (grants_use_of_mem hl) with h | h
        · obtain ⟨l', hl', heq, -⟩ := h
          rw [← heq]
          exact hk l' hl'
        · have hrank : key.address.rank ≠ k.address.rank := fun hr => hne (Address.rank_inj hr)
          rw [← h.1]
          omega

/-- The uses put together by address. -/
def noted (uses : List AccountRef) : List AccountRef :=
  uses.foldl (fun ks key => note key ks) []

theorem grants_foldl_note {right : AccountRef → Bool} (hright : Joins right)
    (uses ks : List AccountRef) (a : Address) :
    Grants right (uses.foldl (fun ks key => note key ks) ks) a ↔
      Grants right ks a ∨ Grants right uses a := by
  induction uses generalizing ks with
  | nil => simp [Grants]
  | cons key uses ih => rw [List.foldl_cons, ih, grants_note hright, grants_cons, or_assoc]

theorem grants_noted {right : AccountRef → Bool} (hright : Joins right) (uses : List AccountRef)
    (a : Address) : Grants right (noted uses) a ↔ Grants right uses a := by
  unfold noted
  rw [grants_foldl_note hright]
  simp [Grants]

theorem ordered_noted (uses : List AccountRef) : Ordered (noted uses) := by
  have hfold : ∀ ks, Ordered ks → Ordered (uses.foldl (fun ks key => note key ks) ks) := by
    induction uses with
    | nil => exact fun ks h => h
    | cons key uses ih => exact fun ks h => ih (note key ks) (ordered_note key h)
  exact hfold [] List.Pairwise.nil

theorem nodup_of_ordered {ks : List AccountRef} (h : Ordered ks) :
    (ks.map AccountRef.address).Nodup := by
  refine List.pairwise_map.mpr (h.imp ?_)
  intro k l hlt heq
  rw [heq] at hlt
  exact Nat.lt_irrefl _ hlt

/-! ## The table -/

variable {payer : Address} {instructions : List Instruction} {blockhash : Blockhash}

theorem mem_group_iff {signs writes : Bool} {ks : List AccountRef} {a : Address} :
    a ∈ group signs writes ks ↔
      ∃ k ∈ ks, k.isSigner = signs ∧ k.isWritable = writes ∧ k.address = a := by
  simp [group, and_assoc]

/-- The uses that instructions make of keys. -/
def uses (instructions : List Instruction) : List AccountRef :=
  instructions.flatMap usesOf

theorem mem_otherKeys_iff {k : AccountRef} :
    k ∈ otherKeys payer instructions ↔ k ∈ noted (uses instructions) ∧ k.address ≠ payer := by
  simp [otherKeys, noted, uses]

theorem keys_compile :
    (compile payer instructions blockhash).keys =
      payer :: group true true (otherKeys payer instructions) ++
        group true false (otherKeys payer instructions) ++
        group false true (otherKeys payer instructions) ++
        group false false (otherKeys payer instructions) :=
  rfl

theorem instructions_compile :
    (compile payer instructions blockhash).instructions =
      instructions.map (compileInstruction (compile payer instructions blockhash).keys) :=
  rfl

theorem mem_keys_iff {a : Address} :
    a ∈ (compile payer instructions blockhash).keys ↔
      a = payer ∨ Grants (fun _ => true) (uses instructions) a := by
  rw [keys_compile, ← grants_noted joins_use]
  simp only [List.cons_append, List.mem_cons, List.mem_append, mem_group_iff, mem_otherKeys_iff]
  constructor
  · grind [Grants]
  · rintro (rfl | ⟨k, hk, rfl, -⟩)
    · exact .inl rfl
    · by_cases hp : k.address = payer
      · exact .inl hp
      · right
        cases hs : k.isSigner <;> cases hw : k.isWritable <;> grind

/-- A key is in one group only. -/
theorem eq_of_mem_group {ks : List AccountRef} (h : Ordered ks) {signs signs' writes writes' : Bool}
    {a : Address} (ha : a ∈ group signs writes ks) (ha' : a ∈ group signs' writes' ks) :
    signs = signs' ∧ writes = writes' := by
  obtain ⟨k, hk, rfl, rfl, rfl⟩ := mem_group_iff.mp ha
  obtain ⟨l, hl, rfl, rfl, heq⟩ := mem_group_iff.mp ha'
  have hkl : l = k := List.inj_on_of_nodup_map (nodup_of_ordered h) hl hk heq
  rw [hkl]
  exact ⟨rfl, rfl⟩

theorem nodup_group {ks : List AccountRef} (h : Ordered ks) (signs writes : Bool) :
    (group signs writes ks).Nodup :=
  (nodup_of_ordered h).sublist (List.filter_sublist.map AccountRef.address)

theorem ordered_otherKeys (payer : Address) (instructions : List Instruction) :
    Ordered (otherKeys payer instructions) :=
  (ordered_noted (uses instructions)).sublist List.filter_sublist

theorem ne_payer_of_mem_group {signs writes : Bool} {a : Address}
    (h : a ∈ group signs writes (otherKeys payer instructions)) : a ≠ payer := by
  obtain ⟨k, hk, -, -, rfl⟩ := mem_group_iff.mp h
  exact (mem_otherKeys_iff.mp hk).2

theorem nodup_keys : (compile payer instructions blockhash).keys.Nodup := by
  have hordered := ordered_otherKeys payer instructions
  -- the groups differ in a right, and the payer is in none of them
  have hdisjoint : ∀ {signs signs' writes writes' : Bool}, (signs, writes) ≠ (signs', writes') →
      List.Disjoint (group signs writes (otherKeys payer instructions))
        (group signs' writes' (otherKeys payer instructions)) := by
    intro signs signs' writes writes' hne a ha ha'
    obtain ⟨rfl, rfl⟩ := eq_of_mem_group hordered ha ha'
    exact hne rfl
  rw [keys_compile]
  simp only [List.cons_append, List.nodup_cons, List.mem_append, List.nodup_append',
    List.disjoint_append_left, nodup_group hordered, true_and]
  refine ⟨?_, ⟨hdisjoint (by decide), hdisjoint (by decide), hdisjoint (by decide)⟩,
    ⟨hdisjoint (by decide), hdisjoint (by decide)⟩, hdisjoint (by decide)⟩
  rintro (((h | h) | h) | h) <;> exact ne_payer_of_mem_group h rfl

theorem head?_keys : (compile payer instructions blockhash).keys.head? = some payer :=
  rfl

theorem length_keys_le :
    (compile payer instructions blockhash).keys.length ≤ (uses instructions).length + 1 := by
  have hsub : (compile payer instructions blockhash).keys ⊆
      payer :: (uses instructions).map AccountRef.address := by
    intro a ha
    rcases mem_keys_iff.mp ha with rfl | ⟨k, hk, rfl, -⟩
    · exact List.mem_cons_self
    · exact List.mem_cons_of_mem _ (List.mem_map_of_mem hk)
  simpa using (List.Nodup.subperm nodup_keys hsub).length_le

/-- No group fills the table, since the payer stands before all of them. -/
theorem length_group_lt (signs writes : Bool) :
    (group signs writes (otherKeys payer instructions)).length <
      (compile payer instructions blockhash).keys.length := by
  rw [keys_compile]
  simp only [List.cons_append, List.length_cons, List.length_append]
  cases signs
  · cases writes <;> omega
  · cases writes <;> omega

/-- Where nobody else signs, the payer is the only signer. -/
theorem signers_compile
    (h : ∀ a, Grants AccountRef.isSigner (uses instructions) a → a = payer) :
    (compile payer instructions blockhash).header.signers = 1 := by
  have hempty : ∀ writes, group true writes (otherKeys payer instructions) = [] := by
    -- a signer besides the payer would have some use that signs
    intro writes
    rw [List.eq_nil_iff_forall_not_mem]
    intro a ha
    obtain ⟨k, hk, hs, -, rfl⟩ := mem_group_iff.mp ha
    obtain ⟨hnoted, hne⟩ := mem_otherKeys_iff.mp hk
    exact hne (h _ ((grants_noted joins_isSigner _ _).mp ⟨k, hnoted, rfl, hs⟩))
  show (payer :: group true true (otherKeys payer instructions) ++
    group true false (otherKeys payer instructions)).length = 1
  rw [hempty, hempty]
  rfl

/-! ## References undone -/

/-- The instruction with the rights that the table of a message gives to its keys. -/
def readBack (m : Message) (i : Instruction) : Instruction where
  program := i.program
  accounts := i.accounts.map fun k =>
    ⟨k.address, m.isSignerAt (m.keys.idxOf k.address), m.isWritableAt (m.keys.idxOf k.address)⟩
  data := i.data

theorem getElem?_idxOf_keys {m : Message} {a : Address} (h : a ∈ m.keys) :
    m.keys[m.keys.idxOf a]? = some a := by
  rw [List.getElem?_eq_getElem (List.idxOf_lt_length_of_mem h), List.getElem_idxOf]

theorem instruction?_compileInstruction {m : Message} {i : Instruction}
    (hprogram : i.program ∈ m.keys) (haccounts : ∀ k ∈ i.accounts, k.address ∈ m.keys) :
    m.instruction? (compileInstruction m.keys i) = some (readBack m i) := by
  have hmap : (i.accounts.map fun k => m.keys.idxOf k.address).mapM (fun j =>
      (m.keys[j]?).map fun a => (⟨a, m.isSignerAt j, m.isWritableAt j⟩ : AccountRef)) =
      some (readBack m i).accounts :=
    Traversal.mapM_map_eq_some fun k hk => by rw [getElem?_idxOf_keys (haccounts k hk)]; rfl
  unfold instruction? compileInstruction
  rw [getElem?_idxOf_keys hprogram, hmap]
  rfl

theorem grants_uses_program {i : Instruction} (hi : i ∈ instructions) :
    Grants (fun _ => true) (uses instructions) i.program :=
  ⟨⟨i.program, false, false⟩, List.mem_flatMap.mpr ⟨i, hi, List.mem_cons_self⟩, rfl, rfl⟩

theorem grants_uses_account {i : Instruction} (hi : i ∈ instructions) {k : AccountRef}
    (hk : k ∈ i.accounts) : Grants (fun _ => true) (uses instructions) k.address :=
  ⟨k, List.mem_flatMap.mpr ⟨i, hi, List.mem_cons_of_mem _ hk⟩, rfl, rfl⟩

/-- Undoing the references gives back the instructions, with the rights of the table. -/
theorem instructions?_compile :
    (compile payer instructions blockhash).instructions? =
      some (instructions.map (readBack (compile payer instructions blockhash))) := by
  refine Traversal.mapM_map_eq_some fun i hi => instruction?_compileInstruction ?_ ?_
  · exact mem_keys_iff.mpr (.inr (grants_uses_program hi))
  · exact fun k hk => mem_keys_iff.mpr (.inr (grants_uses_account hi hk))

end PayeeProposal.Message
