import PayeeProposal.Instruction

/-!
# The data of an instruction

The data that propose payees are read back as the mint and the payees that they were written
from, as long as the number of payees fits its four bytes. So an instruction says all that it was
made from, and its data are never the beginning of other data.
-/

namespace PayeeProposal.Instruction

theorem readPayees_proposePayeesData (mint : Address) {payees : List Address}
    (h : payees.length < 0x100000000) :
    readPayees (proposePayeesData mint payees) = some (mint, payees) := by
  have hcount : Bytes.ofLittleEndian (Bytes.littleEndian 4 payees.length) = payees.length :=
    Bytes.ofLittleEndian_littleEndian h
  have hlist : readAddresses payees.length (payees.flatMap Address.bytes) = some (payees, []) := by
    simpa using readAddresses_append payees []
  have htake : ∀ bs, (proposePayeesDiscriminator ++ bs).take 8 = proposePayeesDiscriminator :=
    fun _ => rfl
  have hdrop : ∀ bs, (proposePayeesDiscriminator ++ bs).drop 8 = bs := fun _ => rfl
  unfold proposePayeesData readPayees
  rw [List.append_assoc, List.append_assoc, if_pos (htake _), hdrop]
  simp only [readAddress_append, Option.bind_eq_bind, Option.bind_some, List.length_append,
    Bytes.length_littleEndian]
  rw [if_pos (by omega), List.take_left' (Bytes.length_littleEndian 4 _),
    List.drop_left' (Bytes.length_littleEndian 4 _), hcount, hlist]
  rfl

/-- Data that go on as other data end with them, and say the same. -/
theorem eq_of_proposePayeesData_append {mint mint' : Address} {payees payees' : List Address}
    {rest : List UInt8} (h : payees.length < 0x100000000) (h' : payees'.length < 0x100000000)
    (heq : proposePayeesData mint payees ++ rest = proposePayeesData mint' payees') :
    rest = [] ∧ mint = mint' ∧ payees = payees' := by
  have hrest : rest = [] := by
    have hlength := congrArg List.length heq
    simp only [proposePayeesData, List.append_assoc] at heq
    have hmints := (List.append_inj heq rfl).2
    have hcounts := (List.append_inj hmints (by rw [mint.length_eq, mint'.length_eq])).2
    have hcount := (List.append_inj hcounts (by simp)).1
    -- the number of payees is in front of them, so it decides how long the data are
    have hsame : payees.length = payees'.length := by
      have hback : Bytes.ofLittleEndian (Bytes.littleEndian 4 payees.length) = payees.length :=
        Bytes.ofLittleEndian_littleEndian h
      rw [← hback, hcount]
      exact Bytes.ofLittleEndian_littleEndian h'
    rw [List.length_append, length_proposePayeesData, length_proposePayeesData] at hlength
    apply List.eq_nil_of_length_eq_zero
    omega
  have hread := readPayees_proposePayeesData mint h
  rw [hrest, List.append_nil] at heq
  rw [heq, readPayees_proposePayeesData mint' h'] at hread
  cases hread
  exact ⟨hrest, rfl, rfl⟩

/-- An instruction says all that it was made from. -/
theorem proposePayees_inj {program program' mint mint' proposal proposal' authority
    authority' : Address} {payees payees' : List Address} (h : payees.length < 0x100000000)
    (h' : payees'.length < 0x100000000)
    (heq : proposePayees program mint payees proposal authority =
      proposePayees program' mint' payees' proposal' authority') :
    program = program' ∧ mint = mint' ∧ payees = payees' ∧ proposal = proposal' ∧
      authority = authority' := by
  simp only [proposePayees, mk.injEq, List.cons.injEq, AccountRef.mk.injEq, and_true] at heq
  obtain ⟨hprogram, ⟨hproposal, hauthority⟩, hdata⟩ := heq
  rw [← List.append_nil (proposePayeesData mint payees)] at hdata
  obtain ⟨-, hmint, hpayees⟩ := eq_of_proposePayeesData_append h h' hdata
  exact ⟨hprogram, hmint, hpayees, hproposal, hauthority⟩

end PayeeProposal.Instruction
