import PayeeProposal.Proofs.Build

/-!
# What the instruction format says

Whatever the instruction format of a program accepts, its instructions say: the mint and the
payees are read back from the data, different calls lead to different instructions, and no data
are the beginning of other data. What a build asks for is always accepted.
-/

namespace PayeeProposal

namespace Encoder

/-- Everything that the instruction format of a program is given. -/
@[ext]
structure Query where
  program : Address
  mint : Address
  payees : List Address
  proposal : Address
  authority : Address

namespace Query

/-- What the instruction format makes of it. -/
def encode (q : Query) : Except String Instruction :=
  (forProgram q.program).encode q.mint q.payees q.proposal q.authority

variable {q r : Query} {i j : Instruction}

theorem encode_eq_ok_iff :
    q.encode = .ok i ↔ q.payees.length < 0x100000000 ∧
      i = Instruction.proposePayees q.program q.mint q.payees q.proposal q.authority := by
  simp only [encode, forProgram]
  split
  · rename_i h
    simp [h, eq_comm]
  · rename_i h
    simp [h]

/-- The data are read back as the mint and the payees, and are as long as their number says. -/
theorem exists_encode (h : q.payees.length < 0x100000000) :
    ∃ i, q.encode = .ok i ∧ Instruction.readPayees i.data = some (q.mint, q.payees) ∧
      i.data.length = 44 + 32 * q.payees.length := by
  refine ⟨_, encode_eq_ok_iff.mpr ⟨h, rfl⟩, ?_, ?_⟩
  · exact Instruction.readPayees_proposePayeesData q.mint h
  · exact Instruction.length_proposePayeesData q.mint q.payees

theorem encode_inj (hq : q.encode = .ok i) (hr : r.encode = .ok i) : q = r := by
  obtain ⟨hcount, rfl⟩ := encode_eq_ok_iff.mp hq
  obtain ⟨hcount', heq⟩ := encode_eq_ok_iff.mp hr
  obtain ⟨hprogram, hmint, hpayees, hproposal, hauthority⟩ :=
    Instruction.proposePayees_inj hcount hcount' heq
  exact Query.ext hprogram hmint hpayees hproposal hauthority

/-- Data that begin other data are the same data. -/
theorem data_eq_of_prefix (hq : q.encode = .ok i) (hr : r.encode = .ok j)
    (h : i.data <+: j.data) : i.data = j.data := by
  obtain ⟨hcount, rfl⟩ := encode_eq_ok_iff.mp hq
  obtain ⟨hcount', rfl⟩ := encode_eq_ok_iff.mp hr
  obtain ⟨rest, hrest⟩ := h
  obtain ⟨rfl, -, -⟩ := Instruction.eq_of_proposePayeesData_append hcount hcount' hrest
  rw [← hrest, List.append_nil]

end Query

end Encoder

namespace Build

/-- What a build asks of the instruction format fits it: there are no more payees than slots, the
data are short, and nothing is refused. -/
structure FitsFormat (chain : Chain) (program : Address) (request : Request) (signer : Address) :
    Prop where
  payees : ∀ table payees, orderedPayees chain program request table = .ok payees →
    payees.length ≤ 19
  data : ∀ is, (run chain (Encoder.forProgram program) request signer).result = .ok is →
    ∀ i ∈ is, i.data.length ≤ 652
  accepted : ∀ reason,
    (run chain (Encoder.forProgram program) request signer).result ≠ .error (.encode reason)

theorem fitsFormat (chain : Chain) (program : Address) (request : Request) (signer : Address) :
    FitsFormat chain program request signer where
  payees := fun _ _ h => length_orderedPayees h
  data := by
    intro is h i hi
    rw [result_run] at h
    obtain ⟨p, payees, -, rfl, hcount, hle, -⟩ := built_of_outcome h
    obtain rfl := List.mem_singleton.mp hi
    have hlength : payees.length ≤ 19 := hcount ▸ hle
    show (Instruction.proposePayeesData _ payees).length ≤ 652
    rw [Instruction.length_proposePayeesData]
    omega
  accepted := by
    intro reason h
    rw [result_run] at h
    rcases outcome_eq_error h with ⟨text, d, he⟩ | ⟨d, failed, he⟩ | ⟨table, h⟩
    · cases he
    · cases he
    · rcases encodeOrdered_eq_error h with h | ⟨payees, d, hordered, hrefused, -⟩
      · simpa using orderedPayees_eq_error h
      · rw [encode_of_orderedPayees hordered] at hrefused
        cases hrefused

end Build

/-- The instruction format loses nothing: with a number of payees that can be counted it makes an
instruction whose data give the mint and the payees, it makes the same instruction of the same
query only, and no data begin other data; and a build never asks for more than the format
takes. -/
theorem Encoder.format_lossless :
    (∀ q : Query, q.payees.length < 0x100000000 →
      ∃ i, q.encode = .ok i ∧ Instruction.readPayees i.data = some (q.mint, q.payees) ∧
        i.data.length = 44 + 32 * q.payees.length) ∧
      (∀ (q r : Query) (i : Instruction), q.encode = .ok i → r.encode = .ok i → q = r) ∧
      (∀ (q r : Query) (i j : Instruction), q.encode = .ok i → r.encode = .ok j →
        i.data <+: j.data → i.data = j.data) ∧
      ∀ chain program request signer, Build.FitsFormat chain program request signer :=
  ⟨fun _ => Query.exists_encode, fun _ _ _ => Query.encode_inj,
    fun _ _ _ _ => Query.data_eq_of_prefix, Build.fitsFormat⟩

end PayeeProposal
