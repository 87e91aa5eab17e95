import PayeeProposal.Transaction

/-!
# Transactions taken apart

What is written of a transaction is read back, whatever comes behind it, as long as every place
and every number of the header fits into a byte and every count into the number before its list.
-/

namespace PayeeProposal

/-- A compiled instruction that can be written. -/
structure CompiledInstruction.Fits (c : CompiledInstruction) : Prop where
  program : c.program < 256
  accounts : ∀ i ∈ c.accounts, i < 256
  count : c.accounts.length < 0x10000
  size : c.data.length < 0x10000

/-- A message that can be written. -/
structure Message.Fits (m : Message) : Prop where
  signers : m.header.signers < 256
  readonlySigners : m.header.readonlySigners < 256
  readonlyOthers : m.header.readonlyOthers < 256
  keys : m.keys.length < 0x10000
  count : m.instructions.length < 0x10000
  instructions : ∀ c ∈ m.instructions, c.Fits

namespace Message

/-! ## Numbers and bytes -/

theorem ofNat_lt_top_iff {n : Nat} (h : n < 256) : UInt8.ofNat n < 0x80 ↔ n < 0x80 :=
  UInt8.ofNat_lt_iff h

theorem readCompact_compact {n : Nat} (h : n < 0x10000) (bs : List UInt8) :
    readCompact (compact n ++ bs) = some (n, bs) := by
  unfold compact
  split
  · rename_i hn
    have hlt : n < 256 := by omega
    simp only [List.cons_append, List.nil_append, readCompact, ofNat_lt_top_iff hlt, if_pos hn,
      UInt8.toNat_ofNat_of_lt' hlt]
  · -- the top bit of the first byte is set, so the reader goes on to the second
    have hlow : n % 0x80 + 0x80 < 256 := by omega
    have hlowTop : ¬ n % 0x80 + 0x80 < 0x80 := by omega
    split
    · have hhigh : n / 0x80 < 256 := by omega
      have hhighTop : n / 0x80 < 0x80 := by omega
      have hsum : n % 0x80 + 0x80 - 0x80 + 0x80 * (n / 0x80) = n := by omega
      simp only [List.cons_append, List.nil_append, readCompact, ofNat_lt_top_iff hlow,
        if_neg hlowTop, ofNat_lt_top_iff hhigh, if_pos hhighTop, UInt8.toNat_ofNat_of_lt' hlow,
        UInt8.toNat_ofNat_of_lt' hhigh, hsum]
    · have hmid : n / 0x80 % 0x80 + 0x80 < 256 := by omega
      have hmidTop : ¬ n / 0x80 % 0x80 + 0x80 < 0x80 := by omega
      have hhigh : n / 0x4000 < 256 := by omega
      have hsum : n % 0x80 + 0x80 - 0x80 + 0x80 * (n / 0x80 % 0x80 + 0x80 - 0x80) +
          0x4000 * (n / 0x4000) = n := by omega
      simp only [List.cons_append, List.nil_append, readCompact, ofNat_lt_top_iff hlow,
        if_neg hlowTop, ofNat_lt_top_iff hmid, if_neg hmidTop, UInt8.toNat_ofNat_of_lt' hlow,
        UInt8.toNat_ofNat_of_lt' hmid, UInt8.toNat_ofNat_of_lt' hhigh, hsum]

theorem readBytes_append {n : Nat} {xs : List UInt8} (h : xs.length = n) (bs : List UInt8) :
    readBytes n (xs ++ bs) = some (xs, bs) := by
  subst h
  simp [readBytes]

theorem map_toNat_map_ofNat {ns : List Nat} (h : ∀ n ∈ ns, n < 256) :
    (ns.map UInt8.ofNat).map UInt8.toNat = ns := by
  have hid : ∀ n ∈ ns, (UInt8.toNat ∘ UInt8.ofNat) n = n :=
    fun n hn => UInt8.toNat_ofNat_of_lt' (h n hn)
  rw [List.map_map, List.map_congr_left hid]
  exact List.map_id' ns

/-! ## Instructions -/

theorem readInstruction_encodeInstruction {c : CompiledInstruction} (h : c.Fits)
    (bs : List UInt8) :
    readInstruction (encodeInstruction c ++ bs) = some (c, bs) := by
  simp only [encodeInstruction, List.cons_append, List.append_assoc, readInstruction]
  rw [readCompact_compact h.count]
  simp only [Option.bind_eq_bind, Option.bind_some]
  rw [readBytes_append (List.length_map _)]
  simp only [Option.bind_some]
  rw [readCompact_compact h.size]
  simp only [Option.bind_some]
  rw [readBytes_append rfl]
  simp only [Option.bind_some, UInt8.toNat_ofNat_of_lt' h.program,
    map_toNat_map_ofNat h.accounts]
  rfl

theorem readInstructions_flatMap {cs : List CompiledInstruction} (h : ∀ c ∈ cs, c.Fits)
    (bs : List UInt8) :
    readInstructions cs.length (cs.flatMap encodeInstruction ++ bs) = some (cs, bs) := by
  induction cs with
  | nil => rfl
  | cons c cs ih =>
    have hc : c.Fits := h c List.mem_cons_self
    have hcs : ∀ d ∈ cs, d.Fits := fun d hd => h d (List.mem_cons_of_mem c hd)
    simp only [List.flatMap_cons, List.append_assoc, List.length_cons, readInstructions,
      readInstruction_encodeInstruction hc, ih hcs, Option.bind_eq_bind, Option.bind_some]
    rfl

/-! ## Messages -/

/-- A message is read back from what is written of it. -/
theorem read_encode {m : Message} (h : m.Fits) (bs : List UInt8) :
    read (m.encode ++ bs) = some (m, bs) := by
  simp only [encode, List.cons_append, List.nil_append, List.append_assoc, read]
  rw [readCompact_compact h.keys]
  simp only [Option.bind_eq_bind, Option.bind_some]
  rw [Instruction.readAddresses_append]
  simp only [Option.bind_some]
  rw [readBytes_append m.blockhash.length_eq]
  simp only [Option.bind_some, Bytes.Fixed.ofBytes?_bytes]
  rw [readCompact_compact h.count]
  simp only [Option.bind_some]
  rw [readInstructions_flatMap h.instructions]
  simp only [Option.bind_some, UInt8.toNat_ofNat_of_lt' h.signers,
    UInt8.toNat_ofNat_of_lt' h.readonlySigners, UInt8.toNat_ofNat_of_lt' h.readonlyOthers]
  rfl

end Message

namespace Transaction

theorem readSignatures_flatMap (ss : List (Bytes.Fixed 64)) (bs : List UInt8) :
    readSignatures ss.length (ss.flatMap Bytes.Fixed.bytes ++ bs) = some (ss, bs) := by
  induction ss with
  | nil => rfl
  | cons s ss ih =>
    simp only [List.flatMap_cons, List.append_assoc, List.length_cons, readSignatures,
      Message.readBytes_append s.length_eq, Bytes.Fixed.ofBytes?_bytes, ih, Option.bind_eq_bind,
      Option.bind_some]
    rfl

/-- A transaction is what its bytes are read as. -/
theorem read?_encode {t : Transaction} (hsignatures : t.signatures.length < 0x10000)
    (hmessage : t.message.Fits) : read? t.encode = some t := by
  simp only [encode, List.append_assoc, read?]
  rw [Message.readCompact_compact hsignatures]
  simp only [Option.bind_eq_bind, Option.bind_some]
  rw [readSignatures_flatMap]
  simp only [Option.bind_some]
  rw [← List.append_nil t.message.encode, Message.read_encode hmessage]
  simp only [Option.bind_some, if_true]
  rfl

end Transaction

end PayeeProposal
