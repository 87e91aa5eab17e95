import PayeeProposal.Proofs.Proposal
import PayeeProposal.Proofs.Traversal

/-!
# The layout of proposal accounts

Every byte of a proposal account that is read lies within data of full size. A proposal that is
written is read back, whatever comes behind it, and data that have been read are written again
but for the bytes that no field uses. Both go field by field: a stretch of the data is cut where a
field ends, and what is known of the parts is put together.
-/

namespace PayeeProposal

namespace Bytes

/-- As many bytes as wanted from an offset on, if there are as many. -/
def slice? (offset width : Nat) (bs : List UInt8) : Option (List UInt8) :=
  if offset + width ≤ bs.length then some (slice offset width bs) else none

theorem slice_add (offset m n : Nat) (bs : List UInt8) :
    slice offset (m + n) bs = slice offset m bs ++ slice (offset + m) n bs := by
  unfold slice
  rw [List.take_add, List.drop_drop]

end Bytes

namespace Proposal

variable {data : List UInt8} {p : Proposal}

/-! ## Reading within the data -/

/-- The address at an offset, if it lies within the data. -/
def addressAt? (offset : Nat) (data : List UInt8) : Option Address :=
  (Bytes.slice? offset 32 data).bind Address.ofBytes?

/-- The signing key at an offset, if it lies within the data. -/
def signerAt? (offset : Nat) (data : List UInt8) : Option (Bytes.Fixed 20) :=
  (Bytes.slice? offset 20 data).bind Bytes.Fixed.ofBytes?

/-- The oracle in the slot at an offset, if its fields lie within the data. -/
def oracleAt? (offset : Nat) (data : List UInt8) : Option Oracle := do
  let transmitter ← addressAt? offset data
  let signer ← signerAt? (offset + 32) data
  let payee ← addressAt? (offset + 56) data
  pure ⟨transmitter, signer, payee⟩

/-- Where a slot begins. -/
def slotOffset (i : Nat) : Nat :=
  oraclesOffset + i * slotSize

/-- All fields, if they lie within the data. -/
def ofData? (data : List UInt8) : Option Proposal := do
  let oracles ← ((List.range maxOracles).map slotOffset).mapM fun offset => oracleAt? offset data
  let version ← data[versionOffset]?
  let owner ← addressAt? ownerOffset data
  let state ← data[stateOffset]?
  let f ← data[fOffset]?
  let tokenMint ← addressAt? tokenMintOffset data
  let len ← Bytes.slice? lenOffset 8 data
  pure ⟨version, owner, state, f, tokenMint, oracles, Bytes.ofLittleEndian len⟩

/-- What account data hold, or nothing if a byte is looked at that the data do not have. -/
def decodeWithin (data : List UInt8) : Option (Except ProposalError Proposal) :=
  if data.length < minSize then some (.error (.tooShort data.length))
  else do
    let head ← Bytes.slice? 0 8 data
    if head ≠ discriminator then some (.error .discriminator)
    else
      let len ← (Bytes.slice? lenOffset 8 data).map Bytes.ofLittleEndian
      if maxOracles < len then some (.error (.lenOutOfRange len))
      else (ofData? data).map .ok

theorem bytes_signerAt {offset : Nat} (h : offset + 20 ≤ data.length) :
    (Bytes.Fixed.ofLeading (data.drop offset) : Bytes.Fixed 20).bytes =
      Bytes.slice offset 20 data := by
  have hlong : 20 ≤ (data.drop offset).length := by
    rw [List.length_drop]
    omega
  unfold Bytes.Fixed.ofLeading Bytes.slice
  exact List.take_append_of_le_length hlong

theorem addressAt?_eq {offset : Nat} (h : offset + 32 ≤ data.length) :
    addressAt? offset data = some (addressAt offset data) := by
  rw [addressAt?, Bytes.slice?, if_pos h, ← bytes_addressAt h]
  exact Address.ofBytes?_bytes _

theorem signerAt?_eq {offset : Nat} (h : offset + 20 ≤ data.length) :
    signerAt? offset data = some (Bytes.Fixed.ofLeading (data.drop offset)) := by
  rw [signerAt?, Bytes.slice?, if_pos h, ← bytes_signerAt h]
  exact Bytes.Fixed.ofBytes?_bytes _

theorem oracleAt?_eq {offset : Nat} (h : offset + 88 ≤ data.length) :
    oracleAt? offset data = some (oracleAt offset data) := by
  rw [oracleAt?, addressAt?_eq (by omega), signerAt?_eq (by omega), addressAt?_eq (by omega)]
  rfl

theorem getElem?_eq_byteAt {offset : Nat} (h : offset < data.length) :
    data[offset]? = some (byteAt offset data) := by
  rw [byteAt, List.getD_eq_getElem?_getD, List.getElem?_eq_getElem h, Option.getD_some]

theorem ofData?_eq (h : 1760 ≤ data.length) : ofData? data = some (ofData data) := by
  have hslots : ∀ i ∈ List.range maxOracles,
      oracleAt? (slotOffset i) data = some (oracleAt (slotOffset i) data) := by
    intro i hi
    have hi : i < 19 := List.mem_range.mp hi
    apply oracleAt?_eq
    show 80 + i * 88 + 88 ≤ data.length
    omega
  have hversion : data[versionOffset]? = some _ := getElem?_eq_byteAt (show 8 < _ by omega)
  have howner : addressAt? ownerOffset data = some _ := addressAt?_eq (show 9 + 32 ≤ _ by omega)
  have hstate : data[stateOffset]? = some _ := getElem?_eq_byteAt (show 41 < _ by omega)
  have hf : data[fOffset]? = some _ := getElem?_eq_byteAt (show 42 < _ by omega)
  have hmint : addressAt? tokenMintOffset data = some _ :=
    addressAt?_eq (show 48 + 32 ≤ _ by omega)
  have hlen : Bytes.slice? lenOffset 8 data = some _ := if_pos (show 1752 + 8 ≤ _ by omega)
  rw [ofData?, Traversal.mapM_map_eq_some hslots, hversion, howner, hstate, hf, hmint, hlen]
  rfl

/-- No byte is looked at beyond the data. -/
theorem decodeWithin_eq (data : List UInt8) : decodeWithin data = some (decode data) := by
  rw [decodeWithin, decode_eq]
  split
  · rfl
  · rename_i hsize
    rw [minSize_eq] at hsize
    have hhead : Bytes.slice? 0 8 data = some (data.take 8) := if_pos (by omega)
    have hlen : Bytes.slice? lenOffset 8 data = some (Bytes.slice lenOffset 8 data) :=
      if_pos (by rw [lenOffset_eq]; omega)
    rw [hhead, hlen, ofData?_eq (by omega)]
    simp only [Option.bind_eq_bind, Option.bind_some, Option.map_some]
    show (if _ then _ else if maxOracles < lenOf data then _ else _) = _
    split
    · rfl
    · split
      · rfl
      · rfl

/-! ## Writing and reading back -/

/-- What comes behind a stretch of the data. -/
theorem drop_of_drop {offset : Nat} {bs rest : List UInt8} (h : data.drop offset = bs ++ rest)
    (width : Nat) (hbs : bs.length = width) : data.drop (offset + width) = rest := by
  rw [← List.drop_drop, h, List.drop_left' hbs]

theorem addressAt_of_drop {offset : Nat} {a : Address} {rest : List UInt8}
    (h : data.drop offset = a.bytes ++ rest) : addressAt offset data = a := by
  rw [addressAt, h]
  exact Address.ofLeading_append a rest

theorem byteAt_of_drop {offset : Nat} {b : UInt8} {rest : List UInt8}
    (h : data.drop offset = b :: rest) : byteAt offset data = b := by
  have hget : (data.drop offset)[0]? = some b := by
    rw [h]
    rfl
  rw [List.getElem?_drop, Nat.add_zero] at hget
  rw [byteAt, List.getD_eq_getElem?_getD, hget]
  rfl

theorem oracleAt_of_drop {offset : Nat} {o : Oracle} {rest : List UInt8}
    (h : data.drop offset = encodeOracle o ++ rest) : oracleAt offset data = o := by
  simp only [encodeOracle, List.append_assoc] at h
  have hsigner := drop_of_drop h 32 o.transmitter.length_eq
  have hunused := drop_of_drop hsigner 20 o.signer.length_eq
  have hpayee := drop_of_drop hunused 4 List.length_replicate
  rw [oracleAt, addressAt_of_drop h, hsigner, Bytes.Fixed.ofLeading_append,
    addressAt_of_drop hpayee]

theorem oracles_of_drop {offset : Nat} {os : List Oracle} {rest : List UInt8}
    (h : data.drop offset = os.flatMap encodeOracle ++ rest) :
    (List.range os.length).map (fun i => oracleAt (offset + i * slotSize) data) = os := by
  induction os generalizing offset with
  | nil => rfl
  | cons o os ih =>
    rw [List.flatMap_cons, List.append_assoc] at h
    have htail := ih (drop_of_drop h slotSize (length_encodeOracle o))
    have hoffset : ∀ i, offset + slotSize + i * slotSize = offset + (i + 1) * slotSize := by
      intro i
      rw [Nat.succ_mul, Nat.add_assoc, Nat.add_comm slotSize]
    simp only [hoffset] at htail
    rw [List.length_cons, List.range_succ_eq_map, List.map_cons, List.map_map, Nat.zero_mul,
      Nat.add_zero, oracleAt_of_drop h]
    exact congrArg (o :: ·) htail

theorem length_encodeOracles (os : List Oracle) :
    (os.flatMap encodeOracle).length = os.length * slotSize := by
  induction os with
  | nil => simp
  | cons o os ih =>
    rw [List.flatMap_cons, List.length_append, length_encodeOracle, ih, List.length_cons,
      Nat.succ_mul, Nat.add_comm]

theorem encodeSlots_eq {os : List Oracle} (h : os.length = maxOracles) :
    encodeSlots os = os.flatMap encodeOracle := by
  have hlength := length_encodeOracles os
  rw [h] at hlength
  rw [encodeSlots, List.take_of_length_le (Nat.le_of_eq h), hlength, Nat.sub_self]
  exact List.append_nil _

/-- The fields of a proposal that has been written, with anything behind it. -/
theorem ofData_of_encode (hslots : p.oracles.length = maxOracles) (hlen : p.len ≤ maxOracles)
    {tail : List UInt8} (hdata : data = encode p ++ tail) : ofData data = p := by
  have hstart : data.drop 0 = discriminator ++ ([p.version] ++ (p.owner.bytes ++ ([p.state] ++
      ([p.f] ++ (List.replicate 5 0 ++ (p.tokenMint.bytes ++ (p.oracles.flatMap encodeOracle ++
        (Bytes.littleEndian 8 p.len ++ tail)))))))) := by
    rw [hdata, encode, encodeSlots_eq hslots]
    simp
  have hversion : data.drop versionOffset = _ := drop_of_drop hstart 8 rfl
  have howner : data.drop ownerOffset = _ := drop_of_drop hversion 1 rfl
  have hstate : data.drop stateOffset = _ := drop_of_drop howner 32 p.owner.length_eq
  have hf : data.drop fOffset = _ := drop_of_drop hstate 1 rfl
  have hunused : data.drop 43 = _ := drop_of_drop hf 1 rfl
  have hmint : data.drop tokenMintOffset = _ := drop_of_drop hunused 5 List.length_replicate
  have horacles : data.drop oraclesOffset = _ := drop_of_drop hmint 32 p.tokenMint.length_eq
  have hslotBytes : (p.oracles.flatMap encodeOracle).length = maxOracles * slotSize := by
    rw [length_encodeOracles, hslots]
  have hlenField : data.drop lenOffset = _ := drop_of_drop horacles _ hslotBytes
  have hread := oracles_of_drop horacles
  rw [hslots] at hread
  have hcount : lenOf data = p.len := by
    have hfits : p.len < Nat.pow 256 8 := Nat.lt_of_le_of_lt hlen (by decide)
    rw [lenOf, Bytes.slice, hlenField, List.take_left' (Bytes.length_littleEndian 8 _)]
    exact Bytes.ofLittleEndian_littleEndian hfits
  rw [ofData, byteAt_of_drop hversion, addressAt_of_drop howner, byteAt_of_drop hstate,
    byteAt_of_drop hf, addressAt_of_drop hmint, hread, hcount]

theorem length_encode (hslots : p.oracles.length = maxOracles) : (encode p).length = minSize := by
  rw [encode, encodeSlots_eq hslots]
  simp only [List.length_append, length_encodeOracles, hslots, p.owner.length_eq,
    p.tokenMint.length_eq, List.length_replicate, Bytes.length_littleEndian]
  rfl

/-- A proposal that is written is read back, whatever comes behind it. -/
theorem decode_encode_append (hslots : p.oracles.length = maxOracles) (hlen : p.len ≤ maxOracles)
    (tail : List UInt8) : decode (encode p ++ tail) = .ok p := by
  have hfields : ofData (encode p ++ tail) = p := ofData_of_encode hslots hlen rfl
  have hcount : lenOf (encode p ++ tail) = p.len := congrArg Proposal.len hfields
  have hsize : ¬ (encode p ++ tail).length < minSize := by
    rw [List.length_append, length_encode hslots]
    omega
  have hhead : (encode p ++ tail).take 8 = discriminator := by
    simp only [encode, List.append_assoc]
    rfl
  rw [decode_eq, if_neg hsize, if_neg (not_not_intro hhead), hcount,
    if_neg (Nat.not_lt.mpr hlen), hfields]

/-! ## Reading and writing again -/

/-- The places of the bytes that no field uses: five in front of the mint, and four in each slot,
between the signing key and the payee. -/
def IsPadding (i : Nat) : Prop :=
  (43 ≤ i ∧ i < 48) ∨ ∃ slot < 19, 80 + slot * 88 + 52 ≤ i ∧ i < 80 + slot * 88 + 56

instance : DecidablePred IsPadding := fun _ => inferInstanceAs (Decidable (_ ∨ _))

/-- Bytes from an offset on, with zeros where no field uses them. -/
def clearFrom (offset : Nat) (bs : List UInt8) : List UInt8 :=
  bs.mapIdx fun i b => if IsPadding (offset + i) then 0 else b

/-- Account data up to the end of the last field, with zeros where no field uses them. -/
def cleared (data : List UInt8) : List UInt8 :=
  clearFrom 0 (data.take 1760)

theorem clearFrom_append (offset : Nat) (as bs : List UInt8) :
    clearFrom offset (as ++ bs) = clearFrom offset as ++ clearFrom (offset + as.length) bs := by
  simp only [clearFrom, List.mapIdx_append, Nat.add_assoc, Nat.add_comm as.length]

/-- A stretch on one side of the unused bytes in front of the mint, and on one side of those of
each slot. -/
theorem clearFrom_used {offset width : Nat} (hfront : offset + width ≤ 43 ∨ 48 ≤ offset)
    (hslots : ∀ slot < 19, offset + width ≤ 80 + slot * 88 + 52 ∨ 80 + slot * 88 + 56 ≤ offset) :
    clearFrom offset (Bytes.slice offset width data) = Bytes.slice offset width data := by
  have hwidth : (Bytes.slice offset width data).length ≤ width := List.length_take_le _ _
  apply List.ext_getElem
  · simp [clearFrom]
  · intro i _ hi
    have hused : ¬ IsPadding (offset + i) := by
      rintro (h | ⟨slot, hslot, h, h'⟩)
      · omega
      · have := hslots slot hslot
        omega
    simp [clearFrom, hused]

theorem clearFrom_unused {offset width : Nat} (hsize : offset + width ≤ data.length)
    (h : ∀ i, offset ≤ i → i < offset + width → IsPadding i) :
    clearFrom offset (Bytes.slice offset width data) = List.replicate width 0 := by
  have hwidth : (Bytes.slice offset width data).length = width := Bytes.length_slice hsize
  apply List.ext_getElem
  · simp [clearFrom, hwidth]
  · intro i hi _
    have hi : i < width := by simpa [clearFrom, hwidth] using hi
    have hunused : IsPadding (offset + i) := h _ (by omega) (by omega)
    simp [clearFrom, hunused]

/-- A stretch is cleared in two parts. -/
theorem clearFrom_slice_add {offset m : Nat} (n : Nat) (h : offset + m ≤ data.length) :
    clearFrom offset (Bytes.slice offset (m + n) data) =
      clearFrom offset (Bytes.slice offset m data) ++
        clearFrom (offset + m) (Bytes.slice (offset + m) n data) := by
  rw [Bytes.slice_add, clearFrom_append, Bytes.length_slice h]

theorem slice_one {offset : Nat} (h : offset < data.length) :
    Bytes.slice offset 1 data = [byteAt offset data] := by
  rw [Bytes.slice, byteAt, List.drop_eq_getElem_cons h, List.getD_eq_getElem?_getD,
    List.getElem?_eq_getElem h]
  rfl

theorem clearFrom_slot {i : Nat} (hi : i < 19) (hsize : 1760 ≤ data.length) :
    clearFrom (slotOffset i) (Bytes.slice (slotOffset i) slotSize data) =
      encodeOracle (oracleAt (slotOffset i) data) := by
  have hoffset : slotOffset i = 80 + i * 88 := rfl
  have hkeys : clearFrom (slotOffset i) (Bytes.slice (slotOffset i) 52 data) =
      Bytes.slice (slotOffset i) 52 data :=
    clearFrom_used (by omega) (fun slot _ => by omega)
  have hunused : clearFrom (slotOffset i + 52) (Bytes.slice (slotOffset i + 52) 4 data) =
      List.replicate 4 0 := by
    apply clearFrom_unused
    · omega
    · intro j hj hj'
      exact .inr ⟨i, hi, by omega, by omega⟩
  have hpayee : clearFrom (slotOffset i + 52 + 4) (Bytes.slice (slotOffset i + 52 + 4) 32 data) =
      Bytes.slice (slotOffset i + 52 + 4) 32 data :=
    clearFrom_used (by omega) (fun slot _ => by omega)
  rw [show slotSize = 52 + (4 + 32) from rfl, clearFrom_slice_add _ (by omega),
    clearFrom_slice_add _ (by omega), hkeys, hunused, hpayee, show 52 = 32 + 20 from rfl,
    Bytes.slice_add]
  simp only [encodeOracle, oracleAt]
  rw [bytes_addressAt (by omega), bytes_addressAt (by omega), bytes_signerAt (by omega)]
  simp only [List.append_assoc]

theorem clearFrom_slots {n : Nat} (hn : n ≤ 19) (hsize : 1760 ≤ data.length) :
    clearFrom oraclesOffset (Bytes.slice oraclesOffset (n * slotSize) data) =
      ((List.range n).map fun i => oracleAt (slotOffset i) data).flatMap encodeOracle := by
  induction n with
  | zero => rfl
  | succ n ih =>
    have hsplit : oraclesOffset + n * slotSize ≤ data.length := by
      show 80 + n * 88 ≤ data.length
      omega
    rw [Nat.succ_mul, clearFrom_slice_add _ hsplit, ih (by omega), List.range_succ,
      List.map_append, List.flatMap_append]
    rw [List.map_singleton, List.flatMap_singleton]
    exact congrArg _ (clearFrom_slot hn hsize)

/-- The fields in front of the unused bytes. -/
theorem clearFrom_front (hsize : 1760 ≤ data.length) (hhead : data.take 8 = discriminator) :
    clearFrom 0 (Bytes.slice 0 43 data) =
      discriminator ++ ([byteAt versionOffset data] ++ ((addressAt ownerOffset data).bytes ++
        ([byteAt stateOffset data] ++ [byteAt fOffset data]))) := by
  have hused : clearFrom 0 (Bytes.slice 0 43 data) = Bytes.slice 0 43 data :=
    clearFrom_used (by omega) (fun slot _ => by omega)
  have howner : (addressAt ownerOffset data).bytes = Bytes.slice ownerOffset 32 data :=
    bytes_addressAt (show 9 + 32 ≤ _ by omega)
  have hversion : Bytes.slice versionOffset 1 data = _ := slice_one (show 8 < _ by omega)
  have hstate : Bytes.slice stateOffset 1 data = _ := slice_one (show 41 < _ by omega)
  have hf : Bytes.slice fOffset 1 data = _ := slice_one (show 42 < _ by omega)
  rw [hused, howner, ← hversion, ← hstate, ← hf, ← hhead]
  show Bytes.slice 0 (8 + (1 + (32 + (1 + 1)))) data = _
  simp only [Bytes.slice_add]
  rfl

theorem clearFrom_mint (hsize : 1760 ≤ data.length) :
    clearFrom 48 (Bytes.slice 48 32 data) = (addressAt tokenMintOffset data).bytes := by
  have hmint : (addressAt tokenMintOffset data).bytes = Bytes.slice 48 32 data :=
    bytes_addressAt (show 48 + 32 ≤ _ by omega)
  rw [hmint, clearFrom_used (by omega) (fun slot _ => by omega)]

theorem clearFrom_len (hsize : 1760 ≤ data.length) :
    clearFrom 1752 (Bytes.slice 1752 8 data) = Bytes.littleEndian 8 (lenOf data) := by
  have hwidth : (Bytes.slice 1752 8 data).length = 8 := Bytes.length_slice (by omega)
  have hback := Bytes.littleEndian_ofLittleEndian (Bytes.slice 1752 8 data)
  rw [hwidth] at hback
  rw [lenOf, lenOffset_eq, hback, clearFrom_used (by omega) (fun slot _ => by omega)]

/-- What has been read is written again, but for the bytes that no field uses. -/
theorem encode_ofData (hsize : 1760 ≤ data.length) (hhead : data.take 8 = discriminator) :
    encode (ofData data) = cleared data := by
  have hunused : clearFrom 43 (Bytes.slice 43 5 data) = List.replicate 5 0 := by
    apply clearFrom_unused
    · omega
    · intro i hi hi'
      exact .inl ⟨hi, hi'⟩
  have hslots : clearFrom 80 (Bytes.slice 80 (19 * 88) data) =
      encodeSlots (ofData data).oracles := by
    rw [encodeSlots_eq (by simp [ofData])]
    exact clearFrom_slots (Nat.le_refl 19) hsize
  symm
  calc
    cleared data = clearFrom 0 (Bytes.slice 0 (43 + (5 + (32 + (19 * 88 + 8)))) data) := rfl
    _ = clearFrom 0 (Bytes.slice 0 43 data) ++ (clearFrom 43 (Bytes.slice 43 5 data) ++
          (clearFrom 48 (Bytes.slice 48 32 data) ++ (clearFrom 80 (Bytes.slice 80 (19 * 88) data) ++
            clearFrom 1752 (Bytes.slice 1752 8 data)))) := by
      rw [clearFrom_slice_add _ (by omega), clearFrom_slice_add _ (by omega),
        clearFrom_slice_add _ (by omega), clearFrom_slice_add _ (by omega)]
    _ = encode (ofData data) := by
      rw [clearFrom_front hsize hhead, hunused, clearFrom_mint hsize, hslots, clearFrom_len hsize,
        encode]
      simp only [List.append_assoc]
      rfl

/-! ## The whole layout -/

theorem decode_discriminator_iff :
    decode data = .error .discriminator ↔ 1760 ≤ data.length ∧ data.take 8 ≠ discriminator := by
  rcases decode_cases data with ⟨hsize, h⟩ | ⟨hsize, ⟨hhead, h⟩ | ⟨hhead, ⟨hmany, h⟩ | ⟨hfew, h⟩⟩⟩
  · simp [h]
    omega
  · simp [h, hsize, hhead]
  · simp [h, hhead]
  · simp [h, hhead]

theorem decode_lenOutOfRange_iff {n : Nat} :
    decode data = .error (.lenOutOfRange n) ↔
      1760 ≤ data.length ∧ data.take 8 = discriminator ∧ n = lenOf data ∧ 19 < n := by
  rcases decode_cases data with ⟨hsize, h⟩ | ⟨hsize, ⟨hhead, h⟩ | ⟨hhead, ⟨hmany, h⟩ | ⟨hfew, h⟩⟩⟩
  · simp [h]
    omega
  · simp [h, hhead]
  · simp [h, hsize, hhead]
    omega
  · simp [h, hsize, hhead]
    omega

/-- What reading account data comes to: no byte beyond the data is looked at, each failure has its
condition, and a proposal has all its slots. -/
structure Decodes (data : List UInt8) : Prop where
  within : decodeWithin data = some (decode data)
  tooShort : ∀ n, decode data = .error (.tooShort n) ↔ data.length < 1760 ∧ n = data.length
  discriminator : decode data = .error .discriminator ↔
    1760 ≤ data.length ∧ data.take 8 ≠ Proposal.discriminator
  lenOutOfRange : ∀ n, decode data = .error (.lenOutOfRange n) ↔
    1760 ≤ data.length ∧ data.take 8 = Proposal.discriminator ∧
      n = Bytes.ofLittleEndian (Bytes.slice 1752 8 data) ∧ 19 < n
  succeeds : (∃ p, decode data = .ok p) ↔
    1760 ≤ data.length ∧ data.take 8 = Proposal.discriminator ∧
      Bytes.ofLittleEndian (Bytes.slice 1752 8 data) ≤ 19
  slots : ∀ p, decode data = .ok p → p.oracles.length = 19

theorem decodes (data : List UInt8) : Decodes data where
  within := decodeWithin_eq data
  tooShort := fun _ => decode_tooShort_iff
  discriminator := decode_discriminator_iff
  lenOutOfRange := fun _ => decode_lenOutOfRange_iff
  succeeds := by
    constructor
    · rintro ⟨p, hp⟩
      obtain ⟨hsize, hhead, hlen, -⟩ := decode_eq_ok_iff.mp hp
      exact ⟨hsize, hhead, hlen⟩
    · rintro ⟨hsize, hhead, hlen⟩
      exact ⟨ofData data, decode_eq_ok_iff.mpr ⟨hsize, hhead, hlen, rfl⟩⟩
  slots := fun _ => length_oracles_of_decode

theorem encode_of_decode (h : decode data = .ok p) : encode p = cleared data := by
  obtain ⟨hsize, hhead, -, rfl⟩ := decode_eq_ok_iff.mp h
  exact encode_ofData hsize hhead

theorem decode_encode_of_decode (h : decode data = .ok p) : decode (encode p) = .ok p := by
  rw [← List.append_nil (encode p)]
  exact decode_encode_append (length_oracles_of_decode h) (len_le_of_decode h) []

/-- Two proposals that have been read are the same exactly when the data agree but for the bytes
that no field uses. -/
theorem eq_iff_cleared_eq {a b : List UInt8} {q : Proposal} (ha : decode a = .ok p)
    (hb : decode b = .ok q) : p = q ↔ cleared a = cleared b := by
  rw [← encode_of_decode ha, ← encode_of_decode hb]
  constructor
  · intro h
    rw [h]
  · intro h
    have hp := decode_encode_of_decode ha
    rw [h, decode_encode_of_decode hb] at hp
    exact (Except.ok.inj hp).symm

/-- Reading and writing agree on the whole layout: a proposal with all its slots that is written is
read back, whatever comes behind it, and data that have been read are written again but for the
bytes that no field uses, which are all that reading loses. -/
theorem layout_consistent :
    (∀ data, Decodes data) ∧
      (∀ (p : Proposal) (tail : List UInt8), p.oracles.length = 19 → p.len ≤ 19 →
        decode (encode p ++ tail) = .ok p) ∧
      (∀ data p, decode data = .ok p → encode p = cleared data) ∧
      ∀ a b p q, decode a = .ok p → decode b = .ok q → (p = q ↔ cleared a = cleared b) :=
  ⟨decodes, fun _ tail hslots hlen => decode_encode_append hslots hlen tail,
    fun _ _ => encode_of_decode, fun _ _ _ _ => eq_iff_cleared_eq⟩

end Proposal

end PayeeProposal
