import PayeeProposal.Proposal

/-!
# What a proposal account decides

Of the bytes of a proposal account, building looks at the discriminator, at the number of active
slots, and at the transmitters of the active slots. Data that agree there name the same
transmitters, or are refused for the same reason.
-/

namespace PayeeProposal.Proposal

theorem bytes_addressAt {offset : Nat} {data : List UInt8} (h : offset + 32 ≤ data.length) :
    (addressAt offset data).bytes = Bytes.slice offset 32 data := by
  have hlong : 32 ≤ (data.drop offset).length := by
    rw [List.length_drop]
    omega
  unfold addressAt Address.ofLeading Bytes.slice
  exact List.take_append_of_le_length hlong

/-! ## Data that decode -/

/-- The fields in account data. -/
def ofData (data : List UInt8) : Proposal where
  version := byteAt versionOffset data
  owner := addressAt ownerOffset data
  state := byteAt stateOffset data
  f := byteAt fOffset data
  tokenMint := addressAt tokenMintOffset data
  oracles := (List.range maxOracles).map fun i => oracleAt (oraclesOffset + i * slotSize) data
  len := lenOf data

theorem decode_eq (data : List UInt8) :
    decode data =
      if data.length < minSize then .error (.tooShort data.length)
      else if data.take 8 ≠ discriminator then .error .discriminator
      else if maxOracles < lenOf data then .error (.lenOutOfRange (lenOf data))
      else .ok (ofData data) := rfl

/-- Data are too short, or start with another discriminator, or have more active slots than there
are slots, or hold a proposal. -/
theorem decode_cases (data : List UInt8) :
    (data.length < 1760 ∧ decode data = .error (.tooShort data.length)) ∨
      1760 ≤ data.length ∧
        ((data.take 8 ≠ discriminator ∧ decode data = .error .discriminator) ∨
          data.take 8 = discriminator ∧
            ((19 < lenOf data ∧ decode data = .error (.lenOutOfRange (lenOf data))) ∨
              (lenOf data ≤ 19 ∧ decode data = .ok (ofData data)))) := by
  rw [decode_eq]
  by_cases hsize : data.length < 1760
  · exact .inl ⟨hsize, if_pos hsize⟩
  rw [if_neg (show ¬ data.length < minSize from hsize)]
  refine .inr ⟨by omega, ?_⟩
  by_cases hhead : data.take 8 = discriminator
  · rw [if_neg (not_not_intro hhead)]
    refine .inr ⟨hhead, ?_⟩
    by_cases hlen : 19 < lenOf data
    · exact .inl ⟨hlen, if_pos hlen⟩
    · exact .inr ⟨by omega, if_neg hlen⟩
  · exact .inl ⟨hhead, if_pos hhead⟩

theorem decode_eq_ok_iff {data : List UInt8} {p : Proposal} :
    decode data = .ok p ↔ 1760 ≤ data.length ∧ data.take 8 = discriminator ∧
      lenOf data ≤ 19 ∧ p = ofData data := by
  rcases decode_cases data with ⟨hsize, h⟩ | ⟨hsize, ⟨hhead, h⟩ | ⟨hhead, ⟨hmany, h⟩ | ⟨hfew, h⟩⟩⟩
  · simp [h]
    omega
  · simp [h, hhead]
  · simp [h]
    omega
  · simp [h, hsize, hhead, hfew, eq_comm]

theorem len_le_of_decode {data : List UInt8} {p : Proposal} (h : decode data = .ok p) :
    p.len ≤ maxOracles := by
  obtain ⟨-, -, hlen, rfl⟩ := decode_eq_ok_iff.mp h
  exact hlen

theorem length_oracles_of_decode {data : List UInt8} {p : Proposal} (h : decode data = .ok p) :
    p.oracles.length = maxOracles := by
  obtain ⟨-, -, -, rfl⟩ := decode_eq_ok_iff.mp h
  rw [ofData, List.length_map, List.length_range]

theorem length_transmitters_of_decode {data : List UInt8} {p : Proposal}
    (h : decode data = .ok p) : p.transmitters.length = p.len := by
  have hle := len_le_of_decode h
  rw [transmitters, activeOracles, List.length_map, List.length_take,
    length_oracles_of_decode h]
  omega

theorem transmitters_of_decode {data : List UInt8} {p : Proposal} (h : decode data = .ok p) :
    p.transmitters =
      (List.range (lenOf data)).map fun i => addressAt (oraclesOffset + i * slotSize) data := by
  obtain ⟨-, -, hlen, rfl⟩ := decode_eq_ok_iff.mp h
  have hle : lenOf data ≤ maxOracles := hlen
  rw [transmitters, activeOracles, ofData, ← List.map_take, List.map_map, List.take_range,
    Nat.min_eq_left hle]
  rfl

/-- What data of full size say of transmitters, or for which reason they say nothing. -/
theorem map_transmitters_decode {data : List UInt8} (h : minSize ≤ data.length) :
    (decode data).map transmitters =
      if data.take 8 ≠ discriminator then .error .discriminator
      else if maxOracles < lenOf data then .error (.lenOutOfRange (lenOf data))
      else
        .ok ((List.range (lenOf data)).map fun i =>
          addressAt (oraclesOffset + i * slotSize) data) := by
  rcases decode_cases data with
    ⟨hsize, -⟩ | ⟨-, ⟨hhead, hd⟩ | ⟨hhead, ⟨hmany, hd⟩ | ⟨hfew, hd⟩⟩⟩
  · rw [minSize_eq] at h
    omega
  · rw [hd, if_pos hhead]
    rfl
  · rw [hd, if_neg (not_not_intro hhead),
      if_pos (show maxOracles < lenOf data from hmany)]
    rfl
  · rw [if_neg (not_not_intro hhead), if_neg (show ¬ maxOracles < lenOf data from
      Nat.not_lt.mpr hfew), ← transmitters_of_decode hd, hd]
    rfl

/-! ## Data that agree on the active part -/

/-- Data of full size with the same discriminator, the same number of active slots, and the same
transmitter in each active slot. -/
structure AgreeOnActive (a b : List UInt8) : Prop where
  left_size : 1760 ≤ a.length
  right_size : 1760 ≤ b.length
  discriminator : a.take 8 = b.take 8
  len : Bytes.slice 1752 8 a = Bytes.slice 1752 8 b
  transmitter : ∀ i < min (Bytes.ofLittleEndian (Bytes.slice 1752 8 a)) 19,
    Bytes.slice (80 + i * 88) 32 a = Bytes.slice (80 + i * 88) 32 b

namespace AgreeOnActive

variable {a b : List UInt8}

theorem lenOf_eq (h : AgreeOnActive a b) : lenOf a = lenOf b := by
  unfold lenOf
  rw [lenOffset_eq, h.len]

theorem addressAt_eq (h : AgreeOnActive a b) {i : Nat} (hi : i < min (lenOf a) maxOracles) :
    addressAt (oraclesOffset + i * slotSize) a = addressAt (oraclesOffset + i * slotSize) b := by
  have hlt : i < 19 := Nat.lt_of_lt_of_le hi (Nat.min_le_right _ _)
  have ha := h.left_size
  have hb := h.right_size
  apply Address.ext_bytes
  rw [bytes_addressAt, bytes_addressAt]
  · exact h.transmitter i hi
  · unfold oraclesOffset slotSize
    omega
  · unfold oraclesOffset slotSize
    omega

/-- The transmitters, or the reason for which there are none, are the same. -/
theorem transmitters_eq (h : AgreeOnActive a b) :
    (decode a).map transmitters = (decode b).map transmitters := by
  rw [map_transmitters_decode h.left_size, map_transmitters_decode h.right_size,
    ← h.discriminator, ← h.lenOf_eq]
  split
  · rfl
  · split
    · rfl
    · rename_i hlen
      have hmap : ((List.range (lenOf a)).map fun i => addressAt (oraclesOffset + i * slotSize) a) =
          (List.range (lenOf a)).map fun i => addressAt (oraclesOffset + i * slotSize) b := by
        refine List.map_congr_left fun i hi => h.addressAt_eq ?_
        rw [List.mem_range] at hi
        omega
      rw [hmap]

end AgreeOnActive

end PayeeProposal.Proposal
