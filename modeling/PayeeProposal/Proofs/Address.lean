import PayeeProposal.Proofs.Base58
import PayeeProposal.Proofs.Blank
import PayeeProposal.Proofs.PayeeTable

/-!
# The spelling of addresses

An address has one spelling. A text is read as an address when the address's own text stands in it
between blanks, and every other text is refused under the name that it was given. So an address is
read back from its text, whatever zeros it starts with, and two texts denote one address only when
they differ in the blanks around them.
-/

namespace PayeeProposal

namespace Base58

theorem isBlank_charOf : ∀ d : Fin 58, Text.isBlank (charOf d) = false := by decide

theorem eq_zero_of_charOf : ∀ d : Fin 58, charOf d = '1' → d = 0 := by decide

/-- The characters of a text are those of digits. -/
theorem exists_toList_encode (bs : List UInt8) :
    ∃ ds : List Nat, (encode bs).toList = ds.map charOf ∧ ∀ d ∈ ds, d < 58 := by
  have hread := decode_encode bs
  cases hds : digitsOf 0 (encode bs).toList with
  | error e => simp [decode, hds, Except.map] at hread
  | ok ds => exact ⟨ds, eq_map_charOf_of_digitsOf hds⟩

theorem bare_encode (bs : List UInt8) : Text.Bare (encode bs) := by
  obtain ⟨ds, hds, hall⟩ := exists_toList_encode bs
  apply Text.bare_of_forall
  intro c hc
  rw [hds] at hc
  obtain ⟨d, hd, rfl⟩ := List.mem_map.mp hc
  exact isBlank_charOf ⟨d, hall d hd⟩

/-- Each zero in front of the bytes is a one in front of their text, and there are no other ones. -/
theorem leading_ones (bs : List UInt8) :
    ((encode bs).toList.takeWhile (· == '1')).length = (bs.takeWhile (· == 0)).length := by
  obtain ⟨zeros, rest, rfl, hrest⟩ := exists_zeros_append 0 bs
  have hzeros : ((List.replicate zeros (0 : UInt8) ++ rest).takeWhile (· == 0)).length = zeros := by
    cases rest with
    | nil => simp
    | cons b rest =>
      have hb : b ≠ 0 := by simpa using hrest
      simp [hb]
  have hdigits := head?_digits_reverse 58 (Bytes.ofBigEndian rest)
  have hlt : ∀ d ∈ (Nat.digits 58 (Bytes.ofBigEndian rest)).reverse, d < 58 := fun d hd =>
    Nat.digits_lt_base (by decide) (List.mem_reverse.mp hd)
  rw [hzeros, encode_zeros_append zeros hrest, String.toList_ofList]
  generalize (Nat.digits 58 (Bytes.ofBigEndian rest)).reverse = ds at hdigits hlt
  have hone : charOf 0 = '1' := rfl
  cases ds with
  | nil => simp [hone]
  | cons d ds =>
    have hd : charOf d ≠ '1' := by
      intro h
      have hzero := eq_zero_of_charOf ⟨d, hlt d (by simp)⟩ h
      exact hdigits (congrArg some (Fin.mk.inj hzero))
    simp [hone, hd]

end Base58

namespace Address

theorem parse_eq_ok_iff {s : String} {a : Address} : parse s = .ok a ↔ s = a.text := by
  constructor
  · intro h
    unfold parse at h
    split at h
    · cases h
    · cases hdecode : Base58.decode s with
      | error e => simp [hdecode] at h
      | ok bs =>
        cases hbytes : ofBytes? bs with
        | none => simp [hdecode, hbytes] at h
        | some b =>
          obtain rfl : b = a := by simpa [hdecode, hbytes] using h
          rw [Base58.decode_eq_ok_iff.mp hdecode, text, bytes_of_ofBytes? hbytes]
  · rintro rfl
    exact parse_text a

theorem parseTrimmed_eq_ok_iff {s : String} {a : Address} :
    parseTrimmed s = .ok a ↔ Text.trim s = a.text :=
  parse_eq_ok_iff

theorem trim_eq_text_iff {s : String} {a : Address} :
    Text.trim s = a.text ↔ Text.Pads s a.text := by
  rw [Text.trim_eq_iff]
  exact and_iff_left (Base58.bare_encode a.bytes)

theorem trim_text (a : Address) : Text.trim a.text = a.text :=
  Text.trim_of_pads ⟨[], [], by simp⟩ (Base58.bare_encode a.bytes)

/-- A text is read as an address exactly when, without the blanks around it, it is the text of the
address. That text is never too long, and shows each zero that the address starts with. A text that
is not read is named as it was given. -/
theorem one_spelling :
    (∀ s a, require s = .ok a ↔ Text.trim s = a.text) ∧
      (∀ s (a : Address), Text.trim s = a.text ↔ Text.Pads s a.text) ∧
      (∀ a : Address, require a.text = .ok a ∧ a.text.utf8ByteSize ≤ maxTextSize ∧
        (a.text.toList.takeWhile (· == '1')).length = (a.bytes.takeWhile (· == 0)).length) ∧
      (∀ s t a, require s = .ok a → (require t = .ok a ↔ Text.trim t = Text.trim s)) ∧
      ∀ s, (∀ a : Address, Text.trim s ≠ a.text) →
        ∃ reason, require s = .error (.invalidAddress s reason) := by
  have hread : ∀ s a, require s = .ok a ↔ Text.trim s = a.text := by
    intro s a
    rw [require_eq_ok_iff, parseTrimmed_eq_ok_iff]
  refine ⟨hread, fun s a => trim_eq_text_iff, fun a => ⟨?_, ?_, ?_⟩, ?_, ?_⟩
  · exact (hread _ a).mpr (trim_text a)
  · exact Base58.utf8ByteSize_encode_le a.length_eq
  · exact Base58.leading_ones a.bytes
  · intro s t a hs
    rw [hread, (hread s a).mp hs]
  · intro s hnone
    cases h : parseTrimmed s with
    | ok a => exact absurd (parseTrimmed_eq_ok_iff.mp h) (hnone a)
    | error reason => exact ⟨reason, require_eq_error_iff.mpr ⟨reason, h, rfl⟩⟩

end Address

end PayeeProposal
