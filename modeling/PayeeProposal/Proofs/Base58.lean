import Mathlib.Data.Nat.Digits.Lemmas
import Mathlib.Data.String.Basic
import PayeeProposal.Address

/-!
# Base 58 text read back

Bytes fall into some zeros and the digits of a number in base 256. Their text falls into as many
ones and the digits of the same number in base 58, and either list of digits is determined by the
number, so the bytes are read back from the text, and from no other text. An address is short
enough for its text to be looked at.
-/

namespace PayeeProposal

namespace Digits

/-! ## Digits and the numbers that they denote -/

theorem value_eq_ofDigits (b : Nat) (ds : List Nat) : value b ds = Nat.ofDigits b ds := by
  induction ds with
  | nil => rfl
  | cons d ds ih => rw [value_cons, Nat.ofDigits_cons, ih]

theorem digits_eq {b places n : Nat} (hb : 1 < b) (h : n < b ^ places) :
    digits b places n = Nat.digits b n := by
  induction places generalizing n with
  | zero =>
    have hn : n = 0 := by simpa using h
    rw [hn, digits_zero, Nat.digits_zero]
  | succ places ih =>
    unfold digits
    by_cases hn : n = 0
    · rw [if_pos hn, hn, Nat.digits_zero]
    · have hlt : n / b < b ^ places := by
        apply Nat.div_lt_of_lt_mul
        rwa [Nat.mul_comm, ← Nat.pow_succ]
      rw [if_neg hn, ih hlt, ← Nat.digits_def' hb (Nat.pos_of_ne_zero hn)]

end Digits

namespace Bytes

theorem ofLittleEndian_eq_ofDigits (bs : List UInt8) :
    ofLittleEndian bs = Nat.ofDigits 256 (bs.map UInt8.toNat) := by
  induction bs with
  | nil => rfl
  | cons b bs ih => rw [ofLittleEndian, List.map_cons, Nat.ofDigits_cons, ih]

theorem ofBigEndian_zeros_append (zeros : Nat) (bs : List UInt8) :
    ofBigEndian (List.replicate zeros 0 ++ bs) = ofBigEndian bs := by
  simp [ofBigEndian, ofLittleEndian_eq_ofDigits]

theorem ofBigEndian_lt (bs : List UInt8) : ofBigEndian bs < 256 ^ bs.length := by
  have h := ofLittleEndian_lt bs.reverse
  rwa [List.length_reverse] at h

/-- Bytes of which the first is not zero are the digits of the number that they denote. -/
theorem digits_ofBigEndian {bs : List UInt8} (h : bs.head? ≠ some 0) :
    Nat.digits 256 (ofBigEndian bs) = bs.reverse.map UInt8.toNat := by
  rw [ofBigEndian, ofLittleEndian_eq_ofDigits]
  refine Nat.digits_ofDigits 256 (by decide) _ ?_ ?_
  · intro d hd
    obtain ⟨b, -, rfl⟩ := List.mem_map.mp hd
    exact b.toNat_lt
  · intro hne hlast
    cases bs with
    | nil => simp at hne
    | cons b bs =>
      have hb : b.toNat = 0 := by simpa using hlast
      exact h (congrArg some (UInt8.toNat_inj.mp hb))

end Bytes

namespace Base58

/-! ## Zeros and digits -/

/-- A list falls into zeros and what starts with another item. -/
theorem exists_zeros_append {α : Type} [DecidableEq α] (zero : α) (xs : List α) :
    ∃ zeros rest, xs = List.replicate zeros zero ++ rest ∧ rest.head? ≠ some zero := by
  induction xs with
  | nil => exact ⟨0, [], rfl, by simp⟩
  | cons x xs ih =>
    by_cases hx : x = zero
    · obtain ⟨zeros, rest, rfl, hrest⟩ := ih
      exact ⟨zeros + 1, rest, by rw [hx, List.replicate_succ, List.cons_append], hrest⟩
    · exact ⟨0, x :: xs, rfl, by simpa using hx⟩

/-- What is written for some zero bytes and bytes of which the first is not zero. -/
theorem encode_zeros_append (zeros : Nat) {bs : List UInt8} (h : bs.head? ≠ some 0) :
    encode (List.replicate zeros 0 ++ bs) =
      String.ofList ((List.replicate zeros 0 ++
        (Nat.digits 58 (Bytes.ofBigEndian bs)).reverse).map charOf) := by
  have hzeros : ((List.replicate zeros (0 : UInt8) ++ bs).takeWhile (· == 0)).length = zeros := by
    cases bs with
    | nil => simp
    | cons b bs =>
      have hb : b ≠ 0 := by simpa using h
      simp [hb]
  have hlt : Bytes.ofBigEndian bs < 58 ^ (2 * (List.replicate zeros (0 : UInt8) ++ bs).length) := by
    calc
      Bytes.ofBigEndian bs < 256 ^ bs.length := Bytes.ofBigEndian_lt bs
      _ ≤ (58 ^ 2) ^ bs.length := Nat.pow_le_pow_left (by decide) _
      _ = 58 ^ (2 * bs.length) := (Nat.pow_mul 58 2 _).symm
      _ ≤ _ := Nat.pow_le_pow_right (by decide) (by simp)
  have hone : charOf 0 = '1' := rfl
  unfold encode
  simp only [hzeros, Bytes.ofBigEndian_zeros_append, Digits.digits_eq (by decide) hlt]
  simp [hone]

/-- What some zeros and digits of which the first is not zero stand for. -/
theorem bytesOf_zeros_append (zeros : Nat) {ds : List Nat} (h : ds.head? ≠ some 0)
    (hds : ∀ d ∈ ds, d < 58) :
    bytesOf (List.replicate zeros 0 ++ ds) =
      List.replicate zeros 0 ++
        (Nat.digits 256 (Nat.ofDigits 58 ds.reverse)).reverse.map UInt8.ofNat := by
  have hzeros : ((List.replicate zeros 0 ++ ds).takeWhile (· == 0)).length = zeros := by
    cases ds with
    | nil => simp
    | cons d ds =>
      have hd : d ≠ 0 := by simpa using h
      simp [hd]
  have hlt : Nat.ofDigits 58 ds.reverse < 256 ^ (List.replicate zeros 0 ++ ds).length := by
    calc
      Nat.ofDigits 58 ds.reverse < 58 ^ ds.reverse.length :=
        Nat.ofDigits_lt_base_pow_length (by decide) (by simpa using hds)
      _ ≤ 256 ^ ds.reverse.length := Nat.pow_le_pow_left (by decide) _
      _ ≤ _ := Nat.pow_le_pow_right (by decide) (by simp)
  have hvalue : Digits.value 58 (List.replicate zeros 0 ++ ds).reverse =
      Nat.ofDigits 58 ds.reverse := by
    simp [Digits.value_eq_ofDigits]
  unfold bytesOf
  simp only [hzeros, hvalue, Digits.digits_eq (by decide) hlt, List.map_reverse]

theorem digitsOf_map_charOf {ds : List Nat} (h : ∀ d ∈ ds, d < 58) (index : Nat) :
    digitsOf index (ds.map charOf) = .ok ds := by
  induction ds generalizing index with
  | nil => rfl
  | cons d ds ih =>
    have hd : d < 58 := h d (by simp)
    have hascii : ¬ 0x7f < (charOf d).toNat := by
      exact Nat.not_lt.mpr (charOf_ascii ⟨d, hd⟩)
    have hdigit : digit? (charOf d) = some d := digit?_charOf ⟨d, hd⟩
    rw [List.map_cons, digitsOf, if_neg hascii, hdigit]
    simp only [ih (fun e he => h e (by simp [he]))]
    rfl

theorem head?_digits_reverse (b n : Nat) : (Nat.digits b n).reverse.head? ≠ some 0 := by
  rw [List.head?_reverse]
  intro h
  by_cases hn : n = 0
  · simp [hn] at h
  · have hne : Nat.digits b n ≠ [] := Nat.digits_ne_nil_iff_ne_zero.mpr hn
    rw [List.getLast?_eq_some_getLast hne, Option.some.injEq] at h
    exact Nat.getLast_digit_ne_zero b hn h

theorem lt_of_mem_places {zeros n d : Nat}
    (h : d ∈ List.replicate zeros 0 ++ (Nat.digits 58 n).reverse) : d < 58 := by
  rcases List.mem_append.mp h with h | h
  · rw [List.eq_of_mem_replicate h]
    decide
  · exact Nat.digits_lt_base (by decide) (List.mem_reverse.mp h)

/-! ## Reading back -/

/-- Bytes are read back from their text. -/
theorem decode_encode (bs : List UInt8) : decode (encode bs) = .ok bs := by
  obtain ⟨zeros, rest, rfl, hrest⟩ := exists_zeros_append 0 bs
  have hdigits : ∀ d ∈ (Nat.digits 58 (Bytes.ofBigEndian rest)).reverse, d < 58 := by
    intro d hd
    apply lt_of_mem_places
    exact List.mem_append_right (List.replicate zeros 0) hd
  rw [decode, encode_zeros_append zeros hrest, String.toList_ofList,
    digitsOf_map_charOf fun _ => lt_of_mem_places]
  show Except.ok (bytesOf _) = _
  rw [bytesOf_zeros_append zeros (head?_digits_reverse 58 _) hdigits, List.reverse_reverse,
    Nat.ofDigits_digits, Bytes.digits_ofBigEndian hrest]
  simp [List.map_map, Function.comp_def]

theorem utf8ByteSize_map_charOf {ds : List Nat} (h : ∀ d ∈ ds, d < 58) :
    (String.ofList (ds.map charOf)).utf8ByteSize = ds.length := by
  rw [String.utf8ByteSize_ofList]
  induction ds with
  | nil => rfl
  | cons d ds ih =>
    have hsize : (charOf d).utf8Size = 1 :=
      Char.utf8Size_eq_one_iff.mpr (charOf_ascii ⟨d, h d (by simp)⟩)
    rw [List.map_cons, String.utf8Len_cons, hsize, ih fun e he => h e (by simp [he]),
      List.length_cons]

/-- Thirty-two bytes take no more than forty-four characters: with a zero less in front there is
one character less, and the number behind is at most 256 times as large. -/
theorem utf8ByteSize_encode_le {bs : List UInt8} (h : bs.length = 32) :
    (encode bs).utf8ByteSize ≤ 44 := by
  obtain ⟨zeros, rest, rfl, hrest⟩ := exists_zeros_append 0 bs
  rw [List.length_append, List.length_replicate] at h
  rw [encode_zeros_append zeros hrest, utf8ByteSize_map_charOf fun _ => lt_of_mem_places,
    List.length_append, List.length_replicate, List.length_reverse]
  have hpow : ∀ z : Fin 33, 256 ^ (32 - z.val) ≤ 58 ^ (44 - z.val) := by decide
  have hlt : Bytes.ofBigEndian rest < 58 ^ (44 - zeros) := by
    calc
      Bytes.ofBigEndian rest < 256 ^ rest.length := Bytes.ofBigEndian_lt rest
      _ = 256 ^ (32 - zeros) := by rw [show rest.length = 32 - zeros by omega]
      _ ≤ 58 ^ (44 - zeros) := hpow ⟨zeros, by omega⟩
  have hlength := (Nat.digits_length_le_iff (by decide : 1 < 58) _).mpr hlt
  omega

/-! ## One text only -/

theorem charOf_of_digit? {c : Char} {d : Nat} (h : digit? c = some d) :
    d < 58 ∧ charOf d = c := by
  obtain ⟨hd, hc, -⟩ := List.idxOf?_eq_some_iff.mp h
  refine ⟨hd, ?_⟩
  rw [charOf, List.getD_eq_getElem?_getD, List.getElem?_eq_getElem hd, Option.getD_some, hc]

/-- Characters that are read as digits are the characters of those digits. -/
theorem eq_map_charOf_of_digitsOf {index : Nat} {cs : List Char} {ds : List Nat}
    (h : digitsOf index cs = .ok ds) : cs = ds.map charOf ∧ ∀ d ∈ ds, d < 58 := by
  induction cs generalizing index ds with
  | nil =>
    cases h
    exact ⟨rfl, by simp⟩
  | cons c cs ih =>
    rw [digitsOf] at h
    split at h
    · cases h
    · cases hd : digit? c with
      | none => simp [hd] at h
      | some d =>
        cases hrest : digitsOf (index + 1) cs with
        | error e => simp [hd, hrest, Except.map] at h
        | ok rest =>
          obtain rfl : d :: rest = ds := by simpa [hd, hrest, Except.map] using h
          obtain ⟨hcs, hall⟩ := ih hrest
          obtain ⟨hlt, hc⟩ := charOf_of_digit? hd
          refine ⟨by rw [List.map_cons, hc, ← hcs], ?_⟩
          intro e he
          rcases List.mem_cons.mp he with rfl | he
          · exact hlt
          · exact hall e he

/-- The digits of a number in base 256 as bytes denote the number again. -/
theorem ofBigEndian_digits (n : Nat) :
    Bytes.ofBigEndian ((Nat.digits 256 n).reverse.map UInt8.ofNat) = n := by
  rw [Bytes.ofBigEndian, List.map_reverse, List.reverse_reverse, Bytes.ofLittleEndian_eq_ofDigits,
    List.map_map]
  have hsame : (Nat.digits 256 n).map (UInt8.toNat ∘ UInt8.ofNat) = Nat.digits 256 n := by
    conv_rhs => rw [← List.map_id (Nat.digits 256 n)]
    refine List.map_congr_left fun d hd => ?_
    exact UInt8.toNat_ofNat_of_lt' (Nat.digits_lt_base (by decide) hd)
  rw [hsame, Nat.ofDigits_digits]

/-- The digits of a number in base 256 as bytes do not start with a zero. -/
theorem head?_byteDigits (n : Nat) :
    ((Nat.digits 256 n).reverse.map UInt8.ofNat).head? ≠ some 0 := by
  rw [List.head?_map]
  intro h
  obtain ⟨d, hd, hzero⟩ := Option.map_eq_some_iff.mp h
  have hlt : d < 256 :=
    Nat.digits_lt_base (by decide) (List.mem_reverse.mp (List.mem_of_head? hd))
  have hd0 : d = 0 := by
    rw [← UInt8.toNat_ofNat_of_lt' hlt, hzero]
    rfl
  exact head?_digits_reverse 256 n (hd0 ▸ hd)

/-- Digits are written again for the bytes that they stand for. -/
theorem encode_bytesOf {ds : List Nat} (h : ∀ d ∈ ds, d < 58) :
    encode (bytesOf ds) = String.ofList (ds.map charOf) := by
  obtain ⟨zeros, rest, rfl, hrest⟩ := exists_zeros_append 0 ds
  have hlt : ∀ d ∈ rest, d < 58 := fun d hd => h d (List.mem_append_right _ hd)
  have hdigits : Nat.digits 58 (Nat.ofDigits 58 rest.reverse) = rest.reverse := by
    refine Nat.digits_ofDigits 58 (by decide) _ (by simpa using hlt) ?_
    intro hne hlast
    cases rest with
    | nil => simp at hne
    | cons d rest => exact hrest (congrArg some (by simpa using hlast))
  rw [bytesOf_zeros_append zeros hrest hlt, encode_zeros_append zeros (head?_byteDigits _),
    ofBigEndian_digits, hdigits, List.reverse_reverse]

/-- A text is read as some bytes exactly when it is their text. -/
theorem decode_eq_ok_iff {s : String} {bs : List UInt8} : decode s = .ok bs ↔ s = encode bs := by
  constructor
  · intro h
    cases hds : digitsOf 0 s.toList with
    | error e => simp [decode, hds, Except.map] at h
    | ok ds =>
      obtain rfl : bytesOf ds = bs := by simpa [decode, hds, Except.map] using h
      obtain ⟨hcs, hall⟩ := eq_map_charOf_of_digitsOf hds
      rw [encode_bytesOf hall, ← hcs, String.ofList_toList]
  · rintro rfl
    exact decode_encode bs

end Base58

namespace Address

/-- An address is read back from its text. -/
theorem parse_text (a : Address) : parse a.text = .ok a := by
  have hsize : ¬ maxTextSize < a.text.utf8ByteSize :=
    Nat.not_lt.mpr (Base58.utf8ByteSize_encode_le a.length_eq)
  have hdecode : Base58.decode a.text = .ok a.bytes := Base58.decode_encode a.bytes
  rw [parse, if_neg hsize, hdecode]
  simp only [ofBytes?_bytes]

theorem text_inj {a b : Address} (h : a.text = b.text) : a = b := by
  have hparse := parse_text a
  rw [h, parse_text] at hparse
  exact (Except.ok.inj hparse).symm

end Address

end PayeeProposal
