import PayeeProposal.Base64

/-!
# Base 64 text read back

A group of four characters holds the bits of up to three bytes, and no character of it but the
padding is taken for padding. So bytes are read back from their text, group by group.
-/

namespace PayeeProposal.Base64

variable {u v w x : Nat}

theorem value?_charOf_of_lt (h : v < 64) : value? (charOf v) = some v :=
  value?_charOf ⟨v, h⟩

theorem charOf_ne_pad_of_lt (h : v < 64) : charOf v ≠ '=' :=
  charOf_ne_pad ⟨v, h⟩

theorem ofNat_eq_of_toNat {b : UInt8} {n : Nat} (h : n % 256 = b.toNat) : UInt8.ofNat n = b := by
  apply UInt8.toNat_inj.mp
  rw [UInt8.toNat_ofNat', h]

/-! ## Groups -/

theorem decodeChars_oneByte {a : UInt8} (hu : u < 64) (hv : v < 64)
    (h : u * 64 + v = a.toNat * 16) : decodeChars [charOf u, charOf v, '=', '='] = some [a] := by
  have ha := a.toNat_lt
  have hbyte : UInt8.ofNat ((u * 64 + v) / 16) = a := ofNat_eq_of_toNat (by omega)
  rw [decodeChars, value?_charOf_of_lt hu, value?_charOf_of_lt hv]
  simp only [Option.bind_eq_bind, Option.bind_some, hbyte]
  rw [if_pos (by omega)]

theorem decodeChars_twoBytes {a b : UInt8} (hu : u < 64) (hv : v < 64) (hw : w < 64)
    (h : (u * 64 + v) * 64 + w = (a.toNat * 256 + b.toNat) * 4) :
    decodeChars [charOf u, charOf v, charOf w, '='] = some [a, b] := by
  have ha := a.toNat_lt
  have hb := b.toNat_lt
  have hfirst : UInt8.ofNat (((u * 64 + v) * 64 + w) / 1024) = a := ofNat_eq_of_toNat (by omega)
  have hsecond : UInt8.ofNat (((u * 64 + v) * 64 + w) / 4) = b := ofNat_eq_of_toNat (by omega)
  rw [decodeChars.eq_3 _ _ _ (charOf_ne_pad_of_lt hw), value?_charOf_of_lt hu,
    value?_charOf_of_lt hv, value?_charOf_of_lt hw]
  simp only [Option.bind_eq_bind, Option.bind_some, hfirst, hsecond]
  rw [if_pos (by omega)]

theorem decodeChars_threeBytes {a b c : UInt8} {bs : List UInt8} {cs : List Char} (hu : u < 64)
    (hv : v < 64) (hw : w < 64) (hx : x < 64)
    (h : ((u * 64 + v) * 64 + w) * 64 + x = (a.toNat * 256 + b.toNat) * 256 + c.toNat)
    (hrest : decodeChars cs = some bs) :
    decodeChars (charOf u :: charOf v :: charOf w :: charOf x :: cs) =
      some (a :: b :: c :: bs) := by
  have ha := a.toNat_lt
  have hb := b.toNat_lt
  have hc := c.toNat_lt
  have hfirst : UInt8.ofNat ((((u * 64 + v) * 64 + w) * 64 + x) / 65536) = a :=
    ofNat_eq_of_toNat (by omega)
  have hsecond : UInt8.ofNat ((((u * 64 + v) * 64 + w) * 64 + x) / 256) = b :=
    ofNat_eq_of_toNat (by omega)
  have hthird : UInt8.ofNat (((u * 64 + v) * 64 + w) * 64 + x) = c :=
    ofNat_eq_of_toNat (by omega)
  have hpad : charOf x ≠ '=' := charOf_ne_pad_of_lt hx
  rw [decodeChars.eq_4 _ _ _ _ _ (fun _ h _ => hpad h) (fun h _ => hpad h),
    value?_charOf_of_lt hu, value?_charOf_of_lt hv, value?_charOf_of_lt hw,
    value?_charOf_of_lt hx]
  simp only [Option.bind_eq_bind, Option.bind_some, hfirst, hsecond, hthird, hrest]

/-! ## Whole texts -/

theorem decodeChars_encodeChars (bs : List UInt8) : decodeChars (encodeChars bs) = some bs := by
  fun_induction encodeChars bs with
  | case1 => rfl
  | case2 a n =>
    have ha := a.toNat_lt
    exact decodeChars_oneByte (by omega) (by omega) (by omega)
  | case3 a b n =>
    have ha := a.toNat_lt
    have hb := b.toNat_lt
    exact decodeChars_twoBytes (by omega) (by omega) (by omega) (by omega)
  | case4 a b c rest n ih =>
    have ha := a.toNat_lt
    have hb := b.toNat_lt
    have hc := c.toNat_lt
    exact decodeChars_threeBytes (by omega) (by omega) (by omega) (by omega) (by omega) ih

/-- Bytes are read back from their text. -/
theorem decode?_encode (bs : List UInt8) : decode? (encode bs) = some bs := by
  rw [decode?, encode, String.toList_ofList, decodeChars_encodeChars]

end PayeeProposal.Base64
