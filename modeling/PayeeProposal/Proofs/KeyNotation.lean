import PayeeProposal.Proofs.Address
import PayeeProposal.Proofs.Commas
import PayeeProposal.Proofs.Layout

/-!
# Notations of keypairs

The three notations of bytes do not overlap: the first character and the commas of a text tell
which one it can be in, and in that notation it stands for one list of bytes at most. So a text
is a keypair exactly when the bytes that it stands for are one, and the bytes of one list are the
same keypair, or none for the same reason, in whichever notation they are written.
-/

namespace PayeeProposal.Keypair

open Json (ListText ByteText)

/-! ## Notations -/

/-- A way to write bytes. -/
inductive Style where
  | list
  | commas
  | base58
deriving DecidableEq, Repr

/-- The digits of a byte. -/
def decimal (b : UInt8) : List Char :=
  Nat.toDigits 10 b.toNat

namespace Style

/-- The style that the first character and the commas of a text select. -/
def of (t : String) : Style :=
  if t.toList.head? = some '[' then .list
  else if ',' ∈ t.toList then .commas
  else .base58

/-- What writes some bytes: a JSON list of their numbers, parts between commas with a number or
nothing in each, or their text in base 58. -/
def Writes : Style → String → List UInt8 → Prop
  | .list, t, bs => ∃ items, ListText t.toList items ∧ List.Forall₂ ByteText items bs
  | .commas, t, bs => ∃ parts, t.toList = [','].intercalate parts ∧ Parts parts bs
  | .base58, t, bs => t = Base58.encode bs

/-- The text of some bytes with no more in it than there must be. -/
def print : Style → List UInt8 → String
  | .list, bs => String.ofList ('[' :: ([','].intercalate (bs.map decimal) ++ [']']))
  | .commas, bs => String.ofList ([','].intercalate (bs.map decimal))
  | .base58, bs => Base58.encode bs

end Style

/-! ## Printed bytes -/

theorem isDigit_of_mem_decimal {b : UInt8} {c : Char} (h : c ∈ decimal b) : c.isDigit = true :=
  Nat.isDigit_of_mem_toDigits (by decide) (by decide) h

theorem decimal_ne_nil (b : UInt8) : decimal b ≠ [] :=
  Nat.toDigits_ne_nil

theorem ofChars?_decimal (b : UInt8) : Digits.ofChars? 10 (decimal b) = some b.toNat :=
  Digits.ofChars?_ten_iff.mpr ⟨fun _ => isDigit_of_mem_decimal, Nat.ofDigitChars_ten_toDigits⟩

theorem head?_decimal (b : UInt8) : decimal b = ['0'] ∨ (decimal b).head? ≠ some '0' := by
  have hall : ∀ n : Fin 256,
      Nat.toDigits 10 n = ['0'] ∨ (Nat.toDigits 10 n).head? ≠ some '0' := by decide +kernel
  unfold decimal
  exact hall ⟨b.toNat, b.toNat_lt⟩

theorem byteText_decimal (b : UInt8) : ByteText (decimal b) b := by
  refine ⟨?_, ofChars?_decimal b⟩
  rcases head?_decimal b with hzero | hhead
  · rw [hzero]
    exact .zero
  · have hdigits : ∀ c ∈ decimal b, c.isDigit = true := fun _ => isDigit_of_mem_decimal
    obtain ⟨d, ds, hds⟩ := List.exists_cons_of_ne_nil (decimal_ne_nil b)
    rw [hds] at hdigits hhead ⊢
    exact .digits (hdigits d (by simp)) (by simpa using hhead) fun e he => hdigits e (by simp [he])

theorem parts_decimal (bs : List UInt8) : Parts (bs.map decimal) bs := by
  induction bs with
  | nil => exact .nil
  | cons b bs ih =>
    have hnumeral : Numeral (decimal b) b := .bare (decimal_ne_nil b) (ofChars?_decimal b)
    have hblank : ∀ c ∈ ([] : List Char), Text.isBlank c = true := by simp
    simpa using Parts.number hblank hblank hnumeral ih

/-- What is printed of bytes writes them. -/
theorem Style.writes_print (style : Style) (bs : List UInt8) :
    style.Writes (style.print bs) bs := by
  cases style with
  | list =>
    have hitems := Json.items_intercalate Json.spaces_nil Json.spaces_nil (bs.map decimal)
    refine ⟨bs.map decimal, ⟨_, hitems, ?_⟩, ?_⟩
    · simp [print, Function.comp_def]
    · exact List.forall₂_map_left_iff.mpr (List.forall₂_same.mpr fun b _ => byteText_decimal b)
  | commas => exact ⟨bs.map decimal, String.toList_ofList, parts_decimal bs⟩
  | base58 => rfl

/-! ## The style of a text -/

theorem bare_list {t : String} {items : List (List Char)} (h : ListText t.toList items) :
    Text.Bare t := by
  obtain ⟨inner, -, ht⟩ := h
  constructor
  · intro c hc
    rw [ht] at hc
    cases hc
    rfl
  · intro c hc
    rw [ht, ← List.cons_append, List.getLast?_concat] at hc
    cases hc
    rfl

/-- Blanks around a text change nothing in what it writes. -/
theorem Style.Writes.trim {style : Style} {s t : String} {bs : List UInt8}
    (h : style.Writes t bs) (hs : Text.Pads s t) : style.Writes (Text.trim s) bs := by
  cases style with
  | list =>
    obtain ⟨items, htext, -⟩ := id h
    rwa [Text.trim_of_pads hs (bare_list htext)]
  | base58 =>
    obtain rfl := h
    exact Text.trim_of_pads hs (Base58.bare_encode bs)
  | commas =>
    obtain ⟨parts, ht, hparts⟩ := h
    have hread : commaBytes t.toList = .ok bs := by
      rw [ht]
      exact commaBytes_eq_ok_iff.mpr hparts.splitAt
    -- the trimmed text and the given one differ in blanks around the same text
    have hsame : commaBytes (Text.trim s).toList = commaBytes t.toList := by
      obtain ⟨before, after, hst, hbefore, hafter⟩ := hs
      obtain ⟨before', after', hstrim, hbefore', hafter'⟩ := Text.pads_trim s
      rw [← commaBytes_append hbefore' hafter', ← hstrim, hst, commaBytes_append hbefore hafter]
    exact ⟨_, (Text.intercalate_splitAt ',' _).symm, commaBytes_eq_ok_iff.mp (hsame.trans hread)⟩

theorem charOf_ne : ∀ d : Fin 58, Base58.charOf d ≠ '[' ∧ Base58.charOf d ≠ ',' := by decide

/-- A text that writes more than one byte shows its style. -/
theorem Style.Writes.of_eq {style : Style} {t : String} {bs : List UInt8} (h : style.Writes t bs)
    (hlength : 2 ≤ bs.length) : t ≠ "" ∧ Style.of t = style := by
  cases style with
  | list =>
    obtain ⟨items, ⟨inner, -, ht⟩, -⟩ := h
    refine ⟨?_, if_pos (by rw [ht]; rfl)⟩
    rintro rfl
    cases ht
  | commas =>
    obtain ⟨parts, ht, hparts⟩ := h
    -- two bytes stand in two parts, with a comma between them
    have hcomma : ',' ∈ t.toList := by
      have hle := hparts.length_le
      match parts, hlength.trans hle with
      | first :: second :: parts, _ =>
        rw [ht, List.intercalate_cons_cons]
        simp
    have hbracket : '[' ∉ t.toList := by
      intro hmem
      rw [ht] at hmem
      rcases Text.mem_intercalate hmem with h | ⟨part, hpart, h⟩
      · cases h
      · exact hparts.not_mem (by decide) (by decide) (by decide) part hpart h
    refine ⟨?_, ?_⟩
    · rintro rfl
      cases hcomma
    · rw [Style.of, if_neg fun hhead => hbracket (List.mem_of_head? hhead), if_pos hcomma]
  | base58 =>
    obtain rfl := h
    obtain ⟨ds, hds, hall⟩ := Base58.exists_toList_encode bs
    have hne : ∀ c ∈ (Base58.encode bs).toList, c ≠ '[' ∧ c ≠ ',' := by
      intro c hc
      rw [hds] at hc
      obtain ⟨d, hd, rfl⟩ := List.mem_map.mp hc
      exact charOf_ne ⟨d, hall d hd⟩
    refine ⟨?_, ?_⟩
    · intro hempty
      have hread := Base58.decode_encode bs
      rw [hempty] at hread
      obtain rfl : [] = bs := Except.ok.inj hread
      cases hlength
    · rw [Style.of, if_neg fun hhead => (hne _ (List.mem_of_head? hhead)).1 rfl,
        if_neg fun hmem => (hne _ hmem).2 rfl]

/-! ## Reading -/

theorem eq_of_around {t : String} {text : List Char} (hbare : Text.Bare t)
    (h : Json.Around t text) : t.toList = text := by
  obtain ⟨before, after, hbefore, hafter, ht⟩ := h
  have hfront : before = [] := by
    cases before with
    | nil => rfl
    | cons c before =>
      have hblank := Json.isBlank_of_isSpace (hbefore c (by simp))
      rw [hbare.front c (by rw [ht]; rfl)] at hblank
      cases hblank
  have hback : after = [] := by
    cases hlast : after.getLast? with
    | none => exact List.getLast?_eq_none_iff.mp hlast
    | some c =>
      have hblank := Json.isBlank_of_isSpace (hafter c (List.mem_of_getLast? hlast))
      rw [hbare.back c (by rw [ht]; simp [hlast])] at hblank
      cases hblank
  rw [ht, hfront, hback]
  simp

theorem parse_list_eq_ok_iff {t : String} {bs : List UInt8} (hbare : Text.Bare t) :
    Json.parse (Json.Reader.list Json.Reader.byte) t = .ok bs ↔ Style.list.Writes t bs := by
  constructor
  · intro h
    obtain ⟨text, htext, haround⟩ := Json.parse_ok (Json.list_takesOnly Json.byte_takesOnly) h
    rwa [← eq_of_around hbare haround] at htext
  · rintro ⟨items, htext, hitems⟩
    have hreads := Json.reads_list_some htext (hitems.imp fun _ _ h => Json.reads_byte h)
    exact Json.parse_of_reads hreads ⟨[], [], Json.spaces_nil, Json.spaces_nil, by simp⟩

/-- The bytes of a text are those that it writes in the style that it selects. -/
theorem bytesOf_eq_ok_iff {t : String} {bs : List UInt8} (hbare : Text.Bare t) :
    bytesOf t = .ok bs ↔ t ≠ "" ∧ (Style.of t).Writes t bs := by
  unfold bytesOf
  split
  · rename_i hnil
    have hempty : t = "" := String.toList_inj.mp hnil
    simp [hempty]
  · rename_i cs hcs
    have hof : Style.of t = .list := if_pos (by rw [hcs]; rfl)
    have hne : t ≠ "" := by
      rintro rfl
      cases hcs
    rw [Traversal.mapError_eq_ok, parse_list_eq_ok_iff hbare, hof]
    exact ⟨fun h => ⟨hne, h⟩, And.right⟩
  · rename_i hne hlist
    have hnonempty : t ≠ "" := by
      rintro rfl
      exact hne rfl
    have hhead : t.toList.head? ≠ some '[' := by
      intro hhead
      obtain ⟨cs, hcs⟩ := List.head?_eq_some_iff.mp hhead
      exact hlist cs hcs
    by_cases hcomma : ',' ∈ t.toList
    · have hof : Style.of t = .commas := by rw [Style.of, if_neg hhead, if_pos hcomma]
      rw [if_pos (by simpa using hcomma), Traversal.mapError_eq_ok, commaBytes_eq_ok_iff, hof]
      constructor
      · intro h
        exact ⟨hnonempty, _, (Text.intercalate_splitAt ',' _).symm, h⟩
      · rintro ⟨-, parts, ht, hparts⟩
        rw [ht]
        exact hparts.splitAt
    · have hof : Style.of t = .base58 := by rw [Style.of, if_neg hhead, if_neg hcomma]
      rw [if_neg (by simpa using hcomma), Traversal.mapError_eq_ok, Base58.decode_eq_ok_iff, hof]
      exact ⟨fun h => ⟨hnonempty, h⟩, And.right⟩

/-- A text that is read writes no other bytes. -/
theorem writes_iff_of_bytesOf {t : String} {bs : List UInt8} (hbare : Text.Bare t)
    (h : bytesOf t = .ok bs) (other : List UInt8) :
    (Style.of t).Writes t other ↔ other = bs := by
  obtain ⟨hne, hwrites⟩ := (bytesOf_eq_ok_iff hbare).mp h
  constructor
  · intro hother
    have hread := (bytesOf_eq_ok_iff hbare).mpr ⟨hne, hother⟩
    exact Except.ok.inj (hread.symm.trans h)
  · rintro rfl
    exact hwrites

/-! ## Keypairs -/

/-- Bytes that are a seed and its public key. -/
def IsKey (bs : List UInt8) : Prop :=
  bs.length = 64 ∧ bs.drop 32 = Ed25519.publicKey (bs.take 32)

theorem bytes_ofSeed {bs : List UInt8} (h : IsKey bs) :
    (ofSeed (Bytes.Fixed.ofLeading bs)).bytes = bs := by
  obtain ⟨hlength, hkey⟩ := h
  have hseed : (bs ++ List.replicate 32 0).take 32 = bs.take 32 :=
    List.take_append_of_le_length (by omega)
  have hbytes : (ofSeed (Bytes.Fixed.ofLeading bs)).bytes =
      (bs ++ List.replicate 32 0).take 32 ++
        Ed25519.publicKey ((bs ++ List.replicate 32 0).take 32) := rfl
  rw [hbytes, hseed, ← hkey, List.take_append_drop]

theorem ofBytes_of_isKey {bs : List UInt8} (h : IsKey bs) :
    ∃ k, ofBytes bs = .ok k ∧ k.bytes = bs :=
  ⟨_, if_pos h, bytes_ofSeed h⟩

theorem ofBytes_of_not_isKey {bs : List UInt8} (h : ¬ IsKey bs) :
    ofBytes bs = .error .signature :=
  if_neg h

theorem isKey_of_ofBytes {bs : List UInt8} {k : Keypair} (h : ofBytes bs = .ok k) :
    IsKey bs ∧ k.bytes = bs := by
  by_cases hkey : IsKey bs
  · obtain ⟨k', hk', hbytes⟩ := ofBytes_of_isKey hkey
    obtain rfl := Except.ok.inj (h.symm.trans hk')
    exact ⟨hkey, hbytes⟩
  · rw [ofBytes_of_not_isKey hkey] at h
    cases h

theorem parse_of_writes {style : Style} {s t : String} {bs : List UInt8} (h : style.Writes t bs)
    (hlength : 2 ≤ bs.length) (hs : Text.Pads s t) : parse s = ofBytes bs := by
  have htrim := h.trim hs
  obtain ⟨hne, hof⟩ := htrim.of_eq hlength
  have hread : bytesOf (Text.trim s) = .ok bs :=
    (bytesOf_eq_ok_iff (Text.bare_trim s)).mpr ⟨hne, by rwa [hof]⟩
  rw [parse, hread]
  rfl

theorem ofSeed_seed (k : Keypair) : ofSeed k.seed = k := by
  obtain ⟨seed, address, h⟩ := k
  have haddress : (ofSeed seed).address = address := Address.ext_bytes h.symm
  simpa [ofSeed] using haddress

theorem isKey_bytes (k : Keypair) : IsKey k.bytes := by
  refine ⟨?_, ?_⟩
  · rw [bytes, List.length_append, k.seed.length_eq, k.address.length_eq]
  · rw [bytes, List.take_left' k.seed.length_eq, List.drop_left' k.seed.length_eq, k.address_eq]

theorem ofBytes_bytes (k : Keypair) : ofBytes k.bytes = .ok k := by
  have hread : ofBytes k.bytes = .ok (ofSeed (Bytes.Fixed.ofLeading k.bytes)) :=
    if_pos k.isKey_bytes
  rw [hread, bytes, Bytes.Fixed.ofLeading_append, ofSeed_seed]

/-- A keypair is read back from its text in base 58. -/
theorem parse_encode (k : Keypair) : parse (Base58.encode k.bytes) = .ok k := by
  have hlength : 2 ≤ k.bytes.length := by
    rw [k.isKey_bytes.1]
    decide
  have hpads : Text.Pads (Base58.encode k.bytes) (Base58.encode k.bytes) :=
    ⟨[], [], by simp, by simp, by simp⟩
  have hwrites : Style.base58.Writes (Base58.encode k.bytes) k.bytes := rfl
  rw [parse_of_writes hwrites hlength hpads, ofBytes_bytes]

/-- Bytes are the same keypair in every style and with any blanks around their text, or in none
and for the same reason. A text that is a keypair writes its bytes, in the style that the text
selects, and no others. -/
theorem styles_agree :
    (∀ (style : Style) (bs : List UInt8), style.Writes (style.print bs) bs) ∧
      (∀ (style : Style) (bs : List UInt8) (s t : String), 2 ≤ bs.length → style.Writes t bs →
        Text.Pads s t →
          (IsKey bs → ∃ k, parse s = .ok k ∧ k.bytes = bs) ∧
            (¬ IsKey bs → parse s = .error .signature)) ∧
      ∀ (s : String) (k : Keypair), parse s = .ok k →
        IsKey k.bytes ∧
          ∀ bs, (Style.of (Text.trim s)).Writes (Text.trim s) bs ↔ bs = k.bytes := by
  refine ⟨Style.writes_print, ?_, ?_⟩
  · intro style bs s t hlength h hs
    rw [parse_of_writes h hlength hs]
    exact ⟨ofBytes_of_isKey, ofBytes_of_not_isKey⟩
  · intro s k h
    obtain ⟨bs, hread, hk⟩ := Traversal.bind_eq_ok.mp h
    obtain ⟨hkey, rfl⟩ := isKey_of_ofBytes hk
    exact ⟨hkey, writes_iff_of_bytesOf (Text.bare_trim s) hread⟩

/-- The bytes of a key are that key in every style, with blanks around them. Two bytes are none,
whatever blanks and empty parts stand around their numbers. -/
theorem styles_agree_zeros :
    let k := ofSeed ⟨List.replicate 32 0, List.length_replicate⟩
    let padded (style : Style) (bs : List UInt8) := " " ++ style.print bs ++ "\n"
    (∀ style, IsKey k.bytes ∧ Text.Pads (padded style k.bytes) (style.print k.bytes) ∧
        ∃ k', parse (padded style k.bytes) = .ok k' ∧ k'.bytes = k.bytes) ∧
      Style.commas.Writes "1 ,, +2" [1, 2] ∧ Text.Pads "\t1 ,, +2 " "1 ,, +2" ∧
      ¬ IsKey [1, 2] ∧ parse "\t1 ,, +2 " = .error .signature ∧
      parse (Base58.encode k.bytes) = .ok k ∧
      ∀ bs, (Style.of (Text.trim (Base58.encode k.bytes))).Writes
        (Text.trim (Base58.encode k.bytes)) bs ↔ bs = k.bytes := by
  intro k padded
  obtain ⟨hprint, hagree, hdenotes⟩ := styles_agree
  have hspace : ∀ c ∈ [' '], Text.isBlank c = true := List.forall_mem_singleton.mpr rfl
  have hpads : ∀ style, Text.Pads (padded style k.bytes) (style.print k.bytes) := fun style =>
    ⟨[' '], ['\n'], by simp [padded], hspace, List.forall_mem_singleton.mpr rfl⟩
  have hlength : 2 ≤ k.bytes.length := by
    rw [k.isKey_bytes.1]
    decide
  have hwrites : Style.commas.Writes "1 ,, +2" [1, 2] := by
    refine ⟨[['1', ' '], [], [' ', '+', '2']], by decide, ?_⟩
    show Parts [[] ++ ['1'] ++ [' '], [], [' '] ++ ['+', '2'] ++ []] [1, 2]
    refine .number (by simp) hspace (.bare (List.cons_ne_nil _ _) rfl) (.blank (by simp) ?_)
    exact .number hspace (by simp) (.plus (List.cons_ne_nil _ _) rfl) .nil
  have hsmall : ¬ IsKey [1, 2] := fun h => absurd h.1 (by decide)
  have hpadsSmall : Text.Pads "\t1 ,, +2 " "1 ,, +2" :=
    ⟨['\t'], [' '], by decide, List.forall_mem_singleton.mpr rfl, hspace⟩
  refine ⟨fun style => ⟨k.isKey_bytes, hpads style, ?_⟩, hwrites, hpadsSmall, hsmall, ?_,
    k.parse_encode, ?_⟩
  · exact (hagree style _ _ _ hlength (hprint style _) (hpads style)).1 k.isKey_bytes
  · exact (hagree .commas _ _ _ (by decide) hwrites hpadsSmall).2 hsmall
  · exact (hdenotes _ k k.parse_encode).2

end PayeeProposal.Keypair
