import PayeeProposal.Keypair
import PayeeProposal.Proofs.Blank
import PayeeProposal.Proofs.Decimal

/-!
# Bytes between commas

Bytes are read from between commas when each part is blank or holds the number of a byte with
blanks around it, and the bytes are those of the parts that are not blank, in order. Blanks around
the whole text are blanks around its first and last parts, so they make no difference.
-/

namespace PayeeProposal

/-! ## Splitting -/

namespace Text

variable {sep : Char}

theorem splitAt_cons_of_ne {c : Char} (h : c ≠ sep) {cs part : List Char}
    {parts : List (List Char)} (hsplit : splitAt sep cs = part :: parts) :
    splitAt sep (c :: cs) = (c :: part) :: parts := by
  rw [splitAt, if_neg h, hsplit]

/-- Parts without separators are what splitting gives of the text that joins them. -/
theorem splitAt_intercalate {part : List Char} {parts : List (List Char)}
    (h : ∀ p ∈ part :: parts, sep ∉ p) :
    splitAt sep ([sep].intercalate (part :: parts)) = part :: parts := by
  induction parts generalizing part with
  | nil => simpa using splitAt_of_not_mem (h part (by simp))
  | cons next parts ih =>
    rw [List.intercalate_cons_cons, List.append_assoc, List.singleton_append,
      splitAt_append (h part (by simp)), ih fun p hp => h p (by simp [hp])]

theorem intercalate_splitAt (sep : Char) (cs : List Char) :
    [sep].intercalate (splitAt sep cs) = cs := by
  induction cs with
  | nil => rfl
  | cons c cs ih =>
    obtain ⟨part, parts, hsplit⟩ := List.exists_cons_of_ne_nil (splitAt_ne_nil sep cs)
    rw [hsplit] at ih
    by_cases hc : c = sep
    · rw [splitAt, if_pos hc, hsplit, List.intercalate_cons_cons, ih, hc]
      rfl
    · rw [splitAt_cons_of_ne hc hsplit]
      cases parts with
      | nil => simpa using ih
      | cons next parts =>
        rw [List.intercalate_cons_cons] at ih ⊢
        rw [List.cons_append, List.cons_append, ih]

theorem mem_intercalate {d : Char} {parts : List (List Char)}
    (h : d ∈ [sep].intercalate parts) : d = sep ∨ ∃ part ∈ parts, d ∈ part := by
  induction parts with
  | nil => cases h
  | cons part parts ih =>
    cases parts with
    | nil => exact .inr ⟨part, by simp, by simpa using h⟩
    | cons next parts =>
      rw [List.intercalate_cons_cons, List.append_assoc] at h
      rcases List.mem_append.mp h with h | h
      · exact .inr ⟨part, by simp, h⟩
      · rcases List.mem_cons.mp h with h | h
        · exact .inl h
        · rcases ih h with h | ⟨p, hp, h⟩
          · exact .inl h
          · exact .inr ⟨p, by simp [hp], h⟩

/-- What stands in front of a text stands in front of its first part. -/
theorem splitAt_append_left {pad : List Char} (hpad : sep ∉ pad) (cs : List Char) :
    ∃ part parts, splitAt sep cs = part :: parts ∧
      splitAt sep (pad ++ cs) = (pad ++ part) :: parts := by
  obtain ⟨part, parts, hsplit⟩ := List.exists_cons_of_ne_nil (splitAt_ne_nil sep cs)
  refine ⟨part, parts, hsplit, ?_⟩
  induction pad with
  | nil => exact hsplit
  | cons c pad ih =>
    simp only [List.mem_cons, not_or] at hpad
    exact splitAt_cons_of_ne (Ne.symm hpad.1) (ih hpad.2)

/-- What stands behind a text stands behind its last part. -/
theorem splitAt_append_right {pad : List Char} (hpad : sep ∉ pad) (cs : List Char) :
    ∃ parts part, splitAt sep cs = parts ++ [part] ∧
      splitAt sep (cs ++ pad) = parts ++ [part ++ pad] := by
  induction cs with
  | nil => exact ⟨[], [], rfl, splitAt_of_not_mem hpad⟩
  | cons c cs ih =>
    obtain ⟨parts, part, hsplit, hsplit'⟩ := ih
    by_cases hc : c = sep
    · refine ⟨[] :: parts, part, ?_, ?_⟩
      · rw [splitAt, if_pos hc, hsplit]
        rfl
      · rw [List.cons_append, splitAt, if_pos hc, hsplit']
        rfl
    · cases parts with
      | nil => exact ⟨[], c :: part, splitAt_cons_of_ne hc hsplit, splitAt_cons_of_ne hc hsplit'⟩
      | cons first parts =>
        exact ⟨(c :: first) :: parts, part, splitAt_cons_of_ne hc hsplit,
          splitAt_cons_of_ne hc hsplit'⟩

/-- A part without the blanks at its ends. -/
def stripped (part : List Char) : List Char :=
  trimRight (trimLeft part)

theorem toList_trim_ofList (part : List Char) :
    (trim (String.ofList part)).toList = stripped part := by
  simp [trim, stripped]

theorem exists_pads_stripped (part : List Char) :
    ∃ before after, part = before ++ stripped part ++ after ∧
      (∀ c ∈ before, isBlank c = true) ∧ ∀ c ∈ after, isBlank c = true := by
  have hpads := pads_trim (String.ofList part)
  unfold Pads at hpads
  rwa [toList_trim_ofList, String.toList_ofList] at hpads

/-- Blanks at the ends of a part make no difference. -/
theorem stripped_append {before after : List Char} (hbefore : ∀ c ∈ before, isBlank c = true)
    (hafter : ∀ c ∈ after, isBlank c = true) (part : List Char) :
    stripped (before ++ part ++ after) = stripped part := by
  obtain ⟨before', after', hpart, hbefore', hafter'⟩ := exists_pads_stripped part
  have hpads : Pads (String.ofList (before ++ part ++ after)) (trim (String.ofList part)) := by
    refine ⟨before ++ before', after' ++ after, ?_, ?_, ?_⟩
    · rw [String.toList_ofList, toList_trim_ofList]
      nth_rewrite 1 [hpart]
      simp
    · intro c hc
      exact (List.mem_append.mp hc).elim (hbefore c) (hbefore' c)
    · intro c hc
      exact (List.mem_append.mp hc).elim (hafter' c) (hafter c)
  have htrim := trim_of_pads hpads (bare_trim _)
  simpa only [toList_trim_ofList] using congrArg String.toList htrim

theorem stripped_eq_self {part : List Char} (h : ∀ c ∈ part, isBlank c = false) :
    stripped part = part := by
  rw [stripped, trimLeft_eq_self fun c hc => h c (List.mem_of_head? hc),
    trimRight_eq_self fun c hc => h c (List.mem_of_getLast? hc)]

theorem stripped_eq_nil_iff {part : List Char} :
    stripped part = [] ↔ ∀ c ∈ part, isBlank c = true := by
  constructor
  · intro h
    obtain ⟨before, after, hpart, hbefore, hafter⟩ := exists_pads_stripped part
    rw [h, List.append_nil] at hpart
    intro c hc
    rw [hpart] at hc
    exact (List.mem_append.mp hc).elim (hbefore c) (hafter c)
  · intro h
    rw [stripped, trimLeft_eq_nil_iff.mpr h]
    rfl

/-- Blanks around a text are blanks around its parts. -/
theorem map_stripped_splitAt (hsep : isBlank sep = false) {before after : List Char}
    (hbefore : ∀ c ∈ before, isBlank c = true) (hafter : ∀ c ∈ after, isBlank c = true)
    (cs : List Char) :
    (splitAt sep (before ++ cs ++ after)).map stripped = (splitAt sep cs).map stripped := by
  have hout {pad : List Char} (hpad : ∀ c ∈ pad, isBlank c = true) : sep ∉ pad := by
    intro hmem
    rw [hpad sep hmem] at hsep
    cases hsep
  obtain ⟨part, parts, hleft, hleft'⟩ := splitAt_append_left (hout hbefore) (cs ++ after)
  obtain ⟨parts', part', hright, hright'⟩ := splitAt_append_right (hout hafter) cs
  have hnone : ∀ c ∈ ([] : List Char), isBlank c = true := by simp
  have hfront : stripped (before ++ part) = stripped part := by
    simpa using stripped_append hbefore hnone part
  have hback : stripped (part' ++ after) = stripped part' := by
    simpa using stripped_append hnone hafter part'
  rw [List.append_assoc, hleft', List.map_cons, hfront, ← List.map_cons, ← hleft, hright', hright]
  simp [hback]

end Text

namespace Keypair

/-- The number of a byte in decimal, perhaps behind a plus sign. -/
inductive Numeral : List Char → UInt8 → Prop
  | bare {ds : List Char} {b : UInt8} (hne : ds ≠ [])
    (h : Digits.ofChars? 10 ds = some b.toNat) : Numeral ds b
  | plus {ds : List Char} {b : UInt8} (hne : ds ≠ [])
    (h : Digits.ofChars? 10 ds = some b.toNat) : Numeral ('+' :: ds) b

/-- Parts of which each is blank or has the number of a byte between blanks, and the bytes. -/
inductive Parts : List (List Char) → List UInt8 → Prop
  | nil : Parts [] []
  | blank {part : List Char} {parts : List (List Char)} {bs : List UInt8}
    (h : ∀ c ∈ part, Text.isBlank c = true) (hrest : Parts parts bs) : Parts (part :: parts) bs
  | number {before numeral after : List Char} {parts : List (List Char)} {b : UInt8}
    {bs : List UInt8} (hbefore : ∀ c ∈ before, Text.isBlank c = true)
    (hafter : ∀ c ∈ after, Text.isBlank c = true) (h : Numeral numeral b)
    (hrest : Parts parts bs) : Parts ((before ++ numeral ++ after) :: parts) (b :: bs)

/-! ## Numerals -/

theorem byteFrom_eq_ok_iff {n : Nat} {cs : List Char} {b : UInt8} (hn : n < 256) :
    byteFrom n cs = .ok b ↔
      (∀ c ∈ cs, c.isDigit = true) ∧ Nat.ofDigitChars 10 cs n = b.toNat := by
  induction cs generalizing n with
  | nil =>
    rw [byteFrom, Except.ok.injEq, ← UInt8.toNat_inj, UInt8.toNat_ofNat_of_lt' hn]
    simp
  | cons c cs ih =>
    rw [byteFrom, Digits.ofDigitChars_cons, show c.toNat - 48 = Json.digitValue c from rfl]
    by_cases hc : c.isDigit = true
    · have hle := Digits.le_ofDigitChars (10 * n + Json.digitValue c) cs
      have hb : b.toNat < 256 := b.toNat_lt
      rw [if_neg (by simp [hc])]
      by_cases hlarge : 256 ≤ 10 * n + Json.digitValue c
      · have hne : Nat.ofDigitChars 10 cs (10 * n + Json.digitValue c) ≠ b.toNat := by omega
        rw [if_pos hlarge]
        simp [hne]
      · rw [if_neg hlarge]
        refine (ih (by omega)).trans ?_
        simp [hc]
    · simp [hc]

theorem byteFrom_zero_iff {ds : List Char} {b : UInt8} :
    byteFrom 0 ds = .ok b ↔ Digits.ofChars? 10 ds = some b.toNat := by
  rw [byteFrom_eq_ok_iff (by decide), Digits.ofChars?_ten_iff]

theorem ofChars?_plus (ds : List Char) : Digits.ofChars? 10 ('+' :: ds) = none := by
  have hnone : Digits.ofChar? 10 '+' = none := rfl
  simp [Digits.ofChars?, hnone]

theorem byteOf_eq_ok_iff {cs : List Char} {b : UInt8} : byteOf cs = .ok b ↔ Numeral cs b := by
  constructor
  · intro h
    unfold byteOf at h
    split at h
    · cases h
    · cases h
    · rename_i ds hne
      exact .plus (by simpa using hne) (byteFrom_zero_iff.mp h)
    · rename_i hne _ _
      exact .bare hne (byteFrom_zero_iff.mp h)
  · intro h
    cases h with
    | bare hne h =>
      rw [byteOf]
      · exact byteFrom_zero_iff.mpr h
      · exact hne
      · rintro rfl
        simp [ofChars?_plus] at h
      · rintro ds rfl
        simp [ofChars?_plus] at h
    | plus hne h =>
      rw [byteOf]
      · exact byteFrom_zero_iff.mpr h
      · exact hne

theorem Numeral.mem {cs : List Char} {b : UInt8} (h : Numeral cs b) :
    ∀ c ∈ cs, c = '+' ∨ c.isDigit = true := by
  intro c hc
  cases h with
  | bare _ h => exact .inr ((Digits.ofChars?_ten_iff.mp h).1 c hc)
  | plus _ h =>
    rcases List.mem_cons.mp hc with rfl | hc
    · exact .inl rfl
    · exact .inr ((Digits.ofChars?_ten_iff.mp h).1 c hc)

theorem Numeral.not_isBlank {cs : List Char} {b : UInt8} (h : Numeral cs b) :
    ∀ c ∈ cs, Text.isBlank c = false := by
  intro c hc
  rcases h.mem c hc with rfl | hdigit
  · rfl
  · obtain ⟨hfrom, hto⟩ : 48 ≤ c.toNat ∧ c.toNat ≤ 57 := Char.isDigit_iff_toNat.mp hdigit
    simp [Text.isBlank]
    omega

theorem Numeral.ne_nil {cs : List Char} {b : UInt8} (h : Numeral cs b) : cs ≠ [] := by
  cases h with
  | bare hne _ => exact hne
  | plus _ _ => simp

/-! ## Parts -/

theorem parts_cons_iff {part : List Char} {parts : List (List Char)} {bs : List UInt8} :
    Parts (part :: parts) bs ↔
      Text.stripped part = [] ∧ Parts parts bs ∨
        ∃ b rest, bs = b :: rest ∧ Numeral (Text.stripped part) b ∧ Parts parts rest := by
  constructor
  · intro h
    cases h with
    | blank hblank hrest => exact .inl ⟨Text.stripped_eq_nil_iff.mpr hblank, hrest⟩
    | @number _ numeral _ _ b bs hbefore hafter h hrest =>
      refine .inr ⟨b, bs, rfl, ?_, hrest⟩
      rwa [Text.stripped_append hbefore hafter, Text.stripped_eq_self h.not_isBlank]
  · rintro (⟨hnil, hrest⟩ | ⟨b, rest, rfl, h, hrest⟩)
    · exact .blank (Text.stripped_eq_nil_iff.mp hnil) hrest
    · obtain ⟨before, after, hpart, hbefore, hafter⟩ := Text.exists_pads_stripped part
      rw [hpart]
      exact .number hbefore hafter h hrest

/-- Bytes are read from parts when each is blank or has a byte's number. -/
theorem mapM_byteOf_eq_ok_iff {parts : List (List Char)} {bs : List UInt8} :
    ((parts.map Text.stripped).filter fun part => !part.isEmpty).mapM byteOf = .ok bs ↔
      Parts parts bs := by
  rw [Traversal.mapM_eq_ok_iff]
  induction parts generalizing bs with
  | nil =>
    constructor
    · intro h
      cases h
      exact .nil
    · intro h
      cases h
      exact .nil
  | cons part parts ih =>
    rw [parts_cons_iff, List.map_cons, List.filter_cons]
    by_cases hnil : Text.stripped part = []
    · have hnot (b : UInt8) : ¬ Numeral [] b := fun h => h.ne_nil rfl
      rw [hnil, if_neg (by simp), ih]
      simp [hnot]
    · rw [if_pos (by simpa using hnil), List.forall₂_cons_left_iff]
      constructor
      · rintro ⟨b, rest, hb, hrest, rfl⟩
        exact .inr ⟨b, rest, rfl, byteOf_eq_ok_iff.mp hb, ih.mp hrest⟩
      · rintro (⟨h, -⟩ | ⟨b, rest, rfl, hb, hrest⟩)
        · exact absurd h hnil
        · exact ⟨b, rest, byteOf_eq_ok_iff.mpr hb, ih.mpr hrest, rfl⟩

theorem commaBytes_eq_ok_iff {cs : List Char} {bs : List UInt8} :
    commaBytes cs = .ok bs ↔ Parts (Text.splitAt ',' cs) bs :=
  mapM_byteOf_eq_ok_iff

/-- Blanks around a text change no byte of it. -/
theorem commaBytes_append {before after : List Char} (hbefore : ∀ c ∈ before, Text.isBlank c = true)
    (hafter : ∀ c ∈ after, Text.isBlank c = true) (cs : List Char) :
    commaBytes (before ++ cs ++ after) = commaBytes cs := by
  have hcomma : Text.isBlank ',' = false := by decide
  have hmap := Text.map_stripped_splitAt hcomma hbefore hafter cs
  exact congrArg (fun parts => (parts.filter fun part => !part.isEmpty).mapM byteOf) hmap

/-- Nothing stands in a part but blanks, digits and plus signs. -/
theorem Parts.not_mem {parts : List (List Char)} {bs : List UInt8} (h : Parts parts bs) {d : Char}
    (hblank : Text.isBlank d = false) (hplus : d ≠ '+') (hdigit : d.isDigit = false) :
    ∀ part ∈ parts, d ∉ part := by
  have hout {pad : List Char} (hpad : ∀ c ∈ pad, Text.isBlank c = true) : d ∉ pad := by
    intro hmem
    rw [hpad d hmem] at hblank
    cases hblank
  induction h with
  | nil => simp
  | blank hpart _ ih =>
    rintro part (_ | ⟨_, hmem⟩)
    · exact hout hpart
    · exact ih part hmem
  | number hbefore hafter hnumeral _ ih =>
    rintro part (_ | ⟨_, hmem⟩)
    · have hnot : d ∉ _ := fun hd => (hnumeral.mem d hd).elim hplus (by simp [hdigit])
      simp [hout hbefore, hout hafter, hnot]
    · exact ih part hmem

theorem Parts.length_le {parts : List (List Char)} {bs : List UInt8} (h : Parts parts bs) :
    bs.length ≤ parts.length := by
  induction h with
  | nil => rfl
  | blank _ _ ih => exact ih.trans (by simp)
  | number _ _ _ _ ih => simpa using ih

/-- Commas between parts and no others are where the text is split. -/
theorem Parts.splitAt {parts : List (List Char)} {bs : List UInt8} (h : Parts parts bs) :
    Parts (Text.splitAt ',' ([','].intercalate parts)) bs := by
  cases parts with
  | nil =>
    cases h
    exact .blank (by simp) .nil
  | cons part parts =>
    rwa [Text.splitAt_intercalate (h.not_mem (by decide) (by decide) (by decide))]

end Keypair

end PayeeProposal
