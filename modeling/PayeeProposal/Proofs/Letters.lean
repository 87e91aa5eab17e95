import PayeeProposal.Json.Layout
import PayeeProposal.Proofs.Grammar

/-!
# Strings in all their spellings

A string is read as the characters that its letters stand for, whichever of them are escaped and
how; one that is passed over only has to keep to the grammar.
-/

namespace PayeeProposal.Json

/-- A unit is four hexadecimal digits, the most significant one first. -/
theorem UnitText.exists_digits {us : List Char} {unit : Nat} (h : UnitText us unit) :
    ∃ a b c d u v w x, us = [a, b, c, d] ∧ Digits.ofChar? 16 a = some u ∧
      Digits.ofChar? 16 b = some v ∧ Digits.ofChar? 16 c = some w ∧
      Digits.ofChar? 16 d = some x ∧ unit = 16 * (16 * (16 * (16 * 0 + u) + v) + w) + x := by
  obtain ⟨hlength, hvalue⟩ := h
  match us, hlength with
  | [a, b, c, d], _ =>
    obtain ⟨ds, hds, rfl⟩ := Option.map_eq_some_iff.mp hvalue
    simp only [List.mapM_cons, List.mapM_nil, Option.bind_eq_bind, Option.bind_eq_some_iff,
      Option.pure_def, Option.some.injEq] at hds
    obtain ⟨u, hu, _, ⟨v, hv, _, ⟨w, hw, _, ⟨x, hx, _, rfl, rfl⟩, rfl⟩, rfl⟩, rfl⟩ := hds
    refine ⟨a, b, c, d, u, v, w, x, rfl, hu, hv, hw, hx, ?_⟩
    simp only [List.reverse_cons, List.reverse_nil, List.nil_append, List.cons_append,
      Digits.value_cons, Digits.value_nil]
    omega

theorem fourBytesLeft_cons (a b c d : Char) (s : List Char) :
    fourBytesLeft (a :: b :: c :: d :: s) = true := by
  have ha := a.utf8Size_pos
  have hb := b.utf8Size_pos
  have hc := c.utf8Size_pos
  have hd := d.utf8Size_pos
  simp [fourBytesLeft]
  omega

/-! ## Reading -/

/-- A unit behind its backslash and letter is read to its end. -/
theorem textFrom_unit {us : List Char} {unit : Nat} (h : UnitText us unit) (high : Option Nat)
    (acc s : List Char) :
    textFrom (.digits 3 0 high) acc (us ++ s) =
      match unitStep unit high with
      | .error e => .error e
      | .ok (.inl c) => textFrom .nothing (c :: acc) s
      | .ok (.inr pending) => textFrom pending acc s := by
  obtain ⟨a, b, c, d, u, v, w, x, rfl, hu, hv, hw, hx, rfl⟩ := h.exists_digits
  cases hstep : unitStep (16 * (16 * (16 * (16 * 0 + u) + v) + w) + x) high with
  | error e => simp only [List.cons_append, List.nil_append, textFrom, hu, hv, hw, hx, hstep]
  | ok step =>
    cases step with
    | inl c => simp only [List.cons_append, List.nil_append, textFrom, hu, hv, hw, hx, hstep]
    | inr pending =>
      simp only [List.cons_append, List.nil_append, textFrom, hu, hv, hw, hx, hstep]

theorem fourBytesLeft_unit {us : List Char} {unit : Nat} (h : UnitText us unit) (s : List Char) :
    fourBytesLeft (us ++ s) = true := by
  obtain ⟨a, b, c, d, -, -, -, -, rfl, -⟩ := h.exists_digits
  exact fourBytesLeft_cons a b c d s

theorem isLowSurrogate_of_high {unit : Nat} (h : isHighSurrogate unit = true) :
    isLowSurrogate unit = false := by
  simp [isHighSurrogate, isLowSurrogate] at h ⊢
  omega

/-- Letters are read as the characters that they stand for. -/
theorem textFrom_letters {ws cs : List Char} (h : Letters ws cs) (acc rest : List Char) :
    textFrom .nothing acc (ws ++ '\x22' :: rest) =
      .ok (String.ofList (acc.reverse ++ cs), rest) := by
  induction h generalizing acc with
  | nil => simp [textFrom]
  | plain hquote hslash hcontrol _ ih =>
    rw [List.cons_append, textFrom, if_neg hquote, if_neg hslash, hcontrol, if_neg (by simp), ih]
    simp
  | @escape e c ws cs he _ ih =>
    have hletter : e ≠ 'u' := by
      rintro rfl
      cases he
    simp only [List.cons_append, textFrom, if_neg hletter, he, ih]
    simp
  | unit hunit hhigh hlow _ ih =>
    simp only [List.cons_append, List.append_assoc, textFrom, fourBytesLeft_unit hunit,
      textFrom_unit hunit, unitStep, hhigh, hlow, ih]
    simp
  | pair hunit hunit' hhigh hlow _ ih =>
    -- the first half leaves the machine waiting for the second one
    simp only [List.cons_append, List.append_assoc, textFrom, fourBytesLeft_unit hunit,
      textFrom_unit hunit, unitStep, hhigh, isLowSurrogate_of_high hhigh]
    simp only [Bool.false_eq_true, if_true, if_false, textFrom, Char.reduceEq,
      fourBytesLeft_unit hunit', textFrom_unit hunit', unitStep, hlow, ih]
    simp

/-- A name between quotation marks is read as the text that it stands for. -/
theorem text_letters {ws : List Char} {s : String} (h : Letters ws s.toList) (rest : List Char) :
    text (ws ++ '\x22' :: rest) = .ok (s, rest) := by
  rw [text, textFrom_letters h]
  simp

/-! ## Passing over -/

theorem skipTextFrom_unit {us : List Char} {unit : Nat} (h : UnitText us unit)
    (s : List Char) : skipTextFrom (.digits 3) (us ++ s) = skipTextFrom .nothing s := by
  obtain ⟨a, b, c, d, u, v, w, x, rfl, hu, hv, hw, hx, -⟩ := h.exists_digits
  simp only [List.cons_append, List.nil_append, skipTextFrom, hu, hv, hw, hx, Option.isSome_some,
    if_true]

/-- Whatever may stand between quotation marks is passed over. -/
theorem skipText_body {ws : List Char} (h : Body ws) (rest : List Char) :
    skipText (ws ++ '\x22' :: rest) = .ok rest := by
  unfold skipText
  induction h with
  | nil => rfl
  | plain hquote hslash hcontrol _ ih =>
    rw [List.cons_append, skipTextFrom, if_neg hquote, if_neg hslash, hcontrol, if_neg (by simp),
      ih]
  | @escape e ws he _ ih =>
    have hletter : e ≠ 'u' := by
      rintro rfl
      cases he
    simp only [List.cons_append, skipTextFrom, if_neg hletter, he, ih]
    simp
  | unit hunit _ ih =>
    simp only [List.cons_append, List.append_assoc, skipTextFrom, fourBytesLeft_unit hunit,
      skipTextFrom_unit hunit, ih]
    simp

/-! ## Writing -/

theorem unitText_hexPair {n : Nat} (h : n < 0x20) : UnitText ('0' :: '0' :: hexPair n) n := by
  have hall : ∀ n : Fin 0x20, UnitText ('0' :: '0' :: hexPair n) n := by
    unfold UnitText
    decide
  exact hall ⟨n, h⟩

/-- What is written for a character stands for it. -/
theorem letters_escapeChar (c : Char) {ws cs : List Char} (h : Letters ws cs) :
    Letters (escapeChar c ++ ws) (c :: cs) := by
  by_cases hquote : c = '\x22'
  · subst hquote
    exact .escape rfl h
  by_cases hslash : c = '\\'
  · subst hslash
    exact .escape rfl h
  by_cases hb : c = '\x08'
  · subst hb
    exact .escape rfl h
  by_cases hf : c = '\x0c'
  · subst hf
    exact .escape rfl h
  by_cases hn : c = '\n'
  · subst hn
    exact .escape rfl h
  by_cases hr : c = '\r'
  · subst hr
    exact .escape rfl h
  by_cases ht : c = '\t'
  · subst ht
    exact .escape rfl h
  by_cases hcontrol : c.toNat < 0x20
  · have hhigh : isHighSurrogate c.toNat = false := by simp [isHighSurrogate]; omega
    have hlow : isLowSurrogate c.toNat = false := by simp [isLowSurrogate]; omega
    have hunit := Letters.unit (unitText_hexPair hcontrol) hhigh hlow h
    rw [Char.ofNat_toNat] at hunit
    simpa [escapeChar, hquote, hslash, hb, hf, hn, hr, ht, hcontrol] using hunit
  · simpa [escapeChar, hquote, hslash, hb, hf, hn, hr, ht, hcontrol] using
      Letters.plain hquote hslash (by simpa [isControl] using hcontrol) h

theorem letters_escaped (cs : List Char) : Letters (cs.flatMap escapeChar) cs := by
  induction cs with
  | nil => exact .nil
  | cons c cs ih => exact letters_escapeChar c ih

end PayeeProposal.Json
