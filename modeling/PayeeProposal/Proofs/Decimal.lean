import Mathlib.Data.List.TakeWhile
import PayeeProposal.Proofs.Base58
import PayeeProposal.Proofs.Reading

/-!
# Bytes in decimal

A byte in JSON is a whole number in decimal, without a sign and without zeros in front. Such a
number is read as the byte, and nothing else is: what a reader of bytes takes off the front of a
text is the number of the byte that it gives.
-/

namespace PayeeProposal

namespace Digits

open Json (digitValue)

theorem ofDigitChars_cons (n : Nat) (c : Char) (cs : List Char) :
    Nat.ofDigitChars 10 (c :: cs) n = Nat.ofDigitChars 10 cs (10 * n + digitValue c) := by
  rw [Nat.ofDigitChars_cons, digitValue]
  rfl

theorem le_ofDigitChars (n : Nat) (cs : List Char) : n ≤ Nat.ofDigitChars 10 cs n := by
  induction cs generalizing n with
  | nil => exact Nat.le_of_eq Nat.ofDigitChars_nil.symm
  | cons c cs ih =>
    have hrest := ih (10 * n + digitValue c)
    rw [ofDigitChars_cons]
    omega

theorem ofChar?_ten (c : Char) :
    ofChar? 10 c = if c.isDigit then some (digitValue c) else none := by
  by_cases h : c.isDigit = true
  · have hlt : c.toNat - 48 < 10 := by
      have hle : c.toNat ≤ 57 := (Char.isDigit_iff_toNat.mp h).2
      omega
    simp [ofChar?, digitValue, h, hlt]
  · have hlower : 'a' ≤ c ∧ c ≤ 'z' → ¬ c.toNat - 87 < 10 := by
      intro hc
      have hle : 97 ≤ c.toNat := hc.1
      omega
    have hupper : 'A' ≤ c ∧ c ≤ 'Z' → ¬ c.toNat - 55 < 10 := by
      intro hc
      have hle : 65 ≤ c.toNat := hc.1
      omega
    rw [ofChar?, if_neg h, if_neg h]
    by_cases ha : 'a' ≤ c ∧ c ≤ 'z'
    · rw [if_pos ha, if_neg (hlower ha)]
    · rw [if_neg ha]
      by_cases hA : 'A' ≤ c ∧ c ≤ 'Z'
      · rw [if_pos hA, if_neg (hupper hA)]
      · rw [if_neg hA, if_neg (Nat.lt_irrefl 10)]

theorem mapM_ofChar?_ten (cs : List Char) :
    cs.mapM (ofChar? 10) =
      if cs.all Char.isDigit = true then some (cs.map digitValue) else none := by
  induction cs with
  | nil => rfl
  | cons c cs ih =>
    rw [List.mapM_cons, ofChar?_ten, ih, List.all_cons]
    by_cases hc : c.isDigit = true
    · by_cases hcs : cs.all Char.isDigit = true
      · rw [if_pos hc, if_pos hcs, if_pos (by rw [hc, hcs]; rfl)]
        rfl
      · rw [if_pos hc, if_neg hcs, if_neg (by rw [hc, Bool.true_and]; exact hcs)]
        rfl
    · simp [hc]

theorem value_reverse_ten (cs : List Char) :
    value 10 (cs.map digitValue).reverse = Nat.ofDigitChars 10 cs 0 := by
  rw [value_eq_ofDigits, Nat.ofDigits_eq_foldr, List.foldr_reverse, List.foldl_map,
    Nat.ofDigitChars]
  congr 1
  funext n c
  simp [Nat.add_comm, digitValue]

/-- Decimal digits denote the number that they make of zero. -/
theorem ofChars?_ten_iff {cs : List Char} {n : Nat} :
    ofChars? 10 cs = some n ↔ (∀ c ∈ cs, c.isDigit = true) ∧ Nat.ofDigitChars 10 cs 0 = n := by
  rw [ofChars?, mapM_ofChar?_ten, ← List.all_eq_true]
  by_cases h : cs.all Char.isDigit = true
  · rw [if_pos h, Option.map_some, value_reverse_ten, Option.some.injEq]
    exact ⟨fun hn => ⟨h, hn⟩, And.right⟩
  · rw [if_neg h]
    simp [h]

end Digits

namespace Json

open Digits (ofDigitChars_cons le_ofDigitChars ofChars?_ten_iff)

/-! ## Reading a number -/

theorem absorb_of_lt {n : Nat} {cs : List Char} (h : Nat.ofDigitChars 10 cs n < Nat.pow 2 64) :
    absorb n (cs.map digitValue) = (Nat.ofDigitChars 10 cs n, 0) := by
  induction cs generalizing n with
  | nil => rfl
  | cons c cs ih =>
    rw [ofDigitChars_cons] at h ⊢
    have hle := le_ofDigitChars (10 * n + digitValue c) cs
    rw [List.map_cons, absorb, if_neg (by omega), ih h]

theorem WholeText.isDigit {whole : List Char} (h : WholeText whole) :
    ∀ d ∈ whole, d.isDigit = true := by
  cases h with
  | zero =>
    intro e he
    obtain rfl := List.mem_singleton.mp he
    rfl
  | digits hd _ hds =>
    intro e he
    rcases List.mem_cons.mp he with rfl | he
    · exact hd
    · exact hds e he

theorem unsignedNumber_append (negative : Bool) {whole s : List Char} (h : WholeText whole)
    (hs : NoFigure s) :
    unsignedNumber negative (whole ++ s) = numberRest negative (whole.map digitValue) s := by
  have hspan := spanDigits_append h.isDigit hs
  cases h with
  | zero =>
    cases s with
    | nil => rfl
    | cons c s => simp [unsignedNumber, hs c rfl, digitValue]
  | digits hd hne hds =>
    rw [List.cons_append] at hspan ⊢
    rw [unsignedNumber]
    · rw [if_pos hd, hspan]
    · exact hne

theorem numberRest_of_ends {ds : List Nat} {n : Nat} (h : absorb 0 ds = (n, 0)) {rest : List Char}
    (hrest : Ends rest) : numberRest false ds rest = .ok (.whole n, rest) := by
  rw [numberRest, h]
  dsimp only
  split
  · exact absurd rfl (isDigit_of_ends (hrest _ rfl)).2.1
  · exact absurd rfl (isDigit_of_ends (hrest _ rfl)).2.2.1
  · exact absurd rfl (isDigit_of_ends (hrest _ rfl)).2.2.2
  · rfl

/-- A whole number that is not too large is read. -/
theorem number_append {whole rest : List Char} (h : WholeText whole)
    (hlt : Nat.ofDigitChars 10 whole 0 < Nat.pow 2 64) (hrest : Ends rest) :
    number (whole ++ rest) = .ok (.whole (Nat.ofDigitChars 10 whole 0), rest) := by
  have hunsigned : unsignedNumber false (whole ++ rest) =
      .ok (.whole (Nat.ofDigitChars 10 whole 0), rest) := by
    rw [unsignedNumber_append false h hrest.noFigure]
    exact numberRest_of_ends (absorb_of_lt hlt) hrest
  obtain ⟨d, ds, rfl, hd⟩ := h.exists_cons
  rw [List.cons_append] at hunsigned ⊢
  rw [number, hunsigned]
  exact fun r hr => ne_of_isDigit hd rfl (List.cons.inj hr).1

/-! ## What is read as a number -/

theorem eq_of_absorb {n m : Nat} {cs : List Char} (h : absorb n (cs.map digitValue) = (m, 0)) :
    Nat.ofDigitChars 10 cs n = m := by
  induction cs generalizing n with
  | nil => exact congrArg Prod.fst h
  | cons c cs ih =>
    rw [List.map_cons, absorb] at h
    split at h
    · simp at h
    · exact ih h

theorem finish_ok {significand : Nat} {exponent : Int} {x : Number}
    (h : finish significand exponent = .ok x) : x = .other := by
  rw [finish] at h
  split at h
  · cases h
  · exact (Except.ok.inj h).symm

theorem map_finish_ok {significand : Nat} {exponent : Int} {x : Number} {s r : List Char}
    (h : (finish significand exponent).map (·, s) = .ok (x, r)) : x = .other := by
  cases hfinish : finish significand exponent with
  | error e =>
    rw [hfinish] at h
    cases h
  | ok y =>
    rw [hfinish] at h
    cases h
    exact finish_ok hfinish

theorem exponentPart_ok {significand : Nat} {exponent : Int} {s r : List Char} {x : Number}
    (h : exponentPart significand exponent s = .ok (x, r)) : x = .other := by
  unfold exponentPart at h
  dsimp only at h
  generalize spanDigits _ = span at h
  split at h
  · cases h
  · cases h
  · exact map_finish_ok h

theorem fractionPart_ok {significand : Nat} {exponent : Int} {s r : List Char} {x : Number}
    (h : fractionPart significand exponent s = .ok (x, r)) : x = .other := by
  unfold fractionPart at h
  split at h
  · cases h
  · cases h
  · dsimp only at h
    split at h
    · exact exponentPart_ok h
    · exact exponentPart_ok h
    · exact map_finish_ok h

theorem numberRest_ok {negative : Bool} {ds : List Nat} {s r : List Char} {n : Nat}
    (h : numberRest negative ds s = .ok (.whole n, r)) :
    negative = false ∧ absorb 0 ds = (n, 0) ∧ r = s := by
  cases hn : absorb 0 ds with
  | mk significand left =>
    rw [numberRest, hn] at h
    dsimp only at h
    -- a point, an exponent and digits that are left over all make it another number
    split at h
    · cases fractionPart_ok h
    · cases exponentPart_ok h
    · cases exponentPart_ok h
    · by_cases hleft : left = 0
      · cases negative with
        | true =>
          rw [if_pos hleft] at h
          cases h
        | false =>
          rw [if_pos hleft] at h
          cases h
          exact ⟨rfl, by rw [hleft], rfl⟩
      · rw [if_neg hleft] at h
        cases map_finish_ok h

theorem unsignedNumber_ok {negative : Bool} {s r : List Char} {n : Nat}
    (h : unsignedNumber negative s = .ok (.whole n, r)) :
    negative = false ∧
      ∃ whole, WholeText whole ∧ Nat.ofDigitChars 10 whole 0 = n ∧ s = whole ++ r := by
  unfold unsignedNumber at h
  split at h
  · cases h
  · rename_i s
    have hrest : numberRest negative [0] s = .ok (.whole n, r) := by
      cases s with
      | nil => exact h
      | cons c s =>
        dsimp only at h
        split at h
        · cases h
        · exact h
    obtain ⟨hsign, habsorb, rfl⟩ := numberRest_ok hrest
    exact ⟨hsign, ['0'], .zero, eq_of_absorb habsorb, rfl⟩
  · rename_i d cs hne
    split at h
    · rename_i hd
      obtain ⟨hsign, habsorb, rfl⟩ := numberRest_ok h
      refine ⟨hsign, (d :: cs).takeWhile Char.isDigit, ?_, eq_of_absorb habsorb,
        List.takeWhile_append_dropWhile.symm⟩
      rw [List.takeWhile_cons_of_pos hd]
      exact .digits hd (fun h => hne h) fun e he => List.mem_takeWhile_imp he
    · cases h

/-- What is read as a whole number is one, without a sign. -/
theorem number_ok {s r : List Char} {n : Nat} (h : number s = .ok (.whole n, r)) :
    ∃ whole, WholeText whole ∧ Nat.ofDigitChars 10 whole 0 = n ∧ s = whole ++ r := by
  unfold number at h
  split at h
  · cases (unsignedNumber_ok h).1
  · exact (unsignedNumber_ok h).2

/-! ## Bytes -/

/-- A byte in decimal, without zeros in front. -/
def ByteText (text : List Char) (b : UInt8) : Prop :=
  WholeText text ∧ Digits.ofChars? 10 text = some b.toNat

theorem opens_wholeText {whole : List Char} (h : WholeText whole) : Opens whole := by
  have hnumber := NumberText.intro (.inl rfl) h .absent .absent
  rw [List.nil_append, List.append_nil, List.append_nil] at hnumber
  exact opens_number hnumber

theorem reads_byte {text : List Char} {b : UInt8} (h : ByteText text b) :
    Reads Reader.byte text (some b) := by
  obtain ⟨hwhole, hvalue⟩ := h
  refine ⟨opens_wholeText hwhole, fun space rest hspace hrest => ?_⟩
  have hb : Nat.ofDigitChars 10 text 0 = b.toNat := (ofChars?_ten_iff.mp hvalue).2
  have hlt : b.toNat < 256 := b.toNat_lt
  have hnumber := number_append hwhole (by rw [hb]; exact hlt.trans (by decide)) hrest
  obtain ⟨c, cs, rfl, hc, -⟩ := opens_wholeText hwhole
  obtain ⟨_, _, heq, hd⟩ := hwhole.exists_cons
  obtain ⟨rfl, rfl⟩ := List.cons.inj heq
  rw [hb, List.cons_append] at hnumber
  rw [Reader.byte, List.cons_append, skipSpace_spaces_append hspace hc]
  simp [hd, hnumber, given, hlt]

/-! ## What a reader takes -/

section Takes

variable {α : Type}

/-- What a reader takes off the front of a text stands behind space and is as it should be. -/
def TakesOnly (reader : Reader α) (Written : List Char → α → Prop) : Prop :=
  ∀ s a r, reader s = .ok (a, r) →
    ∃ space text, Spaces space ∧ Written text a ∧ s = space ++ (text ++ r)

theorem exists_skipSpace (s : List Char) : ∃ space, Spaces space ∧ s = space ++ skipSpace s :=
  ⟨s.takeWhile isSpace, fun _ => List.mem_takeWhile_imp, List.takeWhile_append_dropWhile.symm⟩

theorem byte_takesOnly : TakesOnly Reader.byte ByteText := by
  intro s b r h
  obtain ⟨space, hspace, hs⟩ := exists_skipSpace s
  unfold Reader.byte at h
  dsimp only at h
  split at h
  · split at h
    · split at h
      · cases h
      · rename_i n r' hnumber
        split at h
        · rename_i hlt
          cases h
          obtain ⟨whole, hwhole, hvalue, htext⟩ := number_ok hnumber
          refine ⟨space, whole, hspace, ⟨hwhole, ?_⟩, by rw [hs, htext]⟩
          rw [UInt8.toNat_ofNat_of_lt' hlt]
          exact ofChars?_ten_iff.mpr ⟨hwhole.isDigit, hvalue⟩
        · cases h
      · cases h
    · cases h
  · cases h

/-- A list that goes on has what leads to its next item in front. -/
theorem nextElement_true {first : Bool} {s r : List Char}
    (h : nextElement first s = .ok (true, r)) : ∃ lead, Lead first lead ∧ s = lead ++ r := by
  obtain ⟨space, hspace, hs⟩ := exists_skipSpace s
  unfold nextElement at h
  split at h
  · cases h
  · cases h
  · rename_i s' hskip
    cases first with
    | true =>
      cases h
      exact ⟨space, .first hspace, by rw [hs, hskip]⟩
    | false =>
      obtain ⟨space', hspace', hs'⟩ := exists_skipSpace s'
      rw [if_neg Bool.false_ne_true] at h
      split at h
      · cases h
      · cases h
      · cases h
        refine ⟨space ++ ',' :: space', .next hspace hspace', ?_⟩
        rw [List.append_assoc, List.cons_append, ← hs', ← hskip, ← hs]
  · cases first with
    | true =>
      cases h
      exact ⟨space, .first hspace, hs⟩
    | false => cases h

theorem nextElement_false {first : Bool} {s r : List Char}
    (h : nextElement first s = .ok (false, r)) : ∃ space, Spaces space ∧ s = space ++ ']' :: r := by
  obtain ⟨space, hspace, hs⟩ := exists_skipSpace s
  unfold nextElement at h
  split at h
  · cases h
  · rename_i hskip
    cases h
    exact ⟨space, hspace, by rw [hs, hskip]⟩
  · split at h
    · cases h
    · split at h
      · cases h
      · cases h
      · cases h
  · split at h
    · cases h
    · cases h

theorem elements_ok {element : Reader α} {Written : List Char → α → Prop}
    (helement : TakesOnly element Written) {budget : List Char} {first : Bool} {s r : List Char}
    {as : List α} (h : elements element budget first s = .ok (as, r)) :
    ∃ inner items, Items first inner items ∧ List.Forall₂ Written items as ∧
      s = inner ++ ']' :: r := by
  induction budget generalizing first s as with
  | nil => cases h
  | cons b budget ih =>
    rw [elements] at h
    obtain ⟨⟨more, s'⟩, hnext, h⟩ := Traversal.bind_eq_ok.mp h
    cases more with
    | false =>
      cases h
      obtain ⟨space, hspace, rfl⟩ := nextElement_false hnext
      exact ⟨space, [], .nil hspace, .nil, rfl⟩
    | true =>
      obtain ⟨⟨a, r'⟩, ha, h⟩ := Traversal.bind_eq_ok.mp h
      obtain ⟨⟨as', r''⟩, has, h⟩ := Traversal.bind_eq_ok.mp h
      cases h
      obtain ⟨lead, hlead, rfl⟩ := nextElement_true hnext
      obtain ⟨space, text, hspace, htext, rfl⟩ := helement _ _ _ ha
      obtain ⟨inner, items, hinner, hitems, rfl⟩ := ih has
      refine ⟨_, _, .cons (hlead.append hspace) hinner, .cons htext hitems, ?_⟩
      simp

/-- What is taken off the front as a list is a list. -/
theorem list_takesOnly {element : Reader α} {Written : List Char → α → Prop}
    (helement : TakesOnly element Written) :
    TakesOnly (Reader.list element) fun text as =>
      ∃ items, ListText text items ∧ List.Forall₂ Written items as := by
  intro s as r h
  obtain ⟨space, hspace, hs⟩ := exists_skipSpace s
  unfold Reader.list at h
  split at h
  · rename_i s' hskip
    obtain ⟨inner, items, hinner, hitems, rfl⟩ := elements_ok helement h
    refine ⟨space, _, hspace, ⟨items, ⟨inner, hinner, rfl⟩, hitems⟩, ?_⟩
    rw [hs, hskip]
    simp
  · cases h

/-- A text with a value is what was taken off, and space around it. -/
theorem parse_ok {reader : Reader α} {Written : List Char → α → Prop}
    (hreader : TakesOnly reader Written) {s : String} {a : α} (h : parse reader s = .ok a) :
    ∃ text, Written text a ∧ Around s text := by
  obtain ⟨⟨a', r⟩, hread, h⟩ := Traversal.bind_eq_ok.mp h
  obtain ⟨space, text, hspace, htext, hs⟩ := hreader _ _ _ hread
  obtain ⟨after, hafter, hr⟩ := exists_skipSpace r
  dsimp only at h
  split at h
  · rename_i hskip
    cases h
    rw [hskip, List.append_nil] at hr
    exact ⟨text, htext, space, after, hspace, hafter, by rw [hs, hr]⟩
  · cases h

end Takes

end Json

end PayeeProposal
