import Mathlib.Tactic.SplitIfs
import PayeeProposal.Yaml.Reader

/-!
# What scalars say

Every scalar says its text, whatever it looks like. Whether there is a value at all, which truth
value and which number a scalar says hangs on its style, its tag and its text. The readers take
exactly the nodes that say something of the wanted type, and read what is said.
-/

namespace PayeeProposal.Yaml

open Reader (nullWords standardTag)

/-! ## Scalars -/

namespace Scalar

/-- No value is said: by a plain scalar without a text or with one of the words for it. -/
inductive SaysNone (s : Scalar) : Prop
  | blank (hplain : s.style = .plain) (htag : s.tag = none) (htext : s.text = "")
  | word (hplain : s.style = .plain) (htag : s.tag = none ∨ s.tag = some (standardTag "null"))
    (htext : s.text ∈ nullWords)

/-- A value is said: by a scalar that is not plain, has the tag of another type, or has no tag and
a text that is no word for a missing value. -/
inductive SaysSome (s : Scalar) : Prop
  | marked (hstyle : s.style ≠ .plain)
  | tagged {tag : List UInt8} (htag : s.tag = some tag) (hother : tag ≠ standardTag "null")
  | other (htag : s.tag = none) (hblank : s.text ≠ "") (htext : s.text ∉ nullWords)

/-- A scalar is looked at as a value of the standard type of a name: it is plain, or it is a literal
one that has the type's tag. -/
inductive Typed (name : String) (s : Scalar) : Prop
  | plain (hstyle : s.style = .plain)
  | literal (hstyle : s.style = .literal) (htag : s.tag = some (standardTag name))

variable {s : Scalar}

theorem isNull_eq_true_iff : Reader.isNull s = some true ↔ s.SaysNone := by
  constructor
  · intro h
    simp only [Reader.isNull] at h
    split at h
    · cases h
    rename_i hstyle
    have hplain : s.style = .plain := Decidable.not_not.mp hstyle
    split at h
    · rename_i htag
      simp only [Option.some.injEq, Bool.or_eq_true, beq_iff_eq, List.contains_iff_mem] at h
      rcases h with htext | htext
      · exact .blank hplain htag htext
      · exact .word hplain (.inl htag) htext
    · rename_i tag htag
      split_ifs at h with hnull hword
      · exact .word hplain (.inr (by rw [htag, hnull])) (List.contains_iff_mem.mp hword)
      · cases h
  · rintro (⟨hplain, htag, htext⟩ | ⟨hplain, htag | htag, htext⟩)
    all_goals simp [Reader.isNull, hplain, htag, htext]

theorem isNull_eq_false_iff : Reader.isNull s = some false ↔ s.SaysSome := by
  constructor
  · intro h
    simp only [Reader.isNull] at h
    split at h
    · rename_i hstyle
      exact .marked hstyle
    split at h
    · rename_i htag
      simp only [Option.some.injEq, Bool.or_eq_false_iff, beq_eq_false_iff_ne] at h
      exact .other htag h.1 (by simpa using h.2)
    · rename_i tag htag
      split_ifs at h with hnull hword
      · cases h
      · exact .tagged htag hnull
  · rintro (hstyle | ⟨htag, hother⟩ | ⟨htag, hblank, htext⟩)
    · simp [Reader.isNull, hstyle]
    · simp [Reader.isNull, htag, hother]
    · simp [Reader.isNull, htag, hblank, htext]

theorem isTyped_iff {name : String} : Reader.isTyped name s = true ↔ s.Typed name := by
  constructor
  · intro h
    unfold Reader.isTyped at h
    split at h
    · rename_i hstyle
      exact .plain hstyle
    · rename_i hstyle
      exact .literal hstyle (beq_iff_eq.mp h)
    · cases h
  · rintro (hstyle | ⟨hstyle, htag⟩)
    · simp [Reader.isTyped, hstyle]
    · simp [Reader.isTyped, hstyle, htag]

end Scalar

/-! ## Whole numbers -/

/-- A text writes a number without a sign: in decimal digits with no zero in front, or behind the
mark of another base. -/
inductive Magnitude : List Char → Nat → Prop
  | decimal {cs : List Char} {n : Nat} (hne : cs ≠ [])
    (hzero : cs.head? = some '0' → cs.length = 1) (h : Digits.ofChars? 10 cs = some n) :
    Magnitude cs n
  | based {mark : Char} {base : Nat} {cs : List Char} {n : Nat}
    (hbase : (mark, base) ∈ [('x', 16), ('o', 8), ('b', 2)]) (hne : cs ≠ [])
    (h : Digits.ofChars? base cs = some n) : Magnitude ('0' :: mark :: cs) n

/-- A text writes a number, perhaps behind a sign. -/
inductive Numeral : List Char → Int → Prop
  | unsigned {cs : List Char} {n : Nat} (h : Magnitude cs n) : Numeral cs n
  | plus {cs : List Char} {n : Nat} (h : Magnitude cs n) : Numeral ('+' :: cs) n
  | minus {cs : List Char} {n : Nat} (h : Magnitude cs n) : Numeral ('-' :: cs) (-n)

/-- A text that does not go on behind a zero is read in decimal. -/
theorem basedDigits_of_decimal {cs : List Char} (h : cs.head? = some '0' → cs.length = 1) :
    Reader.basedDigits cs = (10, cs) := by
  unfold Reader.basedDigits
  split
  · simp at h
  · simp at h
  · simp at h
  · rfl

theorem natural?_eq_some_iff {cs : List Char} {n : Nat} :
    Reader.natural? cs = some n ↔ Magnitude cs n := by
  constructor
  · intro h
    simp only [Reader.natural?] at h
    split_ifs at h with hne hzero
    unfold Reader.basedDigits at *
    split at h
    · exact .based (by simp) (by simpa using hne) h
    · exact .based (by simp) (by simpa using hne) h
    · exact .based (by simp) (by simpa using hne) h
    · rename_i hx ho hb
      have hlong : cs.head? = some '0' → cs.length = 1 := by
        intro hhead
        have hle : ¬ 1 < cs.length := fun hlt => hzero (by simp [hlt, hhead])
        have hpos : cs.length ≠ 0 := by simpa using hne
        omega
      exact .decimal (by simpa using hne) hlong h
  · intro h
    cases h with
    | decimal hne hzero h =>
      have hlong : ¬ (1 < cs.length ∧ cs.head? = some '0') := by
        rintro ⟨hlength, hhead⟩
        rw [hzero hhead] at hlength
        exact Nat.lt_irrefl 1 hlength
      simp [Reader.natural?, basedDigits_of_decimal hzero, hne, hlong, h]
    | based hbase hne h =>
      simp only [List.mem_cons, Prod.mk.injEq, List.not_mem_nil, or_false] at hbase
      rcases hbase with ⟨rfl, rfl⟩ | ⟨rfl, rfl⟩ | ⟨rfl, rfl⟩
      all_goals simp [Reader.natural?, Reader.basedDigits, hne, h]

/-- A sign says what becomes of the number behind it. -/
theorem signed_eq_some_iff {sign : Int → Int} {o : Option Nat} {i : Int} :
    (do let n ← o; pure (n : Int)).map sign = some i ↔ ∃ n : Nat, o = some n ∧ sign n = i := by
  cases o with
  | none => simp
  | some n => simp

/-- A sign is no digit. -/
theorem Magnitude.head?_ne {cs : List Char} {n : Nat} (h : Magnitude cs n) {c : Char}
    (hc : c = '-' ∨ c = '+') : cs.head? ≠ some c := by
  cases h with
  | decimal hne hzero h =>
    intro hhead
    obtain ⟨cs, rfl⟩ := List.head?_eq_some_iff.mp hhead
    have hdigit : Digits.ofChar? 10 c = none := by
      rcases hc with rfl | rfl <;> decide
    simp [Digits.ofChars?, hdigit] at h
  | based hbase hne h =>
    rcases hc with rfl | rfl <;> simp

theorem integer?_eq_some_iff {cs : List Char} {i : Int} :
    Reader.integer? cs = some i ↔ Numeral cs i := by
  constructor
  · intro h
    unfold Reader.integer? at h
    split at h
    all_goals
      obtain ⟨n, hn, rfl⟩ := signed_eq_some_iff.mp h
      rw [natural?_eq_some_iff] at hn
    · exact .minus hn
    · exact .plus hn
    · exact .unsigned hn
  · rintro (h | h | h)
    · unfold Reader.integer?
      split
      · exact absurd rfl (h.head?_ne (.inl rfl))
      · exact absurd rfl (h.head?_ne (.inr rfl))
      · exact signed_eq_some_iff.mpr ⟨_, natural?_eq_some_iff.mpr h, rfl⟩
    · exact signed_eq_some_iff.mpr ⟨_, natural?_eq_some_iff.mpr h, rfl⟩
    · exact signed_eq_some_iff.mpr ⟨_, natural?_eq_some_iff.mpr h, rfl⟩

/-! ## Nodes -/

/-- A node says a text: it stands for a scalar of that text. -/
inductive SaysText (d : Document) (n : Node) : String → Prop
  | scalar {s : Scalar} (h : d.resolve n = some (.scalar s)) : SaysText d n s.text

/-- A node says a text that may be missing. -/
inductive SaysOptional (d : Document) (n : Node) : Option String → Prop
  | missing {s : Scalar} (h : d.resolve n = some (.scalar s)) (hs : s.SaysNone) :
    SaysOptional d n none
  | given {s : Scalar} (h : d.resolve n = some (.scalar s)) (hs : s.SaysSome) :
    SaysOptional d n (some s.text)

/-- A node says a truth value. -/
inductive SaysTruth (d : Document) (n : Node) : Bool → Prop
  | yes {s : Scalar} (h : d.resolve n = some (.scalar s)) (htyped : s.Typed "bool")
    (htext : s.text ∈ ["true", "True", "TRUE"]) : SaysTruth d n true
  | no {s : Scalar} (h : d.resolve n = some (.scalar s)) (htyped : s.Typed "bool")
    (htext : s.text ∈ ["false", "False", "FALSE"]) : SaysTruth d n false

/-- A node says a number from -128 to 127. -/
inductive SaysSmall (d : Document) (n : Node) : Int → Prop
  | number {s : Scalar} {i : Int} (h : d.resolve n = some (.scalar s)) (htyped : s.Typed "int")
    (htext : Numeral s.text.toList i) (hleast : -128 ≤ i) (hmost : i ≤ 127) : SaysSmall d n i

namespace Reader

variable {d : Document} {n : Node}

theorem scalar_eq_some_iff {s : Scalar} : scalar d n = some s ↔ d.resolve n = some (.scalar s) := by
  unfold scalar
  split
  · rename_i s' h
    simp [h]
  · rename_i h
    simp only [reduceCtorEq, false_iff]
    exact h s

theorem text_eq_some_iff {t : String} : text d n = some t ↔ SaysText d n t := by
  constructor
  · intro h
    obtain ⟨s, hs, rfl⟩ := Option.map_eq_some_iff.mp h
    exact .scalar (scalar_eq_some_iff.mp hs)
  · rintro ⟨h⟩
    exact Option.map_eq_some_iff.mpr ⟨_, scalar_eq_some_iff.mpr h, rfl⟩

theorem optionalText_eq_some_iff {o : Option String} :
    optionalText d n = some o ↔ SaysOptional d n o := by
  constructor
  · intro h
    obtain ⟨s, hs, h⟩ := Option.bind_eq_some_iff.mp h
    obtain ⟨missing, hmissing, h⟩ := Option.bind_eq_some_iff.mp h
    rw [scalar_eq_some_iff] at hs
    cases missing with
    | true =>
      cases h
      exact .missing hs (Scalar.isNull_eq_true_iff.mp hmissing)
    | false =>
      cases h
      exact .given hs (Scalar.isNull_eq_false_iff.mp hmissing)
  · rintro (⟨h, hs⟩ | ⟨h, hs⟩)
    · simp [optionalText, scalar_eq_some_iff.mpr h, Scalar.isNull_eq_true_iff.mpr hs]
    · simp [optionalText, scalar_eq_some_iff.mpr h, Scalar.isNull_eq_false_iff.mpr hs]

theorem boolean_eq_some_iff {b : Bool} : boolean d n = some b ↔ SaysTruth d n b := by
  constructor
  · intro h
    obtain ⟨s, hs, h⟩ := Option.bind_eq_some_iff.mp h
    rw [scalar_eq_some_iff] at hs
    split_ifs at h with htyped hyes hno
    · cases h
      exact .yes hs (Scalar.isTyped_iff.mp (by simpa using htyped)) (List.contains_iff_mem.mp hyes)
    · cases h
      exact .no hs (Scalar.isTyped_iff.mp (by simpa using htyped)) (List.contains_iff_mem.mp hno)
  · rintro (⟨h, htyped, htext⟩ | ⟨h, htyped, htext⟩)
    all_goals
      simp only [List.mem_cons, List.not_mem_nil, or_false] at htext
      rcases htext with htext | htext | htext
      all_goals
        simp [boolean, scalar_eq_some_iff.mpr h, Scalar.isTyped_iff.mpr htyped, htext]

theorem smallInteger_eq_some_iff {i : Int} : smallInteger d n = some i ↔ SaysSmall d n i := by
  constructor
  · intro h
    obtain ⟨s, hs, h⟩ := Option.bind_eq_some_iff.mp h
    rw [scalar_eq_some_iff] at hs
    split_ifs at h with htyped
    obtain ⟨i', hi, h⟩ := Option.bind_eq_some_iff.mp h
    split_ifs at h with hrange
    cases h
    exact .number hs (Scalar.isTyped_iff.mp htyped) (integer?_eq_some_iff.mp hi) hrange.1 hrange.2
  · rintro ⟨h, htyped, htext, hleast, hmost⟩
    simp [smallInteger, scalar_eq_some_iff.mpr h, Scalar.isTyped_iff.mpr htyped,
      integer?_eq_some_iff.mpr htext, hleast, hmost]

end Reader

end PayeeProposal.Yaml
