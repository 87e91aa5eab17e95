/-!
# Digits in a base

A number as the list of its digits, least significant first, and back, and the characters that
write digits. `value_digits` says that the digits denote the number when enough places are
allowed.
-/

namespace PayeeProposal.Digits

/-- The digits of `n` in base `b`, least significant first, without a leading zero and in at
most the given number of places. -/
def digits (b : Nat) : Nat → Nat → List Nat
  | 0, _ => []
  | places + 1, n => if n = 0 then [] else n % b :: digits b places (n / b)

/-- The number that a list of digits denotes in base `b`. -/
def value (b : Nat) : List Nat → Nat
  | [] => 0
  | d :: ds => d + b * value b ds

/-- The value of a digit character, letters of either case standing for ten and more, if it is
below the base. -/
def ofChar? (b : Nat) (c : Char) : Option Nat :=
  let value :=
    if c.isDigit then c.toNat - 48
    else if 'a' ≤ c ∧ c ≤ 'z' then c.toNat - 87
    else if 'A' ≤ c ∧ c ≤ 'Z' then c.toNat - 55
    else b
  if value < b then some value else none

/-- The number that digit characters write, most significant first. -/
def ofChars? (b : Nat) (cs : List Char) : Option Nat :=
  (cs.mapM (ofChar? b)).map fun ds => value b ds.reverse

@[simp] theorem value_nil (b : Nat) : value b [] = 0 := rfl

@[simp] theorem value_cons (b d : Nat) (ds : List Nat) :
    value b (d :: ds) = d + b * value b ds := rfl

@[simp] theorem digits_zero (b places : Nat) : digits b places 0 = [] := by
  cases places <;> rfl

theorem value_digits {b : Nat} (places n : Nat) (h : n < Nat.pow b places) :
    value b (digits b places n) = n := by
  induction places generalizing n with
  | zero => simp [Nat.pow] at h; simp [h, digits]
  | succ places ih =>
    unfold digits
    by_cases hn : n = 0
    · simp [hn]
    · have hlt : n / b < Nat.pow b places := by
        apply Nat.div_lt_of_lt_mul
        have hw : n < Nat.pow b places * b := h
        rwa [Nat.mul_comm] at hw
      simp only [hn, ↓reduceIte, value_cons, ih _ hlt]
      exact Nat.mod_add_div n b

theorem lt_of_mem_digits {b places n d : Nat} (hb : 0 < b) (h : d ∈ digits b places n) : d < b := by
  induction places generalizing n with
  | zero => simp [digits] at h
  | succ places ih =>
    unfold digits at h
    split at h
    · simp at h
    · rcases List.mem_cons.mp h with rfl | h
      · exact Nat.mod_lt _ hb
      · exact ih h

end PayeeProposal.Digits
