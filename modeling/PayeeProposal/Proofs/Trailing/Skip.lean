import Mathlib.Data.List.TakeWhile
import PayeeProposal.Proofs.Skipping
import PayeeProposal.Proofs.Trailing.Text

/-!
# Space behind a value that is passed over

Digits end where space begins, and a list or object is not closed by space, so a value is passed
over alike with and without space behind it. The walk over a value is given more steps where more
text is left; more steps than enough make no difference.
-/

namespace PayeeProposal.Json

variable {pad : List Char} {n : Nat}

/-! ## Numbers -/

theorem Spaces.ends (hpad : Spaces pad) : Ends pad := by
  have hends := Ends.append hpad ends_nil
  rwa [List.append_nil] at hends

theorem Spaces.head?_ne (hpad : Spaces pad) {k : Char} (hk : isSpace k = false) :
    pad.head? ≠ some k := by
  cases pad with
  | nil => simp
  | cons c pad => simpa using ne_of_spaces hpad hk

theorem noFigure_append_spaces (hpad : Spaces pad) {s : List Char} (hs : NoFigure s) :
    NoFigure (s ++ pad) := by
  cases s with
  | nil => exact hpad.ends.noFigure
  | cons c s => exact noFigure_cons (hs c rfl) _

/-- Digits end where space begins. -/
theorem spanDigits_append_spaces (hpad : Spaces pad) (s : List Char) :
    spanDigits (s ++ pad) = ((spanDigits s).1, (spanDigits s).2 ++ pad) := by
  have hstop : NoFigure (s.dropWhile Char.isDigit) := by
    intro c hc
    have hnot := List.head?_dropWhile_not Char.isDigit s
    rwa [hc] at hnot
  have hdigits : ∀ d ∈ s.takeWhile Char.isDigit, d.isDigit = true :=
    fun _ => List.mem_takeWhile_imp
  have hspan := spanDigits_append hdigits (noFigure_append_spaces hpad hstop)
  rwa [← List.append_assoc, List.takeWhile_append_dropWhile] at hspan

theorem length_spanDigits_le (s : List Char) : (spanDigits s).2.length ≤ s.length :=
  List.length_dropWhile_le _ _

/-- What is left behind digits, of which there must be one. -/
def afterDigits (s : List Char) : Except Failure (List Char) :=
  match spanDigits s with
  | ([], _) => .error .malformed
  | (_, r) => .ok r

theorem afterDigits_alike (hpad : Spaces pad) {s : List Char} (hs : s.length < n) :
    Leaves pad n (afterDigits s) (afterDigits (s ++ pad)) := by
  have hle := length_spanDigits_le s
  rw [afterDigits, afterDigits, spanDigits_append_spaces hpad]
  cases hds : spanDigits s with
  | mk ds r =>
    rw [hds] at hle
    cases ds with
    | nil => exact .error _ _
    | cons d ds => exact .ok (Nat.lt_of_le_of_lt hle hs)

theorem skipExponent_unsigned {s : List Char} (hplus : s.head? ≠ some '+')
    (hminus : s.head? ≠ some '-') : skipExponent s = afterDigits s := by
  rw [skipExponent]
  · rfl
  · rintro r rfl
    exact hplus rfl
  · rintro r rfl
    exact hminus rfl

theorem skipExponent_alike (hpad : Spaces pad) {s : List Char} (hs : s.length < n) :
    Leaves pad n (skipExponent s) (skipExponent (s ++ pad)) := by
  cases s with
  | nil =>
    rw [List.nil_append, skipExponent_unsigned (hpad.head?_ne rfl) (hpad.head?_ne rfl)]
    exact afterDigits_alike hpad hs
  | cons c s =>
    have hlt : s.length < n := Nat.lt_of_succ_lt hs
    by_cases hplus : c = '+'
    · subst hplus
      exact afterDigits_alike hpad hlt
    by_cases hminus : c = '-'
    · subst hminus
      exact afterDigits_alike hpad hlt
    rw [List.cons_append, skipExponent_unsigned (by simpa using hplus) (by simpa using hminus),
      skipExponent_unsigned (by simpa using hplus) (by simpa using hminus)]
    exact afterDigits_alike hpad hs

/-- What is left behind an exponent, or where there is none. -/
def afterExponent : List Char → Except Failure (List Char)
  | 'e' :: r | 'E' :: r => skipExponent r
  | s => .ok s

theorem afterExponent_absent {s : List Char} (hlower : s.head? ≠ some 'e')
    (hupper : s.head? ≠ some 'E') : afterExponent s = .ok s := by
  rw [afterExponent]
  · rintro r rfl
    exact hlower rfl
  · rintro r rfl
    exact hupper rfl

theorem afterExponent_alike (hpad : Spaces pad) {s : List Char} (hs : s.length < n) :
    Leaves pad n (afterExponent s) (afterExponent (s ++ pad)) := by
  cases s with
  | nil =>
    rw [List.nil_append, afterExponent_absent (hpad.head?_ne rfl) (hpad.head?_ne rfl)]
    exact .ok hs
  | cons c s =>
    have hlt : s.length < n := Nat.lt_of_succ_lt hs
    by_cases hlower : c = 'e'
    · subst hlower
      exact skipExponent_alike hpad hlt
    by_cases hupper : c = 'E'
    · subst hupper
      exact skipExponent_alike hpad hlt
    rw [List.cons_append, afterExponent_absent (by simpa using hlower) (by simpa using hupper),
      afterExponent_absent (by simpa using hlower) (by simpa using hupper)]
    exact .ok hs

theorem skipNumberRest_point (s : List Char) :
    skipNumberRest ('.' :: s) = afterDigits s >>= afterExponent := by
  rw [skipNumberRest, afterDigits]
  cases spanDigits s with
  | mk ds r =>
    cases ds with
    | nil => rfl
    | cons d ds =>
      simp only [bind, Except.bind, afterExponent]
      split <;> simp_all

theorem skipNumberRest_pointless {s : List Char} (h : s.head? ≠ some '.') :
    skipNumberRest s = afterExponent s := by
  unfold skipNumberRest afterExponent
  split <;> simp_all

theorem skipNumberRest_alike (hpad : Spaces pad) {s : List Char} (hs : s.length < n) :
    Leaves pad n (skipNumberRest s) (skipNumberRest (s ++ pad)) := by
  cases s with
  | nil =>
    rw [List.nil_append, skipNumberRest_of_ends hpad.ends]
    exact .ok hs
  | cons c s =>
    by_cases hpoint : c = '.'
    · subst hpoint
      rw [List.cons_append, skipNumberRest_point, skipNumberRest_point]
      exact (afterDigits_alike hpad (Nat.lt_of_succ_lt hs)).bind fun r => afterExponent_alike hpad
    · rw [List.cons_append, skipNumberRest_pointless (by simpa using hpoint),
        skipNumberRest_pointless (by simpa using hpoint)]
      exact afterExponent_alike hpad hs

theorem skipUnsigned_noFigure {s : List Char} (h : NoFigure s) :
    skipUnsigned s = .error .malformed := by
  cases s with
  | nil => rfl
  | cons c s =>
    have hc : c.isDigit = false := h c rfl
    rw [skipUnsigned, hc, if_neg (by simp)]
    rintro rfl
    cases hc

theorem skipUnsigned_zero {s : List Char} (h : NoFigure s) :
    skipUnsigned ('0' :: s) = skipNumberRest s := by
  cases s with
  | nil => rfl
  | cons c s => simp only [skipUnsigned, h c rfl, Bool.false_eq_true, if_false]

theorem skipUnsigned_zero_digit {c : Char} (h : c.isDigit = true) (s : List Char) :
    skipUnsigned ('0' :: c :: s) = .error .malformed := by
  simp only [skipUnsigned, h, if_true]

theorem skipUnsigned_digit {c : Char} (h : c.isDigit = true) (hzero : c ≠ '0') (s : List Char) :
    skipUnsigned (c :: s) = skipNumberRest (spanDigits s).2 := by
  rw [skipUnsigned]
  · rw [if_pos h, List.dropWhile_cons_of_pos h]
    rfl
  · exact hzero

theorem skipUnsigned_alike (hpad : Spaces pad) {s : List Char} (hs : s.length ≤ n) :
    Leaves pad n (skipUnsigned s) (skipUnsigned (s ++ pad)) := by
  match s with
  | [] =>
    rw [List.nil_append, skipUnsigned_noFigure hpad.ends.noFigure]
    exact .error _ _
  | c :: s =>
    have hlt : s.length < n := hs
    by_cases hzero : c = '0'
    · subst hzero
      match s with
      | [] =>
        rw [List.cons_append, List.nil_append, skipUnsigned_zero hpad.ends.noFigure]
        exact skipNumberRest_alike (s := []) hpad hlt
      | d :: s =>
        by_cases hd : d.isDigit
        · rw [List.cons_append, List.cons_append, skipUnsigned_zero_digit hd,
            skipUnsigned_zero_digit hd]
          exact .error _ _
        · have hstop : d.isDigit = false := by simpa using hd
          rw [List.cons_append, List.cons_append, skipUnsigned_zero (noFigure_cons hstop _),
            skipUnsigned_zero (noFigure_cons hstop _)]
          exact skipNumberRest_alike (s := d :: s) hpad hlt
    · by_cases hc : c.isDigit
      · rw [List.cons_append, skipUnsigned_digit hc hzero, skipUnsigned_digit hc hzero,
          spanDigits_append_spaces hpad]
        exact skipNumberRest_alike hpad (Nat.lt_of_le_of_lt (length_spanDigits_le s) hlt)
      · have hstop : c.isDigit = false := by simpa using hc
        rw [List.cons_append, skipUnsigned_noFigure (noFigure_cons hstop _),
          skipUnsigned_noFigure (noFigure_cons hstop _)]
        exact .error _ _

/-! ## Passing over -/

theorem skipScalar_alike (hpad : Spaces pad) (c : Char) {s : List Char} (hs : s.length < n) :
    Leaves pad n (skipScalar (c :: s)) (skipScalar (c :: (s ++ pad))) := by
  by_cases hnull : c = 'n'
  · subst hnull
    exact keyword_alike hpad (by simp [isSpace]) hs
  by_cases htrue : c = 't'
  · subst htrue
    exact keyword_alike hpad (by simp [isSpace]) hs
  by_cases hfalse : c = 'f'
  · subst hfalse
    exact keyword_alike hpad (by simp [isSpace]) hs
  by_cases hminus : c = '-'
  · subst hminus
    exact skipUnsigned_alike hpad (Nat.le_of_lt hs)
  by_cases hquote : c = '\x22'
  · subst hquote
    exact skipText_alike hpad (Nat.le_of_lt hs)
  by_cases hdigit : c.isDigit
  · rw [skipScalar_of_isDigit hdigit, skipScalar_of_isDigit hdigit]
    exact skipUnsigned_alike (s := c :: s) hpad hs
  · have herror (r : List Char) : skipScalar (c :: r) = .error .malformed := by
      rw [skipScalar, if_neg hdigit]
      all_goals assumption
    rw [herror, herror]
    exact .error _ _

theorem skipName_alike (hpad : Spaces pad) {s : List Char} (hs : s.length ≤ n) :
    Leaves pad n (skipName s) (skipName (s ++ pad)) := by
  rcases skipSpace_cases hpad s with ⟨h, h'⟩ | ⟨c, r, h, h', hr⟩
  · simp only [skipName, h, h']
    exact .error _ _
  by_cases hquote : c = '\x22'
  · subst hquote
    simp only [skipName, h, h']
    refine (skipText_alike hpad (Nat.le_refl r.length)).bind fun t ht => ?_
    rcases skipSpace_cases hpad t with ⟨h, h'⟩ | ⟨d, u, h, h', hu⟩
    · simp only [h, h']
      exact .error _ _
    by_cases hcolon : d = ':'
    · subst hcolon
      simp only [h, h']
      exact .ok (by omega)
    · simp only [h, h', List.cons.injEq, hcolon, false_and, imp_self, implies_true]
      exact .error _ _
  · simp only [skipName, h, h', List.cons.injEq, hquote, false_and, imp_self, implies_true]
    exact .error _ _

theorem enter_alike (hpad : Spaces pad) (frame : Frame) {s : List Char} (hs : s.length < n) :
    Leaves pad n (frame.enter s) (frame.enter (s ++ pad)) := by
  cases frame with
  | list => exact .ok hs
  | object => exact skipName_alike hpad (Nat.le_of_lt hs)

/-! ### The walk, once its first character is known -/

theorem walk_scalar {s r : List Char} {c : Char} (h : skipSpace s = c :: r) (hlist : c ≠ '[')
    (hobject : c ≠ '\x7b') (k : Nat) (frames : List Frame) :
    walk (k + 1) .value frames s = skipScalar (c :: r) >>= walk k .ended frames := by
  simp only [walk, h, List.cons.injEq, hlist, hobject, false_and, imp_self, implies_true]
  cases skipScalar (c :: r) <;> rfl

theorem walk_first {frame : Frame} {s r : List Char} {c : Char} (h : skipSpace s = c :: r)
    (hclose : c ≠ frame.close) (k : Nat) (frames : List Frame) :
    walk (k + 1) .opened (frame :: frames) s =
      frame.enter (c :: r) >>= walk k .value (frame :: frames) := by
  simp only [walk, h, if_neg hclose]
  cases frame.enter (c :: r) <;> rfl

theorem walk_next {frame : Frame} {s r : List Char} (h : skipSpace s = ',' :: r) (k : Nat)
    (frames : List Frame) :
    walk (k + 1) .ended (frame :: frames) s =
      frame.enter r >>= walk k .value (frame :: frames) := by
  simp only [walk, h, if_neg (close_ne_comma frame).symm, if_true]
  cases frame.enter r <;> rfl

/-- How many steps a walk over a text of some length may take. -/
def Stage.steps (stage : Stage) (length : Nat) : Nat :=
  match stage with
  | .opened => 2 * length + 2
  | .value | .ended => 2 * length + 1

/-- However many steps more than enough a walk may take, with space behind the text it comes as
far as without. -/
theorem walk_alike (hpad : Spaces pad) (stage : Stage) (frames : List Frame) {s : List Char}
    (hs : s.length < n) {k k' : Nat} (hk : stage.steps s.length ≤ k)
    (hk' : stage.steps (s.length + pad.length) ≤ k') :
    Leaves pad n (walk k stage frames s) (walk k' stage frames (s ++ pad)) := by
  -- each step leaves enough for the text that it leaves
  induction k generalizing k' stage frames s with
  | zero => cases stage <;> simp [Stage.steps] at hk
  | succ k ih =>
    obtain ⟨k', rfl⟩ : ∃ l, k' = l + 1 := by
      cases k' with
      | zero => cases stage <;> simp [Stage.steps] at hk'
      | succ k' => exact ⟨k', rfl⟩
    have henter (frame : Frame) (frames : List Frame) {t : List Char} (ht : t.length < n)
        (htk : 2 * t.length < k) (htk' : 2 * (t.length + pad.length) < k') :
        Leaves pad n (frame.enter t >>= walk k .value (frame :: frames))
          (frame.enter (t ++ pad) >>= walk k' .value (frame :: frames)) := by
      refine (enter_alike hpad frame (Nat.lt_succ_self t.length)).bind fun r hr => ?_
      exact ih .value _ (by omega) (by simp only [Stage.steps]; omega)
        (by simp only [Stage.steps]; omega)
    rcases skipSpace_cases hpad s with ⟨h, h'⟩ | ⟨c, r, h, h', hr⟩
    · cases stage with
      | value => simp only [walk, h, h', skipScalar]; exact .error _ _
      | opened =>
        cases frames with
        | nil => exact .ok hs
        | cons frame frames => simp only [walk, h, h']; exact .error _ _
      | ended =>
        cases frames with
        | nil => exact .ok hs
        | cons frame frames => simp only [walk, h, h']; exact .error _ _
    cases stage with
    | value =>
      simp only [Stage.steps] at hk hk'
      by_cases hlist : c = '['
      · subst hlist
        simp only [walk, h, h']
        exact ih .opened _ (by omega) (by simp only [Stage.steps]; omega)
          (by simp only [Stage.steps]; omega)
      by_cases hobject : c = '\x7b'
      · subst hobject
        simp only [walk, h, h']
        exact ih .opened _ (by omega) (by simp only [Stage.steps]; omega)
          (by simp only [Stage.steps]; omega)
      rw [walk_scalar h hlist hobject, walk_scalar h' hlist hobject]
      refine (skipScalar_alike hpad c (Nat.lt_succ_self r.length)).bind fun t ht => ?_
      exact ih .ended _ (by omega) (by simp only [Stage.steps]; omega)
        (by simp only [Stage.steps]; omega)
    | opened =>
      cases frames with
      | nil => exact .ok hs
      | cons frame frames =>
        simp only [Stage.steps] at hk hk'
        by_cases hclose : c = frame.close
        · simp only [walk, h, h', if_pos hclose]
          exact ih .ended _ (by omega) (by simp only [Stage.steps]; omega)
            (by simp only [Stage.steps]; omega)
        · rw [walk_first h hclose, walk_first h' hclose]
          exact henter frame frames (t := c :: r) (by simp; omega) (by simp; omega)
            (by simp; omega)
    | ended =>
      cases frames with
      | nil => exact .ok hs
      | cons frame frames =>
        simp only [Stage.steps] at hk hk'
        by_cases hclose : c = frame.close
        · simp only [walk, h, h', if_pos hclose]
          exact ih .ended _ (by omega) (by simp only [Stage.steps]; omega)
            (by simp only [Stage.steps]; omega)
        by_cases hcomma : c = ','
        · subst hcomma
          rw [walk_next h, walk_next h']
          exact henter frame frames (by omega) (by omega) (by omega)
        · simp only [walk, h, h', if_neg hclose, if_neg hcomma]
          exact .error _ _

theorem skipValue_alike (hpad : Spaces pad) {s : List Char} (hs : s.length < n) :
    Leaves pad n (skipValue s) (skipValue (s ++ pad)) := by
  apply walk_alike hpad .value [] hs
  · simp only [Stage.steps]
    omega
  · simp only [Stage.steps, List.length_append]
    omega

end PayeeProposal.Json
