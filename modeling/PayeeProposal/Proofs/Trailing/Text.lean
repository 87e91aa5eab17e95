import PayeeProposal.Json.Text
import PayeeProposal.Proofs.Letters

/-!
# Space behind a text

Space behind a text changes nothing in what is read of the text: either something is read with and
without the space, and the space is left over with the rest, or nothing is read either way. This
holds of any text, whether it follows the grammar or not. Only the reason for a failure may differ,
since a text that ends too early without the space goes on with it, though to no avail.

Keywords and strings come first: no keyword has space in it, and the space that a string may have
does not end the string.
-/

namespace PayeeProposal.Json

section Outcomes

variable {α β : Type} {grow : α → α} {small : α → Prop} {grow' : β → β} {small' : β → Prop}

/-- Two outcomes are alike when both are failures, or when the one is something small and the other
what it grows to. -/
inductive Alike (grow : α → α) (small : α → Prop) :
    Except Failure α → Except Failure α → Prop
  | ok {a : α} (h : small a) : Alike grow small (.ok a) (.ok (grow a))
  | error (e e' : Failure) : Alike grow small (.error e) (.error e')

theorem Alike.cases {x y : Except Failure α} (h : Alike grow small x y) :
    (∃ a, small a ∧ x = .ok a ∧ y = .ok (grow a)) ∨ ∃ e e', x = .error e ∧ y = .error e' := by
  cases h with
  | ok h => exact .inl ⟨_, h, rfl, rfl⟩
  | error e e' => exact .inr ⟨e, e', rfl, rfl⟩

theorem Alike.bind {x y : Except Failure α} (h : Alike grow small x y)
    {f g : α → Except Failure β}
    (hnext : ∀ a, small a → Alike grow' small' (f a) (g (grow a))) :
    Alike grow' small' (x >>= f) (y >>= g) := by
  cases h with
  | ok h => exact hnext _ h
  | error e e' => exact .error e e'

theorem Alike.map {x y : Except Failure α} (h : Alike grow small x y) {f : α → β}
    (hgrow : ∀ a, f (grow a) = grow' (f a)) (hsmall : ∀ a, small a → small' (f a)) :
    Alike grow' small' (x.map f) (y.map f) := by
  cases h with
  | ok h =>
    rw [Except.map, Except.map, hgrow]
    exact .ok (hsmall _ h)
  | error e e' => exact .error e e'

/-- Less than some number of characters is left, and the pad behind it. -/
def Leaves (pad : List Char) (n : Nat) :
    Except Failure (List Char) → Except Failure (List Char) → Prop :=
  Alike (· ++ pad) (·.length < n)

/-- Something is read, less than some number of characters is left, and the pad behind it. -/
def Gives (pad : List Char) (n : Nat) :
    Except Failure (α × List Char) → Except Failure (α × List Char) → Prop :=
  Alike (fun p => (p.1, p.2 ++ pad)) (·.2.length < n)

end Outcomes

/-- A reader reads the same of a text with and without space behind it. -/
def Indifferent {α : Type} (reader : Reader α) : Prop :=
  ∀ pad, Spaces pad → ∀ s n, s.length ≤ n → Gives pad n (reader s) (reader (s ++ pad))

variable {pad : List Char} {n : Nat}

/-! ## Space and keywords -/

/-- Where the space in front ends, with and without space behind: at the end of the text, or at the
same character. -/
theorem skipSpace_cases (hpad : Spaces pad) (s : List Char) :
    (skipSpace s = [] ∧ skipSpace (s ++ pad) = []) ∨
      ∃ c r, skipSpace s = c :: r ∧ skipSpace (s ++ pad) = c :: (r ++ pad) ∧
        r.length < s.length := by
  induction s with
  | nil =>
    have hskip := skipSpace_append hpad []
    rw [List.append_nil] at hskip
    exact .inl ⟨rfl, hskip⟩
  | cons c s ih =>
    rw [List.cons_append, skipSpace_cons, skipSpace_cons]
    split
    · rcases ih with h | ⟨d, r, hs, hs', hlength⟩
      · exact .inl h
      · exact .inr ⟨d, r, hs, hs', by simp; omega⟩
    · exact .inr ⟨c, s, rfl, rfl, by simp⟩

theorem ne_of_spaces {c k : Char} {s : List Char} (h : Spaces (c :: s)) (hk : isSpace k = false) :
    c ≠ k := by
  rintro rfl
  rw [h c (by simp)] at hk
  cases hk

theorem keyword_alike (hpad : Spaces pad) {ks : List Char} (hks : ∀ k ∈ ks, isSpace k = false)
    {s : List Char} (hs : s.length < n) :
    Leaves pad n (keyword ks s) (keyword ks (s ++ pad)) := by
  induction ks generalizing s with
  | nil => exact .ok hs
  | cons k ks ih =>
    cases s with
    | nil =>
      cases pad with
      | nil => exact .error _ _
      | cons c pad =>
        rw [List.nil_append, keyword, keyword, if_neg (ne_of_spaces hpad (hks k (by simp)))]
        exact .error _ _
    | cons c s =>
      simp only [List.cons_append, keyword]
      split
      · exact ih (fun k hk => hks k (by simp [hk])) (by simp at hs; omega)
      · exact .error _ _

/-! ## Strings -/

theorem fourBytesLeft_append {s : List Char} (h : fourBytesLeft s = true) (t : List Char) :
    fourBytesLeft (s ++ t) = true := by
  have hle (cs : List Char) (n : Nat) : n ≤ cs.foldl (fun n c => n + c.utf8Size) n := by
    induction cs generalizing n with
    | nil => exact Nat.le_refl n
    | cons c cs ih => exact Nat.le_trans (Nat.le_add_right n _) (ih _)
  simp only [fourBytesLeft, decide_eq_true_eq] at h ⊢
  rw [List.take_append, List.foldl_append]
  exact Nat.le_trans h (hle _ _)

theorem length_lt_of_fourBytesLeft {s : List Char} (h : fourBytesLeft s = false) :
    s.length < 4 := by
  match s with
  | [] | [_] | [_, _] | [_, _, _] => simp
  | a :: b :: c :: d :: s => simp [fourBytesLeft_cons] at h

theorem ofChar?_space {c : Char} (h : isSpace c = true) : Digits.ofChar? 16 c = none := by
  simp only [isSpace, Bool.or_eq_true, beq_iff_eq] at h
  rcases h with ((rfl | rfl) | rfl) | rfl <;> decide

theorem unescape?_space {c : Char} (h : isSpace c = true) : unescape? c = none := by
  simp only [isSpace, Bool.or_eq_true, beq_iff_eq] at h
  rcases h with ((rfl | rfl) | rfl) | rfl <;> decide

/-- A string does not end in space alone. -/
theorem textFrom_spaces (hpad : Spaces pad) (pending : Pending) (acc : List Char) :
    ∃ e, textFrom pending acc pad = .error e := by
  induction pad generalizing pending acc with
  | nil => exact ⟨.truncated, by rw [textFrom]⟩
  | cons c pad ih =>
    have hc : isSpace c = true := hpad c (by simp)
    have hne {k : Char} (hk : isSpace k = false) : c ≠ k := ne_of_spaces hpad hk
    cases pending with
    | nothing =>
      rw [textFrom, if_neg (hne rfl), if_neg (hne rfl)]
      split
      · exact ⟨_, rfl⟩
      · exact ih (fun d hd => hpad d (by simp [hd])) _ _
    | letter =>
      simp only [textFrom, if_neg (hne (k := 'u') rfl), unescape?_space hc]
      exact ⟨_, rfl⟩
    | digits more unit high =>
      simp only [textFrom, ofChar?_space hc]
      exact ⟨_, rfl⟩
    | backslash high =>
      rw [textFrom, if_neg (hne rfl)]
      exact ⟨_, rfl⟩
    | partner high =>
      rw [textFrom, if_neg (hne rfl)]
      exact ⟨_, rfl⟩

/-- Space is no digit, so it does not help where digits are lacking. -/
theorem textFrom_lacking (hpad : Spaces pad) {more : Nat} {s : List Char} (h : s.length ≤ more)
    (unit : Nat) (high : Option Nat) (acc : List Char) :
    ∃ e, textFrom (.digits more unit high) acc (s ++ pad) = .error e := by
  induction s generalizing more unit with
  | nil => exact textFrom_spaces hpad _ acc
  | cons c s ih =>
    obtain ⟨more, rfl⟩ := Nat.exists_eq_add_of_lt (Nat.lt_of_lt_of_le (Nat.succ_pos _) h)
    rw [Nat.zero_add] at h ⊢
    cases hv : Digits.ofChar? 16 c with
    | none => exact ⟨.malformed, by simp only [List.cons_append, textFrom, hv]⟩
    | some v =>
      simp only [List.cons_append, textFrom, hv]
      exact ih (by simpa using h) _

/-- Where the bytes for a unit are lacking, space may add them, but no digits. -/
theorem unit_alike {α : Type} {grow : α → α} {small : α → Prop} {x y : Except Failure α}
    {s : List Char} (h : Alike grow small x y)
    (hlacking : s.length < 4 → ∃ e, y = .error e) :
    Alike grow small (if fourBytesLeft s then x else .error .truncated)
      (if fourBytesLeft (s ++ pad) then y else .error .truncated) := by
  cases hfour : fourBytesLeft s with
  | true => simpa [fourBytesLeft_append hfour] using h
  | false =>
    obtain ⟨e, rfl⟩ := hlacking (length_lt_of_fourBytesLeft hfour)
    rw [if_neg (by simp)]
    split
    · exact .error _ _
    · exact .error _ _

theorem textFrom_alike (hpad : Spaces pad) (pending : Pending) (acc : List Char) {s : List Char}
    (hs : s.length ≤ n) :
    Gives pad n (textFrom pending acc s) (textFrom pending acc (s ++ pad)) := by
  -- a character leads to the same state either way; only the end of the text is another one
  induction s generalizing pending acc with
  | nil =>
    obtain ⟨e, he⟩ := textFrom_spaces hpad pending acc
    rw [List.nil_append, he, textFrom]
    exact .error _ _
  | cons c s ih =>
    have hlt : s.length < n := hs
    have hrest := fun pending acc => ih pending acc (Nat.le_of_lt hlt)
    cases pending with
    | nothing =>
      simp only [List.cons_append, textFrom]
      split
      · exact .ok hlt
      · split
        · exact hrest _ _
        · split
          · exact .error _ _
          · exact hrest _ _
    | letter =>
      simp only [List.cons_append, textFrom]
      split
      · exact unit_alike (hrest _ _) fun h => textFrom_lacking hpad (Nat.le_of_lt_succ h) 0 _ acc
      · cases unescape? c with
        | none => exact .error _ _
        | some d => exact hrest _ _
    | digits more unit high =>
      cases hv : Digits.ofChar? 16 c with
      | none =>
        simp only [List.cons_append, textFrom, hv]
        exact .error _ _
      | some v =>
        cases more with
        | succ more =>
          simp only [List.cons_append, textFrom, hv]
          exact hrest _ _
        | zero =>
          cases hstep : unitStep (16 * unit + v) high with
          | error e =>
            simp only [List.cons_append, textFrom, hv, hstep]
            exact .error _ _
          | ok step =>
            cases step with
            | inl d =>
              simp only [List.cons_append, textFrom, hv, hstep]
              exact hrest _ _
            | inr pending =>
              simp only [List.cons_append, textFrom, hv, hstep]
              exact hrest _ _
    | backslash high =>
      simp only [List.cons_append, textFrom]
      split
      · exact hrest _ _
      · exact .error _ _
    | partner high =>
      simp only [List.cons_append, textFrom]
      split
      · exact unit_alike (hrest _ _) fun h => textFrom_lacking hpad (Nat.le_of_lt_succ h) 0 _ acc
      · exact .error _ _

theorem text_alike (hpad : Spaces pad) {s : List Char} (hs : s.length ≤ n) :
    Gives pad n (text s) (text (s ++ pad)) :=
  textFrom_alike hpad _ _ hs

/-- A string that is passed over does not end in space alone either. -/
theorem skipTextFrom_spaces (hpad : Spaces pad) (lacking : Lacking) :
    ∃ e, skipTextFrom lacking pad = .error e := by
  induction pad generalizing lacking with
  | nil => exact ⟨.truncated, by rw [skipTextFrom]⟩
  | cons c pad ih =>
    have hc : isSpace c = true := hpad c (by simp)
    have hne {k : Char} (hk : isSpace k = false) : c ≠ k := ne_of_spaces hpad hk
    cases lacking with
    | nothing =>
      rw [skipTextFrom, if_neg (hne rfl), if_neg (hne rfl)]
      split
      · exact ⟨_, rfl⟩
      · exact ih (fun d hd => hpad d (by simp [hd])) _
    | letter => exact ⟨.malformed, by simp [skipTextFrom, hne (k := 'u') rfl, unescape?_space hc]⟩
    | digits more => exact ⟨.malformed, by simp [skipTextFrom, ofChar?_space hc]⟩

theorem skipTextFrom_lacking (hpad : Spaces pad) {more : Nat} {s : List Char}
    (h : s.length ≤ more) : ∃ e, skipTextFrom (.digits more) (s ++ pad) = .error e := by
  induction s generalizing more with
  | nil => exact skipTextFrom_spaces hpad _
  | cons c s ih =>
    obtain ⟨more, rfl⟩ := Nat.exists_eq_add_of_lt (Nat.lt_of_lt_of_le (Nat.succ_pos _) h)
    rw [Nat.zero_add] at h ⊢
    simp only [List.cons_append, skipTextFrom]
    split
    · exact ih (by simpa using h)
    · exact ⟨_, rfl⟩

theorem skipTextFrom_alike (hpad : Spaces pad) (lacking : Lacking) {s : List Char}
    (hs : s.length ≤ n) :
    Leaves pad n (skipTextFrom lacking s) (skipTextFrom lacking (s ++ pad)) := by
  induction s generalizing lacking with
  | nil =>
    obtain ⟨e, he⟩ := skipTextFrom_spaces hpad lacking
    rw [List.nil_append, he, skipTextFrom]
    exact .error _ _
  | cons c s ih =>
    have hlt : s.length < n := hs
    have hrest := fun lacking => ih lacking (Nat.le_of_lt hlt)
    cases lacking with
    | nothing =>
      simp only [List.cons_append, skipTextFrom]
      split
      · exact .ok hlt
      · split
        · exact hrest _
        · split
          · exact .error _ _
          · exact hrest _
    | letter =>
      simp only [List.cons_append, skipTextFrom]
      split
      · exact unit_alike (hrest _) fun h => skipTextFrom_lacking hpad (Nat.le_of_lt_succ h)
      · split
        · exact hrest _
        · exact .error _ _
    | digits more =>
      simp only [List.cons_append, skipTextFrom]
      split
      · cases more with
        | zero => exact hrest _
        | succ more => exact hrest _
      · exact .error _ _

theorem skipText_alike (hpad : Spaces pad) {s : List Char} (hs : s.length ≤ n) :
    Leaves pad n (skipText s) (skipText (s ++ pad)) :=
  skipTextFrom_alike hpad _ hs

end PayeeProposal.Json
