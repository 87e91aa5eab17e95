/-!
# Blank text

The characters that count as white space around an argument, and the text left when they are
taken off both ends. A text is blank when nothing is left.
-/

namespace PayeeProposal.Text

/-- The characters with the Unicode property `White_Space`. -/
def isBlank (c : Char) : Bool :=
  let n := c.toNat
  (0x09 ≤ n && n ≤ 0x0d) || n == 0x20 || n == 0x85 || n == 0xa0 || n == 0x1680 ||
    (0x2000 ≤ n && n ≤ 0x200a) || n == 0x2028 || n == 0x2029 || n == 0x202f || n == 0x205f ||
    n == 0x3000

/-- Takes the blanks off the front. -/
def trimLeft (cs : List Char) : List Char :=
  cs.dropWhile isBlank

/-- Takes the blanks off the end. -/
def trimRight (cs : List Char) : List Char :=
  (trimLeft cs.reverse).reverse

/-- The text without the blanks at its two ends. -/
def trim (s : String) : String :=
  String.ofList (trimRight (trimLeft s.toList))

/-- Whether a text holds nothing but blanks. -/
def allBlank (s : String) : Bool :=
  s.toList.all isBlank

/-- The text, unless it is blank. -/
def unlessBlank (s : String) : Option String :=
  if allBlank s then none else some s

/-- The text with each ASCII capital in lower case and every other character as it stands. -/
def lowerAscii (s : String) : String :=
  String.ofList (s.toList.map Char.toLower)

@[simp] theorem trimLeft_nil : trimLeft [] = [] := rfl

theorem trimLeft_cons (c : Char) (cs : List Char) :
    trimLeft (c :: cs) = if isBlank c then trimLeft cs else c :: cs := by
  unfold trimLeft
  rw [List.dropWhile_cons]

theorem trimLeft_eq_nil_iff {cs : List Char} : trimLeft cs = [] ↔ ∀ c ∈ cs, isBlank c := by
  induction cs with
  | nil => simp
  | cons c cs ih =>
    rw [trimLeft_cons]
    by_cases h : isBlank c <;> simp [h, ih]

theorem trimLeft_append_of_blank {pad cs : List Char} (h : ∀ c ∈ pad, isBlank c) :
    trimLeft (pad ++ cs) = trimLeft cs := by
  induction pad with
  | nil => rfl
  | cons c pad ih =>
    rw [List.cons_append, trimLeft_cons, if_pos (h c (by simp))]
    exact ih fun d hd => h d (by simp [hd])

theorem trimLeft_of_head {c : Char} {cs : List Char} (h : isBlank c = false) :
    trimLeft (c :: cs) = c :: cs := by
  simp [trimLeft_cons, h]

end PayeeProposal.Text
