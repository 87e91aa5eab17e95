/-!
# Why a JSON text is refused

A text is read from left to right straight into the value that is wanted, and the first thing
that does not fit decides the failure.
-/

namespace PayeeProposal.Json

/-- Why a text is refused. -/
inductive Failure where
  /-- The text breaks a rule of the grammar, or goes on after its value. -/
  | malformed
  /-- The text follows the grammar so far, but the value is not of the wanted form. -/
  | mistyped
  /-- The text ends too early. -/
  | truncated
deriving DecidableEq, Repr

/-- The usual word for a failure. -/
def Failure.category : Failure → String
  | .malformed => "syntax"
  | .mistyped => "data"
  | .truncated => "eof"

/-- A reader takes a value from the front of a text and gives back the rest. -/
abbrev Reader (α : Type) : Type :=
  List Char → Except Failure (α × List Char)

/-- The four characters that may stand between the parts of a text. -/
def isSpace (c : Char) : Bool :=
  c == ' ' || c == '\n' || c == '\t' || c == '\r'

/-- Drops the spaces at the front. -/
def skipSpace (s : List Char) : List Char :=
  s.dropWhile isSpace

/-- Takes the letters of a keyword off the front. -/
def keyword : List Char → List Char → Except Failure (List Char)
  | [], s => .ok s
  | _ :: _, [] => .error .truncated
  | k :: ks, c :: s => if c = k then keyword ks s else .error .malformed

@[simp] theorem skipSpace_nil : skipSpace [] = [] := rfl

theorem skipSpace_cons (c : Char) (s : List Char) :
    skipSpace (c :: s) = if isSpace c then skipSpace s else c :: s := by
  unfold skipSpace
  rw [List.dropWhile_cons]

theorem skipSpace_append {pad : List Char} (h : ∀ c ∈ pad, isSpace c) (s : List Char) :
    skipSpace (pad ++ s) = skipSpace s := by
  induction pad with
  | nil => rfl
  | cons c pad ih =>
    rw [List.cons_append, skipSpace_cons, if_pos (h c (by simp))]
    exact ih fun d hd => h d (by simp [hd])

@[simp] theorem keyword_append (ks s : List Char) : keyword ks (ks ++ s) = .ok s := by
  induction ks with
  | nil => rfl
  | cons k ks ih => simpa [keyword] using ih

end PayeeProposal.Json
