import PayeeProposal.Text.Blank

/-!
# Commitment levels

How settled the state of the chain has to be that a node answers from.
-/

namespace PayeeProposal

/-- A commitment level. -/
inductive Commitment where
  | processed
  | confirmed
  | finalized
deriving DecidableEq, Repr

namespace Commitment

/-- The name of a level. -/
def text : Commitment → String
  | .processed => "processed"
  | .confirmed => "confirmed"
  | .finalized => "finalized"

/-- A written level as it is compared: without blanks at its ends and in lower case. -/
def normalize (s : String) : String :=
  Text.lowerAscii (Text.trim s)

/-- The level that a text names, a blank text naming `confirmed`; of another text, what it was
compared as. -/
def parse (s : String) : Except String Commitment :=
  let name := normalize s
  if name = "processed" then .ok .processed
  else if name = "confirmed" ∨ name = "" then .ok .confirmed
  else if name = "finalized" then .ok .finalized
  else .error name

theorem parse_text (c : Commitment) : parse c.text = .ok c := by
  cases c <;> rfl

end Commitment

end PayeeProposal
