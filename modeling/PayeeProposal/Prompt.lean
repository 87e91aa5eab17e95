import PayeeProposal.FileTree
import PayeeProposal.Text.Blank

/-!
# Questions to the user

A question takes one line of the input, whatever the line holds, and is answered by that line
alone.
-/

namespace PayeeProposal.Prompt

/-- The byte that ends a line. -/
def lineFeed : UInt8 :=
  0x0a

/-- The first line with its line feed, if it has one, and what comes behind it. -/
def takeLine : List UInt8 → List UInt8 × List UInt8
  | [] => ([], [])
  | b :: bs =>
    if b = lineFeed then ([b], bs)
    else
      let (line, rest) := takeLine bs
      (b :: line, rest)

/-- Whether a line says yes. -/
def isAffirmative (line : String) : Bool :=
  let word := Text.lowerAscii (Text.trim line)
  word == "y" || word == "yes"

/-- What a line answers. -/
def answer (line : List UInt8) : Except FileError Bool :=
  match Text.ofUtf8? line with
  | some s => .ok (isAffirmative s)
  | none => .error .notUtf8

/-- What is printed for a question. -/
def question (text : String) : String :=
  text ++ " [y/N]: "

/-- The answer that an input gives to a question, and the input that is left. -/
def ask (input : List UInt8) : Except FileError Bool × List UInt8 :=
  let (line, rest) := takeLine input
  (answer line, rest)

/-- The answers that an input gives to some questions, one after another. -/
def askAll (input : List UInt8) : List String → List (Except FileError Bool)
  | [] => []
  | _ :: questions =>
    let (a, rest) := ask input
    a :: askAll rest questions

/-- What is printed for some questions. -/
def transcript (questions : List String) : String :=
  String.join (questions.map question)

/-- What is still to come from the user, and what has been printed. -/
structure Terminal where
  input : List UInt8
  printed : String

/-- Prints a question and takes the line that answers it. -/
def Terminal.confirm (t : Terminal) (text : String) : Except FileError Bool × Terminal :=
  let (a, rest) := ask t.input
  (a, ⟨rest, t.printed ++ question text⟩)

/-- Asks some questions one after another, whatever their answers are. -/
def Terminal.confirmAll (t : Terminal) : List String → List (Except FileError Bool) × Terminal
  | [] => ([], t)
  | text :: texts =>
    let (a, t) := t.confirm text
    let (as, t) := t.confirmAll texts
    (a :: as, t)

theorem takeLine_append (bs : List UInt8) : (takeLine bs).1 ++ (takeLine bs).2 = bs := by
  induction bs with
  | nil => rfl
  | cons b bs ih =>
    unfold takeLine
    split
    · rfl
    · simpa using ih

end PayeeProposal.Prompt
