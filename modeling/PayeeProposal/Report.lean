import PayeeProposal.Base64
import PayeeProposal.Instruction
import PayeeProposal.Json.Layout

/-!
# Reports

What a run prints: the instructions that it would submit, or the signature of what it has
submitted.
-/

namespace PayeeProposal

/-- An account of an instruction, as text. -/
structure AccountReport where
  address : String
  isSigner : Bool
  isWritable : Bool
deriving DecidableEq, Repr

/-- An instruction, its data in base 64. -/
structure InstructionReport where
  program : String
  accounts : List AccountReport
  data : String
deriving DecidableEq, Repr

/-- A transaction that has been submitted for an aggregator. -/
structure SubmissionReport where
  signature : String
  state : String
deriving DecidableEq, Repr

namespace InstructionReport

/-- The report on an instruction. -/
def ofInstruction (i : Instruction) : InstructionReport where
  program := i.program.text
  accounts := i.accounts.map fun a => ⟨a.address.text, a.isSigner, a.isWritable⟩
  data := Base64.encode i.data

/-- The written form of the part on an account. -/
def accountLayout (a : AccountReport) : Json.Layout :=
  .object
    [("pubkey", .string a.address), ("isSigner", .boolean a.isSigner),
     ("isWritable", .boolean a.isWritable)]

/-- The written form. -/
def layout (r : InstructionReport) : Json.Layout :=
  .object
    [("programId", .string r.program), ("accounts", .list (r.accounts.map accountLayout)),
     ("data", .string r.data)]

/-- The printed form of some reports. -/
def print (rs : List InstructionReport) : String :=
  Json.Layout.list (rs.map layout) 0

end InstructionReport

namespace SubmissionReport

/-- The written form. -/
def layout (r : SubmissionReport) : Json.Layout :=
  .object
    [("responses",
      .list
        [.object
          [("tx", .object [("hash", .string r.signature), ("address", .string r.state)]),
           ("contract", .string r.state)]])]

/-- The printed form. -/
def print (r : SubmissionReport) : String :=
  r.layout 0

end SubmissionReport

end PayeeProposal
