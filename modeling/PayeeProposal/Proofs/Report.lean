import PayeeProposal.PayeeInput
import PayeeProposal.Report
import PayeeProposal.Proofs.Base58
import PayeeProposal.Proofs.Base64
import PayeeProposal.Proofs.Layout
import PayeeProposal.Proofs.Traversal

/-!
# Reports read back

What is printed of instructions is a JSON list with one report for each of them, and a report
says all of its instruction: the program, the accounts with their rights, and the data are read
back from their texts.
-/

namespace PayeeProposal

open Json (reads_object takesAll_once)
open Json.Layout (reads_string reads_boolean reads_list namedText_object)

namespace AccountReport

/-- The part of a report on an account of which some fields have been read. -/
structure Partial where
  address : Option String
  isSigner : Option Bool
  isWritable : Option Bool

/-- The JSON form: all fields are mandatory. -/
def form : Json.RecordForm Partial AccountReport where
  empty := ⟨none, none, none⟩
  member name p :=
    if name = "pubkey" then
      .once p.address Json.Reader.string fun t => { p with address := some t }
    else if name = "isSigner" then
      .once p.isSigner Json.Reader.boolean fun b => { p with isSigner := some b }
    else if name = "isWritable" then
      .once p.isWritable Json.Reader.boolean fun b => { p with isWritable := some b }
    else .unknown
  fields :=
    [Json.fieldReader Json.Reader.string fun p t => { p with address := some t },
     Json.fieldReader Json.Reader.boolean fun p b => { p with isSigner := some b },
     Json.fieldReader Json.Reader.boolean fun p b => { p with isWritable := some b }]
  complete p :=
    match p.address, p.isSigner, p.isWritable with
    | some address, some isSigner, some isWritable => some ⟨address, isSigner, isWritable⟩
    | _, _, _ => none

/-- The account that a report tells of. -/
def accountRef? (a : AccountReport) : Option AccountRef :=
  match Address.parse a.address with
  | .ok address => some ⟨address, a.isSigner, a.isWritable⟩
  | .error _ => none

theorem reads_accountLayout (a : AccountReport) (depth : Nat) :
    Json.Reads (Json.Reader.record form) (InstructionReport.accountLayout a depth).toList
      (some a) := by
  obtain ⟨address, isSigner, isWritable⟩ := a
  refine reads_object (o := some (Partial.mk (some address) (some isSigner) (some isWritable)))
    (namedText_object _ depth) ?_
  refine takesAll_once (fun t => ⟨some t, none, none⟩) (reads_string address (depth + 1)) rfl ?_
  refine takesAll_once (fun b => ⟨some address, some b, none⟩)
    (reads_boolean isSigner (depth + 1)) rfl ?_
  refine takesAll_once (fun b => ⟨some address, some isSigner, some b⟩)
    (reads_boolean isWritable (depth + 1)) rfl ?_
  exact .nil

end AccountReport

namespace InstructionReport

/-- A report of which some fields have been read. -/
structure Partial where
  program : Option String
  accounts : Option (List AccountReport)
  data : Option String

/-- The JSON form: all fields are mandatory. -/
def form : Json.RecordForm Partial InstructionReport where
  empty := ⟨none, none, none⟩
  member name p :=
    if name = "programId" then
      .once p.program Json.Reader.string fun t => { p with program := some t }
    else if name = "accounts" then
      .once p.accounts (Json.Reader.list (Json.Reader.record AccountReport.form))
        fun l => { p with accounts := some l }
    else if name = "data" then
      .once p.data Json.Reader.string fun t => { p with data := some t }
    else .unknown
  fields :=
    [Json.fieldReader Json.Reader.string fun p t => { p with program := some t },
     Json.fieldReader (Json.Reader.list (Json.Reader.record AccountReport.form))
       fun p l => { p with accounts := some l },
     Json.fieldReader Json.Reader.string fun p t => { p with data := some t }]
  complete p :=
    match p.program, p.accounts, p.data with
    | some program, some accounts, some data => some ⟨program, accounts, data⟩
    | _, _, _ => none

/-- The reports that a text holds. -/
def ofJson (s : String) : Except Json.Failure (List InstructionReport) :=
  Json.parse (Json.Reader.list (Json.Reader.record form)) s

/-- The instruction that a report tells of. -/
def instruction? (r : InstructionReport) : Option Instruction :=
  match Address.parse r.program, r.accounts.mapM AccountReport.accountRef?,
    Base64.decode? r.data with
  | .ok program, some accounts, some data => some ⟨program, accounts, data⟩
  | _, _, _ => none

theorem reads_layout (r : InstructionReport) (depth : Nat) :
    Json.Reads (Json.Reader.record form) (r.layout depth).toList (some r) := by
  obtain ⟨program, accounts, data⟩ := r
  refine reads_object (o := some (Partial.mk (some program) (some accounts) (some data)))
    (namedText_object _ depth) ?_
  refine takesAll_once (fun t => ⟨some t, none, none⟩) (reads_string program (depth + 1)) rfl ?_
  have haccounts := reads_list AccountReport.reads_accountLayout accounts (depth + 1)
  refine takesAll_once (fun l => ⟨some program, some l, none⟩) haccounts rfl ?_
  refine takesAll_once (fun t => ⟨some program, some accounts, some t⟩)
    (reads_string data (depth + 1)) rfl ?_
  exact .nil

/-- Printed reports are read back. -/
theorem ofJson_print (rs : List InstructionReport) : ofJson (print rs ++ "\n") = .ok rs := by
  refine Json.parse_of_reads (reads_list reads_layout rs 0) ⟨[], ['\n'], Json.spaces_nil, ?_, ?_⟩
  · simp [Json.Spaces, Json.isSpace]
  · simp [print]

/-- An instruction is read back from its report. -/
theorem instruction?_ofInstruction (i : Instruction) : (ofInstruction i).instruction? = some i := by
  have haccounts : (ofInstruction i).accounts.mapM AccountReport.accountRef? = some i.accounts := by
    rw [← List.map_id i.accounts]
    apply Traversal.mapM_map_eq_some
    intro a _
    simp only [AccountReport.accountRef?, Address.parse_text]
    rfl
  have hprogram : Address.parse (ofInstruction i).program = .ok i.program :=
    Address.parse_text i.program
  have hdata : Base64.decode? (ofInstruction i).data = some i.data := Base64.decode?_encode i.data
  rw [instruction?, hprogram, haccounts, hdata]

end InstructionReport

end PayeeProposal
