import PayeeProposal.Cause
import PayeeProposal.Node

/-!
# Submitting instructions

The instructions go into one transaction, which is signed by the wallet, passed on once, and
waited for. It is never sent again.
-/

namespace PayeeProposal

/-- Why a submission fails. -/
inductive SubmissionError where
  /-- There is nothing to submit. -/
  | empty
  /-- A request fails, or the transaction does not land. -/
  | rpc (reason : String)
  /-- The transaction requires signatures of others than the wallet. -/
  | unsigned
deriving DecidableEq, Repr

/-- What is reported of a submission that fails. -/
def SubmissionError.message (wording : Wording) : SubmissionError → String
  | .empty => "交易指令不能为空"
  | .rpc reason => "RPC 提交失败: " ++ wording (.rpc reason)
  | .unsigned => "not enough signers"

/-- What comes of a submission: the signature or an error, the calls made, and the transactions
sent. -/
structure Submission where
  result : Except SubmissionError (Bytes.Fixed 64)
  calls : List Call
  sent : List (List UInt8)

namespace Submission

/-- Waits for a transaction that has been passed on: asks what has become of it, and again as long
as nothing is known of it and its block hash is valid. -/
def await (fate : Fate) (t : Transaction) :
    Nat → Except SubmissionError (Bytes.Fixed 64) × List Call
  | polls + 1 =>
    let (result, calls) := await fate t polls
    (result, .signatureStatuses :: .blockhashValid :: calls)
  | 0 =>
    match fate, t.signatures with
    | .landed, signature :: _ => (.ok signature, [.signatureStatuses])
    | .landed, [] => (.error .unsigned, [])
    | .rejected, _ => (.error (.rpc "the transaction failed"), [.signatureStatuses])
    | .missing, _ =>
      (.error (.rpc "the transaction was not found"), [.signatureStatuses, .blockhashValid])

/-- Passes a transaction on and waits for it. -/
def send (node : Node) (t : Transaction) : Submission :=
  if node.refusesTransactions then
    ⟨.error (.rpc "the node refused the transaction"), [.sendTransaction], [t.encode]⟩
  else
    let (result, calls) := await node.fate t node.polls
    ⟨result, .sendTransaction :: calls, [t.encode]⟩

/-- Signs the instructions with the given block hash and passes them on. -/
def signAndSend (node : Node) (wallet : Keypair) (instructions : List Instruction)
    (blockhash : Blockhash) : Submission :=
  match Transaction.sign? wallet (Message.compile wallet.address instructions blockhash) with
  | none => ⟨.error .unsigned, [], []⟩
  | some t => send node t

/-- Submits instructions. -/
def submit (c : Connection) (wallet : Keypair) (instructions : List Instruction) : Submission :=
  if instructions.isEmpty then ⟨.error .empty, [], []⟩
  else
    match c.node with
    | none => ⟨.error (.rpc "no node answers"), [], []⟩
    | some node =>
      match node.blockhash.bind Blockhash.parse? with
      | none => ⟨.error (.rpc "no block hash"), [.latestBlockhash c.commitment], []⟩
      | some blockhash =>
        let s := signAndSend node wallet instructions blockhash
        { s with calls := .latestBlockhash c.commitment :: s.calls }

end Submission

end PayeeProposal
