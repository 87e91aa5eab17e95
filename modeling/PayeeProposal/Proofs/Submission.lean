import PayeeProposal.Submission
import PayeeProposal.Proofs.Course
import PayeeProposal.Proofs.KeyTable
import PayeeProposal.Proofs.Wire

/-!
# Submissions

A submission sends one transaction or none, and succeeds exactly when the one that it sends is
taken by the node and lands. When nobody but the wallet has to sign and the table of keys has
room, the transaction that is sent can be read back, and is the one for the given instructions.
The requests of a submission are the first of four parts, as many as it has got through stages; in
the third part the node is asked until something is known of the transaction.
-/

namespace PayeeProposal

variable {instructions : List Instruction} {blockhash : Blockhash}

/-! ## Signed by the wallet alone -/

/-- Instructions that ask for no signature but the payer's. -/
def SignedBy (payer : Address) (instructions : List Instruction) : Prop :=
  ∀ i ∈ instructions, ∀ k ∈ i.accounts, k.isSigner = true → k.address = payer

/-- Instructions that can be written, with that many accounts and that much data. -/
structure Sized (instructions : List Instruction) : Prop where
  count : instructions.length < 0x10000
  accounts : ∀ i ∈ instructions, i.accounts.length < 0x10000
  data : ∀ i ∈ instructions, i.data.length < 0x10000

theorem SignedBy.eq_of_grants {payer a : Address} (h : SignedBy payer instructions)
    (ha : Message.Grants AccountRef.isSigner (Message.uses instructions) a) : a = payer := by
  obtain ⟨k, hk, rfl, hsigner⟩ := ha
  obtain ⟨i, hi, hk⟩ := List.mem_flatMap.mp hk
  rcases List.mem_cons.mp hk with rfl | hk
  · cases hsigner
  · exact h i hi k hk hsigner

theorem SignedBy.signers {payer : Address} (h : SignedBy payer instructions) :
    (Message.compile payer instructions blockhash).header.signers = 1 :=
  Message.signers_compile fun _ => h.eq_of_grants

/-- All instructions propose payees under one authority. -/
def Propose (authority : Address) (instructions : List Instruction) : Prop :=
  ∀ i ∈ instructions, ∃ program mint payees proposal,
    i = Instruction.proposePayees program mint payees proposal authority

theorem Propose.signedBy {authority : Address} (h : Propose authority instructions) :
    SignedBy authority instructions := by
  intro i hi k hk hsigner
  obtain ⟨program, mint, payees, proposal, rfl⟩ := h i hi
  rcases List.mem_pair.mp hk with rfl | rfl
  · cases hsigner
  · rfl

theorem Propose.sized {authority : Address} (h : Propose authority instructions)
    (hcount : instructions.length < 0x10000) (hdata : ∀ i ∈ instructions, i.data.length < 0x10000) :
    Sized instructions where
  count := hcount
  accounts := by
    intro i hi
    obtain ⟨program, mint, payees, proposal, rfl⟩ := h i hi
    show 2 < 0x10000
    decide
  data := hdata

theorem fits_compileInstruction {keys : List Address} {i : Instruction}
    (hkeys : keys.length ≤ 256) (hprogram : i.program ∈ keys)
    (haccounts : ∀ k ∈ i.accounts, k.address ∈ keys) (hcount : i.accounts.length < 0x10000)
    (hsize : i.data.length < 0x10000) : (Message.compileInstruction keys i).Fits where
  program := Nat.lt_of_lt_of_le (List.idxOf_lt_length_of_mem hprogram) hkeys
  accounts := by
    intro j hj
    obtain ⟨k, hk, rfl⟩ := List.mem_map.mp hj
    exact Nat.lt_of_lt_of_le (List.idxOf_lt_length_of_mem (haccounts k hk)) hkeys
  count := by rwa [Message.compileInstruction, List.length_map]
  size := hsize

theorem Sized.fits {payer : Address} (h : Sized instructions)
    (hsigned : SignedBy payer instructions)
    (hkeys : (Message.compile payer instructions blockhash).keys.length ≤ 256) :
    (Message.compile payer instructions blockhash).Fits where
  signers := by
    rw [hsigned.signers]
    decide
  readonlySigners := Nat.lt_of_lt_of_le (Message.length_group_lt true false) hkeys
  readonlyOthers := Nat.lt_of_lt_of_le (Message.length_group_lt false false) hkeys
  keys := Nat.lt_of_le_of_lt hkeys (by decide)
  count := by
    rw [Message.instructions_compile, List.length_map]
    exact h.count
  instructions := by
    intro c hc
    rw [Message.instructions_compile] at hc
    obtain ⟨i, hi, rfl⟩ := List.mem_map.mp hc
    refine fits_compileInstruction hkeys ?_ ?_ (h.accounts i hi) (h.data i hi)
    · exact Message.mem_keys_iff.mpr (.inr (Message.grants_uses_program hi))
    · exact fun k hk => Message.mem_keys_iff.mpr (.inr (Message.grants_uses_account hi hk))

namespace Transaction

/-- The transaction for some instructions, signed by the wallet. -/
def ofInstructions (wallet : Keypair) (instructions : List Instruction) (blockhash : Blockhash) :
    Transaction :=
  let message := Message.compile wallet.address instructions blockhash
  ⟨[wallet.sign message.encode], message⟩

variable {wallet : Keypair}

theorem sign?_compile (h : SignedBy wallet.address instructions) :
    sign? wallet (Message.compile wallet.address instructions blockhash) =
      some (ofInstructions wallet instructions blockhash) := by
  rw [sign?, if_pos h.signers]
  rfl

theorem read?_ofInstructions (h : Sized instructions)
    (hsigned : SignedBy wallet.address instructions)
    (hkeys : (Message.compile wallet.address instructions blockhash).keys.length ≤ 256) :
    read? (ofInstructions wallet instructions blockhash).encode =
      some (ofInstructions wallet instructions blockhash) :=
  read?_encode (show 1 < 0x10000 by decide) (h.fits hsigned hkeys)

end Transaction

/-! ## What a submission sends -/

namespace Submission

/-- A node takes a transaction and carries it out, and its first signature is the given one. -/
structure Confirms (node : Node) (t : Transaction) (signature : Bytes.Fixed 64) : Prop where
  accepted : node.refusesTransactions = false
  landed : node.fate = .landed
  first : t.signatures.head? = some signature

/-- The calls of a number of rounds in which nothing is known of a transaction while its block hash
is valid. -/
def waiting (polls : Nat) : List Call :=
  (List.replicate polls [.signatureStatuses, .blockhashValid]).flatten

/-- Rounds in which nothing is known add to the calls and to nothing else. -/
theorem await_eq (fate : Fate) (t : Transaction) (polls : Nat) :
    await fate t polls = ((await fate t 0).1, waiting polls ++ (await fate t 0).2) := by
  induction polls with
  | zero => rfl
  | succ polls ih =>
    rw [await, ih]
    rfl

theorem await_eq_ok_iff {fate : Fate} {t : Transaction} {polls : Nat}
    {signature : Bytes.Fixed 64} :
    (await fate t polls).1 = .ok signature ↔
      fate = .landed ∧ t.signatures.head? = some signature := by
  rw [await_eq]
  cases fate <;> cases hs : t.signatures <;> simp [await, hs]

theorem send_eq_ok_iff {node : Node} {t : Transaction} {signature : Bytes.Fixed 64} :
    (send node t).result = .ok signature ↔ Confirms node t signature := by
  unfold send
  split
  · rename_i hrefuses
    constructor
    · intro h
      cases h
    · intro h
      rw [h.accepted] at hrefuses
      cases hrefuses
  · rename_i haccepts
    refine await_eq_ok_iff.trans ⟨?_, ?_⟩
    · rintro ⟨hlanded, hfirst⟩
      exact ⟨Bool.eq_false_iff.mpr haccepts, hlanded, hfirst⟩
    · intro h
      exact ⟨h.landed, h.first⟩

theorem sent_send (node : Node) (t : Transaction) : (send node t).sent = [t.encode] := by
  unfold send
  split
  · rfl
  · rfl

/-- A submission fails with nothing sent, or sends one transaction to the node and succeeds
exactly when the node confirms it. -/
theorem submit_cases (c : Connection) (wallet : Keypair) (instructions : List Instruction) :
    ((∃ e, (submit c wallet instructions).result = .error e) ∧
        (submit c wallet instructions).sent = []) ∨
      ∃ node blockhash t, c.node = some node ∧
        Transaction.sign? wallet (Message.compile wallet.address instructions blockhash) =
          some t ∧
        (submit c wallet instructions).sent = [t.encode] ∧
        ∀ signature, (submit c wallet instructions).result = .ok signature ↔
          Confirms node t signature := by
  unfold submit
  split
  · exact .inl ⟨⟨_, rfl⟩, rfl⟩
  · cases hnode : c.node with
    | none => exact .inl ⟨⟨_, rfl⟩, rfl⟩
    | some node =>
      cases hhash : node.blockhash.bind Blockhash.parse? with
      | none =>
        left
        simp [hhash]
      | some blockhash =>
        simp only [hhash, signAndSend]
        cases hsign : Transaction.sign? wallet
            (Message.compile wallet.address instructions blockhash) with
        | none => exact .inl ⟨⟨_, rfl⟩, rfl⟩
        | some t =>
          right
          exact ⟨node, blockhash, t, rfl, hsign, sent_send node t, fun _ => send_eq_ok_iff⟩

/-- With a block hash, the transaction for the instructions is sent. -/
theorem submit_of_blockhash {c : Connection} {node : Node} {wallet : Keypair}
    (hnode : c.node = some node) (hhash : node.blockhash.bind Blockhash.parse? = some blockhash)
    (hne : instructions ≠ []) (hsigned : SignedBy wallet.address instructions) :
    submit c wallet instructions =
      let s := send node (Transaction.ofInstructions wallet instructions blockhash)
      { s with calls := .latestBlockhash c.commitment :: s.calls } := by
  have hsign : Transaction.sign? wallet (Message.compile wallet.address instructions blockhash) =
      some (Transaction.ofInstructions wallet instructions blockhash) :=
    Transaction.sign?_compile hsigned
  simp only [submit, List.isEmpty_iff, if_neg hne, hnode, hhash, signAndSend, hsign]

/-! ## How far a submission gets -/

/-- The stages of a submission. -/
inductive Stage where
  | blockhash
  | sending
  | execution
  | expiry
deriving DecidableEq

namespace Stage

/-- All stages in order. -/
def order : List Stage :=
  [.blockhash, .sending, .execution, .expiry]

/-- How many parts of the requests have been made when a submission ends at a stage. -/
def depth : Stage → Nat
  | .blockhash => 1
  | .sending => 2
  | .execution => 3
  | .expiry => 4

end Stage

/-- The requests of a submission in parts, in order. -/
def requests (c : Commitment) (polls : Nat) : List (List Call) :=
  [[.latestBlockhash c], [.sendTransaction], waiting polls ++ [.signatureStatuses],
    [.blockhashValid]]

/-- How a stage fails, and with which error. -/
inductive Fails (node : Node) : Stage → SubmissionError → Prop
  | blockhash (h : node.blockhash.bind Blockhash.parse? = none) :
    Fails node .blockhash (.rpc "no block hash")
  | sending (h : node.refusesTransactions = true) :
    Fails node .sending (.rpc "the node refused the transaction")
  | execution (h : node.fate = .rejected) :
    Fails node .execution (.rpc "the transaction failed")
  | expiry (h : node.fate = .missing) :
    Fails node .expiry (.rpc "the transaction was not found")

/-- A submission goes through its stages in order, and succeeds with the first three parts of the
requests. -/
theorem submit_course {c : Connection} {node : Node} {wallet : Keypair}
    (hnode : c.node = some node) (hne : instructions ≠ [])
    (hsigned : SignedBy wallet.address instructions) :
    Course (Fails node)
      (fun stage e => (submit c wallet instructions).result = .error e ∧
        (submit c wallet instructions).calls =
          ((requests c.commitment node.polls).take stage.depth).flatten)
      ((∃ signature, (submit c wallet instructions).result = .ok signature) ∧
        (submit c wallet instructions).calls =
          ((requests c.commitment node.polls).take 3).flatten) Stage.order := by
  cases hhash : node.blockhash.bind Blockhash.parse? with
  | none =>
    refine .stop (.blockhash hhash) ?_
    simp only [submit, List.isEmpty_iff, if_neg hne, hnode, hhash, true_and]
    rfl
  | some blockhash =>
    rw [submit_of_blockhash hnode hhash hne hsigned]
    refine .pass (fun e h => ?_) ?_
    · cases h with
      | blockhash h => cases hhash.symm.trans h
    · cases hrefuses : node.refusesTransactions with
      | true =>
        refine .stop (.sending hrefuses) ?_
        simp only [send, hrefuses, if_true, true_and]
        rfl
      | false =>
        refine .pass (fun e h => ?_) ?_
        · cases h with
          | sending h => cases hrefuses.symm.trans h
        · simp only [send, hrefuses, Bool.false_eq_true, if_false]
          rw [await_eq]
          cases hfate : node.fate with
          | rejected =>
            refine .stop (.execution hfate) ⟨rfl, ?_⟩
            simp [await, requests, Stage.depth]
          | missing =>
            refine .pass (fun e h => ?_) (.stop (.expiry hfate) ⟨rfl, ?_⟩)
            · cases h with
              | execution h => cases hfate.symm.trans h
            · simp [await, requests, Stage.depth]
          | landed =>
            refine .pass (fun e h => ?_) (.pass (fun e h => ?_) (.finish ⟨⟨_, rfl⟩, ?_⟩))
            · cases h with
              | execution h => cases hfate.symm.trans h
            · cases h with
              | expiry h => cases hfate.symm.trans h
            · simp [await, requests, Transaction.ofInstructions]

end Submission

end PayeeProposal
