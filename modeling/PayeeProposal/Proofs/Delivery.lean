import Mathlib.Data.List.Dedup
import PayeeProposal.Proofs.KeyRights
import PayeeProposal.Proofs.Submission

/-!
# Proposals on the wire

What a submission sends for instructions that propose payees on behalf of the wallet is one
transaction, signed by the wallet alone, whose message leads back to these instructions whatever
addresses they have in common, and asks for no rights but theirs.
-/

namespace PayeeProposal

/-- Some instruction is about a proposal. -/
def Concern (authority : Address) (instructions : List Instruction) (proposal : Address) : Prop :=
  ∃ program mint payees,
    Instruction.proposePayees program mint payees proposal authority ∈ instructions

/-- All addresses in some instructions. -/
def mentioned (instructions : List Instruction) : List Address :=
  instructions.flatMap fun i => i.program :: i.accounts.map AccountRef.address

/-- A compiled instruction leads back to an instruction through a table of keys. -/
structure CompiledInstruction.LeadsTo (keys : List Address) (c : CompiledInstruction)
    (i : Instruction) : Prop where
  program : keys[c.program]? = some i.program
  accounts : c.accounts.map (fun j => keys[j]?) = i.accounts.map fun k => some k.address
  data : c.data = i.data

/-- A message is for some instructions: its table has each key once and the payer first, its
compiled instructions lead back to the given ones, only the payer signs, and only the payer and
the proposals are writable. -/
structure Message.IsFor (m : Message) (payer : Address) (instructions : List Instruction)
    (blockhash : Blockhash) : Prop where
  nodup : m.keys.Nodup
  first : m.keys.head? = some payer
  blockhash : m.blockhash = blockhash
  leads : List.Forall₂ (CompiledInstruction.LeadsTo m.keys) m.instructions instructions
  signers : ∀ j a, m.keys[j]? = some a → (m.isSignerAt j = true ↔ a = payer)
  writable : ∀ j a, m.keys[j]? = some a →
    (m.isWritableAt j = true ↔ a = payer ∨ Concern payer instructions a)

variable {authority payer : Address} {instructions : List Instruction} {blockhash : Blockhash}

namespace Propose

/-- A key that some use writes is a proposal. -/
theorem grants_isWritable_iff (h : Propose authority instructions) {a : Address} :
    Message.Grants AccountRef.isWritable (Message.uses instructions) a ↔
      Concern authority instructions a := by
  constructor
  · rintro ⟨k, hk, rfl, hwritable⟩
    obtain ⟨i, hi, hk⟩ := List.mem_flatMap.mp hk
    obtain ⟨program, mint, payees, proposal, rfl⟩ := h i hi
    rcases List.mem_cons.mp hk with rfl | hk
    · cases hwritable
    · rcases List.mem_pair.mp hk with rfl | rfl
      · exact ⟨program, mint, payees, hi⟩
      · cases hwritable
  · rintro ⟨program, mint, payees, hi⟩
    refine ⟨⟨a, false, true⟩, List.mem_flatMap.mpr ⟨_, hi, ?_⟩, rfl, rfl⟩
    exact List.mem_cons_of_mem _ List.mem_cons_self

end Propose

namespace Message

/-- The table has no more keys than the instructions mention addresses. -/
theorem length_keys_le_dedup (h : payer ∈ mentioned instructions) :
    (compile payer instructions blockhash).keys.length ≤ (mentioned instructions).dedup.length := by
  have hsub : (compile payer instructions blockhash).keys ⊆ (mentioned instructions).dedup := by
    intro a ha
    rw [List.mem_dedup]
    rcases mem_keys_iff.mp ha with rfl | ⟨k, hk, rfl, -⟩
    · exact h
    · obtain ⟨i, hi, hk⟩ := List.mem_flatMap.mp hk
      refine List.mem_flatMap.mpr ⟨i, hi, ?_⟩
      rcases List.mem_cons.mp hk with rfl | hk
      · exact List.mem_cons_self
      · exact List.mem_cons_of_mem _ (List.mem_map_of_mem hk)
  exact (List.Nodup.subperm nodup_keys hsub).length_le

theorem leadsTo_compileInstruction {m : Message} {i : Instruction} (hprogram : i.program ∈ m.keys)
    (haccounts : ∀ k ∈ i.accounts, k.address ∈ m.keys) :
    (compileInstruction m.keys i).LeadsTo m.keys i where
  program := getElem?_idxOf_keys hprogram
  accounts := by
    rw [compileInstruction, List.map_map]
    exact List.map_congr_left fun k hk => getElem?_idxOf_keys (haccounts k hk)
  data := rfl

theorem isFor_compile (h : Propose payer instructions) :
    (compile payer instructions blockhash).IsFor payer instructions blockhash where
  nodup := nodup_keys
  first := head?_keys
  blockhash := rfl
  leads := by
    rw [instructions_compile, List.forall₂_map_left_iff, List.forall₂_same]
    intro i hi
    exact leadsTo_compileInstruction (mem_keys_iff.mpr (.inr (grants_uses_program hi)))
      fun k hk => mem_keys_iff.mpr (.inr (grants_uses_account hi hk))
  signers := by
    intro j a ha
    rw [isSignerAt_compile_iff ha]
    exact or_iff_left_of_imp h.signedBy.eq_of_grants
  writable := by
    intro j a ha
    rw [isWritableAt_compile_iff ha, h.grants_isWritable_iff]

end Message

/-! ## What is sent -/

/-- Instructions that one transaction has room for: the table of keys has a place for every address
that they mention, and what is counted in the written form is below `2 ^ 16`. -/
structure Room (instructions : List Instruction) : Prop where
  places : (mentioned instructions).dedup.length ≤ 256
  count : instructions.length < 0x10000
  data : ∀ i ∈ instructions, i.data.length < 0x10000

theorem Propose.mem_mentioned (h : Propose authority instructions) (hne : instructions ≠ []) :
    authority ∈ mentioned instructions := by
  obtain ⟨i, hi⟩ := List.exists_mem_of_ne_nil _ hne
  obtain ⟨program, mint, payees, proposal, rfl⟩ := h i hi
  refine List.mem_flatMap.mpr ⟨_, hi, List.mem_cons_of_mem _ ?_⟩
  exact List.mem_cons_of_mem _ List.mem_cons_self

/-- Bytes are one transaction: one signature, which is the one of the message by the wallet's seed,
and the message, whose first byte has no mark of a later format. -/
structure Transaction.Written (wallet : Keypair) (t : Transaction) (bytes : List UInt8) : Prop where
  read : Transaction.read? bytes = some t
  bytes : bytes = 1 :: ((wallet.sign t.message.encode).bytes ++ t.message.encode)
  signatures : t.signatures = [wallet.sign t.message.encode]
  genuine : ∀ signature ∈ t.signatures,
    Ed25519.IsSignature wallet.seed.bytes t.message.encode signature.bytes
  legacy : ∃ b bs, t.message.encode = b :: bs ∧ b < 0x80

theorem Transaction.written_ofInstructions {wallet : Keypair}
    (h : Propose wallet.address instructions) (hne : instructions ≠ [])
    (hroom : Room instructions) :
    (ofInstructions wallet instructions blockhash).Written wallet
      (ofInstructions wallet instructions blockhash).encode where
  read := by
    refine read?_ofInstructions (h.sized hroom.count hroom.data) h.signedBy ?_
    exact Nat.le_trans (Message.length_keys_le_dedup (h.mem_mentioned hne)) hroom.places
  bytes := by
    simp [ofInstructions, encode, Message.compact]
  signatures := rfl
  genuine := by
    intro signature hsignature
    obtain rfl := List.mem_singleton.mp hsignature
    exact Ed25519.isSignature_iff.mpr rfl
  legacy := by
    refine ⟨_, _, rfl, ?_⟩
    rw [ofInstructions, h.signedBy.signers]
    decide

namespace Submission

/-- Without instructions, a submission fails before any call. Instructions that propose payees
for the wallet and have room in one transaction are sent in one transaction for them, and the
signature in it is what is given when the transaction lands. -/
theorem submit_sends_message (c : Connection) (wallet : Keypair) :
    submit c wallet [] = ⟨.error .empty, [], []⟩ ∧
    ∀ (node : Node) (instructions : List Instruction) (blockhash : Blockhash),
      c.node = some node → node.blockhash.bind Blockhash.parse? = some blockhash →
      instructions ≠ [] → Propose wallet.address instructions → Room instructions →
      ∃ (bytes : List UInt8) (t : Transaction),
        (submit c wallet instructions).sent = [bytes] ∧ t.Written wallet bytes ∧
        t.message.IsFor wallet.address instructions blockhash ∧
        ∀ signature, (submit c wallet instructions).result = .ok signature ↔
          node.refusesTransactions = false ∧ node.fate = .landed ∧
            t.signatures = [signature] := by
  refine ⟨rfl, ?_⟩
  intro node instructions blockhash hnode hhash hne hpropose hroom
  let t := Transaction.ofInstructions wallet instructions blockhash
  have hsubmit := submit_of_blockhash hnode hhash hne hpropose.signedBy
  refine ⟨t.encode, t, ?_, ?_, Message.isFor_compile hpropose, ?_⟩
  · rw [hsubmit]
    exact sent_send node t
  · exact Transaction.written_ofInstructions hpropose hne hroom
  · intro signature
    rw [hsubmit]
    refine send_eq_ok_iff.trans ⟨fun h => ⟨h.accepted, h.landed, ?_⟩, ?_⟩
    · rw [show signature = wallet.sign t.message.encode from (Option.some.inj h.first).symm]
      rfl
    · rintro ⟨haccepted, hlanded, hsignatures⟩
      exact ⟨haccepted, hlanded, congrArg List.head? hsignatures⟩

/-- One instruction writes the wallet, and another one writes the program that it calls. -/
theorem submit_coinciding :
    let wallet := Keypair.ofSeed ⟨List.replicate 32 0, List.length_replicate⟩
    let instructions := [Instruction.proposePayees Address.tokenProgram Address.systemProgram []
        wallet.address wallet.address,
      Instruction.proposePayees Address.systemProgram Address.systemProgram [Address.tokenProgram]
        Address.systemProgram wallet.address]
    let blockhash : Blockhash := ⟨List.replicate 32 0, List.length_replicate⟩
    let node : Node :=
      ⟨fun _ => .absent, some "11111111111111111111111111111111", false, 0, .landed⟩
    let c : Connection := ⟨"http://localhost:8899", .confirmed, some node⟩
    node.blockhash.bind Blockhash.parse? = some blockhash ∧
      Propose wallet.address instructions ∧ Room instructions ∧
      ∃ (bytes : List UInt8) (t : Transaction), (submit c wallet instructions).sent = [bytes] ∧
        t.Written wallet bytes ∧ t.message.IsFor wallet.address instructions blockhash ∧
        (submit c wallet instructions).result = .ok (wallet.sign t.message.encode) := by
  intro wallet instructions blockhash node c
  have hhash : node.blockhash.bind Blockhash.parse? = some blockhash := by decide +kernel
  have hpropose : Propose wallet.address instructions := by
    intro i hi
    rcases List.mem_pair.mp hi with rfl | rfl
    · exact ⟨_, _, _, _, rfl⟩
    · exact ⟨_, _, _, _, rfl⟩
  have hroom : Room instructions := by
    refine ⟨Nat.le_trans (List.dedup_sublist _).length_le (by decide), by decide, ?_⟩
    intro i hi
    rcases List.mem_pair.mp hi with rfl | rfl
    · decide
    · decide
  obtain ⟨bytes, t, hsent, hwritten, hfor, hresult⟩ := (submit_sends_message c wallet).2 node
    instructions blockhash rfl hhash (List.cons_ne_nil _ _) hpropose hroom
  refine ⟨hhash, hpropose, hroom, bytes, t, hsent, hwritten, hfor, ?_⟩
  exact (hresult _).mpr ⟨rfl, rfl, hwritten.signatures⟩

end Submission

end PayeeProposal
