import PayeeProposal.Bytes.LittleEndian
import PayeeProposal.TokenAccount

/-!
# What makes a token account

Account data hold tokens of a mint exactly when they have the size of a token account, each
optional field is tagged as there or as not there, the state is one of use, and the mint stands in
front. Nothing else in the data is looked at.
-/

namespace PayeeProposal.TokenAccount

/-- The tag at an offset as a number. -/
def tagAt (offset : Nat) (data : List UInt8) : Nat :=
  Bytes.ofLittleEndian (Bytes.slice offset 4 data)

/-- Account data with the size of a token account, tags of zero or one, and a state of at most
two. -/
structure WellFormed (data : List UInt8) : Prop where
  size : data.length = 165
  tags : ∀ offset ∈ [72, 109, 129], tagAt offset data = 0 ∨ tagAt offset data = 1
  state : ∀ b, data[108]? = some b → b ≤ 2

/-- Account data of a token account in use, frozen or not, that is for a mint. -/
structure Holds (mint : Address) (data : List UInt8) : Prop where
  size : data.length = 165
  tags : ∀ offset ∈ [72, 109, 129], tagAt offset data = 0 ∨ tagAt offset data = 1
  state : data[108]? = some 1 ∨ data[108]? = some 2
  mint : data.take 32 = mint.bytes

variable {data : List UInt8} {mint : Address}

/-! ## Tags and state -/

theorem isTag_iff {tag : List UInt8} (h : tag.length = 4) :
    isTag tag = true ↔ Bytes.ofLittleEndian tag = 0 ∨ Bytes.ofLittleEndian tag = 1 := by
  have hback := Bytes.littleEndian_ofLittleEndian tag
  rw [h] at hback
  unfold isTag
  rw [Bool.or_eq_true, beq_iff_eq, beq_iff_eq]
  constructor
  · rintro (rfl | rfl)
    · exact .inl rfl
    · exact .inr rfl
  · rintro (hzero | hone)
    · rw [hzero] at hback
      exact .inl hback.symm
    · rw [hone] at hback
      exact .inr hback.symm

theorem tags_iff (h : data.length = 165) :
    (tagOffsets.all fun offset => isTag (Bytes.slice offset 4 data)) = true ↔
      ∀ offset ∈ [72, 109, 129], tagAt offset data = 0 ∨ tagAt offset data = 1 := by
  rw [List.all_eq_true]
  refine forall₂_congr fun offset hoffset => isTag_iff (Bytes.length_slice ?_)
  have hle : offset ≤ 129 := by
    simp only [tagOffsets, List.mem_cons, List.not_mem_nil, or_false] at hoffset
    omega
  omega

theorem getElem?_state (h : data.length = 165) :
    data[108]? = some (data.getD stateOffset 0) := by
  have hlt : 108 < data.length := by omega
  rw [List.getD_eq_getElem?_getD, stateOffset, List.getElem?_eq_getElem hlt, Option.getD_some]

/-! ## Reading the mint -/

/-- Account data are no token account, or one that is not in use, or one for the mint that stands in
front. -/
theorem mint_cases (data : List UInt8) :
    (¬ WellFormed data ∧ TokenAccount.mint data = .error .invalid) ∨
      WellFormed data ∧
        (data[108]? = some 0 ∧ TokenAccount.mint data = .error .uninitialized ∨
          data[108]? ≠ some 0 ∧ TokenAccount.mint data = .ok (Address.ofLeading data)) := by
  unfold TokenAccount.mint
  by_cases hsize : data.length = 165
  · rw [if_neg (not_not_intro (show data.length = size from hsize))]
    have hstate := getElem?_state hsize
    by_cases htags : (tagOffsets.all fun offset => isTag (Bytes.slice offset 4 data)) = true
    · rw [if_neg (by simp [htags])]
      simp only
      generalize data.getD stateOffset 0 = state at hstate
      by_cases hlarge : 2 < state
      · refine .inl ⟨fun h => ?_, if_pos hlarge⟩
        exact absurd (h.state state hstate) (by simpa using hlarge)
      · have hwell : WellFormed data := by
          refine ⟨hsize, (tags_iff hsize).mp htags, fun b hb => ?_⟩
          rw [hstate] at hb
          cases hb
          simpa using hlarge
        refine .inr ⟨hwell, ?_⟩
        rw [if_neg hlarge, hstate]
        by_cases hzero : state = 0
        · exact .inl ⟨congrArg some hzero, if_pos hzero⟩
        · exact .inr ⟨fun h => hzero (Option.some.inj h), if_neg hzero⟩
    · refine .inl ⟨fun h => htags ((tags_iff hsize).mpr h.tags), ?_⟩
      rw [if_pos (by simpa using htags)]
  · exact .inl ⟨fun h => hsize h.size, if_pos hsize⟩

theorem bytes_ofLeading (h : 32 ≤ data.length) : (Address.ofLeading data).bytes = data.take 32 :=
  List.take_append_of_le_length h

/-- A token account of a mint is one that is well formed, in use, and for the mint. -/
theorem holds_iff :
    Holds mint data ↔ WellFormed data ∧ data[108]? ≠ some 0 ∧ data.take 32 = mint.bytes := by
  constructor
  · intro h
    refine ⟨⟨h.size, h.tags, ?_⟩, ?_, h.mint⟩
    · intro b hb
      rcases h.state with hstate | hstate <;> rw [hstate] at hb <;> cases hb <;> decide
    · rcases h.state with hstate | hstate <;> rw [hstate] <;> decide
  · rintro ⟨hwell, hused, hmint⟩
    refine ⟨hwell.size, hwell.tags, ?_, hmint⟩
    have hstate := getElem?_state hwell.size
    generalize data.getD stateOffset 0 = state at hstate
    have hle := UInt8.le_iff_toNat_le.mp (hwell.state state hstate)
    have hne : state.toNat ≠ 0 := by
      intro h
      exact hused (hstate.trans (congrArg some (UInt8.toNat_inj.mp h)))
    have htwo : (2 : UInt8).toNat = 2 := rfl
    rw [hstate, Option.some.injEq, Option.some.injEq, ← UInt8.toNat_inj, ← UInt8.toNat_inj]
    show state.toNat = 1 ∨ state.toNat = 2
    omega

theorem mint_eq_ok_iff : TokenAccount.mint data = .ok mint ↔ Holds mint data := by
  rw [holds_iff]
  rcases mint_cases data with ⟨hbad, h⟩ | ⟨hwell, ⟨hunused, h⟩ | ⟨hused, h⟩⟩
  · simp [h, hbad]
  · simp [h, hunused]
  · have hlong : 32 ≤ data.length := by
      have hsize := hwell.size
      omega
    rw [h, ← bytes_ofLeading hlong]
    constructor
    · intro hok
      rw [Except.ok.inj hok]
      exact ⟨hwell, hused, rfl⟩
    · rintro ⟨-, -, hbytes⟩
      rw [Address.ext_bytes hbytes]

/-! ## What is not looked at -/

/-- Account data of one size with the same mint in front, the same tags and the same state. -/
structure AgreeOnChecked (a b : List UInt8) : Prop where
  size : a.length = b.length
  mint : a.take 32 = b.take 32
  tags : ∀ offset ∈ [72, 109, 129], Bytes.slice offset 4 a = Bytes.slice offset 4 b
  state : a[108]? = b[108]?

theorem mint_congr {a b : List UInt8} (h : AgreeOnChecked a b) :
    TokenAccount.mint a = TokenAccount.mint b := by
  have htags : (tagOffsets.all fun offset => isTag (Bytes.slice offset 4 a)) =
      tagOffsets.all fun offset => isTag (Bytes.slice offset 4 b) := by
    rw [Bool.eq_iff_iff, List.all_eq_true, List.all_eq_true]
    exact forall₂_congr fun offset hoffset => by rw [h.tags offset hoffset]
  unfold TokenAccount.mint
  rw [← h.size]
  by_cases hsize : a.length = 165
  · have hstate : a.getD stateOffset 0 = b.getD stateOffset 0 := by
      rw [← Option.some.injEq, ← getElem?_state hsize, ← getElem?_state (h.size ▸ hsize), h.state]
    have hleading : Address.ofLeading a = Address.ofLeading b := by
      apply Address.ext_bytes
      rw [bytes_ofLeading (by omega), bytes_ofLeading (by rw [← h.size]; omega), h.mint]
    rw [htags, hstate, hleading]
  · rw [if_pos (show a.length ≠ size from hsize), if_pos (show a.length ≠ size from hsize)]

end PayeeProposal.TokenAccount
