import PayeeProposal.Proofs.Address
import PayeeProposal.Proofs.Eligibility

/-!
# The cache of associated addresses

The cache is used for derivations that are asked for and for the hints of warnings, in whatever
order they come. Everything it remembers is what a derivation gives, and remembering another
derivation keeps this so; each answer is thus the one that an empty cache would give.
-/

namespace PayeeProposal

/-! ## The derivation -/

namespace TokenHolding

variable {t : TokenHolding}

/-- The hash of some seeds under a program, which is an address of the program if it is no point of
the curve. -/
def programHash (seeds : List (List UInt8)) (program : Address) : List UInt8 :=
  Hash.sha256 (seeds.flatten ++ program.bytes ++ Text.utf8 "ProgramDerivedAddress")

/-- The hash of the wallet, the token program, the mint and a bump, in this order, under the program
that derives associated addresses. -/
def seedHash (t : TokenHolding) (bump : Nat) : List UInt8 :=
  programHash [t.wallet.bytes, t.tokenProgram.bytes, t.mint.bytes, [UInt8.ofNat bump]]
    Address.associatedTokenProgram

/-- The address is the hash for the largest bump below 256, but not zero, for which the hash is no
point of the curve. -/
structure LargestBump (t : TokenHolding) (bump : Nat) (a : Address) : Prop where
  pos : 0 < bump
  le : bump ≤ 255
  hash : a.bytes = t.seedHash bump
  suitable : Ed25519.isOnCurve (t.seedHash bump) = false
  largest : ∀ b, bump < b → b ≤ 255 → Ed25519.isOnCurve (t.seedHash b) = true

theorem bytes_candidate (t : TokenHolding) (bump : Nat) :
    (t.candidate bump).bytes = t.seedHash bump := by
  simp [candidate, seedHash, programHash, marker]

theorem isOnCurve_seedHash (t : TokenHolding) (bump : Nat) :
    Ed25519.isOnCurve (t.seedHash bump) = !t.isSuitable bump := by
  rw [isSuitable, Bool.not_not, bytes_candidate]

theorem bumpFrom_eq_some {n bump : Nat} (h : t.bumpFrom n = some bump) :
    0 < bump ∧ bump ≤ n ∧ t.isSuitable bump = true ∧
      ∀ b, bump < b → b ≤ n → t.isSuitable b = false := by
  induction n with
  | zero => simp [bumpFrom] at h
  | succ n ih =>
    unfold bumpFrom at h
    split at h
    · rename_i hsuitable
      obtain rfl := Option.some.inj h
      exact ⟨by omega, by omega, hsuitable, by omega⟩
    · rename_i hunsuitable
      obtain ⟨hpos, hle, hsuitable, hlargest⟩ := ih h
      refine ⟨hpos, by omega, hsuitable, fun b hlt hb => ?_⟩
      rcases Nat.lt_or_eq_of_le hb with hb | rfl
      · exact hlargest b hlt (by omega)
      · simpa using hunsuitable

theorem exists_bumpFrom {n b : Nat} (hpos : 0 < b) (hle : b ≤ n) (h : t.isSuitable b = true) :
    ∃ bump, t.bumpFrom n = some bump := by
  induction n with
  | zero => omega
  | succ n ih =>
    unfold bumpFrom
    split
    · exact ⟨n + 1, rfl⟩
    · rename_i hunsuitable
      rcases Nat.lt_or_eq_of_le hle with hle | rfl
      · exact ih (by omega)
      · exact absurd h hunsuitable

/-- Where some bump is suitable, the address is the hash for the largest one. -/
theorem address?_of_suitable {b : Nat} (hpos : 0 < b) (hle : b ≤ 255)
    (h : Ed25519.isOnCurve (t.seedHash b) = false) :
    ∃ bump a, t.LargestBump bump a ∧ t.address? = some a := by
  rw [isOnCurve_seedHash, Bool.not_eq_false'] at h
  obtain ⟨bump, hbump⟩ := exists_bumpFrom hpos hle h
  obtain ⟨hpos, hle, hsuitable, hlargest⟩ := bumpFrom_eq_some hbump
  refine ⟨bump, t.candidate bump, ⟨hpos, hle, t.bytes_candidate bump, ?_, fun b hlt hb => ?_⟩, ?_⟩
  · rw [isOnCurve_seedHash, hsuitable, Bool.not_true]
  · rw [isOnCurve_seedHash, hlargest b hlt hb, Bool.not_false]
  · rw [address?, hbump, Option.map_some]

/-- The first bump is suitable here. -/
example : Ed25519.isOnCurve ((TokenHolding.mk Address.systemProgram Address.systemProgram
    Address.tokenProgram).seedHash 255) = false := by decide +kernel

end TokenHolding

/-! ## The cache in use -/

namespace AddressCache

/-- What the cache is used for: a derivation that is asked for, or the hint of a warning. -/
inductive Use where
  | derive (t : TokenHolding)
  | warn (mint : Address) (check : PayeeCheck)

namespace Use

/-- The holding whose address a use needs, if it needs any. -/
def holding? : Use → Option TokenHolding
  | derive t => some t
  | warn mint check => check.suggestion? mint

/-- What a use gives without a cache. -/
def uncached (u : Use) : Option Address :=
  u.holding?.bind TokenHolding.address?

@[simp] theorem uncached_derive (t : TokenHolding) : (derive t).uncached = t.address? := by
  rw [uncached, holding?, Option.bind_some]

end Use

/-- What a use gives, and the cache after it. -/
def answer (cache : AddressCache) (u : Use) : Option Address × AddressCache :=
  match u.holding? with
  | none => (none, cache)
  | some t => cache.lookup t

/-- What some uses give one after another, and the cache after them. -/
def run (cache : AddressCache) : List Use → List (Option Address) × AddressCache
  | [] => ([], cache)
  | u :: us =>
    let (a, cache) := cache.answer u
    let (as, cache) := run cache us
    (a :: as, cache)

theorem lookupAll_eq_run (cache : AddressCache) (ts : List TokenHolding) :
    cache.lookupAll ts = cache.run (ts.map .derive) := by
  induction ts generalizing cache with
  | nil => rfl
  | cons t ts ih =>
    simp only [lookupAll, List.map_cons, run, answer, Use.holding?, ih]

theorem suggestions_eq_run (mint : Address) (cache : AddressCache) (checks : List PayeeCheck) :
    EligibilityReport.suggestions mint cache checks = cache.run (checks.map (.warn mint)) := by
  induction checks generalizing cache with
  | nil => rfl
  | cons c checks ih =>
    simp only [EligibilityReport.suggestions, List.map_cons, run, answer, Use.holding?]
    cases c.suggestion? mint with
    | none => simp only [ih]
    | some t => simp only [ih]

/-- Whatever is remembered of a holding is its address. -/
def Sound (cache : AddressCache) : Prop :=
  ∀ t a, cache.entries.lookup t = some a → a = t.address?

theorem sound_empty : empty.Sound := by
  intro t a h
  simp [empty] at h

theorem lookup_of_sound {cache : AddressCache} (h : cache.Sound) (t : TokenHolding) :
    (cache.lookup t).1 = t.address? ∧ (cache.lookup t).2.Sound := by
  generalize hfresh : t.address? = fresh
  unfold lookup
  rw [hfresh]
  cases hfound : cache.entries.lookup t with
  | some a => exact ⟨(h t a hfound).trans hfresh, h⟩
  | none =>
    refine ⟨rfl, fun u a hu => ?_⟩
    by_cases hut : u = t
    · subst hut
      rw [List.lookup_cons, beq_self_eq_true] at hu
      exact (Option.some.inj hu).symm.trans hfresh.symm
    · have hbeq : (u == t) = false := by simpa using hut
      rw [List.lookup_cons, hbeq] at hu
      exact h u a hu

theorem answer_of_sound {cache : AddressCache} (h : cache.Sound) (u : Use) :
    (cache.answer u).1 = u.uncached ∧ (cache.answer u).2.Sound := by
  unfold answer Use.uncached
  cases u.holding? with
  | none => exact ⟨(Option.bind_none _).symm, h⟩
  | some t =>
    rw [Option.bind_some]
    exact lookup_of_sound h t

theorem run_of_sound {cache : AddressCache} (h : cache.Sound) (us : List Use) :
    (cache.run us).1 = us.map Use.uncached ∧ (cache.run us).2.Sound := by
  induction us generalizing cache with
  | nil => exact ⟨rfl, h⟩
  | cons u us ih =>
    obtain ⟨hanswer, hsound⟩ := answer_of_sound h u
    obtain ⟨hrest, hsound⟩ := ih hsound
    refine ⟨?_, hsound⟩
    rw [run, List.map_cons, ← hanswer, ← hrest]

end AddressCache

/-! ## Hints -/

namespace Eligibility

variable {chain : Chain} {mint : Address} {payee : String}

theorem judgeData_ne_notTokenAccount {data : List UInt8} {owner : Address} :
    judgeData mint data ≠ .error (.notTokenAccount owner) := by
  unfold judgeData
  cases TokenAccount.mint data with
  | error e => simp
  | ok actual => by_cases h : actual = mint <;> simp [h]

/-- A payee is rejected for the program that owns its account only when there is the account. -/
theorem exists_of_verdict_eq_notTokenAccount {owner : Address}
    (h : (check chain mint payee).verdict = .error (.notTokenAccount owner)) :
    ∃ a account, Address.parseTrimmed payee = .ok a ∧ chain a = .found account ∧
      account.owner = owner := by
  unfold check verdict task at h
  cases ha : Address.parseTrimmed payee with
  | error e => simp [ha] at h
  | ok a =>
    cases hlookup : chain a with
    | absent => simp [ha, hlookup, judge] at h
    | failed reason => simp [ha, hlookup, judge] at h
    | crashed => simp [ha, hlookup, judge] at h
    | found account =>
      refine ⟨a, account, rfl, hlookup, ?_⟩
      by_cases howner : account.owner = Address.tokenProgram
      · simp [ha, hlookup, judge, howner, judgeData_ne_notTokenAccount] at h
      · simpa [ha, hlookup, judge, howner] using h

end Eligibility

namespace PayeeCheck

variable {mint : Address} {c : PayeeCheck}

/-- A hint is given of a plain wallet only. -/
theorem suggestion?_of_ne (h : c.verdict ≠ .error (.notTokenAccount Address.systemProgram)) :
    c.suggestion? mint = none := by
  unfold suggestion?
  split
  · rename_i owner howner
    rw [if_neg]
    rintro rfl
    exact h howner
  · rfl

theorem suggestion?_of_wallet {wallet : Address}
    (h : c.verdict = .error (.notTokenAccount Address.systemProgram))
    (hwallet : Address.parseTrimmed c.payee = .ok wallet) :
    c.suggestion? mint = some ⟨wallet, mint, Address.tokenProgram⟩ := by
  unfold suggestion?
  rw [h]
  simp only [if_true, hwallet]

end PayeeCheck

namespace AddressCache

/-- The hint that a warning of a payee's check gives: the address of the payee's own holding when
its account belongs to the system program, and nothing else. -/
structure Hints (chain : Chain) (mint : Address) (check : PayeeCheck) : Prop where
  wallet : check.verdict = .error (.notTokenAccount Address.systemProgram) →
    ∃ wallet account, Text.trim check.payee = wallet.text ∧ chain wallet = .found account ∧
      account.owner = Address.systemProgram ∧
      (Use.warn mint check).uncached =
        (TokenHolding.mk wallet mint Address.tokenProgram).address?
  none : check.verdict ≠ .error (.notTokenAccount Address.systemProgram) →
    (Use.warn mint check).uncached = none

theorem hints_check (chain : Chain) (mint : Address) (payee : String) :
    Hints chain mint (Eligibility.check chain mint payee) where
  wallet := by
    intro h
    obtain ⟨wallet, account, hwallet, hfound, howner⟩ :=
      Eligibility.exists_of_verdict_eq_notTokenAccount h
    have htrim : Text.trim payee = wallet.text := Address.parseTrimmed_eq_ok_iff.mp hwallet
    refine ⟨wallet, account, htrim, hfound, howner, ?_⟩
    rw [Use.uncached, Use.holding?, PayeeCheck.suggestion?_of_wallet h hwallet, Option.bind_some]
  none := by
    intro h
    rw [Use.uncached, Use.holding?, PayeeCheck.suggestion?_of_ne h, Option.bind_none]

/-- Whatever the cache has been used for since it was empty, each use gives what it gives without
the cache. For a derivation that is the hash for the largest suitable bump, if there is one. For a
warning of a check, in whatever order the tasks of its fan-out have been joined, it is the address
of the payee's own holding of the mint under the token program when the payee is the wallet of the
system program's account there, and nothing for any other verdict. -/
theorem run_transparent (uses : List Use) :
    (empty.run uses).1 = uses.map Use.uncached ∧
      (∀ ts, ((empty.run uses).2.lookupAll ts).1 = ts.map TokenHolding.address?) ∧
      (∀ mint checks, (EligibilityReport.suggestions mint (empty.run uses).2 checks).1 =
        checks.map fun check => (Use.warn mint check).uncached) ∧
      (∀ t : TokenHolding,
        (∃ bump, 0 < bump ∧ bump ≤ 255 ∧ Ed25519.isOnCurve (t.seedHash bump) = false) →
          ∃ bump a, t.LargestBump bump a ∧ t.address? = some a) ∧
      ∀ chain mint ids payees schedule, Function.Injective ids →
        let s := (Eligibility.FanOut.spawn ids payees).run chain mint schedule
        s.finished = true → ∀ check ∈ s.report.checks, Hints chain mint check := by
  obtain ⟨hrun, hsound⟩ := run_of_sound sound_empty uses
  refine ⟨hrun, fun ts => ?_, fun mint checks => ?_, ?_, ?_⟩
  · rw [lookupAll_eq_run, (run_of_sound hsound _).1, List.map_map]
    simp only [Function.comp_def, Use.uncached_derive]
  · rw [suggestions_eq_run, (run_of_sound hsound _).1, List.map_map]
    simp only [Function.comp_def]
  · rintro t ⟨bump, hpos, hle, hsuitable⟩
    exact TokenHolding.address?_of_suitable hpos hle hsuitable
  · intro chain mint ids payees schedule hids s hdone check hcheck
    rw [Eligibility.FanOut.report_of_finished (Eligibility.FanOut.follows_run hids _) hdone]
      at hcheck
    obtain ⟨payee, -, rfl⟩ := List.mem_map.mp hcheck
    exact hints_check chain mint payee

end AddressCache

end PayeeProposal
