import PayeeProposal.AssociatedAddress
import PayeeProposal.Chain
import PayeeProposal.TokenAccount

/-!
# Eligibility of payees

A payee is eligible when its address holds a token account of the mint. All payees are checked
at once, each by a task of its own; the tasks end in any order, a task may break off, and the
report has one check for each payee in the order of the payees.
-/

namespace PayeeProposal

/-- Why a task has no verdict. -/
inductive Abortion where
  /-- The task broke off. -/
  | crashed
  /-- Nothing has been written down for the payee. -/
  | unrecorded
deriving DecidableEq

/-- What is reported of a task that has no verdict; the number of one that broke off and its last
words are left out. -/
def Abortion.message : Abortion → String
  | .crashed => "task panicked"
  | .unrecorded => "未返回结果"

/-- Why a payee is not eligible. -/
inductive Ineligibility where
  | invalidAddress (error : AddressError)
  | notFound
  | notTokenAccount (owner : Address)
  | unreadable (error : TokenAccountError)
  | mintMismatch (expected actual : Address)
  | lookup (reason : String)
  /-- The task has no verdict. -/
  | aborted {reason : Abortion}
deriving DecidableEq

/-- The task broke off. -/
@[match_pattern]
abbrev Ineligibility.crashed : Ineligibility :=
  @aborted .crashed

/-- Nothing has been written down for the payee. -/
@[match_pattern]
abbrev Ineligibility.unrecorded : Ineligibility :=
  @aborted .unrecorded

/-- What is reported of a payee that is not eligible. -/
def Ineligibility.message : Ineligibility → String
  | .invalidAddress error => "地址非法: " ++ error.message
  | .notFound => "账户不存在"
  | .notTokenAccount owner => "账户 owner " ++ owner.text ++ " 不是 SPL Token Program"
  | .unreadable error => "代币账户解析失败: " ++ error.message
  | .mintMismatch expected actual =>
    "代币账户 mint " ++ actual.text ++ " 与期望的 " ++ expected.text ++ " 不一致"
  | .lookup reason => "查询失败: " ++ reason
  | @Ineligibility.aborted reason => "校验任务异常退出: " ++ reason.message

/-- Whether a payee is eligible, or why not. -/
abbrev Verdict : Type :=
  Except Ineligibility Unit

/-- A payee and what came of checking it. -/
structure PayeeCheck where
  payee : String
  verdict : Verdict

namespace PayeeCheck

/-- Whether the payee is eligible. -/
def isEligible (c : PayeeCheck) : Bool :=
  match c.verdict with
  | .ok _ => true
  | .error _ => false

/-- The holding whose address may serve in place of the payee: that of the payee itself, when it
is a plain wallet. -/
def suggestion? (mint : Address) (c : PayeeCheck) : Option TokenHolding :=
  match c.verdict with
  | .error (.notTokenAccount owner) =>
    if owner = Address.systemProgram then
      match Address.parseTrimmed c.payee with
      | .ok wallet => some ⟨wallet, mint, Address.tokenProgram⟩
      | .error _ => none
    else none
  | _ => none

end PayeeCheck

/-- The checks of all payees, in order. -/
structure EligibilityReport where
  checks : List PayeeCheck

namespace EligibilityReport

/-- Whether every payee is eligible. -/
def allEligible (r : EligibilityReport) : Bool :=
  r.checks.all PayeeCheck.isEligible

/-- The payees that are not eligible. -/
def failed (r : EligibilityReport) : List String :=
  (r.checks.filter fun c => !c.isEligible).map PayeeCheck.payee

/-- The addresses that a warning suggests for each check, and the cache after deriving them. -/
def suggestions (mint : Address) (cache : AddressCache) :
    List PayeeCheck → List (Option Address) × AddressCache
  | [] => ([], cache)
  | c :: cs =>
    let (a, cache) :=
      match c.suggestion? mint with
      | none => (none, cache)
      | some holding => cache.lookup holding
    let (as, cache) := suggestions mint cache cs
    (a :: as, cache)

end EligibilityReport

namespace Eligibility

/-- What a token account's data say of a payee. -/
def judgeData (mint : Address) (data : List UInt8) : Verdict :=
  match TokenAccount.mint data with
  | .error e => .error (.unreadable e)
  | .ok actual => if actual = mint then .ok () else .error (.mintMismatch mint actual)

/-- What comes of looking at a payee's address; nothing when the lookup breaks off. -/
def judge (mint : Address) : Lookup → Option Verdict
  | .failed reason => some (.error (.lookup reason))
  | .absent => some (.error .notFound)
  | .found account =>
    if account.owner = Address.tokenProgram then some (judgeData mint account.data)
    else some (.error (.notTokenAccount account.owner))
  | .crashed => none

/-- What a task gives for a payee; nothing when it breaks off. -/
def task (chain : Chain) (mint : Address) (payee : String) : Option Verdict :=
  match Address.parseTrimmed payee with
  | .error e => some (.error (.invalidAddress e))
  | .ok a => judge mint (chain a)

/-- The verdict on one payee. -/
def verdict (chain : Chain) (mint : Address) (payee : String) : Verdict :=
  (task chain mint payee).getD (.error .crashed)

/-! ## Tasks side by side -/

/-- How far a task has come. -/
inductive Progress where
  /-- It has been spawned. -/
  | spawned
  /-- It has asked for the account at an address. -/
  | asked (a : Address)
  /-- It has ended with a verdict, or broken off with none. -/
  | ended (outcome : Option Verdict)
  /-- It has been joined: its end has been taken notice of. -/
  | joined

/-- Whether a task has been joined. -/
def Progress.isJoined : Progress → Bool
  | .joined => true
  | _ => false

/-- A task that checks a payee. -/
structure Task where
  id : Nat
  payee : String
  progress : Progress

/-- Tasks for all payees, in the order of the payees. `slots` tells the position of the payee that
a task was spawned for; `reads` has every question for an account, with the position of the task
that asked it. -/
structure FanOut where
  tasks : List Task
  slots : List (Nat × Nat)
  verdicts : List (Option Verdict)
  reads : List (Nat × Address)

namespace FanOut

/-- A task for each payee has been spawned; `ids` gives the numbers of the tasks. -/
def spawn (ids : Nat → Nat) (payees : List String) : FanOut where
  tasks := payees.mapIdx fun i payee => ⟨ids i, payee, .spawned⟩
  slots := (List.range payees.length).map fun i => (ids i, i)
  verdicts := List.replicate payees.length none
  reads := []

/-- The task at a position has come further. -/
def move (s : FanOut) (i : Nat) (p : Progress) : FanOut :=
  { s with tasks := s.tasks.modify i fun t => { t with progress := p } }

/-- The task at a position asks for the account at an address. -/
def ask (s : FanOut) (i : Nat) (a : Address) : FanOut :=
  { s with reads := s.reads ++ [(i, a)] }

/-- A verdict is written down for the payee at a position. -/
def record (s : FanOut) (i : Nat) (v : Verdict) : FanOut :=
  { s with verdicts := s.verdicts.set i (some v) }

/-- Takes notice of the end of the task at a position. A task that ends says itself which payee its
verdict is for; of one that breaks off only the number is known. -/
def join (s : FanOut) (i id : Nat) : Option Verdict → FanOut
  | some v => (s.move i .joined).record i v
  | none =>
    match s.slots.lookup id with
    | some position => (s.move i .joined).record position (.error .crashed)
    | none => s.move i .joined

/-- The next thing that happens to the task at a position. -/
def step (chain : Chain) (mint : Address) (s : FanOut) (i : Nat) : FanOut :=
  match s.tasks[i]? with
  | none => s
  | some t =>
    match t.progress with
    | .spawned =>
      match Address.parseTrimmed t.payee with
      | .error e => s.move i (.ended (some (.error (.invalidAddress e))))
      | .ok a => (s.move i (.asked a)).ask i a
    | .asked a => s.move i (.ended (judge mint (chain a)))
    | .ended outcome => s.join i t.id outcome
    | .joined => s

/-- What becomes of the tasks when those at some positions go on, one after another. -/
def run (chain : Chain) (mint : Address) (s : FanOut) (schedule : List Nat) : FanOut :=
  schedule.foldl (step chain mint) s

/-- Whether all tasks have been joined. -/
def finished (s : FanOut) : Bool :=
  s.tasks.all fun t => t.progress.isJoined

/-- The report as far as verdicts have been written down. -/
def report (s : FanOut) : EligibilityReport :=
  ⟨(s.tasks.zip s.verdicts).map fun tv => ⟨tv.1.payee, tv.2.getD (.error .unrecorded)⟩⟩

/-- The addresses that have been asked about, in the order of the questions. -/
def asked (s : FanOut) : List Address :=
  s.reads.map Prod.snd

end FanOut

/-- The schedule in which every task is joined before the next one goes on. -/
def inTurn (count : Nat) : List Nat :=
  (List.range count).flatMap fun i => [i, i, i]

/-- The tasks for all payees when every one has been joined. -/
def checked (chain : Chain) (mint : Address) (payees : List String) : FanOut :=
  (FanOut.spawn id payees).run chain mint (inTurn payees.length)

/-- The report on all payees. -/
def report (chain : Chain) (mint : Address) (payees : List String) : EligibilityReport :=
  (checked chain mint payees).report

/-- The addresses that are looked at: one for each payee whose text is an address. -/
def reads (payees : List String) : List Address :=
  payees.filterMap fun payee => (Address.parseTrimmed payee).toOption

end Eligibility

end PayeeProposal
