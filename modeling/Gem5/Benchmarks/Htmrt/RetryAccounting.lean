import Gem5.Benchmarks.Htmrt.AbortHandler
import Gem5.Foundation.Transition
import Mathlib.Data.Bool.Basic

/-!
# Which attempts are counted

The failed attempts of one call of `beginTransaction_fallbackLock`, with the status that
the simulator makes of each failure and any values of the fallback lock and the power
flag.  `Failure.isExcused` says which attempts the rules of the handler excuse.  An
attempt cancelled because of the fallback lock reaches the handler as a memory conflict,
so it is excused only if the lock is still held by then, and one conflict may be excused
by two rules at once.
-/

namespace Gem5.Htmrt

open Foundation

/-- A failed attempt: its cause, and what the handler then finds in the fallback lock and the power
flag.  `acquires` is the answer of a compare-and-swap on the power flag. -/
structure Failure where
  cause : HtmFailureFaultCause
  context : X86.FailureContext
  isLocked : Bool
  powerTaken : Bool
  acquires : Bool
  deriving DecidableEq, Repr

/-- The status that `xbegin` returns. -/
def Failure.status (failure : Failure) : Checked (BitVec 64) :=
  X86.abortStatus failure.context failure.cause

section Rules

variable (handler : Handler) (onPower : Bool) (failure : Failure)

/-- The cause that the instruction set shows. -/
def Failure.shows (cause : HtmFailureFaultCause) : Bool :=
  succeedsWith (getIsaVisibleHtmFailureCause failure.cause) (· = cause)

/-- `xabort` with the code for an acquired lock. -/
def Failure.isLockAcquired : Bool :=
  failure.cause = .explicitFallbackLock ||
    (failure.shows .explicit && failure.context.abortReason.setWidth 8 = 0xff#8)

/-- A conflict while the lock is held. -/
def Failure.isLockedConflict : Bool := failure.shows .memory && failure.isLocked

/-- Killed by a power transaction: by the status, or as a guess by the power flag. -/
def Failure.isKilledByPower : Bool :=
  if handler.isPreciseAborts then failure.shows .memory && failure.context.memoryPower
  else handler.isPowerTm && !onPower && failure.powerTaken && !failure.shows .explicit &&
    !failure.shows .disabled

/-- Speculation is disabled for now. -/
def Failure.isDisabled : Bool :=
  failure.shows .disabled && failure.context.forceHtmRetryStatusBit

/-- The attempts that the rules of the handler excuse. -/
def Failure.isExcused : Bool :=
  failure.isLockAcquired || failure.isLockedConflict || failure.isKilledByPower handler onPower ||
    failure.isDisabled

end Rules

/-- A call of `beginTransaction_fallbackLock` after some failed attempts, with the number of
attempts, the excused ones and the arguments of `doBackoff` so far. -/
structure BeginCall where
  locals : Locals := {}
  ownsPower : Bool := false
  attempts : Nat := 0
  excused : Nat := 0
  backoffs : List Int := []
  deriving DecidableEq, Repr

namespace BeginCall

variable (handler : Handler) (htmMaxRetries : Nat) (useBackoff : Bool)

/-- The attempt is recorded, and `doBackoff` if it is called. -/
def record (call : BeginCall) (failure : Failure) (locals : Locals) (backsOff : Bool) :
    BeginCall where
  locals := locals
  ownsPower := call.ownsPower || locals.txExecOnPower
  attempts := call.attempts + 1
  excused := call.excused +
    if failure.isExcused handler (handler.isPowerTm && call.ownsPower) then 1 else 0
  backoffs := if backsOff then call.backoffs ++ [locals.nretries] else call.backoffs

/-- One iteration of the loop with a failed attempt. -/
def fail (call : BeginCall) (failure : Failure) : Checked BeginCall := do
  assertThat (call.locals.retryWithLock = false) "retryWithLock == 0"
  let status ← failure.status
  let locals := { call.locals.attempt handler call.ownsPower with ret := status }
  let locals := locals.excuseConflict failure.isLocked
  match locals.retryOnPower htmMaxRetries with
  | (true, locals) => return call.record handler failure locals false
  | (false, locals) => do
    let locals ← locals.account handler htmMaxRetries failure.powerTaken
    let locals ← locals.chooseMode handler htmMaxRetries failure.acquires
    return call.record handler failure locals (locals.backsOff handler useBackoff)

/-- What each attempt must meet for the count to be right: a cancel because of the lock finds the
lock still held, a conflict with the lock held is not also taken for the work of a power
transaction, a power transaction is not killed by another one and not disabled, and a thread that
tries to become powered succeeds. -/
structure CountsRight (call : BeginCall) (failure : Failure) : Prop where
  lockAcquired : failure.cause = .explicitFallbackLock → failure.isLocked = true
  once : failure.isLockedConflict = true →
    failure.isKilledByPower handler (handler.isPowerTm && call.ownsPower) = false
  powered : call.ownsPower = true →
    failure.isKilledByPower handler (handler.isPowerTm && call.ownsPower) = false ∧
      failure.isDisabled = false
  acquires : handler.isPowerTm = true → failure.acquires = true

/-- The count, and the arguments of `doBackoff`. -/
structure Counted (call : BeginCall) : Prop where
  count : call.locals.nretries = call.attempts - call.excused
  excused : call.excused ≤ call.attempts
  backoffs : ∀ argument ∈ call.backoffs, 0 ≤ argument ∧ argument ≤ htmMaxRetries

variable {handler htmMaxRetries useBackoff}

/-- The attempt is counted, or excused by exactly one decrement. -/
theorem Counted.record {call : BeginCall} {failure : Failure} {locals : Locals} {backsOff : Bool}
    (counted : call.Counted htmMaxRetries) (change : locals.nretries = call.locals.nretries + 1 -
      if failure.isExcused handler (handler.isPowerTm && call.ownsPower) then 1 else 0)
    (bounded : backsOff = true → locals.nretries ≤ htmMaxRetries) :
    (call.record handler failure locals backsOff).Counted htmMaxRetries := by
  obtain ⟨count, excused, backoffs⟩ := counted
  have net : locals.nretries = (call.record handler failure locals backsOff).attempts -
      (call.record handler failure locals backsOff).excused := by
    simp only [BeginCall.record]
    generalize failure.isExcused handler (handler.isPowerTm && call.ownsPower) = excuse at change ⊢
    cases excuse <;> simp only [Bool.false_eq_true, ↓reduceIte] at change ⊢ <;> push_cast <;> omega
  have bound : (call.record handler failure locals backsOff).excused ≤
      (call.record handler failure locals backsOff).attempts := by
    simp only [BeginCall.record]
    split <;> omega
  refine ⟨net, bound, fun argument listed => ?_⟩
  simp only [BeginCall.record] at listed
  split at listed
  · next calls =>
    rw [List.mem_append, List.mem_singleton] at listed
    rcases listed with before | rfl
    · exact backoffs argument before
    · exact ⟨by omega, bounded calls⟩
  · exact backoffs argument listed

section Attempt

variable {failure : Failure} {visible : HtmFailureFaultCause} {locals next : Locals}

section

variable (shown : getIsaVisibleHtmFailureCause failure.cause = .ok visible)

include shown

private theorem shows_eq
    (cause : HtmFailureFaultCause) : failure.shows cause = decide (visible = cause) := by
  simp [Failure.shows, shown, succeedsWith]

/-- A cancel because of the lock is shown as a conflict. -/
theorem memory_of_fallbackLock
    (cancelled : failure.cause = .explicitFallbackLock) : visible = .memory := by
  rw [cancelled] at shown
  exact (pure_eq_ok.mp shown).symm

/-- The rules that `account` applies: the code of `xabort`, disabled speculation, and the power
transaction. -/
theorem account_change (bits : X86.StatusOf failure.context visible locals.ret)
    (accounted : locals.account handler htmMaxRetries failure.powerTaken = .ok next) :
    next.nretries = locals.nretries -
      if (failure.shows .explicit && failure.context.abortReason.setWidth 8 = 0xff#8) ||
        failure.isKilledByPower handler locals.txExecOnPower || failure.isDisabled
      then 1 else 0 := by
  have code : visible = .explicit → (htmAbortCodeIsLockAcquired
      (htmAbortCauseExplicitCode locals.ret) =
        decide (failure.context.abortReason.setWidth 8 = 0xff#8)) := by
    intro explicit
    rw [explicitCode_of_status bits explicit, htmAbortCodeIsLockAcquired, decide_eq_decide]
    constructor
    · intro same
      have low := congrArg (BitVec.setWidth 8) same
      simpa using low
    · intro same
      rw [same]
      rfl
  simp only [Locals.account, explicit_of_status bits, disabled_of_status bits,
    conflictPower_of_status bits, decide_eq_true_eq] at accounted
  simp only [Failure.isKilledByPower, Failure.isDisabled, shows_eq shown]
  split at accounted
  · next explicit =>
    subst explicit
    rw [code rfl] at accounted
    split at accounted
    · next lockAcquired =>
      obtain rfl := pure_eq_ok.mp accounted
      simp_all
    · next other =>
      simp only [run_eq_ok] at accounted
      obtain ⟨-, rfl⟩ := accounted
      simp_all
  split at accounted
  · next disabled =>
    subst disabled
    have retries := maySucceed_of_status bits
    split at accounted
    · next may =>
      simp only [run_eq_ok] at accounted
      obtain ⟨-, rfl⟩ := accounted
      simp_all
    · next final =>
      obtain rfl := pure_eq_ok.mp accounted
      simp_all
  · next explicit disabled =>
    repeat' split at accounted
    all_goals
      obtain rfl := pure_eq_ok.mp accounted
      grind

end

/-- The mode is chosen without counting; afterwards a thread that backs off has retries left. -/
theorem chooseMode_ok (acquires : handler.isPowerTm = true → failure.acquires = true)
    (chosen : locals.chooseMode handler htmMaxRetries failure.acquires = .ok next) :
    next.nretries = locals.nretries ∧
      (next.backsOff handler useBackoff = true → next.nretries ≤ htmMaxRetries) := by
  unfold Locals.chooseMode at chosen
  split at chosen
  · obtain rfl := pure_eq_ok.mp chosen
    exact ⟨rfl, by simp [Locals.backsOff]⟩
  split at chosen
  · split at chosen
    · next power =>
      simp only [run_eq_ok] at chosen
      obtain ⟨-, rfl⟩ := chosen
      exact ⟨rfl, by simp [Locals.backsOff, power, acquires power]⟩
    · obtain rfl := pure_eq_ok.mp chosen
      exact ⟨rfl, by simp [Locals.backsOff]⟩
  · next left =>
    obtain rfl := pure_eq_ok.mp chosen
    refine ⟨rfl, fun backsOff => ?_⟩
    simp only [Locals.isExhausted, Bool.and_eq_true, decide_eq_true_eq, Bool.not_eq_true',
      not_and] at left
    simp only [Locals.backsOff, Bool.and_eq_true, Bool.not_eq_true'] at backsOff
    by_contra beyond
    exact absurd backsOff.1.1 (left (by omega))

/-- An attempt in power mode that is repeated at once. -/
theorem retryOnPower_true (repeats : locals.retryOnPower htmMaxRetries = (true, next)) :
    locals.txExecOnPower = true ∧ htmMaySucceedOnRetry locals.ret = true ∧
      next.nretries = locals.nretries := by
  unfold Locals.retryOnPower at repeats
  split at repeats
  · next onPower =>
    dsimp only at repeats
    split at repeats
    · next may =>
      split at repeats
      · simp at repeats
      · obtain ⟨-, rfl⟩ := Prod.mk.inj repeats
        exact ⟨onPower, may, rfl⟩
    · simp at repeats
  · simp at repeats

private theorem retryOnPower_false (goesOn : locals.retryOnPower htmMaxRetries = (false, next)) :
    next.nretries = locals.nretries ∧ next.ret = locals.ret ∧
      next.txExecOnPower = locals.txExecOnPower := by
  unfold Locals.retryOnPower at goesOn
  split at goesOn
  · dsimp only at goesOn
    split at goesOn
    · split at goesOn
      · obtain ⟨-, rfl⟩ := Prod.mk.inj goesOn
        exact ⟨rfl, rfl, rfl⟩
      · simp at goesOn
    · obtain ⟨-, rfl⟩ := Prod.mk.inj goesOn
      exact ⟨rfl, rfl, rfl⟩
  · obtain ⟨-, rfl⟩ := Prod.mk.inj goesOn
    exact ⟨rfl, rfl, rfl⟩

end Attempt

/-- One failed attempt that meets the conditions: an excused one is excused by one decrement. -/
theorem fail_record {call next : BeginCall} {failure : Failure}
    (right : call.CountsRight handler failure)
    (failed : call.fail handler htmMaxRetries useBackoff failure = .ok next) :
    ∃ locals backsOff, next = call.record handler failure locals backsOff ∧
      locals.nretries = call.locals.nretries + 1 -
        (if failure.isExcused handler (handler.isPowerTm && call.ownsPower) then 1 else 0) ∧
      (backsOff = true → locals.nretries ≤ htmMaxRetries) := by
  simp only [BeginCall.fail, Failure.status, X86.abortStatus, run_eq_ok] at failed
  obtain ⟨-, status, ⟨visible, shown, restored⟩, failed⟩ := failed
  have bits := X86.StatusOf.of_restore restored
  have lockAcquired : failure.cause = .explicitFallbackLock → failure.isLockedConflict = true := by
    intro cancelled
    simp [Failure.isLockedConflict, shows_eq shown, memory_of_fallbackLock shown cancelled,
      right.lockAcquired cancelled]
  generalize reading : ({ call.locals.attempt handler call.ownsPower with ret := status } :
    Locals).excuseConflict failure.isLocked = locals at failed
  have excused : locals.nretries = call.locals.nretries + 1 -
      (if failure.isLockedConflict then 1 else 0) ∧ locals.ret = status ∧
      locals.txExecOnPower = (handler.isPowerTm && call.ownsPower) := by
    rw [← reading]
    simp only [Locals.excuseConflict, Locals.attempt, conflict_of_status bits,
      Failure.isLockedConflict, shows_eq shown]
    split <;> simp
  obtain ⟨count, rfl, onPower⟩ := excused
  split at failed
  · next again repeats =>
    obtain ⟨powered, may, same⟩ := retryOnPower_true repeats
    obtain rfl := pure_eq_ok.mp failed
    refine ⟨again, false, rfl, ?_, by simp⟩
    rw [onPower, Bool.and_eq_true] at powered
    obtain ⟨alive, enabled⟩ := right.powered powered.2
    have notExplicit : failure.shows .explicit = false := by
      rw [shows_eq shown, decide_eq_false_iff_not]
      rintro rfl
      simpa using (maySucceed_of_status bits).mp may
    rw [same, count, Failure.isExcused, alive, enabled, Failure.isLockAcquired, notExplicit]
    grind
  · next again goesOn =>
    obtain ⟨same, ret, power⟩ := retryOnPower_false goesOn
    simp only [run_eq_ok] at failed
    obtain ⟨accounted, accounting, chosen, choosing, rfl⟩ := failed
    have change := account_change shown (ret ▸ bits) accounting
    obtain ⟨kept, bounded⟩ := chooseMode_ok right.acquires choosing
    refine ⟨chosen, _, rfl, ?_, bounded⟩
    rw [kept, change, same, count, power, onPower]
    have once := right.once
    have shownOnce : failure.isLockedConflict = true →
        failure.shows .explicit = false ∧ failure.isDisabled = false := by
      simp only [Failure.isLockedConflict, Failure.isDisabled, shows_eq shown]
      grind
    simp only [Failure.isExcused, Failure.isLockAcquired]
    grind

variable (handler htmMaxRetries useBackoff) in
/-- The failed attempts of one call, in order. -/
def attemptSystem : TransitionSystem BeginCall Failure :=
  .ofExcept (· = {}) (fail handler htmMaxRetries useBackoff)

private theorem counted_invariant : ((attemptSystem handler htmMaxRetries useBackoff).restrict
      (CountsRight handler)).Invariant (Counted htmMaxRetries) where
  initial := by
    rintro _ rfl
    exact ⟨rfl, Nat.le_refl _, by simp⟩
  preserved := by
    intro call failure next counted step
    obtain ⟨right, failed⟩ := step
    obtain ⟨locals, backsOff, rfl, change, bounded⟩ := fail_record right failed
    exact counted.record change bounded

/-- In every sequence of failed attempts that meet `CountsRight`, `nretries` is the number of
attempts that no rule excuses and so never negative, `doBackoff` receives a number from `0` to
`htm_max_retries`, and an attempt that found the fallback lock taken leaves `nretries` as it was. -/
theorem nretries_eq_unexcused {call : BeginCall}
    (reachable : ((attemptSystem handler htmMaxRetries useBackoff).restrict
      (CountsRight handler)).Reachable call) :
    call.locals.nretries = call.attempts - call.excused ∧ 0 ≤ call.locals.nretries ∧
    (∀ argument ∈ call.backoffs, 0 ≤ argument ∧ argument ≤ htmMaxRetries) ∧
    ∀ failure next, call.CountsRight handler failure →
      call.fail handler htmMaxRetries useBackoff failure = .ok next →
      failure.isLockAcquired = true → next.locals.nretries = call.locals.nretries := by
  obtain ⟨count, excused, backoffs⟩ := counted_invariant.of_reachable reachable
  refine ⟨count, by omega, backoffs, fun failure next right failed found => ?_⟩
  obtain ⟨locals, backsOff, rfl, change, -⟩ := fail_record right failed
  have excuse : failure.isExcused handler (handler.isPowerTm && call.ownsPower) = true := by
    simp [Failure.isExcused, found]
  rw [excuse] at change
  simpa [BeginCall.record] using change

end BeginCall

/-- The transaction finds the lock taken and cancels; `isLocked` is what the handler then finds. -/
def lockTakenFailure (isLocked : Bool) : Failure where
  cause := .explicitFallbackLock
  context :=
    { abortReason := 0xff#16, memoryPower := false, forceHtmDisabled := false,
      forceHtmRetryStatusBit := false, htmUndoLogSize := 0 }
  isLocked := isLocked
  powerTaken := false
  acquires := true

/-- A conflict, with the lock held and the power flag taken or not. -/
def conflictFailure (isLocked powerTaken : Bool) : Failure :=
  { lockTakenFailure isLocked with cause := .memory, powerTaken := powerTaken }

namespace BeginCall

/-- After a conflict that counts, a cancel with the lock still held does not. -/
theorem nretries_eq_unexcused_lockHeld :
    ∃ call next : BeginCall, call.attempts = 1 ∧ call.locals.nretries = 1 ∧
      call.fail .fallbackLock 4 true (lockTakenFailure true) = .ok next ∧
      next.locals.nretries = 1 := by
  obtain ⟨call, first, one, noExcuse, unpowered, next, second⟩ : ∃ call,
      ({} : BeginCall).fail .fallbackLock 4 true (conflictFailure false false) = .ok call ∧
      call.attempts = 1 ∧ call.excused = 0 ∧ call.ownsPower = false ∧
      ∃ next, call.fail .fallbackLock 4 true (lockTakenFailure true) = .ok next := by
    decide +kernel
  have counted : ({} : BeginCall).CountsRight .fallbackLock (conflictFailure false false) :=
    ⟨by decide, by decide, by decide, by decide⟩
  have excused : call.CountsRight .fallbackLock (lockTakenFailure true) :=
    ⟨by decide, by rw [unpowered]; decide, by simp [unpowered], by decide⟩
  have reachable : ((attemptSystem .fallbackLock 4 true).restrict
      (CountsRight .fallbackLock)).Reachable call :=
    (TransitionSystem.Reachable.of_initial rfl).step ⟨counted, first⟩
  obtain ⟨count, -, -, lockTaken⟩ := nretries_eq_unexcused reachable
  have kept := lockTaken (lockTakenFailure true) next excused second (by decide)
  rw [one, noExcuse] at count
  exact ⟨call, next, one, count, second, kept.trans count⟩

/-- A cancel because of the lock is counted if the lock has been released when the handler looks,
and a conflict with the lock held and the power flag taken is excused twice: `doBackoff` then
receives `-1`. -/
theorem lockTaken_counted_and_conflict_excused_twice :
    (∃ call, (attemptSystem .fallbackLock 4 true).Reachable call ∧ call.attempts = 1 ∧
      call.excused = 1 ∧ call.locals.nretries = 1) ∧
    ∃ call, (attemptSystem .powerTm 4 true).Reachable call ∧ call.attempts = 1 ∧
      call.locals.nretries = -1 ∧ call.backoffs = [-1] := by
  have reached : ∀ {handler call failure}, ({} : BeginCall).fail handler 4 true failure = .ok call →
      (attemptSystem handler 4 true).Reachable call :=
    fun ran => (TransitionSystem.Reachable.of_initial rfl).step ran
  have counted : ∃ call, ({} : BeginCall).fail .fallbackLock 4 true (lockTakenFailure false) =
      .ok call ∧ call.attempts = 1 ∧ call.excused = 1 ∧ call.locals.nretries = 1 := by
    decide +kernel
  have twice : ∃ call, ({} : BeginCall).fail .powerTm 4 true (conflictFailure true true) =
      .ok call ∧ call.attempts = 1 ∧ call.locals.nretries = -1 ∧ call.backoffs = [-1] := by
    decide +kernel
  exact ⟨counted.imp fun _ => And.imp_left reached, twice.imp fun _ => And.imp_left reached⟩

end BeginCall

end Gem5.Htmrt
