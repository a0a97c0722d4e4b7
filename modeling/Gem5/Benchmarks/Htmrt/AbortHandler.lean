import Gem5.Arch.X86.Htm

/-!
# The abort handler of the runtime

The local part of `beginTransaction_fallbackLock`: what one iteration of its loop does
to its variables, given the abort status and the values it reads from the fallback lock
and the power flag.  The preprocessor variants are those the Makefile builds.
-/

namespace Gem5.Htmrt

open Foundation

/-- The handlers of the Makefile, all of which define `HANDLER_FALLBACKLOCK`. -/
inductive Handler where
  | fallbackLock
  | fallbackLock2Phase
  | powerTm
  | powerTmPlus
  deriving DecidableEq, Repr

/-- `HANDLER_POWERTM`. -/
def Handler.isPowerTm : Handler → Bool
  | .powerTm | .powerTmPlus => true
  | .fallbackLock | .fallbackLock2Phase => false

/-- `HANDLER_POWERTM_PRECISEABORTS`. -/
def Handler.isPreciseAborts : Handler → Bool
  | .powerTmPlus => true
  | .fallbackLock | .fallbackLock2Phase | .powerTm => false

/-- `HANDLER_FALLBACKLOCK_2PHASE`. -/
def Handler.isTwoPhase : Handler → Bool
  | .fallbackLock2Phase => true
  | .fallbackLock | .powerTm | .powerTmPlus => false

section Status

variable (status : BitVec 64)

/-- `htm_abort_cause_explicit`. -/
def htmAbortCauseExplicit : Bool := status &&& (1#64 <<< 0) ≠ 0#64

/-- `htm_may_succeed_on_retry`. -/
def htmMaySucceedOnRetry : Bool := status &&& (1#64 <<< 1) ≠ 0#64

/-- `htm_abort_cause_conflict`. -/
def htmAbortCauseConflict : Bool := status &&& (1#64 <<< 2) ≠ 0#64

/-- `htm_abort_cause_disabled`. -/
def htmAbortCauseDisabled : Bool := status &&& (1#64 <<< 6) ≠ 0#64

/-- `htm_abort_cause_conflict_power`. -/
def htmAbortCauseConflictPower : Bool := status &&& (1#64 <<< 8) ≠ 0#64

/-- `htm_abort_cause_explicit_code`. -/
def htmAbortCauseExplicitCode : BitVec 64 := (status >>> 24) &&& 0xFF#64

end Status

/-- `htm_abort_code_is_lock_acquired`. -/
def htmAbortCodeIsLockAcquired (code : BitVec 64) : Bool := code = 0xff#64

/-- `htm_abort_code_is_default`. -/
def htmAbortCodeIsDefault (code : BitVec 64) : Bool := code = 0xfe#64

/-- The variables of `beginTransaction_fallbackLock`. -/
structure Locals where
  nretries : Int := 0
  retryWithLock : Bool := false
  txExecOnPower : Bool := false
  nRetriesPowerMode : Nat := 0
  ret : BitVec 64 := 0
  deriving DecidableEq, Repr

namespace Locals

variable (handler : Handler) (htmMaxRetries : Nat) (locals : Locals)

/-- The top of the loop; `ownsPower` is what the thread reads from the power flag. -/
def attempt (ownsPower : Bool) : Locals :=
  { locals with
    nretries := locals.nretries + 1, txExecOnPower := handler.isPowerTm && ownsPower }

/-- A conflict while the lock is held is not counted. -/
def excuseConflict (isLocked : Bool) : Locals :=
  if htmAbortCauseConflict locals.ret && isLocked then
    { locals with nretries := locals.nretries - 1 }
  else locals

/-- A failed attempt in power mode is repeated at once, at most `htm_max_retries` times.  The first
component tells that the loop continues. -/
def retryOnPower : Bool × Locals :=
  if locals.txExecOnPower then
    let locals := { locals with nRetriesPowerMode := locals.nRetriesPowerMode + 1 }
    if htmMaySucceedOnRetry locals.ret then
      if htmMaxRetries < locals.nRetriesPowerMode then
        (false, { locals with retryWithLock := true })
      else (true, locals)
    else (false, locals)
  else (false, locals)

/-- The attempts that do not count by their status; `powerTaken` is what the thread reads from the
power flag. -/
def account (powerTaken : Bool) : Checked Locals :=
  let excused := { locals with nretries := locals.nretries - 1 }
  if htmAbortCauseExplicit locals.ret then
    if htmAbortCodeIsLockAcquired (htmAbortCauseExplicitCode locals.ret) then return excused
    else do
      assertThat (htmAbortCodeIsDefault (htmAbortCauseExplicitCode locals.ret) = true)
        "htm_abort_code_is_default(htm_abort_cause_explicit_code(ret))"
      return locals
  else if htmAbortCauseDisabled locals.ret then
    if htmMaySucceedOnRetry locals.ret then do
      assertThat (excused.nretries < htmMaxRetries ∧ 0 ≤ excused.nretries)
        "(nretries < env.config.htm_max_retries) && (nretries >= 0)"
      return excused
    else return locals
  else if handler.isPreciseAborts then
    return if htmAbortCauseConflictPower locals.ret then excused else locals
  else if handler.isPowerTm then
    return if !locals.txExecOnPower && powerTaken then excused else locals
  else return locals

/-- The lock is taken if a retry cannot succeed. -/
def needsLock : Bool :=
  !htmAbortCauseExplicit locals.ret && !htmMaySucceedOnRetry locals.ret

/-- The retries are used up. -/
def isExhausted : Bool := htmMaxRetries ≤ locals.nretries && !locals.retryWithLock

/-- The power flag is swapped at the end of this iteration. -/
def triesPower : Bool :=
  !locals.needsLock && locals.isExhausted htmMaxRetries && handler.isPowerTm

/-- The end of an iteration: the lock, the power flag or another attempt.  `acquired` is the answer
of the compare-and-swap on the power flag. -/
def chooseMode (acquired : Bool) : Checked Locals :=
  if locals.needsLock then return { locals with retryWithLock := true }
  else if locals.isExhausted htmMaxRetries then
    if handler.isPowerTm then do
      assertThat (locals.txExecOnPower = false) "!txExecOnPower"
      return { locals with txExecOnPower := acquired }
    else return { locals with retryWithLock := true }
  else return locals

/-- Whether `doBackoff` is called before the next attempt. -/
def backsOff (useBackoff : Bool) : Bool :=
  !locals.retryWithLock && useBackoff && !(handler.isPowerTm && locals.txExecOnPower)

/-- The assertions on a thread that leaves the loop and finds the power flag its own. -/
def assertPowerOver : Checked Unit := do
  assertThat (locals.txExecOnPower = true) "txExecOnPower"
  assertThat (htmMaySucceedOnRetry locals.ret = false ∨ htmMaxRetries < locals.nRetriesPowerMode)
    "!htm_may_succeed_on_retry(ret) || (nRetriesPowerMode > env.config.htm_max_retries)"

end Locals

section Decoding

open X86

variable {context : FailureContext} {visible : HtmFailureFaultCause} {status : BitVec 64}

variable (bits : StatusOf context visible status)

include bits

/-- The conflict bit is set exactly for a memory conflict. -/
theorem conflict_of_status : htmAbortCauseConflict status = decide (visible = .memory) := by
  rw [← bits.conflict, htmAbortCauseConflict, Bool.eq_iff_iff, decide_eq_true_iff]
  exact X86.and_bit_ne_zero (by omega)

/-- The explicit bit is set exactly for an explicit abort. -/
theorem explicit_of_status : htmAbortCauseExplicit status = decide (visible = .explicit) := by
  rw [← bits.explicit, htmAbortCauseExplicit, Bool.eq_iff_iff, decide_eq_true_iff]
  exact X86.and_bit_ne_zero (by omega)

/-- The disabled bit is set exactly when transactions are disabled. -/
theorem disabled_of_status : htmAbortCauseDisabled status = decide (visible = .disabled) := by
  rw [← bits.disabled, htmAbortCauseDisabled, Bool.eq_iff_iff, decide_eq_true_iff]
  exact X86.and_bit_ne_zero (by omega)

/-- The power bit is set for a conflict with a power transaction. -/
theorem conflictPower_of_status :
    htmAbortCauseConflictPower status = (decide (visible = .memory) && context.memoryPower) := by
  rw [← bits.power, htmAbortCauseConflictPower, Bool.eq_iff_iff, decide_eq_true_iff]
  exact X86.and_bit_ne_zero (by omega)

/-- The causes after which a retry may succeed. -/
theorem maySucceed_of_status :
    htmMaySucceedOnRetry status = true ↔ visible = .memory ∨ visible = .other ∨
      (visible = .disabled ∧ context.forceHtmRetryStatusBit = true) := by
  rw [← bits.retry, htmMaySucceedOnRetry, decide_eq_true_iff]
  exact X86.and_bit_ne_zero (by omega)

/-- An explicit abort shows the low byte of its reason. -/
theorem explicitCode_of_status (shown : visible = .explicit) :
    htmAbortCauseExplicitCode status = (context.abortReason.setWidth 8).setWidth 64 := by
  refine BitVec.eq_of_getLsbD_eq fun i inside => ?_
  have byte : (0xFF#64).getLsbD i = decide (i < 8) := by
    rw [BitVec.getLsbD_ofNat, show 0xFF = 2 ^ 8 - 1 from rfl, Nat.testBit_two_pow_sub_one]
    simp [inside]
  simp only [htmAbortCauseExplicitCode, BitVec.getLsbD_and, BitVec.getLsbD_ushiftRight, byte,
    BitVec.getLsbD_setWidth, inside]
  by_cases small : i < 8
  · simp [small, bits.code shown i small]
  · simp [small]

end Decoding

end Gem5.Htmrt
