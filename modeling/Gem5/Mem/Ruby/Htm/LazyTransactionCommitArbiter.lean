import Gem5.Mem.Ruby.Common

/-!
# `LazyTransactionCommitArbiter`

The validation flags of one core and the commit arbitration of lazy conflict
detection.  The magic policy asks for the verdict of the pairwise conflict check
against the validated committers; the token policy works on the request list of
the shared `HTM` object.
-/

namespace Gem5.Ruby

open Foundation

/-- The flags of the arbiter. -/
structure LazyTransactionCommitArbiter where
  validating : Bool
  validated : Bool
  deriving DecidableEq, Repr

namespace LazyTransactionCommitArbiter

variable (policy : LazyArbitration) (version : Nat)
variable (arbiter : LazyTransactionCommitArbiter) (htm : HTM)

/-- No validation in progress. -/
def idle : LazyTransactionCommitArbiter := ⟨false, false⟩

/-- An idle arbiter is not validating. -/
@[simp] theorem validating_idle : idle.validating = false := rfl

/-- An idle arbiter has not validated. -/
@[simp] theorem validated_idle : idle.validated = false := rfl

/-- `shouldValidateTransaction`: both policies validate. -/
def shouldValidateTransaction : Bool :=
  match policy with
  | .magic => true
  | .token => true

/-- `beginTransaction`. -/
def beginTransaction : Checked Unit := do
  assertThat (arbiter.validated = false) "!m_validated"
  assertThat (arbiter.validating = false) "!m_validating"

/-- `restartTransaction`. -/
def restartTransaction : Checked (LazyTransactionCommitArbiter × HTM) := do
  let htm ← match policy with
    | .magic => pure htm
    | .token =>
      if arbiter.validating then htm.removeCommitTokenRequest version
      else if arbiter.validated then htm.releaseCommitToken version
      else pure htm
  return (idle, htm)

/-- `commitTransaction`. -/
def commitTransaction : Checked (LazyTransactionCommitArbiter × HTM) := do
  assertThat (arbiter.validated = true) "m_validated"
  assertThat (arbiter.validating = false) "!m_validating"
  let htm ← match policy with
    | .magic => pure htm
    | .token => htm.releaseCommitToken version
  return (idle, htm)

/-- `initiateValidateTransaction`; `existsRemoteConflictingCommitter` is the outcome of the
check against the validated committers, which only the magic policy makes. -/
def initiateValidateTransaction (existsRemoteConflictingCommitter : Checked Bool) :
    Checked (LazyTransactionCommitArbiter × HTM) := do
  assertThat (arbiter.validated = false) "!m_validated"
  match policy with
  | .magic =>
    let conflict ← existsRemoteConflictingCommitter
    return (if conflict then { arbiter with validating := true } else ⟨false, true⟩, htm)
  | .token =>
    let htm ← if arbiter.validating then pure htm else htm.requestCommitToken version
    return (if htm.getTokenOwner = some version then ⟨false, true⟩
      else { arbiter with validating := true }, htm)

variable {policy version arbiter htm} {next : LazyTransactionCommitArbiter} {after : HTM}

/-- An aborted transaction leaves the arbiter idle under either policy. -/
theorem restartTransaction_ok
    (restarted : arbiter.restartTransaction policy version htm = .ok (next, after)) :
    next = idle := by
  unfold restartTransaction at restarted
  repeat' split at restarted
  all_goals
    simp only [run_eq_ok, Prod.mk.injEq] at restarted
    obtain ⟨_, -, isIdle, -⟩ := restarted
    exact isIdle.symm

/-- A committed transaction leaves the arbiter idle under either policy. -/
theorem commitTransaction_ok
    (committed : arbiter.commitTransaction policy version htm = .ok (next, after)) :
    next = idle := by
  simp only [commitTransaction, run_eq_ok] at committed
  obtain ⟨-, -, committed⟩ := committed
  split at committed
  all_goals
    simp only [run_eq_ok, Prod.mk.injEq] at committed
    obtain ⟨_, -, isIdle, -⟩ := committed
    exact isIdle.symm

end LazyTransactionCommitArbiter

end Gem5.Ruby
