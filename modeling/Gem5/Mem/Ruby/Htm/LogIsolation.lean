import Gem5.Mem.Ruby.Htm.ConflictResolution

/-!
# Isolation of a LogTM transaction

LogTM updates memory in place, so a block of the write set has to stay isolated until
the transaction commits or its undo log has been unrolled.  Under the timestamp
policies this module says exactly which remote requests for such a block are nacked:
loads only while the transaction is live, and stores unless a non-transactional one
arrives during the unrolling, where it stops the simulator.  A non-transactional
request for the block at address 0 stops it as well, because `setAbortFlag` takes
address 0 for a missing address.
-/

namespace Gem5.Ruby

open Foundation TransactionInterfaceManager

namespace TransactionInterfaceManager

variable {params : HTMParams} {n : Nat} {mgr next : TransactionInterfaceManager params n}
variable {req : RemoteRequest}

/-- Sending a nack succeeds inside a transaction under a timestamp policy. -/
theorem Sound.notifySendNack_total (sound : mgr.Sound) (policy : isTimestampPolicy params = true)
    (inside : mgr.transactionLevel ≠ 0) (other : req.remoteId.num ≠ mgr.version) :
    ∃ next, mgr.notifySendNack req = .ok next := by
  simp only [isTimestampPolicy, Bool.and_eq_true, decide_eq_true_eq] at policy
  obtain ⟨older, compared⟩ := isRemoteOlder_total other mgr.conflict.timestamp
  simp only [notifySendNack, policy.1, policy.2, ↓reduceIte, sound.checkReadSignature inside,
    ok_bind]
  split
  · exact ⟨_, by rw [getTimestamp_inside inside, ok_bind, compared, ok_bind]; rfl⟩
  · exact ⟨_, rfl⟩

/-- Signalling an abort twice does nothing. -/
theorem setAbortFlag_again (inside : mgr.transactionLevel ≠ 0)
    (live : mgr.isUnrollingLog = false) (flagged : mgr.abort.abortFlag = true)
    (signal : AbortSignal) : mgr.setAbortFlag signal = .ok mgr := by
  simp only [setAbortFlag, inside, ↓reduceIte, assertThat_of live, ok_bind, flagged]
  rfl

/-- The loads LogTM nacks: the transaction is live, and a non-transactional one does not concern
address 0. -/
def NacksLoad (mgr : TransactionInterfaceManager params n) (req : RemoteRequest) : Prop :=
  mgr.isAborting = false ∧ mgr.isUnrollingLog = false ∧
    (isTransactionalRequest req.remoteTrans = true ∨ req.addr ≠ 0)

/-- The stores LogTM nacks: the transactional ones, and before the unrolling also the others,
unless the first conflict concerns address 0. -/
def NacksStore (mgr : TransactionInterfaceManager params n) (req : RemoteRequest) : Prop :=
  isTransactionalRequest req.remoteTrans = true ∨
    (mgr.isUnrollingLog = false ∧ (mgr.isAborting = true ∨ req.addr ≠ 0))

section

variable (sound : mgr.Sound) (log : params.lazyVm = false)
variable (policy : isTimestampPolicy params = true) (remote : FromOther mgr req)
variable (running : mgr.IsRunning) (live : mgr.abort.abortFlag = false)

include sound policy remote running live

/-- A live transaction nacks a transactional request. -/
theorem live_nacks_transactional (trans : isTransactionalRequest req.remoteTrans = true) :
    ∃ next, mgr.shouldNackRemoteRequest req = .ok (true, next) := by
  obtain ⟨next, notified⟩ := sound.notifySendNack_total policy
    (CallFrame.inside_of_inTransaction running.1) remote.other
  simp only [isTimestampPolicy, Bool.and_eq_true, decide_eq_true_eq] at policy
  refine ⟨next, ?_⟩
  simp only [shouldNackRemoteRequest, running.isAbortingOrDoomed, live, ok_bind,
    assertThat_of remote.aligned, resolveConflict, policy.1, policy.2, running.2, trans,
    Bool.not_true, Bool.false_and, Bool.false_eq_true, ↓reduceIte]
  simp [notified, pure, Except.pure]

include log

/-- A live transaction nacks a non-transactional request and aborts. -/
theorem live_nacks_nonTransactional
    (nonTrans : isTransactionalRequest req.remoteTrans = false) (nonzero : req.addr ≠ 0) :
    ∃ next, mgr.shouldNackRemoteRequest req = .ok (true, next) := by
  obtain ⟨aborted, signalled⟩ := sound.setAbortFlag_total running live
    (record_ofOther false (sound.cause live) remote.source remote.other
      (.inr (remote.aligned ▸ nonzero)))
  have frame := (QuietCall.of_setAbortFlag signalled).call
  have other : req.remoteId.num ≠ aborted.version := by
    rw [frame.version]
    exact remote.other
  obtain ⟨next, notified⟩ := (sound.of_call frame).notifySendNack_total policy
    (frame.transactionLevel ▸ CallFrame.inside_of_inTransaction running.1) other
  simp only [isTimestampPolicy, Bool.and_eq_true, decide_eq_true_eq] at policy
  refine ⟨next, ?_⟩
  simp only [shouldNackRemoteRequest, running.isAbortingOrDoomed, live, ok_bind,
    assertThat_of remote.aligned, resolveConflict, policy.1, policy.2, running.2, nonTrans,
    HTMParams.policyNackNonTransactional_eq_false, log, Bool.not_false, Bool.and_self,
    Bool.false_eq_true, ↓reduceIte, signalled]
  simp [notified, pure, Except.pure]

omit sound in
/-- A first non-transactional conflict at address 0 stops the simulator. -/
theorem live_stops_atZero (nonTrans : isTransactionalRequest req.remoteTrans = false)
    (zero : req.addr = 0) {answer : Bool × TransactionInterfaceManager params n} :
    mgr.shouldNackRemoteRequest req ≠ .ok answer := by
  intro answered
  simp only [isTimestampPolicy, Bool.and_eq_true, decide_eq_true_eq] at policy
  simp only [shouldNackRemoteRequest, running.isAbortingOrDoomed, live, ok_bind, bind_eq_ok,
    resolveConflict, policy.1, policy.2, running.2, nonTrans,
    HTMParams.policyNackNonTransactional_eq_false, log, Bool.not_false, Bool.and_self,
    Bool.false_eq_true, ↓reduceIte] at answered
  obtain ⟨_, -, _, ⟨_, signalled, -⟩, -⟩ := answered
  have atZero : makeLineAddress n req.addr = 0 := remote.aligned ▸ zero
  -- `assert(m_abortAddress)`
  unfold setAbortFlag at signalled
  split at signalled
  · simp [setAbortFlagOutside] at signalled
  · simp only [live, Bool.false_eq_true, ↓reduceIte, run_eq_ok] at signalled
    obtain ⟨-, _, -, _, recorded, -⟩ := signalled
    simp [AbortSignal.record, RemoteRequest.abortSignal, remote.source, remote.other, atZero]
      at recorded

end

/-- A doomed transaction lets every request through. -/
theorem Sound.doomed_lets_through (sound : mgr.Sound)
    (doomed : mgr.isAborting = true ∨ mgr.isUnrollingLog = true) :
    mgr.shouldNackRemoteRequest req = .ok (false, mgr) := by
  have answer : mgr.isAbortingOrDoomed = .ok true := by
    unfold isAbortingOrDoomed
    split
    · rfl
    · next calm =>
      have unrolls : mgr.isUnrollingLog = true := doomed.resolve_left calm
      have flag : mgr.unrollingLogFlag = true := by
        simp only [isUnrollingLog, Bool.and_eq_true] at unrolls
        exact unrolls.2
      simp only [isDoomed, unrolls, ↓reduceIte, assertThat_of (sound.unrolling flag).2.2]
      rfl
  simp [shouldNackRemoteRequest, answer, pure, Except.pure]

/-- A transaction with a write set that is not doomed runs and is live. -/
theorem Sound.live_of_writer (sound : mgr.Sound) {addr : Addr}
    (writer : mgr.checkWriteSignature addr = true) (calm : mgr.isAborting = false)
    (unrolled : mgr.isUnrollingLog = false) (log : params.lazyVm = false) :
    mgr.IsRunning ∧ mgr.abort.abortFlag = false := by
  have inside : mgr.transactionLevel ≠ 0 := by
    intro outside
    rw [checkWriteSignature, (sound.outside outside).1] at writer
    simp [TransactionIsolationManager.isInWriteSetPerfectFilter] at writer
  have notUnrolling : mgr.unrollingLogFlag = false := by
    simpa [isUnrollingLog, log] using unrolled
  have escape : mgr.escapeLevel = 0 := by
    simpa [notUnrolling] using sound.escape
  have running : mgr.inTransaction = true := by
    simp [inTransaction, escape, Nat.pos_of_ne_zero inside]
  refine ⟨⟨running, unrolled⟩, ?_⟩
  simpa [isAborting, running] using calm

/-- What the override makes of a transactional store to a write-set block. -/
theorem override_transactional (trans : isTransactionalRequest req.remoteTrans = true) :
    mgr.overrideStoreVerdict req true = .ok (true, mgr) := by
  simp [overrideStoreVerdict, trans, pure, Except.pure]

/-- What the override makes of a non-transactional store to a write-set block. -/
theorem override_nonTransactional (log : params.lazyVm = false)
    (nonTrans : isTransactionalRequest req.remoteTrans = false) :
    mgr.overrideStoreVerdict req true = (do
      let aborted ← mgr.setAbortFlag (req.abortSignal req.remoteSwPriority)
      return (true, aborted)) := by
  simp [overrideStoreVerdict, nonTrans, log]

section

variable (sound : mgr.Sound) (log : params.lazyVm = false)
variable (policy : isTimestampPolicy params = true) (remote : FromOther mgr req)
variable (writer : mgr.checkWriteSignature req.addr = true)

include sound log policy remote writer

omit sound log policy in
/-- A load of a write-set block is a conflict. -/
theorem shouldNackLoad_writer : mgr.shouldNackLoad req = mgr.shouldNackRemoteRequest req := by
  simp only [shouldNackLoad, assertThat_of remote.aligned, assertThat_of remote.source,
    assertThat_of remote.issued, writer, ok_bind, ↓reduceIte]

/-- The loads of a write-set block that LogTM nacks. -/
theorem nacksLoad_iff :
    (∃ next, mgr.shouldNackLoad req = .ok (true, next)) ↔ mgr.NacksLoad req := by
  rw [shouldNackLoad_writer remote writer]
  constructor
  · rintro ⟨next, nacked⟩
    have calm : mgr.isAborting = false ∧ mgr.isUnrollingLog = false := by
      by_contra doomed
      rw [sound.doomed_lets_through (by grind)] at nacked
      simp at nacked
    obtain ⟨running, live⟩ := sound.live_of_writer writer calm.1 calm.2 log
    refine ⟨calm.1, calm.2, ?_⟩
    by_contra stops
    rw [not_or, not_not, Bool.not_eq_true] at stops
    exact live_stops_atZero log policy remote running live stops.1 stops.2 nacked
  · rintro ⟨calm, unrolled, condition⟩
    obtain ⟨running, live⟩ := sound.live_of_writer writer calm unrolled log
    cases trans : isTransactionalRequest req.remoteTrans with
    | true => exact live_nacks_transactional sound policy remote running live trans
    | false =>
      exact live_nacks_nonTransactional sound log policy remote running live trans
        (condition.resolve_left (by simp [trans]))

omit sound log in
/-- Under a timestamp policy the verdict on a store to a write-set block is overridden. -/
theorem shouldNackStore_writer : mgr.shouldNackStore req = (do
    let answer ← mgr.shouldNackRemoteRequest req
    answer.2.overrideStoreVerdict req true) := by
  have conflict : mgr.existStoreConflict req.addr = .ok true := by
    simp [existStoreConflict, writer, pure, Except.pure]
  have stalls : (params.isRequesterStallsPolicy &&
      decide (params.conflictResolution ≠ .requesterStallsPicBase)) = true := policy
  simp only [shouldNackStore, assertThat_of remote.aligned, assertThat_of remote.source,
    assertThat_of remote.issued, conflict, ok_bind]
  simp only [remote.source, reduceCtorEq, ↓reduceIte, stalls, writer]

/-- A transactional store to a write-set block is always nacked. -/
theorem nacksStore_transactional (trans : isTransactionalRequest req.remoteTrans = true) :
    ∃ next, mgr.shouldNackStore req = .ok (true, next) := by
  rw [shouldNackStore_writer policy remote writer]
  by_cases doomed : mgr.isAborting = true ∨ mgr.isUnrollingLog = true
  · exact ⟨mgr, by rw [sound.doomed_lets_through doomed, ok_bind, override_transactional trans]⟩
  · rw [not_or, Bool.not_eq_true, Bool.not_eq_true] at doomed
    obtain ⟨running, live⟩ := sound.live_of_writer writer doomed.1 doomed.2 log
    obtain ⟨next, nacked⟩ := live_nacks_transactional sound policy remote running live trans
    exact ⟨next, by rw [nacked, ok_bind, override_transactional trans]⟩

/-- A non-transactional store to a write-set block is nacked until the log is unrolled. -/
theorem nacksStore_nonTransactional (nonTrans : isTransactionalRequest req.remoteTrans = false) :
    (∃ next, mgr.shouldNackStore req = .ok (true, next)) ↔
      mgr.isUnrollingLog = false ∧ (mgr.isAborting = true ∨ req.addr ≠ 0) := by
  rw [shouldNackStore_writer policy remote writer]
  cases unrolls : mgr.isUnrollingLog with
  | true =>
    rw [sound.doomed_lets_through (.inr unrolls), ok_bind, override_nonTransactional log nonTrans]
    constructor
    · rintro ⟨_, stored⟩
      simp only [bind_eq_ok] at stored
      obtain ⟨_, signalled, -⟩ := stored
      have live := (setAbortFlag_ok signalled).2.1
      simp [unrolls] at live
    · simp
  | false =>
    cases aborting : mgr.isAborting with
    | true =>
      have flags : mgr.inTransaction = true ∧ mgr.abort.abortFlag = true := by
        simpa [isAborting] using aborting
      refine iff_of_true ⟨mgr, ?_⟩ (by simp)
      rw [sound.doomed_lets_through (.inl aborting), ok_bind,
        override_nonTransactional log nonTrans, setAbortFlag_again
          (CallFrame.inside_of_inTransaction flags.1) unrolls flags.2, ok_bind]
      rfl
    | false =>
      obtain ⟨running, live⟩ := sound.live_of_writer writer aborting unrolls log
      constructor
      · rintro ⟨_, stored⟩
        simp only [bind_eq_ok] at stored
        obtain ⟨_, first, -⟩ := stored
        refine ⟨rfl, .inr fun zero => ?_⟩
        exact live_stops_atZero log policy remote running live nonTrans zero first
      · rintro ⟨-, condition⟩
        obtain ⟨next, nacked⟩ := live_nacks_nonTransactional sound log policy remote running live
          nonTrans (condition.resolve_left (by simp))
        have frame := ConflictFrame.of_shouldNackRemoteRequest nacked
        have call := CallFrame.of_conflictFrame frame fun idle =>
          absurd idle.1 (CallFrame.inside_of_inTransaction running.1)
        have flagged := shouldNackRemoteRequest_nonTransactional running policy nonTrans live nacked
        refine ⟨next, ?_⟩
        rw [nacked, ok_bind, override_nonTransactional log nonTrans, setAbortFlag_again
          (call.transactionLevel ▸ CallFrame.inside_of_inTransaction running.1)
          (call.isUnrollingLog.trans unrolls) flagged, ok_bind]
        rfl

/-- The stores to a write-set block that LogTM nacks. -/
theorem nacksStore_iff :
    (∃ next, mgr.shouldNackStore req = .ok (true, next)) ↔ mgr.NacksStore req := by
  cases trans : isTransactionalRequest req.remoteTrans with
  | true =>
    exact iff_of_true (nacksStore_transactional sound log policy remote writer trans) (.inl trans)
  | false =>
    rw [nacksStore_nonTransactional sound log policy remote writer trans]
    simp [NacksStore, trans]

end

end TransactionInterfaceManager

namespace Core

variable {params : HTMParams} {n : Nat}

/-- In every reachable state of a LogTM core under a timestamp policy, the requests of other cores
for a block of the write set that are nacked, without failing an assertion of `setAbortFlag`, are
exactly those of `NacksLoad` and `NacksStore`. -/
theorem logIsolation_iff {core : Core params n} {req : RemoteRequest}
    (reachable : (system params n).Reachable core) (log : params.lazyVm = false)
    (policy : isTimestampPolicy params = true)
    (writer : core.mgr.checkWriteSignature req.addr = true) (remote : core.mgr.FromOther req) :
    ((∃ next, core.mgr.shouldNackLoad req = .ok (true, next)) ↔ core.mgr.NacksLoad req) ∧
    ((∃ next, core.mgr.shouldNackStore req = .ok (true, next)) ↔ core.mgr.NacksStore req) := by
  have sound := sound_invariant.of_reachable reachable
  exact ⟨nacksLoad_iff sound log policy remote writer,
    nacksStore_iff sound log policy remote writer⟩

private theorem logTM_timestampPolicy : isTimestampPolicy logTM = true := by
  decide +kernel

/-- A transaction that has overwritten the block at 64 in place. -/
def loggedStoreEvents : List (CoreEvent 64) :=
  [.environment ⟨⟨[]⟩, ∅, 5, false, ∅⟩, .command .start ⟨1, 1, false⟩ (.ok false) fun _ => false,
   .writeCallback ⟨64, 8, true, fun _ => 7⟩ fun _ => false]

/-- A non-transactional load of core 2 from the block at 64. -/
def plainLoad : RemoteRequest :=
  ⟨64, ⟨.l1Cache, 2⟩, 7, .nonTrans, ncPrioValue, false⟩

private theorem fromOther {core : Core logTM 64} (version : core.mgr.version = 0) :
    core.mgr.FromOther plainLoad :=
  ⟨by decide, rfl, by simp [plainLoad, version], by decide⟩

/-- The first non-transactional load is nacked and aborts the transaction; the second one is let
through although the log has not been unrolled, and once the unrolling has begun a non-transactional
store fails an assertion of `setAbortFlag`. -/
theorem logIsolation_brokenByAbort :
    (∃ core, (system logTM 64).Reachable core ∧ core.mgr.checkWriteSignature 64 = true ∧
      core.mgr.FromOther plainLoad ∧ core.mgr.eagerVersion.logNumEntries = 1 ∧
      core.mgr.shouldNackLoad plainLoad = .ok (false, core.mgr)) ∧
    ∃ core, (system logTM 64).Reachable core ∧ core.mgr.checkWriteSignature 64 = true ∧
      core.mgr.FromOther plainLoad ∧ core.mgr.isUnrollingLog = true ∧
      core.mgr.shouldNackStore plainLoad = .error (.assertion "!isUnrollingLog()") := by
  constructor
  · obtain ⟨core, reachable, writer, version, entries, aborting⟩ := exists_reachable
      (P := fun core : Core logTM 64 => core.mgr.checkWriteSignature 64 = true ∧
        core.mgr.version = 0 ∧ core.mgr.eagerVersion.logNumEntries = 1 ∧
        core.mgr.isAborting = true)
      (loggedStoreEvents ++ [.remoteLoad plainLoad ⟨true, false⟩]) 0 (by decide +kernel)
    have sound := sound_invariant.of_reachable reachable
    refine ⟨core, reachable, writer, fromOther version, entries, ?_⟩
    rw [shouldNackLoad_writer (fromOther version) writer]
    exact sound.doomed_lets_through (.inl aborting)
  · obtain ⟨core, reachable, writer, version, unrolls⟩ := exists_reachable
      (P := fun core : Core logTM 64 => core.mgr.checkWriteSignature 64 = true ∧
        core.mgr.version = 0 ∧ core.mgr.isUnrollingLog = true)
      (loggedStoreEvents ++ [.remoteLoad plainLoad ⟨true, false⟩,
        .command (.abort .memory) ⟨1, 1, false⟩ (.ok false) fun _ => false]) 0 (by decide +kernel)
    have sound := sound_invariant.of_reachable reachable
    have inside := (sound.unrolling (by
      simp only [isUnrollingLog, Bool.and_eq_true] at unrolls
      exact unrolls.2)).1
    refine ⟨core, reachable, writer, fromOther version, unrolls, ?_⟩
    rw [shouldNackStore_writer logTM_timestampPolicy (fromOther version) writer,
      sound.doomed_lets_through (.inr unrolls), ok_bind, override_nonTransactional rfl rfl]
    simp [setAbortFlag, inside, unrolls, assertThat]

/-- A live transaction nacks the load and the store. -/
theorem logIsolation_live : ∃ core, (system logTM 64).Reachable core ∧
      (∃ next, core.mgr.shouldNackLoad plainLoad = .ok (true, next)) ∧
      ∃ next, core.mgr.shouldNackStore plainLoad = .ok (true, next) := by
  obtain ⟨core, reachable, writer, version, calm, unrolled⟩ := exists_reachable
    (P := fun core : Core logTM 64 => core.mgr.checkWriteSignature 64 = true ∧
      core.mgr.version = 0 ∧ core.mgr.isAborting = false ∧ core.mgr.isUnrollingLog = false)
    loggedStoreEvents 0 (by decide +kernel)
  have nacked := logIsolation_iff reachable rfl logTM_timestampPolicy writer (fromOther version)
  exact ⟨core, reachable, nacked.1.mpr ⟨calm, unrolled, .inr (by decide)⟩,
    nacked.2.mpr (.inr ⟨unrolled, .inr (by decide)⟩)⟩

end Core

end Gem5.Ruby
