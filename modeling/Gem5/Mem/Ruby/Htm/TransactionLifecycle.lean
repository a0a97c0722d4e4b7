import Gem5.Mem.Ruby.Htm.ValueForwarding

/-!
# Begin, commit and abort

The life cycle of a transaction in the three modes: lazy versioning in the cache
with eager conflict detection, lazy versioning in a write buffer with lazy
conflict detection, and LogTM, whose abort goes through the unrolling of the undo
log.  Nesting is not supported by the source either: the level is 0 or 1.  The
token list of the shared `HTM` object is passed along where the arbiter uses it.
-/

namespace Gem5.Ruby

open Foundation

namespace TransactionConflictManager

variable {params : HTMParams} (conflict : TransactionConflictManager params)

/-- `beginTransaction`: the timestamp survives aborts, power mode needs a power policy. -/
def beginTransaction (curCycle : Cycles) (power : Bool) :
    Checked (TransactionConflictManager params) :=
  let conflict := if conflict.lockTimestamp then conflict
    else { conflict with timestamp := curCycle, lockTimestamp := true }
  if power then
    if policy : params.isPowerTMPolicy = true then
      return { conflict with powered := true, isPowered_policy := fun _ => policy }
    else .error (.assertion "isPowerTMPolicy()")
  else return conflict

/-- `commitTransaction`. -/
def commitTransaction : Checked (TransactionConflictManager params) := do
  assertThat (conflict.doomed = false) "!m_doomed"
  return { conflict with
    lockTimestamp := false, numRetries := 0, powered := false, receivedNack := false
    abortedByNack := false, possibleCycle := false, isPowered_policy := unpowered_policy params }

/-- `restartTransaction`. -/
def restartTransaction : TransactionConflictManager params :=
  { conflict with
    numRetries := conflict.numRetries + 1, possibleCycle := false, sentNack := false
    receivedNack := false, abortedByNack := false, doomed := false, powered := false
    isPowered_policy := unpowered_policy params }

variable {conflict} {next : TransactionConflictManager params}

/-- A transaction is powered when its packet asks for it; its timestamp is that of an earlier
attempt or the current cycle. -/
theorem beginTransaction_ok {curCycle : Cycles} {power : Bool}
    (begun : conflict.beginTransaction curCycle power = .ok next) :
    next.powered = (conflict.powered || power) ∧
      (next.timestamp = conflict.timestamp ∨ next.timestamp = curCycle) := by
  unfold beginTransaction at begun
  dsimp only at begun
  repeat' split at begun
  all_goals simp only [pure_eq_ok, reduceCtorEq] at begun
  all_goals
    rw [← begun]
    simp_all

end TransactionConflictManager

/-- The fields of an HTM command packet. -/
structure HtmPacket where
  uid : Nat
  xid : Int
  power : Bool
  deriving DecidableEq, Repr

namespace TransactionInterfaceManager

variable {params : HTMParams} {n : Nat}

section Begin

variable (mgr : TransactionInterfaceManager params n)

/-- The assertions of `beginTransaction` on the forwarding bookkeeping. -/
def assertNoForwarding : Checked Unit := do
  let producer ← mgr.isProducer
  assertThat (producer = false) "!isProducer()"
  assertThat (mgr.isConsumer = false) "!isConsumer()"
  let consumed ← mgr.hasConsumedData
  assertThat (consumed = false) "!hasConsumedData()"
  assertThat (mgr.forwarding.sentDataForwardedToConsumer.isEmpty = true)
    "m_sentDataForwardedToConsumer.empty()"
  assertThat (mgr.forwarding.allReceivedData.isEmpty = true) "m_allReceivedData.empty()"
  assertThat (mgr.forwarding.allSentData.isEmpty = true) "m_allSentData.empty()"
  assertThat (mgr.forwarding.consumerTurnedProducer = false) "!m_consumerTurnedProducer"
  assertThat (mgr.forwarding.producerTurnedConsumer = false) "!m_producerTurnedConsumer"

/-- The version managers of the configured mode begin. -/
def beginVersioning (uid : Nat) : Checked (TransactionInterfaceManager params n) :=
  if params.lazyVm then
    if params.eagerCd then return mgr
    else do
      let lazyVersion ← mgr.lazyVersion.beginTransaction uid
      mgr.arbiter.beginTransaction
      return { mgr with lazyVersion := lazyVersion }
  else do
    mgr.eagerVersion.beginTransaction
    return mgr

/-- With forwarding enabled a transaction begins without bookkeeping of an earlier one. -/
def assertForwardingReset : Checked Unit :=
  if params.allowEarlyValueFwd then mgr.assertNoForwarding else return ()

/-- `beginTransaction`. -/
def beginTransaction (pkt : HtmPacket) : Checked (TransactionInterfaceManager params n) := do
  assertThat (mgr.transactionLevel = 0) "m_transactionLevel == 0"
  assertThat (mgr.escapeLevel = 0) "m_escapeLevel == 0"
  assertThat (mgr.atCommit = false) "!m_atCommit"
  assertThat (mgr.unrollingLogFlag = false) "!m_unrollingLogFlag"
  assertThat (mgr.currentHtmUid < pkt.uid) "m_currentHtmUid < pkt->getHtmTransactionUid()"
  assertThat (mgr.htmXid = htmXidUnset) "m_htmXid == std::numeric_limits<long>::min()"
  let conflict ← mgr.conflict.beginTransaction mgr.curCycle pkt.power
  let mgr := { mgr with
    transactionLevel := 1, currentHtmUid := pkt.uid, htmXid := pkt.xid
    isolation := mgr.isolation.beginTransaction, conflict := conflict }
  mgr.assertForwardingReset
  let mgr ← mgr.beginVersioning pkt.uid
  assertThat (params.allowEarlyValueFwd = true → mgr.hwTransPrio = ncPrioValue)
    "m_hwTransPrio == NC_PRIO_VALUE"
  return mgr

end Begin

section Commit

variable (mgr : TransactionInterfaceManager params n) (htm : HTM)

/-- `canCommitTransaction`. -/
def canCommitTransaction : Bool :=
  if params.eagerCd then
    if params.allowEarlyValueFwd then
      mgr.abort.abortFlag || mgr.forwarding.recvDataForwardedFromProducer.isEmpty
    else true
  else if mgr.lazyVersion.committed then true
  else if mgr.lazyVersion.committing then false
  else LazyTransactionCommitArbiter.shouldValidateTransaction params.lazyArbitration &&
    mgr.abort.abortFlag

/-- `initiateCommitTransaction`: with forwarding, commit waits for the validations; a lazy-lazy
transaction asks the arbiter and then flushes its write buffer. -/
def initiateCommitTransaction (existsRemoteConflictingCommitter : Checked Bool)
    (issues : Addr → Bool) : Checked (TransactionInterfaceManager params n × HTM) :=
  if params.allowEarlyValueFwd then do
    assertThat (params.eagerCd = true) "XACT_EAGER_CD"
    return ({ mgr with atCommit := true }, htm)
  else do
    assertThat (params.eagerCd = false) "!XACT_EAGER_CD"
    let mgr := { mgr with atCommit := true }
    if mgr.lazyVersion.committed then return (mgr, htm)
    else if LazyTransactionCommitArbiter.shouldValidateTransaction params.lazyArbitration &&
        !mgr.arbiter.validated then do
      let (arbiter, htm) ← mgr.arbiter.initiateValidateTransaction params.lazyArbitration
        mgr.version htm existsRemoteConflictingCommitter
      return ({ mgr with arbiter := arbiter }, htm)
    else do
      let lazyVersion ← mgr.lazyVersion.commitTransaction mgr.transactionLevel
        params.lazyCommitWidth issues
      return ({ mgr with lazyVersion := lazyVersion }, htm)

/-- The bookkeeping that commit and abort of an eager conflict detection system reset. -/
def resetForwarding (forwarding : ValueForwarding n) : ValueForwarding n :=
  { ValueForwarding.init n with discardFwdData := forwarding.discardFwdData }

/-- A forwarding transaction commits: every consumed block has been validated. -/
def commitForwarding : Checked (TransactionInterfaceManager params n) :=
  if params.allowEarlyValueFwd then do
    assertThat (mgr.isConsumer = false) "!isConsumer()"
    let _ ← mgr.hasConsumedData
    let _ ← mgr.isProducer
    assertThat (mgr.forwarding.validationEvent = none) "!validationEvent->scheduled()"
    return { mgr with atCommit := false, forwarding := resetForwarding mgr.forwarding }
  else return mgr

/-- The version managers of the configured mode commit. -/
def commitVersioning : Checked (TransactionInterfaceManager params n × HTM) :=
  if params.lazyVm then
    if params.eagerCd then do
      let mgr ← mgr.commitForwarding
      return (mgr, htm)
    else do
      assertThat (mgr.atCommit = true) "m_atCommit"
      let lazyVersion ← mgr.lazyVersion.notifyCommittedTransaction mgr.transactionLevel
      let (arbiter, htm) ← mgr.arbiter.commitTransaction params.lazyArbitration mgr.version htm
      return ({ mgr with lazyVersion := lazyVersion, arbiter := arbiter, atCommit := false }, htm)
  else return ({ mgr with eagerVersion := mgr.eagerVersion.commitTransaction }, htm)

/-- `commitTransaction` of the outermost transaction. -/
def commitTransaction : Checked (TransactionInterfaceManager params n × HTM) := do
  assertThat (mgr.transactionLevel = 1) "m_transactionLevel >= 1"
  assertThat (mgr.abort.abortFlag = false) "!m_abortFlag"
  assertThat (mgr.htmXid ≠ htmXidUnset) "m_htmXid != std::numeric_limits<long>::min()"
  let (mgr, htm) ← mgr.commitVersioning htm
  let conflict ← mgr.conflict.commitTransaction
  let isolation ← mgr.isolation.commitTransaction params.preciseReadSetTracking
  assertThat (mgr.writeSetDiscarded.isEmpty = true) "m_writeSetDiscarded.empty()"
  assertThat (mgr.abort.abortCause = .undefined)
    "m_abortCause == HTMStats::AbortCause::Undefined"
  return ({ mgr with
    conflict := conflict, isolation := isolation, hwTransPrio := ncPrioValue
    htmXid := htmXidUnset, transactionLevel := 0 }, htm)

end Commit

section Abort

variable (mgr : TransactionInterfaceManager params n) (htm : HTM)

/-- One block of `discardForwardedDataFromL1DataCache`. -/
def discardForwardedBlock (mgr : TransactionInterfaceManager params n) (addr : Addr) :
    Checked (TransactionInterfaceManager params n) := do
  assertThat (mgr.dataCache.tryCacheAccess (makeLineAddress n addr) .ld = true) "hit"
  return { mgr with
    dataCache := mgr.dataCache.erase addr
    writeSetDiscarded := if mgr.checkWriteSignature addr then mgr.writeSetDiscarded.insert addr
      else mgr.writeSetDiscarded }

/-- `discardForwardedDataFromL1DataCache`. -/
def discardForwardedDataFromL1DataCache : Checked (TransactionInterfaceManager params n) :=
  mgr.forwarding.recvDataForwardedFromProducer.keys.foldlM discardForwardedBlock mgr

/-- One block of `discardWriteSetFromL1DataCache`: it must be present unless it has been
discarded before. -/
def discardWriteSetBlock (mgr : TransactionInterfaceManager params n) (addr : Addr) :
    Checked (TransactionInterfaceManager params n) := do
  let hit := mgr.dataCache.tryCacheAccess (makeLineAddress n addr) .st
  assertThat (hit = !mgr.writeSetDiscarded.contains addr) "discarded ? !hit : hit"
  return { mgr with
    writeSetDiscarded := mgr.writeSetDiscarded.erase addr
    dataCache := if mgr.writeSetDiscarded.contains addr then mgr.dataCache
      else mgr.dataCache.erase addr }

/-- `discardWriteSetFromL1DataCache`. -/
def discardWriteSetFromL1DataCache : Checked (TransactionInterfaceManager params n) := do
  let mgr ← mgr.isolation.writeSet.toList.foldlM discardWriteSetBlock mgr
  assertThat (mgr.writeSetDiscarded.isEmpty = true) "m_writeSetDiscarded.empty()"
  return mgr

/-- Forwarded data is discarded, with the bookkeeping of both roles. -/
def abortForwarding : Checked (TransactionInterfaceManager params n) :=
  if params.allowEarlyValueFwd then do
    let _ ← mgr.isProducer
    let _ ← mgr.hasConsumedData
    let mgr ← mgr.discardForwardedDataFromL1DataCache
    return { mgr with forwarding := resetForwarding mgr.forwarding }
  else return mgr

/-- The abort actions of lazy versioning with eager conflict detection. -/
def abortLazyEager : Checked (TransactionInterfaceManager params n) := do
  let mgr ← mgr.abortForwarding
  let mgr ← discardWriteSetFromL1DataCache { mgr with hwTransPrio := ncPrioValue }
  assertThat (mgr.atCommit = true → params.allowEarlyValueFwd = true)
    "config_allowEarlyValueFwd()"
  return { mgr with atCommit := false }

/-- A validated transaction aborts only for causes its validation cannot prevent. -/
def assertValidatedAbortCause : Checked Unit :=
  match mgr.abort.abortCause with
  | .fallbackLock =>
    assertThat (mgr.abort.abortSourceNonTransactional = true ∨ params.l0DowngradeOnL1Gets = false)
      "m_abortSourceNonTransactional || !RubySystem::enableL0DowngradeOnL1Gets()"
  | .conflict | .conflictStale =>
    assertThat (params.conflictResolution = .requesterWins)
      "conflict_resolution == HtmPolicyStrings::requester_wins"
  | .l2Capacity | .l1Capacity | .undefined => return ()
  | .l0Capacity =>
    assertThat (mgr.abort.capacityAbortWriteSet = true ∨
      params.allowReadSetL0CacheEvictions = false)
      "m_capacityAbortWriteSet || !allow_read_set_l0_cache_evictions"
  | _ => panicWith "Unexpected abort cause for validated transaction"

/-- A CPU-triggered abort cancels the flush that `setAbortFlag` would have cancelled. -/
def cancelFlushOnCpuAbort : Checked (TransactionInterfaceManager params n) :=
  if mgr.abort.abortFlag then return mgr
  else do
    let lazyVersion ← mgr.lazyVersion.cancelWriteBufferFlush mgr.transactionLevel
    return { mgr with lazyVersion := lazyVersion }

/-- The abort of a lazy-lazy transaction that has reached commit. -/
def abortAtCommit : Checked (TransactionInterfaceManager params n) :=
  if mgr.lazyVersion.committing then do
    let mgr ← mgr.cancelFlushOnCpuAbort
    mgr.discardWriteSetFromL1DataCache
  else if mgr.arbiter.validated then do
    mgr.assertValidatedAbortCause
    return mgr
  else do
    assertThat (mgr.arbiter.validating = true) "m_xactLazyCommitArbiter->validating()"
    return mgr

/-- The flush of a lazy-lazy transaction is stopped if it had started. -/
def stopLazyCommit : Checked (TransactionInterfaceManager params n) :=
  if mgr.atCommit then do
    let mgr ← mgr.abortAtCommit
    return { mgr with atCommit := false }
  else return mgr

/-- The abort actions of lazy versioning with lazy conflict detection. -/
def abortLazyLazy : Checked (TransactionInterfaceManager params n × HTM) := do
  let mgr ← mgr.stopLazyCommit
  let lazyVersion ← mgr.lazyVersion.restartTransaction mgr.transactionLevel
  let (arbiter, htm) ← mgr.arbiter.restartTransaction params.lazyArbitration mgr.version htm
  return ({ mgr with lazyVersion := lazyVersion, arbiter := arbiter }, htm)

/-- The mode-dependent abort actions of lazy versioning. -/
def abortLazyMode : Checked (TransactionInterfaceManager params n × HTM) :=
  if params.eagerCd then do
    let mgr ← mgr.abortLazyEager
    return (mgr, htm)
  else mgr.abortLazyLazy htm

/-- The abort of lazy versioning: all isolation is released and the xid is unset. -/
def abortLazy : Checked (TransactionInterfaceManager params n × HTM) := do
  let (mgr, htm) ← mgr.abortLazyMode htm
  return ({ mgr with
    conflict := mgr.conflict.restartTransaction, htmXid := htmXidUnset
    isolation := mgr.isolation.releaseIsolation }, htm)

/-- The abort of LogTM: without log entries it completes at once, otherwise only the read set is
released and the log is unrolled under an escape action.  The xid is not unset. -/
def abortLog : Checked (TransactionInterfaceManager params n) :=
  if mgr.eagerVersion.logNumEntries = 0 then
    return { mgr with
      isolation := mgr.isolation.releaseIsolation
      eagerVersion := mgr.eagerVersion.restartTransaction
      conflict := mgr.conflict.restartTransaction }
  else do
    assertThat (mgr.isolation.writeSet.size = mgr.eagerVersion.logNumEntries ∨
      mgr.isolation.writeSet.size + 1 = mgr.eagerVersion.logNumEntries) "wsetsize+1 == logsize"
    return { mgr with
      isolation := mgr.isolation.releaseReadIsolation
      unrollingLogFlag := true
      escapeLevel := 1 }

/-- The versioning-dependent part of `abortTransaction`. -/
def abortVersioning : Checked (TransactionInterfaceManager params n × HTM) :=
  if params.lazyVm then mgr.abortLazy htm
  else do
    let mgr ← mgr.abortLog
    return (mgr, htm)

/-- The abort signal, if there was one, is taken back. -/
def AbortState.taken (abort : AbortState) : AbortState :=
  if abort.abortFlag then
    { abort with abortFlag := false, abortCause := .undefined, abortAddress := 0 }
  else abort

/-- `abortTransaction`, triggered by Ruby through `setAbortFlag` or by the CPU. -/
def abortTransaction : Checked (TransactionInterfaceManager params n × HTM) := do
  assertThat (mgr.transactionLevel = 1) "m_transactionLevel == 1"
  assertThat (mgr.escapeLevel = 0) "m_escapeLevel == 0"
  assertThat (mgr.htmXid ≠ htmXidUnset) "m_htmXid != std::numeric_limits<long>::min()"
  let (mgr, htm) ← mgr.abortVersioning htm
  assertThat (params.allowEarlyValueFwd = false → mgr.atCommit = false) "!m_atCommit"
  return ({ mgr with
    transactionLevel := if mgr.unrollingLogFlag then 1 else 0
    abort := AbortState.taken mgr.abort }, htm)

/-- `endLogUnroll`: the abort of a LogTM transaction is complete. -/
def endLogUnroll : Checked (TransactionInterfaceManager params n) := do
  assertThat (mgr.transactionLevel = 1) "m_transactionLevel == 1"
  assertThat (mgr.escapeLevel = 1) "m_escapeLevel == 1"
  assertThat (params.lazyVm = false) "!XACT_LAZY_VM"
  assertThat (mgr.unrollingLogFlag = true) "m_unrollingLogFlag"
  return { mgr with
    eagerVersion := mgr.eagerVersion.restartTransaction
    conflict := mgr.conflict.restartTransaction
    isolation := mgr.isolation.releaseIsolation
    escapeLevel := 0, transactionLevel := 0, unrollingLogFlag := false }

/-- `cancelTransaction`: an explicit abort by the program. -/
def cancelTransaction : Checked (TransactionInterfaceManager params n) := do
  assertThat (mgr.abort.abortFlag = false) "!m_abortFlag"
  assertThat (mgr.abort.abortCause = .undefined)
    "m_abortCause == HTMStats::AbortCause::Undefined"
  return { mgr with abort := { mgr.abort with abortFlag := true, abortCause := .explicit } }

end Abort

section Specifications

variable {mgr next : TransactionInterfaceManager params n} {htm after : HTM}

/-- Folding a step that only touches the cache and the discarded blocks touches nothing else. -/
private theorem foldlM_discard {step : TransactionInterfaceManager params n → Addr →
      Checked (TransactionInterfaceManager params n)}
    (touches : ∀ {before addr later}, step before addr = .ok later → ∃ cache discarded, later =
        { before with dataCache := cache, writeSetDiscarded := discarded }) :
    ∀ {addrs : List Addr} {before : TransactionInterfaceManager params n},
      addrs.foldlM step before = .ok next →
      ∃ cache discarded, next = { before with dataCache := cache, writeSetDiscarded := discarded }
  | [], before, folded => ⟨before.dataCache, before.writeSetDiscarded, by
      simpa using (pure_eq_ok.mp folded).symm⟩
  | addr :: rest, before, folded => by
    simp only [List.foldlM_cons, bind_eq_ok] at folded
    obtain ⟨middle, first, folded⟩ := folded
    obtain ⟨_, _, rfl⟩ := touches first
    obtain ⟨cache, discarded, rfl⟩ := foldlM_discard touches folded
    exact ⟨cache, discarded, rfl⟩

private theorem discardWriteSet_ok (done : mgr.discardWriteSetFromL1DataCache = .ok next) :
    ∃ cache discarded, next = { mgr with dataCache := cache, writeSetDiscarded := discarded } := by
  simp only [discardWriteSetFromL1DataCache, run_eq_ok] at done
  obtain ⟨_, folded, -, rfl⟩ := done
  refine foldlM_discard (fun {_ _ _} step => ?_) folded
  simp only [discardWriteSetBlock, run_eq_ok] at step
  obtain ⟨-, rfl⟩ := step
  exact ⟨_, _, rfl⟩

/-- The abort of lazy versioning with eager detection leaves no role, no priority and no pending
commit. -/
theorem abortLazyEager_ok (done : mgr.abortLazyEager = .ok next) :
    ∃ cache discarded, next = { mgr with
      dataCache := cache, writeSetDiscarded := discarded, hwTransPrio := ncPrioValue
      atCommit := false
      forwarding := if params.allowEarlyValueFwd then resetForwarding mgr.forwarding
        else mgr.forwarding } := by
  simp only [abortLazyEager, run_eq_ok] at done
  obtain ⟨reset, forwarded, _, discarded, -, rfl⟩ := done
  obtain ⟨_, _, rfl⟩ := discardWriteSet_ok discarded
  unfold abortForwarding at forwarded
  split at forwarded
  · next enabled =>
    simp only [run_eq_ok] at forwarded
    obtain ⟨_, -, _, -, _, dropped, rfl⟩ := forwarded
    obtain ⟨_, _, rfl⟩ := foldlM_discard (fun {_ _ _} step => by
      simp only [discardForwardedBlock, run_eq_ok] at step
      exact ⟨_, _, step.2.symm⟩) dropped
    exact ⟨_, _, by rw [if_pos enabled]⟩
  · next disabled =>
    rw [pure_eq_ok] at forwarded
    subst forwarded
    exact ⟨_, _, by rw [if_neg disabled]⟩

/-- The abort of a lazy-lazy transaction leaves the arbiter idle and no flush to cancel. -/
theorem abortLazyLazy_ok (done : mgr.abortLazyLazy htm = .ok (next, after)) :
    ∃ cache discarded lazyVersion, next = { mgr with
        dataCache := cache, writeSetDiscarded := discarded, atCommit := false
        lazyVersion := lazyVersion, arbiter := .idle } ∧
      lazyVersion.aborting = false ∧
      lazyVersion.currentHtmUid = mgr.lazyVersion.currentHtmUid := by
  simp only [abortLazyLazy, LazyTransactionVersionManager.restartTransaction, run_eq_ok,
    Prod.mk.injEq] at done
  obtain ⟨stopped, stop, _, ⟨-, -, -, rfl⟩, ⟨_, _⟩, restarted, rfl, -⟩ := done
  obtain rfl := LazyTransactionCommitArbiter.restartTransaction_ok restarted
  have shape : ∃ cache discarded lazyVersion, stopped = { mgr with
      dataCache := cache, writeSetDiscarded := discarded, atCommit := false
      lazyVersion := lazyVersion } ∧
      lazyVersion.currentHtmUid = mgr.lazyVersion.currentHtmUid := by
    unfold stopLazyCommit at stop
    split at stop
    · simp only [run_eq_ok] at stop
      obtain ⟨_, aborted, rfl⟩ := stop
      unfold abortAtCommit at aborted
      split at aborted
      · simp only [bind_eq_ok] at aborted
        obtain ⟨_, cancelled, dropped⟩ := aborted
        obtain ⟨_, _, rfl⟩ := discardWriteSet_ok dropped
        unfold cancelFlushOnCpuAbort at cancelled
        split at cancelled
        · rw [pure_eq_ok] at cancelled
          subst cancelled
          exact ⟨_, _, _, rfl, rfl⟩
        · simp only [LazyTransactionVersionManager.cancelWriteBufferFlush, run_eq_ok] at cancelled
          obtain ⟨_, ⟨-, -, -, rfl⟩, rfl⟩ := cancelled
          exact ⟨_, _, _, rfl, rfl⟩
      · split at aborted
        · simp only [run_eq_ok] at aborted
          obtain ⟨-, -, rfl⟩ := aborted
          exact ⟨_, _, _, rfl, rfl⟩
        · simp only [run_eq_ok] at aborted
          obtain ⟨-, rfl⟩ := aborted
          exact ⟨_, _, _, rfl, rfl⟩
    · next absent =>
      rw [pure_eq_ok] at stop
      subst stop
      have absent : mgr.atCommit = false := by simpa using absent
      exact ⟨_, _, _, by rw [← absent], rfl⟩
  obtain ⟨_, _, _, rfl, sameUid⟩ := shape
  exact ⟨_, _, _, rfl, rfl, sameUid⟩

/-- A successful `abortTransaction` ran at level 1, outside an escape action. -/
theorem abortTransaction_ok (done : mgr.abortTransaction htm = .ok (next, after)) :
    mgr.transactionLevel = 1 ∧ mgr.escapeLevel = 0 ∧
    ∃ middle, mgr.abortVersioning htm = .ok (middle, after) ∧
      (params.allowEarlyValueFwd = false → middle.atCommit = false) ∧
      next = { middle with
        transactionLevel := if middle.unrollingLogFlag then 1 else 0
        abort := AbortState.taken middle.abort } := by
  simp only [abortTransaction, run_eq_ok, Prod.mk.injEq] at done
  obtain ⟨level, escape, -, ⟨middle, _⟩, versioned, commit, rfl, rfl⟩ := done
  exact ⟨level, escape, middle, versioned, commit, rfl⟩

/-- The abort of LogTM completes at once without log entries, and starts the unrolling of the log
otherwise. -/
theorem abortTransaction_log (log : params.lazyVm = false)
    (done : mgr.abortTransaction htm = .ok (next, after)) : next = { mgr with
        isolation := ⟨∅, ∅, ∅⟩, eagerVersion := mgr.eagerVersion.restartTransaction
        conflict := mgr.conflict.restartTransaction, abort := AbortState.taken mgr.abort
        transactionLevel := if mgr.unrollingLogFlag then 1 else 0 } ∨
      next = { mgr with
        isolation := mgr.isolation.releaseReadIsolation, unrollingLogFlag := true
        escapeLevel := 1, abort := AbortState.taken mgr.abort, transactionLevel := 1 } := by
  obtain ⟨-, -, middle, versioned, -, rfl⟩ := abortTransaction_ok done
  simp only [abortVersioning, log, Bool.false_eq_true, ↓reduceIte, run_eq_ok,
    Prod.mk.injEq] at versioned
  obtain ⟨_, aborted, rfl, -⟩ := versioned
  unfold abortLog at aborted
  split at aborted
  · obtain rfl := pure_eq_ok.mp aborted
    exact .inl rfl
  · simp only [run_eq_ok] at aborted
    obtain ⟨-, rfl⟩ := aborted
    exact .inr rfl

/-- The abort of lazy versioning ends the transaction. -/
theorem abortTransaction_lazy (lazy : params.lazyVm = true)
    (done : mgr.abortTransaction htm = .ok (next, after)) :
    ∃ cache discarded lazyVersion arbiter forwarding prio, next = { mgr with
        dataCache := cache, writeSetDiscarded := discarded, atCommit := false
        lazyVersion := lazyVersion, arbiter := arbiter, forwarding := forwarding
        hwTransPrio := prio, conflict := mgr.conflict.restartTransaction, htmXid := htmXidUnset
        isolation := ⟨∅, ∅, ∅⟩, abort := AbortState.taken mgr.abort
        transactionLevel := if mgr.unrollingLogFlag then 1 else 0 } ∧
      mgr.lazyVersion.FlushKept lazyVersion False ∧
      (params.eagerCd = false → lazyVersion.aborting = false ∧ arbiter = .idle ∧
        forwarding = mgr.forwarding ∧ prio = mgr.hwTransPrio) ∧
      (params.eagerCd = true → prio = ncPrioValue ∧
        forwarding = if params.allowEarlyValueFwd then resetForwarding mgr.forwarding
          else mgr.forwarding) := by
  obtain ⟨-, -, middle, versioned, -, rfl⟩ := abortTransaction_ok done
  simp only [abortVersioning, lazy, ↓reduceIte, abortLazy, run_eq_ok, Prod.mk.injEq] at versioned
  obtain ⟨⟨_, _⟩, aborted, rfl, rfl⟩ := versioned
  unfold abortLazyMode at aborted
  split at aborted
  · next eager =>
    simp only [run_eq_ok, Prod.mk.injEq] at aborted
    obtain ⟨_, aborted, rfl, rfl⟩ := aborted
    obtain ⟨cache, discarded, rfl⟩ := abortLazyEager_ok aborted
    exact ⟨cache, discarded, _, _, _, _, rfl, .refl _, by simp [eager], fun _ => ⟨rfl, rfl⟩⟩
  · next lazyCd =>
    obtain ⟨cache, discarded, lazyVersion, rfl, stopped, sameUid⟩ := abortLazyLazy_ok aborted
    exact ⟨cache, discarded, lazyVersion, _, _, _, rfl, ⟨sameUid, by simp [stopped]⟩,
      fun _ => ⟨stopped, rfl, rfl, rfl⟩, by simp [lazyCd]⟩

/-- What `beginTransaction` found and what it changed. -/
theorem beginTransaction_ok {pkt : HtmPacket} (begun : mgr.beginTransaction pkt = .ok next) :
    mgr.transactionLevel = 0 ∧ mgr.escapeLevel = 0 ∧ mgr.atCommit = false ∧
    mgr.unrollingLogFlag = false ∧ mgr.currentHtmUid < pkt.uid ∧
    (params.allowEarlyValueFwd = true → mgr.hwTransPrio = ncPrioValue) ∧
    ∃ conflict lazyVersion, next = { mgr with
        transactionLevel := 1, currentHtmUid := pkt.uid, htmXid := pkt.xid
        isolation := mgr.isolation.beginTransaction, conflict := conflict
        lazyVersion := lazyVersion } ∧
      (conflict.powered = (mgr.conflict.powered || pkt.power) ∧
        (conflict.timestamp = mgr.conflict.timestamp ∨ conflict.timestamp = mgr.curCycle)) ∧
      (lazyVersion = mgr.lazyVersion ∨
        (lazyVersion.currentHtmUid = pkt.uid ∧ lazyVersion.aborting = false)) := by
  simp only [beginTransaction, run_eq_ok] at begun
  obtain ⟨level, escape, commit, unroll, fresh, -, conflict, started, -, -, middle, versioned,
    prio, rfl⟩ := begun
  have powered := TransactionConflictManager.beginTransaction_ok started
  refine ⟨level, escape, commit, unroll, fresh, ?_⟩
  unfold beginVersioning at versioned
  repeat' split at versioned
  · rw [pure_eq_ok] at versioned
    subst versioned
    exact ⟨prio, conflict, _, rfl, powered, .inl rfl⟩
  · simp only [LazyTransactionVersionManager.beginTransaction, run_eq_ok] at versioned
    obtain ⟨_, ⟨-, calm, rfl⟩, -, -, rfl⟩ := versioned
    exact ⟨prio, conflict, _, rfl, powered, .inr ⟨rfl, calm⟩⟩
  · simp only [run_eq_ok] at versioned
    obtain ⟨-, -, rfl⟩ := versioned
    exact ⟨prio, conflict, _, rfl, powered, .inl rfl⟩

/-- With forwarding a transaction begins with nothing received. -/
theorem beginTransaction_clear {pkt : HtmPacket} (forwarding : params.allowEarlyValueFwd = true)
    (begun : mgr.beginTransaction pkt = .ok next) :
    next.isConsumer = false ∧ next.forwarding.allReceivedData.isEmpty = true := by
  have same : next.forwarding = mgr.forwarding := by
    obtain ⟨-, -, -, -, -, -, _, _, rfl, -⟩ := beginTransaction_ok begun
    rfl
  simp only [beginTransaction, run_eq_ok] at begun
  obtain ⟨-, -, -, -, -, -, conflict, -, _, reset, -⟩ := begun
  simp only [assertForwardingReset, forwarding, ↓reduceIte, assertNoForwarding, run_eq_ok] at reset
  obtain ⟨_, -, -, clear, _, -, -, -, unreceived, -⟩ := reset
  rw [isConsumer, same]
  exact ⟨clear, unreceived⟩

/-- What `commitTransaction` found and what it changed. -/
theorem commitTransaction_ok (done : mgr.commitTransaction htm = .ok (next, after)) :
    mgr.transactionLevel = 1 ∧ mgr.abort.abortFlag = false ∧
    ∃ lazyVersion eagerVersion arbiter forwarding atCommit conflict, next = { mgr with
        lazyVersion := lazyVersion, eagerVersion := eagerVersion, arbiter := arbiter
        forwarding := forwarding, atCommit := atCommit, conflict := conflict
        isolation := ⟨∅, ∅, ∅⟩, hwTransPrio := ncPrioValue, htmXid := htmXidUnset
        transactionLevel := 0 } ∧
      (conflict.powered = false ∧ conflict.timestamp = mgr.conflict.timestamp) ∧
      mgr.lazyVersion.FlushKept lazyVersion False ∧
      eagerVersion = (if params.lazyVm then mgr.eagerVersion
        else mgr.eagerVersion.commitTransaction) ∧
      (forwarding = if params.lazyVm && params.eagerCd && params.allowEarlyValueFwd then
        resetForwarding mgr.forwarding else mgr.forwarding) ∧
      (atCommit = if params.lazyVm && (!params.eagerCd || params.allowEarlyValueFwd) then false
        else mgr.atCommit) ∧
      (params.lazyVm = true → params.eagerCd = false →
        lazyVersion.aborting = false ∧ arbiter = .idle) := by
  simp only [commitTransaction, TransactionConflictManager.commitTransaction,
    TransactionIsolationManager.commitTransaction, run_eq_ok, Prod.mk.injEq] at done
  obtain ⟨level, live, -, ⟨middle, _⟩, versioned, _, ⟨-, rfl⟩, _, ⟨-, rfl⟩, -, -, rfl, rfl⟩ := done
  refine ⟨level, live, ?_⟩
  unfold commitVersioning at versioned
  split at versioned
  · next lazy =>
    split at versioned
    · next eager =>
      simp only [run_eq_ok, Prod.mk.injEq] at versioned
      obtain ⟨_, forwarded, rfl, rfl⟩ := versioned
      unfold commitForwarding at forwarded
      split at forwarded
      · next enabled =>
        simp only [run_eq_ok] at forwarded
        obtain ⟨-, _, -, _, -, -, rfl⟩ := forwarded
        exact ⟨_, _, _, _, _, _, rfl, ⟨rfl, rfl⟩,
          .refl _, by simp [lazy], by simp [lazy, eager, enabled],
          by simp [lazy, enabled], by simp [eager]⟩
      · next disabled =>
        rw [pure_eq_ok] at forwarded
        subst forwarded
        exact ⟨_, _, _, _, _, _, rfl, ⟨rfl, rfl⟩, .refl _, by simp [lazy], by simp [disabled],
          by simp [eager, disabled], by simp [eager]⟩
    · next lazyCd =>
      simp only [LazyTransactionVersionManager.notifyCommittedTransaction, run_eq_ok,
        Prod.mk.injEq] at versioned
      obtain ⟨-, _, ⟨-, -, -, stopped, -, -, -, rfl⟩, ⟨_, _⟩, committed, rfl, rfl⟩ := versioned
      obtain rfl := LazyTransactionCommitArbiter.commitTransaction_ok committed
      exact ⟨_, _, _, _, _, _, rfl, ⟨rfl, rfl⟩, ⟨rfl, .inl⟩, by simp [lazy], by simp [lazyCd],
        by simp [lazy, lazyCd], fun _ _ => ⟨stopped, rfl⟩⟩
  · next log =>
    simp only [pure_eq_ok, Prod.mk.injEq] at versioned
    obtain ⟨rfl, rfl⟩ := versioned
    exact ⟨_, _, _, _, _, _, rfl, ⟨rfl, rfl⟩, .refl _, by simp [log], by simp [log], by simp [log],
      by simp [log]⟩

/-- Starting the commit changes the commit flag, the arbiter and the flush. -/
theorem initiateCommitTransaction_ok {conflictingCommitter : Checked Bool} {issues : Addr → Bool}
    (initiated : mgr.initiateCommitTransaction htm conflictingCommitter issues =
      .ok (next, after)) :
    ∃ arbiter lazyVersion, next = { mgr with
        atCommit := true, arbiter := arbiter, lazyVersion := lazyVersion } ∧
      mgr.lazyVersion.FlushKept lazyVersion False := by
  unfold initiateCommitTransaction at initiated
  dsimp only at initiated
  repeat' split at initiated
  all_goals simp only [run_eq_ok, Prod.mk.injEq] at initiated
  · obtain ⟨-, rfl, -⟩ := initiated
    exact ⟨_, _, rfl, .refl _⟩
  · obtain ⟨-, rfl, -⟩ := initiated
    exact ⟨_, _, rfl, .refl _⟩
  · obtain ⟨-, ⟨_, _⟩, -, rfl, -⟩ := initiated
    exact ⟨_, _, rfl, .refl _⟩
  · obtain ⟨-, _, flushed, rfl, -⟩ := initiated
    exact ⟨_, _, rfl, LazyTransactionVersionManager.commitTransaction_ok flushed⟩

/-- Under the magic policy a transaction becomes validated only if the check against the other
committers finds no conflict. -/
theorem initiateCommitTransaction_validates {conflictingCommitter : Checked Bool}
    {issues : Addr → Bool} (magic : params.lazyArbitration = .magic)
    (initiated : mgr.initiateCommitTransaction htm conflictingCommitter issues = .ok (next, after))
    (before : mgr.arbiter.validated = false) (validated : next.arbiter.validated = true) :
    conflictingCommitter = .ok false := by
  unfold initiateCommitTransaction at initiated
  dsimp only at initiated
  repeat' split at initiated
  all_goals simp only [run_eq_ok, Prod.mk.injEq] at initiated
  · obtain ⟨-, rfl, -⟩ := initiated
    simp [before] at validated
  · obtain ⟨-, rfl, -⟩ := initiated
    simp [before] at validated
  · obtain ⟨-, ⟨_, _⟩, arbitrated, rfl, -⟩ := initiated
    simp only [LazyTransactionCommitArbiter.initiateValidateTransaction, magic, run_eq_ok,
      Prod.mk.injEq] at arbitrated
    obtain ⟨-, conflict, found, rfl, -⟩ := arbitrated
    cases conflict with
    | false => exact found
    | true => simp [before] at validated
  · obtain ⟨-, _, -, rfl, -⟩ := initiated
    simp [before] at validated

end Specifications

end TransactionInterfaceManager

end Gem5.Ruby
