import Gem5.Mem.Ruby.Htm.ForwardingRoles

/-!
# The assertion of `isProducer`

`isProducer` checks that a transaction that has forwarded may produce.  It is called in
the middle of requests, nacks and life cycle steps, so that it suffices for no event to
stop there that the check would pass before the event: no event makes a producer one
that may not produce before its last call of `isProducer`.
-/

namespace Gem5.Ruby

open Foundation TransactionInterfaceManager

/-- The first check of `isProducer`. -/
def notProducer : Fault := .assertion "canProduce()"

@[simp] private theorem assertion_notProducer {text : String} :
    .assertion text = notProducer ↔ text = "canProduce()" := by
  simp [notProducer]

@[simp] private theorem undefined_ne_notProducer {text : String} :
    .undefined text ≠ notProducer := by
  simp [notProducer]

@[simp] private theorem panic_notProducer {text : String} : .panic text ≠ notProducer := by
  simp [notProducer]

namespace TransactionInterfaceManager

variable {params : HTMParams} {n : Nat} {mgr next : TransactionInterfaceManager params n}
variable {req : RemoteRequest} {addr : Addr}

section Conflicts

@[simp] private theorem isDoomed_avoids : Avoids notProducer mgr.isDoomed := by
  simp [isDoomed]

@[simp] private theorem checkReadSignature_avoids :
    Avoids notProducer (mgr.checkReadSignature addr) := by
  unfold checkReadSignature TransactionIsolationManager.isInReadSetPerfectFilter
  split <;> simp

@[simp] private theorem hasConsumedData_avoids : Avoids notProducer mgr.hasConsumedData := by
  simp [hasConsumedData]

@[simp] private theorem isolateTransactionLoad_avoids :
    Avoids notProducer (mgr.isolateTransactionLoad addr) := by
  simp [isolateTransactionLoad]

@[simp] private theorem isolateTransactionStore_avoids :
    Avoids notProducer (mgr.isolateTransactionStore addr) := by
  simp [isolateTransactionStore]

@[simp] private theorem wasOvertakingRead_avoids {isolation : TransactionIsolationManager} :
    Avoids notProducer (isolation.wasOvertakingRead addr) := by
  unfold TransactionIsolationManager.wasOvertakingRead
  split <;> simp

@[simp] private theorem cancelWriteBufferFlush_avoids {vm : LazyTransactionVersionManager}
    {level : Nat} :
    Avoids notProducer (vm.cancelWriteBufferFlush level) := by
  simp [LazyTransactionVersionManager.cancelWriteBufferFlush]

@[simp] private theorem setAbortFlag_avoids {signal : AbortSignal} :
    Avoids notProducer (mgr.setAbortFlag signal) := by
  simp [setAbortFlag, setAbortFlagOutside, cancelFlushOnAbort, AbortSignal.record]

@[simp] private theorem switchHwPrio_avoids {remote : Priority} {swPrio received : Bool} :
    Avoids notProducer (mgr.switchHwPrio remote swPrio received) := by
  simp [switchHwPrio]

@[simp] private theorem packetUid_avoids : Avoids notProducer (mgr.packetUid addr) := by
  unfold packetUid
  split <;> simp

@[simp] private theorem isIllegalNack_avoids {prio : Priority} :
    Avoids notProducer (mgr.isIllegalNack addr prio) := by
  simp [isIllegalNack]

@[simp] private theorem chooseWinnerPriority_avoids {prio : Priority} {swPrio : Bool} :
    Avoids notProducer (mgr.chooseWinnerPriority prio swPrio) := by
  unfold chooseWinnerPriority
  split <;> simp

@[simp] private theorem getTimestamp_avoids : Avoids notProducer mgr.getTimestamp := by
  simp [getTimestamp]

@[simp] private theorem isRemoteOlder_avoids {first second : Cycles} {remoteId : MachineID} :
    Avoids notProducer (mgr.isRemoteOlder first second remoteId) := by
  simp [isRemoteOlder]

@[simp] private theorem shouldNackRemoteRequest_avoids :
    Avoids notProducer (mgr.shouldNackRemoteRequest req) := by
  simp [shouldNackRemoteRequest, isAbortingOrDoomed, resolveConflict, notifySendNack]

@[simp] private theorem shouldNackLoad_avoids : Avoids notProducer (mgr.shouldNackLoad req) := by
  simp [shouldNackLoad]

@[simp] private theorem shouldNackStore_avoids : Avoids notProducer (mgr.shouldNackStore req) := by
  simp [shouldNackStore, existStoreConflict, evictFromL2, overrideStoreVerdict]

@[simp] private theorem notifyReceiveNack_avoids :
    Avoids notProducer (mgr.notifyReceiveNack req) := by
  simp [notifyReceiveNack, reactToNack, receiveNackPicBase, receiveNackTimestamp]

end Conflicts

/-- A transaction that has forwarded may produce. -/
def Permitted (mgr : TransactionInterfaceManager params n) : Prop :=
  mgr.forwarding.hasSentDataToConsumer ≠ ∅ → mgr.canProduce = .ok true

private theorem Permitted.of_kept (kept : RankKept mgr next) (permitted : mgr.Permitted) :
    next.Permitted := by
  intro produces
  rw [(Prod.mk.inj kept.produced).1] at produces
  exact canProduce_of_consumer kept.isConsumer (permitted produces)

private theorem isProducer_avoids (permitted : mgr.Permitted) :
    Avoids notProducer mgr.isProducer := by
  unfold isProducer
  split
  · simp
  · next produces => simp [permitted produces]

@[simp] private theorem canProduce_avoids : Avoids notProducer mgr.canProduce := by
  unfold canProduce
  repeat' split
  all_goals simp

section Requests

variable {line : LineStatus}

private theorem addConsumer_avoids (permitted : mgr.Permitted) :
    Avoids notProducer (mgr.addConsumer req) := by
  have hit : ∀ asked : TransactionInterfaceManager params n,
      Avoids notProducer (asked.forwardableData req.addr) := by
    intro asked
    unfold forwardableData
    repeat' split
    all_goals simp
  simp [addConsumer, turnsProducer, recordSentData, isProducer_avoids permitted, hit]

private theorem shouldForwardDataToConsumer_avoids (permitted : mgr.Permitted) {writeInFlight :
    Bool} :
    Avoids notProducer (mgr.shouldForwardDataToConsumer req writeInFlight) := by
  have refuses : ∀ signal, Avoids notProducer (mgr.refuseForwarding signal) := by
    simp [refuseForwarding]
  have judges : Avoids notProducer (mgr.mechanismForwards req) := by
    unfold mechanismForwards
    repeat' split
    all_goals simp [producesFor, isProducer_avoids permitted]
  simp [shouldForwardDataToConsumer, shouldBecomeProducer, refuses, judges]

private theorem sendInvNack_avoids (permitted : mgr.Permitted) :
    Avoids notProducer (mgr.sendInvNack req line) := by
  simp only [sendInvNack, plainNack, getOldestTimestamp, avoids_bind, avoids_pure, avoids_ite,
    avoids_assertThat, assertion_notProducer, String.reduceEq, false_implies, implies_true,
    and_true, true_and]
  refine fun _ _ _ => ⟨shouldForwardDataToConsumer_avoids permitted, ?_⟩
  rintro ⟨forwards, asker⟩ asked
  cases Asked.of_shouldForwardDataToConsumer asked with
  | silent => simp
  | refused => simp
  | judged => simp [addConsumer_avoids permitted]

private theorem answer_avoids {verdict : Bool × TransactionInterfaceManager params n}
    (permitted : verdict.2.Permitted) : Avoids notProducer (answer req line verdict) := by
  simp [answer, sendInvNack_avoids permitted]

/-- A request does not stop at the check. -/
theorem remoteRequest_avoids {kind : RequestKind} (permitted : mgr.Permitted) :
    Avoids notProducer (mgr.remoteRequest kind req line) := by
  have kept : ∀ {verdict}, ConflictFrame mgr verdict → verdict.Permitted := fun frame =>
    permitted.of_kept (.of_conflictFrame frame)
  cases kind with
  | load =>
    simp only [remoteRequest, remoteLoad, avoids_bind, shouldNackLoad_avoids, true_and]
    exact fun verdict judged => answer_avoids (kept (.of_shouldNackLoad judged))
  | store =>
    simp only [remoteRequest, remoteStore, avoids_bind, shouldNackStore_avoids, true_and]
    exact fun verdict judged => answer_avoids (kept (.of_shouldNackStore judged))
  | invalidation =>
    simp only [remoteRequest, remoteInvalidation, avoids_bind, shouldNackStore_avoids, true_and]
    refine fun verdict judged => ⟨answer_avoids (kept (.of_shouldNackStore judged)), ?_⟩
    simp [assertDoomedReader]

end Requests

section Accesses

variable {access : Access} {issues : Addr → Bool}

@[simp] private theorem hitCallback_avoids :
    Avoids notProducer (mgr.hitCallback access issues) := by
  have marks : ∀ offset, Avoids notProducer (mgr.setAccessOnForwardBlock
      (makeLineAddress n access.addr) offset access.size access.write) := by
    intro offset
    unfold setAccessOnForwardBlock
    split <;> simp [WriteMask.setMask]
  have tracks : Avoids notProducer (mgr.trackForwardedAccess access) := by
    simp [trackForwardedAccess, marks]
  have reads : ∀ before : TransactionInterfaceManager params n,
      Avoids notProducer (before.cacheLine access.addr) := by
    intro before
    unfold cacheLine
    split <;> simp
  simp [hitCallback, tracks, hitStore, handleTransactionalWrite, performFlushedStore, performStore,
    reads, LazyTransactionVersionManager.mergeDataFromWriteBuffer,
    LazyTransactionVersionManager.flushWriteBuffer]

@[simp] private theorem writeCallback_avoids :
    Avoids notProducer (mgr.writeCallback access issues) := by
  simp [writeCallback, logTransactionalStores, EagerTransactionVersionManager.addLogEntry]

@[simp] private theorem specCallback_avoids :
    Avoids notProducer (mgr.specCallback access issues) := by
  simp [specCallback]

private theorem insertRequest_avoids {uid : Nat} :
    Avoids notProducer (mgr.insertRequest uid access) := by
  simp [insertRequest, isolateIssuedLoad]

private theorem isolateRetiredLoad_avoids : Avoids notProducer (mgr.isolateRetiredLoad addr) := by
  have retires : ∀ before : TransactionInterfaceManager params n,
      Avoids notProducer (before.addToRetiredReadSet addr) := by
    intro before
    simp only [addToRetiredReadSet, TransactionIsolationManager.addToRetiredReadSet]
    split <;> simp
  simp [isolateRetiredLoad, retires]

end Accesses

section Nacks

variable {nack : Nack n} {tbe : Option TBE}

@[simp] private theorem scheduleValidationOfConsumedData_avoids :
    Avoids notProducer (mgr.scheduleValidationOfConsumedData addr) := by
  simp [scheduleValidationOfConsumedData]

private theorem nackEvent_avoids (permitted : mgr.Permitted) :
    Avoids notProducer (mgr.nackEvent nack tbe) := by
  have judges : Avoids notProducer (mgr.judgeNack nack) := by
    simp [judgeNack]
  have retries : ∀ middle : TransactionInterfaceManager params n,
      Avoids notProducer (middle.illegalNackEvent tbe) := by
    intro middle
    unfold illegalNackEvent retriesIllegal
    repeat' split
    all_goals simp
  simp only [nackEvent, avoids_bind, judges, avoids_ite, retries, avoids_pure, implies_true,
    true_and, and_true]
  rintro ⟨illegal, middle⟩ judged -
  have accepts : Avoids notProducer middle.shouldAcceptForwardedDataFromProducer := by
    have asked : middle.Permitted := by
      unfold judgeNack at judged
      split at judged
      · exact permitted.of_kept (.of_conflictFrame (.of_isIllegalNack judged))
      · exact (Prod.mk.inj (pure_eq_ok.mp judged)).2 ▸ permitted
    unfold shouldAcceptForwardedDataFromProducer
    repeat' split
    all_goals simp [isProducer_avoids asked]
  simp [legalNackEvent, accepts]

private theorem consumeForwardedData_avoids {data : DataBlock n} {access : Access}
    {issues : Addr → Bool}
    (permitted : mgr.Permitted) :
    Avoids notProducer (mgr.consumeForwardedData nack data access issues) := by
  have asked : Avoids notProducer
      (mgr.writeLine nack.addr ⟨.readWrite, data, true⟩).isProducer := isProducer_avoids permitted
  simp [consumeForwardedData, notifyForwardedDataFromProducer, markProducerTurnedConsumer, asked,
    takeNackPriority, consumeData, becomeConsumer, limitConsumedBlocks, limitPrioDiff]

private theorem validateConsumedData_avoids {sender : MachineID} {data : DataBlock n}
    {timestamp : Cycles}
    {isNack : Bool} :
    Avoids notProducer (mgr.validateConsumedData addr sender data timestamp isNack) := by
  have schedules : ∀ before : TransactionInterfaceManager params n,
      Avoids notProducer (before.scheduleNextValidation addr) := by
    intro before
    unfold scheduleNextValidation
    repeat' split
    all_goals simp
  have validates : ∀ entry : CacheEntry n, Avoids notProducer (mgr.validateDataBlock addr sender
      entry.data data timestamp entry.dirty isNack) := by
    intro entry
    simp only [validateDataBlock, avoids_bind, avoids_assertThat]
    refine ⟨by simp, fun _ _ => ⟨by simp, fun _ _ => ?_⟩⟩
    split
    · simp
    · simp [abortIfInvalid, endValidation, repeatValidation, completeValidation, schedules]
  unfold validateConsumedData
  split
  · simp
  · simp [validates]

private theorem fireValidation_avoids {status : RequestStatus} :
    Avoids notProducer (mgr.fireValidation status) := by
  unfold fireValidation
  split
  · simp
  · cases status <;> simp

end Nacks

section LifeCycle

variable {htm : HTM}

private theorem beginTransaction_avoids {pkt : HtmPacket} (permitted : mgr.Permitted) :
    Avoids notProducer (mgr.beginTransaction pkt) := by
  have begins : Avoids notProducer (mgr.conflict.beginTransaction mgr.curCycle pkt.power) := by
    unfold TransactionConflictManager.beginTransaction
    repeat' split
    all_goals simp
  have asked : ∀ conflict, Avoids notProducer (isProducer { mgr with
      transactionLevel := 1, currentHtmUid := pkt.uid, htmXid := pkt.xid
      isolation := mgr.isolation.beginTransaction, conflict := conflict }) := fun _ =>
    isProducer_avoids permitted
  simp [beginTransaction, begins, assertForwardingReset, assertNoForwarding, asked, beginVersioning,
    LazyTransactionVersionManager.beginTransaction, LazyTransactionCommitArbiter.beginTransaction,
    EagerTransactionVersionManager.beginTransaction]

private theorem commitTransaction_avoids (permitted : mgr.Permitted) :
    Avoids notProducer (mgr.commitTransaction htm) := by
  have arbitrates : ∀ proc : Nat, Avoids notProducer
      (mgr.arbiter.commitTransaction params.lazyArbitration proc htm) := by
    intro proc
    unfold LazyTransactionCommitArbiter.commitTransaction
    split <;> simp [HTM.releaseCommitToken]
  simp [commitTransaction, commitVersioning, commitForwarding, isProducer_avoids permitted,
    arbitrates, LazyTransactionVersionManager.notifyCommittedTransaction,
    TransactionConflictManager.commitTransaction, TransactionIsolationManager.commitTransaction]

private theorem abortTransaction_avoids (permitted : mgr.Permitted) :
    Avoids notProducer (mgr.abortTransaction htm) := by
  have drops : ∀ before : TransactionInterfaceManager params n,
      Avoids notProducer before.discardForwardedDataFromL1DataCache := fun before =>
    avoids_foldlM fun _ _ => by simp [discardForwardedBlock]
  have discards : ∀ before : TransactionInterfaceManager params n,
      Avoids notProducer before.discardWriteSetFromL1DataCache := by
    intro before
    have folds : Avoids notProducer
        (before.isolation.writeSet.toList.foldlM discardWriteSetBlock before) :=
      avoids_foldlM fun _ _ => by simp [discardWriteSetBlock]
    simp [discardWriteSetFromL1DataCache, folds]
  have arbitrates : ∀ (arbiter : LazyTransactionCommitArbiter) (proc : Nat), Avoids notProducer
      (arbiter.restartTransaction params.lazyArbitration proc htm) := by
    intro arbiter proc
    unfold LazyTransactionCommitArbiter.restartTransaction
    split <;> simp [HTM.releaseCommitToken, HTM.removeCommitTokenRequest]
  have validated : ∀ before : TransactionInterfaceManager params n,
      Avoids notProducer before.assertValidatedAbortCause := by
    intro before
    unfold assertValidatedAbortCause
    split <;> simp
  simp [abortTransaction, abortVersioning, abortLog, abortLazy, abortLazyMode, abortLazyEager,
    abortForwarding, isProducer_avoids permitted, drops, discards, abortLazyLazy, stopLazyCommit,
    abortAtCommit, cancelFlushOnCpuAbort, validated, arbitrates,
    LazyTransactionVersionManager.restartTransaction]

end LifeCycle

end TransactionInterfaceManager

namespace Core

variable {params : HTMParams} {n : Nat} {core : Core params n} {event : CoreEvent n}

/-- Receiving a nack does not fail the producer's assertion. -/
theorem receiveNack_avoids {nack : Nack n} {tbe : Option TBE}
    {pending : Pending} (permitted : core.mgr.Permitted) :
    Avoids notProducer (core.receiveNack nack tbe pending) := by
  simp only [receiveNack, update, avoids_bind, avoids_pure, implies_true, and_true]
  refine ⟨nackEvent_avoids permitted, ?_⟩
  rintro ⟨triggered, middle⟩ judged
  unfold handleNack
  split
  · simp
  · simp [failedCallback]
  · split
    · exact consumeForwardedData_avoids
        (permitted.of_kept (QuietCall.of_nackEvent judged).rank)
    · exact validateConsumedData_avoids
    · simp

/-- A local event does not stop at the check. -/
theorem step_avoids (forwarding : params.allowEarlyValueFwd = true) (permitted : core.mgr.Permitted)
    (inside : isLocal event = true) : Avoids notProducer (core.step event) := by
  cases event with
  | command cmd pkt committer issues =>
    have aborts : Avoids notProducer (core.abortTransaction pkt) := by
      simp [abortTransaction, abortTransaction_avoids permitted]
    have commits : Avoids notProducer (core.commit committer issues) := by
      simp [commit, commitTransaction_avoids permitted, initiateCommitTransaction, forwarding]
    rw [step]
    unfold notifyXactionEvent
    repeat' split
    all_goals simp [aborts, commits, beginTransaction_avoids permitted, cancelTransaction,
      isolateRetiredLoad_avoids]
  | request =>
    simp [step, makeRequest, redirectStoreToWriteBuffer,
      LazyTransactionVersionManager.addToWriteBuffer,
      insertRequest_avoids]
  | readCallback => simp [step, update]
  | writeCallback => simp [step, update]
  | dataExclusive => simp [step, update, validateConsumedData_avoids]
  | fireValidation => simp [step, update, fireValidation_avoids]
  | replacement =>
    simp [step, update, xactReplacement, replaceWriteSetBlock, replaceStaleBlock,
      replaceConsumedBlock]
  | endLogUnroll => simp [step, update, endLogUnroll]
  | environment => simp [step]
  | _ => simp [isLocal] at inside

end Core

end Gem5.Ruby
