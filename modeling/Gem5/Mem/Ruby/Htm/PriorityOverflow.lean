import Gem5.Mem.Ruby.Htm.ForwardingGraph
import Gem5.Mem.Ruby.Htm.Reentrancy

/-!
# Priorities wrap around

Nothing bounds the priority of a producer: two cores that take turns in requesting the
block of the other and aborting raise it by one each time.  When a request with the
largest priority reaches a producer that has a consumer, the producer's priority wraps
around to NC.
-/

namespace Gem5.Ruby

open Foundation TransactionInterfaceManager

namespace TransactionInterfaceManager

variable {n : Nat} {mgr next : TransactionInterfaceManager chats n} {addr : Addr}

/-- A live transaction that has written the block at `addr` and consumes nothing. -/
@[mk_iff]
structure Holding (mgr : TransactionInterfaceManager chats n) (addr : Addr) : Prop where
  aligned : makeLineAddress n addr = addr
  level : mgr.transactionLevel = 1
  escape : mgr.escapeLevel = 0
  rolledBack : mgr.unrollingLogFlag = false
  xid : mgr.htmXid ≠ htmXidUnset
  live : mgr.abort.abortFlag = false
  unstalled : mgr.stalled = false
  cycle : 0 < mgr.curCycle
  timestamp : 0 < mgr.conflict.timestamp
  writes : mgr.isolation.writeSet.toList = [addr]
  discarded : mgr.writeSetDiscarded.isEmpty = true
  line : mgr.dataCache.tryCacheAccess addr .st = true
  unsupplied : mgr.forwarding.recvDataForwardedFromProducer.isEmpty = true
  sourceless : mgr.forwarding.hasReceivedDataFromProducer = createInvalidMachineID
  unvalidated : mgr.forwarding.hasConsumedValidData = false
  sent : mgr.forwarding.hasSentDataToConsumer = ∅ ↔
    mgr.forwarding.sentDataForwardedToConsumer.isEmpty = true
  recorded : mgr.forwarding.sentDataForwardedToConsumer.contains addr = true →
    mgr.forwarding.allSentData.contains addr = true

instance (mgr : TransactionInterfaceManager chats n) (addr : Addr) : Decidable (mgr.Holding addr) :=
  decidable_of_iff _ (holding_iff mgr addr).symm

/-- Nothing is left of an aborted transaction. -/
structure Stopped (mgr : TransactionInterfaceManager chats n) : Prop where
  level : mgr.transactionLevel = 0
  escape : mgr.escapeLevel = 0
  rolledBack : mgr.unrollingLogFlag = false
  commits : mgr.atCommit = false
  xid : mgr.htmXid = htmXidUnset
  live : mgr.abort.abortFlag = false
  cycle : 0 < mgr.curCycle
  timestamp : 0 < mgr.conflict.timestamp
  isolation : mgr.isolation = ⟨∅, ∅, ∅⟩
  discarded : mgr.writeSetDiscarded.isEmpty = true
  cleared : mgr.forwarding.Cleared
  prio : mgr.hwTransPrio = ncPrioValue

/-- A request for the block at `addr` of a transaction of priority `prio`. -/
structure Requests (req : RemoteRequest) (prio : Priority) (addr : Addr) : Prop where
  addr : req.addr = addr
  source : req.remoteId.type = .l1Cache
  issued : 0 < req.remoteTimestamp
  trans : req.remoteTrans = .trans
  prio : req.remotePriority = prio
  ordinary : req.remoteSwPriority = false

private theorem canProduce_chats (mgr : TransactionInterfaceManager chats n) :
    mgr.canProduce = .ok true := by
  have policy : chats.isProducerPolicy = true := by decide +kernel
  rw [canProduce, if_pos policy]
  rfl

/-- Unless it consumes or is stalled, the sender of a nack takes the place above the requester. -/
theorem switchHwPrio_chats (consumer : mgr.isConsumer = false) (unstalled : mgr.stalled = false)
    (remotePriority : Priority) : mgr.switchHwPrio remotePriority false false =
      .ok { mgr with hwTransPrio := producerPrio mgr.hwTransPrio remotePriority } := by
  have ordinary : mgr.getSwTransactionPriority = false :=
    isChats_chats.ordered.not_powered mgr.conflict
  have movable : mgr.priorityMovable = true := by
    rw [priorityMovable, consumer]
    rfl
  have numeric : chats.prioMechanism ≠ .noPrio := by decide
  have settled : remotePriority ≠ ncPrioValue →
      (mgr.stalled = false ∧ mgr.isConsumer = false) ∨ mgr.hwTransPrio > remotePriority :=
    fun _ => .inl ⟨unstalled, consumer⟩
  rw [switchHwPrio, if_neg numeric, assertThat_of (.inr isChats_chats.ordered.forwarding), ok_bind,
    if_neg Bool.false_ne_true, ordinary, if_neg Bool.false_ne_true, movable, if_pos rfl,
    assertThat_of settled, ok_bind]
  rfl

private theorem toList_insert_empty (addr : Addr) :
    ((∅ : Std.ExtTreeSet Addr).insert addr).toList = [addr] := by
  have one : ((∅ : Std.ExtTreeSet Addr).insert addr).toList.length = 1 := by
    simp [Std.ExtTreeSet.length_toList, Std.ExtTreeSet.size_insert]
  obtain ⟨only, single⟩ := List.length_eq_one_iff.mp one
  have listed : addr ∈ ((∅ : Std.ExtTreeSet Addr).insert addr).toList :=
    Std.ExtTreeSet.mem_toList.mpr Std.ExtTreeSet.mem_insert_self
  rw [single] at listed ⊢
  rw [List.mem_singleton.mp listed]

namespace Holding

variable (holding : mgr.Holding addr)
include holding

private theorem inTransaction : mgr.inTransaction = true := by
  simp [TransactionInterfaceManager.inTransaction, holding.level, holding.escape]

private theorem isAborting : mgr.isAborting = false := by
  simp [TransactionInterfaceManager.isAborting, holding.live]

private theorem isConsumer : mgr.isConsumer = false := by
  simp [TransactionInterfaceManager.isConsumer, holding.unsupplied]

private theorem isProducer : ∃ producer, mgr.isProducer = .ok producer := by
  by_cases sends : mgr.forwarding.hasSentDataToConsumer = ∅
  · exact ⟨false, by simp [TransactionInterfaceManager.isProducer, sends, holding.sent.mp sends,
      assertThat, pure, Except.pure]⟩
  · have nonempty : mgr.forwarding.sentDataForwardedToConsumer.isEmpty = false := by
      simpa using mt holding.sent.mpr sends
    exact ⟨true, by simp [TransactionInterfaceManager.isProducer, sends, nonempty,
      canProduce_chats, assertThat, pure, Except.pure]⟩

private theorem hasConsumedData : mgr.hasConsumedData = .ok false := by
  simp [TransactionInterfaceManager.hasConsumedData, holding.sourceless, holding.unvalidated,
    assertThat, pure, Except.pure]

private theorem oldestTimestamp : ∃ oldest, mgr.getOldestTimestamp = .ok oldest ∧ 0 < oldest := by
  have positive : 0 < if mgr.transactionLevel > 0 ∧ mgr.conflict.timestamp < mgr.curCycle then
      mgr.conflict.timestamp else mgr.curCycle := by
    split
    · exact holding.timestamp
    · exact holding.cycle
  exact ⟨_, by rw [getOldestTimestamp, assertThat_of positive, ok_bind]; rfl, positive⟩

private theorem issueRequest (block : Addr) : ∃ req, mgr.issueRequest block = .ok req ∧
    Requests req mgr.hwTransPrio block := by
  obtain ⟨oldest, read, positive⟩ := holding.oldestTimestamp
  refine ⟨_, by rw [TransactionInterfaceManager.issueRequest, read, ok_bind]; rfl, rfl, rfl,
    positive, ?_, rfl, ?_⟩
  · simp [getTransactionBit, holding.inTransaction]
  · exact isChats_chats.ordered.not_powered mgr.conflict

private theorem checkWriteSignature : mgr.checkWriteSignature addr = true := by
  have listed : addr ∈ mgr.isolation.writeSet.toList := by simp [holding.writes]
  have member := Std.ExtTreeSet.mem_toList.mp listed
  rw [TransactionInterfaceManager.checkWriteSignature,
    TransactionIsolationManager.isInWriteSetPerfectFilter, holding.aligned]
  exact Std.ExtTreeSet.mem_iff_contains.mp member

variable {req : RemoteRequest} {prio : Priority}

/-- A request for the block is refused. -/
theorem shouldNackLoad (requests : Requests req prio addr) :
    mgr.shouldNackLoad req = .ok (true, mgr) := by
  have aligned : req.addr = makeLineAddress n req.addr := by rw [requests.addr, holding.aligned]
  have written : mgr.checkWriteSignature req.addr = true := by
    rw [requests.addr, holding.checkWriteSignature]
  have running : mgr.IsRunning := ⟨holding.inTransaction, rfl⟩
  have wins : mgr.resolveConflict req = .ok (true, mgr) := by
    have transactional :
        isTransactionalRequest req.remoteTrans = true := by rw [requests.trans]; rfl
    have plain : chats.isPowerTMPolicy = false := by decide +kernel
    have highest : mgr.winsByPriority req.remotePriority req.remoteSwPriority = true := by
      rw [winsByPriority, plain, holding.isConsumer]
      rfl
    rw [resolveConflict, isChats_chats.ordered.not_stalls, transactional, chooseWinnerPriority,
      highest]
    rfl
  have notified : mgr.notifySendNack req = .ok mgr := by
    rw [notifySendNack, isChats_chats.ordered.not_stalls]
    rfl
  rw [TransactionInterfaceManager.shouldNackLoad, assertThat_of aligned, ok_bind, if_pos written,
    assertThat_of requests.source, ok_bind, assertThat_of requests.issued, ok_bind,
    shouldNackRemoteRequest,
    running.isAbortingOrDoomed, ok_bind, holding.live, if_neg Bool.false_ne_true,
    assertThat_of aligned, ok_bind, wins, ok_bind]
  simp only [↓reduceIte, notified, ok_bind]
  rfl

/-- The requester becomes a consumer, and the transaction goes above it. -/
theorem addConsumer (requests : Requests req prio addr) : ∃ data after,
      mgr.addConsumer req = .ok (data, after) ∧ after.Holding addr ∧
      after.hwTransPrio = producerPrio mgr.hwTransPrio prio := by
  have turns : mgr.turnsProducer = .ok false := by
    obtain ⟨producer, asked⟩ := holding.isProducer
    rw [turnsProducer, asked, ok_bind, holding.hasConsumedData]
    cases producer <;> rfl
  obtain ⟨data, found⟩ : ∃ data, mgr.forwardableData addr = .ok data := by
    have hit := holding.line
    rw [forwardableData, hit]
    unfold CacheMemory.tryCacheAccess at hit
    cases found : mgr.dataCache[addr]? with
    | some entry => exact ⟨entry.data, rfl⟩
    | none => simp [found] at hit
  let above := { mgr with
    hwTransPrio := producerPrio mgr.hwTransPrio prio
    forwarding := { mgr.forwarding with
      consumerTurnedProducer := mgr.forwarding.consumerTurnedProducer || false
      hasSentDataToConsumer := insert req.remoteId mgr.forwarding.hasSentDataToConsumer } }
  let sender := { above with
    forwarding := { above.forwarding with
      allSentData := mgr.forwarding.allSentData.insert addr
      sentDataForwardedToConsumer :=
        mgr.forwarding.sentDataForwardedToConsumer.insertIfNew addr data } }
  have after : sender.Holding addr :=
    { holding with
      sent := by simp [sender, above]
      recorded := fun _ => by simp [sender] }
  have recorded : above.recordSentData addr data = .ok sender := by
    simp only [recordSentData, bind_eq_ok]
    exact ⟨(), assertThat_of holding.recorded, false, after.hasConsumedData, rfl⟩
  refine ⟨data, sender, ?_, after, rfl⟩
  simp only [TransactionInterfaceManager.addConsumer, requests.prio, requests.ordinary,
    requests.addr, bind_eq_ok]
  refine ⟨false, turns, _, switchHwPrio_chats ?_ ?_ prio, (), assertThat_of holding.live, true,
    canProduce_chats _, (), assertThat_of rfl, data, found, sender, recorded, rfl⟩
  · exact holding.isConsumer
  · exact holding.unstalled

/-- A request for the block is answered with its data, and the transaction goes above it. -/
theorem remoteLoad (requests : Requests req prio addr) (deep : mgr.hwTransPrio - 1 ≠ ncPrioValue) :
    ∃ nack after,
      mgr.remoteRequest .load req ⟨true, false⟩ = .ok (some nack, after) ∧ after.Holding addr ∧
      after.hwTransPrio = producerPrio mgr.hwTransPrio prio := by
  obtain ⟨nack, nacked⟩ : ∃ nack, mgr.plainNack req = .ok nack := by
    obtain ⟨oldest, read, -⟩ := holding.oldestTimestamp
    exact ⟨_, by rw [plainNack, read, ok_bind]; rfl⟩
  have forwards : mgr.shouldForwardDataToConsumer req false = .ok (true, mgr) := by
    have ordinary : mgr.getSwTransactionPriority = false :=
      isChats_chats.ordered.not_powered mgr.conflict
    have moves : mgr.mechanismForwards req = .ok true := by
      rw [mechanismForwards, ordinary, holding.isConsumer,
        if_neg (show mgr.getTransactionPriority - 1 ≠ ncPrioValue from deep)]
      rfl
    rw [shouldForwardDataToConsumer, isChats_chats.ordered.forwarding, holding.live,
      canProduce_chats, ok_bind, shouldBecomeProducer,
      assertThat_of isChats_chats.ordered.forwarding, ok_bind, assertThat_of holding.inTransaction,
      ok_bind, assertThat_of requests.trans, ok_bind, assertThat_of holding.isAborting, ok_bind,
      assertThat_of requests.ordinary, ok_bind, moves]
    rfl
  obtain ⟨data, after, added, held, moved⟩ := holding.addConsumer requests
  refine ⟨{ nack with priority := after.getTransactionPriority, data := some data }, after, ?_,
    held, moved⟩
  simp only [remoteRequest, TransactionInterfaceManager.remoteLoad, holding.shouldNackLoad requests,
    ok_bind, answer, ↓reduceIte, sendInvNack, nacked, forwards, added]
  rfl

private theorem discardWriteSet : ∃ cache discarded, mgr.discardWriteSetFromL1DataCache =
    .ok { mgr with dataCache := cache, writeSetDiscarded := discarded } ∧
      discarded.isEmpty = true := by
  have nothing : mgr.writeSetDiscarded = ∅ := Std.ExtTreeSet.isEmpty_iff.mp holding.discarded
  refine ⟨mgr.dataCache.erase addr, mgr.writeSetDiscarded.erase addr, ?_, by simp [nothing]⟩
  simp [discardWriteSetFromL1DataCache, holding.writes, discardWriteSetBlock, holding.aligned,
    holding.line, nothing, assertThat, pure, Except.pure]

/-- The CPU may abort the transaction. -/
theorem abortTransaction (htm : HTM) : ∃ after,
    mgr.abortTransaction htm = .ok (after, htm) ∧ after.Stopped := by
  obtain ⟨producer, asked⟩ := holding.isProducer
  have nothing : mgr.forwarding.recvDataForwardedFromProducer.keys = [] := by
    rw [Std.ExtTreeMap.isEmpty_iff.mp holding.unsupplied]
    rfl
  have forwarding : mgr.abortForwarding =
      .ok { mgr with forwarding := resetForwarding mgr.forwarding } := by
    rw [abortForwarding, isChats_chats.ordered.forwarding, asked, ok_bind, holding.hasConsumedData,
      ok_bind, discardForwardedDataFromL1DataCache, nothing]
    rfl
  let reset := { mgr with
    forwarding := resetForwarding mgr.forwarding, hwTransPrio := ncPrioValue }
  have cleared : reset.Holding addr :=
    { holding with
      unsupplied := by simp [reset, resetForwarding, ValueForwarding.init]
      sourceless := rfl
      unvalidated := rfl
      sent := by simp [reset, resetForwarding, ValueForwarding.init]
      recorded := by simp [reset, resetForwarding, ValueForwarding.init] }
  obtain ⟨cache, discarded, dropped, none⟩ := cleared.discardWriteSet
  let aborted := { reset with
    dataCache := cache, writeSetDiscarded := discarded, atCommit := false
    conflict := mgr.conflict.restartTransaction, htmXid := htmXidUnset
    isolation := mgr.isolation.releaseIsolation }
  have versioning : mgr.abortVersioning htm = .ok (aborted, htm) := by
    have mode : mgr.abortLazyEager = .ok { reset with
        dataCache := cache, writeSetDiscarded := discarded, atCommit := false } := by
      rw [abortLazyEager, forwarding, ok_bind, dropped, ok_bind,
        assertThat_of fun _ => isChats_chats.ordered.forwarding, ok_bind]
      rfl
    have lazily : mgr.abortVersioning htm = mgr.abortLazy htm := rfl
    have eagerly : mgr.abortLazyMode htm = mgr.abortLazyEager >>= fun mgr => pure (mgr, htm) := rfl
    rw [lazily, abortLazy, eagerly, mode]
    rfl
  refine ⟨{ aborted with
    transactionLevel := if aborted.unrollingLogFlag then 1 else 0
    abort := AbortState.taken aborted.abort }, ?_, ?_⟩
  · rw [TransactionInterfaceManager.abortTransaction, assertThat_of holding.level, ok_bind,
      assertThat_of holding.escape, ok_bind, assertThat_of holding.xid, ok_bind, versioning,
      ok_bind]
    rfl
  · exact
      { level := if_neg (by simp [aborted, reset, holding.rolledBack])
        escape := holding.escape, rolledBack := holding.rolledBack, commits := rfl, xid := rfl
        live := Sound.taken_flag mgr.abort
        cycle := holding.cycle, timestamp := holding.timestamp, isolation := rfl, discarded := none
        cleared := cleared_resetForwarding mgr.forwarding, prio := rfl }

end Holding

namespace Stopped

variable (stopped : mgr.Stopped)
include stopped

/-- The next transaction may write its block. -/
theorem write (aligned : makeLineAddress n addr = addr) (unstalled : mgr.stalled = false)
    (line : mgr.dataCache.tryCacheAccess addr .st = true) (data : Nat → UInt8)
    (issues : Addr → Bool) : ∃ begun after,
      mgr.beginTransaction ⟨mgr.currentHtmUid + 1, 1, false⟩ = .ok begun ∧
      begun.writeCallback ⟨addr, 1, true, data⟩ issues = .ok after ∧ after.Holding addr ∧
      after.hwTransPrio = ncPrioValue := by
  let conflict : TransactionConflictManager chats := if mgr.conflict.lockTimestamp then mgr.conflict
    else { mgr.conflict with timestamp := mgr.curCycle, lockTimestamp := true }
  have positive : 0 < conflict.timestamp := by
    simp only [conflict]
    split
    · exact stopped.timestamp
    · exact stopped.cycle
  obtain ⟨entry, found, permitted⟩ : ∃ entry, mgr.dataCache[addr]? = some entry ∧
      entry.permission = .readWrite := by
    unfold CacheMemory.tryCacheAccess at line
    split at line
    · next entry found => exact ⟨entry, found, by simpa [RubyRequestType.isLoad] using line⟩
    · simp at line
  let begun := { mgr with
    transactionLevel := 1, currentHtmUid := mgr.currentHtmUid + 1, htmXid := 1
    isolation := ⟨∅, ∅, ∅⟩, conflict := conflict }
  have begins : mgr.beginTransaction ⟨mgr.currentHtmUid + 1, 1, false⟩ = .ok begun := by
    have isolation : mgr.isolation.beginTransaction = ⟨∅, ∅, ∅⟩ := by
      rw [stopped.isolation]
      rfl
    have reset : begun.assertForwardingReset = .ok () := by
      rw [assertForwardingReset, isChats_chats.ordered.forwarding]
      exact assertNoForwarding_of_cleared stopped.cleared
    simp only [begun, ← isolation, TransactionInterfaceManager.beginTransaction,
      bind_eq_ok] at reset ⊢
    exact ⟨(), assertThat_of stopped.level, (), assertThat_of stopped.escape, (),
      assertThat_of stopped.commits, (), assertThat_of stopped.rolledBack, (),
      assertThat_of (Nat.lt_succ_self _), (), assertThat_of stopped.xid, _, rfl, (), reset, _,
      rfl, (), assertThat_of fun _ => stopped.prio, rfl⟩
  have tracked : begun.trackForwardedAccess ⟨addr, 1, true, data⟩ = .ok begun := by
    have unconsumed : begun.isBlockConsumed addr = false := by
      simp [isBlockConsumed, begun, Std.ExtTreeMap.isEmpty_iff.mp stopped.cleared.received]
    have unproduced : begun.isBlockProduced addr = false := by
      simp [isBlockProduced, begun, Std.ExtTreeMap.isEmpty_iff.mp stopped.cleared.sent]
    simp only [trackForwardedAccess, unconsumed, unproduced, Bool.and_false]
    rfl
  let isolated := { begun with isolation := ⟨∅, (∅ : Std.ExtTreeSet Addr).insert addr, ∅⟩ }
  have isolates : begun.handleTransactionalWrite addr = .ok isolated := by
    have running : begun.inTransaction = true := by
      simp [inTransaction, begun, stopped.escape]
    have unwritten : begun.checkWriteSignature addr = false := by
      simp [checkWriteSignature, TransactionIsolationManager.isInWriteSetPerfectFilter, begun]
    have level : begun.transactionLevel > 0 := Nat.one_pos
    rw [handleTransactionalWrite, assertThat_of running, ok_bind, unwritten,
      if_neg Bool.false_ne_true, isolateTransactionStore, assertThat_of level, ok_bind,
      TransactionIsolationManager.addToWriteSetPerfectFilter, aligned, aligned]
    rfl
  have performs : ∃ line, isolated.performStore ⟨addr, 1, true, data⟩ =
      .ok (isolated.writeLine addr line) ∧ line.permission = .readWrite := by
    refine ⟨{ entry with
      data := entry.data.setData data (addr - makeLineAddress n addr) 1, dirty := true }, ?_,
      permitted⟩
    have present : isolated.cacheLine addr = .ok entry := by
      rw [cacheLine, aligned, show isolated.dataCache[addr]? = _ from found]
      rfl
    rw [performStore, present]
    rfl
  obtain ⟨line, performed, writable⟩ := performs
  refine ⟨begun, isolated.writeLine addr line, begins, ?_, ?_, stopped.prio⟩
  · have hits : begun.writeCallback ⟨addr, 1, true, data⟩ issues =
        begun.trackForwardedAccess ⟨addr, 1, true, data⟩ >>= fun mgr =>
          mgr.handleTransactionalWrite addr >>= fun mgr =>
            mgr.performStore ⟨addr, 1, true, data⟩ := rfl
    rw [hits, tracked, ok_bind, isolates, ok_bind, performed]
  · exact
      { aligned := aligned, level := rfl, escape := stopped.escape, rolledBack := stopped.rolledBack
        xid := show (1 : Int) ≠ htmXidUnset by decide
        live := stopped.live, unstalled := unstalled, cycle := stopped.cycle, timestamp := positive
        writes := toList_insert_empty addr
        discarded := stopped.discarded
        line := by simp [writeLine, CacheMemory.tryCacheAccess, aligned, writable]
        unsupplied := stopped.cleared.received, sourceless := stopped.cleared.receivedFrom
        unvalidated := stopped.cleared.consumedValid
        sent := iff_of_true stopped.cleared.sentTo stopped.cleared.sent
        recorded := fun sent => by
          simp [isolated, begun, writeLine,
            Std.ExtTreeMap.isEmpty_iff.mp stopped.cleared.sent] at sent }

end Stopped

end TransactionInterfaceManager

namespace Core

variable {n : Nat} {core : Core chats n} {addr : Addr}

/-- A step that no other core takes part in. -/
def StepsAlone (core next : Core chats n) : Prop :=
  ∃ event, isLocal event = true ∧ core.take event = .ok next

/-- The core of a transaction may abort it and begin the next one, which has no priority and writes
the same block. -/
theorem restart (holding : core.mgr.Holding addr) : ∃ next : Core chats n,
    Relation.ReflTransGen StepsAlone core next ∧ next.mgr.Holding addr ∧
      next.mgr.hwTransPrio = ncPrioValue := by
  obtain ⟨stopped, aborts, left⟩ := holding.abortTransaction core.htm
  let cache : CacheMemory n := (∅ : CacheMemory n).insert addr ⟨.readWrite, fun _ => 0, false⟩
  let refilled := { stopped with dataCache := cache, stalled := false, requestTable := ∅ }
  have line : refilled.dataCache.tryCacheAccess addr .st = true := by
    simp [refilled, cache, CacheMemory.tryCacheAccess]
  have leftRefilled : refilled.Stopped := { left with }
  obtain ⟨begun, after, begins, writes, held, prio⟩ :=
    leftRefilled.write holding.aligned rfl line (fun _ => 0) fun _ => false
  let idle : Core chats n :=
    { core with
      mgr := { stopped with stalled := false }
      lastAbortHtmUid := core.mgr.currentHtmUid }
  have aborted : core.StepsAlone idle := by
    refine ⟨.command (.abort .interrupt) ⟨core.mgr.currentHtmUid, 1, false⟩ (.ok false)
      fun _ => false, rfl, system_step.mpr ⟨.inr holding.inTransaction, ?_⟩⟩
    rw [step, notifyXactionEvent, holding.isAborting, if_neg Bool.false_ne_true]
    simp only [HtmFailureFaultCause.cpuTriggered, ↓reduceIte, abortTransaction, aborts, ok_bind]
    rfl
  have surrounded : idle.StepsAlone { idle with mgr := refilled } :=
    ⟨.environment ⟨core.htm, cache, stopped.curCycle, false, ∅⟩, rfl,
      system_step.mpr ⟨Nat.le_refl _, rfl⟩⟩
  have started : StepsAlone { idle with mgr := refilled } { idle with mgr := begun } := by
    refine ⟨.command .start ⟨refilled.currentHtmUid + 1, 1, false⟩ (.ok false) fun _ => false, rfl,
      system_step.mpr ⟨.inl rfl, ?_⟩⟩
    have live : refilled.isAborting = false := by
      simp [isAborting, leftRefilled.live]
    simp only [step, notifyXactionEvent, live, Bool.false_eq_true, ↓reduceIte, begins, ok_bind]
    rfl
  have wrote : StepsAlone { idle with mgr := begun } { idle with mgr := after } := by
    refine ⟨.writeCallback ⟨addr, 1, true, fun _ => 0⟩ fun _ => false, rfl,
      system_step.mpr ⟨trivial, ?_⟩⟩
    simp only [step, update, writes, ok_bind]
    rfl
  exact ⟨{ idle with mgr := after },
    (((Relation.ReflTransGen.single aborted).tail surrounded).tail started).tail wrote, held, prio⟩

end Core

namespace ForwardingMachine

variable {n count : Nat} {machine middle next : ForwardingMachine chats n count}
variable {actors : Finset (Fin count)}

/-- Only the actors change, and only what they consume may no longer be supplied. -/
structure Spares (actors : Finset (Fin count)) (machine next : ForwardingMachine chats n count) :
    Prop where
  cores : ∀ proc ∉ actors, next.cores proc = machine.cores proc
  supplies : ∀ supply ∈ machine.supplies, supply.consumer ∉ actors → supply ∈ next.supplies

namespace Spares

private theorem refl (machine : ForwardingMachine chats n count) : Spares actors machine machine :=
  ⟨fun _ _ => rfl, fun _ listed _ => listed⟩

private theorem trans (first : Spares actors machine middle) (second : Spares actors middle next) :
    Spares actors machine next where
  cores proc outside := (second.cores proc outside).trans (first.cores proc outside)
  supplies supply listed outside :=
    second.supplies supply (first.supplies supply listed outside) outside

private theorem mono {fewer : Finset (Fin count)} (subset : fewer ⊆ actors)
    (spares : Spares fewer machine next) : Spares actors machine next where
  cores proc outside := spares.cores proc (Finset.notMem_mono subset outside)
  supplies supply listed outside :=
    spares.supplies supply listed (Finset.notMem_mono subset outside)

private theorem of_setCore {proc : Fin count} {core : Core chats n} (acts : proc ∈ actors) :
    Spares actors machine (machine.setCore proc core) where
  cores other outside := by
    have apart : other ≠ proc := fun same => outside (same ▸ acts)
    exact setCore_of_ne apart
  supplies supply listed outside := by
    have apart : supply.consumer ≠ proc := fun same => outside (same ▸ acts)
    exact List.mem_filter.mpr ⟨listed, by simp [apart]⟩

end Spares

/-- One core may run on its own. -/
theorem Reachable.runAlone {proc : Fin count} {core : Core chats n}
    (reachable : (system chats n count).Reachable machine) (acts : proc ∈ actors)
    (alone : Relation.ReflTransGen Core.StepsAlone (machine.cores proc) core) :
    ∃ next, (system chats n count).Reachable next ∧ Spares actors machine next ∧
      next.cores proc = core := by
  induction alone with
  | refl => exact ⟨machine, reachable, .refl machine, rfl⟩
  | @tail middle core _ last ih =>
    obtain ⟨current, reached, spares, here⟩ := ih
    obtain ⟨event, inside, taken⟩ := last
    have step : (system chats n count).Step current (.core proc event)
        (current.setCore proc core) := by
      simp only [system, TransitionSystem.ofExcept_step, take, assertThat_of inside, ok_bind, here,
        taken]
      rfl
    exact ⟨current.setCore proc core, reached.step step, spares.trans (.of_setCore acts),
      setCore_self⟩

/-- A request may reach a holder, which forwards its block and goes above the requester. -/
theorem Reachable.request {requester holder : Fin count} {own addr : Addr}
    (reachable : (system chats n count).Reachable machine) (acts : holder ∈ actors)
    (apart : holder ≠ requester) (asks : (machine.cores requester).mgr.Holding own)
    (holds : (machine.cores holder).mgr.Holding addr)
    (deep : machine.prio holder - 1 ≠ ncPrioValue) :
    ∃ next, (system chats n count).Reachable next ∧ Spares actors machine next ∧
      next.cores requester = machine.cores requester ∧ (next.cores holder).mgr.Holding addr ∧
      next.prio holder = producerPrio (machine.prio holder) (machine.prio requester) ∧
      (next.cores holder).mgr.currentHtmUid = (machine.cores holder).mgr.currentHtmUid := by
  obtain ⟨req, issued, requests⟩ := asks.issueRequest addr
  obtain ⟨nack, mgr, answered, held, above⟩ := holds.remoteLoad requests deep
  let out : Outstanding n count := ⟨requester, req, []⟩
  let sent := { machine with requests := machine.requests ++ [out] }
  have issue : (system chats n count).Step machine (.issue requester addr) sent := by
    simp only [system, TransitionSystem.ofExcept_step, take, issued, ok_bind]
    rfl
  have slot : sent.requests[machine.requests.length]? = some out := List.getElem?_concat_length
  let moved := sent.setCore holder { sent.cores holder with mgr := mgr }
  let answers : List (Answer n count) := [⟨holder, (machine.cores holder).mgr.currentHtmUid, nack⟩]
  let after := { moved with
    requests := moved.requests.set machine.requests.length { out with answers := answers } }
  have handling : (system chats n count).Step sent
      (.handle machine.requests.length holder .load ⟨true, false⟩) after := by
    simp only [system, TransitionSystem.ofExcept_step, take, ForwardingMachine.handle, slot]
    rw [assertThat_of apart, ok_bind, answered]
    rfl
  have spares : Spares actors machine after := by
    have kept : Spares actors sent moved := .of_setCore acts
    exact ⟨kept.cores, kept.supplies⟩
  have here : after.cores holder = { sent.cores holder with mgr := mgr } := setCore_self
  have control := (AnswerCall.of_remoteRequest answered).call.control
  refine ⟨after, (reachable.step issue).step handling, spares, setCore_of_ne apart.symm, ?_, ?_, ?_⟩
  · rw [here]
    exact held
  · rw [prio, here]
    exact above
  · rw [here]
    exact congrArg Control.currentHtmUid control

/-- Two transactions with a block each, one of them without a priority. -/
structure Contest (actors : Finset (Fin count)) (block : Fin count → Addr)
    (machine : ForwardingMachine chats n count) (high low : Fin count) (prio : Priority) :
    Prop where
  apart : high ≠ low
  highActs : high ∈ actors
  lowActs : low ∈ actors
  highHolds : (machine.cores high).mgr.Holding (block high)
  lowHolds : (machine.cores low).mgr.Holding (block low)
  top : machine.prio high = prio
  bottom : machine.prio low = ncPrioValue

variable {block : Fin count → Addr} {high low : Fin count} {prio : Priority}

/-- The one with the priority requests the block of the other, which goes above it, and restarts
without a priority. -/
theorem Contest.rung (reachable : (system chats n count).Reachable machine)
    (contest : Contest actors block machine high low prio) :
    ∃ next, (system chats n count).Reachable next ∧ Spares actors machine next ∧
      Contest actors block next low high
        (producerPrio ncPrioValue prio) := by
  have deep : machine.prio low - 1 ≠ ncPrioValue := by
    rw [contest.bottom]
    decide
  obtain ⟨raised, reached, spares, kept, held, above, -⟩ := Reachable.request reachable
    contest.lowActs contest.apart.symm contest.highHolds contest.lowHolds deep
  obtain ⟨core, restarts, holds, without⟩ := Core.restart (kept ▸ contest.highHolds)
  obtain ⟨next, reachedNext, sparesNext, here⟩ :=
    Reachable.runAlone reached (Finset.mem_singleton_self high) restarts
  have lowSame : next.cores low = raised.cores low :=
    sparesNext.cores low (Finset.notMem_singleton.mpr contest.apart.symm)
  refine ⟨next, reachedNext,
    spares.trans (sparesNext.mono (Finset.singleton_subset_iff.mpr contest.highActs)), ?_⟩
  exact
    { apart := contest.apart.symm, highActs := contest.lowActs, lowActs := contest.highActs
      highHolds := lowSame ▸ held
      lowHolds := here ▸ holds
      top := by
        rw [ForwardingMachine.prio, lowSame, ← contest.top, ← contest.bottom]
        exact above
      bottom := by
        rw [ForwardingMachine.prio, here]
        exact without }

private theorem producerPrio_ofNat {height : Nat} (small : height < 2 ^ 31) :
    producerPrio ncPrioValue (Int32.ofNat height) = Int32.ofNat (height + 1) := by
  have value : (Int32.ofNat height).toInt = height := Int32.toInt_ofNat_of_lt small
  have least : ncPrioValue.toInt = -2 ^ 31 := rfl
  have known : Int32.ofNat height ≠ ncPrioValue := by
    intro same
    rw [same] at value
    omega
  have below : ¬ ncPrioValue > Int32.ofNat height := by
    intro lower
    have := Int32.lt_iff_toInt_lt.mp lower
    omega
  rw [producerPrio, if_neg known, if_neg below, Int32.ofNat_add]
  rfl

/-- Every priority up to the largest is reached. -/
theorem Contest.climb (reachable : (system chats n count).Reachable machine)
    (contest : Contest actors block machine high low ncPrioValue) :
    ∀ height : Nat, height < 2 ^ 31 → ∃ next first second,
      (system chats n count).Reachable next ∧ Spares actors machine next ∧
      Contest actors block next first second (Int32.ofNat height) := by
  intro height
  induction height with
  | zero =>
    intro _
    obtain ⟨next, reached, spares, raised⟩ := contest.rung reachable
    exact ⟨next, low, high, reached, spares, raised⟩
  | succ height ih =>
    intro small
    obtain ⟨middle, first, second, reached, spares, reachedHeight⟩ := ih (by omega)
    obtain ⟨next, reachedNext, sparesNext, raised⟩ := reachedHeight.rung reached
    rw [producerPrio_ofNat (by omega)] at raised
    exact ⟨next, second, first, reachedNext, spares.trans sparesNext, raised⟩

/-- Cores 1 and 2 raise their priorities to the largest one, and the request of one of them makes
the priority of core 0 wrap around to NC while core 3 still consumes its block. -/
theorem forwarding_wrapsAround : ∃ machine : ForwardingMachine chats 64 4,
    (system chats 64 4).Reachable machine ∧ ∃ supply ∈ machine.supplies,
      machine.Runs supply.producer supply.uid ∧ machine.prio supply.producer = ncPrioValue ∧
      ¬ machine.prio supply.consumer < machine.prio supply.producer := by
  -- after the opening core 0 supplies core 3, and cores 1 and 2 may climb
  obtain ⟨machine, reachable, supplied, runs, prio, holds, first, second, top, bottom⟩ :
      ∃ machine, ((system chats 64 4).restrict PriorityFits).Reachable machine ∧
      machine.supplies = [⟨3, ForwardingMachine.block 0, 0, 1⟩] ∧ machine.Runs 0 1 ∧
      machine.prio 0 = initialPrioValue ∧
      (machine.cores 0).mgr.Holding (ForwardingMachine.block 0) ∧
      (machine.cores 1).mgr.Holding (ForwardingMachine.block 1) ∧
      (machine.cores 2).mgr.Holding (ForwardingMachine.block 2) ∧
      machine.prio 1 = ncPrioValue ∧ machine.prio 2 = ncPrioValue :=
    exists_opening chats PriorityFits openingEvents (by decide +kernel)
  have contest : Contest {1, 2} ForwardingMachine.block machine 1 2 ncPrioValue :=
    ⟨by decide, by decide, by decide, first, second, top, bottom⟩
  obtain ⟨peak, first, second, reached, spares, top⟩ :=
    contest.climb reachable.of_restrict (2 ^ 31 - 1) (by decide)
  have same : peak.cores 0 = machine.cores 0 := spares.cores 0 (by decide)
  have low : peak.prio 0 = initialPrioValue := by
    rw [ForwardingMachine.prio, same]
    exact prio
  have apart : 0 ≠ first := by
    rintro rfl
    exact absurd top.highActs (by decide)
  obtain ⟨next, reachedNext, sparesNext, -, holdsNext, wrapped, uid⟩ :=
    Reachable.request reached (Finset.mem_singleton_self 0) apart top.highHolds (same ▸ holds)
      (by rw [low]; decide)
  have bottom : next.prio 0 = ncPrioValue := by
    rw [wrapped, low, top.top]
    decide
  have supplies : ⟨3, ForwardingMachine.block 0, 0, 1⟩ ∈ next.supplies := by
    refine sparesNext.supplies _ (spares.supplies _ ?_ (by decide)) (by decide)
    simp [supplied]
  refine ⟨next, reachedNext, _, supplies, ⟨?_, ?_⟩, bottom, ?_⟩
  · rw [holdsNext.level]
    decide
  · rw [uid, same]
    exact runs.2
  · rw [bottom]
    unfold ncPrioValue
    grind

end ForwardingMachine

end Gem5.Ruby
