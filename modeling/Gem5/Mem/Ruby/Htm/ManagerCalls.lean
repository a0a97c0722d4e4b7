import Gem5.Mem.Ruby.Htm.CallFrame

/-!
# What each call of the manager does

Each function of the manager, the sequencer and the L0 controller that is not a life
cycle command is a call (`CallFrame`).  Most do more than stay within the frame: a
`QuietCall` changes neither data nor rank, an `AccessCall` changes data but no round of
validations, a `RankCall` may end the wait for a block, an `AnswerCall` may forward one.
-/

namespace Gem5.Ruby

open Foundation

namespace TransactionInterfaceManager

variable {params : HTMParams} {n : Nat} {mgr next : TransactionInterfaceManager params n}

/-- A call that keeps the rank of the transaction. -/
structure RankCall (mgr next : TransactionInterfaceManager params n) : Prop where
  call : CallFrame mgr next
  rank : RankKept mgr next

private theorem RankCall.refl (mgr : TransactionInterfaceManager params n) : RankCall mgr mgr :=
  ⟨.refl mgr, .refl mgr⟩

private theorem RankCall.trans {middle : TransactionInterfaceManager params n}
    (first : RankCall mgr middle) (second : RankCall middle next) : RankCall mgr next :=
  ⟨first.call.trans second.call, first.rank.trans second.rank⟩

/-- A call that also changes no data. -/
structure QuietCall (mgr next : TransactionInterfaceManager params n) : Prop
    extends RankCall mgr next where
  same : SameReceiver mgr next

namespace QuietCall

/-- Doing nothing is quiet. -/
theorem refl (mgr : TransactionInterfaceManager params n) : QuietCall mgr mgr :=
  ⟨.refl mgr, .refl mgr⟩

/-- Two quiet calls are quiet. -/
theorem trans {middle : TransactionInterfaceManager params n} (first : QuietCall mgr middle)
    (second : QuietCall middle next) : QuietCall mgr next :=
  ⟨first.toRankCall.trans second.toRankCall, first.same.trans second.same⟩

private theorem of_call (call : CallFrame mgr next) (prio : next.hwTransPrio = mgr.hwTransPrio)
    (produced : next.produced = mgr.produced) (same : SameReceiver mgr next) : QuietCall mgr next :=
  ⟨⟨call, fun _ => prio, produced, fun _ found => same.buffer ▸ found⟩, same⟩

private theorem of_conflictFrame (frame : ConflictFrame mgr next)
    (kept : mgr.Idle → next.hwTransPrio = mgr.hwTransPrio) : QuietCall mgr next :=
  ⟨⟨.of_conflictFrame frame kept, .of_conflictFrame frame⟩, .of_conflictFrame frame⟩

variable {signal : AbortSignal}

/-- Signalling an abort is quiet. -/
theorem of_setAbortFlag (signalled : mgr.setAbortFlag signal = .ok next) : QuietCall mgr next :=
  of_conflictFrame (.of_setAbortFlag signalled)
    fun idle => absurd idle.1 (setAbortFlag_ok signalled).1

variable {nack : RemoteRequest}

/-- Noting a nack is quiet. -/
theorem of_notifyReceiveNack (received : mgr.notifyReceiveNack nack = .ok next) :
    QuietCall mgr next := by
  refine of_conflictFrame (.of_notifyReceiveNack received) fun idle => ?_
  simp only [notifyReceiveNack, idle.1, ↓reduceIte, pure_eq_ok] at received
  rw [received]

variable {req : RemoteRequest} {verdict : Bool}

/-- The verdicts of an idle manager leave it as it is. -/
theorem of_shouldNackLoad (judged : mgr.shouldNackLoad req = .ok (verdict, next)) :
    QuietCall mgr next :=
  of_conflictFrame (.of_shouldNackLoad judged) fun idle => by rw [idle.shouldNackLoad judged]

private theorem of_shouldNackStore (judged : mgr.shouldNackStore req = .ok (verdict, next)) :
    QuietCall mgr next :=
  of_conflictFrame (.of_shouldNackStore judged) fun idle => by rw [idle.shouldNackStore judged]

/-- The limits of the mechanisms abort or do nothing. -/
theorem of_abortIf {limit : Prop} [Decidable limit]
    (limited : (if limit then mgr.setAbortFlag signal else pure mgr) = .ok next) :
    QuietCall mgr next := by
  split at limited
  · exact of_setAbortFlag limited
  · exact pure_eq_ok.mp limited ▸ refl mgr

private theorem of_limitConsumedBlocks (limited : mgr.limitConsumedBlocks nack = .ok next) :
    QuietCall mgr next :=
  of_abortIf limited

private theorem of_limitPrioDiff (limited : mgr.limitPrioDiff nack = .ok next) :
    QuietCall mgr next :=
  of_abortIf limited

/-- The validity check is quiet. -/
theorem of_abortIfInvalid {addr : Addr} {check : Bool}
    (checked : mgr.abortIfInvalid addr check = .ok next) : QuietCall mgr next := by
  unfold abortIfInvalid at checked
  split at checked
  · exact pure_eq_ok.mp checked ▸ refl mgr
  · exact of_setAbortFlag checked

private theorem of_refuseForwarding (refused : mgr.refuseForwarding signal = .ok (verdict, next)) :
    QuietCall mgr next := by
  rcases (refuseForwarding_ok refused).2 with rfl | ⟨-, -, signalled⟩
  · exact refl _
  · exact of_setAbortFlag signalled

/-- Asking whether to forward is quiet. -/
theorem of_asked (asked : mgr.Asked req verdict next) : QuietCall mgr next := by
  cases asked with
  | silent => exact refl mgr
  | refused _ _ _ refused => exact of_refuseForwarding refused
  | judged => exact refl mgr

private theorem of_markProducerTurnedConsumer (marked : mgr.markProducerTurnedConsumer = .ok next) :
    QuietCall mgr next := by
  obtain ⟨turned, rfl, same | produces⟩ := markProducerTurnedConsumer_shape marked
  · exact .of_call (.of_forwarding id fun _ clear =>
      { clear with turnedConsumer := same.trans clear.turnedConsumer }) rfl rfl ⟨⟨rfl, rfl⟩,
      rfl, rfl⟩
  · refine .of_call (.of_forwarding id fun _ clear => ?_) rfl rfl ⟨⟨rfl, rfl⟩, rfl, rfl⟩
    simp [isProducer, clear.sentTo, clear.sent, assertThat] at produces

/-- Judging a nack is quiet. -/
theorem of_nackEvent {nack : Nack n} {tbe : Option TBE} {event : NackEvent}
    (judged : mgr.nackEvent nack tbe = .ok (event, next)) : QuietCall mgr next := by
  obtain ⟨_, rfl⟩ := nackEvent_shape judged
  exact .of_call (.of_forwarding id fun _ clear => { clear with }) rfl rfl ⟨⟨rfl, rfl⟩, rfl, rfl⟩

/-- An explicit abort signals itself like any other. -/
theorem of_cancelTransaction (inside : mgr.transactionLevel ≠ 0)
    (live : mgr.isUnrollingLog = false) (cancelled : mgr.cancelTransaction = .ok next) :
    QuietCall mgr next := by
  simp only [cancelTransaction, run_eq_ok] at cancelled
  obtain ⟨-, -, rfl⟩ := cancelled
  exact .of_call ⟨rfl, rfl, .inl rfl, .inr ⟨inside, live, rfl⟩, fun _ => rfl, id, fun _ => rfl,
    .refl _, fun _ => rfl, id, id, rfl, id, Nat.le_refl _⟩ rfl rfl ⟨⟨rfl, rfl⟩, rfl, rfl⟩

section Sets

variable {addr : Addr} {access : Access}

section

variable (inside : mgr.transactionLevel ≠ 0)

include inside

/-- The sets and versions of a running transaction are no data. -/
theorem of_running {isolation : TransactionIsolationManager}
    {lazyVersion : LazyTransactionVersionManager} {eagerVersion : EagerTransactionVersionManager}
    (tracked : mgr.isolation.Tracked n params.preciseReadSetTracking →
      isolation.Tracked n params.preciseReadSetTracking)
    (flush : mgr.lazyVersion.FlushKept lazyVersion False)
    (log : eagerVersion.initStatus = mgr.eagerVersion.initStatus ∧
      eagerVersion.logTLB = mgr.eagerVersion.logTLB) :
    QuietCall mgr { mgr with
      isolation := isolation, lazyVersion := lazyVersion, eagerVersion := eagerVersion } :=
  .of_call (.of_running inside tracked flush log) rfl rfl ⟨⟨rfl, rfl⟩, rfl, rfl⟩

private theorem of_isolation {isolation : TransactionIsolationManager}
    (tracked : mgr.isolation.Tracked n params.preciseReadSetTracking →
      isolation.Tracked n params.preciseReadSetTracking) :
    QuietCall mgr { mgr with isolation := isolation } :=
  of_running inside tracked (.refl _) ⟨rfl, rfl⟩

private theorem of_isolateTransactionLoad (imprecise : params.preciseReadSetTracking = false)
    (isolated : mgr.isolateTransactionLoad addr = .ok next) : QuietCall mgr next := by
  simp only [isolateTransactionLoad, run_eq_ok] at isolated
  obtain ⟨-, rfl⟩ := isolated
  exact of_isolation inside fun tracked => tracked.addToReadSet imprecise _

end

/-- Isolating a store is quiet. -/
theorem of_isolateTransactionStore (isolated : mgr.isolateTransactionStore addr = .ok next) :
    QuietCall mgr next := by
  simp only [isolateTransactionStore, run_eq_ok] at isolated
  obtain ⟨inside, rfl⟩ := isolated
  exact of_isolation (by omega) fun tracked => tracked.addToWriteSet _

/-- Handling a transactional write is quiet. -/
theorem of_handleTransactionalWrite (handled : mgr.handleTransactionalWrite addr = .ok next) :
    QuietCall mgr next := by
  simp only [handleTransactionalWrite, run_eq_ok] at handled
  obtain ⟨-, handled⟩ := handled
  split at handled
  · exact pure_eq_ok.mp handled ▸ refl mgr
  · exact of_isolateTransactionStore handled

/-- Logging a store is quiet. -/
theorem of_logTransactionalStores (logged : mgr.logTransactionalStores addr = .ok next) :
    QuietCall mgr next := by
  simp only [logTransactionalStores, isolateTransactionStore,
    EagerTransactionVersionManager.addLogEntry, run_eq_ok] at logged
  obtain ⟨_, ⟨inside, rfl⟩, _, ⟨-, rfl⟩, rfl⟩ := logged
  exact of_running (by omega) (fun tracked => tracked.addToWriteSet _) (.refl _) ⟨rfl, rfl⟩

/-- Redirecting a store is quiet. -/
theorem of_redirectStore {bytes : List UInt8}
    (redirected : mgr.redirectStoreToWriteBuffer addr bytes = .ok next) : QuietCall mgr next := by
  simp only [redirectStoreToWriteBuffer, LazyTransactionVersionManager.addToWriteBuffer,
    bind_eq_ok, assertThat_eq_ok, exists_const] at redirected
  obtain ⟨inside, lazyVersion, ⟨-, -, buffered⟩, redirected⟩ := redirected
  rw [pure_eq_ok] at redirected
  subst redirected
  refine of_running (by omega) (fun tracked => tracked.redirectStore _) ?_ ⟨rfl, rfl⟩
  split at buffered
  · exact pure_eq_ok.mp buffered ▸ ⟨rfl, .inl⟩
  · simp at buffered

private theorem of_addToRetiredReadSet (retired : mgr.addToRetiredReadSet addr = .ok next) :
    QuietCall mgr next := by
  simp only [addToRetiredReadSet, TransactionIsolationManager.addToRetiredReadSet, run_eq_ok,
    makeLineAddress_idem] at retired
  obtain ⟨inside, isolation, retired, rfl⟩ := retired
  split at retired
  · simp only [run_eq_ok] at retired
    obtain ⟨-, rfl⟩ := retired
    exact of_isolation (by omega) fun tracked => tracked.retire _
  · simp at retired

/-- Isolating a retired load is quiet. -/
theorem of_isolateRetiredLoad (isolated : mgr.isolateRetiredLoad addr = .ok next) :
    QuietCall mgr next := by
  simp only [isolateRetiredLoad, bind_eq_ok] at isolated
  obtain ⟨_, -, isolated⟩ := isolated
  repeat' split at isolated
  · exact pure_eq_ok.mp isolated ▸ refl mgr
  · exact of_addToRetiredReadSet isolated
  · simp only [bind_eq_ok] at isolated
    obtain ⟨_, isolated, retired⟩ := isolated
    -- with precise tracking the load enters the read set and retires in one command
    simp only [isolateTransactionLoad, run_eq_ok] at isolated
    obtain ⟨-, rfl⟩ := isolated
    simp only [addToRetiredReadSet, TransactionIsolationManager.addToRetiredReadSet, run_eq_ok,
      makeLineAddress_idem] at retired
    obtain ⟨inside, isolation, retired, rfl⟩ := retired
    split at retired
    · simp only [run_eq_ok] at retired
      obtain ⟨-, rfl⟩ := retired
      refine of_isolation (by omega) fun tracked => ?_
      have same : (mgr.isolation.addToReadSetPerfectFilter n mgr.transactionLevel
          (makeLineAddress n addr)).readSet.insert (makeLineAddress n addr) .retired =
            mgr.isolation.readSet.insert (makeLineAddress n addr) .retired := by
        refine Std.ExtTreeMap.ext_getElem? fun key => ?_
        simp only [TransactionIsolationManager.addToReadSetPerfectFilter, makeLineAddress_idem,
          Std.ExtTreeMap.getElem?_insert, Std.ExtTreeMap.getElem?_insertIfNew]
        split
        · rfl
        · next other => simp only [Std.compare_eq_iff_eq] at other ⊢; simp [other]
      rw [same]
      exact tracked.retire addr
    · simp at retired
  · simp at isolated

private theorem of_isolateIssuedLoad (isolated : mgr.isolateIssuedLoad addr = .ok next) :
    QuietCall mgr next := by
  unfold isolateIssuedLoad at isolated
  split at isolated
  · exact pure_eq_ok.mp isolated ▸ refl mgr
  · next imprecise =>
    split at isolated
    · next running =>
      simp only [bind_eq_ok] at isolated
      obtain ⟨_, -, isolated⟩ := isolated
      split at isolated
      · exact pure_eq_ok.mp isolated ▸ refl mgr
      · exact of_isolateTransactionLoad (CallFrame.inside_of_inTransaction running)
          (by simpa using imprecise) isolated
    · simp at isolated

/-- Inserting a request is quiet. -/
theorem of_insertRequest {uid : Nat} (inserted : mgr.insertRequest uid access = .ok next) :
    QuietCall mgr next := by
  have requested : QuietCall mgr { mgr with
      requestTable := mgr.requestTable.insertIfNew (makeLineAddress n access.addr) uid } :=
    .of_call (.of_surroundings (Nat.le_refl _)) rfl rfl ⟨⟨rfl, rfl⟩, rfl, rfl⟩
  unfold insertRequest at inserted
  dsimp only at inserted
  split at inserted
  · exact pure_eq_ok.mp inserted ▸ requested
  · exact requested.trans (of_isolateIssuedLoad inserted)

/-- A failed access is quiet. -/
theorem of_failedCallback {lastAbortHtmUid : Nat} {nack : RemoteRequest}
    (failed : mgr.failedCallback lastAbortHtmUid nack = .ok next) : QuietCall mgr next := by
  unfold failedCallback at failed
  split at failed
  · split at failed
    · exact pure_eq_ok.mp failed ▸ refl mgr
    · exact of_setAbortFlag failed
  · simp only [bind_eq_ok] at failed
    obtain ⟨_, -, failed⟩ := failed
    split at failed
    · exact pure_eq_ok.mp failed ▸ refl mgr
    · exact of_notifyReceiveNack failed

end Sets

end QuietCall

/-- A call that keeps the rank and the blocks to validate. -/
structure AccessCall (mgr next : TransactionInterfaceManager params n) : Prop
    extends RankCall mgr next where
  round : RoundKept mgr next

/-- A quiet call keeps what an access keeps. -/
theorem QuietCall.access (quiet : QuietCall mgr next) : AccessCall mgr next :=
  ⟨quiet.toRankCall, .of_sameReceiver quiet.same⟩

private theorem isEmpty_eq_false_of_getElem? {addr : Addr}
    {map : Std.ExtTreeMap Addr (DataForwarded n)}
    {entry : DataForwarded n} (found : map[addr]? = some entry) : map.isEmpty = false := by
  by_contra empty
  have nothing : map = ∅ := Std.ExtTreeMap.isEmpty_iff.mp (by simpa using empty)
  simp [nothing] at found

namespace AccessCall

variable {access : Access} {issues : Addr → Bool}

/-- Two accesses keep what one does. -/
theorem trans {middle : TransactionInterfaceManager params n} (first : AccessCall mgr middle)
    (second : AccessCall middle next) : AccessCall mgr next :=
  ⟨first.toRankCall.trans second.toRankCall, first.round.trans second.round⟩

/-- What does not concern forwarding. -/
theorem of_call (call : CallFrame mgr next) (prio : next.hwTransPrio = mgr.hwTransPrio)
    (forwarding : next.forwarding = mgr.forwarding) : AccessCall mgr next :=
  ⟨⟨call, fun _ => prio, by rw [produced, forwarding],
    fun _ => by simp only [buffer, forwarding, imp_self]⟩, .of_forwarding forwarding⟩

private theorem of_writeLine {addr : Addr} {entry : CacheEntry n} :
    AccessCall mgr (mgr.writeLine addr entry) :=
  .of_call (.of_surroundings (Nat.le_refl _)) rfl rfl

/-- Updating a buffered block. -/
theorem of_updateBlock {addr : Addr} {old entry : DataForwarded n}
    (found : mgr.buffer[addr]? = some old) :
    AccessCall mgr { mgr with forwarding := { mgr.forwarding with
      recvDataForwardedFromProducer :=
        mgr.forwarding.recvDataForwardedFromProducer.insert addr entry } } := by
  have held : addr ∈ mgr.buffer := Std.ExtTreeMap.mem_iff_isSome_getElem?.mpr (by simp [found])
  have round := @RoundKept.of_updateBlock params n mgr addr entry held
  refine ⟨⟨.of_consumed (isEmpty_eq_false_of_getElem? found) rfl, fun _ => rfl, rfl,
    fun other inserted => ?_⟩, round⟩
  rw [← Std.ExtTreeMap.mem_iff_contains] at inserted ⊢
  exact (round.blocks other).mp inserted

private theorem of_trackForwardedAccess (followed : mgr.trackForwardedAccess access = .ok next) :
    AccessCall mgr next := by
  unfold trackForwardedAccess at followed
  dsimp only at followed
  repeat' split at followed
  · unfold setAccessOnForwardBlock at followed
    split at followed
    · next entry found =>
      simp only [run_eq_ok] at followed
      obtain ⟨-, _, -, rfl⟩ := followed
      exact of_updateBlock found
    · simp at followed
  · simp only [run_eq_ok] at followed
    exact followed.2 ▸ (QuietCall.refl mgr).access
  · exact pure_eq_ok.mp followed ▸ (QuietCall.refl mgr).access

private theorem of_hitStore (hit : mgr.hitStore access issues = .ok next) :
    AccessCall mgr next := by
  simp only [hitStore, bind_eq_ok] at hit
  obtain ⟨middle, handled, hit⟩ := hit
  refine (QuietCall.of_handleTransactionalWrite handled).access.trans ?_
  split at hit
  · simp only [performFlushedStore, run_eq_ok] at hit
    obtain ⟨-, _, -, ⟨_, lazyVersion⟩, merge, rfl⟩ := hit
    obtain ⟨inside, flush⟩ := LazyTransactionVersionManager.mergeDataFromWriteBuffer_ok merge
    exact .of_call (.of_running (by simp [inside]) id flush ⟨rfl, rfl⟩) rfl rfl
  · simp only [performStore, run_eq_ok] at hit
    obtain ⟨_, -, rfl⟩ := hit
    exact of_writeLine

/-- A hit is an access. -/
theorem of_hitCallback (hit : mgr.hitCallback access issues = .ok next) : AccessCall mgr next := by
  simp only [hitCallback, bind_eq_ok] at hit
  obtain ⟨_, followed, hit⟩ := hit
  refine (of_trackForwardedAccess followed).trans ?_
  split at hit
  · exact of_hitStore hit
  · exact pure_eq_ok.mp hit ▸ (QuietCall.refl _).access

/-- A store's callback is an access. -/
theorem of_writeCallback (called : mgr.writeCallback access issues = .ok next) :
    AccessCall mgr next := by
  unfold writeCallback at called
  split at called
  · exact (QuietCall.of_logTransactionalStores called).access
  · exact of_hitCallback called

/-- A speculative callback is an access. -/
theorem of_specCallback (called : mgr.specCallback access issues = .ok next) :
    AccessCall mgr next := by
  unfold specCallback at called
  split at called
  · exact of_writeCallback called
  · simp only [bind_eq_ok] at called
    obtain ⟨_, hit, isolated⟩ := called
    exact (of_hitCallback hit).trans (QuietCall.of_isolateTransactionStore isolated).access

end AccessCall

section Validation

variable {addr : Addr}

/-- Scheduling a validation changes no data. -/
theorem scheduleNextValidation_call (scheduled : mgr.scheduleNextValidation addr = .ok next) :
    RankCall mgr next ∧ SameData mgr next := by
  unfold scheduleNextValidation at scheduled
  repeat' split at scheduled
  · exact pure_eq_ok.mp scheduled ▸ ⟨.refl mgr, .refl mgr⟩
  · simp only [scheduleValidationOfConsumedData, run_eq_ok] at scheduled
    obtain ⟨-, -, -, -, rfl⟩ := scheduled
    exact ⟨⟨.of_forwarding id fun _ clear => { clear with }, fun _ => rfl, rfl, fun _ => id⟩,
      rfl, rfl⟩
  · simp at scheduled

/-- Firing a validation keeps the rank and the data. -/
theorem fireValidation_call {status : RequestStatus}
    (fired : mgr.fireValidation status = .ok next) :
    RankCall mgr next ∧ SameData mgr next := by
  obtain ⟨event, _, rfl⟩ := fireValidation_shape fired
  have moved : CallFrame mgr
      { mgr with forwarding := { mgr.forwarding with validationEvent := event } } :=
    .of_forwarding id fun _ clear => { clear with }
  exact ⟨⟨moved.trans (.of_surroundings (Nat.le_refl _)), fun _ => rfl, rfl, fun _ => id⟩, rfl, rfl⟩

namespace RankCall

/-- A block leaves the buffer of a consumer. -/
theorem of_erase (addr : Addr) (validated : Bool) (buffered : mgr.isConsumer = true) :
    RankCall mgr { mgr with forwarding := { mgr.forwarding with
      recvDataForwardedFromProducer := mgr.forwarding.recvDataForwardedFromProducer.erase addr
      hasValidatedAnyData := validated } } := by
  refine ⟨.of_consumed (by simpa [isConsumer] using buffered) rfl, fun _ => rfl, rfl,
    fun other inside => ?_⟩
  simp only [buffer, Std.ExtTreeMap.contains_erase, Bool.and_eq_true] at inside
  exact inside.2

/-- The end of a validation keeps the rank. -/
theorem of_endValidation {source : MachineID} {timestamp : Cycles} {isNack : Bool}
    (buffered : mgr.isConsumer = true)
    (ended : mgr.endValidation addr source timestamp isNack = .ok next) : RankCall mgr next := by
  unfold endValidation at ended
  split at ended
  · unfold repeatValidation at ended
    split at ended
    · simp only [bind_eq_ok] at ended
      obtain ⟨_, received, ended⟩ := ended
      exact (QuietCall.of_notifyReceiveNack received).toRankCall.trans
        (scheduleNextValidation_call ended).1
    · exact (scheduleNextValidation_call ended).1
  · unfold completeValidation at ended
    dsimp only at ended
    split at ended
    · have nonempty : mgr.forwarding.recvDataForwardedFromProducer.isEmpty = false := by
        simpa [isConsumer] using buffered
      have erased := of_erase addr true buffered
      exact pure_eq_ok.mp ended ▸ ⟨.of_consumed nonempty rfl, erased.rank.1, rfl, erased.rank.3⟩
    · split at ended
      · exact pure_eq_ok.mp ended ▸ of_erase addr true buffered
      · simp at ended

/-- A validation keeps the priority; it may end with the block out of the buffer. -/
theorem of_validateConsumedData {sender : MachineID} {data : DataBlock n} {timestamp : Cycles}
    {isNack : Bool}
    (validated : mgr.validateConsumedData addr sender data timestamp isNack = .ok next) :
    RankCall mgr next := by
  unfold validateConsumedData at validated
  split at validated
  · exact pure_eq_ok.mp validated ▸ refl mgr
  · simp only [validateDataBlock, run_eq_ok] at validated
    obtain ⟨⟨_, _, last⟩, ⟨-, consumer, compared⟩, -, rfl⟩ := validated
    split at compared
    · simp at compared
    · next buffered found =>
      simp only [run_eq_ok, Prod.mk.injEq] at compared
      obtain ⟨-, _, checking, _, ending, -, -, rfl⟩ := compared
      have checked := (AccessCall.of_updateBlock found).trans
        (QuietCall.of_abortIfInvalid checking).access
      refine checked.toRankCall.trans ((of_endValidation ?_ ending).trans
        AccessCall.of_writeLine.toRankCall)
      rw [checked.round.isConsumer]
      exact consumer

end RankCall

end Validation

section Replacement

variable {addr : Addr} {source : MachineID} {capacity dataStale : Bool}

private theorem QuietCall.of_replaceWriteSetBlock
    (replaced : mgr.replaceWriteSetBlock addr source capacity dataStale = .ok next) :
    QuietCall mgr next := by
  unfold replaceWriteSetBlock at replaced
  split at replaced
  · refine QuietCall.trans ?_ (.of_setAbortFlag replaced)
    split
    · exact .of_call (.of_surroundings (Nat.le_refl _)) rfl rfl ⟨⟨rfl, rfl⟩, rfl, rfl⟩
    · exact .refl mgr
  · exact pure_eq_ok.mp replaced ▸ .refl mgr

private theorem QuietCall.of_replaceStaleBlock
    (replaced : mgr.replaceStaleBlock addr source capacity = .ok next) : QuietCall mgr next := by
  simp only [replaceStaleBlock, bind_eq_ok] at replaced
  obtain ⟨_, -, replaced⟩ := replaced
  split at replaced
  · exact pure_eq_ok.mp replaced ▸ .refl mgr
  · next live =>
    have running : mgr.inTransaction = true := by
      simp only [Bool.or_eq_true, Bool.not_eq_true', not_or] at live
      simpa using live.2
    simp only [bind_eq_ok] at replaced
    obtain ⟨_, -, replaced⟩ := replaced
    split at replaced
    · next early =>
      simp only [bind_eq_ok] at replaced
      obtain ⟨_, isolated, signalled⟩ := replaced
      exact (QuietCall.of_isolateTransactionLoad (CallFrame.inside_of_inTransaction running) early.2
        isolated).trans (.of_setAbortFlag signalled)
    · exact .of_setAbortFlag replaced

private theorem RankCall.of_replaceConsumedBlock
    (replaced : mgr.replaceConsumedBlock addr source capacity = .ok next) : RankCall mgr next := by
  simp only [replaceConsumedBlock, run_eq_ok] at replaced
  obtain ⟨consumed, -, _, -, replaced⟩ := replaced
  have consumer : mgr.isConsumer = true := isConsumer_iff.mpr ⟨_, consumed⟩
  have erased := RankCall.of_erase addr mgr.forwarding.hasValidatedAnyData consumer
  split at replaced
  · exact pure_eq_ok.mp replaced ▸ erased
  · simp only [bind_eq_ok] at replaced
    obtain ⟨_, -, signalled⟩ := replaced
    exact erased.trans (QuietCall.of_setAbortFlag signalled).toRankCall

/-- Only the eviction of a consumed block is not quiet. -/
theorem xactReplacement_call {spec : Bool}
    (replaced : mgr.xactReplacement addr source capacity dataStale spec = .ok next) :
    QuietCall mgr next ∨ mgr.replaceConsumedBlock addr source capacity = .ok next := by
  simp only [xactReplacement, run_eq_ok] at replaced
  obtain ⟨-, replaced⟩ := replaced
  repeat' split at replaced
  · exact .inl (.of_replaceWriteSetBlock replaced)
  · exact .inl (.of_replaceStaleBlock replaced)
  · exact .inr replaced
  · simp only [bind_eq_ok, assertThat_eq_ok, exists_const] at replaced
    obtain ⟨_, -, -, replaced⟩ := replaced
    exact .inl (pure_eq_ok.mp replaced ▸ .refl mgr)
  · simp only [run_eq_ok] at replaced
    obtain ⟨_, -, -, signalled⟩ := replaced
    exact .inl (.of_setAbortFlag signalled)

/-- A replacement keeps the rank. -/
theorem RankCall.of_xactReplacement {spec : Bool}
    (replaced : mgr.xactReplacement addr source capacity dataStale spec = .ok next) :
    RankCall mgr next := by
  rcases xactReplacement_call replaced with quiet | consumed
  · exact quiet.toRankCall
  · exact .of_replaceConsumedBlock consumed

end Replacement

/-- A call that changes no data; it may forward some. -/
structure AnswerCall (mgr next : TransactionInterfaceManager params n) : Prop where
  call : CallFrame mgr next
  same : SameReceiver mgr next

private theorem QuietCall.answer (quiet : QuietCall mgr next) : AnswerCall mgr next :=
  ⟨quiet.call, quiet.same⟩

/-- The requests a holder of a block may get. -/
inductive RequestKind where
  | load
  | store
  | invalidation
  deriving DecidableEq, Repr

/-- The holder's answer to a request. -/
def remoteRequest (mgr : TransactionInterfaceManager params n) (kind : RequestKind)
    (req : RemoteRequest) (line : LineStatus) :
    Checked (Option (Nack n) × TransactionInterfaceManager params n) :=
  match kind with
  | .load => mgr.remoteLoad req line
  | .store => mgr.remoteStore req line
  | .invalidation => mgr.remoteInvalidation req line

section Answers

variable {req : RemoteRequest} {line : LineStatus} {response : Option (Nack n)}

/-- The verdict on a request, by which it is answered. -/
inductive Judged (mgr : TransactionInterfaceManager params n) (req : RemoteRequest) :
    RequestKind → Bool → TransactionInterfaceManager params n → Prop where
  | load {verdict next} (judged : mgr.shouldNackLoad req = .ok (verdict, next)) :
      Judged mgr req .load verdict next
  | store {kind verdict next} (judged : mgr.shouldNackStore req = .ok (verdict, next)) :
      Judged mgr req kind verdict next

variable {kind : RequestKind}

/-- Judging a request is quiet. -/
theorem Judged.quiet {verdict : Bool} (judged : Judged mgr req kind verdict next) :
    QuietCall mgr next := by
  cases judged with
  | load judged => exact .of_shouldNackLoad judged
  | store judged => exact .of_shouldNackStore judged

/-- Every request is judged, and then it is nacked or served. -/
theorem remoteRequest_cases (handled : mgr.remoteRequest kind req line = .ok (response, next)) :
    (∃ middle nack, Judged mgr req kind true middle ∧
      middle.sendInvNack req line = .ok (nack, next) ∧ response = some nack) ∨
      Judged mgr req kind false next ∧ response = none := by
  obtain ⟨verdict, middle, judged, answered⟩ : ∃ verdict middle,
      Judged mgr req kind verdict middle ∧
        answer req line (verdict, middle) = .ok (response, next) := by
    cases kind with
    | load =>
      simp only [remoteRequest, remoteLoad, bind_eq_ok] at handled
      obtain ⟨⟨_, _⟩, judged, answered⟩ := handled
      exact ⟨_, _, .load judged, answered⟩
    | store =>
      simp only [remoteRequest, remoteStore, bind_eq_ok] at handled
      obtain ⟨⟨_, _⟩, judged, answered⟩ := handled
      exact ⟨_, _, .store judged, answered⟩
    | invalidation =>
      simp only [remoteRequest, remoteInvalidation, bind_eq_ok] at handled
      obtain ⟨⟨_, _⟩, judged, _, answered, handled⟩ := handled
      refine ⟨_, _, .store judged, ?_⟩
      split at handled
      · exact pure_eq_ok.mp handled ▸ answered
      · simp only [run_eq_ok] at handled
        obtain ⟨_, -, rfl⟩ := handled
        exact answered
  cases verdict with
  | true =>
    simp only [answer, ↓reduceIte, run_eq_ok, Prod.mk.injEq] at answered
    obtain ⟨⟨nack, _⟩, sent, rfl, rfl⟩ := answered
    exact .inl ⟨middle, nack, judged, sent, rfl⟩
  | false =>
    obtain ⟨rfl, rfl⟩ := Prod.mk.inj (pure_eq_ok.mp answered)
    exact .inr ⟨judged, rfl⟩

/-- Only a running transaction forwards. -/
theorem MayForward.inside (may : mgr.MayForward req) : mgr.transactionLevel ≠ 0 :=
  CallFrame.inside_of_inTransaction may.running

/-- A nack goes out without data, or with the data that the mechanism lets the transaction send. -/
theorem sendInvNack_cases {nack : Nack n} (sent : mgr.sendInvNack req line = .ok (nack, next)) :
    (mgr.plainNack req = .ok nack ∧ mgr.Asked req false next) ∨ ∃ plain data,
      mgr.plainNack req = .ok plain ∧ params.allowEarlyValueFwd = true ∧ mgr.MayForward req ∧
      mgr.mechanismForwards req = .ok true ∧ mgr.addConsumer req = .ok (data, next) ∧
      nack = { plain with priority := next.getTransactionPriority, data := some data } := by
  simp only [sendInvNack, bind_eq_ok] at sent
  obtain ⟨plain, made, sent⟩ := sent
  split at sent
  · simp only [bind_eq_ok] at sent
    obtain ⟨⟨forwards, asker⟩, asked, sent⟩ := sent
    cases forwards with
    | false =>
      obtain ⟨rfl, rfl⟩ := Prod.mk.inj (pure_eq_ok.mp sent)
      exact .inl ⟨made, .of_shouldForwardDataToConsumer asked⟩
    | true =>
      simp only [↓reduceIte, run_eq_ok, Prod.mk.injEq] at sent
      obtain ⟨⟨data, _⟩, added, rfl, rfl⟩ := sent
      have enabled : params.allowEarlyValueFwd = true := by
        by_contra disabled
        simp [shouldForwardDataToConsumer, disabled] at asked
      cases Asked.of_shouldForwardDataToConsumer asked with
      | judged may judged => exact .inr ⟨plain, data, made, enabled, may, judged, added, rfl⟩
  · obtain ⟨rfl, rfl⟩ := Prod.mk.inj (pure_eq_ok.mp sent)
    exact .inl ⟨made, .silent⟩

namespace AnswerCall

/-- Adding a consumer is an answer. -/
theorem of_addConsumer {data : DataBlock n} (inside : mgr.transactionLevel ≠ 0)
    (added : mgr.addConsumer req = .ok (data, next)) : AnswerCall mgr next := by
  simp only [addConsumer, recordSentData, run_eq_ok, Prod.mk.injEq] at added
  obtain ⟨_, -, _, switched, -, _, -, -, _, -, _, ⟨-, _, -, rfl⟩, -, rfl⟩ := added
  have moved := CallFrame.of_switchHwPrio switched inside
  have same := SameReceiver.of_switchHwPrio switched
  refine ⟨CallFrame.trans ?_ (moved.trans (.of_forwarding id fun outside =>
    absurd (moved.transactionLevel.symm.trans outside) inside)),
    ⟨same.dataCache, same.buffer⟩, same.received, same.event⟩
  exact .of_forwarding id fun outside => absurd outside inside

/-- Nacking an invalidation is an answer. -/
theorem of_sendInvNack {nack : Nack n} (sent : mgr.sendInvNack req line = .ok (nack, next)) :
    AnswerCall mgr next := by
  rcases sendInvNack_cases sent with ⟨-, asked⟩ | ⟨_, _, -, -, may, -, added, -⟩
  · exact (QuietCall.of_asked asked).answer
  · exact of_addConsumer may.inside added

/-- Every remote request is an answer. -/
theorem of_remoteRequest {kind : RequestKind}
    (handled : mgr.remoteRequest kind req line = .ok (response, next)) : AnswerCall mgr next := by
  rcases remoteRequest_cases handled with ⟨middle, nack, judged, sent, -⟩ | ⟨judged, -⟩
  · have before := judged.quiet
    have after := of_sendInvNack sent
    exact ⟨before.call.trans after.call, before.same.trans after.same⟩
  · exact judged.quiet.answer

end AnswerCall

end Answers

section Reception

variable {nack : RemoteRequest} {data : DataBlock n}

/-- A received block is buffered; the first one makes the transaction a consumer and, unless the
transaction aborts, is scheduled for validation. -/
theorem consumeData_ok (consumed : mgr.consumeData nack data = .ok next) :
    ∃ reconsumer lowPrio machine event, next = { mgr.bufferForwardedData nack.addr data with
      forwarding := { (mgr.bufferForwardedData nack.addr data).forwarding with
        reconsumer := reconsumer, consumerLowPrio := lowPrio
        hasReceivedDataFromProducer := machine, validationEvent := event } } ∧
      ((mgr.isConsumer = true ∧ machine = mgr.forwarding.hasReceivedDataFromProducer ∧
          event = mgr.forwarding.validationEvent) ∨
        (mgr.isConsumer = false ∧ machine = nack.remoteId ∧
          ((mgr.isAborting = true ∧ event = mgr.forwarding.validationEvent) ∨
            event = some nack.addr))) := by
  unfold consumeData at consumed
  split at consumed
  · next consumer =>
    exact ⟨_, _, _, _, (pure_eq_ok.mp consumed).symm, .inl ⟨consumer, rfl, rfl⟩⟩
  · next nothing =>
    have nothing : mgr.isConsumer = false := by simpa using nothing
    simp only [becomeConsumer, run_eq_ok] at consumed
    obtain ⟨_, -, -, -, consumed⟩ := consumed
    split at consumed
    · next aborting =>
      exact ⟨_, _, _, _, (pure_eq_ok.mp consumed).symm, .inr ⟨nothing, rfl, .inl ⟨aborting, rfl⟩⟩⟩
    · simp only [scheduleValidationOfConsumedData, run_eq_ok] at consumed
      obtain ⟨-, -, -, -, rfl⟩ := consumed
      exact ⟨_, _, _, _, rfl, .inr ⟨nothing, rfl, .inr rfl⟩⟩

/-- The parts of a reception: a producer is marked, the priority is taken from the nack, the block
is buffered, and the limits are checked. -/
structure Receives (mgr : TransactionInterfaceManager params n) (nack : RemoteRequest)
    (data : DataBlock n) (marked taker consumer next : TransactionInterfaceManager params n) :
    Prop where
  marking : QuietCall mgr marked
  prio : marked.hwTransPrio = mgr.hwTransPrio
  aligned : nack.addr = makeLineAddress n nack.addr
  absent : mgr.buffer.contains nack.addr = false
  requested : ∃ uid, mgr.packetUid nack.addr = .ok uid ∧ mgr.currentHtmUid ≤ uid
  running : marked.inTransaction = true
  taking : marked.takeNackPriority nack = .ok taker
  consuming : taker.consumeData nack data = .ok consumer
  limits : QuietCall consumer next

/-- What a successful reception went through. -/
theorem notifyForwardedData_ok
    (notified : mgr.notifyForwardedDataFromProducer nack data = .ok next) :
    ∃ marked taker consumer, Receives mgr nack data marked taker consumer next := by
  simp only [notifyForwardedDataFromProducer, run_eq_ok] at notified
  obtain ⟨marked, marks, aligned, absent, uid, packet, ⟨running, current⟩, taker, taking, consumer,
    consuming, _, blocks, depth⟩ := notified
  have marking := QuietCall.of_markProducerTurnedConsumer marks
  obtain ⟨_, rfl, -⟩ := markProducerTurnedConsumer_shape marks
  exact ⟨_, taker, consumer, marking, rfl, aligned, by rwa [isBlockConsumed, ← aligned] at absent,
    ⟨uid, packet, current⟩, running, taking, consuming,
    (QuietCall.of_limitConsumedBlocks blocks).trans (.of_limitPrioDiff depth)⟩

private theorem CallFrame.of_consumeData (inside : mgr.transactionLevel ≠ 0)
    (machine : nack.remoteId ≠ createInvalidMachineID)
    (consumed : mgr.consumeData nack data = .ok next) : CallFrame mgr next := by
  obtain ⟨_, _, _, _, rfl, ⟨consumer, from_, -⟩ | ⟨-, rfl, -⟩⟩ := consumeData_ok consumed
  · exact .of_consumed (by simpa [isConsumer] using consumer) from_
  · exact .of_forwarding (fun _ _ => machine) fun outside => absurd outside inside

/-- Consuming a block that a machine sent is a call. -/
theorem CallFrame.of_consumeForwardedData {nack : Nack n} {access : Access} {issues : Addr → Bool}
    (machine : nack.sender ≠ createInvalidMachineID)
    (consumed : mgr.consumeForwardedData nack data access issues = .ok next) :
    CallFrame mgr next := by
  simp only [consumeForwardedData, bind_eq_ok] at consumed
  obtain ⟨_, notified, called⟩ := consumed
  obtain ⟨marked, taker, consumer, parts⟩ := notifyForwardedData_ok notified
  have inside := inside_of_inTransaction parts.running
  have took : CallFrame marked taker := by
    have taking := parts.taking
    unfold takeNackPriority at taking
    split at taking
    · exact (QuietCall.of_notifyReceiveNack taking).call
    · exact .of_switchHwPrio taking inside
  have entered := of_consumeData (took.transactionLevel ▸ inside) machine parts.consuming
  exact AccessCall.of_writeLine.call.trans (parts.marking.call.trans (took.trans
    (entered.trans (parts.limits.call.trans (AccessCall.of_specCallback called).call))))

end Reception

end TransactionInterfaceManager

end Gem5.Ruby
