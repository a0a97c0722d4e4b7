import Gem5.Mem.Ruby.Htm.CoreSystem

/-!
# Every conflict is resolved, and an aborting transaction nacks nobody

A remote request that conflicts with a running transaction has to be nacked or to
abort it; a transaction that is already aborting should not nack.  Both hold of
`shouldNackRemoteRequest`, but `shouldNackStore` replaces its verdict under the
timestamp policies.  The exact exceptions are stated here: CDA hybrid lets an older
transactional writer through to a block that is only in the read set and leaves the
reader live, and a timestamp policy keeps nacking transactional writers while the
transaction aborts.  Requests from outside every transaction win against lazy
versioning under all policies, those named `_ntx` included.
-/

namespace Gem5.Ruby

open Foundation TransactionInterfaceManager

namespace TransactionInterfaceManager

variable {params : HTMParams} {n : Nat} {mgr next : TransactionInterfaceManager params n}
variable {req : RemoteRequest} {nack : Bool}

/-- A transaction of a sound manager that runs is not unrolling its log. -/
theorem Sound.isRunning (sound : mgr.Sound) (running : mgr.inTransaction = true) :
    mgr.IsRunning := by
  exact ⟨running, sound.not_isUnrollingLog running⟩

/-- Inside a transaction its timestamp is known. -/
theorem getTimestamp_inside (inside : mgr.transactionLevel ≠ 0) :
    mgr.getTimestamp = .ok mgr.conflict.timestamp := by
  simp [getTimestamp, Nat.pos_of_ne_zero inside, pure, Except.pure]

/-- Between different nodes the age comparison is decided. -/
theorem isRemoteOlder_total (other : req.remoteId.num ≠ mgr.version) (timestamp : Cycles) :
    ∃ older, mgr.isRemoteOlder timestamp req.remoteTimestamp req.remoteId = .ok older := by
  unfold isRemoteOlder
  split
  · exact ⟨_, by rw [assertThat_of (Ne.symm other)]; rfl⟩
  · exact ⟨_, rfl⟩

/-- Inside a transaction the read check looks the line up. -/
theorem Sound.checkReadSignature (sound : mgr.Sound) (inside : mgr.transactionLevel ≠ 0)
    (addr : Addr) : mgr.checkReadSignature addr =
      .ok (mgr.isolation.readSet.contains (makeLineAddress n addr)) :=
  sound.tracked.isInReadSet inside addr

private theorem Sound.existStoreConflict (sound : mgr.Sound) (inside : mgr.transactionLevel ≠ 0)
    (addr : Addr) : mgr.existStoreConflict addr = .ok (mgr.checkWriteSignature addr ||
      mgr.isolation.readSet.contains (makeLineAddress n addr)) := by
  unfold TransactionInterfaceManager.existStoreConflict
  split
  · next writer => simp [writer, pure, Except.pure]
  · next reader => simp [reader, sound.checkReadSignature inside]

/-- Conflict handling keeps a transaction running and its age comparisons. -/
theorem ConflictFrame.keeps (frame : ConflictFrame mgr next) (req : RemoteRequest) :
    next.inTransaction = mgr.inTransaction ∧ next.transactionLevel = mgr.transactionLevel ∧
    next.checkWriteSignature req.addr = mgr.checkWriteSignature req.addr ∧
    ∀ timestamp, next.isRemoteOlder timestamp req.remoteTimestamp req.remoteId =
      mgr.isRemoteOlder timestamp req.remoteTimestamp req.remoteId := by
  obtain ⟨_, _, _, _, _, rfl⟩ := frame.shape
  exact ⟨rfl, rfl, rfl, fun _ => rfl⟩

/-- A request of another core's L1, as the network delivers it. -/
structure FromOther (mgr : TransactionInterfaceManager params n) (req : RemoteRequest) : Prop where
  aligned : req.addr = makeLineAddress n req.addr
  source : req.remoteId.type = .l1Cache
  other : req.remoteId.num ≠ mgr.version
  issued : req.remoteTimestamp > 0

/-- The cause of an abort by another core is recorded, unless the abort concerns the block at
address 0 and does not come from a power transaction. -/
theorem record_ofOther {version : Nat} {line : Addr} {abort : AbortState} (swPriority : Bool)
    (first : abort.abortCause = .undefined) (source : req.remoteId.type = .l1Cache)
    (other : req.remoteId.num ≠ version) (named : swPriority = true ∨ line ≠ 0) :
    ∃ after, (req.abortSignal swPriority).record params version line abort = .ok after := by
  cases swPriority with
  | true => simp [AbortSignal.record, RemoteRequest.abortSignal, first, pure, Except.pure]
  | false =>
    have nonzero : line ≠ 0 := named.resolve_left (by simp)
    simp [AbortSignal.record, RemoteRequest.abortSignal, first, other, source, nonzero, pure,
      Except.pure]

/-- The block at address 0 is not recorded as one of a conflict. -/
theorem named_of_record {version : Nat} {line : Addr} {abort after : AbortState} {swPriority : Bool}
    (source : req.remoteId.type = .l1Cache) (other : req.remoteId.num ≠ version)
    (recorded : (req.abortSignal swPriority).record params version line abort = .ok after) :
    swPriority = true ∨ line ≠ 0 := by
  cases swPriority with
  | true => exact .inl rfl
  | false =>
    simp [AbortSignal.record, RemoteRequest.abortSignal, other, source] at recorded
    exact .inr recorded.2.1

/-- The first signal of an abort is recorded. -/
theorem record_of_setAbortFlag {signal : AbortSignal} (live : mgr.abort.abortFlag = false)
    (signalled : mgr.setAbortFlag signal = .ok next) :
    signal.record params mgr.version (makeLineAddress n signal.addr) mgr.abort =
      .ok next.abort := by
  unfold setAbortFlag at signalled
  split at signalled
  · simp [setAbortFlagOutside] at signalled
  · simp only [live, Bool.false_eq_true, ↓reduceIte, run_eq_ok] at signalled
    obtain ⟨-, _, -, _, recorded, _, -, rfl⟩ := signalled
    exact recorded

/-- The flush of a live transaction can be cancelled. -/
theorem Sound.cancelFlushOnAbort_total (sound : mgr.Sound) (inside : mgr.transactionLevel ≠ 0)
    (clear : mgr.abort.abortFlag = false) :
    ∃ lazyVersion, mgr.cancelFlushOnAbort = .ok lazyVersion := by
  unfold cancelFlushOnAbort
  split
  · next flushing =>
    have committing : mgr.lazyVersion.committing = true := by simp_all
    have live : mgr.lazyVersion.aborting = false := by
      by_contra cancelled
      have flagged := (sound.flush (by simpa using cancelled)).1
      simp [clear] at flagged
    have level : mgr.transactionLevel = 1 := sound.level.resolve_left inside
    exact ⟨_, by simp only [LazyTransactionVersionManager.cancelWriteBufferFlush,
      assertThat_of committing, assertThat_of live, assertThat_of level, ok_bind]; rfl⟩
  · exact ⟨_, rfl⟩

/-- The first abort of a running transaction succeeds once its cause is recorded. -/
theorem Sound.setAbortFlag_total {signal : AbortSignal} (sound : mgr.Sound)
    (running : mgr.IsRunning) (clear : mgr.abort.abortFlag = false)
    (recorded : ∃ after,
      signal.record params mgr.version (makeLineAddress n signal.addr) mgr.abort =
      .ok after) : ∃ next, mgr.setAbortFlag signal = .ok next := by
  have inside := CallFrame.inside_of_inTransaction running.1
  obtain ⟨after, recorded⟩ := recorded
  obtain ⟨lazyVersion, cancelled⟩ := sound.cancelFlushOnAbort_total inside clear
  have flagged := (AbortSignal.record_ok recorded).2.1
  obtain ⟨answer, consumed⟩ : ∃ answer,
      hasConsumedData { mgr with abort := after, lazyVersion := lazyVersion } = .ok answer := by
    have sourced := sound.sourced
    unfold hasConsumedData
    dsimp only
    split
    · next valid => exact ⟨_, by rw [assertThat_of (sourced (.inr valid))]; rfl⟩
    · have aborts :
          isAborting { mgr with abort := after, lazyVersion := lazyVersion } = true := by
        simpa [isAborting, inTransaction, flagged] using running.1
      exact ⟨_, by rw [assertThat_of fun _ _ => aborts]; rfl⟩
  refine ⟨{ mgr with abort := after, lazyVersion := lazyVersion }, ?_⟩
  simp only [setAbortFlag, inside, ↓reduceIte, assertThat_of running.2, clear, Bool.false_eq_true,
    ok_bind, cancelled, recorded, consumed]
  rfl

section

variable (running : mgr.IsRunning)

include running

/-- The timestamp policies: requester-stalls without priorities. -/
def isTimestampPolicy (params : HTMParams) : Bool :=
  params.isRequesterStallsPolicy && params.conflictResolution ≠ .requesterStallsPicBase

/-- A non-transactional conflict under a timestamp policy aborts a live transaction. -/
theorem shouldNackRemoteRequest_nonTransactional (policy : isTimestampPolicy params = true)
    (nonTrans : isTransactionalRequest req.remoteTrans = false) (live : mgr.abort.abortFlag = false)
    (answered : mgr.shouldNackRemoteRequest req = .ok (nack, next)) :
    next.abort.abortFlag = true := by
  simp only [isTimestampPolicy, Bool.and_eq_true, decide_eq_true_eq] at policy
  rcases shouldNackRemoteRequest_cases answered with ⟨dooms, -⟩ | ⟨middle, -, resolved, done⟩
  · simp [running.isAbortingOrDoomed, live] at dooms
  simp only [resolveConflict, policy.1, policy.2, running.2, nonTrans, Bool.not_false,
    HTMParams.policyNackNonTransactional_eq_false, Bool.and_true, Bool.false_eq_true,
    ↓reduceIte] at resolved
  split at resolved
  · simp only [pure_eq_ok, Prod.mk.injEq] at resolved
    obtain ⟨rfl, rfl⟩ := resolved
    obtain ⟨-, -, _, _, rfl, flagged, -⟩ := setAbortFlag_ok done
    exact flagged
  · simp only [run_eq_ok, Prod.mk.injEq] at resolved
    obtain ⟨_, signalled, rfl, rfl⟩ := resolved
    obtain ⟨-, -, _, _, rfl, flagged, -⟩ := setAbortFlag_ok signalled
    rw [(notifySendNack_ok done).2]
    exact flagged

/-- The request CDA hybrid lets through although the transaction stays live: an older
transactional writer of a block that is only in the read set. -/
def LetsOlderWriterThrough (mgr : TransactionInterfaceManager params n) (req : RemoteRequest) :
    Prop :=
  params.conflictResolution = .requesterStallsCdaHybrid ∧
    isTransactionalRequest req.remoteTrans = true ∧ mgr.checkWriteSignature req.addr = false ∧
    mgr.isRemoteOlder mgr.conflict.timestamp req.remoteTimestamp req.remoteId = .ok true ∧
    mgr.isAborting = false

/-- What `overrideStoreVerdict` makes of a verdict on a transaction that was live: the conflict
stays resolved unless an older transactional writer is let through. -/
theorem overrideStoreVerdict_resolved {middle : TransactionInterfaceManager params n}
    {verdict : Bool} (policy : isTimestampPolicy params = true) (live : mgr.abort.abortFlag = false)
    (first : mgr.shouldNackRemoteRequest req = .ok (verdict, middle))
    (overridden : middle.overrideStoreVerdict req (mgr.checkWriteSignature req.addr) =
      .ok (nack, next)) : (nack = true ∨ next.abort.abortFlag = true) ↔
        ¬ mgr.LetsOlderWriterThrough req := by
  have frame := ConflictFrame.of_shouldNackRemoteRequest first
  have later := ConflictFrame.of_overrideStoreVerdict overridden
  obtain ⟨-, level, -, older⟩ := frame.keeps req
  cases trans : isTransactionalRequest req.remoteTrans with
  | false =>
    have flagged := shouldNackRemoteRequest_nonTransactional running policy trans live first
    have stays : next.abort.abortFlag = true := by rw [later.sticky flagged]; exact flagged
    simp [stays, LetsOlderWriterThrough, trans]
  | true =>
    -- a transactional conflict under a timestamp policy leaves the abort state alone
    have quiet : middle.abort = mgr.abort := by
      simp only [isTimestampPolicy, Bool.and_eq_true, decide_eq_true_eq] at policy
      rcases shouldNackRemoteRequest_cases first with ⟨-, rfl⟩ | ⟨_, -, resolved, done⟩
      · rfl
      · simp only [resolveConflict, policy.1, policy.2, running.2, trans, Bool.not_true,
          Bool.false_and, Bool.false_eq_true, ↓reduceIte, pure_eq_ok, Prod.mk.injEq] at resolved
        obtain ⟨rfl, rfl⟩ := resolved
        exact (notifySendNack_ok done).2
    have inside : middle.transactionLevel ≠ 0 := level ▸ CallFrame.inside_of_inTransaction running.1
    simp only [overrideStoreVerdict, trans, Bool.not_true, Bool.false_and, Bool.false_eq_true,
      ↓reduceIte] at overridden
    split at overridden
    · next hybrid =>
      simp only [getTimestamp_inside inside, older, frame.timestamp, run_eq_ok, Except.ok.injEq,
        exists_eq_left', Prod.mk.injEq] at overridden
      obtain ⟨isOlder, compared, rfl, rfl⟩ := overridden
      simp [quiet, live, LetsOlderWriterThrough, trans, hybrid, compared, running.isAborting]
    · next other =>
      simp only [pure_eq_ok, Prod.mk.injEq] at overridden
      obtain ⟨rfl, rfl⟩ := overridden
      have never : ¬ mgr.LetsOlderWriterThrough req := fun through =>
        other ⟨through.1, through.2.2.1⟩
      simp [never]

/-- A store conflict is resolved unless CDA hybrid lets an older writer through. -/
theorem shouldNackStore_resolved (source : req.remoteId.type = .l1Cache)
    (conflict : mgr.existStoreConflict req.addr = .ok true)
    (answered : mgr.shouldNackStore req = .ok (nack, next)) :
    (nack = true ∨ next.isAborting = true) ↔ ¬ mgr.LetsOlderWriterThrough req := by
  have frame := ConflictFrame.of_shouldNackStore answered
  have aborting : next.isAborting = next.abort.abortFlag := by
    simp [isAborting, (frame.keeps req).1, running.1]
  rw [aborting]
  by_cases flag : mgr.abort.abortFlag = true
  · have stays : next.abort.abortFlag = true := by rw [frame.sticky flag]; exact flag
    simp [stays, LetsOlderWriterThrough, running.isAborting, flag]
  · have live : mgr.abort.abortFlag = false := by simpa using flag
    simp only [shouldNackStore, conflict, source, reduceCtorEq, ↓reduceIte, run_eq_ok,
      Except.ok.injEq, exists_eq_left'] at answered
    obtain ⟨-, -, -, ⟨verdict, middle⟩, first, answered⟩ := answered
    split at answered
    · next policy => exact overrideStoreVerdict_resolved running policy live first answered
    · next policy =>
      simp only [pure_eq_ok, Prod.mk.injEq] at answered
      obtain ⟨rfl, rfl⟩ := answered
      have never : ¬ mgr.LetsOlderWriterThrough req := fun through => policy (by
        simp [HTMParams.isRequesterStallsPolicy, through.1, HtmPolicy.getResolutionPolicy_eq])
      simp only [never, not_false_eq_true, iff_true]
      exact shouldNackRemoteRequest_live running live first

/-- The store requests an aborting transaction still nacks: transactional conflicts under a
timestamp policy, apart from the older writers CDA hybrid lets through. -/
def NacksWhileAborting (mgr : TransactionInterfaceManager params n) (req : RemoteRequest) : Prop :=
  isTimestampPolicy params = true ∧ isTransactionalRequest req.remoteTrans = true ∧
    mgr.existStoreConflict req.addr = .ok true ∧
    ¬ (params.conflictResolution = .requesterStallsCdaHybrid ∧
      mgr.checkWriteSignature req.addr = false ∧
      mgr.isRemoteOlder mgr.conflict.timestamp req.remoteTimestamp req.remoteId = .ok true)

private theorem shouldNackRemoteRequest_aborting (aborting : mgr.abort.abortFlag = true) :
    mgr.shouldNackRemoteRequest req = .ok (false, mgr) := by
  simp [shouldNackRemoteRequest, running.isAbortingOrDoomed, aborting, pure, Except.pure]

/-- What a lazily versioned transaction that aborts makes of a conflicting store. -/
theorem overrideStoreVerdict_aborting (lazy : params.lazyVm = true)
    (policy : isTimestampPolicy params = true) (other : req.remoteId.num ≠ mgr.version)
    (conflict : mgr.existStoreConflict req.addr = .ok true) :
    ∃ verdict, mgr.overrideStoreVerdict req (mgr.checkWriteSignature req.addr) =
      .ok (verdict, mgr) ∧ (verdict = true ↔ mgr.NacksWhileAborting req) := by
  have inside := CallFrame.inside_of_inTransaction running.1
  unfold overrideStoreVerdict
  cases trans : isTransactionalRequest req.remoteTrans with
  | false => exact ⟨false, by simp [lazy, pure, Except.pure], by simp [NacksWhileAborting, trans]⟩
  | true =>
    simp only [Bool.not_true, Bool.false_and, Bool.false_eq_true, ↓reduceIte]
    split
    · next hybrid =>
      obtain ⟨older, compared⟩ := isRemoteOlder_total other mgr.conflict.timestamp
      refine ⟨!older, ?_, ?_⟩
      · simp [getTimestamp_inside inside, compared, pure, Except.pure]
      · simp [NacksWhileAborting, policy, trans, conflict, hybrid, compared]
    · next never =>
      refine ⟨true, rfl, ?_⟩
      simp only [NacksWhileAborting, policy, trans, conflict, true_and, true_iff]
      exact fun through => never ⟨through.1, through.2.1⟩

/-- The policies whose name asks to nack requests from outside of transactions. -/
def isNtxPolicy (params : HTMParams) : Bool :=
  params.conflictResolution = .requesterStallsCdaBaseNtx ||
    params.conflictResolution = .requesterStallsCdaHybridNtx

/-- The answer to a conflicting request from outside of transactions that the name of the policy
asks for. -/
def AnsweredAsNamed (result : Checked (Bool × TransactionInterfaceManager params n)) : Prop :=
  ∃ next, result = .ok (isNtxPolicy params, next) ∧ next.isAborting = !isNtxPolicy params

/-- A request that is not nacked and signals an abort is answered as named by every policy but the
two, if the cause of the abort can be recorded. -/
theorem Sound.answeredAsNamed_iff (sound : mgr.Sound) (live : mgr.abort.abortFlag = false)
    (request : mgr.FromOther req) :
    AnsweredAsNamed (mgr.setAbortFlag (req.abortSignal req.remoteSwPriority) >>= fun next =>
      return (false, next)) ↔
      isNtxPolicy params = false ∧ (req.remoteSwPriority = true ∨ req.addr ≠ 0) := by
  have line : makeLineAddress n (req.abortSignal req.remoteSwPriority).addr = req.addr :=
    request.aligned.symm
  constructor
  · rintro ⟨next, answered, -⟩
    simp only [run_eq_ok, Prod.mk.injEq] at answered
    obtain ⟨_, signalled, named, rfl⟩ := answered
    have recorded := record_of_setAbortFlag live signalled
    rw [line] at recorded
    exact ⟨named.symm, named_of_record request.source request.other recorded⟩
  · rintro ⟨ordinary, named⟩
    obtain ⟨next, signalled⟩ := sound.setAbortFlag_total running live
      (record_ofOther req.remoteSwPriority (sound.cause live) request.source request.other
        (line ▸ named))
    refine ⟨next, by rw [signalled, ordinary]; rfl, ?_⟩
    obtain ⟨-, -, _, _, rfl, flagged, -⟩ := setAbortFlag_ok signalled
    simpa [isAborting, flagged, inTransaction, ordinary] using running.1

/-- A request from outside of transactions only signals an abort. -/
theorem shouldNackRemoteRequest_eq_setAbortFlag (lazy : params.lazyVm = true)
    (live : mgr.abort.abortFlag = false) (request : mgr.FromOther req)
    (nonTrans : isTransactionalRequest req.remoteTrans = false) :
    mgr.shouldNackRemoteRequest req =
      mgr.setAbortFlag (req.abortSignal req.remoteSwPriority) >>= fun next =>
        return (false, next) := by
  have defined : params.conflictResolution ≠ .committerWins := fun committer =>
    params.policyDefined (by rw [committer, HtmPolicy.getResolutionPolicy_eq])
  simp [shouldNackRemoteRequest, running.isAbortingOrDoomed, live, assertThat_of request.aligned,
    resolveConflict, lazy, nonTrans, running.2, defined, pure, Except.pure]

end

end TransactionInterfaceManager

namespace Core

variable {params : HTMParams} {n : Nat}

/-- Whatever the policy, a conflicting L1 request is nacked or aborts the running transaction,
except that CDA hybrid lets an older transactional writer take a read-set block from a live
transaction. -/
theorem conflict_resolved_iff {core : Core params n} {req : RemoteRequest}
    (reachable : (system params n).Reachable core) (running : core.mgr.inTransaction = true)
    (source : req.remoteId.type = .l1Cache) :
    (core.mgr.checkWriteSignature req.addr = true → ∀ nack next,
      core.mgr.shouldNackLoad req = .ok (nack, next) → nack = true ∨ next.isAborting = true) ∧
    (core.mgr.existStoreConflict req.addr = .ok true → ∀ nack next,
      core.mgr.shouldNackStore req = .ok (nack, next) →
        ((nack = true ∨ next.isAborting = true) ↔ ¬ core.mgr.LetsOlderWriterThrough req)) := by
  have sound := sound_invariant.of_reachable reachable
  have runs := sound.isRunning running
  refine ⟨fun conflict nack next answered => ?_, fun conflict nack next answered =>
    shouldNackStore_resolved runs source conflict answered⟩
  have frame := ConflictFrame.of_shouldNackLoad answered
  simp only [shouldNackLoad, conflict, ↓reduceIte, run_eq_ok] at answered
  obtain ⟨-, -, -, answered⟩ := answered
  have flagged : nack = true ∨ next.abort.abortFlag = true := by
    by_cases flag : core.mgr.abort.abortFlag = true
    · exact .inr (by rw [frame.sticky flag]; exact flag)
    · exact shouldNackRemoteRequest_live runs (by simpa using flag) answered
  refine flagged.imp_right fun flag => ?_
  simp [isAborting, flag, (frame.keeps req).1, runs.1]

/-- A transaction that began at cycle 5 and has read the block at 64. -/
def readerEvents : List (CoreEvent 64) :=
  [.environment ⟨⟨[]⟩, ∅, 5, false, ∅⟩, .command .start ⟨1, 1, false⟩ (.ok false) fun _ => false,
   .request 1 ⟨64, 8, false, fun _ => 0⟩]

/-- A transactional store of core 1 to the block at 64. -/
def writerRequest (timestamp : Cycles) : RemoteRequest :=
  ⟨64, ⟨.l1Cache, 1⟩, timestamp, .trans, ncPrioValue, false⟩

/-- The writer that began at cycle 1 gets the block and the reader goes on. -/
theorem conflict_unresolved_olderWriter :
    ∃ core next, (system cdaHybrid 64).Reachable core ∧ core.mgr.inTransaction = true ∧
      core.mgr.existStoreConflict 64 = .ok true ∧
      core.mgr.shouldNackStore (writerRequest 1) = .ok (false, next) ∧
      next.isAborting = false := by
  simp only [exists_and_left]
  exact exists_reachable readerEvents 0 (by decide +kernel)

/-- The writer that began at cycle 9 is nacked. -/
theorem conflict_resolved_youngerWriter :
    ∃ core, (system cdaHybrid 64).Reachable core ∧ core.mgr.existStoreConflict 64 = .ok true ∧
      ∃ nack next, core.mgr.shouldNackStore (writerRequest 9) = .ok (nack, next) ∧
        (nack = true ∨ next.isAborting = true) := by
  obtain ⟨core, reachable, running, conflict, younger, ⟨nack, next⟩, answered⟩ := exists_reachable
    (P := fun core : Core cdaHybrid 64 => core.mgr.inTransaction = true ∧
      core.mgr.existStoreConflict 64 = .ok true ∧
      core.mgr.isRemoteOlder core.mgr.conflict.timestamp 9 ⟨.l1Cache, 1⟩ = .ok false ∧
      ∃ answer, core.mgr.shouldNackStore (writerRequest 9) = .ok answer)
    readerEvents 0 (by decide +kernel)
  refine ⟨core, reachable, conflict, nack, next, answered, ?_⟩
  refine (((conflict_resolved_iff reachable running (by rfl)).2 conflict nack next answered).mpr ?_)
  rintro ⟨-, -, -, older, -⟩
  simp [writerRequest, younger] at older

/-- A lazily versioned transaction that aborts answers every L1 request; it nacks no load, and
exactly the transactional store conflicts of the timestamp policies. -/
theorem aborting_nacks_iff {core : Core params n} {req : RemoteRequest}
    (reachable : (system params n).Reachable core) (lazy : params.lazyVm = true)
    (aborting : core.mgr.isAborting = true) (aligned : req.addr = makeLineAddress n req.addr)
    (source : req.remoteId.type = .l1Cache) (other : req.remoteId.num ≠ core.mgr.version)
    (issued : req.remoteTimestamp > 0) : core.mgr.shouldNackLoad req = .ok (false, core.mgr) ∧
    ∃ nack, core.mgr.shouldNackStore req = .ok (nack, core.mgr) ∧
      (nack = false ↔ ¬ core.mgr.NacksWhileAborting req) := by
  have sound := sound_invariant.of_reachable reachable
  simp only [isAborting, Bool.and_eq_true] at aborting
  have runs := sound.isRunning aborting.1
  constructor
  · simp only [shouldNackLoad, assertThat_of aligned, assertThat_of source, assertThat_of issued,
      shouldNackRemoteRequest_aborting runs aborting.2, ok_bind]
    split <;> rfl
  obtain ⟨nack, answered, nacks⟩ : ∃ verdict,
    core.mgr.shouldNackStore req = .ok (verdict, core.mgr) ∧
      (verdict = true ↔ core.mgr.NacksWhileAborting req) := by
    have inside := CallFrame.inside_of_inTransaction aborting.1
    cases conflict : core.mgr.checkWriteSignature req.addr ||
        core.mgr.isolation.readSet.contains (makeLineAddress n req.addr) with
    | false =>
      have nothing : core.mgr.existStoreConflict req.addr = .ok false := by
        rw [sound.existStoreConflict inside, conflict]
      refine ⟨false, ?_, by simp [NacksWhileAborting, nothing]⟩
      simp [shouldNackStore, assertThat_of aligned, nothing, pure, Except.pure]
    | true =>
      have found : core.mgr.existStoreConflict req.addr = .ok true := by
        rw [sound.existStoreConflict inside, conflict]
      simp only [shouldNackStore, assertThat_of aligned, assertThat_of issued, found, source,
        shouldNackRemoteRequest_aborting runs aborting.2, ok_bind, ↓reduceIte,
        reduceCtorEq]
      split
      · next policy => exact overrideStoreVerdict_aborting runs lazy policy other found
      · next policy =>
        have never : ¬ core.mgr.NacksWhileAborting req := fun nacks => policy nacks.1
        exact ⟨false, rfl, by simp [never]⟩
  refine ⟨nack, answered, ?_⟩
  rw [← nacks]
  simp

/-- A store of core 2 to the block at 64, outside every transaction. -/
def plainStore : RemoteRequest := ⟨64, ⟨.l1Cache, 2⟩, 7, .nonTrans, ncPrioValue, false⟩

/-- A non-transactional store of core 2 aborts the reader of the block at 64. -/
def abortedReaderEvents : List (CoreEvent 64) :=
  readerEvents ++ [.remoteStore plainStore ⟨false, false⟩]

private theorem abortedReader_reachable : ∃ core, (system requesterStalls 64).Reachable core ∧
    core.mgr.isAborting = true ∧ core.mgr.version = 0 ∧
    succeedsWith (core.mgr.shouldNackStore (writerRequest 9)) (fun answer => answer.1) = true := by
  exact exists_reachable abortedReaderEvents 0 (by decide +kernel)

/-- The aborting reader still nacks a transactional store. -/
theorem aborting_nacks_transactionalStore :
    ∃ core next, (system requesterStalls 64).Reachable core ∧ core.mgr.isAborting = true ∧
      core.mgr.shouldNackStore (writerRequest 9) = .ok (true, next) := by
  obtain ⟨core, reachable, aborting, -, nacked⟩ := abortedReader_reachable
  obtain ⟨⟨nack, next⟩, answered, rfl⟩ := succeedsWith_iff.mp nacked
  exact ⟨core, next, reachable, aborting, answered⟩

/-- The aborting reader does not nack a load. -/
theorem aborting_nacks_noLoad :
    ∃ core, (system requesterStalls 64).Reachable core ∧ core.mgr.isAborting = true ∧
      core.mgr.shouldNackLoad (writerRequest 9) = .ok (false, core.mgr) := by
  obtain ⟨core, reachable, aborting, version, -⟩ := abortedReader_reachable
  have answered := @aborting_nacks_iff _ _ core (writerRequest 9) reachable rfl aborting (by decide)
    rfl (by simp [writerRequest, version]) (by decide)
  exact ⟨core, reachable, aborting, answered.1⟩

/-- A conflicting request from outside of transactions is answered as the name of the policy asks
exactly if the policy is none of the two `_ntx` policies: the live transaction is aborted under
every policy.  The signal of an unpowered request cannot name the block at address 0. -/
theorem nonTransactional_asNamed_iff {core : Core params n} {req : RemoteRequest}
    (reachable : (system params n).Reachable core) (lazy : params.lazyVm = true)
    (running : core.mgr.inTransaction = true) (live : core.mgr.isAborting = false)
    (request : core.mgr.FromOther req)
    (nonTrans : isTransactionalRequest req.remoteTrans = false) :
    (core.mgr.checkWriteSignature req.addr = true →
      (AnsweredAsNamed (core.mgr.shouldNackLoad req) ↔
        isNtxPolicy params = false ∧ (req.remoteSwPriority = true ∨ req.addr ≠ 0))) ∧
    (core.mgr.existStoreConflict req.addr = .ok true →
      (AnsweredAsNamed (core.mgr.shouldNackStore req) ↔
        isNtxPolicy params = false ∧ (req.remoteSwPriority = true ∨ req.addr ≠ 0))) := by
  have sound := sound_invariant.of_reachable reachable
  have runs := sound.isRunning running
  have clear : core.mgr.abort.abortFlag = false := by simpa [runs.isAborting] using live
  have answered := shouldNackRemoteRequest_eq_setAbortFlag runs lazy clear request nonTrans
  rw [← sound.answeredAsNamed_iff runs clear request, ← answered]
  refine ⟨fun conflict => ?_, fun conflict => ?_⟩
  · simp only [shouldNackLoad, assertThat_of request.aligned, assertThat_of request.source,
      assertThat_of request.issued, conflict, ok_bind, ↓reduceIte]
  · have unchanged : core.mgr.shouldNackStore req = core.mgr.shouldNackRemoteRequest req := by
      rw [answered]
      cases signalled : core.mgr.setAbortFlag (req.abortSignal req.remoteSwPriority) <;>
        simp [shouldNackStore, overrideStoreVerdict, assertThat_of request.aligned,
          assertThat_of request.issued, assertThat_of trivial, request.source, conflict, answered,
          signalled, nonTrans, lazy, pure, Except.pure, bind, Except.bind]
    rw [unchanged]

/-- Although the policy is one that should nack it, the store aborts the reader. -/
theorem nonTransactional_not_nacked_ntx :
    ∃ core next, (system cdaBaseNtx 64).Reachable core ∧ core.mgr.inTransaction = true ∧
      core.mgr.isAborting = false ∧ core.mgr.existStoreConflict 64 = .ok true ∧
      core.mgr.shouldNackStore plainStore = .ok (false, next) ∧ next.isAborting = true := by
  simp only [exists_and_left]
  exact exists_reachable readerEvents 0 (by decide +kernel)

/-- Under the plain timestamp policy the store aborts the reader, as its name asks. -/
theorem nonTransactional_asNamed_reader : ∃ core, (system requesterStalls 64).Reachable core ∧
      AnsweredAsNamed (core.mgr.shouldNackStore plainStore) := by
  obtain ⟨core, reachable, running, live, version, conflict⟩ := exists_reachable
    (P := fun core : Core requesterStalls 64 => core.mgr.inTransaction = true ∧
      core.mgr.isAborting = false ∧ core.mgr.version = 0 ∧
      core.mgr.existStoreConflict 64 = .ok true) readerEvents 0 (by decide +kernel)
  have request : core.mgr.FromOther plainStore :=
    ⟨by decide, rfl, by simp [plainStore, version], by decide⟩
  exact ⟨core, reachable, ((nonTransactional_asNamed_iff reachable rfl running live request rfl).2
    conflict).mpr ⟨rfl, .inr (by decide)⟩⟩

end Core

end Gem5.Ruby
