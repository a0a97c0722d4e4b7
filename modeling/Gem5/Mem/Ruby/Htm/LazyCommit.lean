import Gem5.Mem.Ruby.Htm.CoreSystem
import Gem5.Mem.Ruby.Htm.WriteBufferFlush

/-!
# The commit of a lazy-lazy transaction

The commit flushes the write buffer while the CPU polls for its end.  The poll of a
live transaction issues the requests that the sequencer refused before, and the
completion of the last block ends the flush, also of a transaction that aborts in
between.  An abort that comes when no request is outstanding drops the blocks that
are pending, and then no completion is left that could end the flush.
-/

namespace Gem5.Ruby

open Foundation TransactionInterfaceManager

/-- What can happen to a lazy-lazy transaction until its commit. -/
inductive LazyCommitEvent (n : Nat) where
  | request (uid : Nat) (access : Access)
  /-- A commit attempt of the CPU; `issues` says which requests the sequencer accepts. -/
  | commit (pkt : HtmPacket) (conflictingCommitter : Checked Bool) (issues : Addr → Bool)
  /-- A request of the flush completes. -/
  | writeCallback (access : Access) (issues : Addr → Bool)
  | setAbortFlag (signal : AbortSignal)
  | environment (surroundings : Surroundings n)

namespace LazyCommitEvent

variable {params : HTMParams} {n : Nat}

/-- The effect of an event on the core. -/
def effect (core : Core params n) : LazyCommitEvent n → Checked (Core params n)
  | .request uid access => core.makeRequest uid access
  | .commit pkt conflictingCommitter issues =>
    core.notifyXactionEvent .commit pkt conflictingCommitter issues
  | .writeCallback access issues => core.step (.writeCallback access issues)
  | .setAbortFlag signal => core.update (core.mgr.setAbortFlag signal)
  | .environment surroundings => core.step (.environment surroundings)

/-- A transaction that has just begun. -/
structure Begun (core : Core params n) : Prop where
  level : core.mgr.transactionLevel = 1
  escape : core.mgr.escapeLevel = 0
  version : core.mgr.lazyVersion.Begun

/-- Take an event inside the transaction. -/
def take (core : Core params n) (event : LazyCommitEvent n) : Checked (Core params n) := do
  assertThat (core.mgr.inTransaction = true) "inTransaction()"
  effect core event

/-- The runs of one transaction. -/
def system (params : HTMParams) (n : Nat) : TransitionSystem (Core params n) (LazyCommitEvent n) :=
  .ofExcept Begun take

variable {core : Core params n}

private theorem system_step {next : Core params n} {event : LazyCommitEvent n} :
    (system params n).Step core event next ↔
      core.mgr.inTransaction = true ∧ effect core event = .ok next := by
  simp [system, take]

/-- What the run keeps, as long as an abort never finds the flush without a request. -/
structure Flushing (mgr : TransactionInterfaceManager params n) : Prop where
  level : mgr.transactionLevel = 1
  escape : mgr.escapeLevel = 0
  flush : mgr.lazyVersion.FlushInvariant n params.lazyCommitWidth
  flagged : mgr.lazyVersion.aborting = true → mgr.abort.abortFlag = true
  cancelled : mgr.lazyVersion.committing = true → mgr.abort.abortFlag = true →
    mgr.lazyVersion.aborting = true
  started : mgr.lazyVersion.committing = true →
    mgr.atCommit = true ∧ mgr.arbiter.validated = true ∧ params.allowEarlyValueFwd = false
  statuses : mgr.lazyVersion.aborting = true → ∀ (addr : Addr) (status : WriteBufferBlockStatus),
    mgr.lazyVersion.writeBufferBlocks[addr]? = some status → status = .issued
  drained : mgr.lazyVersion.aborting = true → mgr.lazyVersion.writeBufferBlocks = ∅ →
    mgr.lazyVersion.committed = true

/-- The transaction has committed. -/
structure Ended (mgr : TransactionInterfaceManager params n) : Prop where
  level : mgr.transactionLevel = 0
  committing : mgr.lazyVersion.committing = false

private theorem lazyVm_of_lazyCd (lazyCd : params.eagerCd = false) : params.lazyVm = true := by
  by_contra eager
  have eagerCd := params.eagerOfLog (by simpa using eager)
  simp [lazyCd] at eagerCd

/-! ## Calls that leave the flush alone -/

section Steps

variable {mgr next : TransactionInterfaceManager params n}

/-- The call changes neither the control state nor the abort flag nor the write buffer. -/
structure Untouched (mgr next : TransactionInterfaceManager params n) : Prop where
  control : next.control = mgr.control
  abort : next.abort = mgr.abort
  lazyVersion : next.lazyVersion = mgr.lazyVersion

private theorem Untouched.trans {middle : TransactionInterfaceManager params n}
    (first : Untouched mgr middle) (second : Untouched middle next) : Untouched mgr next :=
  ⟨second.control.trans first.control, second.abort.trans first.abort,
    second.lazyVersion.trans first.lazyVersion⟩

private theorem Untouched.of_isolation {isolation : TransactionIsolationManager} :
    Untouched mgr { mgr with isolation := isolation } :=
  ⟨rfl, rfl, rfl⟩

variable {access : Access}

private theorem Untouched.of_trackForwardedAccess (followed :
    mgr.trackForwardedAccess access = .ok next) :
    Untouched mgr next := by
  unfold trackForwardedAccess at followed
  dsimp only at followed
  split at followed
  · unfold setAccessOnForwardBlock at followed
    split at followed
    · simp only [run_eq_ok] at followed
      obtain ⟨-, _, -, rfl⟩ := followed
      exact ⟨rfl, rfl, rfl⟩
    · simp at followed
  · split at followed
    · simp only [run_eq_ok] at followed
      obtain ⟨-, rfl⟩ := followed
      exact ⟨rfl, rfl, rfl⟩
    · rw [pure_eq_ok] at followed
      subst followed
      exact ⟨rfl, rfl, rfl⟩

private theorem Untouched.of_handleTransactionalWrite {addr : Addr}
    (handled : mgr.handleTransactionalWrite addr = .ok next) : Untouched mgr next := by
  simp only [handleTransactionalWrite, run_eq_ok] at handled
  obtain ⟨-, handled⟩ := handled
  split at handled
  · rw [pure_eq_ok] at handled
    subst handled
    exact ⟨rfl, rfl, rfl⟩
  · simp only [isolateTransactionStore, run_eq_ok] at handled
    obtain ⟨-, rfl⟩ := handled
    exact .of_isolation

private theorem Untouched.of_insertRequest {uid : Nat}
    (inserted : mgr.insertRequest uid access = .ok next) : Untouched mgr next := by
  unfold insertRequest at inserted
  dsimp only at inserted
  split at inserted
  · rw [pure_eq_ok] at inserted
    subst inserted
    exact ⟨rfl, rfl, rfl⟩
  · unfold isolateIssuedLoad at inserted
    split at inserted
    · rw [pure_eq_ok] at inserted
      subst inserted
      exact ⟨rfl, rfl, rfl⟩
    · split at inserted
      · simp only [bind_eq_ok] at inserted
        obtain ⟨_, -, inserted⟩ := inserted
        split at inserted
        · rw [pure_eq_ok] at inserted
          subst inserted
          exact ⟨rfl, rfl, rfl⟩
        · simp only [isolateTransactionLoad, run_eq_ok] at inserted
          obtain ⟨-, rfl⟩ := inserted
          exact ⟨rfl, rfl, rfl⟩
      · simp at inserted

private theorem Untouched.flushing (frame : Untouched mgr next) (flushing : Flushing mgr) :
    Flushing next := by
  have level : next.transactionLevel = mgr.transactionLevel :=
    congrArg Control.transactionLevel frame.control
  have escape : next.escapeLevel = mgr.escapeLevel := congrArg Control.escapeLevel frame.control
  have atCommit : next.atCommit = mgr.atCommit := congrArg Control.atCommit frame.control
  have arbiter : next.arbiter = mgr.arbiter := congrArg Control.arbiter frame.control
  obtain ⟨-, abort, lazyVersion⟩ := frame
  constructor <;> simp only [level, escape, atCommit, arbiter, abort, lazyVersion]
  · exact flushing.level
  · exact flushing.escape
  · exact flushing.flush
  · exact flushing.flagged
  · exact flushing.cancelled
  · exact flushing.started
  · exact flushing.statuses
  · exact flushing.drained

private theorem Flushing.isAborting_eq (flushing : Flushing mgr) :
    mgr.isAborting = mgr.abort.abortFlag := by
  simp [isAborting, inTransaction, flushing.level, flushing.escape]

private theorem Flushing.live (flushing : Flushing mgr)
    (unsignalled : mgr.abort.abortFlag = false) :
    mgr.lazyVersion.aborting = false := by
  by_contra aborting
  have flag := flushing.flagged (by simpa using aborting)
  simp [unsignalled] at flag

/-! ## The events -/

/-- A store that is redirected to the write buffer. -/
theorem Flushing.redirectStoreToWriteBuffer {addr : Addr} {data : List UInt8}
    (flushing : Flushing mgr) (early : mgr.atCommit = false)
    (stored : mgr.redirectStoreToWriteBuffer addr data = .ok next) : Flushing next := by
  simp only [TransactionInterfaceManager.redirectStoreToWriteBuffer, flushing.level,
    run_eq_ok] at stored
  obtain ⟨-, lazyVersion, stored, rfl⟩ := stored
  have running : mgr.lazyVersion.committing = false := by
    by_contra committing
    have atCommit := (flushing.started (by simpa using committing)).1
    simp [early] at atCommit
  have stores := LazyTransactionVersionManager.addToWriteBuffer_stores stored
  have live := (flushing.flush.running running).2.2
  have kept : lazyVersion.committing = false ∧ lazyVersion.aborting = false := by
    rw [stores.shape]
    exact ⟨running, live⟩
  exact ⟨rfl, flushing.escape, flushing.flush.store running stores, by simp [kept],
    by simp [kept], by simp [kept], by simp [kept], by simp [kept]⟩

private theorem Flushing.makeRequest {core after : Core params n} {uid : Nat}
    (flushing : Flushing core.mgr) (requested : core.makeRequest uid access = .ok after) :
    Flushing after.mgr := by
  unfold Core.makeRequest at requested
  split at requested
  · split at requested
    · simp at requested
    · rw [pure_eq_ok] at requested
      exact requested ▸ flushing
  · split at requested
    · next redirected =>
      simp only [run_eq_ok] at requested
      obtain ⟨mgr, stored, rfl⟩ := requested
      exact flushing.redirectStoreToWriteBuffer (by simp_all) stored
    · simp only [run_eq_ok] at requested
      obtain ⟨mgr, inserted, rfl⟩ := requested
      exact (Untouched.of_insertRequest inserted).flushing flushing

variable {issues : Addr → Bool}

/-- A completed request of the flush. -/
theorem Flushing.performFlushedStore {addr : Addr} (flushing : Flushing mgr)
    (performed : mgr.performFlushedStore addr issues = .ok next) : Flushing next := by
  simp only [TransactionInterfaceManager.performFlushedStore, flushing.level,
    run_eq_ok] at performed
  obtain ⟨entry, -, ⟨merged, lazyVersion⟩, completed, rfl⟩ := performed
  have issued : mgr.lazyVersion.writeBufferBlocks[makeLineAddress n addr]? = some .issued := by
    simp only [LazyTransactionVersionManager.mergeDataFromWriteBuffer, run_eq_ok] at completed
    exact completed.2.1
  obtain ⟨_, _, same, merges⟩ := flushing.flush.merge issues issued entry.data
  obtain ⟨rfl, rfl⟩ := Prod.mk.inj (Except.ok.inj (same.symm.trans completed))
  obtain ⟨committing, uncommitted⟩ := flushing.flush.flushing issued
  refine ⟨flushing.level, flushing.escape, merges.inv, ?_, ?_, ?_, ?_, ?_⟩
  · exact fun aborting => flushing.flagged (merges.aborting ▸ aborting)
  · exact fun _ flag => merges.aborting.trans (flushing.cancelled committing flag)
  · exact fun _ => flushing.started committing
  · intro aborting other status present
    have before : mgr.lazyVersion.aborting = true := merges.aborting ▸ aborting
    exact flushing.statuses before other status (merges.statuses before other status present)
  · exact fun _ empty => merges.committed.mpr empty

private theorem Flushing.writeCallback (lazyCd : params.eagerCd = false) (flushing : Flushing mgr)
    (write : access.write = true) (completed : mgr.writeCallback access issues = .ok next) :
    Flushing next := by
  have lazy := lazyVm_of_lazyCd lazyCd
  simp only [TransactionInterfaceManager.writeCallback, TransactionInterfaceManager.hitCallback,
    TransactionInterfaceManager.hitStore, lazy, lazyCd, write, Bool.not_true, Bool.false_and,
    Bool.not_false, Bool.and_self, Bool.false_eq_true, ↓reduceIte, run_eq_ok] at completed
  obtain ⟨tracked, followed, handled, isolated, -, performed⟩ := completed
  have frame := (Untouched.of_trackForwardedAccess followed).trans
    (Untouched.of_handleTransactionalWrite isolated)
  exact (frame.flushing flushing).performFlushedStore performed

/-- An abort finds a block whose completion will end the flush, or the flush has ended. -/
def AbortSafe (mgr : TransactionInterfaceManager params n) : Prop :=
  mgr.abort.abortFlag = false → mgr.lazyVersion.committing = true →
    mgr.lazyVersion.committed = true ∨ mgr.lazyVersion.issuedBlocks.Nonempty

variable (lazyCd : params.eagerCd = false)

include lazyCd

/-- The flush that an abort finds is cancelled. -/
theorem Flushing.cancelFlushOnAbort {lazyVersion : LazyTransactionVersionManager}
    (flushing : Flushing mgr)
    (unsignalled : mgr.abort.abortFlag = false)
    (cancelled : mgr.cancelFlushOnAbort = .ok lazyVersion) :
    (mgr.lazyVersion.committing = true → lazyVersion = mgr.lazyVersion.cancelled) ∧
      (mgr.lazyVersion.committing = false → lazyVersion = mgr.lazyVersion) := by
  have live := flushing.live unsignalled
  simp only [TransactionInterfaceManager.cancelFlushOnAbort, lazyCd, Bool.not_false,
    Bool.true_and, flushing.level] at cancelled
  constructor
  · intro committing
    rw [if_pos committing, LazyTransactionVersionManager.cancelWriteBufferFlush_eq committing live]
      at cancelled
    exact (Except.ok.inj cancelled).symm
  · intro running
    rw [running] at cancelled
    exact (Except.ok.inj cancelled).symm

/-- An abort signal keeps the invariant if it is safe. -/
theorem Flushing.setAbortFlag {signal : AbortSignal}
    (flushing : Flushing mgr) (safe : AbortSafe mgr)
    (signalled : mgr.setAbortFlag signal = .ok next) : Flushing next := by
  unfold TransactionInterfaceManager.setAbortFlag at signalled
  rw [if_neg (by simp [flushing.level])] at signalled
  simp only [run_eq_ok] at signalled
  obtain ⟨-, signalled⟩ := signalled
  split at signalled
  · rw [pure_eq_ok] at signalled
    exact signalled ▸ flushing
  · next first =>
    simp only [run_eq_ok] at signalled
    obtain ⟨lazyVersion, cancelled, abort, recorded, _, -, rfl⟩ := signalled
    have unsignalled : mgr.abort.abortFlag = false := by simpa using first
    have flag := (AbortSignal.record_ok recorded).2.1
    obtain ⟨whenCommitting, whenRunning⟩ := flushing.cancelFlushOnAbort lazyCd unsignalled cancelled
    cases committing : mgr.lazyVersion.committing with
    | false =>
      obtain rfl := whenRunning committing
      exact ⟨flushing.level, flushing.escape, flushing.flush, fun _ => flag, by simp [committing],
        by simp [committing], flushing.statuses, flushing.drained⟩
    | true =>
      obtain rfl := whenCommitting committing
      refine ⟨flushing.level, flushing.escape, flushing.flush.cancel committing, fun _ => flag,
        fun _ _ => rfl, fun _ => flushing.started committing, fun _ addr status present => ?_,
        fun _ empty => ?_⟩
      · exact (LazyTransactionVersionManager.getElem?_cancelled.mp present).2
      · rcases safe unsignalled committing with committed | outstanding
        · exact committed
        · rw [LazyTransactionVersionManager.cancelled_eq_empty] at empty
          simp [empty] at outstanding

/-- A commit attempt that does not end the transaction. -/
theorem Flushing.initiateCommitTransaction {htm after : HTM} {conflictingCommitter : Checked Bool}
    (flushing : Flushing mgr)
    (unsignalled : mgr.abort.abortFlag = false) (uncommitted : mgr.lazyVersion.committed = false)
    (initiated : mgr.initiateCommitTransaction htm conflictingCommitter issues =
      .ok (next, after)) : Flushing next := by
  have live := flushing.live unsignalled
  unfold TransactionInterfaceManager.initiateCommitTransaction at initiated
  dsimp only at initiated
  split at initiated
  · simp [lazyCd] at initiated
  · next noForwarding =>
    simp only [run_eq_ok, uncommitted, Bool.false_eq_true, ↓reduceIte] at initiated
    obtain ⟨-, initiated⟩ := initiated
    split at initiated
    · next unvalidated =>
      simp only [run_eq_ok, Prod.mk.injEq] at initiated
      obtain ⟨⟨arbiter, _⟩, -, rfl, -⟩ := initiated
      have running : mgr.lazyVersion.committing = false := by
        by_contra committing
        have validated := (flushing.started (by simpa using committing)).2.1
        simp [validated] at unvalidated
      exact ⟨flushing.level, flushing.escape, flushing.flush, flushing.flagged, flushing.cancelled,
        by simp [running], flushing.statuses, flushing.drained⟩
    · next validated =>
      simp only [flushing.level, run_eq_ok, Prod.mk.injEq] at initiated
      obtain ⟨lazyVersion, flushed, rfl, -⟩ := initiated
      obtain ⟨_, same, inv, committing, stillLive, -⟩ :=
        flushing.flush.commit issues uncommitted live
      obtain rfl := Except.ok.inj (same.symm.trans flushed)
      have isValidated : mgr.arbiter.validated = true := by
        cases policy : params.lazyArbitration <;>
          simpa [policy, LazyTransactionCommitArbiter.shouldValidateTransaction] using validated
      exact ⟨rfl, flushing.escape, inv, by simp [stillLive], by simp [unsignalled],
        fun _ => ⟨rfl, isValidated, by simpa using noForwarding⟩, by simp [stillLive],
        by simp [stillLive]⟩

private theorem ended_of_commitTransaction {htm after : HTM}
    (done : mgr.commitTransaction htm = .ok (next, after)) : Ended next := by
  have lazy := lazyVm_of_lazyCd lazyCd
  simp only [commitTransaction, commitVersioning, lazy, lazyCd, Bool.false_eq_true, ↓reduceIte,
    LazyTransactionVersionManager.notifyCommittedTransaction, run_eq_ok, Prod.mk.injEq] at done
  obtain ⟨-, -, -, _, ⟨-, _, ⟨-, -, -, -, -, -, -, rfl⟩, _, -, rfl⟩, _, -, _, -, -, -, rfl, -⟩ :=
    done
  exact ⟨rfl, rfl⟩

/-- A commit attempt ends the transaction or goes on with its flush. -/
theorem Flushing.notifyXactionEvent {core after : Core params n} {pkt : HtmPacket}
    {conflictingCommitter : Checked Bool} (flushing : Flushing core.mgr)
    (notified : core.notifyXactionEvent .commit pkt conflictingCommitter issues = .ok after) :
    Flushing after.mgr ∨ Ended after.mgr := by
  unfold Core.notifyXactionEvent at notified
  split at notified
  · left
    dsimp only at notified
    split at notified
    · simp only [run_eq_ok] at notified
      obtain ⟨-, rfl⟩ := notified
      exact flushing
    · rw [pure_eq_ok] at notified
      exact notified ▸ flushing
  · next live =>
    dsimp only at notified
    unfold Core.commit at notified
    split at notified
    · simp only [run_eq_ok] at notified
      obtain ⟨⟨mgr, htm⟩, committed, rfl⟩ := notified
      exact .inr { ended_of_commitTransaction lazyCd committed with }
    · next cannot =>
      simp only [run_eq_ok] at notified
      obtain ⟨⟨mgr, htm⟩, initiated, rfl⟩ := notified
      have unsignalled : core.mgr.abort.abortFlag = false := by
        simpa [flushing.isAborting_eq] using live
      have uncommitted : core.mgr.lazyVersion.committed = false := by
        by_contra committed
        simp [canCommitTransaction, lazyCd, committed] at cannot
      exact .inl (flushing.initiateCommitTransaction lazyCd unsignalled uncommitted initiated)

end Steps

/-! ## Progress -/

/-- Signals of an abort are safe; nothing is asked of the other events. -/
def Safe (core : Core params n) : LazyCommitEvent n → Prop
  | .setAbortFlag _ => AbortSafe core.mgr
  | _ => True

private theorem flushing_invariant (lazyCd : params.eagerCd = false) :
    ((system params n).restrict Safe).Invariant fun core => Flushing core.mgr ∨ Ended core.mgr where
  initial begun := by
    obtain ⟨level, escape, version⟩ := begun
    exact .inl ⟨level, escape, version.flushInvariant, by simp [version.aborting],
      by simp [version.committing], by simp [version.committing], by simp [version.aborting],
      by simp [version.aborting]⟩
  preserved := by
    rintro core event next (flushing | ended) ⟨safe, transition⟩ <;>
      obtain ⟨running, taken⟩ := system_step.mp transition
    · cases event with
      | request uid access => exact .inl (flushing.makeRequest taken)
      | commit pkt conflictingCommitter issues =>
        exact @Flushing.notifyXactionEvent _ _ issues lazyCd core next pkt _ flushing taken
      | writeCallback access issues =>
        exact .inl (flushing.writeCallback lazyCd rfl (Core.update_ok taken).1)
      | setAbortFlag signal =>
        exact .inl (flushing.setAbortFlag lazyCd safe (Core.update_ok taken).1)
      | environment surroundings =>
        have frame : Untouched core.mgr next.mgr := by
          rw [← pure_eq_ok.mp taken]
          exact ⟨rfl, rfl, rfl⟩
        exact .inl (frame.flushing flushing)
    · simp [inTransaction, ended.level] at running

/-- The commit does not hang: the flush of an aborting transaction that has no request outstanding
has ended, so that `canCommitTransaction` lets the abort complete, and the next commit attempt of a
live one issues requests for pending blocks. -/
def Progresses (core : Core params n) : Prop :=
  core.mgr.lazyVersion.committing = true → core.mgr.lazyVersion.issuedBlocks = ∅ →
    (core.mgr.isAborting = true →
      core.mgr.lazyVersion.committed = true ∧ core.mgr.canCommitTransaction = true) ∧
    (core.mgr.isAborting = false → core.mgr.lazyVersion.committed = false →
      (∃ addr : Addr, core.mgr.lazyVersion.writeBufferBlocks[addr]? = some .pending) ∧
      ∀ pkt conflictingCommitter issues,
        (∃ addr : Addr, core.mgr.lazyVersion.writeBufferBlocks[addr]? = some .pending ∧
          issues addr = true) →
        ∃ next, core.notifyXactionEvent .commit pkt conflictingCommitter issues = .ok next ∧
          next.mgr.lazyVersion.issuedBlocks.Nonempty)

/-- The commit attempt of a live transaction goes on with the flush. -/
theorem Flushing.reissues (lazyCd : params.eagerCd = false) (width : 0 < params.lazyCommitWidth)
    (flushing : Flushing core.mgr) (committing : core.mgr.lazyVersion.committing = true)
    (unsignalled : core.mgr.abort.abortFlag = false) (live : core.mgr.lazyVersion.aborting = false)
    (uncommitted : core.mgr.lazyVersion.committed = false) {issues : Addr → Bool}
    (accepted : ∃ addr : Addr,
      core.mgr.lazyVersion.writeBufferBlocks[addr]? = some .pending ∧ issues addr = true)
    (pkt : HtmPacket) (conflictingCommitter : Checked Bool) :
    ∃ next, core.notifyXactionEvent .commit pkt conflictingCommitter issues = .ok next ∧
      next.mgr.lazyVersion.issuedBlocks.Nonempty := by
  obtain ⟨-, validated, noForwarding⟩ := flushing.started committing
  obtain ⟨lazyVersion, flushed, -, -, -, -, -, reissued⟩ :=
    flushing.flush.commit issues uncommitted live
  have cannot : core.mgr.canCommitTransaction = false := by
    simp [canCommitTransaction, lazyCd, uncommitted, committing]
  have obeyed : core.mgr.isAborting = false := by
    simp [isAborting, unsignalled]
  refine ⟨⟨{ core.mgr with atCommit := true, lazyVersion := lazyVersion }, core.htm,
    core.lastAbortHtmUid, true⟩, ?_, reissued width accepted⟩
  simp only [Core.notifyXactionEvent, obeyed, Core.commit, cannot, Bool.false_eq_true, ↓reduceIte,
    TransactionInterfaceManager.initiateCommitTransaction, noForwarding, assertThat_of lazyCd,
    ok_bind, uncommitted, validated, Bool.not_true, Bool.and_false, flushing.level, flushed]
  rfl

/-- In every run in which aborts are safe, the commit does not hang. -/
theorem progresses_of_safe (lazyCd : params.eagerCd = false) (width : 0 < params.lazyCommitWidth)
    {core : Core params n} (reachable : ((system params n).restrict Safe).Reachable core) :
    Progresses core := by
  intro committing none
  rcases (flushing_invariant lazyCd).of_reachable reachable with flushing | ended
  · constructor
    · intro aborting
      have cancelled := flushing.cancelled committing (flushing.isAborting_eq.symm.trans aborting)
      have empty : core.mgr.lazyVersion.writeBufferBlocks = ∅ := by
        rw [Std.ExtTreeMap.eq_empty_iff_forall_not_mem]
        intro addr member
        rw [Std.ExtTreeMap.mem_iff_isSome_getElem?, Option.isSome_iff_exists] at member
        obtain ⟨status, present⟩ := member
        obtain rfl := flushing.statuses cancelled addr status present
        have outstanding := LazyTransactionVersionManager.mem_issuedBlocks.mpr present
        simp [none] at outstanding
      have committed := flushing.drained cancelled empty
      refine ⟨committed, ?_⟩
      simp [canCommitTransaction, lazyCd, committed]
    · intro obeyed uncommitted
      have unsignalled := flushing.isAborting_eq.symm.trans obeyed
      have live := flushing.live unsignalled
      refine ⟨?_, fun pkt conflictingCommitter issues accepted =>
        flushing.reissues lazyCd width committing unsignalled live uncommitted accepted pkt
          conflictingCommitter⟩
      -- every block left is pending, and a live flush has one
      have left : core.mgr.lazyVersion.writeBufferBlocks ≠ ∅ := fun empty => by
        have committed := (flushing.flush.finished committing live).mpr empty
        simp [uncommitted] at committed
      rw [ne_eq, Std.ExtTreeMap.eq_empty_iff_forall_not_mem] at left
      push Not at left
      obtain ⟨addr, member⟩ := left
      rw [Std.ExtTreeMap.mem_iff_isSome_getElem?, Option.isSome_iff_exists] at member
      obtain ⟨status, present⟩ := member
      cases status with
      | pending => exact ⟨addr, present⟩
      | issued =>
        have outstanding := LazyTransactionVersionManager.mem_issuedBlocks.mpr present
        simp [none] at outstanding
  · simp [ended.committing] at committing

/-- Running events that meet the guard in the first transaction of a core reaches a state with the
property. -/
theorem exists_reachable {guard : Core lazyLazy 64 → LazyCommitEvent 64 → Prop}
    [∀ core event, Decidable (guard core event)] (events : List (LazyCommitEvent 64))
    {P : Core lazyLazy 64 → Prop}
    (evaluated : ∃ mgr, (Core.start lazyLazy 64 0 Core.pageLog).mgr.beginTransaction ⟨1, 0, false⟩ =
        .ok mgr ∧
      ∃ core, events.foldlM (TransitionSystem.checkedStep
        (fun core event => decide (guard core event)) (.assertion "guard") take)
        { Core.start lazyLazy 64 0 Core.pageLog with mgr := mgr } = .ok core ∧ P core) :
    ∃ core, ((system lazyLazy 64).restrict guard).Reachable core ∧ P core := by
  obtain ⟨mgr, begun, evaluated⟩ := evaluated
  refine TransitionSystem.exists_reachable_restrict _ events ?_ evaluated
  simp only [beginTransaction, run_eq_ok] at begun
  obtain ⟨-, escape, -, -, -, -, _, -, _, -, _, versioned, -, rfl⟩ := begun
  simp only [beginVersioning, show lazyLazy.lazyVm = true from rfl,
    show lazyLazy.eagerCd = false from rfl, ↓reduceIte, Bool.false_eq_true,
    LazyTransactionVersionManager.beginTransaction, run_eq_ok] at versioned
  obtain ⟨_, ⟨-, live, rfl⟩, _, -, rfl⟩ := versioned
  exact ⟨rfl, escape, rfl, rfl, live, rfl, rfl, rfl⟩

instance (core : Core params n) : (event : LazyCommitEvent n) → Decidable (Safe core event)
  | .setAbortFlag _ => inferInstanceAs (Decidable (_ → _ → _ ∨ _))
  | .request .. | .commit .. | .writeCallback .. | .environment .. =>
    inferInstanceAs (Decidable True)

/-- The signal of a conflicting store of another core. -/
def conflictOn (addr : Addr) : AbortSignal :=
  { addr := addr, abortSource := ⟨.l1Cache, 1⟩, remoteTrans := .trans, remotePriority := 0 }

/-- A transaction that aborts while its only request is outstanding: the completion ends the
flush. -/
theorem progresses_of_safe_abort : ∃ core : Core lazyLazy 64,
    ((system lazyLazy 64).restrict Safe).Reachable core ∧
      core.mgr.lazyVersion.committing = true ∧ core.mgr.lazyVersion.issuedBlocks = ∅ ∧
      core.mgr.isAborting = true ∧ core.mgr.canCommitTransaction = true := by
  let attempt : LazyCommitEvent 64 := .commit ⟨1, 0, false⟩ (.ok false) fun _ => true
  obtain ⟨core, reachable, committing, none, aborting⟩ : ∃ core : Core lazyLazy 64,
      ((system lazyLazy 64).restrict Safe).Reachable core ∧
      core.mgr.lazyVersion.committing = true ∧ core.mgr.lazyVersion.issuedBlocks = ∅ ∧
      core.mgr.isAborting = true := exists_reachable
    [.request 1 ⟨64, 1, true, fun _ => 7⟩, attempt, attempt, .setAbortFlag (conflictOn 64),
      .environment
        ⟨⟨[]⟩, (∅ : CacheMemory 64).insert 64 ⟨.readWrite, fun _ => 0, true⟩, 5, false, ∅⟩,
      .writeCallback ⟨64, 64, true, fun _ => 0⟩ fun _ => true] (by decide +kernel)
  have progresses := progresses_of_safe rfl (by decide) reachable
  exact ⟨core, reachable, committing, none, aborting, ((progresses committing none).1 aborting).2⟩

/-- A transaction stores one byte and commits; the sequencer refuses the only request of the flush,
and the abort that comes then drops the block.  Every later poll leaves the core as it is. -/
theorem abort_of_refused_flush_hangs : ∃ core : Core lazyLazy 64,
    (system lazyLazy 64).Reachable core ∧ ¬ Progresses core ∧
      core.mgr.lazyVersion.committing = true ∧ core.mgr.lazyVersion.committed = false ∧
      core.mgr.lazyVersion.issuedBlocks = ∅ ∧ core.mgr.isAborting = true ∧
      core.mgr.canCommitTransaction = false ∧
      ∀ pkt conflictingCommitter issues,
        core.notifyXactionEvent .commit pkt conflictingCommitter issues = .ok core := by
  let refused : LazyCommitEvent 64 := .commit ⟨1, 0, false⟩ (.ok false) fun _ => false
  obtain ⟨core, reachable, committing, uncommitted, none, aborting, cannot, pending⟩ :
      ∃ core : Core lazyLazy 64, ((system lazyLazy 64).restrict fun _ _ => True).Reachable core ∧
      core.mgr.lazyVersion.committing = true ∧ core.mgr.lazyVersion.committed = false ∧
      core.mgr.lazyVersion.issuedBlocks = ∅ ∧ core.mgr.isAborting = true ∧
      core.mgr.canCommitTransaction = false ∧ core.commitPending = true := exists_reachable
    [.request 1 ⟨64, 1, true, fun _ => 7⟩, refused, refused, .setAbortFlag (conflictOn 64)]
    (by decide +kernel)
  refine ⟨core, reachable.of_restrict, fun progresses => ?_, committing, uncommitted, none,
    aborting, cannot, fun pkt conflictingCommitter issues => ?_⟩
  · have committed := ((progresses committing none).1 aborting).1
    simp [uncommitted] at committed
  · obtain ⟨mgr, htm, lastAbortHtmUid, commitPending⟩ := core
    subst pending
    simp only [Core.notifyXactionEvent, aborting, cannot, ↓reduceIte, assertThat_of, ok_bind,
      Bool.not_false]
    rfl

end LazyCommitEvent

end Gem5.Ruby
