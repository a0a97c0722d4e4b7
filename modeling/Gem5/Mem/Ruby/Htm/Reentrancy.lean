import Gem5.Mem.Ruby.Htm.CoreSystem

/-!
# From one transaction to the next

`beginTransaction` asserts that nothing is left of the transaction before it.  Which
fields commit and abort reset depends on the mode: the abort of LogTM never unsets the
xid, and only the lazy-eager mode resets the bookkeeping of value forwarding.
`Core.ReleasesAll` is the condition on a commit or an abort under which nothing is
left behind; in every run whose steps meet it, the next transaction can begin.
-/

namespace Gem5.Ruby

open Foundation TransactionInterfaceManager

/-- Power mode is granted only under a power policy; otherwise a transaction may always begin. -/
theorem TransactionConflictManager.beginTransaction_total {params : HTMParams}
    (conflict : TransactionConflictManager params) (curCycle : Cycles) {power : Bool}
    (allowed : power = true → params.isPowerTMPolicy = true) :
    ∃ next, conflict.beginTransaction curCycle power = .ok next := by
  cases power with
  | false => exact ⟨_, rfl⟩
  | true => exact ⟨_, by simp only [beginTransaction, ↓reduceIte, allowed rfl, ↓reduceDIte]; rfl⟩

namespace TransactionInterfaceManager

variable {params : HTMParams} {n : Nat} {mgr next : TransactionInterfaceManager params n}
variable {htm after : HTM}

/-- A commit that leaves nothing behind. -/
def CommitReleases (mgr : TransactionInterfaceManager params n) : Prop :=
  params.allowEarlyValueFwd = false ∨ (params.lazyVm = true ∧ params.eagerCd = true) ∨
    (mgr.forwarding.Cleared ∧ (params.lazyVm = true ∨ mgr.atCommit = false))

/-- An abort that leaves nothing behind. -/
def AbortReleases (mgr : TransactionInterfaceManager params n) : Prop :=
  params.lazyVm = true ∧ (params.allowEarlyValueFwd = false ∨ params.eagerCd = true ∨
    (mgr.forwarding.Cleared ∧ mgr.hwTransPrio = ncPrioValue))

/-- What `beginTransaction` relies on, and what keeps it true: outside a transaction the fields it
asserts about are reset, and only the modes that clear it again set the commit flag. -/
structure Restartable (mgr : TransactionInterfaceManager params n) : Prop where
  rolledBack : mgr.unrollingLogFlag = false
  commits : mgr.atCommit = true → params.allowEarlyValueFwd = true ∨ params.eagerCd = false
  reset : mgr.transactionLevel = 0 → mgr.atCommit = false ∧ mgr.htmXid = htmXidUnset
  forwarding : mgr.transactionLevel = 0 → params.allowEarlyValueFwd = true →
    mgr.forwarding.Cleared ∧ mgr.hwTransPrio = ncPrioValue
  versioning : mgr.transactionLevel = 0 → params.lazyVm = true → params.eagerCd = false →
    mgr.lazyVersion.aborting = false ∧ mgr.arbiter = .idle

/-- The reset clears what was forwarded and received. -/
theorem cleared_resetForwarding (forwarding : ValueForwarding n) :
    (resetForwarding forwarding).Cleared := by
  constructor <;> simp [resetForwarding, ValueForwarding.init]

/-- With cleared bookkeeping the forwarding assertions of `beginTransaction` hold. -/
theorem assertNoForwarding_of_cleared (cleared : mgr.forwarding.Cleared) :
    mgr.assertNoForwarding = .ok () := by
  have producer : mgr.isProducer = .ok false := by
    simp [isProducer, cleared.sentTo, cleared.sent, assertThat, pure, Except.pure]
  have consumed : mgr.hasConsumedData = .ok false := by
    simp [hasConsumedData, cleared.consumedValid, cleared.receivedFrom, assertThat, pure,
      Except.pure]
  simp [assertNoForwarding, producer, consumed, isConsumer, cleared.received, cleared.sent,
    cleared.allReceived, cleared.allSent, cleared.turnedProducer, cleared.turnedConsumer,
    assertThat]

/-- The forwarding assertions of `beginTransaction` hold only with cleared bookkeeping. -/
theorem cleared_of_assertNoForwarding (asserted : mgr.assertNoForwarding = .ok ()) :
    mgr.forwarding.Cleared := by
  simp only [assertNoForwarding, run_eq_ok] at asserted
  obtain ⟨_, producer, rfl, consumer, _, consumed, rfl, sent, allReceived, allSent, turnedProducer,
    turnedConsumer⟩ := asserted
  have sentTo : mgr.forwarding.hasSentDataToConsumer = ∅ := by
    by_contra sends
    simp [isProducer, sends] at producer
  have received : mgr.forwarding.hasConsumedValidData = false ∧
      mgr.forwarding.hasReceivedDataFromProducer = createInvalidMachineID := by
    simp only [hasConsumedData] at consumed
    split at consumed <;> simp_all
  exact
    { sentTo := sentTo, sent := sent, allSent := allSent, receivedFrom := received.2
      received := by simpa [isConsumer] using consumer, allReceived := allReceived
      consumedValid := received.1, turnedProducer := turnedProducer
      turnedConsumer := turnedConsumer }

/-- Nothing is left of the transaction before. -/
def LeftClean (mgr : TransactionInterfaceManager params n) : Prop :=
  mgr.transactionLevel = 0 ∧ mgr.atCommit = false ∧ mgr.htmXid = htmXidUnset ∧
    (params.allowEarlyValueFwd = true → mgr.forwarding.Cleared ∧ mgr.hwTransPrio = ncPrioValue)

/-- A transaction begins only where nothing is left of the one before. -/
theorem leftClean_of_beginTransaction {pkt : HtmPacket}
    (begun : mgr.beginTransaction pkt = .ok next) : mgr.LeftClean := by
  have prio := (beginTransaction_ok begun).2.2.2.2.2.1
  simp only [beginTransaction, run_eq_ok] at begun
  obtain ⟨level, -, atCommit, -, -, xid, _, -, _, cleared, -⟩ := begun
  refine ⟨level, atCommit, xid, fun enabled => ⟨?_, prio enabled⟩⟩
  simp only [assertForwardingReset, enabled, ↓reduceIte] at cleared
  have begins := cleared_of_assertNoForwarding cleared
  exact begins

private theorem not_leftClean_of_commitTransaction
    (done : mgr.commitTransaction htm = .ok (next, after)) (keeps : ¬ mgr.CommitReleases) :
    ¬ next.LeftClean := by
  rintro ⟨-, atCommit, -, forwarding⟩
  obtain ⟨-, -, _, _, _, _, _, _, rfl, -, -, -, rfl, rfl, -⟩ := commitTransaction_ok done
  unfold CommitReleases at keeps
  cases enabled : params.allowEarlyValueFwd <;> cases lazy : params.lazyVm <;>
    cases eager : params.eagerCd <;> simp_all

private theorem not_leftClean_of_abortTransaction
    (done : mgr.abortTransaction htm = .ok (next, after)) (keeps : ¬ mgr.AbortReleases) :
    ¬ next.LeftClean := by
  rintro ⟨-, -, xid, forwarding⟩
  cases lazy : params.lazyVm with
  | true =>
    obtain ⟨_, _, _, _, _, _, rfl, -, lazyCd, -⟩ := abortTransaction_lazy lazy done
    unfold AbortReleases at keeps
    cases enabled : params.allowEarlyValueFwd <;> cases eager : params.eagerCd <;> simp_all
  | false =>
    have begunXid : mgr.htmXid ≠ htmXidUnset := by
      simp only [abortTransaction, run_eq_ok] at done
      exact done.2.2.1
    rcases abortTransaction_log lazy done with rfl | rfl
    · exact begunXid xid
    · exact begunXid xid

/-- The version managers begin once the previous transaction has left them. -/
theorem beginVersioning_total {uid : Nat} (fresh : mgr.lazyVersion.currentHtmUid < uid)
    (lazy : params.lazyVm = true → params.eagerCd = false →
      mgr.lazyVersion.aborting = false ∧ mgr.arbiter = .idle)
    (log : params.lazyVm = false → mgr.eagerVersion.logNumEntries = 0)
    (ready : mgr.eagerVersion.initStatus = .ready ∧ mgr.eagerVersion.logTLB.isEmpty = false) :
    ∃ next, mgr.beginVersioning uid = .ok next ∧ next.hwTransPrio = mgr.hwTransPrio := by
  unfold beginVersioning
  split
  · next lazyVm =>
    split
    · exact ⟨mgr, rfl, rfl⟩
    · next lazyCd =>
      obtain ⟨running, idle⟩ := lazy lazyVm (by simpa using lazyCd)
      obtain ⟨lazyVersion, started⟩ : ∃ lazyVersion,
          mgr.lazyVersion.beginTransaction uid = .ok lazyVersion := by
        simp [LazyTransactionVersionManager.beginTransaction, fresh, running, assertThat, pure,
          Except.pure]
      have arbiter : mgr.arbiter.beginTransaction = .ok () := by
        simp [LazyTransactionCommitArbiter.beginTransaction, idle, assertThat]
      exact ⟨{ mgr with lazyVersion := lazyVersion },
        by rw [started, ok_bind, arbiter, ok_bind]; rfl, rfl⟩
  · next eager =>
    have started : mgr.eagerVersion.beginTransaction = .ok () := by
      simp [EagerTransactionVersionManager.beginTransaction, log (by simpa using eager), ready,
        assertThat]
    exact ⟨mgr, by rw [started, ok_bind]; rfl, rfl⟩

namespace Restartable

/-- A restartable manager begins any transaction with a larger uid. -/
theorem beginTransaction_total {pkt : HtmPacket} (restartable : mgr.Restartable) (sound : mgr.Sound)
    (outside : mgr.transactionLevel = 0) (fresh : mgr.currentHtmUid < pkt.uid)
    (allowed : pkt.power = true → params.isPowerTMPolicy = true) :
    ∃ next, mgr.beginTransaction pkt = .ok next := by
  have escape : mgr.escapeLevel = 0 := by
    have escaped := sound.escape
    rwa [restartable.rolledBack] at escaped
  obtain ⟨atCommit, xid⟩ := restartable.reset outside
  obtain ⟨conflict, started⟩ := mgr.conflict.beginTransaction_total mgr.curCycle allowed
  let begun := { mgr with
    transactionLevel := 1, currentHtmUid := pkt.uid, htmXid := pkt.xid
    isolation := mgr.isolation.beginTransaction, conflict := conflict }
  have forwarding : begun.assertForwardingReset = .ok () := by
    unfold assertForwardingReset
    split
    · next enabled =>
      exact assertNoForwarding_of_cleared (restartable.forwarding outside enabled).1
    · rfl
  have prio : params.allowEarlyValueFwd = true → mgr.hwTransPrio = ncPrioValue :=
    fun enabled => (restartable.forwarding outside enabled).2
  obtain ⟨versioned, versions, samePrio⟩ := @beginVersioning_total _ _ begun pkt.uid
    (Nat.lt_of_le_of_lt sound.lazyUid fresh) (restartable.versioning outside)
    (fun log => sound.log log outside) sound.ready
  refine ⟨versioned, ?_⟩
  simp only [beginTransaction, assertThat_of outside, assertThat_of escape, assertThat_of atCommit,
    assertThat_of restartable.rolledBack, assertThat_of fresh, assertThat_of xid, started, ok_bind]
  rw [show assertForwardingReset _ = _ from forwarding, ok_bind,
    show beginVersioning _ _ = _ from versions, ok_bind,
    assertThat_of (by rw [samePrio]; exact prio), ok_bind]
  rfl

private theorem init (version : Nat) (log : Std.ExtTreeMap Addr Addr) :
    Restartable (TransactionInterfaceManager.init params n version log) where
  rolledBack := rfl
  commits := by simp [TransactionInterfaceManager.init]
  reset _ := ⟨rfl, rfl⟩
  forwarding _ _ := ⟨cleared_resetForwarding (ValueForwarding.init n), rfl⟩
  versioning _ _ _ := ⟨rfl, rfl⟩

variable (restartable : mgr.Restartable)

include restartable

private theorem of_call (sound : mgr.Sound) (frame : CallFrame mgr next) : next.Restartable := by
  have control := frame.control
  simp only [TransactionInterfaceManager.control, Control.mk.injEq] at control
  obtain ⟨-, level, -, xid, -, unroll, atCommit, arbiter, -, -⟩ := control
  refine
    { rolledBack := unroll.trans restartable.rolledBack
      commits := by rw [atCommit]; exact restartable.commits
      reset := by rw [level, atCommit, xid]; exact restartable.reset
      forwarding := ?_
      versioning := ?_ }
  · intro outside enabled
    rw [level] at outside
    obtain ⟨cleared, prio⟩ := restartable.forwarding outside enabled
    obtain ⟨-, -, cleared, prio⟩ :=
      frame.idle ⟨outside, (sound.outside outside).1, cleared, fun _ => prio⟩
    exact ⟨cleared, prio enabled⟩
  · intro outside lazy lazyCd
    rw [level] at outside
    rw [frame.lazyVersion outside, arbiter]
    exact restartable.versioning outside lazy lazyCd

private theorem of_beginTransaction {pkt : HtmPacket}
    (begun : mgr.beginTransaction pkt = .ok next) : next.Restartable := by
  obtain ⟨-, -, -, -, -, -, _, _, rfl, -, -⟩ := beginTransaction_ok begun
  exact
    { rolledBack := restartable.rolledBack, commits := restartable.commits
      reset := by simp, forwarding := by simp, versioning := by simp }

private theorem of_commitTransaction (releases : mgr.CommitReleases)
    (done : mgr.commitTransaction htm = .ok (next, after)) : next.Restartable := by
  obtain ⟨-, -, _, _, _, _, _, _, rfl, -, -, -, rfl, rfl, lazyLazy⟩ := commitTransaction_ok done
  refine
    { rolledBack := restartable.rolledBack, commits := ?_, reset := ?_, forwarding := ?_
      versioning := fun _ lazy lazyCd => lazyLazy lazy lazyCd }
  · dsimp only
    split
    · simp
    · exact restartable.commits
  · refine fun _ => ⟨?_, rfl⟩
    dsimp only
    split
    · rfl
    · next kept =>
      by_contra atCommit
      have commits := restartable.commits (by simpa using atCommit)
      have eagerOfLog := params.eagerOfLog
      unfold CommitReleases at releases
      grind
  · refine fun _ enabled => ⟨?_, rfl⟩
    dsimp only
    split
    · exact cleared_resetForwarding _
    · next kept =>
      rcases releases with disabled | ⟨lazy, eager⟩ | ⟨cleared, -⟩
      · simp [enabled] at disabled
      · simp [lazy, eager, enabled] at kept
      · exact cleared

private theorem of_initiateCommitTransaction {conflictingCommitter : Checked Bool}
    {issues : Addr → Bool}
    (inside : mgr.transactionLevel ≠ 0)
    (initiated : mgr.initiateCommitTransaction htm conflictingCommitter issues =
      .ok (next, after)) : next.Restartable := by
  have mode : params.allowEarlyValueFwd = true ∨ params.eagerCd = false := by
    unfold initiateCommitTransaction at initiated
    split at initiated
    · next enabled => exact .inl enabled
    · simp only [run_eq_ok] at initiated
      exact .inr initiated.1
  obtain ⟨_, _, rfl, -⟩ := initiateCommitTransaction_ok initiated
  exact
    { rolledBack := restartable.rolledBack, commits := fun _ => mode
      reset := fun outside => absurd outside inside
      forwarding := fun outside => absurd outside inside
      versioning := fun outside => absurd outside inside }

private theorem of_abortTransaction (releases : mgr.AbortReleases)
    (done : mgr.abortTransaction htm = .ok (next, after)) : next.Restartable := by
  obtain ⟨_, _, _, _, _, _, rfl, -, lazyCd, eagerCd⟩ := abortTransaction_lazy releases.1 done
  refine
    { rolledBack := restartable.rolledBack, commits := by simp, reset := fun _ => ⟨rfl, rfl⟩
      forwarding := ?_, versioning := ?_ }
  · intro _ enabled
    cases eager : params.eagerCd with
    | true =>
      obtain ⟨rfl, rfl⟩ := eagerCd eager
      simp only [enabled, ↓reduceIte, and_true]
      exact cleared_resetForwarding _
    | false =>
      obtain ⟨-, -, rfl, rfl⟩ := lazyCd eager
      exact (releases.2.resolve_left (by simp [enabled])).resolve_left (by simp [eager])
  · intro _ _ eager
    exact ⟨(lazyCd eager).1, (lazyCd eager).2.1⟩

end Restartable

end TransactionInterfaceManager

namespace Core

variable {params : HTMParams} {n : Nat} {core next : Core params n} {event : CoreEvent n}

/-- The condition on the steps that end a transaction: commits and aborts leave nothing behind. -/
def ReleasesAll (core : Core params n) : CoreEvent n → Prop
  | .command .commit _ _ _ =>
    core.mgr.canCommitTransaction = true → core.mgr.CommitReleases
  | .command (.abort _) _ _ _ => core.mgr.AbortReleases
  | _ => True

private theorem LifeCycle.restartable {mgr : TransactionInterfaceManager params n}
    (cycle : LifeCycle core event mgr) (restartable : core.mgr.Restartable)
    (releases : core.ReleasesAll event) : mgr.Restartable := by
  cases cycle with
  | start begun => exact restartable.of_beginTransaction begun
  | commit _ _ ready done =>
    exact { restartable.of_commitTransaction (releases ready) done with }
  | initiate running _ done =>
    exact restartable.of_initiateCommitTransaction (CallFrame.inside_of_inTransaction running) done
  | abort _ done => exact { restartable.of_abortTransaction releases done with }
  | unrolled done =>
    simp only [endLogUnroll, run_eq_ok] at done
    simp [restartable.rolledBack] at done

/-- Along the runs whose commits and aborts leave nothing behind, the manager stays sound and
restartable. -/
theorem restartable_invariant : ((system params n).restrict ReleasesAll).Invariant
    fun core => core.mgr.Sound ∧ core.mgr.Restartable where
  initial := by
    rintro core ⟨version, log, setUp, rfl⟩
    exact ⟨.init setUp, .init version log⟩
  preserved := by
    rintro core event next ⟨sound, restartable⟩ ⟨releases, transition⟩
    refine ⟨sound_invariant.preserved sound transition, ?_⟩
    obtain ⟨admitted, stepped⟩ := system_step.mp transition
    rcases step_cases sound admitted stepped with call | cycle
    · exact restartable.of_call sound call
    · exact cycle.restartable restartable releases

private theorem LifeCycle.not_leftClean {mgr : TransactionInterfaceManager params n}
    (cycle : LifeCycle core event mgr) (inside : core.mgr.transactionLevel ≠ 0)
    (keeps : ¬ core.ReleasesAll event) : ¬ mgr.LeftClean := by
  intro clean
  cases cycle with
  | start _ => exact keeps trivial
  | commit _ _ ready done =>
    refine not_leftClean_of_commitTransaction done ?_ clean
    exact fun releases => keeps fun _ => releases
  | initiate _ _ done =>
    obtain ⟨_, _, rfl, -⟩ := initiateCommitTransaction_ok done
    exact inside clean.1
  | abort _ done =>
    exact not_leftClean_of_abortTransaction done keeps clean
  | unrolled _ => exact keeps trivial

/-- The transaction is over, or only its log remains to be unrolled, and its xid is still set. -/
structure XidLeft (mgr : TransactionInterfaceManager params n) : Prop where
  outside : mgr.inTransaction = false
  xid : mgr.htmXid ≠ htmXidUnset

/-- The abort of LogTM does not unset the xid. -/
theorem XidLeft.of_abort {cause : HtmFailureFaultCause} {pkt : HtmPacket} {committer : Checked Bool}
    {issues : Addr → Bool} (sound : core.mgr.Sound) (log : params.lazyVm = false)
    (stepped : core.step (.command (.abort cause) pkt committer issues) = .ok next) :
    XidLeft next.mgr := by
  have aborted : core.abortTransaction pkt = .ok next := by
    simp only [step, notifyXactionEvent] at stepped
    split at stepped
    · exact stepped
    · split at stepped
      · exact stepped
      · exact absurd stepped panicWith_ne_ok
  obtain ⟨mgr, after, done, rfl⟩ := abortTransaction_ok aborted
  refine ⟨(Ended.of_abortTransaction sound done).outside, ?_⟩
  have begunXid : core.mgr.htmXid ≠ htmXidUnset := by
    simp only [TransactionInterfaceManager.abortTransaction, run_eq_ok] at done
    exact done.2.2.1
  rcases abortTransaction_log log done with rfl | rfl
  · exact begunXid
  · exact begunXid

/-- Nothing unsets it later, the end of the unrolling neither. -/
theorem XidLeft.step (left : XidLeft core.mgr) (sound : core.mgr.Sound)
    (transition : (system params n).Step core event next) : XidLeft next.mgr := by
  obtain ⟨admitted, stepped⟩ := system_step.mp transition
  rcases step_cases sound admitted stepped with call | cycle
  · have same : next.mgr.htmXid = core.mgr.htmXid := congrArg Control.htmXid call.control
    exact ⟨call.inTransaction.trans left.outside, same ▸ left.xid⟩
  · obtain ⟨outside, xid⟩ := left
    generalize next.mgr = mgr at cycle ⊢
    cases cycle with
    | start begun => exact absurd (leftClean_of_beginTransaction begun).2.2.1 xid
    | commit running | initiate running | abort running => simp [outside] at running
    | unrolled done =>
      simp only [endLogUnroll, run_eq_ok] at done
      obtain ⟨-, -, -, -, rfl⟩ := done
      exact ⟨rfl, xid⟩

/-- In a run whose commits and aborts so far have left nothing behind, a transaction with a fresh
uid begins in every state outside a transaction; a commit or abort that does leave something behind
is followed by no further transaction; and after an abort of LogTM, which may have its log to
unroll, none begins in any later state. -/
theorem reentrant_iff_releasesAll
    (reachable : ((system params n).restrict ReleasesAll).Reachable core) :
    (core.mgr.transactionLevel = 0 → ∀ pkt : HtmPacket, core.mgr.currentHtmUid < pkt.uid →
      (pkt.power = true → params.isPowerTMPolicy = true) →
        ∃ begun, core.mgr.beginTransaction pkt = .ok begun) ∧
    (∀ event next, ¬ core.ReleasesAll event → (system params n).Step core event next →
      ∀ pkt begun, next.mgr.beginTransaction pkt ≠ .ok begun) ∧
    (params.lazyVm = false → ∀ cause pkt committer issues next,
      (system params n).Step core (.command (.abort cause) pkt committer issues) next →
      ∀ events later, (system params n).Steps next events later →
        ∀ pkt begun, later.mgr.beginTransaction pkt ≠ .ok begun) := by
  obtain ⟨sound, restartable⟩ := restartable_invariant.of_reachable reachable
  refine ⟨?_, ?_, ?_⟩
  · intro outside pkt fresh allowed
    exact restartable.beginTransaction_total sound outside fresh allowed
  · intro event next keeps transition pkt begun begins
    obtain ⟨admitted, stepped⟩ := system_step.mp transition
    have clean := leftClean_of_beginTransaction begins
    have inside : core.mgr.transactionLevel ≠ 0 := by
      unfold ReleasesAll at keeps
      split at keeps
      · exact CallFrame.inside_of_inTransaction (admitted.resolve_left (by simp))
      · exact CallFrame.inside_of_inTransaction (admitted.resolve_left (by simp))
      · exact absurd trivial keeps
    rcases step_cases sound admitted stepped with call | cycle
    · exact inside (call.transactionLevel ▸ clean.1)
    · exact cycle.not_leftClean inside keeps clean
  · intro log cause pkt committer issues next transition events later steps pkt' begun begins
    have left := XidLeft.of_abort sound log (system_step.mp transition).2
    have kept := @TransitionSystem.Steps.preserves _ _ _
      (fun core : Core params n => core.mgr.Sound ∧ XidLeft core.mgr)
      (fun ⟨sound, left⟩ transition =>
        ⟨sound_invariant.preserved sound transition, left.step sound transition⟩)
      _ _ _ ⟨sound_invariant.preserved sound transition, left⟩ steps
    exact kept.2.xid (leftClean_of_beginTransaction begins).2.2.1

/-- A LogTM transaction that the CPU aborts before its first store. -/
def interruptedEvents : List (CoreEvent 64) :=
  [.command .start ⟨1, 1, false⟩ (.ok false) fun _ => false,
   .command (.abort .interrupt) ⟨1, 1, false⟩ (.ok false) fun _ => false]

/-- After the abort of a LogTM transaction the xid is still set, so no transaction begins. -/
theorem reentrant_brokenByLogAbort :
    ∃ core, (system logTM 64).Reachable core ∧ core.mgr.transactionLevel = 0 ∧
      core.mgr.currentHtmUid = 1 ∧ core.mgr.htmXid = 1 ∧
      ∀ pkt begun, core.mgr.beginTransaction pkt ≠ .ok begun := by
  obtain ⟨core, reachable, level, uid, xid⟩ := exists_reachable
    (P := fun core : Core logTM 64 => core.mgr.transactionLevel = 0 ∧
      core.mgr.currentHtmUid = 1 ∧ core.mgr.htmXid = 1) interruptedEvents 0 (by decide +kernel)
  refine ⟨core, reachable, level, uid, xid, fun pkt begun begins => ?_⟩
  have unset := (leftClean_of_beginTransaction begins).2.2.1
  simp [xid, htmXidUnset] at unset

/-- A transaction of a lazy-eager core that commits. -/
def committedEvents : List (CoreEvent 64) :=
  [.command .start ⟨1, 1, false⟩ (.ok false) fun _ => false, .request 1 ⟨64, 8, false, fun _ => 0⟩,
   .command .commit ⟨1, 1, false⟩ (.ok false) fun _ => false]

/-- After a commit of a lazy-eager core the next transaction begins. -/
theorem reentrant_afterCommit :
    ∃ core, (system requesterStalls 64).Reachable core ∧ core.mgr.currentHtmUid = 1 ∧
      ∃ begun, core.mgr.beginTransaction ⟨2, 1, false⟩ = .ok begun := by
  obtain ⟨core, reachable, level, uid⟩ := exists_reachable
    (P := fun core : Core requesterStalls 64 => core.mgr.transactionLevel = 0 ∧
      core.mgr.currentHtmUid = 1) committedEvents 0 (by decide +kernel)
  have releases : ∀ (core : Core requesterStalls 64) event, core.ReleasesAll event := by
    intro core event
    unfold ReleasesAll
    split
    · exact fun _ => .inr (.inl ⟨rfl, rfl⟩)
    · exact ⟨rfl, .inr (.inl rfl)⟩
    · trivial
  have begins := (reentrant_iff_releasesAll (reachable.restrict releases)).1 level ⟨2, 1, false⟩
  exact ⟨core, reachable, uid, begins (by simp [uid]) (by simp)⟩

end Core

end Gem5.Ruby
