import Gem5.Mem.Ruby.Htm.LogIsolation
import Gem5.Mem.Ruby.Protocol.L1Cache
import Mathlib.Data.Prod.Lex

/-!
# The timestamp policy

What `requester_stalls_cda_base` makes of a conflict under lazy versioning: the age of a
transaction, the nack of a holder and what it tells, and what a nack does to the
transaction that receives it.
-/

namespace Gem5.Ruby

open Foundation

/-- The timestamp policy of CDA over lazy versioning. -/
structure IsCdaBase (params : HTMParams) : Prop where
  policy : params.conflictResolution = .requesterStallsCdaBase
  lazy : params.lazyVm = true

namespace IsCdaBase

variable {params : HTMParams} (cda : IsCdaBase params)
include cda

private theorem stalls : params.isRequesterStallsPolicy = true := by
  simp [HTMParams.isRequesterStallsPolicy, cda.policy, HtmPolicy.getResolutionPolicy_eq]

private theorem timestamps : params.conflictResolution ≠ .requesterStallsPicBase := by
  simp [cda.policy]

private theorem not_powered (conflict : TransactionConflictManager params) :
    conflict.powered = false := by
  by_contra powered
  have policy := conflict.isPowered_policy (by simpa using powered)
  simp [HTMParams.isPowerTMPolicy, cda.policy] at policy

end IsCdaBase

namespace TransactionInterfaceManager

variable {params : HTMParams} {n : Nat} {mgr next : TransactionInterfaceManager params n}
variable {req : RemoteRequest}

/-! ## The age of a transaction -/

/-- The age order: by timestamp, and by processor among equal timestamps. -/
def age (mgr : TransactionInterfaceManager params n) : Nat ×ₗ Nat :=
  toLex (mgr.conflict.timestamp, mgr.version)

/-- `isRemoteOlder` compares ages. -/
theorem isRemoteOlder_iff {localTimestamp remoteTimestamp : Nat} {remoteId : MachineID}
    {older : Bool}
    (compared : mgr.isRemoteOlder localTimestamp remoteTimestamp remoteId = .ok older) :
    older = true ↔ toLex (remoteTimestamp, remoteId.num) < toLex (localTimestamp, mgr.version) := by
  rw [Prod.Lex.toLex_lt_toLex]
  unfold isRemoteOlder at compared
  split at compared
  · next tie =>
    simp only [run_eq_ok] at compared
    change localTimestamp = remoteTimestamp at tie
    simp [← compared.2, tie]
  · next apart =>
    change ¬ localTimestamp = remoteTimestamp at apart
    rw [pure_eq_ok] at compared
    simp only [← compared, decide_eq_true_eq]
    exact ⟨.inl, fun less => less.resolve_right fun tie => apart tie.1.symm⟩

/-- What a step does to the age: within one transaction the timestamp stays and a suspected cycle
stays suspected. -/
structure AgeStep (mgr next : TransactionInterfaceManager params n) : Prop where
  version : next.version = mgr.version
  uid : mgr.currentHtmUid ≤ next.currentHtmUid
  within : next.transactionLevel ≠ 0 → next.currentHtmUid = mgr.currentHtmUid →
    mgr.transactionLevel ≠ 0 ∧ next.conflict.timestamp = mgr.conflict.timestamp ∧
      (mgr.conflict.possibleCycle = true → next.conflict.possibleCycle = true)
  timed : mgr.conflict.timestamp ≤ mgr.curCycle → next.conflict.timestamp ≤ next.curCycle

/-- A call keeps the age. -/
theorem AgeStep.of_call (frame : CallFrame mgr next) : AgeStep mgr next where
  version := frame.version
  uid := (congrArg Control.currentHtmUid frame.control).ge
  within running _ := ⟨frame.transactionLevel ▸ running, frame.age.timestamp, frame.age.cycle⟩
  timed before := by
    rw [frame.age.timestamp]
    exact before.trans frame.age.clock

/-- A step after which no transaction runs. -/
theorem AgeStep.of_ended (version : next.version = mgr.version)
    (uid : next.currentHtmUid = mgr.currentHtmUid) (level : next.transactionLevel = 0)
    (timestamp : next.conflict.timestamp = mgr.conflict.timestamp)
    (clock : next.curCycle = mgr.curCycle) : AgeStep mgr next where
  version := version
  uid := uid.ge
  within running := absurd level running
  timed := by rw [timestamp, clock]; exact id

private theorem AgeStep.of_beginTransaction {pkt : HtmPacket}
    (begun : mgr.beginTransaction pkt = .ok next) : AgeStep mgr next := by
  obtain ⟨-, -, -, -, fresh, -, conflict, lazyVersion, rfl, ⟨-, timestamp⟩, -⟩ :=
    beginTransaction_ok begun
  refine ⟨rfl, fresh.le, fun _ same => absurd same fresh.ne', fun before => ?_⟩
  rcases timestamp with same | now
  · exact same ▸ before
  · exact now.le

/-- A life cycle step under lazy versioning. -/
theorem AgeStep.of_lifeCycle {core : Core params n} {event : CoreEvent n}
    (lazy : params.lazyVm = true) (sound : core.mgr.Sound) (cycle : core.LifeCycle event next) :
    AgeStep core.mgr next := by
  cases cycle with
  | start begun => exact .of_beginTransaction begun
  | commit _ _ _ done =>
    obtain ⟨-, -, _, _, _, _, _, _, rfl, ⟨-, timestamp⟩, -⟩ := commitTransaction_ok done
    exact .of_ended rfl rfl rfl timestamp rfl
  | initiate _ _ done =>
    obtain ⟨_, _, rfl, -⟩ := initiateCommitTransaction_ok done
    exact ⟨rfl, Nat.le_refl _, fun running _ => ⟨running, rfl, id⟩, id⟩
  | abort _ done =>
    have level := (abortTransaction_ok done).2.1
    obtain ⟨_, _, _, _, _, _, rfl, -⟩ := abortTransaction_lazy lazy done
    exact .of_ended rfl rfl (by simp [sound.not_unrolling level]) rfl rfl
  | unrolled done =>
    simp only [endLogUnroll, run_eq_ok] at done
    simp [lazy] at done

/-! ## Sending a nack -/

variable {nack : Nack n}

/-- A conflict with a transaction is nacked, any other one is not. -/
theorem resolveConflict_cda (cda : IsCdaBase params) (running : mgr.IsRunning) :
    mgr.resolveConflict req = .ok (isTransactionalRequest req.remoteTrans, mgr) := by
  unfold resolveConflict
  rw [if_pos cda.stalls, if_neg cda.timestamps, running.2]
  cases isTransactionalRequest req.remoteTrans <;> simp [cda.lazy, pure, Except.pure]

/-- A live transaction that nacks an older one suspects a cycle. -/
theorem shouldNackRemoteRequest_cycle {verdict : Bool} (cda : IsCdaBase params)
    (running : mgr.IsRunning) (live : mgr.abort.abortFlag = false)
    (conflict : mgr.existStoreConflict req.addr = .ok true)
    (older : toLex (req.remoteTimestamp, req.remoteId.num) < mgr.age)
    (trans : isTransactionalRequest req.remoteTrans = true)
    (answered : mgr.shouldNackRemoteRequest req = .ok (verdict, next)) :
    next.conflict.possibleCycle = true := by
  simp only [shouldNackRemoteRequest, running.isAbortingOrDoomed, live, run_eq_ok, Except.ok.injEq,
    exists_eq_left', Bool.false_eq_true, ↓reduceIte, resolveConflict_cda cda running, trans,
    Prod.mk.injEq] at answered
  obtain ⟨-, _, notified, -, rfl⟩ := answered
  have inside := CallFrame.inside_of_inTransaction running.1
  unfold notifySendNack at notified
  rw [if_pos cda.stalls, if_neg cda.timestamps, bind_eq_ok] at notified
  obtain ⟨inReadSet, reads, notified⟩ := notified
  have hit : (inReadSet || mgr.checkWriteSignature req.addr) = true := by
    unfold existStoreConflict at conflict
    split at conflict
    · next writes => simp [writes]
    · rw [reads, Except.ok.injEq] at conflict
      simp [conflict]
  simp only [hit, ↓reduceIte, getTimestamp_inside inside, run_eq_ok, Except.ok.injEq,
    exists_eq_left'] at notified
  obtain ⟨verdict, compared, rfl⟩ := notified
  simp [(isRemoteOlder_iff compared).mpr older]

/-- What a request meets that is nacked: the block is in a set of the holder, and a live holder
suspects a cycle if the requester is older. -/
structure NackedBy (mgr : TransactionInterfaceManager params n) (req : RemoteRequest)
    (next : TransactionInterfaceManager params n) : Prop where
  frame : ConflictFrame mgr next
  conflict : mgr.existStoreConflict req.addr = .ok true
  cycle : mgr.IsRunning → mgr.abort.abortFlag = false →
    toLex (req.remoteTimestamp, req.remoteId.num) < mgr.age → next.conflict.possibleCycle = true

private theorem NackedBy.of_shouldNackLoad (cda : IsCdaBase params)
    (judged : mgr.shouldNackLoad req = .ok (true, next)) : mgr.NackedBy req next := by
  have frame := ConflictFrame.of_shouldNackLoad judged
  simp only [shouldNackLoad, run_eq_ok] at judged
  obtain ⟨-, judged⟩ := judged
  split at judged
  · next writes =>
    have conflict : mgr.existStoreConflict req.addr = .ok true := by
      simp [existStoreConflict, writes, pure, Except.pure]
    refine ⟨frame, conflict, fun running live older => ?_⟩
    simp only [run_eq_ok] at judged
    have trans : isTransactionalRequest req.remoteTrans = true := by
      by_contra other
      have verdict := judged.2.2
      simp only [shouldNackRemoteRequest, running.isAbortingOrDoomed, live, run_eq_ok,
        Except.ok.injEq, exists_eq_left', Bool.false_eq_true, ↓reduceIte,
        resolveConflict_cda cda running, other, Prod.mk.injEq] at verdict
      simp at verdict
    exact shouldNackRemoteRequest_cycle cda running live conflict older trans judged.2.2
  · simp [pure_eq_ok] at judged

private theorem NackedBy.of_shouldNackStore (cda : IsCdaBase params)
    (source : req.remoteId.type = .l1Cache)
    (judged : mgr.shouldNackStore req = .ok (true, next)) : mgr.NackedBy req next := by
  have frame := ConflictFrame.of_shouldNackStore judged
  simp only [shouldNackStore, run_eq_ok] at judged
  obtain ⟨-, found, conflict, judged⟩ := judged
  split at judged
  · next hit =>
    simp only [source, reduceCtorEq, ↓reduceIte, run_eq_ok] at judged
    obtain ⟨-, -, ⟨verdict, middle⟩, first, overridden⟩ := judged
    rw [if_pos (by simp [cda.stalls, cda.timestamps])] at overridden
    refine ⟨frame, by rw [conflict, hit], fun running live older => ?_⟩
    have trans : isTransactionalRequest req.remoteTrans = true := by
      by_contra other
      simp [overrideStoreVerdict, Bool.eq_false_of_not_eq_true other, cda.lazy] at overridden
    have suspects := shouldNackRemoteRequest_cycle cda running live (by rw [conflict, hit]) older
      trans first
    exact (ConflictFrame.of_overrideStoreVerdict overridden).cycle suspects
  · simp [pure_eq_ok] at judged

/-- Outside a transaction nothing conflicts. -/
theorem Sound.inside_of_conflict (sound : mgr.Sound)
    (conflict : mgr.existStoreConflict req.addr = .ok true) : mgr.transactionLevel ≠ 0 := by
  intro outside
  simp [TransactionInterfaceManager.existStoreConflict, checkWriteSignature,
    TransactionInterfaceManager.checkReadSignature, (sound.outside outside).1,
    TransactionIsolationManager.isInWriteSetPerfectFilter,
    TransactionIsolationManager.isInReadSetPerfectFilter, pure, Except.pure] at conflict

/-- Under lazy versioning every transaction runs until it ends. -/
theorem Sound.isRunning_of_lazy (sound : mgr.Sound) (lazy : params.lazyVm = true)
    (inside : mgr.transactionLevel ≠ 0) : mgr.IsRunning := by
  have down : mgr.unrollingLogFlag = false := by
    by_contra unrolls
    have log := (sound.unrolling (by simpa using unrolls)).2.1
    simp [lazy] at log
  refine sound.isRunning ?_
  simp [inTransaction, Nat.pos_of_ne_zero inside, sound.escape, down]

/-- The oldest timestamp of a transaction is its own. -/
theorem getOldestTimestamp_inside {oldest : Nat} (inside : mgr.transactionLevel ≠ 0)
    (timed : mgr.conflict.timestamp ≤ mgr.curCycle) (asked : mgr.getOldestTimestamp = .ok oldest) :
    oldest = mgr.conflict.timestamp := by
  simp only [getOldestTimestamp, run_eq_ok, Nat.pos_of_ne_zero inside, gt_iff_lt, true_and] at asked
  obtain ⟨-, rfl⟩ := asked
  split
  · rfl
  · next late => exact le_antisymm (not_lt.mp late) timed

/-- What a nack tells about its sender. -/
structure NackOf (mgr : TransactionInterfaceManager params n) (nack : Nack n) : Prop where
  sender : nack.sender = ⟨.l1Cache, mgr.version⟩
  timestamp : nack.timestamp = mgr.conflict.timestamp
  ordinary : nack.Ordinary
  priority : params.allowEarlyValueFwd = false → nack.priority = ncPrioValue

private theorem NackOf.of_call (nacked : NackOf next nack) (frame : CallFrame mgr next) :
    NackOf mgr nack := by
  obtain ⟨sender, timestamp, ordinary, priority⟩ := nacked
  rw [frame.version] at sender
  exact ⟨sender, timestamp.trans frame.age.timestamp, ordinary, priority⟩

variable {line : LineStatus}

private theorem NackOf.of_sendInvNack (cda : IsCdaBase params) (sound : mgr.Sound)
    (inside : mgr.transactionLevel ≠ 0) (timed : mgr.conflict.timestamp ≤ mgr.curCycle)
    (sent : mgr.sendInvNack req line = .ok (nack, next)) : NackOf mgr nack := by
  have base : ∀ {plain}, mgr.plainNack req = .ok plain → NackOf mgr plain := by
    intro plain made
    simp only [plainNack, run_eq_ok] at made
    obtain ⟨oldest, known, rfl⟩ := made
    have running := sound.isRunning_of_lazy cda.lazy inside
    refine ⟨rfl, getOldestTimestamp_inside inside timed known, ⟨rfl, ?_, ?_⟩, fun disabled => ?_⟩
    · simp [getTransactionBit, running.1]
    · simp [getSwTransactionPriority, cda.not_powered]
    · have prio := sound.prio
      simp only [cda.policy, disabled, reduceCtorEq, Bool.false_eq_true, or_self, and_false,
        or_false] at prio
      simp only [getTransactionPriority]
      split
      · rfl
      · exact prio
  rcases sendInvNack_cases sent with ⟨made, -⟩ | ⟨_, _, made, enabled, -, -, -, rfl⟩
  · exact base made
  · obtain ⟨sender, timestamp, ordinary, -⟩ := base made
    refine ⟨sender, timestamp, ⟨ordinary.source, ordinary.trans, ordinary.swPriority⟩, ?_⟩
    intro disabled
    simp [enabled] at disabled

/-- The answer of a holder that nacks. -/
structure NacksBack (mgr : TransactionInterfaceManager params n) (req : RemoteRequest)
    (nack : Nack n) (next : TransactionInterfaceManager params n) : Prop where
  inside : mgr.transactionLevel ≠ 0
  sent : NackOf mgr nack
  cycle : mgr.abort.abortFlag = false →
    toLex (req.remoteTimestamp, req.remoteId.num) < mgr.age → next.conflict.possibleCycle = true

section

variable (cda : IsCdaBase params) (sound : mgr.Sound)
  (timed : mgr.conflict.timestamp ≤ mgr.curCycle)

include cda sound timed

/-- Every nack to an L1 cache is such an answer. -/
theorem NacksBack.of_remoteRequest {kind : RequestKind} (source : req.remoteId.type = .l1Cache)
    (answered : mgr.remoteRequest kind req line = .ok (some nack, next)) :
    mgr.NacksBack req nack next := by
  rcases remoteRequest_cases answered with ⟨middle, _, judged, sent, ⟨⟩⟩ | ⟨-, served⟩
  · have conflict : mgr.NackedBy req middle := by
      cases judged with
      | load judged => exact .of_shouldNackLoad cda judged
      | store judged => exact .of_shouldNackStore cda source judged
    have frame := judged.quiet.call
    have inside := sound.inside_of_conflict conflict.conflict
    have still : middle.transactionLevel ≠ 0 := by rwa [frame.transactionLevel]
    refine ⟨inside, ?_, fun live older => ?_⟩
    · refine NackOf.of_call ?_ frame
      exact NackOf.of_sendInvNack cda (sound.of_call frame) still
        ((AgeStep.of_call frame).timed timed) sent
    · have running := sound.isRunning_of_lazy cda.lazy inside
      exact (AnswerCall.of_sendInvNack sent).call.age.cycle (conflict.cycle running live older)
  · simp at served

end

/-! ## Receiving a nack -/

/-- A manager that has noted the reception of a nack. -/
private def noted (mgr : TransactionInterfaceManager params n) :
    TransactionInterfaceManager params n :=
  { mgr with conflict := { mgr.conflict with receivedNack := true } }

/-- A nack aborts a transaction that suspects a cycle if it names an older one, and no other
transaction. -/
theorem notifyReceiveNack_iff (cda : IsCdaBase params) (running : mgr.IsRunning)
    (received : mgr.notifyReceiveNack req = .ok next) :
    next.abort.abortFlag = true ↔ mgr.abort.abortFlag = true ∨ (mgr.conflict.possibleCycle = true ∧
        toLex (req.remoteTimestamp, req.remoteId.num) < mgr.age) := by
  have inside := CallFrame.inside_of_inTransaction running.1
  simp only [notifyReceiveNack, inside, ↓reduceIte, getTimestamp_inside inside, bind_eq_ok,
    Except.ok.injEq, exists_eq_left', reactToNack, cda.stalls, cda.timestamps] at received
  obtain ⟨⟨returned, middle⟩, reacted, received⟩ := received
  have flag : next.abort = middle.abort := by
    repeat' split at received
    all_goals rw [← pure_eq_ok.mp received]
  rw [flag]
  change mgr.noted.receiveNackTimestamp _ req = _ at reacted
  unfold receiveNackTimestamp at reacted
  split at reacted
  · next suspects =>
    simp only [bind_eq_ok, show mgr.noted.isUnrollingLog = false from running.2, Bool.false_eq_true,
      ↓reduceIte] at reacted
    obtain ⟨older, compared, reacted⟩ := reacted
    have order := isRemoteOlder_iff compared
    split at reacted
    · next isOlder =>
      simp only [run_eq_ok, Prod.mk.injEq] at reacted
      obtain ⟨_, signalled, -, rfl⟩ := reacted
      obtain ⟨-, -, _, _, rfl, flagged, -⟩ := setAbortFlag_ok signalled
      exact iff_of_true flagged (.inr ⟨suspects, order.mp isOlder⟩)
    · next notOlder =>
      simp only [pure_eq_ok, Prod.mk.injEq] at reacted
      rw [← reacted.2]
      exact ⟨.inl, fun flagged => flagged.resolve_right fun both => notOlder (order.mpr both.2)⟩
  · next calm =>
    simp only [pure_eq_ok, Prod.mk.injEq] at reacted
    rw [← reacted.2]
    exact ⟨.inl, fun flagged => flagged.resolve_right fun both => calm both.1⟩

section

variable (sound : mgr.Sound) (running : mgr.IsRunning) (source : req.remoteId.type = .l1Cache)
  (other : req.remoteId.num ≠ mgr.version)
  (named : req.remotePriority ≠ 0 ∨ makeLineAddress n mgr.conflict.sentNackAddr ≠ 0)

include sound running source other named

/-- The signal of a nack is recorded, unless it concerns the block at address 0 and the nack has the
priority 0. -/
theorem Sound.receiveNack_signals :
    ∃ next, mgr.setAbortFlag (nackAbortSignal req mgr.conflict.sentNackAddr) = .ok next := by
  cases flag : mgr.abort.abortFlag with
  | true =>
    exact ⟨mgr, setAbortFlag_again (CallFrame.inside_of_inTransaction running.1) running.2 flag _⟩
  | false =>
    refine sound.setAbortFlag_total running flag ?_
    have recorded := @record_ofOther params req mgr.version
      (makeLineAddress n mgr.conflict.sentNackAddr) mgr.abort (req.remotePriority ≠ 0)
      (sound.cause flag) source other (by simpa using named)
    exact recorded

/-- Noting a nack succeeds. -/
theorem notifyReceiveNack_total (cda : IsCdaBase params) :
    ∃ next, mgr.notifyReceiveNack req = .ok next := by
  have inside := CallFrame.inside_of_inTransaction running.1
  have reacts : ∃ after, mgr.noted.receiveNackTimestamp mgr.conflict.timestamp req =
      .ok (false, after) := by
    have still : mgr.noted.Sound := { sound with }
    obtain ⟨after, signalled⟩ := still.receiveNack_signals running source other named
    obtain ⟨older, compared⟩ := @isRemoteOlder_total _ _ mgr.noted _ other mgr.conflict.timestamp
    have calm : mgr.noted.isUnrollingLog = false := running.2
    simp only [receiveNackTimestamp, compared, signalled, calm, ok_bind]
    split
    · split <;> exact ⟨_, rfl⟩
    · exact ⟨_, rfl⟩
  obtain ⟨after, reacted⟩ := reacts
  rw [noted] at reacted
  simp only [notifyReceiveNack, inside, ↓reduceIte, getTimestamp_inside inside, ok_bind,
    reactToNack, cda.stalls, cda.timestamps, reacted]
  split
  · exact ⟨_, rfl⟩
  · split <;> exact ⟨_, rfl⟩

end

end TransactionInterfaceManager

/-- With lazy versioning every event of a core keeps the age. -/
theorem Core.ageStep_of_take {params : HTMParams} {n : Nat} {core next : Core params n}
    {event : CoreEvent n} (lazy : params.lazyVm = true) (sound : core.mgr.Sound)
    (taken : core.take event = .ok next) :
    TransactionInterfaceManager.AgeStep core.mgr next.mgr := by
  obtain ⟨admitted, stepped⟩ := Core.system_step.mp taken
  rcases Core.step_cases sound admitted stepped with call | cycle
  · exact .of_call call
  · exact .of_lifeCycle lazy sound cycle

end Gem5.Ruby
