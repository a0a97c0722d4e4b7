import Gem5.Mem.Ruby.Htm.ConflictResolution

/-!
# Power transactions

Under the two power policies a transaction in power mode should win every conflict
with one that is not, and the blocks it forwards should be usable.  The first holds
except where `ncNotProducer` replaces the verdict of `chooseWinnerPriority`: a power
transaction always has the priority NC, so a requester with any other priority makes
it lose.  The second never holds with numeric priorities and a cycle-solving strategy,
because the nack of a power transaction carries NC and NC is never above the priority
of the receiver.
-/

namespace Gem5.HTMParams

variable {params : HTMParams}

variable (policy : params.isPowerTMPolicy = true)

include policy

private theorem not_stalls_of_power : params.isRequesterStallsPolicy = false := by
  simp only [isPowerTMPolicy, Bool.or_eq_true, decide_eq_true_eq] at policy
  rcases policy with policy | policy <;>
    simp [isRequesterStallsPolicy, policy, HtmPolicy.getResolutionPolicy_eq]

private theorem loses_or_wins_of_power : params.isReqLosesPolicy = true ∨
      (params.isReqLosesPolicy = false ∧ params.isReqWinsPolicy = true) := by
  simp only [isPowerTMPolicy, Bool.or_eq_true, decide_eq_true_eq] at policy
  rcases policy with policy | policy <;>
    simp [isReqLosesPolicy, isReqWinsPolicy, policy, HtmPolicy.getResolutionPolicy_eq]

private theorem not_committerWins_of_power : params.conflictResolution ≠ .committerWins := by
  simp only [isPowerTMPolicy, Bool.or_eq_true, decide_eq_true_eq] at policy
  rcases policy with policy | policy <;> simp [policy]

end Gem5.HTMParams

namespace Gem5.Ruby

open Foundation TransactionInterfaceManager

namespace TransactionInterfaceManager

variable {params : HTMParams} {n : Nat} {mgr next : TransactionInterfaceManager params n}
variable {req : RemoteRequest} {store : Bool}

/-- The verdict on a remote store or load. -/
def shouldNack (mgr : TransactionInterfaceManager params n) (store : Bool) (req : RemoteRequest) :
    Checked (Bool × TransactionInterfaceManager params n) :=
  if store then mgr.shouldNackStore req else mgr.shouldNackLoad req

/-- The block is in the write set, or, for a store, in the read set. -/
def Conflicts (mgr : TransactionInterfaceManager params n) (store : Bool) (addr : Addr) : Prop :=
  if store then mgr.existStoreConflict addr = .ok true else mgr.checkWriteSignature addr = true

/-- Under a power policy a conflict is decided by `chooseWinnerPriority` alone. -/
theorem shouldNack_power (policy : params.isPowerTMPolicy = true) (remote : mgr.FromOther req)
    (running : mgr.IsRunning) (live : mgr.abort.abortFlag = false)
    (trans : isTransactionalRequest req.remoteTrans = true)
    (conflict : mgr.Conflicts store req.addr) :
    mgr.shouldNack store req = (do
      let wins ← mgr.chooseWinnerPriority req.remotePriority req.remoteSwPriority
      if wins then return (true, mgr)
      else do
        let aborted ← mgr.setAbortFlag (req.abortSignal req.remoteSwPriority)
        return (false, aborted)) := by
  have stalls := HTMParams.not_stalls_of_power policy
  have committer := HTMParams.not_committerWins_of_power policy
  have asked : mgr.shouldNack store req = mgr.shouldNackRemoteRequest req := by
    cases store with
    | true =>
      have conflict : mgr.existStoreConflict req.addr = .ok true := conflict
      simp only [shouldNack, ↓reduceIte, shouldNackStore, assertThat_of remote.aligned,
        assertThat_of remote.source, assertThat_of remote.issued, conflict, ok_bind]
      simp [remote.source, stalls]
    | false =>
      have conflict : mgr.checkWriteSignature req.addr = true := conflict
      simp only [shouldNack, Bool.false_eq_true, ↓reduceIte, shouldNackLoad,
        assertThat_of remote.aligned, assertThat_of remote.source, assertThat_of remote.issued,
        conflict, ok_bind]
  rw [asked]
  simp only [shouldNackRemoteRequest, running.isAbortingOrDoomed, live, ok_bind,
    assertThat_of remote.aligned, resolveConflict, stalls, committer, trans, notifySendNack,
    Bool.false_eq_true, ↓reduceIte, bind_assoc, pure_bind]

/-- A requester to which `ncNotProducer` makes a transaction of priority NC lose. -/
def YieldsTo (params : HTMParams) (priority : Priority) : Prop :=
  params.prioMechanism = .numeric ∧ params.ncNotProducer = true ∧ priority ≠ ncPrioValue

instance (params : HTMParams) (priority : Priority) : Decidable (YieldsTo params priority) :=
  inferInstanceAs (Decidable (_ ∧ _ ∧ _))

/-- The priority of a power transaction is NC. -/
theorem Sound.prio_of_powered (sound : mgr.Sound) (powered : mgr.conflict.powered = true) :
    mgr.hwTransPrio = ncPrioValue :=
  sound.prio.resolve_right fun moved => by simp [powered] at moved

/-- A power transaction wins against one that is not, unless it yields to its priority. -/
theorem Sound.chooseWinner_power (sound : mgr.Sound) (policy : params.isPowerTMPolicy = true)
    (powered : mgr.conflict.powered = true) (priority : Priority) :
    mgr.chooseWinnerPriority priority false = .ok (decide (¬ YieldsTo params priority)) := by
  have prio := sound.prio_of_powered powered
  cases mechanism : params.prioMechanism with
  | numeric =>
    cases option : params.ncNotProducer <;> by_cases other : priority = ncPrioValue <;>
      simp [chooseWinnerPriority, mechanism, winsByPriority, policy, getSwTransactionPriority,
        powered, getTransactionPriority, prio, YieldsTo, option, other,
        @eq_comm _ ncPrioValue priority, pure, Except.pure]
  | noPrio =>
    rcases HTMParams.loses_or_wins_of_power policy with loses | ⟨notLoses, wins⟩
    · simp [chooseWinnerPriority, mechanism, policy, loses, YieldsTo, pure, Except.pure]
    · simp [chooseWinnerPriority, mechanism, policy, notLoses, wins, powered, YieldsTo, pure,
        Except.pure]

/-- A transaction that is not in power mode loses against one that is. -/
theorem chooseWinner_againstPower (policy : params.isPowerTMPolicy = true)
    (ordinary : mgr.conflict.powered = false) (priority : Priority) :
    mgr.chooseWinnerPriority priority true = .ok false := by
  cases mechanism : params.prioMechanism with
  | numeric =>
    simp [chooseWinnerPriority, mechanism, winsByPriority, policy, getSwTransactionPriority,
      ordinary, pure, Except.pure]
  | noPrio =>
    rcases HTMParams.loses_or_wins_of_power policy with loses | ⟨notLoses, wins⟩
    · simp [chooseWinnerPriority, mechanism, policy, loses, ordinary, assertThat, pure, Except.pure]
    · simp [chooseWinnerPriority, mechanism, policy, notLoses, wins, ordinary, pure, Except.pure]

/-- A power transaction never aborts in order not to forward. -/
theorem Asked.eq_of_power {forwards : Bool} (powered : mgr.conflict.powered = true)
    (asked : mgr.Asked req forwards next) : next = mgr := by
  cases asked with
  | silent => rfl
  | refused ordinary => simp [powered] at ordinary
  | judged => rfl

/-- Forwarding the block leaves the abort state alone. -/
theorem addConsumer_abort {data : DataBlock n} (added : mgr.addConsumer req = .ok (data, next)) :
    next.abort = mgr.abort := by
  simp only [addConsumer, recordSentData, run_eq_ok, Prod.mk.injEq] at added
  obtain ⟨_, -, _, switched, -, _, -, -, _, -, _, ⟨-, _, -, rfl⟩, -, rfl⟩ := added
  obtain ⟨_, rfl⟩ := switchHwPrio_ok switched
  rfl

variable {nack : Nack n}

/-- What becomes of a live power holder that nacks: the requester gets a nack and the holder,
whether it forwards or not, stays live. -/
def StaysLive (mgr : TransactionInterfaceManager params n) (req : RemoteRequest) : Prop :=
  ∀ line response next, answer req line (true, mgr) = .ok (response, next) →
    response.isSome = true ∧ next.isAborting = false

private theorem staysLive_of_power (powered : mgr.conflict.powered = true)
    (live : mgr.abort.abortFlag = false) : mgr.StaysLive req := by
  intro line response next answered
  simp only [answer, ↓reduceIte, run_eq_ok, Prod.mk.injEq] at answered
  obtain ⟨⟨nack, _⟩, sent, rfl, rfl⟩ := answered
  rcases sendInvNack_cases sent with ⟨-, asked⟩ | ⟨_, _, -, -, -, -, added, -⟩
  · simp [isAborting, asked.eq_of_power powered, live]
  · simp [isAborting, addConsumer_abort added, live]

section

variable (sound : mgr.Sound) (policy : params.isPowerTMPolicy = true) (remote : mgr.FromOther req)
  (running : mgr.IsRunning) (live : mgr.abort.abortFlag = false)
  (trans : isTransactionalRequest req.remoteTrans = true) (conflict : mgr.Conflicts store req.addr)

include sound policy remote running live trans conflict

/-- A live ordinary holder aborts at the request of a power transaction. -/
theorem Sound.aborts_for_power (ordinary : mgr.conflict.powered = false)
    (powered : req.remoteSwPriority = true) :
    ∃ next, mgr.shouldNack store req = .ok (false, next) ∧ next.isAborting = true := by
  obtain ⟨next, signalled⟩ := sound.setAbortFlag_total running live
    (@record_ofOther params req mgr.version (makeLineAddress n req.addr) mgr.abort true
      (sound.cause live) remote.source remote.other (.inl rfl))
  refine ⟨next, ?_, ?_⟩
  · rw [shouldNack_power policy remote running live trans conflict, powered,
      chooseWinner_againstPower policy ordinary, ok_bind]
    simp only [Bool.false_eq_true, ↓reduceIte, signalled, ok_bind]
    rfl
  · obtain ⟨-, -, _, _, rfl, flagged, -, -⟩ := setAbortFlag_ok signalled
    simpa [isAborting, flagged, inTransaction] using running.1

end

/-- Nothing is below NC. -/
theorem ncPrioValue_le (priority : Priority) : ncPrioValue ≤ priority :=
  Int32.minValue_le priority

private theorem Sound.getTransactionPriority_power (sound : mgr.Sound)
    (powered : mgr.conflict.powered = true) : mgr.getTransactionPriority = ncPrioValue := by
  unfold getTransactionPriority
  split
  · rfl
  · exact sound.prio_of_powered powered

/-- Numeric priorities with the abort strategy for cycles, over forwarding. -/
structure IsPowerForwarding (params : HTMParams) : Prop where
  policy : params.conflictResolution = .woperTm
  mechanism : params.fwdMechanism = .wnDm
  priorities : params.prioMechanism = .numeric
  strategy : params.fwdCycleSolveStrategy = .abort

/-- Under a requester-loses policy the nack of another core aborts a live transaction, unless it
answers a request of the transaction that aborted last. -/
theorem Sound.failedCallback_aborts {uid : Nat} (sound : mgr.Sound) (lastAbortHtmUid : Nat)
    (nack : RemoteRequest) (policy : params.isReqLosesPolicy = true)
    (stalls : params.isRequesterStallsPolicy = false) (running : mgr.IsRunning)
    (live : mgr.abort.abortFlag = false) (source : nack.remoteId.type = .l1Cache)
    (other : nack.remoteId.num ≠ mgr.version) (nonzero : makeLineAddress n nack.addr ≠ 0)
    (own : mgr.packetUid nack.addr = .ok uid) (current : uid ≠ lastAbortHtmUid) :
    ∃ next, mgr.failedCallback lastAbortHtmUid nack = .ok next ∧ next.isAborting = true := by
  have inside := CallFrame.inside_of_inTransaction running.1
  unfold failedCallback
  split
  · -- the nack of a validation
    have calm : ¬ mgr.isAborting = true := by simp [isAborting, live]
    rw [if_neg calm]
    obtain ⟨next, signalled⟩ := @Sound.setAbortFlag_total _ _ mgr
      { addr := nack.addr, abortSource := nack.remoteId, remoteTrans := nack.remoteTrans
        remotePriority := 0, wset := true } sound running live (by
        simp [AbortSignal.record, sound.cause live, other, source, nonzero, pure, Except.pure])
    refine ⟨next, signalled, ?_⟩
    obtain ⟨-, -, _, _, rfl, flagged, -, -⟩ := setAbortFlag_ok signalled
    simpa [isAborting, flagged, inTransaction] using running.1
  · let marked := { mgr with conflict := { mgr.conflict with receivedNack := true } }
    have markedSound : marked.Sound := sound.of_call
      (.of_conflictFrame (.of_conflict rfl rfl id) fun _ => rfl)
    obtain ⟨next, signalled⟩ := markedSound.setAbortFlag_total running live
      (record_ofOther false (sound.cause live) source other (.inr nonzero))
    have aborts : next.isAborting = true := by
      obtain ⟨-, -, _, _, rfl, flagged, -, -⟩ := setAbortFlag_ok signalled
      simpa [isAborting, flagged, inTransaction, marked] using running.1
    have calm : mgr.isAborting = false := by simp [isAborting, live]
    refine ⟨{ next with conflict := { next.conflict with abortedByNack := true } }, ?_, aborts⟩
    rw [own, ok_bind, if_neg current]
    simp only [notifyReceiveNack, inside, ↓reduceIte, getTimestamp_inside inside, ok_bind,
      reactToNack, stalls, policy, Bool.true_or, Bool.false_eq_true, calm]
    rw [show setAbortFlag _ _ = _ from signalled, ok_bind]
    simp [aborts, pure, Except.pure]

end TransactionInterfaceManager

namespace Core

variable {params : HTMParams} {n : Nat} {holder requester : Core params n}

/-- In every conflict between a running power transaction and a running ordinary one: the power
holder nacks the ordinary requester and stays live exactly if it does not yield to its priority, and
the ordinary holder aborts at the request of the power transaction. -/
theorem power_wins_iff {req : RemoteRequest} {addr : Addr} {store : Bool}
    (policy : params.isPowerTMPolicy = true) (holds : (system params n).Reachable holder)
    (distinct : requester.mgr.version ≠ holder.mgr.version)
    (running : holder.mgr.inTransaction = true) (live : holder.mgr.isAborting = false)
    (requesting : requester.mgr.inTransaction = true) (aligned : addr = makeLineAddress n addr)
    (issued : requester.mgr.issueRequest addr = .ok req)
    (conflict : holder.mgr.Conflicts store addr) :
    (holder.mgr.conflict.powered = true → requester.mgr.conflict.powered = false →
      ((holder.mgr.shouldNack store req = .ok (true, holder.mgr) ∧ holder.mgr.StaysLive req) ↔
        ¬ YieldsTo params requester.mgr.getTransactionPriority)) ∧
    (holder.mgr.conflict.powered = false → requester.mgr.conflict.powered = true →
      ∃ next, holder.mgr.shouldNack store req = .ok (false, next) ∧ next.isAborting = true) := by
  have sound := sound_invariant.of_reachable holds
  have runs := sound.isRunning running
  have flag : holder.mgr.abort.abortFlag = false := by rwa [runs.isAborting] at live
  simp only [issueRequest, getOldestTimestamp, run_eq_ok] at issued
  obtain ⟨_, ⟨positive, rfl⟩, rfl⟩ := issued
  have transactional : isTransactionalRequest requester.mgr.getTransactionBit = true := by
    simp [getTransactionBit, requesting, isTransactionalRequest]
  constructor
  · intro powered ordinary
    rw [shouldNack_power policy ⟨aligned, rfl, distinct, positive⟩ runs flag transactional conflict,
      show requester.mgr.getSwTransactionPriority = false from ordinary,
      sound.chooseWinner_power policy powered, ok_bind]
    by_cases yields : YieldsTo params requester.mgr.getTransactionPriority
    · refine iff_of_false ?_ (not_not.mpr yields)
      rintro ⟨nacked, -⟩
      simp [yields] at nacked
    · refine iff_of_true ⟨?_, staysLive_of_power powered flag⟩ yields
      simp [yields, pure, Except.pure]
  · intro ordinary powered
    exact sound.aborts_for_power policy ⟨aligned, rfl, distinct, positive⟩ runs flag transactional
      conflict ordinary powered

/-- An ordinary transaction that has forwarded the block at 64 to core 2, so that its priority is no
longer NC. -/
def producerEvents : List (CoreEvent 64) :=
  writerEvents 64 false ++
    [.remoteLoad ⟨64, ⟨.l1Cache, 2⟩, 7, .trans, ncPrioValue, false⟩ ⟨true, false⟩]

/-- The power transaction that holds the block at 128 aborts at the load of the producer. -/
theorem power_losesToProducer :
    ∃ holder requester req next, (system powerForwarding 64).Reachable holder ∧
      (system powerForwarding 64).Reachable requester ∧ holder.mgr.conflict.powered = true ∧
      requester.mgr.conflict.powered = false ∧ holder.mgr.isAborting = false ∧
      holder.mgr.checkWriteSignature 128 = true ∧ requester.mgr.issueRequest 128 = .ok req ∧
      holder.mgr.shouldNack false req = .ok (false, next) ∧ next.isAborting = true := by
  simp only [exists_and_left]
  exact exists_reachable_pair (writerEvents 128 true) producerEvents 0 1 (by decide +kernel)

/-- The same power transaction nacks the load of a transaction that has not forwarded anything. -/
theorem power_winsAgainstReader :
    ∃ holder requester req, (system powerForwarding 64).Reachable holder ∧
      (system powerForwarding 64).Reachable requester ∧ requester.mgr.issueRequest 128 = .ok req ∧
      holder.mgr.shouldNack false req = .ok (true, holder.mgr) ∧ holder.mgr.StaysLive req := by
  obtain ⟨holder, holds, requester, requests, powered, ordinary, running, live, requesting, writer,
    distinct, prio, req, issued⟩ := exists_reachable_pair
      (P := fun holder requester : Core powerForwarding 64 =>
        holder.mgr.conflict.powered = true ∧ requester.mgr.conflict.powered = false ∧
        holder.mgr.inTransaction = true ∧ holder.mgr.isAborting = false ∧
        requester.mgr.inTransaction = true ∧ holder.mgr.checkWriteSignature 128 = true ∧
        requester.mgr.version ≠ holder.mgr.version ∧
        requester.mgr.getTransactionPriority = ncPrioValue ∧
        ∃ req, requester.mgr.issueRequest 128 = .ok req)
      (writerEvents 128 true) (writerEvents 64 false) 0 1 (by decide +kernel)
  have wins := (power_wins_iff (by decide) holds distinct running live requesting (by decide) issued
    (show holder.mgr.Conflicts false 128 from writer)).1 powered ordinary
  have nacks := wins.mpr fun yields => yields.2.2 prio
  exact ⟨holder, requester, req, holds, requests, issued, nacks⟩

/-- With numeric priorities and the abort strategy no block forwarded by a power transaction is ever
usable: for every live ordinary receiver and every nack with data a running power transaction sends,
answering a current request of the receiver, the nack is judged illegal; if the block is not at
address 0 and the request is not one of the transaction aborted last, the receiver aborts. -/
theorem powerForwarding_neverUsable {producer receiver : Core params n} {req : RemoteRequest}
    {line : LineStatus} {nack : Nack n} {after : TransactionInterfaceManager params n} {uid : Nat}
    (config : IsPowerForwarding params) (sends : (system params n).Reachable producer)
    (receives : (system params n).Reachable receiver)
    (distinct : producer.mgr.version ≠ receiver.mgr.version)
    (powered : producer.mgr.conflict.powered = true)
    (sent : producer.mgr.sendInvNack req line = .ok (nack, after))
    (running : receiver.mgr.inTransaction = true) (live : receiver.mgr.isAborting = false)
    (own : receiver.mgr.packetUid nack.addr = .ok uid)
    (current : receiver.mgr.currentHtmUid ≤ uid) (tbe : Option TBE) (pending : Pending) :
    ∃ judged, receiver.mgr.nackEvent nack tbe = .ok (.nack, judged) ∧
      (makeLineAddress n nack.addr ≠ 0 → uid ≠ receiver.lastAbortHtmUid →
        ∃ next, receiver.receiveNack nack tbe pending = .ok next ∧ next.mgr.isAborting = true) := by
  have receiverSound := sound_invariant.of_reachable receives
  have runs := receiverSound.isRunning running
  have flag : receiver.mgr.abort.abortFlag = false := by rwa [runs.isAborting] at live
  -- the nack of a power transaction carries the priority NC, whether it forwards data or not
  obtain ⟨priority, sender⟩ : nack.priority = ncPrioValue ∧
      nack.sender = ⟨.l1Cache, producer.mgr.version⟩ := by
    have sound := sound_invariant.of_reachable sends
    rcases sendInvNack_cases sent with ⟨made, -⟩ | ⟨_, _, made, -, may, -, added, rfl⟩
    all_goals
      simp only [plainNack, run_eq_ok] at made
      obtain ⟨_, -, rfl⟩ := made
    · exact ⟨sound.getTransactionPriority_power powered, rfl⟩
    · have frame := (AnswerCall.of_addConsumer may.inside added).call
      exact ⟨(sound.of_call frame).getTransactionPriority_power (frame.powered.trans powered), rfl⟩
  -- it is judged illegal, and the controller does not issue the request again
  have event : receiver.mgr.nackEvent nack tbe =
      .ok (.nack, receiver.mgr.getActionOnIllegalData.2) := by
    have enabled : params.allowEarlyValueFwd = true := by
      simp [HTMParams.allowEarlyValueFwd, config.mechanism]
    have illegal :
        receiver.mgr.isIllegalNack nack.addr nack.priority = .ok (true, receiver.mgr) := by
      have fresh : ¬ (uid < receiver.mgr.currentHtmUid ∨ receiver.mgr.isAborting = true) := by
        simp [live, current]
      have low : params.prioMechanism ≠ .noPrio ∧ params.fwdCycleSolveStrategy ≠ .noStrategy ∧
          (nack.priority ≤ receiver.mgr.hwTransPrio ∨
            (params.ncNotProducer = false ∧ nack.priority = ncPrioValue)) :=
        ⟨by simp [config.priorities], by simp [config.strategy],
          .inl (priority ▸ ncPrioValue_le receiver.mgr.hwTransPrio)⟩
      rw [isIllegalNack, own, ok_bind, if_neg fresh, if_pos low,
        assertThat_of (Or.inl enabled), ok_bind]
      rfl
    have action : receiver.mgr.getActionOnIllegalData.1 = .abort := by
      unfold getActionOnIllegalData
      split
      · rfl
      · simp [config.strategy]
    simp only [nackEvent, judgeNack, enabled, ↓reduceIte, illegal, ok_bind, illegalNackEvent]
    rw [show receiver.mgr.getActionOnIllegalData = (.abort, receiver.mgr.getActionOnIllegalData.2)
      from
      Prod.ext action rfl]
    rfl
  refine ⟨_, event, fun nonzero notAborted => ?_⟩
  obtain ⟨mark, judged⟩ : ∃ mark, receiver.mgr.getActionOnIllegalData.2 = { receiver.mgr with
      forwarding := { receiver.mgr.forwarding with discardFwdData := mark } } := by
    unfold getActionOnIllegalData
    repeat' split
    all_goals exact ⟨_, rfl⟩
  rw [judged] at event
  have judgedSound : Sound { receiver.mgr with
      forwarding := { receiver.mgr.forwarding with discardFwdData := mark } } :=
    receiverSound.of_call (.of_forwarding id fun _ clear => { clear with })
  have policy : params.isReqLosesPolicy = true := by
    simp [HTMParams.isReqLosesPolicy, config.policy, HtmPolicy.getResolutionPolicy_eq]
  have stalls : params.isRequesterStallsPolicy = false :=
    HTMParams.not_stalls_of_power (by simp [HTMParams.isPowerTMPolicy, config.policy])
  obtain ⟨next, failed, aborts⟩ := judgedSound.failedCallback_aborts receiver.lastAbortHtmUid
    nack.toRemote policy stalls runs flag (by simp [Nack.toRemote, sender])
      (by simp [Nack.toRemote, sender, distinct]) nonzero own
    notAborted
  refine ⟨{ receiver with mgr := next }, ?_, aborts⟩
  simp only [receiveNack, event, ok_bind, handleNack, update]
  rw [failed, ok_bind]
  rfl

/-- A transaction that has a load of the block at 128 outstanding. -/
def loaderEvents : List (CoreEvent 64) :=
  writerEvents 64 false ++ [.request 1 ⟨128, 8, false, fun _ => 0⟩]

/-- The power transaction forwards its block to the loader, which judges the nack illegal and
aborts. -/
theorem powerForwarding_abortsLoader :
    ∃ producer receiver req sent event next, (system powerForwarding 64).Reachable producer ∧
      (system powerForwarding 64).Reachable receiver ∧ producer.mgr.conflict.powered = true ∧
      receiver.mgr.conflict.powered = false ∧ receiver.mgr.isAborting = false ∧
      receiver.mgr.issueRequest 128 = .ok req ∧
      producer.mgr.sendInvNack req ⟨true, false⟩ = .ok sent ∧ sent.1.data.isSome = true ∧
      receiver.mgr.nackEvent sent.1 none = .ok event ∧ event.1 = .nack ∧
      receiver.receiveNack sent.1 none (.miss ⟨128, 8, false, fun _ => 0⟩ fun _ => false) =
        .ok next ∧ next.mgr.isAborting = true := by
  simp only [exists_and_left]
  exact exists_reachable_pair (writerEvents 128 true) loaderEvents 0 1 (by decide +kernel)

/-- The general statement at this pair of cores. -/
theorem powerForwarding_unusableByLoader :
    ∃ receiver nack, (system powerForwarding 64).Reachable receiver ∧
      receiver.mgr.currentHtmUid = 1 ∧ nack.data.isSome = true ∧
      ∃ judged, receiver.mgr.nackEvent nack none = .ok (.nack, judged) := by
  obtain ⟨producer, sends, receiver, receives, powered, running, live, distinct, current,
    ⟨nack, after⟩, sent, data, own⟩ := exists_reachable_pair
      (P := fun producer receiver : Core powerForwarding 64 =>
        producer.mgr.conflict.powered = true ∧ receiver.mgr.inTransaction = true ∧
        receiver.mgr.isAborting = false ∧ producer.mgr.version ≠ receiver.mgr.version ∧
        receiver.mgr.currentHtmUid = 1 ∧ ∃ sent, producer.mgr.sendInvNack
            ⟨128, ⟨.l1Cache, 1⟩, 5, .trans, ncPrioValue, false⟩ ⟨true, false⟩ = .ok sent ∧
          sent.1.data.isSome = true ∧ receiver.mgr.packetUid sent.1.addr = .ok 1)
      (writerEvents 128 true) loaderEvents 0 1 (by decide +kernel)
  obtain ⟨judged, illegal, -⟩ := powerForwarding_neverUsable ⟨rfl, rfl, rfl, rfl⟩ sends receives
    distinct powered sent running live own (by simp [current]) none
    (.miss ⟨128, 8, false, fun _ => 0⟩ fun _ => false)
  exact ⟨receiver, nack, receives, current, data, judged, illegal⟩

end Core

end Gem5.Ruby
