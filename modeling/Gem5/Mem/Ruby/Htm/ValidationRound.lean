import Gem5.Foundation.CyclicOrder
import Gem5.Mem.Ruby.Htm.ManagerCalls

/-!
# The round of validations

A consumer validates its received blocks one after the other, in address order and
around the end.  This module says what each call of the manager does to the blocks still
to be validated and to the scheduled validation: nothing (`RoundKept`), the reception of
another block (`Reception`), or the answer to a validation (`NextRound`).
-/

namespace Gem5.Ruby

open Foundation

namespace TransactionInterfaceManager

variable {params : HTMParams} {n : Nat} {mgr next : TransactionInterfaceManager params n}

/-- What the reception of the block at `addr` does. -/
structure Reception (mgr next : TransactionInterfaceManager params n) (addr : Addr) : Prop where
  absent : addr ∉ mgr.buffer
  blocks : ∀ other, other ∈ next.buffer ↔ other = addr ∨ other ∈ mgr.buffer
  received : ∀ other, mgr.forwarding.allReceivedData.contains other = true ∨ other = addr →
    next.forwarding.allReceivedData.contains other = true
  requested : ∃ uid, mgr.packetUid addr = .ok uid ∧ mgr.currentHtmUid ≤ uid
  event : (next.forwarding.validationEvent = mgr.forwarding.validationEvent ∧
      (next.Live → mgr.isConsumer = true)) ∨
    (mgr.isConsumer = false ∧ next.forwarding.validationEvent = some addr)

/-- What the answer to the validation of `addr` does: the validation of the next block is
scheduled, unless there is none or the transaction stops. -/
structure NextRound (mgr next : TransactionInterfaceManager params n) (addr : Addr) : Prop where
  held : addr ∈ mgr.buffer
  blocks : ∀ other, other ∈ next.buffer → other ∈ mgr.buffer
  received : next.forwarding.allReceivedData = mgr.forwarding.allReceivedData
  event : (next.forwarding.validationEvent = mgr.forwarding.validationEvent ∧
      (next.Live → next.isConsumer = false)) ∨
    (mgr.forwarding.validationEvent = none ∧ ∃ following,
      next.forwarding.validationEvent = some following ∧
      next.forwarding.allReceivedData.contains following = true ∧
      CyclicNext {other | other ∈ next.buffer} addr following)

/-- What a call that answers no validation does to the round. -/
inductive RoundStep (mgr next : TransactionInterfaceManager params n) : Prop where
  | kept (kept : RoundKept mgr next)
  | stopped (kept : EventKept mgr next) (dead : ¬ next.Live)
  | received {addr : Addr} (reception : Reception mgr next addr)

/-- Only received blocks are scheduled for validation. -/
def KnownEvent (mgr : TransactionInterfaceManager params n) : Prop :=
  ∀ addr, mgr.forwarding.validationEvent = some addr →
    mgr.forwarding.allReceivedData.contains addr = true

/-- Events that are kept stay known. -/
theorem KnownEvent.of_kept (known : mgr.KnownEvent) (kept : EventKept mgr next) :
    next.KnownEvent := by
  intro addr scheduled
  rw [kept.received]
  exact known addr (kept.event ▸ scheduled)

/-- A step keeps the event known. -/
theorem KnownEvent.of_step (known : mgr.KnownEvent) (step : RoundStep mgr next) :
    next.KnownEvent := by
  cases step with
  | kept kept => exact known.of_kept kept.toEventKept
  | stopped kept => exact known.of_kept kept
  | received reception =>
    intro addr scheduled
    rcases reception.event with ⟨same, -⟩ | ⟨-, now⟩
    · exact reception.received addr (.inl (known addr (same ▸ scheduled)))
    · exact reception.received addr (.inr (Option.some.inj (scheduled.symm.trans now)))

/-- The next round schedules a known event. -/
theorem KnownEvent.of_nextRound {addr : Addr} (known : mgr.KnownEvent)
    (round : NextRound mgr next addr) : next.KnownEvent := by
  intro other scheduled
  rcases round.event with ⟨same, -⟩ | ⟨-, following, now, listed, -⟩
  · rw [round.received]
    exact known other (same ▸ scheduled)
  · exact Option.some.inj (scheduled.symm.trans now) ▸ listed

section Round

variable {addr : Addr}

/-- A replacement aborts a transaction whose consumed block it removes. -/
theorem RoundStep.of_xactReplacement {source : MachineID} {capacity dataStale spec : Bool}
    (calm : mgr.inTransaction = true → mgr.isUnrollingLog = false)
    (replaced : mgr.xactReplacement addr source capacity dataStale spec = .ok next) :
    RoundStep mgr next := by
  rcases xactReplacement_call replaced with quiet | replaced
  · exact .kept (.of_sameReceiver quiet.same)
  · simp only [replaceConsumedBlock, run_eq_ok] at replaced
    obtain ⟨-, -, doomed, isDoomed, replaced⟩ := replaced
    split at replaced
    · next ended =>
      rw [pure_eq_ok] at replaced
      subst replaced
      refine .stopped ⟨rfl, rfl⟩ fun live => ?_
      -- The block is dropped without an abort only when no transaction runs.
      have running : mgr.inTransaction = true := live.1
      have flag : mgr.abort.abortFlag = false := live.unflagged
      have level : mgr.isUnrollingLog = false := calm running
      simp only [TransactionInterfaceManager.isDoomed, isUnrollingLog] at isDoomed level
      simp only [level, Bool.false_eq_true, ↓reduceIte, pure_eq_ok, flag] at isDoomed
      simp only [inTransaction] at running
      simp [← isDoomed, inTransaction, running] at ended
    · simp only [bind_eq_ok] at replaced
      obtain ⟨_, -, signalled⟩ := replaced
      have same := (QuietCall.of_setAbortFlag signalled).same
      refine .stopped ⟨same.received, same.event⟩ fun live => ?_
      obtain ⟨-, -, _, _, rfl, flagged, -⟩ := setAbortFlag_ok signalled
      exact Bool.false_ne_true (live.unflagged.symm.trans flagged)

/-- A validation is scheduled for a received block, when none is. -/
theorem scheduleValidation_ok (scheduled : mgr.scheduleValidationOfConsumedData addr = .ok next) :
    mgr.forwarding.validationEvent = none ∧ addr ∈ mgr.buffer ∧
      mgr.forwarding.allReceivedData.contains addr = true ∧
      next = { mgr with forwarding := { mgr.forwarding with validationEvent := some addr } } := by
  simp only [scheduleValidationOfConsumedData, run_eq_ok] at scheduled
  obtain ⟨free, held, received, -, rfl⟩ := scheduled
  exact ⟨free, Std.ExtTreeMap.mem_iff_contains.mpr held, received, rfl⟩

private theorem NextRound.of_scheduleNextValidation {before : TransactionInterfaceManager params n}
    (scheduled : mgr.scheduleNextValidation addr = .ok next) (held : addr ∈ before.buffer)
    (blocks : ∀ other, other ∈ mgr.buffer → other ∈ before.buffer)
    (kept : EventKept before mgr) : NextRound before next addr := by
  unfold scheduleNextValidation at scheduled
  repeat' split at scheduled
  · next aborting =>
    rw [pure_eq_ok] at scheduled
    subst scheduled
    refine ⟨held, blocks, kept.received, .inl ⟨kept.event, fun live => ?_⟩⟩
    simp [live.2] at aborting
  · next following found =>
    obtain ⟨free, listed, known, rfl⟩ := scheduleValidation_ok scheduled
    refine ⟨held, blocks, kept.received, .inr ⟨kept.event ▸ free, following, rfl, known, ?_⟩⟩
    unfold nextToValidate at found
    split at found
    · next above =>
      obtain rfl := Option.some.inj found
      exact .of_getKeyGT? above
    · next noneAbove => exact .of_head? noneAbove found
  · simp at scheduled

/-- Both answers to a validation, a nack with data and data with permissions, end a round. -/
theorem NextRound.of_endValidation {source : MachineID} {timestamp : Cycles} {isNack : Bool}
    (held : addr ∈ mgr.buffer) (ended : mgr.endValidation addr source timestamp isNack = .ok next) :
    NextRound mgr next addr := by
  unfold endValidation at ended
  split at ended
  · unfold repeatValidation at ended
    split at ended
    · simp only [bind_eq_ok] at ended
      obtain ⟨_, nacked, ended⟩ := ended
      have same := SameReceiver.of_conflictFrame (.of_notifyReceiveNack nacked)
      exact .of_scheduleNextValidation ended held (fun _ listed => same.buffer ▸ listed)
        ⟨same.received, same.event⟩
    · exact .of_scheduleNextValidation ended held (fun _ listed => listed) ⟨rfl, rfl⟩
  · have erased : ∀ other, other ∈ mgr.buffer.erase addr → other ∈ mgr.buffer :=
      fun _ listed => (Std.ExtTreeMap.mem_erase.mp listed).2
    unfold completeValidation at ended
    dsimp only at ended
    split at ended
    · next validated =>
      rw [pure_eq_ok] at ended
      subst ended
      simp only [Bool.and_eq_true, Bool.not_eq_true'] at validated
      exact ⟨held, erased, rfl, .inl ⟨rfl, fun _ => validated.1⟩⟩
    · split at ended
      · next aborting =>
        rw [pure_eq_ok] at ended
        subst ended
        exact ⟨held, erased, rfl, .inl ⟨rfl, fun live => absurd aborting (by simp [live.2])⟩⟩
      · simp at ended

/-- A kept round may come first. -/
theorem NextRound.of_kept {middle : TransactionInterfaceManager params n}
    (kept : RoundKept mgr middle) (round : NextRound middle next addr) :
    NextRound mgr next addr where
  held := (kept.blocks addr).mp round.held
  blocks other listed := (kept.blocks other).mp (round.blocks other listed)
  received := round.received.trans kept.received
  event := by
    rw [← kept.event]
    exact round.event

/-- The event is over when its request is taken for accepted, and scheduled again otherwise. -/
theorem fireValidation_event {status : RequestStatus}
    (scheduled : mgr.forwarding.validationEvent = some addr) (live : mgr.isAborting = false)
    (fired : mgr.fireValidation status = .ok next) : next.forwarding.validationEvent =
      if status = .issued ∨ status = .aliased then none else some addr := by
  have calm : isAborting { mgr with
      forwarding := { mgr.forwarding with validationEvent := none } } = false := live
  simp only [fireValidation, scheduled, calm, Bool.false_eq_true, ↓reduceIte] at fired
  cases status
  case issued => exact pure_eq_ok.mp fired ▸ rfl
  case aliased => exact pure_eq_ok.mp fired ▸ rfl
  all_goals
    obtain ⟨-, -, -, rfl⟩ := scheduleValidation_ok fired
    rfl

/-- Firing keeps the event known. -/
theorem KnownEvent.of_fireValidation {status : RequestStatus} (known : mgr.KnownEvent)
    (fired : mgr.fireValidation status = .ok next) : next.KnownEvent := by
  unfold fireValidation at fired
  split at fired
  · exact pure_eq_ok.mp fired ▸ known
  · next scheduled =>
    dsimp only at fired
    split at fired
    · exact pure_eq_ok.mp fired ▸ by simp [KnownEvent]
    · cases status
      case issued => exact pure_eq_ok.mp fired ▸ by simp [KnownEvent]
      case aliased => exact pure_eq_ok.mp fired ▸ by simp [KnownEvent]
      all_goals
        obtain ⟨-, -, listed, rfl⟩ := scheduleValidation_ok fired
        intro other again
        exact Option.some.inj again ▸ listed

variable {data : DataBlock n}

/-- A validation whose line is still in the cache ends a round; any other one is skipped. -/
theorem validateConsumedData_round {sender : MachineID} {timestamp : Cycles} {isNack : Bool}
    (validated : mgr.validateConsumedData addr sender data timestamp isNack = .ok next) :
    (mgr.dataCache[makeLineAddress n addr]? = none ∧ next = mgr) ∨ NextRound mgr next addr := by
  unfold validateConsumedData at validated
  split at validated
  · next missing => exact .inl ⟨missing, (pure_eq_ok.mp validated).symm⟩
  · simp only [validateDataBlock, run_eq_ok] at validated
    obtain ⟨⟨_, _, last⟩, ⟨-, -, compared⟩, -, rfl⟩ := validated
    split at compared
    · simp at compared
    · next buffered found =>
      simp only [run_eq_ok, Prod.mk.injEq] at compared
      obtain ⟨-, checked, checking, ended, ending, -, -, rfl⟩ := compared
      have held : addr ∈ mgr.buffer := Std.ExtTreeMap.mem_iff_isSome_getElem?.mpr (by simp [found])
      have kept := (RoundKept.of_updateBlock held).trans
        (.of_sameReceiver (QuietCall.of_abortIfInvalid checking).same)
      have round := NextRound.of_endValidation ((kept.blocks addr).mpr held) ending
      exact .inr { NextRound.of_kept kept round with }

/-- A nack without usable data ends a transaction that has consumed the block. -/
theorem failedCallback_dead {lastAbortHtmUid : Nat} {nack : RemoteRequest}
    (forwarding : params.allowEarlyValueFwd = true)
    (consumed : mgr.isBlockConsumed nack.addr = true)
    (failed : mgr.failedCallback lastAbortHtmUid nack = .ok next) : ¬ next.Live := by
  intro live
  simp only [failedCallback, forwarding, consumed, Bool.and_self, ↓reduceIte] at failed
  split at failed
  · next aborting =>
    have calm := live.2
    rw [← pure_eq_ok.mp failed, aborting] at calm
    simp at calm
  · obtain ⟨-, -, _, _, rfl, flagged, -⟩ := setAbortFlag_ok failed
    exact Bool.false_ne_true (live.unflagged.symm.trans flagged)

/-- A buffered block; the first one of a running transaction is scheduled for validation. -/
theorem consumeData_round {nack : RemoteRequest} (consumed : mgr.consumeData nack data = .ok next) :
    (∀ other, other ∈ next.buffer ↔ other = nack.addr ∨ other ∈ mgr.buffer) ∧
    (∀ other, mgr.forwarding.allReceivedData.contains other = true ∨ other = nack.addr →
      next.forwarding.allReceivedData.contains other = true) ∧
    ((next.forwarding.validationEvent = mgr.forwarding.validationEvent ∧
        (next.Live → mgr.isConsumer = true)) ∨
      (mgr.isConsumer = false ∧ next.forwarding.validationEvent = some nack.addr)) := by
  have blocks : ∀ other, other ∈ (mgr.bufferForwardedData nack.addr data).buffer ↔
      other = nack.addr ∨ other ∈ mgr.buffer := fun other =>
    Std.ExtTreeMap.mem_insertIfNew.trans (or_congr_left (compare_eq_iff_eq.trans eq_comm))
  have received : ∀ other, mgr.forwarding.allReceivedData.contains other = true ∨
      other = nack.addr →
      (mgr.bufferForwardedData nack.addr data).forwarding.allReceivedData.contains other =
        true := by
    rintro other (before | rfl)
    · simp [bufferForwardedData, before]
    · simp [bufferForwardedData]
  obtain ⟨_, _, _, event, rfl, ⟨consumer, -, same⟩ | ⟨nothing, -, ⟨aborting, same⟩ | scheduled⟩⟩ :=
    consumeData_ok consumed
  · exact ⟨blocks, received, .inl ⟨same, fun _ => consumer⟩⟩
  · refine ⟨blocks, received, .inl ⟨same, fun live => ?_⟩⟩
    exact absurd (aborting.symm.trans live.2) (by simp)
  · exact ⟨blocks, received, .inr ⟨nothing, scheduled⟩⟩

/-- A nack with data is received, and the access that missed is performed on it. -/
theorem consumeForwardedData_round {nack : Nack n} {access : Access} {issues : Addr → Bool}
    (consumed : mgr.consumeForwardedData nack data access issues = .ok next) :
    Reception mgr next nack.addr := by
  simp only [consumeForwardedData, bind_eq_ok] at consumed
  obtain ⟨noted, notified, spec⟩ := consumed
  obtain ⟨marked, taker, consumer, parts⟩ := notifyForwardedData_ok notified
  -- Only the middle part, `consumeData`, concerns the received blocks.
  have before := RoundKept.of_sameReceiver
    (parts.marking.same.trans (.of_takeNackPriority parts.taking))
  have after := parts.limits.access.trans (.of_specCallback spec)
  obtain ⟨blocks, received, event⟩ := consumeData_round parts.consuming
  refine ⟨fun listed => ?_, fun other => ?_, fun other known => ?_, parts.requested, ?_⟩
  · have known : mgr.buffer.contains nack.addr = true := Std.ExtTreeMap.mem_iff_contains.mp listed
    exact Bool.false_ne_true (parts.absent.symm.trans known)
  · rw [after.round.blocks, blocks, before.blocks]
    rfl
  · rw [after.round.received]
    refine received other ?_
    rwa [before.received]
  · rw [after.round.event]
    rcases event with ⟨same, waits⟩ | ⟨nothing, scheduled⟩
    · exact .inl ⟨same.trans before.event, fun live =>
        before.isConsumer.symm.trans (waits (live.of_call after.call))⟩
    · exact .inr ⟨before.isConsumer.symm.trans nothing, scheduled⟩

end Round

end TransactionInterfaceManager

end Gem5.Ruby
