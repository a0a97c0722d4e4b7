import Gem5.Mem.Ruby.Htm.ForwardedData
import Gem5.Mem.Ruby.Htm.PowerTransactions

/-!
# The recorded causes of aborts

`setAbortFlag` derives the cause of an abort from thirteen positional arguments.  Each call
that marks a transaction is classified by the first signal it raises, and a signal names the
real reason exactly if its arguments agree with what happened: a remote transaction with
software priority, a consumed block that failed its validation, an eviction.  The calls that
pass such arguments are those of `AbortingCall.Reported`.
-/

namespace Gem5

/-- The causes that blame the capacity of a cache. -/
def AbortCause.isCapacity : AbortCause → Bool
  | .l0Capacity | .l1Capacity | .l2Capacity => true
  | _ => false

namespace Ruby

open Foundation

namespace AbortSignal

/-- No argument before the software priority decides the cause. -/
def isPlain (signal : AbortSignal) : Bool :=
  !signal.validation && !signal.specDepthOverflow && !signal.specMaxCapacityOverflow &&
    !signal.specWriteInFlight && !signal.specReadConflict && !signal.dataStale

/-- The arguments blame a cache: the L2, or a cache of the core `version`. -/
def Evicts (signal : AbortSignal) (version : Nat) : Prop :=
  signal.abortSource.type = .l2Cache ∨
    (signal.abortSource.num = version ∧
      (signal.abortSource.type = .l0Cache → signal.capacity = true))

/-- The arguments agree with what happened. -/
structure Names (signal : AbortSignal) (version : Nat) (power failed : Bool) (evicts : Prop) :
    Prop where
  validation : signal.validation = failed
  power : (signal.isPlain && signal.remoteSwPriority) = power
  eviction : signal.isPlain = true → signal.remoteSwPriority = false → signal.Evicts version →
    evicts

variable {signal : AbortSignal} {params : HTMParams} {version : Nat} {address : Addr}
  {before after : AbortState}

/-- The recorded cause, as far as the reasons are concerned. -/
theorem record_cause (recorded : signal.record params version address before = .ok after) :
    (after.abortCause = .conflictPower ↔ (signal.isPlain && signal.remoteSwPriority) = true) ∧
      (after.abortCause = .specValidation ↔ signal.validation = true) ∧
      (after.abortCause.isCapacity = true ↔
        signal.isPlain = true ∧ signal.remoteSwPriority = false ∧ signal.Evicts version) := by
  simp only [record, bind_eq_ok, assertThat_eq_ok] at recorded
  obtain ⟨-, -, recorded⟩ := recorded
  -- the arguments are plain if none of the first six tests fires
  iterate 6
    rcases early_return recorded with ⟨raised, rfl⟩ | ⟨unraised, recorded⟩
    · simp [isPlain, AbortCause.isCapacity, *]
  have plain : signal.isPlain = true := by simp [isPlain, *]
  have validation : signal.validation = false := by assumption
  rcases early_return recorded with ⟨raised, rfl⟩ | ⟨unraised, recorded⟩
  · simp [plain, raised, validation, AbortCause.isCapacity]
  simp only [plain, unraised, validation, Evicts, Bool.and_false, Bool.false_eq_true, iff_false,
    true_and]
  repeat' split at recorded
  all_goals simp only [run_eq_ok] at recorded
  all_goals grind [AbortCause.isCapacity]

/-- The recorded cause is the real reason exactly if the arguments agree with it. -/
theorem record_names_iff {power failed : Bool} {evicts : Prop}
    (recorded : signal.record params version address before = .ok after) :
    ((after.abortCause = .conflictPower ↔ power = true) ∧
      (after.abortCause = .specValidation ↔ failed = true) ∧
      (after.abortCause.isCapacity = true → evicts)) ↔
    signal.Names version power failed evicts := by
  obtain ⟨conflict, validated, capacity⟩ := record_cause recorded
  rw [conflict, validated, capacity, ← Bool.eq_iff_iff, ← Bool.eq_iff_iff]
  constructor
  · rintro ⟨remote, validation, eviction⟩
    exact ⟨validation, remote, fun plain ordinary blamed => eviction ⟨plain, ordinary, blamed⟩⟩
  · rintro ⟨validation, remote, eviction⟩
    exact ⟨remote, validation, fun ⟨plain, ordinary, blamed⟩ => eviction plain ordinary blamed⟩

end AbortSignal

namespace TransactionInterfaceManager

variable {params : HTMParams} {n : Nat} {mgr next : TransactionInterfaceManager params n}

/-- `isTransactionAbortedByRemotePower`, the power bit of the abort status. -/
def isTransactionAbortedByRemotePower (mgr : TransactionInterfaceManager params n) : Bool :=
  mgr.abort.abortFlag && mgr.abort.abortCause = .conflictPower

/-- Scheduling a validation touches neither the identity nor the abort state. -/
theorem scheduleValidation_abort {addr : Addr}
    (scheduled : mgr.scheduleValidationOfConsumedData addr = .ok next) :
    next.version = mgr.version ∧ next.abort = mgr.abort := by
  simp only [scheduleValidationOfConsumedData, run_eq_ok] at scheduled
  obtain ⟨-, -, -, -, rfl⟩ := scheduled
  exact ⟨rfl, rfl⟩

private theorem scheduleNextValidation_abort {addr : Addr}
    (scheduled : mgr.scheduleNextValidation addr = .ok next) :
    next.version = mgr.version ∧ next.abort = mgr.abort := by
  unfold scheduleNextValidation at scheduled
  split at scheduled
  · exact pure_eq_ok.mp scheduled ▸ ⟨rfl, rfl⟩
  · split at scheduled
    · exact scheduleValidation_abort scheduled
    · simp at scheduled

/-- A call that marks a live transaction, if at all, with one of the listed signals. -/
structure Marks (Signals : AbortSignal → Prop) (mgr next : TransactionInterfaceManager params n) :
    Prop where
  version : next.version = mgr.version
  abort : next.abort = mgr.abort ∨ (mgr.abort.abortFlag = false ∧ ∃ signal address,
    Signals signal ∧ signal.record params mgr.version address mgr.abort = .ok next.abort)

namespace Marks

variable {Signals : AbortSignal → Prop} {signal : AbortSignal}

private theorem refl (mgr : TransactionInterfaceManager params n) : Marks Signals mgr mgr :=
  ⟨rfl, .inl rfl⟩

private theorem imp {Others : AbortSignal → Prop} (marks : Marks Signals mgr next)
    (listed : mgr.abort.abortFlag = false → ∀ signal, Signals signal → Others signal) :
    Marks Others mgr next := by
  refine ⟨marks.version, ?_⟩
  rcases marks.abort with same | ⟨live, signal, address, raised, recorded⟩
  · exact .inl same
  · exact .inr ⟨live, signal, address, listed live signal raised, recorded⟩

/-- The first signal counts: once a cause is recorded it stays. -/
theorem trans {middle : TransactionInterfaceManager params n} (first : Marks Signals mgr middle)
    (second : Marks Signals middle next) : Marks Signals mgr next := by
  refine ⟨second.version.trans first.version, ?_⟩
  rcases second.abort with same | ⟨live, signal, address, listed, recorded⟩
  · rw [same]
    exact first.abort
  · rcases first.abort with same | ⟨-, _, _, -, marked⟩
    · rw [same, first.version] at recorded
      exact .inr ⟨same ▸ live, signal, address, listed, recorded⟩
    · simp [(AbortSignal.record_ok marked).2.1] at live

private theorem of_setAbortFlag (listed : Signals signal)
    (signalled : mgr.setAbortFlag signal = .ok next) :
    Marks Signals mgr next := by
  unfold setAbortFlag at signalled
  split at signalled
  · simp [setAbortFlagOutside] at signalled
  · simp only [run_eq_ok] at signalled
    obtain ⟨-, signalled⟩ := signalled
    split at signalled
    · exact pure_eq_ok.mp signalled ▸ refl mgr
    · next unflagged =>
      simp only [run_eq_ok] at signalled
      obtain ⟨_, -, _, recorded, _, -, rfl⟩ := signalled
      exact ⟨rfl, .inr ⟨by simpa using unflagged, signal, _, listed, recorded⟩⟩

/-- A transaction that is marked already keeps its cause. -/
theorem of_flagged (flagged : mgr.abort.abortFlag = true)
    (signalled : mgr.setAbortFlag signal = .ok next) : Marks Signals mgr next := by
  obtain ⟨-, -, _, _, rfl, -, kept, -⟩ := setAbortFlag_ok signalled
  exact ⟨rfl, .inl (kept flagged).1⟩

/-- Of the steps of conflict handling only the signals count. -/
theorem of_steps {Raised : AbortSignal → Prop} (listed : ∀ signal, Raised signal → Signals signal)
    (steps : ConflictSteps Raised mgr next) : Marks Signals mgr next := by
  induction steps with
  | refl mgr => exact refl mgr
  | signal raised signalled => exact of_setAbortFlag (listed _ raised) signalled
  | switch _ switched =>
    obtain ⟨_, rfl⟩ := switchHwPrio_ok switched
    exact ⟨rfl, .inl rfl⟩
  | judge judged =>
    obtain ⟨_, rfl⟩ := isIllegalNack_ok judged
    exact ⟨rfl, .inl rfl⟩
  | conflict => exact ⟨rfl, .inl rfl⟩
  | trans _ _ first second => exact first.trans second

private theorem of_limit {limit : Prop} [Decidable limit] (listed : Signals signal)
    (limited : (if limit then mgr.setAbortFlag signal else pure mgr) = .ok next) :
    Marks Signals mgr next := by
  split at limited
  · exact of_setAbortFlag listed limited
  · exact pure_eq_ok.mp limited ▸ refl mgr

variable {nack : RemoteRequest}

private theorem of_consumeData {data : DataBlock n}
    (consumed : mgr.consumeData nack data = .ok next) :
    Marks Signals mgr next := by
  unfold consumeData at consumed
  split at consumed
  · exact pure_eq_ok.mp consumed ▸ ⟨rfl, .inl rfl⟩
  · simp only [becomeConsumer, run_eq_ok] at consumed
    obtain ⟨_, -, -, -, consumed⟩ := consumed
    split at consumed
    · exact pure_eq_ok.mp consumed ▸ ⟨rfl, .inl rfl⟩
    · obtain ⟨version, abort⟩ := scheduleValidation_abort consumed
      exact ⟨version, .inl abort⟩

section Requests

variable {req : RemoteRequest} {verdict : Bool}

/-- A request that is let through aborts, with the software priority unless LogTM drops it. -/
theorem of_shouldNackRemoteRequest
    (answered : mgr.shouldNackRemoteRequest req = .ok (verdict, next)) :
    Marks (· = req.abortSignal (req.remoteSwPriority && !dropsPriority params req)) mgr next := by
  rcases shouldNackRemoteRequest_cases answered with ⟨-, rfl⟩ | ⟨middle, -, resolved, done⟩
  · exact refl next
  have sent (nacked : verdict = true) : Marks
      (· = req.abortSignal (req.remoteSwPriority && !dropsPriority params req)) middle next := by
    obtain ⟨steps, same⟩ := notifySendNack_ok (by simpa [nacked] using done)
    obtain ⟨_, _, _, _, _, rfl⟩ := (ConflictFrame.of_steps steps).shape
    exact ⟨rfl, .inl same⟩
  rcases resolveConflict_cases resolved with ⟨rfl, kept⟩ | ⟨drops, nacked, signalled⟩
  · cases verdict with
    | true => exact sent rfl
    | false =>
      have named : dropsPriority params req = false := by
        by_contra drops
        simpa using (kept (by simpa using drops)).2
      rw [named, Bool.not_false, Bool.and_true]
      exact of_setAbortFlag rfl done
  · exact (of_setAbortFlag (by simp [drops]) signalled).trans (sent nacked)

/-- Where LogTM drops the priority the transaction is marked already, or unrolls its log. -/
theorem flagged_of_dropsPriority (drops : dropsPriority params req = true)
    (answered : mgr.shouldNackRemoteRequest req = .ok (verdict, next))
    (running : next.isUnrollingLog = false) : next.abort.abortFlag = true := by
  rcases shouldNackRemoteRequest_cases answered with ⟨dooms, rfl⟩ | ⟨middle, -, resolved, done⟩
  · simp only [isAbortingOrDoomed, isDoomed, running] at dooms
    split at dooms
    · next aborting => exact (by simpa [isAborting] using aborting : _ ∧ _).2
    · simpa using dooms
  · rcases resolveConflict_cases resolved with ⟨rfl, kept⟩ | ⟨-, nacked, signalled⟩
    · obtain ⟨_, _, _, _, _, rfl⟩ := (ConflictFrame.of_shouldNackRemoteRequest answered).shape
      exact absurd (running.symm.trans (kept drops).1) (by simp)
    · obtain ⟨-, -, _, _, rfl, flagged, -⟩ := setAbortFlag_ok signalled
      rw [(notifySendNack_ok (by simpa [nacked] using done)).2]
      exact flagged

/-- The signal of a request: the L2 names the priority, a core names it unless LogTM drops it. -/
def RequestRaises (params : HTMParams) (req : RemoteRequest) (signal : AbortSignal) : Prop :=
  (req.remoteId.type = .l2Cache ∧ signal = req.abortSignal req.remoteSwPriority) ∨
    (req.remoteId.type = .l1Cache ∧
      signal = req.abortSignal (req.remoteSwPriority && !dropsPriority params req))

private theorem of_shouldNackLoad (answered : mgr.shouldNackLoad req = .ok (verdict, next)) :
    Marks (RequestRaises params req) mgr next := by
  simp only [shouldNackLoad, run_eq_ok] at answered
  obtain ⟨-, answered⟩ := answered
  split at answered
  · simp only [run_eq_ok] at answered
    obtain ⟨core, -, answered⟩ := answered
    exact (of_shouldNackRemoteRequest answered).imp fun _ _ same => .inr ⟨core, same⟩
  · simp only [pure_eq_ok, Prod.mk.injEq] at answered
    exact answered.2 ▸ refl mgr

/-- The override of the verdict on a store signals once more, which changes nothing. -/
theorem of_overrideStoreVerdict {middle : TransactionInterfaceManager params n}
    {nacks writer : Bool} (timestamps : (params.isRequesterStallsPolicy &&
      params.conflictResolution ≠ .requesterStallsPicBase) = true)
    (first : mgr.shouldNackRemoteRequest req = .ok (nacks, middle))
    (answered : middle.overrideStoreVerdict req writer = .ok (verdict, next)) :
    Marks Signals middle next := by
  unfold overrideStoreVerdict at answered
  repeat' split at answered
  all_goals simp only [run_eq_ok, Prod.mk.injEq] at answered
  · obtain ⟨_, signalled, -, rfl⟩ := answered
    have drops : dropsPriority params req = true := by simp_all [dropsPriority]
    exact of_flagged (flagged_of_dropsPriority drops first (setAbortFlag_ok signalled).2.1)
      signalled
  · exact answered.2 ▸ refl _
  · obtain ⟨_, -, _, -, -, rfl⟩ := answered
    exact refl _
  · exact answered.2 ▸ refl _

private theorem of_shouldNackStore (answered : mgr.shouldNackStore req = .ok (verdict, next)) :
    Marks (RequestRaises params req) mgr next := by
  simp only [shouldNackStore, run_eq_ok] at answered
  obtain ⟨-, _, -, answered⟩ := answered
  split at answered
  · split at answered
    · next shared =>
      simp only [evictFromL2, run_eq_ok] at answered
      obtain ⟨-, answered⟩ := answered
      split at answered
      · simp only [pure_eq_ok, Prod.mk.injEq] at answered
        exact answered.2 ▸ refl mgr
      · simp only [run_eq_ok, Prod.mk.injEq] at answered
        obtain ⟨_, signalled, -, rfl⟩ := answered
        exact of_setAbortFlag (.inl ⟨shared, rfl⟩) signalled
    · simp only [run_eq_ok] at answered
      obtain ⟨core, -, ⟨_, middle⟩, first, answered⟩ := answered
      have marks : Marks (RequestRaises params req) mgr middle :=
        (of_shouldNackRemoteRequest first).imp fun _ _ same => .inr ⟨core, same⟩
      split at answered
      · next timestamps =>
        exact marks.trans (of_overrideStoreVerdict timestamps first answered)
      · simp only [pure_eq_ok, Prod.mk.injEq] at answered
        exact answered.2 ▸ marks
  · simp only [pure_eq_ok, Prod.mk.injEq] at answered
    exact answered.2 ▸ refl mgr

end Requests

/-- A refusal aborts only under a requester-wins policy. -/
theorem of_asked {req : RemoteRequest} {verdict : Bool}
    (listed : params.isReqWinsPolicy = true → ∀ signal, RefusalSignals req signal → Signals signal)
    (asked : mgr.Asked req verdict next) : Marks Signals mgr next := by
  cases asked with
  | silent => exact refl mgr
  | judged => exact refl mgr
  | refused _ _ raised refused =>
    rcases (refuseForwarding_ok refused).2 with rfl | ⟨-, wins, signalled⟩
    · exact refl _
    · exact of_setAbortFlag (listed wins _ raised) signalled

section Nacks

/-- The priority of the sender of a nack is not above the local one. -/
def Outranked (mgr : TransactionInterfaceManager params n) (nack : RemoteRequest) : Prop :=
  params.prioMechanism ≠ .noPrio ∧ params.fwdCycleSolveStrategy ≠ .noStrategy ∧
    (nack.remotePriority ≤ mgr.hwTransPrio ∨
      (params.ncNotProducer = false ∧ nack.remotePriority = ncPrioValue))

/-- When the nack that brings data aborts: under the PiC policy if its sender is not above, under
the timestamp policies if it may close a cycle. -/
def NackAborts (mgr : TransactionInterfaceManager params n) (nack : RemoteRequest) : Prop :=
  params.isRequesterStallsPolicy = true ∧
    if params.conflictResolution = .requesterStallsPicBase then Outranked mgr nack
    else mgr.isUnrollingLog = false ∧ mgr.conflict.possibleCycle = true ∧
      mgr.isRemoteOlder mgr.conflict.timestamp nack.remoteTimestamp nack.remoteId = .ok true

private theorem receiveNackPicBase_flag {uid : Nat}
    (received : mgr.receiveNackPicBase nack = .ok next)
    (live : mgr.abort.abortFlag = false) (asked : mgr.packetUid nack.addr = .ok uid)
    (current : mgr.currentHtmUid ≤ uid) : next.abort.abortFlag = true ↔ Outranked mgr nack := by
  simp only [receiveNackPicBase, bind_eq_ok] at received
  obtain ⟨⟨illegal, middle⟩, judged, received⟩ := received
  have verdict : (illegal = true ↔ Outranked mgr nack) ∧ middle.abort = mgr.abort := by
    simp only [isIllegalNack, asked, ok_bind, isAborting, live, current.not_gt] at judged
    split at judged
    · simp_all
    · split at judged
      · next outranked =>
        simp only [run_eq_ok, Prod.mk.injEq] at judged
        exact ⟨iff_of_true judged.2.1.symm outranked, judged.2.2 ▸ rfl⟩
      · next above =>
        simp only [pure_eq_ok, Prod.mk.injEq] at judged
        exact ⟨iff_of_false (by simp [← judged.1]) above, judged.2 ▸ rfl⟩
  rw [← verdict.1]
  cases illegal with
  | true =>
    simp only [↓reduceIte, bind_eq_ok] at received
    obtain ⟨_, signalled, switched⟩ := received
    obtain ⟨-, -, _, _, rfl, flagged, -⟩ := setAbortFlag_ok signalled
    obtain ⟨_, rfl⟩ := switchHwPrio_ok switched
    simpa using flagged
  | false =>
    obtain ⟨_, rfl⟩ := switchHwPrio_ok received
    simp [verdict.2, live]

private theorem receiveNackTimestamp_flag {timestamp : Cycles} {returned : Bool}
    (received : mgr.receiveNackTimestamp timestamp nack = .ok (returned, next))
    (live : mgr.abort.abortFlag = false) : next.abort.abortFlag = true ↔
      mgr.isUnrollingLog = false ∧ mgr.conflict.possibleCycle = true ∧
      mgr.isRemoteOlder timestamp nack.remoteTimestamp nack.remoteId = .ok true := by
  unfold receiveNackTimestamp at received
  split at received
  · next cycle =>
    simp only [bind_eq_ok] at received
    obtain ⟨older, judged, received⟩ := received
    cases older with
    | true =>
      simp only [↓reduceIte] at received
      split at received
      · next unrolling =>
        simp only [pure_eq_ok, Prod.mk.injEq] at received
        simp [← received.2, live, unrolling]
      · simp only [run_eq_ok, Prod.mk.injEq] at received
        obtain ⟨_, signalled, -, rfl⟩ := received
        obtain ⟨-, running, _, _, rfl, flagged, -⟩ := setAbortFlag_ok signalled
        simp [flagged, cycle, judged, running]
    | false =>
      simp only [Bool.false_eq_true, ↓reduceIte, pure_eq_ok, Prod.mk.injEq] at received
      simp [← received.2, live, judged]
  · next acyclic =>
    simp only [pure_eq_ok, Prod.mk.injEq] at received
    simp [← received.2, live, acyclic]

/-- A live transaction is marked by the nack of a current request exactly in these cases. -/
theorem takeNackPriority_flag {uid : Nat} (taken : mgr.takeNackPriority nack = .ok next)
    (live : mgr.abort.abortFlag = false) (inside : mgr.inTransaction = true)
    (asked : mgr.packetUid nack.addr = .ok uid) (current : mgr.currentHtmUid ≤ uid) :
    next.abort.abortFlag = true ↔ NackAborts mgr nack := by
  have level : 0 < mgr.transactionLevel := And.left (by simpa [inTransaction] using inside)
  have calm : mgr.isAborting = false := by simp [isAborting, live]
  unfold takeNackPriority at taken
  unfold NackAborts
  split at taken
  · next stalls =>
    simp only [notifyReceiveNack, level.ne', ↓reduceIte, getTimestamp, level, calm,
      run_eq_ok] at taken
    obtain ⟨_, rfl, ⟨returned, middle⟩, reacted, taken⟩ := taken
    have same : next.abort = middle.abort := by
      repeat' split at taken
      all_goals exact pure_eq_ok.mp taken ▸ rfl
    rw [same]
    simp only [reactToNack, stalls, ↓reduceIte, Bool.false_eq_true] at reacted
    split at reacted
    · next pic =>
      simp only [run_eq_ok, Prod.mk.injEq] at reacted
      obtain ⟨_, received, -, rfl⟩ := reacted
      rw [and_iff_right stalls, if_pos pic]
      have marks := receiveNackPicBase_flag received live asked current
      exact marks
    · next stamped =>
      rw [and_iff_right stalls, if_neg stamped]
      have marks := receiveNackTimestamp_flag reacted live
      exact marks
  · next patient =>
    obtain ⟨_, rfl⟩ := switchHwPrio_ok taken
    simp [live, patient]

private theorem of_takeNackPriority (taken : mgr.takeNackPriority nack = .ok next) :
    Marks (NackSignals params { nack with remoteTrans := .trans }) mgr next := by
  unfold takeNackPriority at taken
  split at taken
  · exact of_steps (fun _ => id) (.of_notifyReceiveNack taken)
  · obtain ⟨_, rfl⟩ := switchHwPrio_ok taken
    exact ⟨rfl, .inl rfl⟩

end Nacks

variable {addr : Addr} {source : MachineID}

/-- The nack of a validation counts as one of the lowest priority under the stalling policies. -/
theorem of_endValidation {remoteTimestamp : Cycles} {isNack : Bool}
    (ended : mgr.endValidation addr source remoteTimestamp isNack = .ok next) :
    Marks (fun signal => params.isRequesterStallsPolicy = true ∧
      NackSignals params ⟨addr, source, remoteTimestamp, .trans, ncPrioValue, false⟩ signal)
      mgr next := by
  unfold endValidation at ended
  split at ended
  · unfold repeatValidation at ended
    split at ended
    · next stalls =>
      simp only [bind_eq_ok] at ended
      obtain ⟨_, nacked, ended⟩ := ended
      obtain ⟨version, abort⟩ := scheduleNextValidation_abort ended
      have marks := of_steps (fun _ => And.intro stalls) (.of_notifyReceiveNack nacked)
      exact ⟨version.trans marks.version, abort ▸ marks.abort⟩
    · obtain ⟨version, abort⟩ := scheduleNextValidation_abort ended
      exact ⟨version, .inl abort⟩
  · unfold completeValidation at ended
    dsimp only at ended
    repeat' split at ended
    · exact pure_eq_ok.mp ended ▸ ⟨rfl, .inl rfl⟩
    · exact pure_eq_ok.mp ended ▸ ⟨rfl, .inl rfl⟩
    · simp at ended

private theorem of_abortIfInvalid {check : Bool} (listed : check = false → Signals
      { addr := addr, abortSource := createInvalidMachineID, remoteTrans := .nonTrans
        remotePriority := ncPrioValue, validation := true })
    (checked : mgr.abortIfInvalid addr check = .ok next) : Marks Signals mgr next := by
  unfold abortIfInvalid at checked
  split at checked
  · exact pure_eq_ok.mp checked ▸ refl mgr
  · next invalid => exact of_setAbortFlag (listed (by simpa using invalid)) checked

private theorem of_xactReplacement {capacity dataStale spec : Bool}
    (listed : ∀ wset stale, Signals (replacementSignal addr source capacity wset stale))
    (replaced : mgr.xactReplacement addr source capacity dataStale spec = .ok next) :
    Marks Signals mgr next := by
  simp only [xactReplacement, run_eq_ok] at replaced
  obtain ⟨-, replaced⟩ := replaced
  repeat' split at replaced
  · unfold replaceWriteSetBlock at replaced
    split at replaced
    · have signalled := of_setAbortFlag (listed _ _) replaced
      split at signalled
      · exact ⟨signalled.version, signalled.abort⟩
      · exact signalled
    · exact pure_eq_ok.mp replaced ▸ refl mgr
  · simp only [replaceStaleBlock, bind_eq_ok] at replaced
    obtain ⟨_, -, replaced⟩ := replaced
    split at replaced
    · exact pure_eq_ok.mp replaced ▸ refl mgr
    · simp only [bind_eq_ok] at replaced
      obtain ⟨_, -, replaced⟩ := replaced
      split at replaced
      · simp only [isolateTransactionLoad, run_eq_ok] at replaced
        obtain ⟨_, ⟨_, -, rfl⟩, signalled⟩ := replaced
        have marked := of_setAbortFlag (listed _ _) signalled
        exact ⟨marked.version, marked.abort⟩
      · exact of_setAbortFlag (listed _ _) replaced
  · simp only [replaceConsumedBlock, run_eq_ok] at replaced
    obtain ⟨-, -, _, -, replaced⟩ := replaced
    split at replaced
    · exact pure_eq_ok.mp replaced ▸ ⟨rfl, .inl rfl⟩
    · simp only [bind_eq_ok] at replaced
      obtain ⟨_, -, signalled⟩ := replaced
      have marked := of_setAbortFlag (listed _ _) signalled
      exact ⟨marked.version, marked.abort⟩
  · simp only [run_eq_ok] at replaced
    obtain ⟨_, -, -, rfl⟩ := replaced
    exact refl _
  · simp only [run_eq_ok] at replaced
    obtain ⟨_, -, -, signalled⟩ := replaced
    exact of_setAbortFlag (listed _ _) signalled

end Marks

end TransactionInterfaceManager

/-- The calls that may mark a transaction as aborting.  What a replacement is not told, whether a
remote transaction with software priority asked for the block, is recorded beside it. -/
inductive AbortingCall (n : Nat) where
  | load (req : RemoteRequest)
  | store (req : RemoteRequest)
  | forward (req : RemoteRequest) (writeInFlight : Bool)
  | nack (lastAbortHtmUid : Nat) (nack : RemoteRequest)
  | forwarded (nack : RemoteRequest) (data : DataBlock n)
  | validation (addr : Addr) (source : MachineID) (cacheData validatedData : DataBlock n)
      (remoteTimestamp : Cycles) (dirty isNack : Bool)
  | replacement (addr : Addr) (source : MachineID) (capacity dataStale spec power : Bool)
  | cancel

namespace AbortingCall

open TransactionInterfaceManager

variable {params : HTMParams} {n : Nat}

/-- The manager after a call. -/
def run (mgr : TransactionInterfaceManager params n) :
    AbortingCall n → Checked (TransactionInterfaceManager params n)
  | .load req => do
    let (_, mgr) ← mgr.shouldNackLoad req
    return mgr
  | .store req => do
    let (_, mgr) ← mgr.shouldNackStore req
    return mgr
  | .forward req writeInFlight => do
    let (_, mgr) ← mgr.shouldForwardDataToConsumer req writeInFlight
    return mgr
  | .nack lastAbortHtmUid answer => mgr.failedCallback lastAbortHtmUid answer
  | .forwarded answer data => mgr.notifyForwardedDataFromProducer answer data
  | .validation addr source cacheData validatedData remoteTimestamp dirty isNack => do
    let (_, _, mgr) ← mgr.validateDataBlock addr source cacheData validatedData remoteTimestamp
      dirty isNack
    return mgr
  | .replacement addr source capacity dataStale spec _ =>
    mgr.xactReplacement addr source capacity dataStale spec
  | .cancel => mgr.cancelTransaction

/-- Whether the remote transaction behind the call holds software priority. -/
def power : AbortingCall n → Bool
  | .load req | .store req | .forward req _ | .nack _ req | .forwarded req _ => req.remoteSwPriority
  | .replacement _ _ _ _ _ power => power
  | .validation .. | .cancel => false

/-- Whether the call tells that a consumed block failed its validation: the data differs, or the
validation was refused. -/
def failed (mgr : TransactionInterfaceManager params n) : AbortingCall n → Bool
  | .nack _ answer => params.allowEarlyValueFwd && mgr.isBlockConsumed answer.addr
  | .validation addr _ cacheData validatedData _ dirty _ =>
    match mgr.forwarding.recvDataForwardedFromProducer[addr]? with
    | some entry => !(compareForwardedData params entry cacheData validatedData dirty).1
    | none => false
  | _ => false

/-- Whether the call reports an eviction: the L2 took the block, or the own L1, or the own L0 for
lack of room. -/
def Evicts (mgr : TransactionInterfaceManager params n) : AbortingCall n → Prop
  | .load req | .store req => req.remoteId.type = .l2Cache
  | .replacement addr source capacity _ _ _ =>
    (replacementSignal addr source capacity false false).Evicts mgr.version
  | _ => False

/-- The software priority of the sender is where `notifyReceiveNack` takes it from, the priority
argument under the stalling policies and nowhere under the others, and a nack without it comes from
another core. -/
def NackReported (mgr : TransactionInterfaceManager params n) (nack : RemoteRequest) : Prop :=
  nack.remoteSwPriority = (params.isRequesterStallsPolicy && nack.remotePriority ≠ 0) ∧
    (nack.remoteSwPriority = false → ¬ (nack.abortSignal false).Evicts mgr.version)

/-- The calls whose arguments to `setAbortFlag` say what happened. -/
def Reported (mgr : TransactionInterfaceManager params n) : AbortingCall n → Prop
  | .load req | .store req => req.remoteId.type = .l2Cache ∨
    if req.remoteSwPriority then dropsPriority params req = false
    else req.remoteId.num ≠ mgr.version
  | .forward req _ => req.remoteSwPriority = false
  | .nack _ answer => NackReported mgr answer ∧
    (params.allowEarlyValueFwd && mgr.isBlockConsumed answer.addr) = false
  | .forwarded answer _ => (Marks.NackAborts mgr answer → NackReported mgr answer) ∧
    (¬ Marks.NackAborts mgr answer → answer.remoteSwPriority = false)
  | call@(.validation ..) => call.failed mgr = true
  | .replacement _ _ _ _ _ power => power = false
  | .cancel => True

variable {mgr next : TransactionInterfaceManager params n} {call : AbortingCall n}

/-- The signals that tell the truth about a call. -/
def Truthful (mgr : TransactionInterfaceManager params n) (call : AbortingCall n)
    (signal : AbortSignal) : Prop :=
  signal.Names mgr.version call.power (call.failed mgr) (call.Evicts mgr)

/-- The signal of a remote request. -/
theorem names_requestRaises_iff {req : RemoteRequest} {signal : AbortSignal}
    (raised : Marks.RequestRaises params req signal) :
    signal.Names mgr.version req.remoteSwPriority false (req.remoteId.type = .l2Cache) ↔
      (req.remoteId.type = .l2Cache ∨ if req.remoteSwPriority then dropsPriority params req = false
        else req.remoteId.num ≠ mgr.version) := by
  rcases raised with ⟨shared, rfl⟩ | ⟨core, rfl⟩
  · refine iff_of_true ⟨rfl, ?_, fun _ _ _ => shared⟩ (.inl shared)
    simp [AbortSignal.isPlain, RemoteRequest.abortSignal]
  · constructor
    · rintro ⟨-, remote, eviction⟩
      simp [AbortSignal.isPlain, RemoteRequest.abortSignal, AbortSignal.Evicts, core] at *
      grind
    · intro reported
      refine ⟨rfl, ?_, ?_⟩
      all_goals
        simp [AbortSignal.isPlain, RemoteRequest.abortSignal, AbortSignal.Evicts, core] at *
        grind

/-- The signals of a nack. -/
theorem names_nackSignals_iff {nack : RemoteRequest} {signal : AbortSignal}
    (raised : NackSignals params nack signal) :
    signal.Names mgr.version nack.remoteSwPriority false False ↔ NackReported mgr nack := by
  have blamed : signal.validation = false ∧ signal.isPlain = true ∧
      signal.remoteSwPriority = (params.isRequesterStallsPolicy && nack.remotePriority ≠ 0) ∧
      (signal.Evicts mgr.version ↔ (nack.abortSignal false).Evicts mgr.version) := by
    unfold NackSignals at raised
    split at raised
    · next stalls =>
      obtain ⟨addr, rfl⟩ := raised
      exact ⟨rfl, rfl, by simp [nackAbortSignal, stalls], .rfl⟩
    · next patient =>
      subst raised
      exact ⟨rfl, rfl, by simp [RemoteRequest.abortSignal, patient], .rfl⟩
  obtain ⟨checked, plain, remote, evicts⟩ := blamed
  constructor
  · rintro ⟨-, named, eviction⟩
    rw [plain, Bool.true_and] at named
    exact ⟨named ▸ remote, fun ordinary own =>
      eviction plain (named.trans ordinary) (evicts.mpr own)⟩
  · rintro ⟨named, other⟩
    have same := remote.trans named.symm
    exact ⟨checked, by rw [plain, same, Bool.true_and], fun _ ordinary own =>
      other (same ▸ ordinary) (evicts.mp own)⟩

/-- A signal with a cause of its own, about a call that tells nothing else. -/
theorem names_special_iff {signal : AbortSignal} {version : Nat} {power failed : Bool}
    {evicts : Prop} (special : signal.isPlain = false) :
    signal.Names version power failed evicts ↔ signal.validation = failed ∧ power = false := by
  constructor
  · rintro ⟨checked, remote, -⟩
    exact ⟨checked, by simpa [special] using remote.symm⟩
  · rintro ⟨checked, remote⟩
    exact ⟨checked, by simp [special, remote], by simp [special]⟩

/-- A nack without data: it aborts, or the validation of a consumed block is refused. -/
theorem marks_nack {uid : Nat} {answer : RemoteRequest}
    (ran : (nack uid answer).run mgr = .ok next) :
    Marks (fun signal => Truthful mgr (.nack uid answer) signal ↔
      (nack uid answer).Reported mgr) mgr next := by
  simp only [run, failedCallback] at ran
  split at ran
  · next consumed =>
    -- a refused validation is reported as an eviction from the write set
    split at ran
    · exact pure_eq_ok.mp ran ▸ .refl mgr
    · refine .of_setAbortFlag (iff_of_false ?_ ?_) ran
      · rintro ⟨checked, -, -⟩
        simp [failed, consumed] at checked
      · rintro ⟨-, current⟩
        exact absurd (consumed.symm.trans current) (by simp)
  · next unconsumed =>
    have current : (params.allowEarlyValueFwd && mgr.isBlockConsumed answer.addr) = false := by
      simpa using unconsumed
    simp only [bind_eq_ok] at ran
    obtain ⟨_, -, ran⟩ := ran
    split at ran
    · exact pure_eq_ok.mp ran ▸ .refl mgr
    · refine .of_steps (fun _ raised => ?_) (.of_notifyReceiveNack ran)
      rw [Truthful, failed, current]
      exact (names_nackSignals_iff raised).trans (and_iff_left current).symm

/-- A nack with data: either the nack aborts, or one of the limits on consumed blocks. -/
theorem marks_forwarded {answer : RemoteRequest} {data : DataBlock n}
    (ran : (forwarded answer data).run mgr = .ok next) :
    Marks (fun signal => Truthful mgr (.forwarded answer data) signal ↔
      (forwarded answer data).Reported mgr) mgr next := by
  simp only [run, notifyForwardedDataFromProducer, run_eq_ok] at ran
  obtain ⟨_, marked, -, -, _, asked, ⟨inside, current⟩, after, taken, _, consumed, _, limited,
    bounded⟩ := ran
  obtain ⟨_, rfl, -⟩ := markProducerTurnedConsumer_shape marked
  have aborts (live : mgr.abort.abortFlag = false) :
      after.abort.abortFlag = true ↔ Marks.NackAborts mgr answer := by
    -- stated for the marked manager, which differs in a field the nack does not read
    have marks := Marks.takeNackPriority_flag taken live inside asked current
    exact marks
  have first : Marks (fun signal => Truthful mgr (.forwarded answer data) signal ↔
      (forwarded answer data).Reported mgr) mgr after := by
    have nacked := Marks.of_takeNackPriority taken
    refine ⟨nacked.version, nacked.abort.imp_right ?_⟩
    rintro ⟨live, signal, address, raised, recorded⟩
    have illegal := (aborts live).mp (AbortSignal.record_ok recorded).2.1
    have named : Truthful mgr (.forwarded answer data) signal ↔ NackReported mgr answer := by
      have names := @names_nackSignals_iff params n mgr _ _ raised
      exact names
    exact ⟨live, signal, address, named.trans ⟨fun reported => ⟨fun _ => reported, absurd illegal⟩,
      fun reported => reported.1 illegal⟩, recorded⟩
  have rest : Marks (fun signal => signal.isPlain = false ∧ signal.validation = false) after next :=
    (Marks.of_consumeData consumed).trans
      ((Marks.of_limit ⟨rfl, rfl⟩ limited).trans (.of_limit ⟨rfl, rfl⟩ bounded))
  refine first.trans (rest.imp fun unmarked signal ⟨special, valid⟩ => ?_)
  have live : mgr.abort.abortFlag = false := by
    rcases first.abort with same | ⟨live, -⟩
    · exact same ▸ unmarked
    · exact live
  have legal : ¬ Marks.NackAborts mgr answer := fun illegal =>
    Bool.false_ne_true (unmarked.symm.trans ((aborts live).mpr illegal))
  exact ((names_special_iff special).trans (and_iff_right valid)).trans
    ⟨fun ordinary => ⟨fun illegal => absurd illegal legal, fun _ => ordinary⟩,
      fun reported => reported.2 legal⟩

/-- A validation: the data differs, or its nack aborts. -/
theorem marks_validation {addr : Addr} {source : MachineID} {cacheData validatedData : DataBlock n}
    {remoteTimestamp : Cycles} {dirty isNack : Bool}
    (ran : (validation addr source cacheData validatedData remoteTimestamp dirty isNack).run mgr =
      .ok next) :
    Marks (fun signal => Truthful mgr (.validation addr source cacheData validatedData
        remoteTimestamp dirty isNack) signal ↔ (validation addr source cacheData validatedData
        remoteTimestamp dirty isNack).Reported mgr) mgr next := by
  simp only [run, run_eq_ok] at ran
  obtain ⟨⟨_, _, _⟩, validated, rfl⟩ := ran
  simp only [validateDataBlock, run_eq_ok] at validated
  obtain ⟨-, -, validated⟩ := validated
  split at validated
  · simp at validated
  · next entry found =>
    -- the verdict on the data does not depend on the number of validations
    have verdict : (compareForwardedData params { entry with nVal := entry.nVal + 1 } cacheData
        validatedData dirty).1 =
        (compareForwardedData params entry cacheData validatedData dirty).1 := by
      unfold compareForwardedData
      repeat' split
      all_goals rfl
    simp only [run_eq_ok, Prod.mk.injEq] at validated
    obtain ⟨-, middle, checked, _, ended, -, -, rfl⟩ := validated
    have first : Marks (fun signal => signal.isPlain = false ∧ signal.validation = true) mgr
        middle := by
      have invalid : Marks (fun signal => signal.isPlain = false ∧ signal.validation = true) _
        middle := .of_abortIfInvalid (fun _ => ⟨rfl, rfl⟩) checked
      exact ⟨invalid.version, invalid.abort⟩
    refine (first.imp fun _ signal => ?_).trans ((Marks.of_endValidation ended).imp
      fun unmarked signal => ?_)
    · rintro ⟨special, raised⟩
      exact (names_special_iff special).trans ((and_iff_left rfl).trans (raised ▸ eq_comm))
    · -- the data matches, and the nack is taken for one of a power transaction
      rintro ⟨stalls, raised⟩
      refine iff_of_false (fun ⟨_, named, _⟩ => ?_) fun differs => ?_
      · rw [NackSignals, if_pos stalls] at raised
        obtain ⟨_, rfl⟩ := raised
        have lowest : ncPrioValue ≠ 0 := by decide
        simp [AbortSignal.isPlain, nackAbortSignal, power, lowest] at named
      · have passed := (abortIfInvalid_data checked).2 unmarked
        simp only [boundValidations] at passed
        simp only [Reported, failed, found] at differs
        grind

/-- Every call that marks a transaction raises a truthful signal exactly if it is reported. -/
theorem marks_truthful_iff (marks : call ≠ .cancel) (ran : call.run mgr = .ok next) :
    Marks (fun signal => Truthful mgr call signal ↔ call.Reported mgr) mgr next := by
  cases call with
  | load req =>
    simp only [run, run_eq_ok] at ran
    obtain ⟨⟨_, _⟩, judged, rfl⟩ := ran
    exact (Marks.of_shouldNackLoad judged).imp fun _ _ => names_requestRaises_iff
  | store req =>
    simp only [run, run_eq_ok] at ran
    obtain ⟨⟨_, _⟩, judged, rfl⟩ := ran
    exact (Marks.of_shouldNackStore judged).imp fun _ _ => names_requestRaises_iff
  | forward req writeInFlight =>
    simp only [run, run_eq_ok] at ran
    obtain ⟨⟨_, _⟩, asked, rfl⟩ := ran
    refine .of_asked (fun _ signal raised => ?_) (.of_shouldForwardDataToConsumer asked)
    rcases raised with rfl | rfl
    all_goals exact (names_special_iff rfl).trans (and_iff_right rfl)
  | nack uid answer => exact marks_nack ran
  | forwarded answer data => exact marks_forwarded ran
  | validation addr source cacheData validatedData remoteTimestamp dirty isNack =>
    exact marks_validation ran
  | replacement addr source capacity dataStale spec remote =>
    refine .of_xactReplacement (fun wset stale => ?_) ran
    constructor
    · rintro ⟨-, named, -⟩
      exact named.symm.trans (by simp [replacementSignal])
    · intro ordinary
      exact ⟨rfl, by simp [replacementSignal, power, show remote = false from ordinary],
        fun _ _ => id⟩
  | cancel => exact absurd rfl marks

/-- For every call that marks a live transaction as aborting, whatever the remote priority, the
power bit and the outcome of the validation: the cause is a power conflict exactly if the remote
transaction holds software priority, a validation exactly if a consumed block failed it, and a
capacity only after an eviction, and the power bit of the status is exact, if and only if the call
is one of the reported ones. -/
theorem abortCause_names_reason_iff (live : mgr.abort.abortFlag = false)
    (ran : call.run mgr = .ok next) (marked : next.abort.abortFlag = true) :
    ((next.abort.abortCause = .conflictPower ↔ call.power = true) ∧
      (next.abort.abortCause = .specValidation ↔ call.failed mgr = true) ∧
      (next.abort.abortCause.isCapacity = true → call.Evicts mgr) ∧
      next.isTransactionAbortedByRemotePower = call.power) ↔ call.Reported mgr := by
  have bit : next.isTransactionAbortedByRemotePower = call.power ↔
      (next.abort.abortCause = .conflictPower ↔ call.power = true) := by
    rw [Bool.eq_iff_iff]
    simp [isTransactionAbortedByRemotePower, marked]
  have causes : ((next.abort.abortCause = .conflictPower ↔ call.power = true) ∧
      (next.abort.abortCause = .specValidation ↔ call.failed mgr = true) ∧
      (next.abort.abortCause.isCapacity = true → call.Evicts mgr)) ↔ call.Reported mgr := by
    by_cases cancelled : call = .cancel
    · subst cancelled
      simp only [run, cancelTransaction, run_eq_ok] at ran
      obtain ⟨-, -, rfl⟩ := ran
      simp [power, failed, Reported, AbortCause.isCapacity]
    · rcases (marks_truthful_iff cancelled ran).abort with same | ⟨-, signal, _, truthful, recorded⟩
      · simp [same, live] at marked
      · exact (AbortSignal.record_names_iff recorded).trans truthful
  rw [← causes, bit]
  exact ⟨fun ⟨remote, differs, capacity, _⟩ => ⟨remote, differs, capacity⟩,
    fun ⟨remote, differs, capacity⟩ => ⟨remote, differs, capacity, remote⟩⟩

/-- A store of the power transaction of core 0 to the block at 64. -/
def powerStore : RemoteRequest := ⟨64, ⟨.l1Cache, 0⟩, 5, .trans, ncPrioValue, true⟩

/-- The store aborts an ordinary writer of the block, and the status has the power bit. -/
theorem abortCause_names_reason_iff_powerStore :
    ∃ core next, (Core.system Core.powerForwarding 64).Reachable core ∧
      (store powerStore : AbortingCall 64).run core.mgr = .ok next ∧
      next.abort.abortCause = .conflictPower ∧ next.isTransactionAbortedByRemotePower = true := by
  obtain ⟨core, reached, live, version, next, ran, marked⟩ := Core.exists_reachable
    (P := fun core : Core Core.powerForwarding 64 =>
      core.mgr.abort.abortFlag = false ∧ core.mgr.version = 1 ∧
      ∃ next, (store powerStore).run core.mgr = .ok next ∧ next.abort.abortFlag = true)
    (Core.writerEvents 64 false) 1 (by decide +kernel)
  obtain ⟨cause, -, -, bit⟩ := (abortCause_names_reason_iff live ran marked).mpr
    (.inr (by simp [powerStore, dropsPriority, isTransactionalRequest]))
  exact ⟨core, next, reached, ran, cause.mpr rfl, bit⟩

/-- The nack of the same power transaction to the load of the block at 128. -/
def powerNack : RemoteRequest := { powerStore with addr := 128 }

/-- The nacked transaction records an ordinary conflict, and its status has no power bit. -/
theorem powerNack_recordsConflict :
    ∃ core next, (Core.system Core.powerForwarding 64).Reachable core ∧
      core.mgr.abort.abortFlag = false ∧
      (nack core.lastAbortHtmUid powerNack : AbortingCall 64).run core.mgr = .ok next ∧
      powerNack.remoteSwPriority = true ∧ next.abort.abortFlag = true ∧
      next.abort.abortCause = .conflict ∧ next.isTransactionAbortedByRemotePower = false := by
  simp only [exists_and_left]
  exact Core.exists_reachable Core.loaderEvents 1 (by decide +kernel)

end AbortingCall

end Ruby

end Gem5
