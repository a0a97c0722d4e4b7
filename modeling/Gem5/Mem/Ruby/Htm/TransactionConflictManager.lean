import Gem5.Mem.Ruby.Htm.TransactionInterfaceManager

/-!
# `TransactionConflictManager`: conflict resolution

What a core does with a remote request that hits its read or write set: decide
whether to nack it, abort the local transaction otherwise, and keep the cycle
detection state of the timestamp policies.  `shouldNackLoad` and
`shouldNackStore` include the alignment assertion of the interface manager's
functions of the same names, which only call these.
-/

namespace Gem5.Ruby

open Foundation

/-- A remote coherence request as the L0 controller hands it to the manager; the priorities are
those the requester had when it issued the request. -/
structure RemoteRequest where
  addr : Addr
  remoteId : MachineID
  remoteTimestamp : Cycles
  remoteTrans : TransactionBit
  remotePriority : Priority
  remoteSwPriority : Bool
  deriving DecidableEq, Repr

/-- The abort a request causes. -/
def RemoteRequest.abortSignal (req : RemoteRequest) (remoteSwPriority : Bool) : AbortSignal where
  addr := req.addr
  abortSource := req.remoteId
  remoteTrans := req.remoteTrans
  remotePriority := req.remotePriority
  remoteSwPriority := remoteSwPriority

namespace TransactionInterfaceManager

variable {params : HTMParams} {n : Nat}

section Decisions

variable (mgr : TransactionInterfaceManager params n)

/-- `getTimestamp`. -/
def getTimestamp : Checked Cycles :=
  if mgr.transactionLevel > 0 then return mgr.conflict.timestamp
  else do
    assertThat (mgr.curCycle > 0) "ts > 0"
    return mgr.curCycle

/-- `isRemoteOlder`: ties are broken by the node number. -/
def isRemoteOlder (localTimestamp remoteTimestamp : Cycles) (remoteId : MachineID) : Checked Bool :=
  if localTimestamp = remoteTimestamp then do
    assertThat (mgr.version ≠ remoteId.num) "getProcID() != (int) machineIDToNodeID(remote_id)"
    return remoteId.num < mgr.version
  else return remoteTimestamp < localTimestamp

/-- The numeric case of `chooseWinnerPriority`. -/
def winsByPriority (remotePriority : Priority) (remoteSwPriority : Bool) : Bool :=
  let shouldWin :=
    if params.isPowerTMPolicy then
      if mgr.getSwTransactionPriority = remoteSwPriority then
        (!mgr.isConsumer || remotePriority ≤ mgr.getTransactionPriority) && !remoteSwPriority
      else mgr.getSwTransactionPriority
    else
      (params.allowEarlyValueFwd && !mgr.isConsumer) ||
        (params.conflictResolution = .requesterStallsPicBase && !mgr.stalled) ||
        remotePriority < mgr.getTransactionPriority
  if params.ncNotProducer then
    if mgr.getTransactionPriority = ncPrioValue ∧
        mgr.getTransactionPriority ≠ remotePriority then false else shouldWin
  else shouldWin

/-- `chooseWinnerPriority`: whether the local transaction wins. -/
def chooseWinnerPriority (remotePriority : Priority) (remoteSwPriority : Bool) : Checked Bool :=
  match params.prioMechanism with
  | .numeric => return mgr.winsByPriority remotePriority remoteSwPriority
  | .noPrio =>
    if params.isPowerTMPolicy then
      if params.isReqLosesPolicy then
        if remoteSwPriority then do
          assertThat (mgr.conflict.powered = false) "!isPowered()"
          return false
        else return true
      else if params.isReqWinsPolicy then return mgr.conflict.powered
      else panicWith "Invalid fwd mechanism found!"
    else if params.isReqLosesPolicy then return true
    else if params.isReqWinsPolicy then return false
    else panicWith "Invalid fwd mechanism found!"

/-- `notifySendNack`: the PiC policy moves the priority, the timestamp policies remember that an
older transaction was nacked. -/
def notifySendNack (req : RemoteRequest) : Checked (TransactionInterfaceManager params n) :=
  if params.isRequesterStallsPolicy then
    if params.conflictResolution = .requesterStallsPicBase then
      mgr.switchHwPrio req.remotePriority req.remoteSwPriority false
    else do
      let inReadSet ← mgr.checkReadSignature req.addr
      if inReadSet || mgr.checkWriteSignature req.addr then do
        let timestamp ← mgr.getTimestamp
        let older ← mgr.isRemoteOlder timestamp req.remoteTimestamp req.remoteId
        return if older then
          { mgr with conflict := { mgr.conflict with
              sentNack := true, sentNackAddr := req.addr, possibleCycle := true } }
          else mgr
      else return mgr
  else return mgr

/-- The verdict of `shouldNackRemoteRequest` on a live transaction.  LogTM keeps nacking a
non-transactional request but aborts at once. -/
def resolveConflict (req : RemoteRequest) : Checked (Bool × TransactionInterfaceManager params n) :=
  if params.isRequesterStallsPolicy then
    if params.conflictResolution = .requesterStallsPicBase then
      if isTransactionalRequest req.remoteTrans then do
        let wins ← mgr.chooseWinnerPriority req.remotePriority req.remoteSwPriority
        return (wins, mgr)
      else return (false, mgr)
    else if mgr.isUnrollingLog then return (true, mgr)
    else if !isTransactionalRequest req.remoteTrans && !params.policyNackNonTransactional then
      if params.lazyVm then return (false, mgr)
      else do
        let mgr ← mgr.setAbortFlag (req.abortSignal false)
        return (true, mgr)
    else return (true, mgr)
  else if params.conflictResolution = .committerWins then
    panicWith "committer_wins policy untested!"
  else if isTransactionalRequest req.remoteTrans then do
    let wins ← mgr.chooseWinnerPriority req.remotePriority req.remoteSwPriority
    return (wins, mgr)
  else return (false, mgr)

/-- The guard of the early exit, `isAborting() || isDoomed()`. -/
def isAbortingOrDoomed : Checked Bool :=
  if mgr.isAborting then return true else mgr.isDoomed

/-- `shouldNackRemoteRequest`: a request that is not nacked aborts the local transaction. -/
def shouldNackRemoteRequest (req : RemoteRequest) :
    Checked (Bool × TransactionInterfaceManager params n) := do
  let doomed ← mgr.isAbortingOrDoomed
  if doomed then return (false, mgr)
  else do
    assertThat (req.addr = makeLineAddress n req.addr) "addr == makeLineAddress(addr)"
    let (shouldNack, mgr) ← mgr.resolveConflict req
    if shouldNack then do
      let mgr ← mgr.notifySendNack req
      return (true, mgr)
    else do
      let mgr ← mgr.setAbortFlag (req.abortSignal req.remoteSwPriority)
      return (false, mgr)

/-- `shouldNackLoad`. -/
def shouldNackLoad (req : RemoteRequest) :
    Checked (Bool × TransactionInterfaceManager params n) := do
  assertThat (req.addr = makeLineAddress n req.addr) "addr == makeLineAddress(addr)"
  if mgr.checkWriteSignature req.addr then do
    assertThat (req.remoteId.type = .l1Cache)
      "machineIDToMachineType(remote_id) == MachineType_L1Cache"
    assertThat (req.remoteTimestamp > 0) "remote_timestamp > 0"
    mgr.shouldNackRemoteRequest req
  else return (false, mgr)

/-- Whether a block of the write set, or else of the read set, may be evicted from the L2. -/
def mayEvictFromL2 (params : HTMParams) (localIsWriter : Bool) : Bool :=
  if localIsWriter then params.allowWriteSetL2CacheEvictions
  else params.allowReadSetL2CacheEvictions

/-- An L2 eviction of a transactional block aborts unless the set may be evicted. -/
def evictFromL2 (req : RemoteRequest) (localIsWriter : Bool) :
    Checked (Bool × TransactionInterfaceManager params n) := do
  assertThat (req.remoteTimestamp = 0) "remote_timestamp == 0"
  if mayEvictFromL2 params localIsWriter then return (false, mgr)
  else do
    let mgr ← mgr.setAbortFlag (req.abortSignal req.remoteSwPriority)
    return (false, mgr)

/-- What `shouldNackStore` makes of the verdict under the timestamp policies. -/
def overrideStoreVerdict (req : RemoteRequest) (localIsWriter : Bool) :
    Checked (Bool × TransactionInterfaceManager params n) :=
  if !isTransactionalRequest req.remoteTrans && !params.policyNackNonTransactional then
    if !params.lazyVm && localIsWriter then do
      let mgr ← mgr.setAbortFlag (req.abortSignal req.remoteSwPriority)
      return (true, mgr)
    else return (false, mgr)
  else if params.conflictResolution = .requesterStallsCdaHybrid ∧ localIsWriter = false then do
    let timestamp ← mgr.getTimestamp
    let older ← mgr.isRemoteOlder timestamp req.remoteTimestamp req.remoteId
    return (!older, mgr)
  else return (true, mgr)

/-- `existConflict` of `shouldNackStore`: the block is in the write set or in the read set. -/
def existStoreConflict (addr : Addr) : Checked Bool :=
  if mgr.checkWriteSignature addr then return true else mgr.checkReadSignature addr

/-- `shouldNackStore`. -/
def shouldNackStore (req : RemoteRequest) :
    Checked (Bool × TransactionInterfaceManager params n) := do
  assertThat (req.addr = makeLineAddress n req.addr) "addr == makeLineAddress(addr)"
  let localIsWriter := mgr.checkWriteSignature req.addr
  let existConflict ← mgr.existStoreConflict req.addr
  if existConflict then
    if req.remoteId.type = .l2Cache then mgr.evictFromL2 req localIsWriter
    else do
      assertThat (req.remoteId.type = .l1Cache)
        "machineIDToMachineType(remote_id) == MachineType_L1Cache"
      assertThat (req.remoteTimestamp > 0) "remote_timestamp > 0"
      let (shouldNack, mgr) ← mgr.shouldNackRemoteRequest req
      if params.isRequesterStallsPolicy &&
          params.conflictResolution ≠ .requesterStallsPicBase then
        mgr.overrideStoreVerdict req localIsWriter
      else return (shouldNack, mgr)
  else return (false, mgr)

/-- The abort signal of the stalling policies.  The source passes the last two arguments in the
wrong order: the software priority as the priority, and the priority as the software priority. -/
def nackAbortSignal (nack : RemoteRequest) (addr : Addr) : AbortSignal where
  addr := addr
  abortSource := nack.remoteId
  remoteTrans := nack.remoteTrans
  remotePriority := if nack.remoteSwPriority then 1 else 0
  remoteSwPriority := nack.remotePriority ≠ 0

/-- The PiC part of `notifyReceiveNack`. -/
def receiveNackPicBase (nack : RemoteRequest) : Checked (TransactionInterfaceManager params n) := do
  let (illegal, mgr) ← mgr.isIllegalNack nack.addr nack.remotePriority
  if illegal then do
    let mgr ← mgr.setAbortFlag (nackAbortSignal nack nack.addr)
    mgr.switchHwPrio nack.remotePriority nack.remoteSwPriority true
  else mgr.switchHwPrio nack.remotePriority nack.remoteSwPriority true

/-- The timestamp part of `notifyReceiveNack`: abort on a possible cycle.  The flag tells that
the function returns at once because the log is already being unrolled. -/
def receiveNackTimestamp (localTimestamp : Cycles) (nack : RemoteRequest) :
    Checked (Bool × TransactionInterfaceManager params n) :=
  if mgr.conflict.possibleCycle then do
    let older ← mgr.isRemoteOlder localTimestamp nack.remoteTimestamp nack.remoteId
    if older then
      if mgr.isUnrollingLog then return (true, mgr)
      else do
        let mgr ← mgr.setAbortFlag (nackAbortSignal nack mgr.conflict.sentNackAddr)
        return (false, mgr)
    else return (false, mgr)
  else return (false, mgr)

/-- The policy-dependent part of `notifyReceiveNack`. -/
def reactToNack (localTimestamp : Cycles) (wasAborting : Bool) (nack : RemoteRequest) :
    Checked (Bool × TransactionInterfaceManager params n) :=
  if params.isRequesterStallsPolicy then
    if params.conflictResolution = .requesterStallsPicBase then
      if wasAborting then return (false, mgr)
      else do
        let mgr ← mgr.receiveNackPicBase nack
        return (false, mgr)
    else mgr.receiveNackTimestamp localTimestamp nack
  else if params.isReqLosesPolicy || params.isPowerTMPolicy then do
    let mgr ← mgr.setAbortFlag (nack.abortSignal false)
    return (false, mgr)
  else return (false, mgr)

/-- `notifyReceiveNack`, with the fields of the nack in the place of a request's. -/
def notifyReceiveNack (nack : RemoteRequest) : Checked (TransactionInterfaceManager params n) :=
  if mgr.transactionLevel = 0 then return mgr
  else do
    let localTimestamp ← mgr.getTimestamp
    let wasAborting := mgr.isAborting
    let mgr := { mgr with conflict := { mgr.conflict with receivedNack := true } }
    let (returned, mgr) ← mgr.reactToNack localTimestamp wasAborting nack
    if returned then return mgr
    else if !wasAborting && mgr.isAborting then
      return { mgr with conflict := { mgr.conflict with abortedByNack := true } }
    else return mgr

end Decisions

section Specifications

variable {mgr next : TransactionInterfaceManager params n} {req : RemoteRequest} {nack : Bool}

/-- A transaction that runs: the log of an aborted LogTM transaction is not being unrolled. -/
def IsRunning (mgr : TransactionInterfaceManager params n) : Prop :=
  mgr.inTransaction = true ∧ mgr.isUnrollingLog = false

/-- While running, aborting means that the signal is set. -/
theorem IsRunning.isAborting (running : mgr.IsRunning) : mgr.isAborting = mgr.abort.abortFlag := by
  simp [TransactionInterfaceManager.isAborting, running.1]

/-- While running, doomed means that the signal is set. -/
theorem IsRunning.isAbortingOrDoomed (running : mgr.IsRunning) :
    mgr.isAbortingOrDoomed = .ok mgr.abort.abortFlag := by
  simp only [TransactionInterfaceManager.isAbortingOrDoomed, running.isAborting, isDoomed,
    running.2]
  cases mgr.abort.abortFlag <;> rfl

/-- What conflict handling may change: the priority under the PiC policy, the abort state and
the flush of a running transaction, the conflict manager apart from its power mode and timestamp,
and the discard mark. -/
structure ConflictFrame (mgr next : TransactionInterfaceManager params n) : Prop where
  shape : ∃ prio abort conflict lazyVersion mark, next = { mgr with
    hwTransPrio := prio, abort := abort, conflict := conflict, lazyVersion := lazyVersion
    forwarding := { mgr.forwarding with discardFwdData := mark } }
  powered : next.conflict.powered = mgr.conflict.powered
  timestamp : next.conflict.timestamp = mgr.conflict.timestamp
  prio : next.hwTransPrio = mgr.hwTransPrio ∨
    (params.conflictResolution = .requesterStallsPicBase ∧ params.prioMechanism = .numeric)
  abort : next.abort = mgr.abort ∨
    (mgr.transactionLevel ≠ 0 ∧ mgr.isUnrollingLog = false ∧ next.abort.abortFlag = true)
  outside : mgr.transactionLevel = 0 → next.lazyVersion = mgr.lazyVersion
  flush : mgr.lazyVersion.FlushKept next.lazyVersion
    (next.abort.abortFlag = true ∧ params.eagerCd = false)
  sticky : mgr.abort.abortFlag = true → next.abort = mgr.abort
  cycle : mgr.conflict.possibleCycle = true → next.conflict.possibleCycle = true

namespace ConflictFrame

private theorem refl (mgr : TransactionInterfaceManager params n) : ConflictFrame mgr mgr where
  shape := ⟨_, _, _, _, _, rfl⟩
  powered := rfl
  timestamp := rfl
  prio := .inl rfl
  abort := .inl rfl
  outside _ := rfl
  flush := .refl _
  sticky _ := rfl
  cycle := id

/-- Conflict handling keeps the answers of the write check. -/
theorem checkWriteSignature_eq (frame : ConflictFrame mgr next) (addr : Addr) :
    next.checkWriteSignature addr = mgr.checkWriteSignature addr := by
  obtain ⟨_, _, _, _, _, rfl⟩ := frame.shape
  rfl

private theorem trans {middle : TransactionInterfaceManager params n}
    (first : ConflictFrame mgr middle)
    (second : ConflictFrame middle next) : ConflictFrame mgr next := by
  obtain ⟨shapeOne, poweredOne, timestampOne, prioOne, abortOne, outsideOne, flushOne,
    stickyOne, cycleOne⟩ := first
  obtain ⟨shapeTwo, poweredTwo, timestampTwo, prioTwo, abortTwo, outsideTwo, flushTwo,
    stickyTwo, cycleTwo⟩ := second
  obtain ⟨_, _, _, _, _, rfl⟩ := shapeOne
  obtain ⟨_, _, _, _, _, rfl⟩ := shapeTwo
  refine ⟨⟨_, _, _, _, _, rfl⟩, poweredTwo.trans poweredOne, timestampTwo.trans timestampOne,
    ?_, ?_, ?_, flushOne.trans flushTwo ?_, ?_, cycleTwo ∘ cycleOne⟩
  · rcases prioTwo with same | pic
    · rcases prioOne with unchanged | pic
      · exact .inl (same.trans unchanged)
      · exact .inr pic
    · exact .inr pic
  · rcases abortTwo with same | flagged
    · rcases abortOne with unchanged | flagged
      · exact .inl (same.trans unchanged)
      · exact .inr ⟨flagged.1, flagged.2.1, by rw [same]; exact flagged.2.2⟩
    · exact .inr flagged
  · exact fun outside => (outsideTwo outside).trans (outsideOne outside)
  · rintro ⟨flagged, lazyCd⟩
    exact ⟨by rw [stickyTwo flagged]; exact flagged, lazyCd⟩
  · intro flagged
    have kept := stickyOne flagged
    exact (stickyTwo (by rw [kept]; exact flagged)).trans kept

/-- Signalling an abort is conflict handling. -/
theorem of_setAbortFlag {signal : AbortSignal} (signalled : mgr.setAbortFlag signal = .ok next) :
    ConflictFrame mgr next := by
  obtain ⟨running, notUnrolling, abort, lazyVersion, rfl, flagged, once, flush⟩ :=
    setAbortFlag_ok signalled
  exact ⟨⟨_, _, _, _, _, rfl⟩, rfl, rfl, .inl rfl, .inr ⟨running, notUnrolling, flagged⟩,
    fun outside => absurd outside running, flush.mono fun lazyCd => ⟨flagged, lazyCd⟩,
    fun already => (once already).1, id⟩

private theorem of_switchHwPrio {remoteHwPrio : Priority} {remoteSwPrio isReceived : Bool}
    (pic : params.conflictResolution = .requesterStallsPicBase)
    (switched : mgr.switchHwPrio remoteHwPrio remoteSwPrio isReceived = .ok next) :
    ConflictFrame mgr next := by
  cases mechanism : params.prioMechanism with
  | noPrio =>
    simp only [switchHwPrio, mechanism, ↓reduceIte, pure_eq_ok] at switched
    exact switched ▸ refl mgr
  | numeric =>
    obtain ⟨prio, rfl⟩ := switchHwPrio_ok switched
    exact ⟨⟨_, _, _, _, _, rfl⟩, rfl, rfl, .inr ⟨pic, mechanism⟩, .inl rfl, fun _ => rfl, .refl _,
      fun _ => rfl, id⟩

/-- The legality check is conflict handling. -/
theorem of_isIllegalNack {addr : Addr} {remotePriority : Priority} {illegal : Bool}
    (judged : mgr.isIllegalNack addr remotePriority = .ok (illegal, next)) :
    ConflictFrame mgr next := by
  obtain ⟨mark, rfl⟩ := isIllegalNack_ok judged
  exact ⟨⟨_, _, _, _, _, rfl⟩, rfl, rfl, .inl rfl, .inl rfl, fun _ => rfl, .refl _, fun _ => rfl,
    id⟩

/-- Bookkeeping of the conflict manager that does not touch its power mode or timestamp, and does
not take back the suspicion of a cycle. -/
theorem of_conflict {conflict : TransactionConflictManager params}
    (powered : conflict.powered = mgr.conflict.powered)
    (timestamp : conflict.timestamp = mgr.conflict.timestamp)
    (cycle : mgr.conflict.possibleCycle = true → conflict.possibleCycle = true) :
    ConflictFrame mgr { mgr with conflict := conflict } :=
  ⟨⟨_, _, _, _, _, rfl⟩, powered, timestamp, .inl rfl, .inl rfl, fun _ => rfl, .refl _,
    fun _ => rfl, cycle⟩

end ConflictFrame

/-- The steps of conflict handling, with the abort signals it may raise. -/
inductive ConflictSteps (Signals : AbortSignal → Prop) :
    TransactionInterfaceManager params n → TransactionInterfaceManager params n → Prop where
  | refl (mgr : TransactionInterfaceManager params n) : ConflictSteps Signals mgr mgr
  | signal {mgr next : TransactionInterfaceManager params n} {signal} (listed : Signals signal)
      (signalled : mgr.setAbortFlag signal = .ok next) : ConflictSteps Signals mgr next
  | switch {mgr next : TransactionInterfaceManager params n} {remoteHwPrio remoteSwPrio isReceived}
      (pic : params.conflictResolution = .requesterStallsPicBase)
      (switched : mgr.switchHwPrio remoteHwPrio remoteSwPrio isReceived = .ok next) :
      ConflictSteps Signals mgr next
  | judge {mgr next : TransactionInterfaceManager params n} {addr remotePriority illegal}
      (judged : mgr.isIllegalNack addr remotePriority = .ok (illegal, next)) :
      ConflictSteps Signals mgr next
  | conflict {mgr : TransactionInterfaceManager params n}
    {conflict : TransactionConflictManager params}
      (powered : conflict.powered = mgr.conflict.powered)
      (timestamp : conflict.timestamp = mgr.conflict.timestamp)
      (cycle : mgr.conflict.possibleCycle = true → conflict.possibleCycle = true) :
      ConflictSteps Signals mgr { mgr with conflict := conflict }
  | trans {mgr middle next : TransactionInterfaceManager params n}
      (first : ConflictSteps Signals mgr middle)
      (second : ConflictSteps Signals middle next) : ConflictSteps Signals mgr next

/-- Each step of conflict handling is conflict handling. -/
theorem ConflictFrame.of_steps {Signals : AbortSignal → Prop}
    (steps : ConflictSteps Signals mgr next) : ConflictFrame mgr next := by
  induction steps with
  | refl => exact .refl _
  | signal _ signalled => exact .of_setAbortFlag signalled
  | switch pic switched => exact .of_switchHwPrio pic switched
  | judge judged => exact .of_isIllegalNack judged
  | conflict powered timestamp cycle => exact .of_conflict powered timestamp cycle
  | trans _ _ first second => exact first.trans second

/-- The abort signals a request may raise.  LogTM leaves out the software priority. -/
def RequestSignals (req : RemoteRequest) (signal : AbortSignal) : Prop :=
  signal = req.abortSignal req.remoteSwPriority ∨
    signal = req.abortSignal false ∧ isTransactionalRequest req.remoteTrans = false

/-- The abort signals a nack may raise. -/
def NackSignals (params : HTMParams) (nack : RemoteRequest) (signal : AbortSignal) : Prop :=
  if params.isRequesterStallsPolicy then ∃ addr, signal = nackAbortSignal nack addr
  else signal = nack.abortSignal false

/-- Sending a nack leaves the abort state alone. -/
theorem notifySendNack_ok (notified : mgr.notifySendNack req = .ok next) :
    ConflictSteps (RequestSignals req) mgr next ∧ next.abort = mgr.abort := by
  unfold notifySendNack at notified
  split at notified
  · split at notified
    · next pic =>
      refine ⟨.switch pic notified, ?_⟩
      obtain ⟨prio, rfl⟩ := switchHwPrio_ok notified
      rfl
    · simp only [bind_eq_ok] at notified
      obtain ⟨inReadSet, -, notified⟩ := notified
      split at notified
      · simp only [run_eq_ok] at notified
        obtain ⟨timestamp, -, older, -, rfl⟩ := notified
        cases older with
        | true => exact ⟨.conflict rfl rfl fun _ => rfl, rfl⟩
        | false => exact ⟨.refl mgr, rfl⟩
      · rw [pure_eq_ok] at notified
        exact notified ▸ ⟨.refl mgr, rfl⟩
  · rw [pure_eq_ok] at notified
    exact notified ▸ ⟨.refl mgr, rfl⟩

/-- A transaction that aborts lets the request through; any other resolves the conflict, and nacks
the request or is marked as aborting. -/
theorem shouldNackRemoteRequest_cases
    (answered : mgr.shouldNackRemoteRequest req = .ok (nack, next)) :
    (mgr.isAbortingOrDoomed = .ok true ∧ next = mgr) ∨
      ∃ middle, mgr.isAbortingOrDoomed = .ok false ∧ mgr.resolveConflict req = .ok (nack, middle) ∧
        if nack then middle.notifySendNack req = .ok next
        else middle.setAbortFlag (req.abortSignal req.remoteSwPriority) = .ok next := by
  simp only [shouldNackRemoteRequest, bind_eq_ok] at answered
  obtain ⟨doomed, asked, answered⟩ := answered
  cases doomed with
  | true => exact .inl ⟨asked, (Prod.mk.inj (pure_eq_ok.mp answered)).2.symm⟩
  | false =>
    simp only [Bool.false_eq_true, ↓reduceIte, run_eq_ok] at answered
    obtain ⟨-, ⟨verdict, middle⟩, resolved, answered⟩ := answered
    refine .inr ⟨middle, asked, ?_⟩
    cases verdict
    all_goals
      simp only [Bool.false_eq_true, ↓reduceIte, run_eq_ok, Prod.mk.injEq] at answered
      obtain ⟨_, done, rfl, rfl⟩ := answered
      exact ⟨resolved, done⟩

/-- A live transaction either nacks the request or is marked as aborting. -/
theorem shouldNackRemoteRequest_live (running : mgr.IsRunning) (live : mgr.abort.abortFlag = false)
    (answered : mgr.shouldNackRemoteRequest req = .ok (nack, next)) :
    nack = true ∨ next.abort.abortFlag = true := by
  rcases shouldNackRemoteRequest_cases answered with ⟨dooms, -⟩ | ⟨middle, -, -, done⟩
  · simp [running.isAbortingOrDoomed, live] at dooms
  · cases nack with
    | true => exact .inl rfl
    | false =>
      obtain ⟨-, -, _, _, rfl, flagged, -, -⟩ := setAbortFlag_ok done
      exact .inr flagged

/-- The requests at which LogTM aborts without the software priority and keeps nacking: those
without a transaction, under the timestamp policies. -/
def dropsPriority (params : HTMParams) (req : RemoteRequest) : Bool :=
  params.isRequesterStallsPolicy && params.conflictResolution ≠ .requesterStallsPicBase &&
    !isTransactionalRequest req.remoteTrans && !params.lazyVm

/-- The verdict has a side effect only where the priority is dropped. -/
theorem resolveConflict_cases (resolved : mgr.resolveConflict req = .ok (nack, next)) :
    (next = mgr ∧ (dropsPriority params req = true → mgr.isUnrollingLog = true ∧ nack = true)) ∨
      (dropsPriority params req = true ∧ nack = true ∧
        mgr.setAbortFlag (req.abortSignal false) = .ok next) := by
  unfold resolveConflict at resolved
  unfold dropsPriority
  repeat' split at resolved
  all_goals simp only [run_eq_ok, Prod.mk.injEq, panicWith_ne_ok] at resolved
  all_goals grind [HTMParams.policyNackNonTransactional_eq_false]

namespace ConflictSteps

private theorem of_resolveConflict (resolved : mgr.resolveConflict req = .ok (nack, next)) :
    ConflictSteps (RequestSignals req) mgr next := by
  rcases resolveConflict_cases resolved with ⟨rfl, -⟩ | ⟨drops, -, signalled⟩
  · exact refl _
  · exact signal (.inr ⟨rfl, by simp_all [dropsPriority]⟩) signalled

private theorem of_shouldNackRemoteRequest
    (answered : mgr.shouldNackRemoteRequest req = .ok (nack, next)) :
    ConflictSteps (RequestSignals req) mgr next := by
  rcases shouldNackRemoteRequest_cases answered with ⟨-, rfl⟩ | ⟨middle, -, resolved, done⟩
  · exact refl next
  · refine (of_resolveConflict resolved).trans ?_
    cases nack with
    | true => exact (notifySendNack_ok done).1
    | false => exact signal (.inl rfl) done

private theorem of_shouldNackLoad (answered : mgr.shouldNackLoad req = .ok (nack, next)) :
    ConflictSteps (RequestSignals req) mgr next := by
  simp only [shouldNackLoad, run_eq_ok] at answered
  obtain ⟨-, answered⟩ := answered
  split at answered
  · simp only [run_eq_ok] at answered
    exact of_shouldNackRemoteRequest answered.2.2
  · simp only [pure_eq_ok, Prod.mk.injEq] at answered
    exact answered.2 ▸ refl mgr

private theorem of_overrideStoreVerdict {localIsWriter : Bool}
    (overridden : mgr.overrideStoreVerdict req localIsWriter = .ok (nack, next)) :
    ConflictSteps (RequestSignals req) mgr next := by
  unfold overrideStoreVerdict at overridden
  repeat' split at overridden
  all_goals simp only [run_eq_ok, Prod.mk.injEq] at overridden
  · obtain ⟨_, signalled, -, rfl⟩ := overridden
    exact signal (.inl rfl) signalled
  · exact overridden.2 ▸ refl mgr
  · obtain ⟨_, -, _, -, -, rfl⟩ := overridden
    exact refl _
  · exact overridden.2 ▸ refl mgr

private theorem of_shouldNackStore (answered : mgr.shouldNackStore req = .ok (nack, next)) :
    ConflictSteps (RequestSignals req) mgr next := by
  simp only [shouldNackStore, run_eq_ok] at answered
  obtain ⟨-, conflicts, -, answered⟩ := answered
  split at answered
  · split at answered
    · simp only [evictFromL2, run_eq_ok] at answered
      obtain ⟨-, answered⟩ := answered
      split at answered
      · simp only [pure_eq_ok, Prod.mk.injEq] at answered
        exact answered.2 ▸ refl mgr
      · simp only [run_eq_ok, Prod.mk.injEq] at answered
        obtain ⟨_, signalled, -, rfl⟩ := answered
        exact signal (.inl rfl) signalled
    · simp only [run_eq_ok] at answered
      obtain ⟨-, -, ⟨verdict, middle⟩, first, answered⟩ := answered
      split at answered
      · exact (of_shouldNackRemoteRequest first).trans (of_overrideStoreVerdict answered)
      · simp only [pure_eq_ok, Prod.mk.injEq] at answered
        exact answered.2 ▸ of_shouldNackRemoteRequest first
  · simp only [pure_eq_ok, Prod.mk.injEq] at answered
    exact answered.2 ▸ refl mgr

private theorem of_receiveNackPicBase (stalls : params.isRequesterStallsPolicy = true)
    (pic : params.conflictResolution = .requesterStallsPicBase)
    (received : mgr.receiveNackPicBase req = .ok next) :
    ConflictSteps (NackSignals params req) mgr next := by
  simp only [receiveNackPicBase, bind_eq_ok] at received
  obtain ⟨⟨illegal, middle⟩, judged, received⟩ := received
  split at received
  · simp only [bind_eq_ok] at received
    obtain ⟨aborted, signalled, switched⟩ := received
    exact (judge judged).trans
      ((signal (by rw [NackSignals, if_pos stalls]; exact ⟨_, rfl⟩) signalled).trans
        (switch pic switched))
  · exact (judge judged).trans (switch pic received)

private theorem of_reactToNack {localTimestamp : Cycles} {wasAborting returned : Bool}
    (reacted : mgr.reactToNack localTimestamp wasAborting req = .ok (returned, next)) :
    ConflictSteps (NackSignals params req) mgr next := by
  unfold reactToNack at reacted
  split at reacted
  · next stalls =>
    split at reacted
    · next pic =>
      split at reacted
      · simp only [pure_eq_ok, Prod.mk.injEq] at reacted
        exact reacted.2 ▸ refl mgr
      · simp only [run_eq_ok, Prod.mk.injEq] at reacted
        obtain ⟨_, received, -, rfl⟩ := reacted
        exact of_receiveNackPicBase stalls pic received
    · unfold receiveNackTimestamp at reacted
      split at reacted
      · simp only [bind_eq_ok] at reacted
        obtain ⟨older, -, reacted⟩ := reacted
        repeat' split at reacted
        all_goals simp only [run_eq_ok, Prod.mk.injEq] at reacted
        · exact reacted.2 ▸ refl mgr
        · obtain ⟨_, signalled, -, rfl⟩ := reacted
          exact signal (by rw [NackSignals, if_pos stalls]; exact ⟨_, rfl⟩) signalled
        · exact reacted.2 ▸ refl mgr
      · simp only [pure_eq_ok, Prod.mk.injEq] at reacted
        exact reacted.2 ▸ refl mgr
  · next patient =>
    split at reacted
    · simp only [run_eq_ok, Prod.mk.injEq] at reacted
      obtain ⟨_, signalled, -, rfl⟩ := reacted
      exact signal (by rw [NackSignals, if_neg patient]) signalled
    · simp only [pure_eq_ok, Prod.mk.injEq] at reacted
      exact reacted.2 ▸ refl mgr

/-- Noting a nack raises only the signals of a nack. -/
theorem of_notifyReceiveNack (received : mgr.notifyReceiveNack req = .ok next) :
    ConflictSteps (NackSignals params req) mgr next := by
  unfold notifyReceiveNack at received
  split at received
  · rw [pure_eq_ok] at received
    exact received ▸ refl mgr
  · simp only [bind_eq_ok] at received
    obtain ⟨timestamp, -, ⟨returned, middle⟩, reacted, received⟩ := received
    have marked : ConflictSteps (NackSignals params req) mgr middle := by
      refine trans ?_ (of_reactToNack reacted)
      exact conflict rfl rfl id
    repeat' split at received
    all_goals rw [pure_eq_ok] at received
    · exact received ▸ marked
    · exact received ▸ marked.trans (conflict rfl rfl id)
    · exact received ▸ marked

end ConflictSteps

namespace ConflictFrame

/-- Answering a request is conflict handling. -/
theorem of_shouldNackRemoteRequest
    (answered : mgr.shouldNackRemoteRequest req = .ok (nack, next)) : ConflictFrame mgr next :=
  of_steps (.of_shouldNackRemoteRequest answered)

/-- Answering a load is conflict handling. -/
theorem of_shouldNackLoad (answered : mgr.shouldNackLoad req = .ok (nack, next)) :
    ConflictFrame mgr next :=
  of_steps (.of_shouldNackLoad answered)

/-- Overriding the verdict is conflict handling. -/
theorem of_overrideStoreVerdict {localIsWriter : Bool}
    (overridden : mgr.overrideStoreVerdict req localIsWriter = .ok (nack, next)) :
    ConflictFrame mgr next :=
  of_steps (.of_overrideStoreVerdict overridden)

/-- Answering a store is conflict handling. -/
theorem of_shouldNackStore (answered : mgr.shouldNackStore req = .ok (nack, next)) :
    ConflictFrame mgr next :=
  of_steps (.of_shouldNackStore answered)

/-- Noting a nack is conflict handling. -/
theorem of_notifyReceiveNack (received : mgr.notifyReceiveNack req = .ok next) :
    ConflictFrame mgr next :=
  of_steps (.of_notifyReceiveNack received)

end ConflictFrame

end Specifications

end TransactionInterfaceManager

end Gem5.Ruby
