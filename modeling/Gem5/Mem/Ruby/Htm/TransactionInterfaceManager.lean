import Gem5.Mem.Ruby.Htm.TransactionIsolationManager
import Gem5.Mem.Ruby.Htm.TransactionVersionManager
import Gem5.Mem.Ruby.Htm.LazyTransactionCommitArbiter

/-!
# `TransactionInterfaceManager`: state, queries and the abort flag

One manager per core ties together the read and write sets, the conflict
manager, the version managers, the commit arbiter and the bookkeeping of value
forwarding.  The state below holds every field that a modelled function reads;
statistics, the profiler and the optional value and isolation checkers are left
out, and of the statistics maps only the keys are kept, because assertions look
them up.  What the manager asks its environment for (the current cycle, whether
the sequencer is stalled, the uids of the packets in the request table, the L0
data cache) is part of the state.
-/

namespace Gem5.Ruby

open Foundation

/-- The state of `TransactionConflictManager`.  The assertion of `isPowered` is the proof
field: only a power policy has power transactions. -/
structure TransactionConflictManager (params : HTMParams) where
  timestamp : Cycles
  possibleCycle : Bool
  lockTimestamp : Bool
  numRetries : Nat
  powered : Bool
  sentNack : Bool
  sentNackAddr : Addr
  receivedNack : Bool
  abortedByNack : Bool
  doomed : Bool
  isPowered_policy : powered = true → params.isPowerTMPolicy = true

/-- A consumed block awaiting validation: the forwarded data, whether the transaction has
written the block, the bytes it has accessed, and the number of validations. -/
structure DataForwarded (n : Nat) where
  data : DataBlock n
  modified : Bool
  mask : WriteMask n
  nVal : Nat

/-- The abort flag of the manager and what it records about the abort. -/
structure AbortState where
  abortFlag : Bool
  abortCause : AbortCause
  abortSourceNonTransactional : Bool
  capacityAbortWriteSet : Bool
  abortAddress : Addr
  deriving DecidableEq, Repr

/-- No abort signalled. -/
def AbortState.init : AbortState := ⟨false, .undefined, false, false, 0⟩

/-- The producer-consumer bookkeeping of the manager.  `validationEvent` is the address the
validation event is scheduled for. -/
structure ValueForwarding (n : Nat) where
  hasSentDataToConsumer : Finset MachineID
  hasReceivedDataFromProducer : MachineID
  recvDataForwardedFromProducer : Std.ExtTreeMap Addr (DataForwarded n)
  sentDataForwardedToConsumer : Std.ExtTreeMap Addr (DataBlock n)
  allReceivedData : Std.ExtTreeSet Addr
  allSentData : Std.ExtTreeSet Addr
  hasConsumedValidData : Bool
  hasValidatedAnyData : Bool
  consumerLowPrio : Bool
  reconsumer : Bool
  consumerTurnedProducer : Bool
  producerTurnedConsumer : Bool
  discardFwdData : Bool
  validationEvent : Option Addr

/-- Neither producer nor consumer. -/
def ValueForwarding.init (n : Nat) : ValueForwarding n where
  hasSentDataToConsumer := ∅
  hasReceivedDataFromProducer := createInvalidMachineID
  recvDataForwardedFromProducer := ∅
  sentDataForwardedToConsumer := ∅
  allReceivedData := ∅
  allSentData := ∅
  hasConsumedValidData := false
  hasValidatedAnyData := false
  consumerLowPrio := false
  reconsumer := false
  consumerTurnedProducer := false
  producerTurnedConsumer := false
  discardFwdData := false
  validationEvent := none

/-- The arguments of `setAbortFlag`. -/
structure AbortSignal where
  addr : Addr
  abortSource : MachineID
  remoteTrans : TransactionBit
  remotePriority : Priority
  remoteSwPriority : Bool := false
  capacity : Bool := false
  wset : Bool := false
  dataStale : Bool := false
  validation : Bool := false
  specDepthOverflow : Bool := false
  specMaxCapacityOverflow : Bool := false
  specWriteInFlight : Bool := false
  specReadConflict : Bool := false

/-- The cause `setAbortFlag` derives from its arguments, stored with the abort address
`abortAddress`. -/
def AbortSignal.record (signal : AbortSignal) (params : HTMParams) (version : Nat)
    (abortAddress : Addr) (abort : AbortState) : Checked AbortState := do
  let abort := { abort with abortFlag := true, abortAddress := abortAddress }
  assertThat (abort.abortCause = .undefined) "m_abortCause == HTMStats::AbortCause::Undefined"
  if signal.validation then return { abort with abortCause := .specValidation }
  else if signal.specDepthOverflow then return { abort with abortCause := .specDepthOverflow }
  else if signal.specMaxCapacityOverflow then
    return { abort with abortCause := .specMaxCapacityOverflow }
  else if signal.specWriteInFlight then return { abort with abortCause := .specWriteInFlight }
  else if signal.specReadConflict then return { abort with abortCause := .specReadConflict }
  else if signal.dataStale then return { abort with abortCause := .conflictStale }
  else if signal.remoteSwPriority then return { abort with abortCause := .conflictPower }
  else if signal.abortSource.num = version ∧ signal.abortSource.type ≠ .l2Cache then
    if signal.abortSource.type = .l0Cache then
      if signal.capacity then
        return { abort with abortCause := .l0Capacity, capacityAbortWriteSet := signal.wset }
      else return { abort with abortCause := .wrongL0 }
    else do
      assertThat (signal.abortSource.type = .l1Cache)
        "machineIDToMachineType(abortSource) == MachineType_L1Cache"
      assertThat (signal.capacity = false) "!capacity"
      return { abort with abortCause := .l1Capacity }
  else if signal.abortSource.type = .l2Cache then return { abort with abortCause := .l2Capacity }
  else do
    assertThat (signal.abortSource.type = .l1Cache)
      "machineIDToMachineType(abortSource) == MachineType_L1Cache"
    assertThat (abortAddress ≠ 0) "m_abortAddress"
    return { abort with
      abortSourceNonTransactional := !isTransactionalRequest signal.remoteTrans
      abortCause := if abortAddress = params.fallbackLockPAddr then .fallbackLock else .conflict }

/-- A cause is recorded only for the first abort of a transaction, and the flag is set. -/
theorem AbortSignal.record_ok {signal : AbortSignal} {params : HTMParams} {version : Nat}
    {abortAddress : Addr} {abort after : AbortState}
    (recorded : signal.record params version abortAddress abort = .ok after) :
    abort.abortCause = .undefined ∧ after.abortFlag = true ∧ after.abortCause ≠ .undefined := by
  simp only [AbortSignal.record, bind_eq_ok, assertThat_eq_ok] at recorded
  obtain ⟨-, first, recorded⟩ := recorded
  refine ⟨first, ?_⟩
  iterate 7
    rcases early_return recorded with ⟨-, rfl⟩ | ⟨-, recorded⟩
    · simp
  repeat' split at recorded
  all_goals simp only [run_eq_ok] at recorded
  all_goals grind

/-- The unset value of `m_htmXid`, `std::numeric_limits<long>::min()`. -/
def htmXidUnset : Int := -2 ^ 63

/-- The state of the manager of one core, for blocks of `n` bytes. -/
structure TransactionInterfaceManager (params : HTMParams) (n : Nat) where
  version : Nat
  transactionLevel : Nat
  currentHtmUid : Nat
  htmXid : Int
  escapeLevel : Nat
  unrollingLogFlag : Bool
  atCommit : Bool
  hwTransPrio : Priority
  abort : AbortState
  forwarding : ValueForwarding n
  writeSetDiscarded : Std.ExtTreeSet Addr
  isolation : TransactionIsolationManager
  conflict : TransactionConflictManager params
  lazyVersion : LazyTransactionVersionManager
  eagerVersion : EagerTransactionVersionManager
  arbiter : LazyTransactionCommitArbiter
  dataCache : CacheMemory n
  curCycle : Cycles
  stalled : Bool
  requestTable : Std.ExtTreeMap Addr Nat

/-- A transaction that is not powered asks nothing of the policy. -/
theorem TransactionConflictManager.unpowered_policy (params : HTMParams) :
    false = true → params.isPowerTMPolicy = true := by simp

/-- The conflict manager before the first transaction. -/
def TransactionConflictManager.init (params : HTMParams) : TransactionConflictManager params where
  timestamp := 0
  possibleCycle := false
  lockTimestamp := false
  numRetries := 0
  powered := false
  sentNack := false
  sentNackAddr := 0
  receivedNack := false
  abortedByNack := false
  doomed := false
  isPowered_policy := unpowered_policy params

namespace TransactionInterfaceManager

variable {params : HTMParams} {n : Nat}

/-- The state the constructor leaves, with an undo log that has been set up. -/
def init (params : HTMParams) (n : Nat) (version : Nat) (log : Std.ExtTreeMap Addr Addr) :
    TransactionInterfaceManager params n where
  version := version
  transactionLevel := 0
  currentHtmUid := 0
  htmXid := htmXidUnset
  escapeLevel := 0
  unrollingLogFlag := false
  atCommit := false
  hwTransPrio := ncPrioValue
  abort := .init
  forwarding := .init n
  writeSetDiscarded := ∅
  isolation := .init
  conflict := .init params
  lazyVersion := .init
  eagerVersion := ⟨0, .ready, log⟩
  arbiter := .idle
  dataCache := ∅
  curCycle := 1
  stalled := false
  requestTable := ∅

section Queries

variable (mgr : TransactionInterfaceManager params n)

/-- `inTransaction`. -/
def inTransaction : Bool :=
  mgr.transactionLevel > 0 && mgr.escapeLevel = 0

/-- `isAborting`. -/
def isAborting : Bool :=
  mgr.inTransaction && mgr.abort.abortFlag

/-- `isUnrollingLog`. -/
def isUnrollingLog : Bool :=
  !params.lazyVm && mgr.unrollingLogFlag

/-- `isDoomed`: aborting or bound to abort. -/
def isDoomed : Checked Bool :=
  if mgr.isUnrollingLog then do
    assertThat (mgr.abort.abortFlag = false) "!m_abortFlag"
    return true
  else return mgr.abort.abortFlag

/-- `isPowerMode`, which is also `getSwTransactionPriority`. -/
def getSwTransactionPriority : Bool :=
  mgr.conflict.powered

/-- `getTransactionPriority`. -/
def getTransactionPriority : Priority :=
  match params.prioMechanism with
  | .noPrio => ncPrioValue
  | .numeric => mgr.hwTransPrio

/-- `checkReadSignature`. -/
def checkReadSignature (addr : Addr) : Checked Bool :=
  mgr.isolation.isInReadSetPerfectFilter n mgr.transactionLevel params.preciseReadSetTracking addr

/-- `checkWriteSignature`. -/
def checkWriteSignature (addr : Addr) : Bool :=
  mgr.isolation.isInWriteSetPerfectFilter n addr

/-- `isConsumer`: some forwarded block is not validated yet. -/
def isConsumer : Bool :=
  !mgr.forwarding.recvDataForwardedFromProducer.isEmpty

/-- `isBlockConsumed`. -/
def isBlockConsumed (addr : Addr) : Bool :=
  mgr.forwarding.recvDataForwardedFromProducer.contains (makeLineAddress n addr)

/-- `isBlockProduced`. -/
def isBlockProduced (addr : Addr) : Bool :=
  mgr.forwarding.sentDataForwardedToConsumer.contains (makeLineAddress n addr)

/-- `canProduce`. -/
def canProduce : Checked Bool :=
  if params.isProducerPolicy then
    match params.fwdMechanism with
    | .noFwd => return false
    | .simple => do
      assertThat (params.prioMechanism = .noPrio) "prioMechanism == HtmHwPrioMechanism::no_prio"
      return !mgr.isConsumer
    | .w1D1 | .wnD1 => return !mgr.isConsumer
    | .wxDx => return !(params.maxPrioDiff = 1 && mgr.isConsumer)
    | .w1Dn | .wnDm | .naive => return true
  else return false

/-- `isProducer`. -/
def isProducer : Checked Bool :=
  if mgr.forwarding.hasSentDataToConsumer = ∅ then do
    assertThat (mgr.forwarding.sentDataForwardedToConsumer.isEmpty = true)
      "m_sentDataForwardedToConsumer.empty()"
    return false
  else do
    let canProduce ← mgr.canProduce
    assertThat (canProduce = true) "canProduce()"
    assertThat (mgr.forwarding.sentDataForwardedToConsumer.isEmpty = false)
      "!m_sentDataForwardedToConsumer.empty()"
    return true

/-- `hasConsumedData`. -/
def hasConsumedData : Checked Bool := do
  let received := mgr.forwarding.hasReceivedDataFromProducer ≠ createInvalidMachineID
  if mgr.forwarding.hasConsumedValidData then
    assertThat received "m_hasReceivedDataFromProducer != createInvalidMachineID()"
  else
    assertThat (received → mgr.isConsumer = false → mgr.isAborting = true) "isAborting()"
  return received

/-- `isRetryingTx`. -/
def isRetryingTx : Bool :=
  mgr.conflict.numRetries ≠ 0

end Queries

section Accesses

variable (mgr : TransactionInterfaceManager params n)

/-- `isolateTransactionLoad`: without precise tracking a load may overtake the begin. -/
def isolateTransactionLoad (addr : Addr) : Checked (TransactionInterfaceManager params n) := do
  assertThat (if mgr.transactionLevel = 0 then params.preciseReadSetTracking = false
    else mgr.transactionLevel = 1)
    "m_transactionLevel == 0 ? !precise_read_set_tracking : m_transactionLevel == 1"
  return { mgr with isolation :=
    mgr.isolation.addToReadSetPerfectFilter n mgr.transactionLevel (makeLineAddress n addr) }

/-- `addToRetiredReadSet`. -/
def addToRetiredReadSet (addr : Addr) : Checked (TransactionInterfaceManager params n) := do
  assertThat (mgr.transactionLevel = 1) "m_transactionLevel == 1"
  let isolation ← mgr.isolation.addToRetiredReadSet n (makeLineAddress n addr)
  return { mgr with isolation := isolation }

/-- `isolateTransactionStore`. -/
def isolateTransactionStore (addr : Addr) : Checked (TransactionInterfaceManager params n) := do
  assertThat (mgr.transactionLevel > 0) "m_transactionLevel > 0"
  return { mgr with isolation :=
    mgr.isolation.addToWriteSetPerfectFilter n (makeLineAddress n addr) }

/-- `redirectStoreToWriteBuffer`: a store of a lazy-lazy transaction. -/
def redirectStoreToWriteBuffer (addr : Addr) (data : List UInt8) :
    Checked (TransactionInterfaceManager params n) := do
  assertThat (mgr.transactionLevel > 0) "getTransactionLevel() > 0"
  let lazyVersion ← mgr.lazyVersion.addToWriteBuffer mgr.transactionLevel n addr data
  return { mgr with
    lazyVersion := lazyVersion
    isolation := mgr.isolation.redirectedStoreToWriteBuffer (makeLineAddress n addr) }

end Accesses

section AbortFlag

variable (mgr : TransactionInterfaceManager params n)

/-- Outside a transaction `setAbortFlag` always stops. -/
def setAbortFlagOutside (addr : Addr) : Checked (TransactionInterfaceManager params n) := do
  assertThat (params.preciseReadSetTracking = false) "!m_htm->params().precise_read_set_tracking"
  let overtaking ← mgr.isolation.wasOvertakingRead addr
  assertThat (overtaking = true) "getXactIsolationManager()->wasOvertakingRead(addr)"
  panicWith "setAbortFlag with TL=0!"

/-- An abort during the flush of the write buffer cancels the rest of the flush. -/
def cancelFlushOnAbort : Checked LazyTransactionVersionManager :=
  if !params.eagerCd && mgr.lazyVersion.committing then
    mgr.lazyVersion.cancelWriteBufferFlush mgr.transactionLevel
  else .ok mgr.lazyVersion

/-- `setAbortFlag`: signal an abort to the CPU, once. -/
def setAbortFlag (signal : AbortSignal) : Checked (TransactionInterfaceManager params n) :=
  if mgr.transactionLevel = 0 then mgr.setAbortFlagOutside signal.addr
  else do
    assertThat (mgr.isUnrollingLog = false) "!isUnrollingLog()"
    if mgr.abort.abortFlag then return mgr
    else do
      let lazyVersion ← mgr.cancelFlushOnAbort
      let abort ← signal.record params mgr.version (makeLineAddress n signal.addr) mgr.abort
      let mgr := { mgr with abort := abort, lazyVersion := lazyVersion }
      let _ ← mgr.hasConsumedData
      return mgr

variable {mgr} {signal : AbortSignal} {next : TransactionInterfaceManager params n}

/-- Only lazy conflict detection has a flush to cancel. -/
theorem cancelFlushOnAbort_ok {lazyVersion : LazyTransactionVersionManager}
    (cancelled : mgr.cancelFlushOnAbort = .ok lazyVersion) :
    mgr.lazyVersion.FlushKept lazyVersion (params.eagerCd = false) := by
  unfold cancelFlushOnAbort at cancelled
  split at cancelled
  · next lazyCd =>
    simp only [LazyTransactionVersionManager.cancelWriteBufferFlush, run_eq_ok] at cancelled
    rw [← cancelled.2.2.2]
    exact ⟨rfl, fun _ => .inr (by simp_all)⟩
  · exact (Except.ok.inj cancelled) ▸ .refl _

/-- What a successful `setAbortFlag` changes: the abort state, and the flush of a committing
lazy-lazy transaction. -/
theorem setAbortFlag_ok (signalled : mgr.setAbortFlag signal = .ok next) :
    mgr.transactionLevel ≠ 0 ∧ mgr.isUnrollingLog = false ∧
    ∃ abort lazyVersion, next = { mgr with abort := abort, lazyVersion := lazyVersion } ∧
      abort.abortFlag = true ∧
      (mgr.abort.abortFlag = true → abort = mgr.abort ∧ lazyVersion = mgr.lazyVersion) ∧
      mgr.lazyVersion.FlushKept lazyVersion (params.eagerCd = false) := by
  unfold setAbortFlag at signalled
  split at signalled
  · simp [setAbortFlagOutside] at signalled
  · next running =>
    simp only [run_eq_ok] at signalled
    obtain ⟨notUnrolling, signalled⟩ := signalled
    refine ⟨running, notUnrolling, ?_⟩
    split at signalled
    · next already =>
      rw [pure_eq_ok] at signalled
      subst signalled
      exact ⟨mgr.abort, mgr.lazyVersion, rfl, already, fun _ => ⟨rfl, rfl⟩, .refl _⟩
    · next first =>
      simp only [run_eq_ok] at signalled
      obtain ⟨lazyVersion, cancelled, abort, recorded, -, -, rfl⟩ := signalled
      exact ⟨abort, lazyVersion, rfl, (AbortSignal.record_ok recorded).2.1,
        fun already => absurd already first, cancelFlushOnAbort_ok cancelled⟩

end AbortFlag

section Priority

/-- The priority of a producer after it nacks a request of priority `remote`. -/
def producerPrio (prio remote : Priority) : Priority :=
  if remote = ncPrioValue then if prio = remote then initialPrioValue else prio
  else if prio > remote then prio else remote + 1

variable (mgr : TransactionInterfaceManager params n)

/-- Whether nacking a request may move the priority of this transaction. -/
def priorityMovable : Bool :=
  (params.conflictResolution = .requesterStallsPicBase && !mgr.stalled) ||
    (params.allowEarlyValueFwd && !mgr.isConsumer)

/-- `switchHwPrio`: the receiver of a nack places itself below the nacker unless it has a
priority already, the sender places itself above the requester. -/
def switchHwPrio (remoteHwPrio : Priority) (remoteSwPrio isReceived : Bool) :
    Checked (TransactionInterfaceManager params n) :=
  if params.prioMechanism = .noPrio then return mgr
  else do
    assertThat (params.conflictResolution = .requesterStallsPicBase ∨
        params.allowEarlyValueFwd = true)
      "config_conflictResPolicy() == requester_stalls_pic_base || config_allowEarlyValueFwd()"
    if isReceived then
      if mgr.hwTransPrio = ncPrioValue ∧ remoteSwPrio = false then do
        assertThat (mgr.getSwTransactionPriority = false) "!getSwTransactionPriority()"
        return { mgr with hwTransPrio := remoteHwPrio - 1 }
      else return mgr
    else if mgr.getSwTransactionPriority then do
      assertThat (mgr.hwTransPrio = ncPrioValue) "m_hwTransPrio == NC_PRIO_VALUE"
      return mgr
    else if mgr.priorityMovable then do
      assertThat (remoteHwPrio ≠ ncPrioValue →
          (mgr.stalled = false ∧ mgr.isConsumer = false) ∨ mgr.hwTransPrio > remoteHwPrio)
        "(!isStalled() && !isConsumer()) || m_hwTransPrio > remote_hw_prio"
      return { mgr with hwTransPrio := producerPrio mgr.hwTransPrio remoteHwPrio }
    else return mgr

/-- The uid of the packet in the sequencer's request table. -/
def packetUid (addr : Addr) : Checked Nat :=
  match mgr.requestTable[addr]? with
  | some uid => return uid
  | none => .error (.assertion "getPacketFromRequestTable(addr)")

/-- `isIllegalNack`: the nack answers a request of an earlier transaction, or comes from a
transaction whose priority is not above the local one. -/
def isIllegalNack (addr : Addr) (remotePriority : Priority) :
    Checked (Bool × TransactionInterfaceManager params n) := do
  let uid ← mgr.packetUid addr
  if uid < mgr.currentHtmUid ∨ mgr.isAborting = true then
    return (true, { mgr with forwarding := { mgr.forwarding with discardFwdData := true } })
  else if params.prioMechanism ≠ .noPrio ∧ params.fwdCycleSolveStrategy ≠ .noStrategy ∧
      (remotePriority ≤ mgr.hwTransPrio ∨
        (params.ncNotProducer = false ∧ remotePriority = ncPrioValue)) then do
    assertThat (params.allowEarlyValueFwd = true ∨
        params.conflictResolution = .requesterStallsPicBase)
      "config_allowEarlyValueFwd() || config_conflictResPolicy() == requester_stalls_pic_base"
    return (true, mgr)
  else return (false, mgr)

/-- `ActionOnIllegalWriteData`. -/
inductive ActionOnIllegalWriteData where
  | abort
  | retry
  deriving DecidableEq, Repr

/-- `getActionOnIllegalData`. -/
def getActionOnIllegalData : ActionOnIllegalWriteData × TransactionInterfaceManager params n :=
  if mgr.forwarding.discardFwdData then
    (.abort, { mgr with forwarding := { mgr.forwarding with discardFwdData := false } })
  else match params.fwdCycleSolveStrategy with
    | .retry => (.retry, mgr)
    | .abort | .noStrategy => (.abort, mgr)

variable {mgr} {next : TransactionInterfaceManager params n}

variable {remoteHwPrio : Priority} {remoteSwPrio : Bool}

/-- The receiver of a nack takes a priority only when it has none. -/
theorem switchHwPrio_received_ok
    (switched : mgr.switchHwPrio remoteHwPrio remoteSwPrio true = .ok next) : next = { mgr with
      hwTransPrio := if params.prioMechanism ≠ .noPrio ∧ mgr.hwTransPrio = ncPrioValue ∧
        remoteSwPrio = false then remoteHwPrio - 1 else mgr.hwTransPrio } := by
  unfold switchHwPrio at switched
  split at switched
  · next none => simp_all
  · next numeric =>
    simp only [↓reduceIte, run_eq_ok] at switched
    obtain ⟨-, switched⟩ := switched
    split at switched
    · next takes =>
      simp only [run_eq_ok] at switched
      rw [← switched.2, if_pos ⟨numeric, takes⟩]
    · next keeps =>
      rw [pure_eq_ok] at switched
      rw [← switched, if_neg fun takes => keeps takes.2]

/-- The sender of a nack moves only while it may, and never as a power transaction. -/
theorem switchHwPrio_sent_ok
    (switched : mgr.switchHwPrio remoteHwPrio remoteSwPrio false = .ok next) : next = { mgr with
      hwTransPrio := if params.prioMechanism ≠ .noPrio ∧ mgr.conflict.powered = false ∧
        mgr.priorityMovable = true then producerPrio mgr.hwTransPrio remoteHwPrio
        else mgr.hwTransPrio } := by
  unfold switchHwPrio at switched
  split at switched
  · next none => simp_all
  · next numeric =>
    simp only [Bool.false_eq_true, ↓reduceIte, run_eq_ok] at switched
    obtain ⟨-, switched⟩ := switched
    split at switched
    · next powered =>
      simp only [run_eq_ok] at switched
      rw [← switched.2, if_neg]
      simpa [getSwTransactionPriority, numeric] using fun off => absurd powered (by simp [off,
        getSwTransactionPriority])
    · next notPowered =>
      have notPowered : mgr.conflict.powered = false := by
        simpa [getSwTransactionPriority] using notPowered
      split at switched
      · next movable =>
        simp only [run_eq_ok] at switched
        rw [← switched.2, if_pos ⟨numeric, notPowered, movable⟩]
      · next fixed =>
        rw [pure_eq_ok] at switched
        rw [← switched, if_neg fun moves => fixed moves.2.2]

/-- `switchHwPrio` changes nothing but the priority. -/
theorem switchHwPrio_ok {isReceived : Bool}
    (switched : mgr.switchHwPrio remoteHwPrio remoteSwPrio isReceived = .ok next) :
    ∃ prio, next = { mgr with hwTransPrio := prio } := by
  cases isReceived with
  | true => exact ⟨_, switchHwPrio_received_ok switched⟩
  | false => exact ⟨_, switchHwPrio_sent_ok switched⟩

/-- `isIllegalNack` changes nothing but the discard mark. -/
theorem isIllegalNack_ok {addr : Addr} {remotePriority : Priority} {illegal : Bool}
    (judged : mgr.isIllegalNack addr remotePriority = .ok (illegal, next)) :
    ∃ mark, next = { mgr with forwarding := { mgr.forwarding with discardFwdData := mark } } := by
  simp only [isIllegalNack, bind_eq_ok] at judged
  obtain ⟨uid, -, judged⟩ := judged
  repeat' split at judged
  all_goals simp only [run_eq_ok, Prod.mk.injEq] at judged
  · exact ⟨true, judged.2.symm⟩
  · exact ⟨mgr.forwarding.discardFwdData, judged.2.2.symm⟩
  · exact ⟨mgr.forwarding.discardFwdData, judged.2.symm⟩

end Priority

end TransactionInterfaceManager

end Gem5.Ruby
