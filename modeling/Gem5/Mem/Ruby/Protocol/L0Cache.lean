import Gem5.Mem.Ruby.System.TransactionalSequencer

/-!
# The L0 cache controller of `MESI_Three_Level_HTM_umu`

The actions of the L0 controller that involve the transaction manager: remote
requests and the nacks they are answered with, the reception of nacks, and the
validation of consumed blocks.  The state of the block is an argument where an
action depends on it.
-/

namespace Gem5.Ruby

open Foundation

/-- A nack on its way to the requester; `data` is present in a nack with forwarded data. -/
structure Nack (n : Nat) where
  addr : Addr
  sender : MachineID
  timestamp : Cycles
  trans : TransactionBit
  priority : Priority
  swPriority : Bool
  data : Option (DataBlock n)

/-- The arguments with which a nack reaches the manager. -/
def Nack.toRemote {n : Nat} (nack : Nack n) : RemoteRequest where
  addr := nack.addr
  remoteId := nack.sender
  remoteTimestamp := nack.timestamp
  remoteTrans := nack.trans
  remotePriority := nack.priority
  remoteSwPriority := nack.swPriority

/-- What `fn_sendInvNack` asks about the line: whether it holds data (valid, neither `IM` nor `IS`)
and whether a write is in flight (`SM`). -/
structure LineStatus where
  holdsData : Bool
  writeInFlight : Bool
  deriving DecidableEq, Repr

/-- The fields of a TBE that bound the retries after illegal nacks. -/
structure TBE where
  htmNumReloadsIllegal : Nat
  htmReloadIfIllegal : Bool
  deriving DecidableEq, Repr

/-- The event an incoming nack triggers. -/
inductive NackEvent where
  | nack
  | nackSpec
  | nackSpecIllegalRtry
  deriving DecidableEq, Repr

namespace TransactionInterfaceManager

variable {params : HTMParams} {n : Nat} (mgr : TransactionInterfaceManager params n)

/-- `getTransactionBit`. -/
def getTransactionBit : TransactionBit :=
  if mgr.inTransaction then .trans else .nonTrans

/-- `getOldestTimestamp`. -/
def getOldestTimestamp : Checked Cycles := do
  let oldest := if mgr.transactionLevel > 0 ∧ mgr.conflict.timestamp < mgr.curCycle then
    mgr.conflict.timestamp else mgr.curCycle
  assertThat (oldest > 0) "oldestTime > 0"
  return oldest

/-- A transactional request for a block, with the priorities at its issue. -/
def issueRequest (addr : Addr) : Checked RemoteRequest := do
  let timestamp ← mgr.getOldestTimestamp
  return { addr := addr, remoteId := ⟨.l1Cache, mgr.version⟩, remoteTimestamp := timestamp
           remoteTrans := mgr.getTransactionBit, remotePriority := mgr.getTransactionPriority
           remoteSwPriority := mgr.getSwTransactionPriority }

/-- The nack a request is answered with when no data is forwarded. -/
def plainNack (req : RemoteRequest) : Checked (Nack n) := do
  let timestamp ← mgr.getOldestTimestamp
  return { addr := req.addr, sender := ⟨.l1Cache, mgr.version⟩, timestamp := timestamp
           trans := mgr.getTransactionBit, priority := mgr.getTransactionPriority
           swPriority := mgr.getSwTransactionPriority, data := none }

/-- `fn_sendInvNack`: with forwarded data the nack carries the updated priority. -/
def sendInvNack (req : RemoteRequest) (line : LineStatus) :
    Checked (Nack n × TransactionInterfaceManager params n) := do
  let nack ← mgr.plainNack req
  if line.holdsData then do
    let (forwards, mgr) ← mgr.shouldForwardDataToConsumer req line.writeInFlight
    if forwards then do
      let (data, mgr) ← mgr.addConsumer req
      return ({ nack with priority := mgr.getTransactionPriority, data := some data }, mgr)
    else return (nack, mgr)
  else return (nack, mgr)

/-- A nacked request is answered, any other one is served. -/
def answer (req : RemoteRequest) (line : LineStatus)
    (verdict : Bool × TransactionInterfaceManager params n) :
    Checked (Option (Nack n) × TransactionInterfaceManager params n) :=
  if verdict.1 then do
    let (nack, mgr) ← verdict.2.sendInvNack req line
    return (some nack, mgr)
  else return (none, verdict.2)

/-- A forwarded `GETS`. -/
def remoteLoad (req : RemoteRequest) (line : LineStatus) :
    Checked (Option (Nack n) × TransactionInterfaceManager params n) := do
  let verdict ← mgr.shouldNackLoad req
  answer req line verdict

/-- A forwarded `GETX`: the local copy is exclusive. -/
def remoteStore (req : RemoteRequest) (line : LineStatus) :
    Checked (Option (Nack n) × TransactionInterfaceManager params n) := do
  let verdict ← mgr.shouldNackStore req
  answer req line verdict

/-- The sanity check of `INV_ELSE`: a read-set block is given up only by a doomed transaction. -/
def assertDoomedReader (req : RemoteRequest) : Checked Unit :=
  if req.remoteId.type = .l2Cache then return ()
  else do
    let inReadSet ← mgr.checkReadSignature req.addr
    if inReadSet then do
      let doomed ← mgr.isDoomed
      assertThat (doomed = true) "false"
    else return ()

/-- An invalidation of a shared copy, `INV_ELSE`. -/
def remoteInvalidation (req : RemoteRequest) (line : LineStatus) :
    Checked (Option (Nack n) × TransactionInterfaceManager params n) := do
  let verdict ← mgr.shouldNackStore req
  let answered ← answer req line verdict
  if verdict.1 then return answered
  else do
    answered.2.assertDoomedReader req
    return answered

/-- The legality check of an incoming nack, made only with value forwarding. -/
def judgeNack (nack : Nack n) : Checked (Bool × TransactionInterfaceManager params n) :=
  if params.allowEarlyValueFwd then mgr.isIllegalNack nack.addr nack.priority
  else return (false, mgr)

/-- Whether an illegal nack makes the controller issue the request again. -/
def retriesIllegal (tbe : Option TBE) : Checked Bool :=
  match tbe with
  | none => return false
  | some tbe =>
    if tbe.htmNumReloadsIllegal = 0 || tbe.htmReloadIfIllegal then do
      let doomed ← mgr.isDoomed
      return !doomed
    else return false

/-- The event of an illegal nack. -/
def illegalNackEvent (tbe : Option TBE) :
    Checked (NackEvent × TransactionInterfaceManager params n) :=
  match mgr.getActionOnIllegalData with
  | (.retry, mgr) => do
    let retries ← mgr.retriesIllegal tbe
    return (if retries then .nackSpecIllegalRtry else .nack, mgr)
  | (.abort, mgr) => return (.nack, mgr)

/-- The event of a legal nack. -/
def legalNackEvent (nack : Nack n) : Checked NackEvent :=
  if nack.data.isSome && mgr.inTransaction then do
    let accepts ← mgr.shouldAcceptForwardedDataFromProducer
    return if accepts then .nackSpec else .nack
  else return .nack

/-- The nack case of `messgeBuffer_in`. -/
def nackEvent (nack : Nack n) (tbe : Option TBE) :
    Checked (NackEvent × TransactionInterfaceManager params n) := do
  let (illegal, mgr) ← mgr.judgeNack nack
  if illegal then mgr.illegalNackEvent tbe
  else do
    let event ← mgr.legalNackEvent nack
    return (event, mgr)

/-- `Nack_Spec` on an outstanding request: the data is written to the line, the manager is told,
and the access that missed is performed on it. -/
def consumeForwardedData (nack : Nack n) (data : DataBlock n) (access : Access)
    (issues : Addr → Bool) : Checked (TransactionInterfaceManager params n) := do
  let mgr := mgr.writeLine nack.addr ⟨.readWrite, data, true⟩
  let mgr ← mgr.notifyForwardedDataFromProducer nack.toRemote data
  mgr.specCallback access issues

/-- `vcd_validateConsumedData` followed by `hhxs_store_hit_consumedBlock`: after a failed validation
data that came with permissions replaces the line. -/
def validateConsumedData (addr : Addr) (sender : MachineID) (data : DataBlock n)
    (timestamp : Cycles) (isNack : Bool) : Checked (TransactionInterfaceManager params n) :=
  match mgr.dataCache[makeLineAddress n addr]? with
  | none => return mgr
  | some entry => do
    let (check, cacheData, mgr) ← mgr.validateDataBlock addr sender entry.data data timestamp
      entry.dirty isNack
    assertThat (check = false → isNack = false → entry.dirty = true) "cache_entry.Dirty"
    return mgr.writeLine addr { entry with
      data := if check || isNack then cacheData else data
      dirty := true }

/-- What a nack is for: an access that missed, or the validation of a consumed block.  `issues` says
which flush requests the sequencer accepts when the access completes. -/
inductive Pending where
  | miss (access : Access) (issues : Addr → Bool)
  | validation

/-- The transition of the event an incoming nack triggered. -/
def handleNack (lastAbortHtmUid : Nat) (nack : Nack n) (pending : Pending) (event : NackEvent) :
    Checked (TransactionInterfaceManager params n) :=
  match event with
  | .nackSpecIllegalRtry => return mgr
  | .nack => mgr.failedCallback lastAbortHtmUid nack.toRemote
  | .nackSpec =>
    match nack.data, pending with
    | some data, .miss access issues => mgr.consumeForwardedData nack data access issues
    | some data, .validation =>
      mgr.validateConsumedData nack.addr nack.sender data nack.timestamp true
    | none, _ => .error (.assertion "in_msg.MessageSize == MessageSizeType:Response_Data")

/-- `TransactionalSequencer::validateConsumedData`, when the validation event fires.  `status` is
the answer of `makeRequest`; one that is taken for an accepted request ends the event. -/
def fireValidation (status : RequestStatus) : Checked (TransactionInterfaceManager params n) :=
  match mgr.forwarding.validationEvent with
  | none => return mgr
  | some addr =>
    let mgr := { mgr with forwarding := { mgr.forwarding with validationEvent := none } }
    if mgr.isAborting then return mgr
    else match status with
      | .issued =>
        return { mgr with requestTable := mgr.requestTable.insertIfNew addr mgr.currentHtmUid }
      | .aliased => return mgr
      | .ready | .bufferFull | .aliasedNotIssued => mgr.scheduleValidationOfConsumedData addr

variable {mgr} {next : TransactionInterfaceManager params n}

/-- A nack fit for consumption is legal and its data is accepted. -/
theorem nackEvent_nackSpec {nack : Nack n} {tbe : Option TBE}
    (judged : mgr.nackEvent nack tbe = .ok (.nackSpec, next)) :
    mgr.judgeNack nack = .ok (false, next) ∧
      next.shouldAcceptForwardedDataFromProducer = .ok true := by
  simp only [nackEvent, bind_eq_ok] at judged
  obtain ⟨⟨illegal, middle⟩, legal, judged⟩ := judged
  cases illegal with
  | true =>
    simp only [↓reduceIte, illegalNackEvent] at judged
    split at judged
    · simp only [run_eq_ok, Prod.mk.injEq] at judged
      obtain ⟨retries, -, event, -⟩ := judged
      cases retries <;> simp at event
    · simp [pure, Except.pure] at judged
  | false =>
    simp only [Bool.false_eq_true, ↓reduceIte, legalNackEvent, run_eq_ok, Prod.mk.injEq] at judged
    obtain ⟨_, accepting, rfl, rfl⟩ := judged
    refine ⟨legal, ?_⟩
    split at accepting
    · simp only [run_eq_ok] at accepting
      obtain ⟨accepts, accepted, event⟩ := accepting
      cases accepts with
      | true => exact accepted
      | false => simp at event
    · simp [pure, Except.pure] at accepting

/-- Judging a nack only touches the mark of data to discard. -/
theorem nackEvent_shape {nack : Nack n} {tbe : Option TBE} {event : NackEvent}
    (judged : mgr.nackEvent nack tbe = .ok (event, next)) :
    ∃ mark, next = { mgr with forwarding := { mgr.forwarding with discardFwdData := mark } } := by
  simp only [nackEvent, bind_eq_ok] at judged
  obtain ⟨⟨illegal, middle⟩, checked, judged⟩ := judged
  have marked : ∃ mark, middle =
      { mgr with forwarding := { mgr.forwarding with discardFwdData := mark } } := by
    unfold judgeNack at checked
    split at checked
    · exact isIllegalNack_ok checked
    · exact ⟨_, (Prod.mk.inj (pure_eq_ok.mp checked)).2.symm⟩
  obtain ⟨mark, rfl⟩ := marked
  split at judged
  · simp only [illegalNackEvent, getActionOnIllegalData] at judged
    repeat' split at judged
    all_goals simp only [run_eq_ok, Prod.mk.injEq] at judged
    all_goals grind
  · simp only [run_eq_ok, Prod.mk.injEq] at judged
    obtain ⟨_, -, -, rfl⟩ := judged
    exact ⟨mark, rfl⟩

/-- Whatever the sequencer answers, only the event and the request table change. -/
theorem fireValidation_shape {status : RequestStatus}
    (fired : mgr.fireValidation status = .ok next) : ∃ event table, next = { mgr with
      forwarding := { mgr.forwarding with validationEvent := event }, requestTable := table } := by
  unfold fireValidation at fired
  split at fired
  · exact ⟨_, _, (pure_eq_ok.mp fired).symm⟩
  · dsimp only at fired
    split at fired
    · exact ⟨none, _, (pure_eq_ok.mp fired).symm⟩
    · cases status
      all_goals simp only [scheduleValidationOfConsumedData, run_eq_ok] at fired
      case issued => exact ⟨none, _, fired.symm⟩
      case aliased => exact ⟨none, _, fired.symm⟩
      all_goals
        obtain ⟨-, -, -, -, rfl⟩ := fired
        exact ⟨_, _, rfl⟩

end TransactionInterfaceManager

end Gem5.Ruby
