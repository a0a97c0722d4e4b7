import Gem5.Mem.Ruby.Htm.TransactionConflictManager

/-!
# Value forwarding between transactions

The producer side (whether a nacked requester gets the data with the nack), the
consumer side (reception of forwarded data, access masks, validation against the
data that arrives later), and the replacement of transactional blocks.
-/

namespace Gem5.Ruby

open Foundation

namespace TransactionInterfaceManager

variable {params : HTMParams} {n : Nat}

section Producer

variable (mgr : TransactionInterfaceManager params n)

/-- A transaction that must not forward the block leaves the nack without data, or aborts under
a requester-wins policy. -/
def refuseForwarding (signal : AbortSignal) :
    Checked (Bool × TransactionInterfaceManager params n) :=
  if params.isReqLosesPolicy || params.isRequesterStallsPolicy then return (false, mgr)
  else if params.isReqWinsPolicy then do
    let mgr ← mgr.setAbortFlag signal
    return (false, mgr)
  else panicWith "Invalid policy found!"

/-- Whether the transaction produces for nobody yet, or for this consumer already. -/
def producesFor (consumer : MachineID) : Checked Bool := do
  let producer ← mgr.isProducer
  return !producer || consumer ∈ mgr.forwarding.hasSentDataToConsumer

/-- The last part of `shouldBecomeProducer`: priorities and the forwarding mechanism. -/
def mechanismForwards (req : RemoteRequest) : Checked Bool :=
  if mgr.getSwTransactionPriority || params.fwdMechanism = .naive then return true
  else if mgr.getTransactionPriority - 1 = ncPrioValue then return false
  else if mgr.isConsumer && !(req.remotePriority < mgr.getTransactionPriority) then return false
  else match params.fwdMechanism with
    | .naive => panicWith "Should not reach here"
    | .simple => do
      assertThat (params.prioMechanism = .noPrio) "prioMechanism == HtmHwPrioMechanism::no_prio"
      assertThat (mgr.isConsumer = false) "false"
      return true
    | .w1D1 => do
      assertThat (mgr.isConsumer = false) "!isConsumer()"
      mgr.producesFor req.remoteId
    | .wnD1 => do
      assertThat (mgr.isConsumer = false) "!isConsumer()"
      return true
    | .w1Dn => mgr.producesFor req.remoteId
    | .wnDm => return true
    | .wxDx => return mgr.forwarding.hasSentDataToConsumer.card < params.maxConsumers ||
        req.remoteId ∈ mgr.forwarding.hasSentDataToConsumer
    | .noFwd => panicWith "no_fwd policy reached shouldBecomeProducer!"

/-- `shouldBecomeProducer`. -/
def shouldBecomeProducer (req : RemoteRequest) (writeInFlight : Bool) :
    Checked (Bool × TransactionInterfaceManager params n) := do
  assertThat (params.allowEarlyValueFwd = true) "config_allowEarlyValueFwd()"
  assertThat (mgr.inTransaction = true) "inTransaction()"
  assertThat (req.remoteTrans = .trans) "remote_trans == TransactionBit_Trans"
  assertThat (mgr.isAborting = false) "!isAborting()"
  if params.noProduceOnRetry && mgr.isRetryingTx then return (false, mgr)
  else if params.allowedDataFwd = .onlyWritten && !mgr.checkWriteSignature req.addr &&
      !mgr.conflict.powered then
    mgr.refuseForwarding { req.abortSignal req.remoteSwPriority with specReadConflict := true }
  else if params.allowedDataFwd = .noWriteInFlight && writeInFlight && !mgr.conflict.powered then
    mgr.refuseForwarding { req.abortSignal req.remoteSwPriority with specWriteInFlight := true }
  else do
    assertThat (req.remoteSwPriority = false) "!remote_sw_priority"
    let forwards ← mgr.mechanismForwards req
    return (forwards, mgr)

/-- `shouldForwardDataToConsumer`. -/
def shouldForwardDataToConsumer (req : RemoteRequest) (writeInFlight : Bool) :
    Checked (Bool × TransactionInterfaceManager params n) :=
  if params.allowEarlyValueFwd && !mgr.abort.abortFlag then do
    let canProduce ← mgr.canProduce
    if canProduce then mgr.shouldBecomeProducer req writeInFlight else return (false, mgr)
  else return (false, mgr)

/-- What a transaction has checked before the mechanism decides. -/
structure MayForward (req : RemoteRequest) : Prop where
  unflagged : mgr.abort.abortFlag = false
  produces : mgr.canProduce = .ok true
  running : mgr.inTransaction = true
  remote : req.remoteTrans = .trans
  ordinary : req.remoteSwPriority = false

/-- The abort signals of a refusal. -/
def RefusalSignals (req : RemoteRequest) (signal : AbortSignal) : Prop :=
  signal = { req.abortSignal req.remoteSwPriority with specReadConflict := true } ∨
    signal = { req.abortSignal req.remoteSwPriority with specWriteInFlight := true }

/-- The ways `shouldForwardDataToConsumer` comes to its answer. -/
inductive Asked (req : RemoteRequest) : Bool → TransactionInterfaceManager params n → Prop where
  | silent : Asked req false mgr
  | refused {signal next} (ordinary : mgr.conflict.powered = false)
      (enabled : params.allowEarlyValueFwd = true) (listed : RefusalSignals req signal)
      (refused : mgr.refuseForwarding signal = .ok (false, next)) : Asked req false next
  | judged {verdict} (may : mgr.MayForward req) (judged : mgr.mechanismForwards req = .ok verdict) :
      Asked req verdict mgr

variable {mgr} in
/-- A refusal answers no, and aborts under requester wins only. -/
theorem refuseForwarding_ok {signal : AbortSignal} {verdict : Bool}
    {next : TransactionInterfaceManager params n}
    (refused : mgr.refuseForwarding signal = .ok (verdict, next)) : verdict = false ∧
      (next = mgr ∨ (params.isReqLosesPolicy = false ∧ params.isReqWinsPolicy = true ∧
        mgr.setAbortFlag signal = .ok next)) := by
  unfold refuseForwarding at refused
  repeat' split at refused
  all_goals simp only [run_eq_ok, Prod.mk.injEq, panicWith_ne_ok] at refused
  · exact ⟨refused.1.symm, .inl refused.2.symm⟩
  · next stalls wins =>
    obtain ⟨_, signalled, rfl, rfl⟩ := refused
    exact ⟨rfl, .inr ⟨(Bool.or_eq_false_iff.mp (Bool.eq_false_iff.mpr stalls)).1, wins, signalled⟩⟩

variable {mgr} in
/-- Every answer comes about so. -/
theorem Asked.of_shouldForwardDataToConsumer {req : RemoteRequest} {writeInFlight verdict : Bool}
    {next : TransactionInterfaceManager params n}
    (asked : mgr.shouldForwardDataToConsumer req writeInFlight = .ok (verdict, next)) :
    mgr.Asked req verdict next := by
  have silent : (pure (false, mgr) : Checked _) = .ok (verdict, next) →
    mgr.Asked req verdict next := by
    intro same
    obtain ⟨rfl, rfl⟩ := Prod.mk.inj (pure_eq_ok.mp same)
    exact .silent
  unfold shouldForwardDataToConsumer at asked
  split at asked
  · next enabled =>
    simp only [bind_eq_ok] at asked
    obtain ⟨canProduce, produces, asked⟩ := asked
    split at asked
    · next allowed =>
      subst allowed
      simp only [shouldBecomeProducer, run_eq_ok] at asked
      obtain ⟨-, running, remote, -, asked⟩ := asked
      repeat' split at asked
      · exact silent asked
      · next found =>
        obtain rfl := (refuseForwarding_ok asked).1
        exact .refused (by simp_all) (Bool.and_eq_true_iff.mp enabled).1 (.inl rfl) asked
      · next found =>
        obtain rfl := (refuseForwarding_ok asked).1
        exact .refused (by simp_all) (Bool.and_eq_true_iff.mp enabled).1 (.inr rfl) asked
      · simp only [run_eq_ok, Prod.mk.injEq] at asked
        obtain ⟨ordinary, _, judged, rfl, rfl⟩ := asked
        exact .judged ⟨by simpa using (Bool.and_eq_true_iff.mp enabled).2, produces, running,
          remote, ordinary⟩ judged
    · exact silent asked
  · exact silent asked

/-- The data of a line the transaction may forward: a store hit, or else a load hit. -/
def forwardableData (addr : Addr) : Checked (DataBlock n) :=
  if mgr.dataCache.tryCacheAccess addr .st || mgr.dataCache.tryCacheAccess addr .ld then
    match mgr.dataCache[addr]? with
    | some entry => return entry.data
    | none => .error (.assertion "hit")
  else .error (.assertion "hit")

/-- Whether a new consumer turns a consumer into a producer. -/
def turnsProducer : Checked Bool := do
  let producer ← mgr.isProducer
  if producer then return false else mgr.hasConsumedData

/-- The bookkeeping of `addConsumer` once the priority has been switched. -/
def recordSentData (addr : Addr) (data : DataBlock n) :
    Checked (TransactionInterfaceManager params n) := do
  assertThat (mgr.forwarding.sentDataForwardedToConsumer.contains addr = true →
    mgr.forwarding.allSentData.contains addr = true) "it2 != m_allSentData.end()"
  let mgr := { mgr with forwarding := { mgr.forwarding with
    allSentData := mgr.forwarding.allSentData.insert addr
    sentDataForwardedToConsumer :=
      mgr.forwarding.sentDataForwardedToConsumer.insertIfNew addr data } }
  let _ ← mgr.hasConsumedData
  return mgr

/-- `addConsumer`: the requester gets the data with the nack, and the priority moves above the
requester's.  The forwarded data is returned. -/
def addConsumer (req : RemoteRequest) :
    Checked (DataBlock n × TransactionInterfaceManager params n) := do
  let turns ← mgr.turnsProducer
  let mgr := { mgr with forwarding := { mgr.forwarding with
    consumerTurnedProducer := mgr.forwarding.consumerTurnedProducer || turns
    hasSentDataToConsumer := insert req.remoteId mgr.forwarding.hasSentDataToConsumer } }
  let mgr ← mgr.switchHwPrio req.remotePriority req.remoteSwPriority false
  assertThat (mgr.abort.abortFlag = false) "!m_abortFlag && canProduce()"
  let canProduce ← mgr.canProduce
  assertThat (canProduce = true) "!m_abortFlag && canProduce()"
  let data ← mgr.forwardableData req.addr
  let mgr ← mgr.recordSentData req.addr data
  return (data, mgr)

end Producer

section Consumer

variable (mgr : TransactionInterfaceManager params n)

/-- `shouldAcceptForwardedDataFromProducer`. -/
def shouldAcceptForwardedDataFromProducer : Checked Bool :=
  match params.fwdMechanism with
  | .simple => do
    assertThat (params.prioMechanism = .noPrio) "prioMechanism == HtmHwPrioMechanism::no_prio"
    let producer ← mgr.isProducer
    return !producer
  | .w1D1 | .wnD1 => do
    let producer ← mgr.isProducer
    return !producer
  | .wxDx =>
    if params.maxPrioDiff = 1 then do
      let producer ← mgr.isProducer
      return !producer
    else return true
  | .w1Dn | .wnDm | .naive => return true
  | .noFwd => panicWith "Not known fwd mechanism received fwd data"

/-- `scheduleValidationOfConsumedData`. -/
def scheduleValidationOfConsumedData (addr : Addr) :
    Checked (TransactionInterfaceManager params n) := do
  assertThat (mgr.forwarding.validationEvent = none) "!validationEvent->scheduled()"
  assertThat (mgr.forwarding.recvDataForwardedFromProducer.contains addr = true)
    "it != m_recvDataForwardedFromProducer.end()"
  assertThat (mgr.forwarding.allReceivedData.contains addr = true)
    "it2 != m_allReceivedData.end()"
  assertThat (mgr.isAborting = false) "!isAborting()"
  return { mgr with forwarding := { mgr.forwarding with validationEvent := some addr } }

/-- The first check of `notifyForwardedDataFromProducer`: a producer that consumes for the first
time is marked. -/
def markProducerTurnedConsumer : Checked (TransactionInterfaceManager params n) := do
  let consumed ← mgr.hasConsumedData
  if consumed then return mgr
  else do
    let producer ← mgr.isProducer
    if producer then do
      assertThat (mgr.forwarding.producerTurnedConsumer = false ∧
          mgr.forwarding.consumerTurnedProducer = false)
        "!m_producerTurnedConsumer && !m_consumerTurnedProducer"
      return { mgr with forwarding := { mgr.forwarding with producerTurnedConsumer := true } }
    else return mgr

variable {mgr} in
/-- Only a producer is marked. -/
theorem markProducerTurnedConsumer_shape {next : TransactionInterfaceManager params n}
    (marked : mgr.markProducerTurnedConsumer = .ok next) : ∃ turned, next = { mgr with
        forwarding := { mgr.forwarding with producerTurnedConsumer := turned } } ∧
      (turned = mgr.forwarding.producerTurnedConsumer ∨ mgr.isProducer = .ok true) := by
  simp only [markProducerTurnedConsumer, bind_eq_ok] at marked
  obtain ⟨_, -, marked⟩ := marked
  split at marked
  · exact ⟨_, (pure_eq_ok.mp marked).symm, .inl rfl⟩
  · simp only [bind_eq_ok] at marked
    obtain ⟨_, produces, marked⟩ := marked
    split at marked
    · next turns =>
      simp only [run_eq_ok] at marked
      exact ⟨true, marked.2.symm, .inr (turns ▸ produces)⟩
    · exact ⟨_, (pure_eq_ok.mp marked).symm, .inl rfl⟩

/-- The priority the consumer takes from the nack. -/
def takeNackPriority (nack : RemoteRequest) : Checked (TransactionInterfaceManager params n) :=
  if params.isRequesterStallsPolicy then
    mgr.notifyReceiveNack { nack with remoteTrans := .trans }
  else mgr.switchHwPrio nack.remotePriority nack.remoteSwPriority true

/-- A received block enters the buffer of blocks to validate. -/
def bufferForwardedData (addr : Addr) (data : DataBlock n) : TransactionInterfaceManager params n :=
  { mgr with forwarding := { mgr.forwarding with
    allReceivedData := mgr.forwarding.allReceivedData.insert addr
    recvDataForwardedFromProducer :=
      mgr.forwarding.recvDataForwardedFromProducer.insertIfNew addr
        ⟨data, false, WriteMask.empty, 0⟩ } }

/-- The first unvalidated block makes the transaction a consumer and schedules validation. -/
def becomeConsumer (nack : RemoteRequest) (data : DataBlock n) :
    Checked (TransactionInterfaceManager params n) := do
  let consumed ← mgr.hasConsumedData
  assertThat (consumed = false → mgr.forwarding.allReceivedData.contains nack.addr = false)
    "m_allReceivedData.find(addr) == m_allReceivedData.end()"
  let mgr := mgr.bufferForwardedData nack.addr data
  let mgr := { mgr with forwarding := { mgr.forwarding with
    reconsumer := mgr.forwarding.reconsumer || consumed
    consumerLowPrio := true
    hasReceivedDataFromProducer := nack.remoteId } }
  assertThat (mgr.forwarding.validationEvent = none) "!validationEvent->scheduled()"
  if mgr.isAborting then return mgr else mgr.scheduleValidationOfConsumedData nack.addr

/-- A received block is buffered; the first one makes the transaction a consumer. -/
def consumeData (nack : RemoteRequest) (data : DataBlock n) :
    Checked (TransactionInterfaceManager params n) :=
  if mgr.isConsumer then return mgr.bufferForwardedData nack.addr data
  else mgr.becomeConsumer nack data

/-- The limit on the number of unvalidated blocks. -/
def limitConsumedBlocks (nack : RemoteRequest) : Checked (TransactionInterfaceManager params n) :=
  if mgr.forwarding.recvDataForwardedFromProducer.size > params.maxConsumedBlocks then
    mgr.setAbortFlag { nack.abortSignal nack.remoteSwPriority with
      remoteTrans := .trans, specMaxCapacityOverflow := true }
  else return mgr

/-- The limit on the depth of the chain of the bounded mechanism. -/
def limitPrioDiff (nack : RemoteRequest) : Checked (TransactionInterfaceManager params n) :=
  if params.fwdMechanism = .wxDx ∧
      (initialPrioValue - mgr.hwTransPrio).abs.toInt > params.maxPrioDiff then
    mgr.setAbortFlag { nack.abortSignal nack.remoteSwPriority with
      remoteTrans := .trans, specDepthOverflow := true }
  else return mgr

/-- `notifyForwardedDataFromProducer`: the nack brought data of its sender. -/
def notifyForwardedDataFromProducer (nack : RemoteRequest) (data : DataBlock n) :
    Checked (TransactionInterfaceManager params n) := do
  let mgr ← mgr.markProducerTurnedConsumer
  assertThat (nack.addr = makeLineAddress n nack.addr) "addr == makeLineAddress(addr)"
  assertThat (mgr.isBlockConsumed nack.addr = false) "!isBlockConsumed(addr)"
  let uid ← mgr.packetUid nack.addr
  assertThat (mgr.inTransaction = true ∧ mgr.currentHtmUid ≤ uid) "false"
  let mgr ← mgr.takeNackPriority nack
  let mgr ← mgr.consumeData nack data
  let mgr ← mgr.limitConsumedBlocks nack
  mgr.limitPrioDiff nack

/-- `setAccessOnForwardBlock`: `len` bytes from `offset` on of a consumed block are accessed. -/
def setAccessOnForwardBlock (addr : Addr) (offset len : Nat) (write : Bool) :
    Checked (TransactionInterfaceManager params n) :=
  match mgr.forwarding.recvDataForwardedFromProducer[addr]? with
  | some entry => do
    assertThat (mgr.forwarding.allReceivedData.contains addr = true)
      "it2 != m_allReceivedData.end()"
    let mask ← entry.mask.setMask offset len
    return { mgr with forwarding := { mgr.forwarding with
      recvDataForwardedFromProducer := mgr.forwarding.recvDataForwardedFromProducer.insert addr
        { entry with mask := mask, modified := entry.modified || write } } }
  | none => .error (.assertion "it != m_recvDataForwardedFromProducer.end()")

end Consumer

section Validation

/-- The comparison of `validateDataBlock`: the verdict, the buffered copy and the cache line.
With false-sharing removal the accessed bytes decide, and a block that changed elsewhere is
replaced in the buffer and, around the accessed bytes, in the cache. -/
def compareForwardedData (params : HTMParams) (entry : DataForwarded n)
    (cacheData validatedData : DataBlock n) (dirty : Bool) : Bool × DataForwarded n × DataBlock n :=
  if params.removeFalseSharingForward then
    let check := entry.data.comparePartial validatedData entry.mask
    if entry.data.equal validatedData then (check, entry, cacheData)
    else (check, { entry with data := validatedData },
      if dirty then validatedData.copyPartial cacheData entry.mask else validatedData)
  else if dirty then (entry.data.equal validatedData, entry, cacheData)
  else (cacheData.equal validatedData, entry, cacheData)

/-- Naive forwarding detects no cycles and bounds the number of validations instead. -/
def boundValidations (params : HTMParams) (entry : DataForwarded n) (check : Bool) : Bool :=
  if params.fwdMechanism = .naive then check && entry.nVal ≤ params.nValFwd else check

variable (mgr : TransactionInterfaceManager params n)

/-- The block validated after `addr`: the next one in address order, around the end. -/
def nextToValidate (addr : Addr) : Option Addr :=
  match mgr.forwarding.recvDataForwardedFromProducer.getKeyGT? addr with
  | some next => some next
  | none => mgr.forwarding.recvDataForwardedFromProducer.keys.head?

/-- Unless the transaction aborts, the next validation is scheduled. -/
def scheduleNextValidation (addr : Addr) : Checked (TransactionInterfaceManager params n) :=
  if mgr.isAborting then return mgr
  else match mgr.nextToValidate addr with
    | some next => mgr.scheduleValidationOfConsumedData next
    | none => .error (.assertion "it != m_recvDataForwardedFromProducer.end()")

/-- A failed validation aborts. -/
def abortIfInvalid (addr : Addr) (check : Bool) : Checked (TransactionInterfaceManager params n) :=
  if check then return mgr
  else mgr.setAbortFlag
    { addr := addr, abortSource := createInvalidMachineID, remoteTrans := .nonTrans
      remotePriority := ncPrioValue, validation := true }

/-- Data with permissions completes the validation of the block.  A running transaction that holds
another block goes on with `it++`, although the element of `it` has just been erased. -/
def completeValidation (addr : Addr) : Checked (TransactionInterfaceManager params n) :=
  let mgr := { mgr with forwarding := { mgr.forwarding with
    recvDataForwardedFromProducer := mgr.forwarding.recvDataForwardedFromProducer.erase addr
    hasValidatedAnyData := true } }
  if !mgr.isConsumer && !mgr.isAborting then
    return { mgr with forwarding := { mgr.forwarding with
      hasConsumedValidData := true, consumerLowPrio := false } }
  else if mgr.isAborting then return mgr
  else .error (.undefined "it++")

/-- A nack leaves the block to be validated again. -/
def repeatValidation (addr : Addr) (source : MachineID) (remoteTimestamp : Cycles) :
    Checked (TransactionInterfaceManager params n) :=
  if params.isRequesterStallsPolicy then do
    let mgr ← mgr.notifyReceiveNack
      { addr := addr, remoteId := source, remoteTimestamp := remoteTimestamp
        remoteTrans := .trans, remotePriority := ncPrioValue, remoteSwPriority := false }
    mgr.scheduleNextValidation addr
  else mgr.scheduleNextValidation addr

/-- The end of a validation round: a nack, or data with permissions. -/
def endValidation (addr : Addr) (source : MachineID) (remoteTimestamp : Cycles) (isNack : Bool) :
    Checked (TransactionInterfaceManager params n) :=
  if isNack then mgr.repeatValidation addr source remoteTimestamp
  else mgr.completeValidation addr

/-- `validateDataBlock`: the verdict, the cache line and the manager afterwards. -/
def validateDataBlock (addr : Addr) (source : MachineID) (cacheData validatedData : DataBlock n)
    (remoteTimestamp : Cycles) (dirty isNack : Bool) :
    Checked (Bool × DataBlock n × TransactionInterfaceManager params n) := do
  assertThat (params.allowEarlyValueFwd = true) "config_allowEarlyValueFwd()"
  assertThat (mgr.isConsumer = true) "isConsumer()"
  match mgr.forwarding.recvDataForwardedFromProducer[addr]? with
  | none => .error (.assertion "it != m_recvDataForwardedFromProducer.end()")
  | some entry => do
    assertThat (mgr.forwarding.allReceivedData.contains addr = true)
      "it2 != m_allReceivedData.end()"
    let (check, entry, cacheData) := compareForwardedData params
      { entry with nVal := entry.nVal + 1 } cacheData validatedData dirty
    let check := boundValidations params entry check
    let mgr := { mgr with forwarding := { mgr.forwarding with
      recvDataForwardedFromProducer :=
        mgr.forwarding.recvDataForwardedFromProducer.insert addr entry } }
    let mgr ← mgr.abortIfInvalid addr check
    let mgr ← mgr.endValidation addr source remoteTimestamp isNack
    return (check, cacheData, mgr)

end Validation

section Replacement

variable (mgr : TransactionInterfaceManager params n)

/-- The abort of `xactReplacement`. -/
def replacementSignal (addr : Addr) (source : MachineID) (capacity wset dataStale : Bool) :
    AbortSignal where
  addr := addr
  abortSource := source
  remoteTrans := .nonTrans
  remotePriority := ncPrioValue
  capacity := capacity
  wset := wset
  dataStale := dataStale

/-- Eviction of a write-set block, which LogTM tolerates. -/
def replaceWriteSetBlock (addr : Addr) (source : MachineID) (capacity dataStale : Bool) :
    Checked (TransactionInterfaceManager params n) :=
  if params.lazyVm then
    let mgr := if capacity then
      { mgr with writeSetDiscarded := mgr.writeSetDiscarded.insert addr } else mgr
    mgr.setAbortFlag (replacementSignal addr source capacity true dataStale)
  else return mgr

/-- The block an outstanding load has read was invalidated. -/
def replaceStaleBlock (addr : Addr) (source : MachineID) (capacity : Bool) :
    Checked (TransactionInterfaceManager params n) := do
  let doomed ← mgr.isDoomed
  if doomed || !mgr.inTransaction then return mgr
  else do
    let uid ← mgr.packetUid addr
    if uid < mgr.currentHtmUid ∧ params.preciseReadSetTracking = false then do
      let mgr ← mgr.isolateTransactionLoad addr
      mgr.setAbortFlag (replacementSignal addr source capacity false true)
    else mgr.setAbortFlag (replacementSignal addr source capacity false true)

/-- A consumed block was evicted before its validation. -/
def replaceConsumedBlock (addr : Addr) (source : MachineID) (capacity : Bool) :
    Checked (TransactionInterfaceManager params n) := do
  assertThat (mgr.isBlockConsumed addr = true) "isBlockConsumed(addr)"
  assertThat (mgr.forwarding.allReceivedData.contains addr = true)
    "m_allReceivedData.find(addr) != m_allReceivedData.end()"
  let mgr := { mgr with forwarding := { mgr.forwarding with
    recvDataForwardedFromProducer := mgr.forwarding.recvDataForwardedFromProducer.erase addr } }
  let doomed ← mgr.isDoomed
  if doomed || !mgr.inTransaction then return mgr
  else do
    let _ ← mgr.checkReadSignature addr
    mgr.setAbortFlag (replacementSignal addr source capacity false false)

/-- Whether a read-set eviction signalled by `source` is tolerated. -/
def toleratesReadSetEviction (source : MachineID) : Bool :=
  mgr.isUnrollingLog || (source.num = mgr.version && source.type ≠ .l2Cache &&
    ((params.allowReadSetL0CacheEvictions && source.type = .l0Cache) ||
      params.allowReadSetL1CacheEvictions))

/-- `xactReplacement`. -/
def xactReplacement (addr : Addr) (source : MachineID) (capacity dataStale spec : Bool) :
    Checked (TransactionInterfaceManager params n) := do
  assertThat (makeLineAddress n addr = addr) "makeLineAddress(addr) == addr"
  if mgr.checkWriteSignature addr then mgr.replaceWriteSetBlock addr source capacity dataStale
  else if dataStale then mgr.replaceStaleBlock addr source capacity
  else if spec then mgr.replaceConsumedBlock addr source capacity
  else do
    let inReadSet ← mgr.checkReadSignature addr
    assertThat (inReadSet = true) "checkReadSignature(addr)"
    if mgr.toleratesReadSetEviction source then return mgr
    else mgr.setAbortFlag (replacementSignal addr source capacity false false)

end Replacement

end TransactionInterfaceManager

end Gem5.Ruby
