import Gem5.Mem.Ruby.Protocol.L0Cache

/-!
# What a call of the manager leaves alone

Every function of the manager that is not a life cycle command keeps the control
state: level, uid, xid, escape level, commit and unroll flags.  `CallFrame` says so
together with the few facts about the rest that the invariants of a core need.  What
else a call may leave alone is said by relations of its own: the data (`SameData`,
`SameReceiver`), the priority and the roles (`RankKept`), the blocks to validate
(`RoundKept`).
-/

namespace Gem5.Ruby

open Foundation

namespace TransactionIsolationManager

variable {n : Nat} {precise : Bool} {iso : TransactionIsolationManager}

/-- The sets hold line addresses, and with precise tracking only retired loads. -/
structure Tracked (n : Nat) (precise : Bool) (iso : TransactionIsolationManager) : Prop where
  reads : ∀ (addr : Addr) (mark : LoadMark),
    iso.readSet[addr]? = some mark → makeLineAddress n addr = addr
  writes : ∀ addr, iso.writeSet.contains addr = true → makeLineAddress n addr = addr
  buffered : ∀ addr, iso.writeSetInWriteBuffer.contains addr = true → makeLineAddress n addr = addr
  retired : precise = true → ∀ (addr : Addr) (mark : LoadMark),
    iso.readSet[addr]? = some mark → mark = .retired

/-- Empty sets are tracked. -/
theorem Tracked.empty : Tracked n precise ⟨∅, ∅, ∅⟩ := by
  constructor <;> simp

variable (tracked : Tracked n precise iso)

include tracked

/-- Imprecise tracking adds the line of a load. -/
theorem Tracked.addToReadSet {level : Nat} (imprecise : precise = false) (addr : Addr) :
    Tracked n precise (iso.addToReadSetPerfectFilter n level addr) where
  reads key mark found := by
    simp only [addToReadSetPerfectFilter, Std.ExtTreeMap.getElem?_insertIfNew] at found
    split at found
    · next added =>
      simp only [Std.compare_eq_iff_eq] at added
      simp [← added.1]
    · exact tracked.reads key mark found
  writes := tracked.writes
  buffered := tracked.buffered
  retired := by simp [imprecise]

/-- The line of a store is added. -/
theorem Tracked.addToWriteSet (addr : Addr) :
    Tracked n precise (iso.addToWriteSetPerfectFilter n addr) where
  reads := tracked.reads
  writes key found := by
    simp only [addToWriteSetPerfectFilter, Std.ExtTreeSet.contains_insert, Bool.or_eq_true,
      beq_iff_eq, Std.compare_eq_iff_eq] at found
    rcases found with rfl | found
    · simp
    · exact tracked.writes key found
  buffered := tracked.buffered
  retired := tracked.retired

/-- The line of a redirected store is added. -/
theorem Tracked.redirectStore (addr : Addr) :
    Tracked n precise (iso.redirectedStoreToWriteBuffer (makeLineAddress n addr)) where
  reads := tracked.reads
  writes := tracked.writes
  buffered key found := by
    simp only [redirectedStoreToWriteBuffer, Std.ExtTreeSet.contains_insert, Bool.or_eq_true,
      beq_iff_eq, Std.compare_eq_iff_eq] at found
    rcases found with rfl | found
    · simp
    · exact tracked.buffered key found
  retired := tracked.retired

/-- Only retired entries are added, or entries become retired. -/
theorem Tracked.retire (addr : Addr) : Tracked n precise
      { iso with readSet := iso.readSet.insert (makeLineAddress n addr) .retired } where
  reads key mark found := by
    simp only [Std.ExtTreeMap.getElem?_insert] at found
    split at found
    · next added =>
      simp only [Std.compare_eq_iff_eq] at added
      simp [← added]
    · exact tracked.reads key mark found
  writes := tracked.writes
  buffered := tracked.buffered
  retired isPrecise key mark found := by
    simp only [Std.ExtTreeMap.getElem?_insert] at found
    split at found
    · exact (Option.some.inj found).symm
    · exact tracked.retired isPrecise key mark found

/-- Releasing the reads keeps the sets tracked. -/
theorem Tracked.releaseReads : Tracked n precise iso.releaseReadIsolation where
  reads := by simp [releaseReadIsolation]
  writes := tracked.writes
  buffered := tracked.buffered
  retired := by simp [releaseReadIsolation]

/-- The read-set query of a tracked set succeeds inside a transaction. -/
theorem Tracked.isInReadSet {level : Nat} (inside : level ≠ 0)
    (addr : Addr) : iso.isInReadSetPerfectFilter n level precise addr =
      .ok (iso.readSet.contains (makeLineAddress n addr)) := by
  rw [Std.ExtTreeMap.contains_eq_isSome_getElem?]
  unfold isInReadSetPerfectFilter
  cases found : iso.readSet[makeLineAddress n addr]? with
  | none => rfl
  | some mark =>
    have retired : precise = true → mark = .retired :=
      fun isPrecise => tracked.retired isPrecise _ mark found
    have level : level = 0 → mark ≠ .retired := fun outside => absurd outside inside
    simp only [assertThat_of retired, assertThat_of level]
    rfl

end TransactionIsolationManager

/-- A block was consumed only from a machine. -/
def ValueForwarding.Sourced {n : Nat} (forwarding : ValueForwarding n) : Prop :=
  forwarding.recvDataForwardedFromProducer.isEmpty = false ∨
      forwarding.hasConsumedValidData = true →
    forwarding.hasReceivedDataFromProducer ≠ createInvalidMachineID

/-- Nothing is left of a producer or a consumer. -/
structure ValueForwarding.Cleared {n : Nat} (forwarding : ValueForwarding n) : Prop where
  sentTo : forwarding.hasSentDataToConsumer = ∅
  sent : forwarding.sentDataForwardedToConsumer.isEmpty = true
  allSent : forwarding.allSentData.isEmpty = true
  receivedFrom : forwarding.hasReceivedDataFromProducer = createInvalidMachineID
  received : forwarding.recvDataForwardedFromProducer.isEmpty = true
  allReceived : forwarding.allReceivedData.isEmpty = true
  consumedValid : forwarding.hasConsumedValidData = false
  turnedProducer : forwarding.consumerTurnedProducer = false
  turnedConsumer : forwarding.producerTurnedConsumer = false

namespace TransactionInterfaceManager

variable {params : HTMParams} {n : Nat}

/-- Outside a transaction, with nothing left of an earlier one's sets, forwarding and priority. -/
def Idle (mgr : TransactionInterfaceManager params n) : Prop :=
  mgr.transactionLevel = 0 ∧ mgr.isolation = ⟨∅, ∅, ∅⟩ ∧ mgr.forwarding.Cleared ∧
    (params.allowEarlyValueFwd = true → mgr.hwTransPrio = ncPrioValue)

/-- An idle manager lets every load through. -/
theorem Idle.shouldNackLoad {mgr next : TransactionInterfaceManager params n} {req : RemoteRequest}
    {nack : Bool} (idle : mgr.Idle) (judged : mgr.shouldNackLoad req = .ok (nack, next)) :
    next = mgr := by
  have reader : mgr.checkWriteSignature req.addr = false := by
    simp [checkWriteSignature, idle.2.1, TransactionIsolationManager.isInWriteSetPerfectFilter]
  simp only [TransactionInterfaceManager.shouldNackLoad, reader, Bool.false_eq_true, ↓reduceIte,
    run_eq_ok, Prod.mk.injEq] at judged
  exact judged.2.2.symm

/-- An idle manager lets every store through. -/
theorem Idle.shouldNackStore {mgr next : TransactionInterfaceManager params n} {req : RemoteRequest}
    {nack : Bool} (idle : mgr.Idle) (judged : mgr.shouldNackStore req = .ok (nack, next)) :
    next = mgr := by
  have free : mgr.existStoreConflict req.addr = .ok false := by
    simp [existStoreConflict, checkWriteSignature, checkReadSignature, idle.2.1,
      TransactionIsolationManager.isInWriteSetPerfectFilter,
      TransactionIsolationManager.isInReadSetPerfectFilter, pure, Except.pure]
  simp only [TransactionInterfaceManager.shouldNackStore, free, Bool.false_eq_true, ↓reduceIte,
    run_eq_ok, Prod.mk.injEq, Except.ok.injEq, exists_eq_left'] at judged
  exact judged.2.2.symm

/-- The fields that only the life cycle commands change. -/
structure Control where
  version : Nat
  transactionLevel : Nat
  currentHtmUid : Nat
  htmXid : Int
  escapeLevel : Nat
  unrollingLogFlag : Bool
  atCommit : Bool
  arbiter : LazyTransactionCommitArbiter
  initStatus : LogInitStatus
  logTLB : Std.ExtTreeMap Addr Addr

/-- The control state of a manager. -/
def control (mgr : TransactionInterfaceManager params n) : Control where
  version := mgr.version
  transactionLevel := mgr.transactionLevel
  currentHtmUid := mgr.currentHtmUid
  htmXid := mgr.htmXid
  escapeLevel := mgr.escapeLevel
  unrollingLogFlag := mgr.unrollingLogFlag
  atCommit := mgr.atCommit
  arbiter := mgr.arbiter
  initStatus := mgr.eagerVersion.initStatus
  logTLB := mgr.eagerVersion.logTLB

/-- The age of the transaction and its suspicion of a cycle stay, and time does not run
backwards. -/
structure AgeKept (mgr next : TransactionInterfaceManager params n) : Prop where
  timestamp : next.conflict.timestamp = mgr.conflict.timestamp
  cycle : mgr.conflict.possibleCycle = true → next.conflict.possibleCycle = true
  clock : mgr.curCycle ≤ next.curCycle

/-- What every call outside the life cycle commands respects. -/
structure CallFrame (mgr next : TransactionInterfaceManager params n) : Prop where
  control : next.control = mgr.control
  powered : next.conflict.powered = mgr.conflict.powered
  prio : next.hwTransPrio = mgr.hwTransPrio ∨ (mgr.conflict.powered = false ∧
    (params.conflictResolution = .requesterStallsPicBase ∨ params.allowEarlyValueFwd = true))
  abort : next.abort = mgr.abort ∨
    (mgr.transactionLevel ≠ 0 ∧ mgr.isUnrollingLog = false ∧ next.abort.abortFlag = true)
  isolation : mgr.transactionLevel = 0 → next.isolation = mgr.isolation
  tracked : mgr.isolation.Tracked n params.preciseReadSetTracking →
    next.isolation.Tracked n params.preciseReadSetTracking
  lazyVersion : mgr.transactionLevel = 0 → next.lazyVersion = mgr.lazyVersion
  flush : mgr.lazyVersion.FlushKept next.lazyVersion
    (next.abort.abortFlag = true ∧ params.eagerCd = false)
  log : mgr.transactionLevel = 0 → next.eagerVersion = mgr.eagerVersion
  sourced : mgr.forwarding.Sourced → next.forwarding.Sourced
  idle : mgr.Idle → next.Idle
  age : AgeKept mgr next

namespace CallFrame

variable {mgr next : TransactionInterfaceManager params n}

section

variable (frame : CallFrame mgr next)

include frame

/-- A call keeps the nesting level. -/
theorem transactionLevel : next.transactionLevel = mgr.transactionLevel :=
  congrArg Control.transactionLevel frame.control

/-- A call keeps the version. -/
theorem version : next.version = mgr.version :=
  congrArg Control.version frame.control

/-- A call keeps the transaction's number. -/
theorem currentHtmUid : next.currentHtmUid = mgr.currentHtmUid :=
  congrArg Control.currentHtmUid frame.control

/-- A call neither starts nor ends the unrolling. -/
theorem isUnrollingLog : next.isUnrollingLog = mgr.isUnrollingLog := by
  have same : next.unrollingLogFlag = mgr.unrollingLogFlag :=
    congrArg Control.unrollingLogFlag frame.control
  simp [TransactionInterfaceManager.isUnrollingLog, same]

end

/-- Doing nothing is a call. -/
theorem refl (mgr : TransactionInterfaceManager params n) : CallFrame mgr mgr :=
  ⟨rfl, rfl, .inl rfl, .inl rfl, fun _ => rfl, id, fun _ => rfl, .refl _, fun _ => rfl, id, id,
    rfl, id, Nat.le_refl _⟩

/-- Two calls are a call. -/
theorem trans {middle : TransactionInterfaceManager params n} (first : CallFrame mgr middle)
    (second : CallFrame middle next) : CallFrame mgr next where
  control := second.control.trans first.control
  powered := second.powered.trans first.powered
  prio := by
    rcases second.prio with same | moved
    · rw [same]
      exact first.prio
    · exact .inr ⟨first.powered ▸ moved.1, moved.2⟩
  abort := by
    rcases second.abort with same | ⟨inside, live, flagged⟩
    · rw [same]
      exact first.abort
    · exact .inr ⟨first.transactionLevel ▸ inside, first.isUnrollingLog ▸ live, flagged⟩
  isolation outside := by
    rw [second.isolation (first.transactionLevel ▸ outside), first.isolation outside]
  tracked holds := second.tracked (first.tracked holds)
  lazyVersion outside := by
    rw [second.lazyVersion (first.transactionLevel ▸ outside), first.lazyVersion outside]
  flush := first.flush.trans second.flush fun ⟨flagged, lazyCd⟩ => by
    rcases second.abort with same | ⟨-, -, still⟩
    · exact ⟨same ▸ flagged, lazyCd⟩
    · exact ⟨still, lazyCd⟩
  log outside := by
    rw [second.log (first.transactionLevel ▸ outside), first.log outside]
  sourced holds := second.sourced (first.sourced holds)
  idle holds := second.idle (first.idle holds)
  age := ⟨second.age.timestamp.trans first.age.timestamp, second.age.cycle ∘ first.age.cycle,
    Nat.le_trans first.age.clock second.age.clock⟩

/-- Conflict handling is a call, if it leaves the priority of an idle manager alone. -/
theorem of_conflictFrame (frame : ConflictFrame mgr next)
    (kept : mgr.Idle → next.hwTransPrio = mgr.hwTransPrio) : CallFrame mgr next := by
  obtain ⟨shape, powered, timestamp, prio, abort, outside, flush, -, cycle⟩ := frame
  obtain ⟨_, _, _, _, _, rfl⟩ := shape
  refine ⟨rfl, powered, ?_, abort, fun _ => rfl, id, outside, flush, fun _ => rfl, id, ?_,
    timestamp, cycle, Nat.le_refl _⟩
  · rcases prio with same | ⟨pic, -⟩
    · exact .inl same
    · refine .inr ⟨?_, .inl pic⟩
      by_contra on
      have policy := mgr.conflict.isPowered_policy (by simpa using on)
      simp [HTMParams.isPowerTMPolicy, pic] at policy
  · intro idle
    have same := kept idle
    obtain ⟨level, isolation, cleared, prio⟩ := idle
    exact ⟨level, isolation, { cleared with }, fun enabled => same.trans (prio enabled)⟩

/-- The environment of the manager and the bookkeeping no invariant looks at. -/
theorem of_surroundings {dataCache : CacheMemory n} {curCycle : Cycles} {stalled : Bool}
    {requestTable : Std.ExtTreeMap Addr Nat} {discarded : Std.ExtTreeSet Addr}
    (later : mgr.curCycle ≤ curCycle) : CallFrame mgr { mgr with
      dataCache := dataCache, curCycle := curCycle, stalled := stalled
      requestTable := requestTable, writeSetDiscarded := discarded } :=
  ⟨rfl, rfl, .inl rfl, .inl rfl, fun _ => rfl, id, fun _ => rfl, .refl _, fun _ => rfl, id, id,
    rfl, id, later⟩

/-- A call may change what was forwarded and received. -/
theorem of_forwarding {forwarding : ValueForwarding n}
    (sourced : mgr.forwarding.Sourced → forwarding.Sourced)
    (cleared : mgr.transactionLevel = 0 → mgr.forwarding.Cleared → forwarding.Cleared) :
    CallFrame mgr { mgr with forwarding := forwarding } :=
  ⟨rfl, rfl, .inl rfl, .inl rfl, fun _ => rfl, id, fun _ => rfl, .refl _, fun _ => rfl, sourced,
    fun ⟨level, isolation, clear, prio⟩ => ⟨level, isolation, cleared level clear, prio⟩,
    rfl, id, Nat.le_refl _⟩

/-- Bookkeeping that only a consumer changes. -/
theorem of_consumed {forwarding : ValueForwarding n}
    (buffered : mgr.forwarding.recvDataForwardedFromProducer.isEmpty = false)
    (machine : forwarding.hasReceivedDataFromProducer =
      mgr.forwarding.hasReceivedDataFromProducer) :
    CallFrame mgr { mgr with forwarding := forwarding } :=
  of_forwarding (fun sourced _ => machine ▸ sourced (.inl buffered))
    fun _ clear => absurd clear.received (by simp [buffered])

/-- What only a running transaction changes: its sets, its versions, and lines of the cache. -/
theorem of_running {isolation : TransactionIsolationManager}
    {lazyVersion : LazyTransactionVersionManager} {eagerVersion : EagerTransactionVersionManager}
    {dataCache : CacheMemory n} (inside : mgr.transactionLevel ≠ 0)
    (tracked : mgr.isolation.Tracked n params.preciseReadSetTracking →
      isolation.Tracked n params.preciseReadSetTracking)
    (flush : mgr.lazyVersion.FlushKept lazyVersion False)
    (log : eagerVersion.initStatus = mgr.eagerVersion.initStatus ∧
      eagerVersion.logTLB = mgr.eagerVersion.logTLB) :
    CallFrame mgr { mgr with
      isolation := isolation, lazyVersion := lazyVersion, eagerVersion := eagerVersion
      dataCache := dataCache } :=
  ⟨by simp [TransactionInterfaceManager.control, log], rfl, .inl rfl, .inl rfl,
    fun outside => absurd outside inside, tracked, fun outside => absurd outside inside,
    flush.mono False.elim, fun outside => absurd outside inside, id,
    fun idle => absurd idle.1 inside, rfl, id, Nat.le_refl _⟩

/-- Switching the priority inside a transaction is a call. -/
theorem of_switchHwPrio {remoteHwPrio : Priority} {remoteSwPrio isReceived : Bool}
    (switched : mgr.switchHwPrio remoteHwPrio remoteSwPrio isReceived = .ok next)
    (inside : mgr.transactionLevel ≠ 0) : CallFrame mgr next := by
  obtain ⟨prio, rfl⟩ := switchHwPrio_ok switched
  refine ⟨rfl, rfl, ?_, .inl rfl, fun _ => rfl, id, fun _ => rfl, .refl _, fun _ => rfl, id,
    fun idle => absurd idle.1 inside, rfl, id, Nat.le_refl _⟩
  unfold switchHwPrio at switched
  split at switched
  · rw [pure_eq_ok] at switched
    exact .inl (congrArg hwTransPrio switched).symm
  · simp only [bind_eq_ok, assertThat_eq_ok, exists_const] at switched
    obtain ⟨enabled, switched⟩ := switched
    repeat' split at switched
    all_goals simp only [run_eq_ok] at switched
    · exact .inr ⟨switched.1, enabled⟩
    · exact .inl (congrArg hwTransPrio switched).symm
    · exact .inl (congrArg hwTransPrio switched.2).symm
    · next notPowered _ =>
      exact .inr ⟨by simpa [getSwTransactionPriority] using notPowered, enabled⟩
    · exact .inl (congrArg hwTransPrio switched).symm

/-- Being in a transaction means being at a level above zero. -/
theorem inside_of_inTransaction (running : mgr.inTransaction = true) :
    mgr.transactionLevel ≠ 0 := by
  simp only [TransactionInterfaceManager.inTransaction, Bool.and_eq_true,
    decide_eq_true_eq] at running
  omega

end CallFrame

variable {mgr next : TransactionInterfaceManager params n}

/-- A call stays inside, or outside, the transaction. -/
theorem CallFrame.inTransaction (frame : CallFrame mgr next) :
    next.inTransaction = mgr.inTransaction := by
  simp only [TransactionInterfaceManager.inTransaction, frame.transactionLevel,
    show next.escapeLevel = mgr.escapeLevel from congrArg Control.escapeLevel frame.control]

/-- A running transaction that is not aborting. -/
def Live (mgr : TransactionInterfaceManager params n) : Prop :=
  mgr.inTransaction = true ∧ mgr.isAborting = false

instance (mgr : TransactionInterfaceManager params n) : Decidable mgr.Live :=
  inferInstanceAs (Decidable (_ ∧ _))

/-- A live transaction has no abort signal. -/
theorem Live.unflagged (live : mgr.Live) : mgr.abort.abortFlag = false := by
  simpa [isAborting, live.1] using live.2

/-- A call does not revive a transaction. -/
theorem Live.of_call (frame : CallFrame mgr next) (live : next.Live) : mgr.Live := by
  have unflagged := live.unflagged
  rcases frame.abort with kept | ⟨-, -, flagged⟩
  · refine ⟨frame.inTransaction ▸ live.1, ?_⟩
    simp [isAborting, ← kept, unflagged]
  · simp [unflagged] at flagged

/-- The buffered blocks by line address. -/
abbrev buffer (mgr : TransactionInterfaceManager params n) :
    Std.ExtTreeMap Addr (DataForwarded n) :=
  mgr.forwarding.recvDataForwardedFromProducer

/-- A consumer holds a block that is not validated. -/
theorem isConsumer_iff : mgr.isConsumer = true ↔ ∃ addr, mgr.buffer.contains addr = true := by
  have empty : mgr.isConsumer = false ↔ ∀ addr, mgr.buffer.contains addr = false := by
    rw [← Std.ExtTreeMap.eq_empty_iff_forall_contains, ← Std.ExtTreeMap.isEmpty_iff]
    simp [isConsumer]
  rw [← not_iff_not, Bool.not_eq_true, empty, not_exists]
  simp only [Bool.not_eq_true]

/-- Who holds a received block is a consumer. -/
theorem isConsumer_of_mem {addr : Addr} (held : addr ∈ mgr.buffer) : mgr.isConsumer = true :=
  isConsumer_iff.mpr ⟨addr, held⟩

/-- Neither a line of the cache nor a buffered block changes. -/
structure SameData (mgr next : TransactionInterfaceManager params n) : Prop where
  dataCache : next.dataCache = mgr.dataCache
  buffer : next.buffer = mgr.buffer

namespace SameData

/-- Doing nothing changes no data. -/
theorem refl (mgr : TransactionInterfaceManager params n) : SameData mgr mgr := ⟨rfl, rfl⟩

/-- Data kept twice is kept. -/
theorem trans {middle : TransactionInterfaceManager params n} (first : SameData mgr middle)
    (second : SameData middle next) : SameData mgr next :=
  ⟨second.dataCache.trans first.dataCache, second.buffer.trans first.buffer⟩

end SameData

/-- Neither a line of the cache nor anything about the received blocks changes. -/
structure SameReceiver (mgr next : TransactionInterfaceManager params n) : Prop
    extends SameData mgr next where
  received : next.forwarding.allReceivedData = mgr.forwarding.allReceivedData
  event : next.forwarding.validationEvent = mgr.forwarding.validationEvent

namespace SameReceiver

/-- Doing nothing keeps the received blocks. -/
theorem refl (mgr : TransactionInterfaceManager params n) : SameReceiver mgr mgr :=
  ⟨.refl mgr, rfl, rfl⟩

/-- Received blocks kept twice are kept. -/
theorem trans {middle : TransactionInterfaceManager params n} (first : SameReceiver mgr middle)
    (second : SameReceiver middle next) : SameReceiver mgr next :=
  ⟨first.toSameData.trans second.toSameData, second.received.trans first.received,
    second.event.trans first.event⟩

/-- Conflict handling keeps the received blocks. -/
theorem of_conflictFrame (frame : ConflictFrame mgr next) : SameReceiver mgr next := by
  obtain ⟨_, _, _, _, _, rfl⟩ := frame.shape
  exact ⟨⟨rfl, rfl⟩, rfl, rfl⟩

/-- Switching the priority keeps the received blocks. -/
theorem of_switchHwPrio {remoteHwPrio : Priority} {remoteSwPrio isReceived : Bool}
    (switched : mgr.switchHwPrio remoteHwPrio remoteSwPrio isReceived = .ok next) :
    SameReceiver mgr next := by
  obtain ⟨_, rfl⟩ := switchHwPrio_ok switched
  exact ⟨⟨rfl, rfl⟩, rfl, rfl⟩

/-- Taking a nack's priority keeps the received blocks. -/
theorem of_takeNackPriority {nack : RemoteRequest} (taken : mgr.takeNackPriority nack = .ok next) :
    SameReceiver mgr next := by
  unfold takeNackPriority at taken
  split at taken
  · exact of_conflictFrame (.of_notifyReceiveNack taken)
  · exact of_switchHwPrio taken

end SameReceiver

/-- What the transaction has forwarded: the consumers and the blocks. -/
abbrev produced (mgr : TransactionInterfaceManager params n) :
    Finset MachineID × Std.ExtTreeMap Addr (DataBlock n) :=
  (mgr.forwarding.hasSentDataToConsumer, mgr.forwarding.sentDataForwardedToConsumer)

/-- Nothing is forwarded, no block enters the buffer, and the priority stays unless the PiC policy
moves it. -/
structure RankKept (mgr next : TransactionInterfaceManager params n) : Prop where
  prio : params.conflictResolution ≠ .requesterStallsPicBase → next.hwTransPrio = mgr.hwTransPrio
  produced : next.produced = mgr.produced
  held : ∀ addr, next.buffer.contains addr = true → mgr.buffer.contains addr = true

namespace RankKept

/-- Doing nothing keeps the rank. -/
theorem refl (mgr : TransactionInterfaceManager params n) : RankKept mgr mgr :=
  ⟨fun _ => rfl, rfl, fun _ => id⟩

/-- A rank kept twice is kept. -/
theorem trans {middle : TransactionInterfaceManager params n} (first : RankKept mgr middle)
    (second : RankKept middle next) : RankKept mgr next :=
  ⟨fun plain => (second.prio plain).trans (first.prio plain), second.produced.trans first.produced,
    fun addr found => first.held addr (second.held addr found)⟩

/-- A consumer was one before. -/
theorem isConsumer (kept : RankKept mgr next) (consumer : next.isConsumer = true) :
    mgr.isConsumer = true := by
  obtain ⟨addr, found⟩ := isConsumer_iff.mp consumer
  exact isConsumer_iff.mpr ⟨addr, kept.held addr found⟩

/-- Conflict handling moves the priority only under the PiC policy. -/
theorem of_conflictFrame (frame : ConflictFrame mgr next) : RankKept mgr next := by
  have prio := frame.prio
  obtain ⟨_, _, _, _, _, rfl⟩ := frame.shape
  exact ⟨fun plain => prio.resolve_right fun pic => plain pic.1, rfl, fun _ => id⟩

end RankKept

/-- The scheduled validation stays as it is. -/
structure EventKept (mgr next : TransactionInterfaceManager params n) : Prop where
  received : next.forwarding.allReceivedData = mgr.forwarding.allReceivedData
  event : next.forwarding.validationEvent = mgr.forwarding.validationEvent

/-- The blocks to validate and the scheduled validation stay as they are. -/
structure RoundKept (mgr next : TransactionInterfaceManager params n) : Prop
    extends EventKept mgr next where
  blocks : ∀ addr, addr ∈ next.buffer ↔ addr ∈ mgr.buffer

namespace RoundKept

/-- Doing nothing keeps the round. -/
theorem refl (mgr : TransactionInterfaceManager params n) : RoundKept mgr mgr :=
  ⟨⟨rfl, rfl⟩, fun _ => Iff.rfl⟩

/-- A round kept twice is kept. -/
theorem trans {middle : TransactionInterfaceManager params n} (first : RoundKept mgr middle)
    (second : RoundKept middle next) : RoundKept mgr next :=
  ⟨⟨second.received.trans first.received, second.event.trans first.event⟩,
    fun addr => (second.blocks addr).trans (first.blocks addr)⟩

/-- A kept round keeps the role of consumer. -/
theorem isConsumer (kept : RoundKept mgr next) : next.isConsumer = mgr.isConsumer := by
  rw [Bool.eq_iff_iff, isConsumer_iff, isConsumer_iff]
  exact exists_congr kept.blocks

/-- Kept received blocks keep the round. -/
theorem of_sameReceiver (same : SameReceiver mgr next) : RoundKept mgr next :=
  ⟨⟨same.received, same.event⟩, fun _ => by rw [same.buffer]⟩

/-- Unchanged forwarding keeps the round. -/
theorem of_forwarding (same : next.forwarding = mgr.forwarding) : RoundKept mgr next :=
  ⟨⟨by rw [same], by rw [same]⟩, fun _ => by rw [buffer, same]⟩

/-- Updating a held block keeps the round. -/
theorem of_updateBlock {addr : Addr} {entry : DataForwarded n} (held : addr ∈ mgr.buffer) :
    RoundKept mgr { mgr with forwarding := { mgr.forwarding with
      recvDataForwardedFromProducer :=
        mgr.forwarding.recvDataForwardedFromProducer.insert addr entry } } := by
  refine ⟨⟨rfl, rfl⟩, fun other => ?_⟩
  exact (Std.ExtTreeMap.mem_insert.trans (or_congr_left compare_eq_iff_eq)).trans
    (or_iff_right_of_imp fun same => same ▸ held)

end RoundKept

end TransactionInterfaceManager

end Gem5.Ruby
