import Gem5.Mem.Ruby.Htm.UndoLog

/-!
# The value checker of LogTM

`XactValueChecker` is a debugging aid: it keeps a copy of what a transaction logs
and of what the abort handler writes back, and compares the two when the unroll is
over.  The copies are taken by the sequencer, where the last write of a log request
and the stores of the handler complete.  The state here is that of `UndoLog` with
the two maps of one processor next to it.
-/

namespace Gem5.Ruby

open Foundation Foundation.ByteMemory Htmrt

/-- The maps of `XactValueChecker` for one processor. -/
structure XactValueChecker where
  loggedValues : Std.ExtTreeMap Addr (DataBlock 64)
  unrolledValues : Std.ExtTreeMap Addr (DataBlock 64)

namespace XactValueChecker

variable (checker : XactValueChecker)

/-- `notifyLoggedDataBlock`. -/
def notifyLoggedDataBlock (addr : Addr) (data : DataBlock 64) : Checked XactValueChecker := do
  assertThat (addr = makeLineAddress 64 addr) "addr == makeLineAddress(addr)"
  assertThat (checker.loggedValues.contains addr = false)
    "m_loggedValues[proc].find(addr) == m_loggedValues[proc].end()"
  return { checker with loggedValues := checker.loggedValues.insert addr data }

/-- `notifyUnrolledDataBlock`: called for each store to the block, the last one counts. -/
def notifyUnrolledDataBlock (addr : Addr) (data : DataBlock 64) : Checked XactValueChecker := do
  assertThat (addr = makeLineAddress 64 addr) "addr == makeLineAddress(addr)"
  return { checker with unrolledValues := checker.unrolledValues.insert addr data }

/-- The body of the loop of `restartTransaction`; the flag is `mismatch`. -/
def compareLogged (state : XactValueChecker × Bool) (entry : Addr × DataBlock 64) :
    Checked (XactValueChecker × Bool) :=
  match state.1.unrolledValues[entry.1]? with
  | none => panicWith "Logged data was not unrolled!"
  | some unrolledData =>
    return ({ loggedValues := state.1.loggedValues.erase entry.1
              unrolledValues := state.1.unrolledValues.erase entry.1 },
      state.2 || !entry.2.equal unrolledData)

/-- `restartTransaction` of LogTM. -/
def restartTransaction : Checked XactValueChecker := do
  let (checker, mismatch) ← checker.loggedValues.toList.foldlM compareLogged (checker, false)
  if mismatch then panicWith "Value mismatch in logged/unrolled data!" else return checker

variable {checker}

private theorem notifyLoggedDataBlock_eq_ok {addr : Addr} {data : DataBlock 64}
    {next : XactValueChecker}
    (notified : checker.notifyLoggedDataBlock addr data = .ok next) :
    next = { checker with loggedValues := checker.loggedValues.insert addr data } := by
  simp only [notifyLoggedDataBlock, run_eq_ok] at notified
  exact notified.2.2.symm

/-- With nothing logged there is nothing to compare. -/
theorem restartTransaction_of_isEmpty (empty : checker.loggedValues.isEmpty = true) :
    checker.restartTransaction = .ok checker := by
  have none : checker.loggedValues.toList = [] :=
    Std.ExtTreeMap.toList_eq_nil_iff.mpr (Std.ExtTreeMap.isEmpty_iff.mp empty)
  simp [restartTransaction, none, pure, Except.pure]

end XactValueChecker

/-! ## The core with its checker -/

/-- A logging core whose values are checked. -/
structure ValueCheckedCore extends LoggingCore where
  checker : XactValueChecker

/-- The block of a memory at a line. -/
def blockAt (mem : ByteMemory 64) (line : BitVec 64) : DataBlock 64 :=
  fun i => mem.read line i

namespace ValueCheckedCore

variable (space : AddressSpace) (core : ValueCheckedCore)

/-- `handleStoresToLog` with the checker on: when the second write of a request completes, the line
of this write to the log is recorded. -/
def handleStoresToLog (storeAddr : BitVec 64) (write : LogWrite) : Checked ValueCheckedCore := do
  let next ← core.toLoggingCore.handleStoresToLog storeAddr write
  match core.logRequestTable storeAddr, next.logRequestTable storeAddr with
  | some log, none =>
    let address := lineAddress (log.packet write).addr
    let checker ← core.checker.notifyLoggedDataBlock address.toNat (blockAt next.mem address)
    return { toLoggingCore := next, checker := checker }
  | _, _ => return { toLoggingCore := next, checker := core.checker }

/-- Take an event. -/
def take : LogEvent → Checked ValueCheckedCore
  | .log vaddr => do
    let next ← core.logTransactionalStores space vaddr
    return { toLoggingCore := next, checker := core.checker }
  | .complete storeAddr write => core.handleStoresToLog storeAddr write
  | .store vaddr data => return { core with toLoggingCore := core.performStore space vaddr data }

/-- A store of the abort handler: `writeCallback` records the block if it is in the write set. -/
def unrollStore (vaddr : BitVec 64) (data : List UInt8) : Checked ValueCheckedCore := do
  let next := core.performStore space vaddr data
  let address := space.translate (lineAddress vaddr)
  if core.writeSet.any fun line => space.translate line = address then
    let checker ← core.checker.notifyUnrolledDataBlock address.toNat (blockAt next.mem address)
    return { toLoggingCore := next, checker := checker }
  else return { toLoggingCore := next, checker := core.checker }

/-- The stores of the abort handler. -/
def unroll (stores : List (BitVec 64 × List UInt8)) : Checked ValueCheckedCore :=
  stores.foldlM (fun core store => core.unrollStore space store.1 store.2) core

/-- A transaction begins: nothing is recorded as logged, and no line of the log as unrolled. -/
structure Begins (logBase : BitVec 64) : Prop extends core.toLoggingCore.Begins space logBase where
  loggedValues : core.checker.loggedValues.isEmpty = true
  unrolledValues : ∀ addr, InLog logBase addr →
    (space.translate addr).toNat ∉ core.checker.unrolledValues

/-- The runs of one transaction. -/
def system (logBase : BitVec 64) : TransitionSystem ValueCheckedCore LogEvent where
  Initial core := core.Begins space logBase
  Step core event next := core.toLoggingCore.Admits space event ∧ core.take space event = .ok next

/-- What the checker is for: what it has recorded are blocks of the write set with their contents
before the transaction, so that it accepts an unroll that restores them all and rejects one after
which a logged block differs. -/
structure Faithful (old : ByteMemory 64) : Prop where
  recorded : ∀ {addr data}, core.checker.loggedValues[addr]? = some data →
    ∃ block ∈ core.writeSet, addr = (space.translate block).toNat ∧ data = blockAt old block
  accepts : ∀ {stores after}, core.unroll space stores = .ok after →
    (∀ block ∈ core.writeSet, (∃ store ∈ stores, lineAddress store.1 = block) ∧
      blockAt (space.view after.mem) block = blockAt old block) →
    ∃ checker, after.checker.restartTransaction = .ok checker
  rejects : ∀ {stores after}, core.unroll space stores = .ok after →
    (∃ block ∈ core.writeSet, core.logRequestTable (space.translate block) = none ∧
      blockAt (space.view after.mem) block ≠ blockAt old block) →
    ∃ fault, after.checker.restartTransaction = .error fault

variable {space core} {logBase : BitVec 64}

/-! ## Projection -/

variable {event : LogEvent} {next : ValueCheckedCore}

private theorem take_toLoggingCore (taken : core.take space event = .ok next) :
    core.toLoggingCore.take space event = .ok next.toLoggingCore := by
  cases event with
  | log vaddr =>
    simp only [take, run_eq_ok] at taken
    obtain ⟨_, logged, rfl⟩ := taken
    exact logged
  | complete storeAddr write =>
    simp only [take, handleStoresToLog, bind_eq_ok] at taken
    obtain ⟨after, completed, notified⟩ := taken
    have same : next.toLoggingCore = after := by
      split at notified
      · simp only [run_eq_ok] at notified
        obtain ⟨_, -, rfl⟩ := notified
        rfl
      · obtain rfl := pure_eq_ok.mp notified
        rfl
    exact same ▸ completed
  | store vaddr data =>
    obtain rfl := pure_eq_ok.mp taken
    rfl

variable {initial : ValueCheckedCore} {events : List LogEvent}

/-- A run of the checked core is a run of the core. -/
theorem steps_toLoggingCore (steps : (system space logBase).Steps initial events core) :
    (LoggingCore.system space logBase).Steps initial.toLoggingCore events core.toLoggingCore := by
  induction steps with
  | refl => exact .refl
  | step _ transition ih => exact ih.step ⟨transition.1, take_toLoggingCore transition.2⟩

/-! ## What is recorded -/

private theorem lineAddress_translate (addr : BitVec 64) :
    lineAddress (space.translate addr) = space.translate (lineAddress addr) := by
  obtain ⟨page, offset, aligned, low, rfl⟩ := exists_page_add addr
  rw [AddressSpace.translate_add aligned low, LoggingCore.lineAddress_page_add aligned low,
    LoggingCore.lineAddress_page_add (space.aligned page) low,
    AddressSpace.translate_add aligned (by omega)]

/-- The line of an address in a log of whole pages is in the log. -/
theorem inLog_lineAddress (aligned : PageAligned logBase) {addr : BitVec 64}
    (inside : InLog logBase addr) : InLog logBase (lineAddress addr) := by
  unfold InLog InRegion at *
  unfold PageAligned at aligned
  have bounds := And.intro addr.isLt logBase.isLt
  rw [BitVec.toNat_sub] at *
  rw [LoggingCore.toNat_lineAddress]
  omega

/-- What the checker holds after the given events of a transaction. -/
structure Recorded (space : AddressSpace) (logBase : BitVec 64) (events : List LogEvent)
    (core : ValueCheckedCore) : Prop where
  loggedValues : ∀ addr ∈ core.checker.loggedValues,
    ∃ line, InLog logBase line ∧ addr = (space.translate line).toNat
  unrolledValues : ∀ addr, InLog logBase addr →
    (space.translate addr).toNat ∉ core.checker.unrolledValues
  unfinished : ∀ {line log}, core.logRequestTable line = some log →
    ∃ write, log.status write = .issued
  completed : ∀ {line log write}, core.logRequestTable line = some log →
    log.status write = .completed → .complete line write ∈ events
  finished : ∀ {line write}, .complete line write ∈ events →
    core.checker.loggedValues.isEmpty = false ∨
      ∃ log, core.logRequestTable line = some log ∧ log.status write = .completed
  logged : ∀ {block}, block ∈ core.writeSet → core.logRequestTable (space.translate block) = none →
    core.checker.loggedValues.isEmpty = false
  both : core.checker.loggedValues.isEmpty = false → ∃ line, ∀ write, .complete line write ∈ events

private theorem Begins.recorded (begins : core.Begins space logBase) :
    core.Recorded space logBase [] where
  loggedValues addr member := by
    simp [Std.ExtTreeMap.isEmpty_iff.mp begins.loggedValues] at member
  unrolledValues := begins.unrolledValues
  unfinished found := by simp [begins.logRequestTable] at found
  completed found := by simp [begins.logRequestTable] at found
  finished member := by simp at member
  logged member := by simp [begins.writeSet] at member
  both some := by simp [begins.loggedValues] at some

/-- A new request has completed no write. -/
theorem Recorded.log (recorded : core.Recorded space logBase events) {vaddr : BitVec 64}
    (pending : core.logRequestTable (space.translate (lineAddress vaddr)) = none) :
    ({ toLoggingCore := core.toLoggingCore.logged space logBase vaddr, checker := core.checker } :
      ValueCheckedCore).Recorded space logBase (events ++ [.log vaddr]) where
  loggedValues := recorded.loggedValues
  unrolledValues := recorded.unrolledValues
  unfinished {line log} found := by
    by_cases same : line = space.translate (lineAddress vaddr)
    · subst same
      simp only [LoggingCore.logged, Function.update_self, Option.some.injEq] at found
      exact ⟨.addr, found ▸ rfl⟩
    · simp only [LoggingCore.logged, Function.update_of_ne same] at found
      exact recorded.unfinished found
  completed {line log write} found done := by
    by_cases same : line = space.translate (lineAddress vaddr)
    · subst same
      simp only [LoggingCore.logged, Function.update_self, Option.some.injEq] at found
      subst found
      cases write <;> cases done
    · simp only [LoggingCore.logged, Function.update_of_ne same] at found
      exact List.mem_append_left _ (recorded.completed found done)
  finished {line write} member := by
    refine (recorded.finished (by simpa using member)).imp_right ?_
    rintro ⟨log, found, done⟩
    have other : line ≠ space.translate (lineAddress vaddr) := by
      rintro rfl
      simp [pending] at found
    exact ⟨log, by simpa only [LoggingCore.logged, Function.update_of_ne other] using found, done⟩
  logged {block} member none := by
    by_cases same : space.translate block = space.translate (lineAddress vaddr)
    · simp [LoggingCore.logged, same] at none
    · simp only [LoggingCore.logged, Function.update_of_ne same] at none
      rcases List.mem_append.mp member with before | last
      · exact recorded.logged before none
      · exact absurd (congrArg space.translate (List.mem_singleton.mp last)) same
  both some := by
    obtain ⟨line, all⟩ := recorded.both some
    exact ⟨line, fun write => List.mem_append_left _ (all write)⟩

private theorem status_complete_self (log : LogRequestInfo) (write : LogWrite) :
    (log.complete write).status write = .completed := by
  cases write <;> rfl

private theorem both_completed_iff (log : LogRequestInfo) :
    (log.logAddrPktStatus = .completed ∧ log.logDataPktStatus = .completed) ↔
      ∀ write, log.status write = .completed := by
  constructor
  · rintro ⟨addrDone, dataDone⟩ write
    cases write
    · exact addrDone
    · exact dataDone
  · exact fun all => ⟨all .addr, all .data⟩

private theorem issued_of_ne_completed {status : LogPktStatus} (different : status ≠ .completed) :
    status = .issued := by
  cases status
  · rfl
  · exact absurd rfl different

variable {storeAddr : BitVec 64} {log : LogRequestInfo} {write : LogWrite}

private theorem table_firstWrite {core : LoggingCore}
    (more : ¬ ∀ other, (log.complete write).status other = .completed) :
    (core.completed storeAddr log write).logRequestTable =
      Function.update core.logRequestTable storeAddr (some (log.complete write)) := by
  rw [LoggingCore.completed, if_neg (mt (both_completed_iff _).mp more)]

private theorem table_secondWrite {core : LoggingCore}
    (last : ∀ other, (log.complete write).status other = .completed) :
    (core.completed storeAddr log write).logRequestTable =
      Function.update core.logRequestTable storeAddr none := by
  rw [LoggingCore.completed, if_pos ((both_completed_iff _).mpr last)]

/-- The first write of a request records nothing. -/
theorem Recorded.firstWrite (recorded : core.Recorded space logBase events)
    (found : core.logRequestTable storeAddr = some log)
    (more : ¬ ∀ other, (log.complete write).status other = .completed) :
    ({ toLoggingCore := core.toLoggingCore.completed storeAddr log write
       checker := core.checker } : ValueCheckedCore).Recorded space logBase
      (events ++ [.complete storeAddr write]) := by
  have table := @table_firstWrite storeAddr log write core.toLoggingCore more
  refine ⟨recorded.loggedValues, recorded.unrolledValues, ?_, ?_, ?_, ?_, ?_⟩
  · intro line other present
    rw [table] at present
    by_cases same : line = storeAddr
    · subst same
      rw [Function.update_self, Option.some.injEq] at present
      obtain ⟨open_, pending⟩ := not_forall.mp more
      exact ⟨open_, present ▸ issued_of_ne_completed pending⟩
    · rw [Function.update_of_ne same] at present
      exact recorded.unfinished present
  · intro line other next present done
    rw [table] at present
    by_cases same : line = storeAddr
    · subst same
      rw [Function.update_self, Option.some.injEq] at present
      subst present
      by_cases this : next = write
      · simp [this]
      · rw [LoggingCore.status_complete this] at done
        exact List.mem_append_left _ (recorded.completed found done)
    · rw [Function.update_of_ne same] at present
      exact List.mem_append_left _ (recorded.completed present done)
  · intro line next member
    rw [table]
    by_cases same : line = storeAddr
    · subst same
      rw [Function.update_self]
      by_cases this : next = write
      · exact .inr ⟨_, rfl, this ▸ status_complete_self log write⟩
      · have before : .complete line next ∈ events := by simpa [this] using member
        refine (recorded.finished before).imp_right ?_
        rintro ⟨other, present, done⟩
        obtain rfl := Option.some.inj (found.symm.trans present)
        exact ⟨_, rfl, (LoggingCore.status_complete this).trans done⟩
    · rw [Function.update_of_ne same]
      exact recorded.finished (by simpa [same] using member)
  · intro block member none
    rw [table] at none
    by_cases same : space.translate block = storeAddr
    · simp [same] at none
    · rw [Function.update_of_ne same] at none
      exact recorded.logged member none
  · intro some
    obtain ⟨line, all⟩ := recorded.both some
    exact ⟨line, fun next => List.mem_append_left _ (all next)⟩

/-- The second write of a request records a line of the log. -/
theorem Recorded.secondWrite (recorded : core.Recorded space logBase events) {line : BitVec 64}
    {data : DataBlock 64} (found : core.logRequestTable storeAddr = some log)
    (last : ∀ other, (log.complete write).status other = .completed) (inLog : InLog logBase line) :
    ({ toLoggingCore := core.toLoggingCore.completed storeAddr log write
       checker := { core.checker with
        loggedValues := core.checker.loggedValues.insert (space.translate line).toNat data } } :
      ValueCheckedCore).Recorded space logBase (events ++ [.complete storeAddr write]) := by
  have table := @table_secondWrite storeAddr log write core.toLoggingCore last
  have kept : ∀ {other present}, Function.update core.logRequestTable storeAddr none other =
      some present → core.logRequestTable other = some present := by
    intro other present isSome
    by_cases same : other = storeAddr
    · simp [same] at isSome
    · rwa [Function.update_of_ne same] at isSome
  have nonempty : (core.checker.loggedValues.insert (space.translate line).toNat data).isEmpty =
      false := by simp
  refine ⟨?_, recorded.unrolledValues, ?_, ?_, fun _ => .inl nonempty, fun _ _ => nonempty, ?_⟩
  · intro addr member
    rcases Std.ExtTreeMap.mem_insert.mp member with same | before
    · exact ⟨line, inLog, (Std.LawfulEqCmp.eq_of_compare same).symm⟩
    · exact recorded.loggedValues addr before
  · intro other present isSome
    rw [table] at isSome
    exact recorded.unfinished (kept isSome)
  · intro other present next isSome done
    rw [table] at isSome
    exact List.mem_append_left _ (recorded.completed (kept isSome) done)
  · intro _
    refine ⟨storeAddr, fun next => ?_⟩
    by_cases this : next = write
    · simp [this]
    · have done := last next
      rw [LoggingCore.status_complete this] at done
      exact List.mem_append_left _ (recorded.completed found done)

variable {old : ByteMemory 64}

/-- One event of a transaction. -/
theorem Recorded.step (recorded : core.Recorded space logBase events)
    (aligned : PageAligned logBase) (logs : core.toLoggingCore.Logs space logBase old)
    (step : (system space logBase).Step core event next) :
    next.Recorded space logBase (events ++ [event]) := by
  obtain ⟨admitted, taken⟩ := step
  cases event with
  | log vaddr =>
    simp only [take, run_eq_ok] at taken
    obtain ⟨after, logged, rfl⟩ := taken
    have pending : core.logRequestTable (space.translate (lineAddress vaddr)) = none := by
      simp only [LoggingCore.logTransactionalStores, run_eq_ok] at logged
      exact Option.isNone_iff_eq_none.mp logged.2.1
    obtain ⟨-, rfl⟩ := (logs.logTransactionalStores_eq_ok aligned admitted.1).mp logged
    exact recorded.log pending
  | complete storeAddr write =>
    obtain ⟨log, found, -⟩ := admitted
    obtain ⟨i, block, entry, -, request⟩ := logs.requests found
    have bound : i < 256 * 56 :=
      Nat.lt_of_lt_of_le (List.getElem?_eq_some_iff.mp entry).1 logs.capacity
    have slot : InLog logBase (slotAddress logBase i write) :=
      inLog_of_slot bound (by simpa using inRegion_add _ slotSize_le (@slotSize_pos write))
    simp only [take, handleStoresToLog, logs.handleStoresToLog found, ok_bind, found] at taken
    by_cases last : ∀ other, (log.complete write).status other = .completed
    · simp only [table_secondWrite last, Function.update_self, run_eq_ok] at taken
      obtain ⟨checker, notified, rfl⟩ := taken
      rw [request.addr, lineAddress_translate] at notified
      obtain rfl := XactValueChecker.notifyLoggedDataBlock_eq_ok notified
      exact recorded.secondWrite found last (inLog_lineAddress aligned slot)
    · simp only [table_firstWrite last, Function.update_self, pure_eq_ok] at taken
      obtain rfl := taken
      exact recorded.firstWrite found last
  | store vaddr data =>
    obtain rfl := pure_eq_ok.mp taken
    refine { recorded with completed := ?_, finished := ?_, both := ?_ }
    · exact fun found done => List.mem_append_left _ (recorded.completed found done)
    · exact fun member => recorded.finished (by simpa using member)
    · intro some
      obtain ⟨line, all⟩ := recorded.both some
      exact ⟨line, fun write => List.mem_append_left _ (all write)⟩

private theorem Recorded.of_steps (aligned : PageAligned logBase)
    (begins : initial.Begins space logBase)
    (steps : (system space logBase).Steps initial events core) :
    core.Recorded space logBase events := by
  induction steps with
  | refl => exact begins.recorded
  | step prior transition ih =>
    have logs := LoggingCore.Logs.of_steps aligned begins.toBegins (steps_toLoggingCore prior)
    exact ih.step aligned logs transition

/-- Something is recorded exactly if both writes of some request have completed. -/
theorem Recorded.isEmpty_iff (recorded : core.Recorded space logBase events) :
    core.checker.loggedValues.isEmpty = true ↔ ∀ line, ∃ write, .complete line write ∉ events := by
  constructor
  · intro empty line
    by_contra all
    have all : ∀ write, .complete line write ∈ events := by simpa using all
    have done : ∀ write, ∃ log, core.logRequestTable line = some log ∧
        log.status write = .completed := fun write =>
      (recorded.finished (all write)).resolve_left (by simp [empty])
    obtain ⟨log, found, -⟩ := done .addr
    obtain ⟨write, issued⟩ := recorded.unfinished found
    obtain ⟨log', found', completed⟩ := done write
    obtain rfl := Option.some.inj (found.symm.trans found')
    exact absurd (issued.symm.trans completed) (by decide)
  · intro open_
    cases empty : core.checker.loggedValues.isEmpty with
    | true => rfl
    | false =>
      obtain ⟨line, all⟩ := recorded.both empty
      obtain ⟨write, missing⟩ := open_ line
      exact absurd (all write) missing

/-! ## After the unroll -/

private theorem unrollStore_keeps {vaddr : BitVec 64} {data : List UInt8}
    (stored : core.unrollStore space vaddr data = .ok next) :
    next.writeSet = core.writeSet ∧ next.checker.loggedValues = core.checker.loggedValues ∧
      ∀ addr ∈ next.checker.unrolledValues, addr ∈ core.checker.unrolledValues ∨
        ∃ block ∈ core.writeSet, addr = (space.translate block).toNat := by
  simp only [unrollStore] at stored
  split at stored
  · next member =>
    obtain ⟨block, inSet, same⟩ := List.any_eq_true.mp member
    simp only [XactValueChecker.notifyUnrolledDataBlock, run_eq_ok] at stored
    obtain ⟨_, ⟨-, rfl⟩, rfl⟩ := stored
    refine ⟨rfl, rfl, fun addr found => ?_⟩
    rcases Std.ExtTreeMap.mem_insert.mp found with isLine | before
    · refine .inr ⟨block, inSet, ?_⟩
      rw [of_decide_eq_true same]
      exact (Std.LawfulEqCmp.eq_of_compare isLine).symm
    · exact .inl before
  · obtain rfl := pure_eq_ok.mp stored
    exact ⟨rfl, rfl, fun addr found => .inl found⟩

/-- The unroll records only lines of the write set. -/
theorem unroll_keeps {stores : List (BitVec 64 × List UInt8)} {after : ValueCheckedCore}
    (unrolled : core.unroll space stores = .ok after) :
    after.writeSet = core.writeSet ∧ after.checker.loggedValues = core.checker.loggedValues ∧
      ∀ addr ∈ after.checker.unrolledValues, addr ∈ core.checker.unrolledValues ∨
        ∃ block ∈ core.writeSet, addr = (space.translate block).toNat := by
  induction stores generalizing core with
  | nil =>
    obtain rfl := pure_eq_ok.mp unrolled
    exact ⟨rfl, rfl, fun addr found => .inl found⟩
  | cons store rest ih =>
    rw [unroll, List.foldlM_cons, bind_eq_ok] at unrolled
    obtain ⟨next, stored, tail⟩ := unrolled
    obtain ⟨writeSet, logged, values⟩ := unrollStore_keeps stored
    obtain ⟨writeSet', logged', values'⟩ := ih tail
    refine ⟨writeSet'.trans writeSet, logged'.trans logged, fun addr found => ?_⟩
    rcases values' addr found with before | ⟨block, member, same⟩
    · exact values addr before
    · exact .inr ⟨block, writeSet ▸ member, same⟩

/-- No line of the log is a block of the write set. -/
theorem line_ne_block (logs : core.toLoggingCore.Logs space logBase old) {line block : BitVec 64}
    (inLog : InLog logBase line) (member : block ∈ core.writeSet) :
    (space.translate line).toNat ≠ (space.translate block).toNat := by
  intro same
  obtain rfl := AddressSpace.translate_injective (BitVec.eq_of_toNat_eq same)
  refine logs.outside line member line ?_ inLog
  simpa using inRegion_add line (by decide : 64 ≤ 2 ^ 64) (by decide : 0 < 64)

section

variable (recorded : core.Recorded space logBase events)
  (logs : core.toLoggingCore.Logs space logBase old)

include recorded logs

/-- Once something is recorded, no unroll is accepted. -/
theorem Recorded.restartTransaction
    (some : core.checker.loggedValues.isEmpty = false) {stores : List (BitVec 64 × List UInt8)}
    {after : ValueCheckedCore} (unrolled : core.unroll space stores = .ok after) :
    after.checker.restartTransaction = panicWith "Logged data was not unrolled!" := by
  obtain ⟨-, logged, values⟩ := unroll_keeps unrolled
  have apart : ∀ addr ∈ after.checker.loggedValues, addr ∉ after.checker.unrolledValues := by
    intro addr member found
    obtain ⟨line, inLog, rfl⟩ := recorded.loggedValues addr (logged ▸ member)
    rcases values _ found with before | ⟨block, inSet, same⟩
    · exact recorded.unrolledValues line inLog before
    · exact line_ne_block logs inLog inSet same
  rw [← logged] at some
  cases entries : after.checker.loggedValues.toList with
  | nil =>
    have empty := Std.ExtTreeMap.toList_eq_nil_iff.mp entries
    simp [empty] at some
  | cons entry rest =>
    have member : entry.1 ∈ after.checker.loggedValues := by
      have found : (entry.1, entry.2) ∈ after.checker.loggedValues.toList := by simp [entries]
      have value := Std.ExtTreeMap.mem_toList_iff_getElem?_eq_some.mp found
      exact Std.ExtTreeMap.mem_iff_isSome_getElem?.mpr (by simp [value])
    have missing : after.checker.unrolledValues[entry.1]? = none :=
      Std.ExtTreeMap.getElem?_eq_none (apart _ member)
    simp only [XactValueChecker.restartTransaction, entries, List.foldlM_cons,
      XactValueChecker.compareLogged, missing]
    rfl

/-- A recorded line is no block of the write set, so the record is not the undo reference. -/
theorem Recorded.not_faithful {addr : Addr}
    (member : addr ∈ core.checker.loggedValues) : ¬ core.Faithful space old := by
  intro faithful
  obtain ⟨line, inLog, rfl⟩ := recorded.loggedValues addr member
  obtain ⟨data, found⟩ := Option.isSome_iff_exists.mp
    (Std.ExtTreeMap.mem_iff_isSome_getElem?.mp member)
  obtain ⟨block, inSet, same, -⟩ := faithful.recorded found
  exact line_ne_block logs inLog inSet same

end

/-- The undo reference of the checker.  For every page-aligned log, every memory and every run of a
transaction: what the checker has recorded are program blocks with their old contents, and it tells
correct unrolls from incorrect ones, exactly if no store of the transaction has completed both of
its log writes.  Once one has, the comparison after any unroll panics. -/
theorem faithful_iff_nothing_logged (space : AddressSpace) (logBase : BitVec 64)
    (aligned : PageAligned logBase) (initial core : ValueCheckedCore) (events : List LogEvent)
    (begins : initial.Begins space logBase)
    (steps : (system space logBase).Steps initial events core) :
    (core.Faithful space (space.view initial.mem) ↔
      ∀ line, ∃ write, .complete line write ∉ events) ∧
    ((∃ line, ∀ write, .complete line write ∈ events) → ∀ stores after,
      core.unroll space stores = .ok after →
      after.checker.restartTransaction = panicWith "Logged data was not unrolled!") := by
  have logs := LoggingCore.Logs.of_steps aligned begins.toBegins (steps_toLoggingCore steps)
  have recorded := Recorded.of_steps aligned begins steps
  rw [← recorded.isEmpty_iff]
  refine ⟨⟨fun faithful => ?_, fun empty => ?_⟩, ?_⟩
  · refine Std.ExtTreeMap.isEmpty_iff.mpr (Std.ExtTreeMap.eq_empty_iff_forall_not_mem.mpr ?_)
    exact fun addr member => recorded.not_faithful logs member faithful
  · refine ⟨fun found => ?_, fun unrolled _ => ?_, ?_⟩
    · simp [Std.ExtTreeMap.isEmpty_iff.mp empty] at found
    · exact ⟨_, XactValueChecker.restartTransaction_of_isEmpty
        ((unroll_keeps unrolled).2.1 ▸ empty)⟩
    · rintro stores after - ⟨block, member, none, -⟩
      have some := recorded.logged member none
      simp [empty] at some
  · rintro ⟨line, all⟩ stores after unrolled
    refine recorded.restartTransaction logs ?_ unrolled
    cases empty : core.checker.loggedValues.isEmpty with
    | false => rfl
    | true =>
      obtain ⟨write, missing⟩ := recorded.isEmpty_iff.mp empty line
      exact absurd (all write) missing

/-! ## A run -/

private theorem makeLineAddress_lineAddress (addr : BitVec 64) :
    (lineAddress addr).toNat = makeLineAddress 64 (lineAddress addr).toNat := by
  rw [LoggingCore.toNat_lineAddress, makeLineAddress]
  omega

/-- With nothing recorded yet the checker lets every event pass. -/
theorem exists_take {last : LoggingCore} (empty : core.checker.loggedValues.isEmpty = true)
    (taken : core.toLoggingCore.take space event = .ok last) :
    ∃ next, core.take space event = .ok next ∧ next.toLoggingCore = last := by
  cases event with
  | log vaddr => exact ⟨⟨last, core.checker⟩, bind_eq_ok.mpr ⟨last, taken, rfl⟩, rfl⟩
  | complete storeAddr write =>
    simp only [take, handleStoresToLog, bind_eq_ok]
    have notified : ∀ addr data, ∃ checker,
        core.checker.notifyLoggedDataBlock (lineAddress addr).toNat data = .ok checker := by
      intro addr data
      rw [XactValueChecker.notifyLoggedDataBlock,
        assertThat_of (makeLineAddress_lineAddress addr), ok_bind,
        assertThat_of (by simp [Std.ExtTreeMap.isEmpty_iff.mp empty]), ok_bind]
      exact ⟨_, rfl⟩
    cases found : core.logRequestTable storeAddr with
    | none => exact ⟨_, ⟨last, taken, rfl⟩, rfl⟩
    | some log =>
      cases left : last.logRequestTable storeAddr with
      | none =>
        obtain ⟨checker, isOk⟩ := notified (log.packet write).addr
          (blockAt last.mem (lineAddress (log.packet write).addr))
        exact ⟨⟨last, checker⟩, ⟨last, taken, by simp [left, isOk]⟩, rfl⟩
      | some _ => exact ⟨⟨last, core.checker⟩, ⟨last, taken, by simp [left]⟩, rfl⟩
  | store vaddr data =>
    obtain rfl := pure_eq_ok.mp taken
    exact ⟨_, rfl, rfl⟩

/-- A run that records nothing before its last event is a run with the checker on. -/
theorem exists_steps (aligned : PageAligned logBase) (begins : initial.Begins space logBase)
    {last : LoggingCore}
    (steps : (LoggingCore.system space logBase).Steps initial.toLoggingCore events last)
    (unrecorded : ∀ line, ∃ write, .complete line write ∉ events.dropLast) :
    ∃ after, (system space logBase).Steps initial events after ∧ after.toLoggingCore = last := by
  generalize start : initial.toLoggingCore = first at steps
  induction steps with
  | refl => exact ⟨initial, .refl, start⟩
  | step _ transition ih =>
    rw [List.dropLast_concat] at unrecorded
    obtain ⟨middle, run, rfl⟩ := ih fun line =>
      (unrecorded line).imp fun _ missing member => missing (List.mem_of_mem_dropLast member)
    have empty := (Recorded.of_steps aligned begins run).isEmpty_iff.mpr unrecorded
    obtain ⟨next, taken, rfl⟩ := exists_take empty transition.2
    exact ⟨next, run.step ⟨transition.1, taken⟩, rfl⟩

/-- The stores of the handler always succeed. -/
theorem exists_unroll (stores : List (BitVec 64 × List UInt8)) :
    ∃ after, core.unroll space stores = .ok after := by
  induction stores generalizing core with
  | nil => exact ⟨core, rfl⟩
  | cons store rest ih =>
    have first : ∃ next, core.unrollStore space store.1 store.2 = .ok next := by
      simp only [unrollStore]
      split
      · have line := makeLineAddress_lineAddress (space.translate store.1)
        rw [lineAddress_translate] at line
        rw [XactValueChecker.notifyUnrolledDataBlock, assertThat_of line]
        exact ⟨_, rfl⟩
      · exact ⟨_, rfl⟩
    obtain ⟨next, stored⟩ := first
    obtain ⟨after, tail⟩ := @ih next
    exact ⟨after, by rw [unroll, List.foldlM_cons, stored]; exact tail⟩

/-- A core at the begin of a transaction, with an empty checker. -/
def ready (mem : ByteMemory 64) : ValueCheckedCore where
  toLoggingCore := LoggingCore.ready mem
  checker := { loggedValues := ∅, unrolledValues := ∅ }

private theorem ready_begins (mem : ByteMemory 64) : (ready mem).Begins .flat 0 where
  toBegins := LoggingCore.ready_begins mem
  loggedValues := by simp [ready]
  unrolledValues _ _ := by simp [ready]

private theorem ready_logs_checked (mem : ByteMemory 64) : ∃ core,
    (system .flat 0).Steps (ready mem)
      [.log 0x40000008, .complete 0x40000000 .data, .complete 0x40000000 .addr] core ∧
      core.writeSet = [0x40000000] := by
  obtain ⟨last, steps, -, writeSet, -⟩ := LoggingCore.ready_logs mem
  obtain ⟨core, run, rfl⟩ := exists_steps (rfl : PageAligned 0) (ready_begins mem) steps fun line =>
    ⟨.addr, by simp⟩
  exact ⟨core, run, writeSet⟩

/-- The first store of a transaction is logged. -/
theorem faithful_iff_nothing_logged_ready : ∃ core after, (system .flat 0).Steps (ready fun _ => 7)
      [.log 0x40000008, .complete 0x40000000 .data, .complete 0x40000000 .addr] core ∧
    ¬ core.Faithful .flat (AddressSpace.flat.view fun _ => 7) ∧
    core.unroll .flat [] = .ok after ∧
    after.checker.restartTransaction = panicWith "Logged data was not unrolled!" := by
  obtain ⟨core, steps, -⟩ := ready_logs_checked fun _ => 7
  have result := faithful_iff_nothing_logged .flat 0 rfl _ core _ (ready_begins _) steps
  refine ⟨core, core, steps, fun faithful => ?_, rfl, ?_⟩
  · obtain ⟨write, missing⟩ := result.1.mp faithful 0x40000000
    cases write <;> simp at missing
  · exact result.2 ⟨0x40000000, fun write => by cases write <;> simp⟩ [] core rfl

/-- A transaction logs the block `0x40000000`.  The checker records a line of the log in its place,
and whatever the handler writes back, the comparison stops the simulation. -/
theorem records_log_line : ∃ core addr, (system .flat 0).Steps (ready fun _ => 7)
      [.log 0x40000008, .complete 0x40000000 .data, .complete 0x40000000 .addr] core ∧
    core.writeSet = [0x40000000] ∧ addr ∈ core.checker.loggedValues ∧ addr ≠ 0x40000000 ∧
    ∀ stores, ∃ after, core.unroll .flat stores = .ok after ∧
      after.checker.restartTransaction = panicWith "Logged data was not unrolled!" := by
  obtain ⟨core, steps, writeSet⟩ := ready_logs_checked fun _ => 7
  have aligned : PageAligned 0 := rfl
  have recorded := Recorded.of_steps aligned (ready_begins _) steps
  have logs :=
    LoggingCore.Logs.of_steps aligned (ready_begins _).toBegins (steps_toLoggingCore steps)
  have some : core.checker.loggedValues.isEmpty = false := by
    refine Bool.eq_false_iff.mpr fun empty => ?_
    obtain ⟨write, missing⟩ := recorded.isEmpty_iff.mp empty 0x40000000
    cases write <;> simp at missing
  obtain ⟨addr, member⟩ : ∃ addr, addr ∈ core.checker.loggedValues := by
    by_contra none
    have empty := Std.ExtTreeMap.eq_empty_iff_forall_not_mem.mpr (not_exists.mp none)
    simp [empty] at some
  refine ⟨core, addr, steps, writeSet, member, ?_, fun stores => ?_⟩
  · obtain ⟨line, inLog, rfl⟩ := recorded.loggedValues addr member
    exact line_ne_block logs inLog (writeSet ▸ List.mem_singleton_self _)
  · obtain ⟨after, unrolled⟩ := exists_unroll stores
    exact ⟨after, unrolled, recorded.restartTransaction logs some unrolled⟩

end ValueCheckedCore

end Gem5.Ruby
