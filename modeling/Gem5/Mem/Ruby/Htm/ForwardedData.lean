import Gem5.Mem.Ruby.Htm.BlockHistory
import Gem5.Mem.Ruby.Htm.ManagerCalls

/-!
# The data of forwarded blocks

What each call of the manager does to the cache lines and to the buffer of received
blocks.  `Consistent` ties both to the histories of the blocks; receptions, loads,
stores and validations keep it.
-/

namespace Gem5.Ruby

open Foundation

/-- What a transaction did to each of the blocks it received. -/
abbrev BlockHistories (n : Nat) := Addr → Option (BlockHistory n)

namespace TransactionInterfaceManager

variable {params : HTMParams} {n : Nat} {mgr next : TransactionInterfaceManager params n}

/-- A received block enters the buffer; it was not there before. -/
theorem notifyForwardedData_data {nack : RemoteRequest} {data : DataBlock n}
    (notified : mgr.notifyForwardedDataFromProducer nack data = .ok next) :
    makeLineAddress n nack.addr = nack.addr ∧ next.dataCache = mgr.dataCache ∧
      next.buffer = mgr.buffer.insert nack.addr ⟨data, false, WriteMask.empty, 0⟩ := by
  obtain ⟨marked, taker, consumer, parts⟩ := notifyForwardedData_ok notified
  have before := parts.marking.same.trans (.of_takeNackPriority parts.taking)
  have entered : consumer.dataCache = taker.dataCache ∧
      consumer.buffer = taker.buffer.insertIfNew nack.addr ⟨data, false, WriteMask.empty, 0⟩ := by
    obtain ⟨_, _, _, _, rfl, -⟩ := consumeData_ok parts.consuming
    exact ⟨rfl, rfl⟩
  have after := parts.limits.same
  refine ⟨parts.aligned.symm, after.dataCache.trans (entered.1.trans before.dataCache), ?_⟩
  have unknown := parts.absent
  rw [after.buffer, entered.2, before.buffer]
  ext key : 1
  rw [Std.ExtTreeMap.getElem?_insertIfNew, Std.ExtTreeMap.getElem?_insert]
  have notMem : nack.addr ∉ mgr.buffer := by
    rw [Std.ExtTreeMap.mem_iff_contains, unknown]
    exact Bool.false_ne_true
  by_cases here : nack.addr = key
  · simp [here, here ▸ notMem]
  · simp [here]

/-- An access to a buffered block enters its mask. -/
theorem trackForwardedAccess_data {access : Access} (forwarding : params.allowEarlyValueFwd = true)
    (followed : mgr.trackForwardedAccess access = .ok next) :
    let line := makeLineAddress n access.addr
    next.dataCache = mgr.dataCache ∧ ((mgr.buffer[line]? = none ∧ next.buffer = mgr.buffer) ∨
        ∃ buffered mask modified, mgr.buffer[line]? = some buffered ∧
          buffered.mask.setMask (access.addr - line) access.size = .ok mask ∧
          next.buffer = mgr.buffer.insert line
            { buffered with mask := mask, modified := modified }) := by
  intro line
  simp only [trackForwardedAccess, forwarding, Bool.true_and] at followed
  split at followed
  · unfold setAccessOnForwardBlock at followed
    split at followed
    · next buffered found =>
      simp only [run_eq_ok] at followed
      obtain ⟨-, mask, masked, rfl⟩ := followed
      exact ⟨rfl, .inr ⟨buffered, mask, _, found, masked, rfl⟩⟩
    · simp at followed
  · next absent =>
    have unknown : mgr.buffer[line]? = none := by
      rw [isBlockConsumed, Std.ExtTreeMap.contains_eq_isSome_getElem?] at absent
      exact Option.not_isSome_iff_eq_none.mp absent
    split at followed
    · simp only [run_eq_ok] at followed
      exact followed.2 ▸ ⟨rfl, .inl ⟨unknown, rfl⟩⟩
    · exact pure_eq_ok.mp followed ▸ ⟨rfl, .inl ⟨unknown, rfl⟩⟩

/-- A store of a system with eager conflict detection changes its line. -/
theorem hitStore_data {access : Access} {issues : Addr → Bool} (eager : params.eagerCd = true)
    (hit : mgr.hitStore access issues = .ok next) : let line := makeLineAddress n access.addr
    ∃ entry, mgr.dataCache[line]? = some entry ∧
      next.dataCache = mgr.dataCache.insert line { entry with
        data := entry.data.setData access.data (access.addr - line) access.size, dirty := true } ∧
      next.buffer = mgr.buffer := by
  simp only [hitStore, eager, Bool.not_true, Bool.and_false, Bool.false_eq_true, ↓reduceIte,
    bind_eq_ok] at hit
  obtain ⟨writer, handled, hit⟩ := hit
  have same := (QuietCall.of_handleTransactionalWrite handled).same
  simp only [performStore, cacheLine, run_eq_ok] at hit
  obtain ⟨entry, found, rfl⟩ := hit
  split at found
  · next held =>
    rw [same.dataCache] at held
    rw [pure_eq_ok] at found
    subst found
    refine ⟨_, held, ?_, same.buffer⟩
    simp only [writeLine, same.dataCache]
  · simp at found

/-- A call withdraws no abort signal. -/
theorem CallFrame.live (frame : CallFrame mgr next) (live : next.abort.abortFlag = false) :
    mgr.abort.abortFlag = false := by
  rcases frame.abort with same | ⟨-, -, flagged⟩
  · exact same ▸ live
  · simp [live] at flagged

/-- An invalid block aborts; nothing else is changed. -/
theorem abortIfInvalid_data {addr : Addr} {check : Bool}
    (checked : mgr.abortIfInvalid addr check = .ok next) :
    SameReceiver mgr next ∧ (next.abort.abortFlag = false → check = true) := by
  refine ⟨(QuietCall.of_abortIfInvalid checked).same, fun live => ?_⟩
  unfold abortIfInvalid at checked
  split at checked
  · next passed => exact passed
  · obtain ⟨-, -, _, _, rfl, flagged, -⟩ := setAbortFlag_ok checked
    simp [flagged] at live

private theorem endValidation_data {addr : Addr} {source : MachineID} {timestamp : Cycles}
    {isNack : Bool}
    (ended : mgr.endValidation addr source timestamp isNack = .ok next) :
    next.dataCache = mgr.dataCache ∧
      next.buffer = if isNack then mgr.buffer else mgr.buffer.erase addr := by
  cases isNack with
  | true =>
    have same : SameData mgr next := by
      simp only [endValidation, repeatValidation, ↓reduceIte] at ended
      split at ended
      · simp only [bind_eq_ok] at ended
        obtain ⟨_, received, ended⟩ := ended
        exact (SameReceiver.of_conflictFrame (.of_notifyReceiveNack received)).toSameData.trans
          (scheduleNextValidation_call ended).2
      · exact (scheduleNextValidation_call ended).2
    exact ⟨same.dataCache, same.buffer⟩
  | false =>
    simp only [endValidation, completeValidation, Bool.false_eq_true, ↓reduceIte] at ended ⊢
    repeat' split at ended
    · exact pure_eq_ok.mp ended ▸ ⟨rfl, rfl⟩
    · exact pure_eq_ok.mp ended ▸ ⟨rfl, rfl⟩
    · simp at ended

/-- A validation round of a buffered block: a running transaction passed the comparison, and the
block leaves the buffer when it came with permissions. -/
theorem validateDataBlock_data {addr : Addr} {source : MachineID} {line block left : DataBlock n}
    {timestamp : Cycles} {dirty isNack check : Bool}
    (done : mgr.validateDataBlock addr source line block timestamp dirty isNack =
      .ok (check, left, next)) :
    ∃ buffered passes after, mgr.buffer[addr]? = some buffered ∧
      compareForwardedData params { buffered with nVal := buffered.nVal + 1 } line block dirty =
        (passes, after, left) ∧
      next.dataCache = mgr.dataCache ∧
      next.buffer = (if isNack then mgr.buffer.insert addr after
        else (mgr.buffer.insert addr after).erase addr) ∧
      (next.abort.abortFlag = false → check = true ∧ passes = true) := by
  simp only [validateDataBlock, run_eq_ok] at done
  obtain ⟨-, -, done⟩ := done
  split at done
  · simp at done
  · next buffered found =>
    simp only [run_eq_ok, Prod.mk.injEq] at done
    obtain ⟨-, checked, checking, ended, ending, rfl, rfl, rfl⟩ := done
    obtain ⟨same, passed⟩ := abortIfInvalid_data checking
    obtain ⟨cache, entries⟩ := endValidation_data ending
    refine ⟨buffered, _, _, found, rfl, cache.trans same.dataCache, ?_, ?_⟩
    · rw [entries, same.buffer]
      rfl
    · intro live
      have consumer : checked.isConsumer = true := by
        simp only [isConsumer,
          show checked.forwarding.recvDataForwardedFromProducer = _ from same.buffer]
        simp [buffer]
      have verdict := passed ((RankCall.of_endValidation consumer ending).call.live live)
      refine ⟨verdict, ?_⟩
      unfold boundValidations at verdict
      split at verdict
      · exact (Bool.and_eq_true_iff.mp verdict).1
      · exact verdict

/-- The copies of a received block agree with what the transaction did to it. -/
def Follows (mgr : TransactionInterfaceManager params n) (addr : Addr)
    (history : BlockHistory n) : Prop :=
  ∃ line, mgr.dataCache[addr]? = some line ∧ match history.validated with
    | none => ∃ buffered, mgr.buffer[addr]? = some buffered ∧ history.Unvalidated line buffered
    | some block => mgr.buffer[addr]? = none ∧ history.Validated line block

/-- Every received block is followed, and no other block is in the buffer. -/
structure Consistent (mgr : TransactionInterfaceManager params n) (histories : BlockHistories n) :
    Prop where
  aligned : ∀ addr history, histories addr = some history → makeLineAddress n addr = addr
  follows : ∀ addr history, histories addr = some history → mgr.Follows addr history
  unknown : ∀ addr, histories addr = none → mgr.buffer[addr]? = none

namespace Consistent

variable {histories : BlockHistories n} {addr : Addr} {history : BlockHistory n}

variable (consistent : mgr.Consistent histories)

include consistent

/-- Unchanged data stays consistent. -/
theorem of_sameData (same : SameData mgr next) : next.Consistent histories where
  aligned := consistent.aligned
  follows addr history received := by
    have followed := consistent.follows addr history received
    rwa [Follows, ← same.dataCache, ← same.buffer] at followed
  unknown addr unreceived := by
    rw [same.buffer]
    exact consistent.unknown addr unreceived

/-- Only one block changes, and it is followed. -/
theorem update (aligned : makeLineAddress n addr = addr)
    (lines : ∀ other, addr ≠ other → next.dataCache[other]? = mgr.dataCache[other]?)
    (entries : ∀ other, addr ≠ other → next.buffer[other]? = mgr.buffer[other]?)
    (followed : next.Follows addr history) :
    next.Consistent (Function.update histories addr (some history)) where
  aligned other past received := by
    by_cases here : other = addr
    · exact here ▸ aligned
    · rw [Function.update_of_ne here] at received
      exact consistent.aligned other past received
  follows other past received := by
    by_cases here : other = addr
    · subst here
      simp only [Function.update_self, Option.some.injEq] at received
      exact received ▸ followed
    · rw [Function.update_of_ne here] at received
      have before := consistent.follows other past received
      rwa [Follows, ← lines other (Ne.symm here), ← entries other (Ne.symm here)] at before
  unknown other unreceived := by
    by_cases here : other = addr
    · simp [here] at unreceived
    · rw [Function.update_of_ne here] at unreceived
      rw [entries other (Ne.symm here)]
      exact consistent.unknown other unreceived

/-- Only a block that was never received changes, and it stays out of the buffer. -/
theorem keep (unreceived : histories addr = none)
    (lines : ∀ other, addr ≠ other → next.dataCache[other]? = mgr.dataCache[other]?)
    (entries : next.buffer = mgr.buffer) : next.Consistent histories where
  aligned := consistent.aligned
  follows other past received := by
    have elsewhere : addr ≠ other := by
      rintro rfl
      simp [unreceived] at received
    have before := consistent.follows other past received
    rwa [Follows, ← lines other elsewhere, ← entries] at before
  unknown other free := by
    rw [entries]
    exact consistent.unknown other free

end Consistent

/-- The access is entered in the history of its block, with the bytes of the line it reads. -/
def observe (mgr : TransactionInterfaceManager params n) (histories : BlockHistories n)
    (access : Access) : BlockHistories n :=
  let line := makeLineAddress n access.addr
  match histories line, mgr.dataCache[line]? with
  | some history, some entry => Function.update histories line
      (some (if access.write then history.store access.data (access.addr - line) access.size
        else history.load entry.data (access.addr - line) access.size))
  | _, _ => histories

section Access

variable {access : Access} {issues : Addr → Bool} {histories : BlockHistories n}
variable {history : BlockHistory n}

section

variable (forwarding : params.allowEarlyValueFwd = true)

include forwarding

/-- An access leaves the other blocks alone. -/
theorem hitCallback_elsewhere
    (eager : params.eagerCd = true) (hit : mgr.hitCallback access issues = .ok next) {other : Addr}
    (elsewhere : makeLineAddress n access.addr ≠ other) :
    next.dataCache[other]? = mgr.dataCache[other]? ∧ next.buffer[other]? = mgr.buffer[other]? := by
  simp only [hitCallback, bind_eq_ok] at hit
  obtain ⟨tracked, followed, hit⟩ := hit
  obtain ⟨cache, entries⟩ := trackForwardedAccess_data forwarding followed
  have before : tracked.dataCache[other]? = mgr.dataCache[other]? ∧
      tracked.buffer[other]? = mgr.buffer[other]? := by
    refine ⟨by rw [cache], ?_⟩
    rcases entries with ⟨-, same⟩ | ⟨_, _, _, -, -, inserted⟩
    · rw [same]
    · rw [inserted, Std.ExtTreeMap.getElem?_insert]
      simp [elsewhere]
  split at hit
  · obtain ⟨_, -, stored, same⟩ := hitStore_data eager hit
    rw [same, stored, Std.ExtTreeMap.getElem?_insert]
    simpa [elsewhere] using before
  · exact pure_eq_ok.mp hit ▸ before

/-- A load of a received block. -/
theorem Follows.load (followed : mgr.trackForwardedAccess access = .ok next) {entry : CacheEntry n}
    (held : mgr.dataCache[makeLineAddress n access.addr]? = some entry)
    (follows : mgr.Follows (makeLineAddress n access.addr) history) :
    next.Follows (makeLineAddress n access.addr)
      (history.load entry.data (access.addr - makeLineAddress n access.addr) access.size) := by
  obtain ⟨cache, entries⟩ := trackForwardedAccess_data forwarding followed
  obtain ⟨line, found, follows⟩ := follows
  obtain rfl : line = entry := Option.some.inj (found.symm.trans held)
  refine ⟨line, by rw [cache, held], ?_⟩
  rw [BlockHistory.load_validated]
  cases validated : history.validated with
  | none =>
    simp only [validated] at follows
    obtain ⟨buffered, present, unvalidated⟩ := follows
    rcases entries with ⟨absent, -⟩ | ⟨_, mask, modified, known, masked, inserted⟩
    · simp [present] at absent
    · obtain rfl := Option.some.inj (present.symm.trans known)
      exact ⟨_, by simp [inserted], unvalidated.load validated masked modified⟩
  | some block =>
    simp only [validated] at follows
    rcases entries with ⟨-, same⟩ | ⟨_, _, _, known, -, -⟩
    · rw [same, BlockHistory.load_of_some validated]
      exact follows
    · simp [follows.1] at known

/-- A store to a received block. -/
theorem Follows.store (eager : params.eagerCd = true)
    {tracked : TransactionInterfaceManager params n}
    (followed : mgr.trackForwardedAccess access = .ok tracked)
    (hit : tracked.hitStore access issues = .ok next)
    (follows : mgr.Follows (makeLineAddress n access.addr) history) :
    next.Follows (makeLineAddress n access.addr)
      (history.store access.data (access.addr - makeLineAddress n access.addr) access.size) := by
  obtain ⟨cache, entries⟩ := trackForwardedAccess_data forwarding followed
  obtain ⟨line, found, follows⟩ := follows
  obtain ⟨entry, held, stored, same⟩ := hitStore_data eager hit
  obtain rfl : line = entry := Option.some.inj (found.symm.trans (cache ▸ held))
  refine ⟨_, by rw [stored, Std.ExtTreeMap.getElem?_insert_self], ?_⟩
  rw [BlockHistory.store_validated, same]
  cases validated : history.validated with
  | none =>
    simp only [validated] at follows
    obtain ⟨buffered, present, unvalidated⟩ := follows
    rcases entries with ⟨absent, -⟩ | ⟨_, mask, modified, known, masked, inserted⟩
    · simp [present] at absent
    · obtain rfl := Option.some.inj (present.symm.trans known)
      exact ⟨_, by simp [inserted], unvalidated.store masked modified⟩
  | some block =>
    simp only [validated] at follows
    rcases entries with ⟨-, kept⟩ | ⟨_, _, _, known, -, -⟩
    · exact ⟨kept ▸ follows.1, follows.2.store⟩
    · simp [follows.1] at known

/-- Every load and store keeps the copies and the history together. -/
theorem Consistent.hitCallback
    (eager : params.eagerCd = true) (consistent : mgr.Consistent histories)
    (hit : mgr.hitCallback access issues = .ok next) :
    next.Consistent (mgr.observe histories access) := by
  have elsewhere := fun other => @hitCallback_elsewhere _ _ _ _ _ _ forwarding eager hit other
  simp only [TransactionInterfaceManager.hitCallback, bind_eq_ok] at hit
  obtain ⟨tracked, followed, hit⟩ := hit
  cases received : histories (makeLineAddress n access.addr) with
  | none =>
    have observed : mgr.observe histories access = histories := by simp [observe, received]
    have same : SameData mgr tracked := by
      obtain ⟨cache, ⟨-, entries⟩ | ⟨_, _, _, known, -, -⟩⟩ :=
        trackForwardedAccess_data forwarding followed
      · exact ⟨cache, entries⟩
      · simp [consistent.unknown _ received] at known
    rw [observed]
    refine consistent.keep received (fun other apart => (elsewhere other apart).1) ?_
    split at hit
    · obtain ⟨_, -, -, entries⟩ := hitStore_data eager hit
      exact entries.trans same.buffer
    · exact pure_eq_ok.mp hit ▸ same.buffer
  | some history =>
    have follows := consistent.follows _ _ received
    obtain ⟨entry, held, -⟩ := id follows
    simp only [observe, received, held]
    refine consistent.update (by simp) (fun other apart => (elsewhere other apart).1)
      (fun other apart => (elsewhere other apart).2) ?_
    split at hit
    · next write => simpa [write] using follows.store forwarding eager followed hit
    · next read =>
      rw [if_neg read]
      exact pure_eq_ok.mp hit ▸ follows.load forwarding followed held

end

/-- Whether an access is performed at once: the first store of LogTM to a block only logs it. -/
def performs (mgr : TransactionInterfaceManager params n) (access : Access) : Bool :=
  !access.write || params.lazyVm || mgr.checkWriteSignature access.addr

/-- The histories after an access. -/
def followAccess (mgr : TransactionInterfaceManager params n) (histories : BlockHistories n)
    (access : Access) : BlockHistories n :=
  if mgr.performs access then mgr.observe histories access else histories

/-- A read is followed as an observation. -/
theorem followAccess_of_read (read : access.write = false) :
    mgr.followAccess histories access = mgr.observe histories access := by
  simp [followAccess, performs, read]

variable (forwarding : params.allowEarlyValueFwd = true) (eager : params.eagerCd = true)
  (consistent : mgr.Consistent histories)

include forwarding eager consistent

/-- A store's callback keeps the blocks followed. -/
theorem Consistent.writeCallback
    (write : access.write = true) (called : mgr.writeCallback access issues = .ok next) :
    next.Consistent (mgr.followAccess histories access) := by
  unfold TransactionInterfaceManager.writeCallback at called
  split at called
  · next logs =>
    have delayed : mgr.performs access = false := by simpa [performs, write] using logs
    simp only [followAccess, delayed, Bool.false_eq_true, ↓reduceIte]
    exact consistent.of_sameData (QuietCall.of_logTransactionalStores called).same.toSameData
  · next inPlace =>
    have performed : mgr.performs access = true := by
      cases lazy : params.lazyVm <;> simp_all [performs]
    simp only [followAccess, performed, ↓reduceIte]
    exact consistent.hitCallback forwarding eager called

/-- A speculative callback keeps the blocks followed. -/
theorem Consistent.specCallback (called : mgr.specCallback access issues = .ok next) :
    next.Consistent (mgr.followAccess histories access) := by
  unfold TransactionInterfaceManager.specCallback at called
  split at called
  · next write => exact consistent.writeCallback forwarding eager write called
  · next read =>
    simp only [bind_eq_ok] at called
    obtain ⟨_, hit, isolated⟩ := called
    rw [followAccess_of_read (by simpa using read)]
    exact (consistent.hitCallback forwarding eager hit).of_sameData
      (QuietCall.of_isolateTransactionStore isolated).same.toSameData

end Access

section Messages

variable {histories : BlockHistories n}

variable {data : DataBlock n}

/-- A block enters the line and the buffer. -/
theorem Consistent.receive {nack : Nack n} (consistent : mgr.Consistent histories)
    (notified : (mgr.writeLine nack.addr ⟨.readWrite, data, true⟩).notifyForwardedDataFromProducer
      nack.toRemote data = .ok next) :
    next.Consistent (Function.update histories nack.addr (some (.fresh n))) := by
  obtain ⟨aligned, cache, entries⟩ := notifyForwardedData_data notified
  simp only [Nack.toRemote] at aligned
  simp only [Nack.toRemote, writeLine, aligned] at cache entries
  refine consistent.update aligned ?_ ?_ ⟨⟨.readWrite, data, true⟩, by simp [cache], ?_⟩
  · intro other elsewhere
    simp [cache, Std.ExtTreeMap.getElem?_insert, elsewhere]
  · intro other elsewhere
    simp [entries, Std.ExtTreeMap.getElem?_insert, elsewhere]
  · exact ⟨_, by simp [entries], BlockHistory.unvalidated_fresh data _⟩

/-- The histories after a validation: data with permissions completes the block's. -/
def followValidation (histories : BlockHistories n) (addr : Addr) (data : DataBlock n)
    (isNack : Bool) : BlockHistories n :=
  if isNack then histories
  else match histories addr with
    | some history => Function.update histories addr (some { history with validated := some data })
    | none => histories

variable {isNack : Bool}

/-- A validation response that leaves the transaction running passed the comparison. -/
theorem validateConsumedData_data {addr : Addr} {sender : MachineID} {timestamp : Cycles}
    (validated : mgr.validateConsumedData addr sender data timestamp isNack = .ok next)
    (live : next.abort.abortFlag = false) :
    (mgr.dataCache[makeLineAddress n addr]? = none ∧ next = mgr) ∨
    ∃ line buffered after left, mgr.dataCache[makeLineAddress n addr]? = some line ∧
      mgr.buffer[addr]? = some buffered ∧
      compareForwardedData params { buffered with nVal := buffered.nVal + 1 } line.data data
        line.dirty = (true, after, left) ∧
      next.dataCache = mgr.dataCache.insert (makeLineAddress n addr)
        { line with data := left, dirty := true } ∧
      next.buffer = if isNack then mgr.buffer.insert addr after
        else (mgr.buffer.insert addr after).erase addr := by
  unfold validateConsumedData at validated
  split at validated
  · next absent => exact .inl ⟨absent, (pure_eq_ok.mp validated).symm⟩
  · next line held =>
    simp only [run_eq_ok] at validated
    obtain ⟨⟨check, left, middle⟩, done, -, rfl⟩ := validated
    obtain ⟨buffered, _, after, found, compared, cache, entries, verdict⟩ :=
      validateDataBlock_data done
    obtain ⟨rfl, rfl⟩ := verdict live
    exact .inr ⟨line, buffered, after, left, held, found, compared, by simp [writeLine, cache],
      entries⟩

/-- A nack with the data leaves the block unvalidated, data with permissions validates it. -/
theorem Follows.validate {addr : Addr} {left : DataBlock n} {history : BlockHistory n}
    {line : CacheEntry n} {buffered after : DataForwarded n} {count : Nat}
    (follows : mgr.Follows addr history) (held : mgr.dataCache[addr]? = some line)
    (found : mgr.buffer[addr]? = some buffered)
    (passes : compareForwardedData params { buffered with nVal := count } line.data data
      line.dirty = (true, after, left))
    (cache : next.dataCache = mgr.dataCache.insert addr { line with data := left, dirty := true })
    (entries : next.buffer = if isNack then mgr.buffer.insert addr after
      else (mgr.buffer.insert addr after).erase addr) :
    next.Follows addr (if isNack then history else { history with validated := some data }) := by
  obtain ⟨_, sameLine, follows⟩ := follows
  obtain rfl := Option.some.inj (held.symm.trans sameLine)
  cases completed : history.validated with
  | some block => simp [completed, found] at follows
  | none =>
    simp only [completed, found, Option.some.injEq, exists_eq_left'] at follows
    obtain ⟨rfl, sameMask, rfl, agree⟩ := follows.compare passes
    refine ⟨_, by rw [cache, Std.ExtTreeMap.getElem?_insert_self], ?_⟩
    cases isNack with
    | true =>
      simp only [↓reduceIte, completed] at entries ⊢
      refine ⟨after, by simp [entries], rfl, rfl, follows.readsFrom agree, ?_, ?_⟩
      · exact sameMask ▸ follows.storedMask
      · exact sameMask ▸ follows.readMask
    | false =>
      simp only [Bool.false_eq_true, ↓reduceIte] at entries ⊢
      exact ⟨by simp [entries], rfl, follows.readsFrom agree⟩

/-- A validation that leaves the transaction running keeps the copies and the history together. -/
theorem Consistent.validate {addr : Addr} {sender : MachineID} {timestamp : Cycles}
    (consistent : mgr.Consistent histories)
    (validated : mgr.validateConsumedData addr sender data timestamp isNack = .ok next)
    (live : next.abort.abortFlag = false) :
    next.Consistent (followValidation histories addr data isNack) := by
  cases received : histories addr with
  | none =>
    have same : followValidation histories addr data isNack = histories := by
      simp [followValidation, received]
    rcases validateConsumedData_data validated live with ⟨-, rfl⟩ | ⟨_, _, _, _, -, found, -⟩
    · rwa [same]
    · simp [consistent.unknown addr received] at found
  | some history =>
    have aligned := consistent.aligned addr history received
    have follows := consistent.follows addr history received
    have updated : followValidation histories addr data isNack = Function.update histories addr
        (some (if isNack then history else { history with validated := some data })) := by
      cases isNack with
      | true => simp [followValidation, ← received]
      | false => simp [followValidation, received]
    rcases validateConsumedData_data validated live with
      ⟨absent, -⟩ | ⟨line, buffered, after, left, held, found, passes, cache, entries⟩
    · obtain ⟨line, held, -⟩ := follows
      simp [aligned, held] at absent
    · rw [aligned] at held cache
      rw [updated]
      refine consistent.update aligned ?_ ?_ (follows.validate held found passes cache entries)
      · intro other elsewhere
        simp [cache, Std.ExtTreeMap.getElem?_insert, elsewhere]
      · intro other elsewhere
        rw [entries]
        split <;> simp [Std.ExtTreeMap.getElem?_insert, Std.ExtTreeMap.getElem?_erase, elsewhere]

end Messages

end TransactionInterfaceManager

end Gem5.Ruby
