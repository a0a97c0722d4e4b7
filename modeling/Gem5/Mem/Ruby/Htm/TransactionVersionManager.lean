import Gem5.Mem.Ruby.Common

/-!
# The version managers

`LazyTransactionVersionManager` buffers the stores of a lazy-lazy transaction and
flushes them block by block at commit; `EagerTransactionVersionManager` keeps the
size of the undo log of a LogTM transaction.  The byte-level conflict profile of
the lazy manager is left out: nothing else reads it.
-/

namespace Gem5.Ruby

open Foundation

/-- The state of a write-buffer block during the flush. -/
inductive WriteBufferBlockStatus where
  | pending
  | issued
  deriving DecidableEq, Repr

/-- `LazyTransactionVersionManager`. -/
structure LazyTransactionVersionManager where
  committed : Bool
  committing : Bool
  aborting : Bool
  flushPending : Bool
  currentHtmUid : Nat
  writeBuffer : Std.ExtTreeMap Addr UInt8
  writeBufferBlocks : Std.ExtTreeMap Addr WriteBufferBlockStatus
  issuedWriteBufferRequest : Int

namespace LazyTransactionVersionManager

variable (vm : LazyTransactionVersionManager) (level : Nat)

/-- The manager before the first transaction. -/
def init : LazyTransactionVersionManager where
  committed := false
  committing := false
  aborting := false
  flushPending := false
  currentHtmUid := 0
  writeBuffer := ∅
  writeBufferBlocks := ∅
  issuedWriteBufferRequest := 0

/-- `beginTransaction`. -/
def beginTransaction (uid : Nat) : Checked LazyTransactionVersionManager := do
  assertThat (vm.currentHtmUid < uid) "pkt->getHtmTransactionUid() > m_currentHtmUid"
  assertThat (vm.aborting = false) "!m_aborting"
  return { vm with committed := false, committing := false, currentHtmUid := uid }

/-- `restartTransaction`. -/
def restartTransaction : Checked LazyTransactionVersionManager := do
  assertThat (level = 1) "transactionLevel == 1"
  assertThat (vm.aborting = vm.committing) "m_committing ? m_aborting : !m_aborting"
  assertThat (vm.issuedWriteBufferRequest = 0) "m_issuedWriteBufferRequest == 0"
  return { vm with
    committing := false, committed := false, aborting := false
    writeBuffer := ∅, writeBufferBlocks := ∅ }

/-- `notifyCommittedTransaction`. -/
def notifyCommittedTransaction : Checked LazyTransactionVersionManager := do
  assertThat (level = 1) "transactionLevel == 1"
  assertThat (vm.committed = true) "m_committed"
  assertThat (vm.committing = true) "m_committing"
  assertThat (vm.aborting = false) "!m_aborting"
  assertThat (vm.issuedWriteBufferRequest = 0) "m_issuedWriteBufferRequest == 0"
  assertThat (vm.writeBufferBlocks.isEmpty = true) "m_writeBufferBlocks.empty()"
  assertThat (vm.writeBuffer.isEmpty = true) "m_writeBuffer.empty()"
  return { vm with committing := false, committed := false }

/-- The loop of `flushWriteBuffer` over the blocks; `issues` says whether the sequencer accepts
the request for a block. -/
def flushBlocks (width : Nat) (issues : Addr → Bool) :
    List (Addr × WriteBufferBlockStatus) → LazyTransactionVersionManager →
      LazyTransactionVersionManager
  | [], vm => vm
  | (addr, status) :: rest, vm =>
    if vm.issuedWriteBufferRequest = width then { vm with flushPending := true }
    else if status = .pending then
      if issues addr then
        flushBlocks width issues rest { vm with
          writeBufferBlocks := vm.writeBufferBlocks.insert addr .issued
          issuedWriteBufferRequest := vm.issuedWriteBufferRequest + 1 }
      else flushBlocks width issues rest { vm with flushPending := true }
    else flushBlocks width issues rest vm

/-- `flushWriteBuffer`. -/
def flushWriteBuffer (width : Nat) (issues : Addr → Bool) :
    Checked LazyTransactionVersionManager := do
  assertThat (level = 1) "transactionLevel == 1"
  assertThat (vm.aborting = false) "!m_aborting"
  if vm.writeBufferBlocks.isEmpty then
    assertThat (vm.issuedWriteBufferRequest = 0) "m_issuedWriteBufferRequest == 0"
    return { vm with committed := true }
  else
    return flushBlocks width issues vm.writeBufferBlocks.toList vm

/-- `commitTransaction`: start or resume the flush. -/
def commitTransaction (width : Nat) (issues : Addr → Bool) :
    Checked LazyTransactionVersionManager := do
  assertThat (level = 1) "transactionLevel == 1"
  assertThat (vm.committed = false) "!m_committed"
  flushWriteBuffer { vm with committing := true, flushPending := false } level width issues

/-- The bytes `addr, addr + 1, …` of a store enter the write buffer. -/
def bufferBytes : List UInt8 → Addr → Std.ExtTreeMap Addr UInt8 → Std.ExtTreeMap Addr UInt8
  | [], _, buffer => buffer
  | byte :: rest, addr, buffer => bufferBytes rest (addr + 1) (buffer.insert addr byte)

/-- `addToWriteBuffer`. -/
def addToWriteBuffer (n : Nat) (addr : Addr) (data : List UInt8) :
    Checked LazyTransactionVersionManager := do
  assertThat (level = 1) "transactionLevel == 1"
  assertThat (makeLineAddress n addr = makeLineAddress n (addr + data.length - 1))
    "makeLineAddress(addr) == makeLineAddress(addr + size - 1)"
  if data.length = 1 ∨ data.length = 2 ∨ data.length = 4 ∨ data.length = 8 then
    return { vm with
      writeBuffer := bufferBytes data addr vm.writeBuffer
      writeBufferBlocks := vm.writeBufferBlocks.insert (makeLineAddress n addr) .pending }
  else panicWith "Unsupported packet size"

/-- `mergeDataFromWriteBuffer`: the block arrived with write permission; the buffered bytes are
merged into it and the flush goes on. -/
def mergeDataFromWriteBuffer {n : Nat} (width : Nat) (issues : Addr → Bool) (address : Addr)
    (data : DataBlock n) : Checked (DataBlock n × LazyTransactionVersionManager) := do
  assertThat (level = 1) "transactionLevel == 1"
  assertThat (vm.writeBufferBlocks[address]? = some .issued) "status == Issued"
  assertThat (address = makeLineAddress n address) "address == makeLineAddress(address)"
  let merged : DataBlock n := fun i => (vm.writeBuffer[address + i]?).getD (data i)
  let vm := { vm with
    writeBufferBlocks := vm.writeBufferBlocks.erase address
    issuedWriteBufferRequest := vm.issuedWriteBufferRequest - 1 }
  if vm.writeBufferBlocks.isEmpty then
    return (merged, { vm with committed := true, writeBuffer := ∅ })
  else if vm.aborting then return (merged, vm)
  else if vm.flushPending then
    let vm ← flushWriteBuffer { vm with flushPending := false } level width issues
    return (merged, vm)
  else return (merged, vm)

/-- `cancelWriteBufferFlush`: requests not yet issued are dropped. -/
def cancelWriteBufferFlush : Checked LazyTransactionVersionManager := do
  assertThat (vm.committing = true) "m_committing"
  assertThat (vm.aborting = false) "!m_aborting"
  assertThat (level = 1) "transactionLevel == 1"
  return { vm with
    aborting := true
    writeBufferBlocks := vm.writeBufferBlocks.filter fun _ status => status ≠ .pending }

variable {vm level} {after : LazyTransactionVersionManager} {width : Nat} {issues : Addr → Bool}

/-- The write buffer stays that of the same transaction, and its flush is cancelled only under the
given condition. -/
structure FlushKept (vm after : LazyTransactionVersionManager) (cancels : Prop) : Prop where
  uid : after.currentHtmUid = vm.currentHtmUid
  aborting : after.aborting = true → vm.aborting = true ∨ cancels

/-- Doing nothing keeps the flush. -/
theorem FlushKept.refl {cancels : Prop} (vm : LazyTransactionVersionManager) :
    vm.FlushKept vm cancels :=
  ⟨rfl, .inl⟩

/-- Two calls keep the flush. -/
theorem FlushKept.trans {middle : LazyTransactionVersionManager} {early late : Prop}
    (first : vm.FlushKept middle early) (second : middle.FlushKept after late)
    (stays : early → late) : vm.FlushKept after late where
  uid := second.uid.trans first.uid
  aborting cancelled := by
    rcases second.aborting cancelled with before | now
    · exact (first.aborting before).imp_right stays
    · exact .inr now

/-- The condition may be weakened. -/
theorem FlushKept.mono {early late : Prop} (kept : vm.FlushKept after early)
    (implies : early → late) : vm.FlushKept after late :=
  ⟨kept.uid, fun cancelled => (kept.aborting cancelled).imp_right implies⟩

private theorem flushBlocks_kept :
    ∀ (blocks : List (Addr × WriteBufferBlockStatus)) (vm : LazyTransactionVersionManager),
      vm.FlushKept (flushBlocks width issues blocks vm) False
  | [], _ => .refl _
  | (addr, status) :: rest, vm => by
    unfold flushBlocks
    repeat' split
    · exact ⟨rfl, .inl⟩
    · exact { flushBlocks_kept rest _ with }
    · exact { flushBlocks_kept rest _ with }
    · exact flushBlocks_kept rest vm

private theorem flushWriteBuffer_ok (flushed : vm.flushWriteBuffer level width issues = .ok after) :
    level = 1 ∧ vm.FlushKept after False := by
  simp only [flushWriteBuffer, run_eq_ok] at flushed
  obtain ⟨inside, -, flushed⟩ := flushed
  refine ⟨inside, ?_⟩
  split at flushed
  · simp only [run_eq_ok] at flushed
    exact flushed.2 ▸ ⟨rfl, .inl⟩
  · exact (pure_eq_ok.mp flushed) ▸ flushBlocks_kept _ vm

/-- The commit cancels no flush. -/
theorem commitTransaction_ok (flushed : vm.commitTransaction level width issues = .ok after) :
    vm.FlushKept after False := by
  simp only [commitTransaction, run_eq_ok] at flushed
  exact { (flushWriteBuffer_ok flushed.2.2).2 with }

/-- A merge is made at level one and cancels no flush. -/
theorem mergeDataFromWriteBuffer_ok {n : Nat} {addr : Addr} {data merged : DataBlock n}
    (merge : vm.mergeDataFromWriteBuffer level width issues addr data = .ok (merged, after)) :
    level = 1 ∧ vm.FlushKept after False := by
  simp only [mergeDataFromWriteBuffer, run_eq_ok] at merge
  obtain ⟨inside, -, -, merge⟩ := merge
  refine ⟨inside, ?_⟩
  repeat' split at merge
  · exact (Prod.mk.inj (pure_eq_ok.mp merge)).2 ▸ ⟨rfl, .inl⟩
  · exact (Prod.mk.inj (pure_eq_ok.mp merge)).2 ▸ ⟨rfl, .inl⟩
  · simp only [run_eq_ok, Prod.mk.injEq] at merge
    obtain ⟨_, flushed, -, rfl⟩ := merge
    exact { (flushWriteBuffer_ok flushed).2 with }
  · exact (Prod.mk.inj (pure_eq_ok.mp merge)).2 ▸ ⟨rfl, .inl⟩

end LazyTransactionVersionManager

/-- How far the set-up of the undo log has come. -/
inductive LogInitStatus where
  | invalid
  | baseAddress
  | v2pTranslations
  | ready
  deriving DecidableEq, Repr

/-- `EagerTransactionVersionManager`. -/
structure EagerTransactionVersionManager where
  logNumEntries : Nat
  initStatus : LogInitStatus
  logTLB : Std.ExtTreeMap Addr Addr

namespace EagerTransactionVersionManager

variable (vm : EagerTransactionVersionManager)

/-- `beginTransaction`. -/
def beginTransaction : Checked Unit := do
  assertThat (vm.logNumEntries = 0) "m_logNumEntries == 0"
  assertThat (vm.initStatus = .ready) "m_initStatus == LogInitStatus::Ready"
  assertThat (vm.logTLB.isEmpty = false) "!m_logTLB.empty()"

/-- `restartTransaction`. -/
def restartTransaction : EagerTransactionVersionManager :=
  { vm with logNumEntries := 0 }

/-- `commitTransaction`. -/
def commitTransaction : EagerTransactionVersionManager :=
  { vm with logNumEntries := 0 }

/-- `addLogEntry`: the index of the new entry. -/
def addLogEntry : Checked (Nat × EagerTransactionVersionManager) := do
  assertThat (vm.initStatus = .ready) "m_initStatus == LogInitStatus::Ready"
  return (vm.logNumEntries, { vm with logNumEntries := vm.logNumEntries + 1 })

end EagerTransactionVersionManager

end Gem5.Ruby
