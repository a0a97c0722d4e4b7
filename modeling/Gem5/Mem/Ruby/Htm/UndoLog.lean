import Gem5.Benchmarks.Htmrt.LogTm
import Gem5.Foundation.Transition
import Gem5.Mem.Ruby.Htm.TransactionVersionManager

/-!
# Logging stores and unrolling the log

With eager versioning the first store of a transaction to a block waits until the
old contents of the block and its virtual address are in the undo log.  The
sequencer writes the log through physical addresses that it translates itself; the
abort handler walks the log through virtual addresses.  The state here is the
physical memory, the table of log requests and the eager version manager.  A log
request completes in two parts, in any order and at any time, between the requests
and the stores of other blocks.

The request for a log write is taken as issued: the sequencer reserves two request
slots for each store that has to log.
-/

namespace Gem5.Ruby

open Foundation Foundation.ByteMemory Htmrt

/-! ## Address translation -/

/-- The page table of the program: each virtual page has a physical page of its own. -/
structure AddressSpace where
  frame : BitVec 64 → BitVec 64
  aligned : ∀ page, PageAligned (frame page)
  injective : ∀ {page other}, PageAligned page → PageAligned other →
    frame page = frame other → page = other

namespace AddressSpace

variable (space : AddressSpace)

/-- The physical address of a virtual one. -/
def translate (addr : BitVec 64) : BitVec 64 :=
  space.frame (addr &&& pageMask) ||| (addr &&& pageOffsetMask)

/-- The memory as the program sees it. -/
def view (mem : ByteMemory 64) : ByteMemory 64 :=
  fun addr => mem (space.translate addr)

/-- The address space in which the two kinds of addresses are the same. -/
def flat : AddressSpace where
  frame page := page &&& pageMask
  aligned page := by
    unfold PageAligned
    rw [toNat_and_pageMask]
    omega
  injective {page other} aligned otherAligned same := by
    rw [and_pageMask_of_aligned aligned, and_pageMask_of_aligned otherAligned] at same
    exact same

variable {space}

private theorem toNat_ofNat_lt {offset : Nat} (low : offset < 4096) :
    (BitVec.ofNat 64 offset).toNat < 4096 := by
  rw [BitVec.toNat_ofNat]
  omega

/-- Offsets stay within the page. -/
theorem translate_add {page : BitVec 64} (aligned : PageAligned page) {offset : Nat}
    (low : offset < 4096) : space.translate (page + BitVec.ofNat 64 offset) =
      space.frame page + BitVec.ofNat 64 offset := by
  obtain ⟨pageBits, offsetBits⟩ := page_and_masks aligned (toNat_ofNat_lt low)
  rw [translate, pageBits, offsetBits, page_or (space.aligned page) (toNat_ofNat_lt low)]

/-- No two addresses are translated alike. -/
theorem translate_injective {addr other : BitVec 64}
    (same : space.translate addr = space.translate other) : addr = other := by
  obtain ⟨page, offset, aligned, low, rfl⟩ := exists_page_add addr
  obtain ⟨page', offset', aligned', low', rfl⟩ := exists_page_add other
  rw [translate_add aligned low, translate_add aligned' low'] at same
  have masks := page_and_masks (space.aligned page) (toNat_ofNat_lt low)
  have masks' := page_and_masks (space.aligned page') (toNat_ofNat_lt low')
  have samePage : page = page' :=
    space.injective aligned aligned' (by rw [← masks.1, ← masks'.1, same])
  rw [samePage, ← masks.2, ← masks'.2, same]

/-- A physical write inside a page is a write of the program's view. -/
theorem view_write (mem : ByteMemory 64) {page : BitVec 64} (aligned : PageAligned page)
    {offset length : Nat} (fits : offset + length ≤ 4096) (bytes : Nat → UInt8) :
    space.view (mem.write (space.translate (page + BitVec.ofNat 64 offset)) length bytes) =
      (space.view mem).write (page + BitVec.ofNat 64 offset) length bytes := by
  have inner : ∀ k < length, space.translate (page + BitVec.ofNat 64 offset + BitVec.ofNat 64 k) =
      space.translate (page + BitVec.ofNat 64 offset) + BitVec.ofNat 64 k := by
    intro k inside
    rw [BitVec.add_assoc, ← BitVec.ofNat_add, translate_add aligned (by omega),
      translate_add aligned (by omega), BitVec.add_assoc, ← BitVec.ofNat_add]
  funext addr
  by_cases inside : InRegion (page + BitVec.ofNat 64 offset) length addr
  · have distance := inner _ inside
    rw [add_distance] at distance
    have bound := (addr - (page + BitVec.ofNat 64 offset)).isLt
    have same : (space.translate addr - space.translate (page + BitVec.ofNat 64 offset)).toNat =
        (addr - (page + BitVec.ofNat 64 offset)).toNat := by
      rw [distance, toNat_add_sub _ bound]
    have physical : InRegion (space.translate (page + BitVec.ofNat 64 offset)) length
        (space.translate addr) := by
      rwa [InRegion, same]
    rw [write_inside inside, view, write_inside physical, same]
  · have outside : ¬ InRegion (space.translate (page + BitVec.ofNat 64 offset)) length
        (space.translate addr) := by
      intro physical
      have distance := inner _ physical
      rw [add_distance] at distance
      have virtual := translate_injective distance
      refine inside (virtual ▸ inRegion_add _ ?_ physical)
      omega
    rw [write_outside inside, view, write_outside outside, view]

end AddressSpace

/-! ## The log of the version manager -/

/-- The eager version manager with the base address of its log. -/
structure LogVersionManager extends EagerTransactionVersionManager where
  logBaseVAddr : BitVec 64

namespace LogVersionManager

variable (vm : LogVersionManager)

/-- `EagerTransactionVersionManager::computeLogDataPointer`. -/
def computeLogDataPointer (numEntries : Nat) : Checked (BitVec 64) := do
  assertThat (numEntries < 256 * 56)
    "numEntries >= 0 && numEntries < MAX_LOG_SIZE_PAGES * LOG_ENTRIES_PER_PAGE"
  return logtmComputeDataLogPointer vm.logBaseVAddr numEntries

/-- `EagerTransactionVersionManager::translateLogAddress`. -/
def translateLogAddress (vaddr : BitVec 64) : Checked (BitVec 64) :=
  match vm.logTLB[(vaddr &&& pageMask).toNat]? with
  | some ppageAddr => return BitVec.ofNat 64 ppageAddr ||| (vaddr &&& ~~~ pageMask)
  | none => .error (.assertion "it != m_logTLB.end()")

end LogVersionManager

/-- `makeLineAddress` of a 64-bit address. -/
def lineAddress (addr : BitVec 64) : BitVec 64 :=
  BitVec.ofNat 64 (makeLineAddress 64 addr.toNat)

/-! ## Log requests -/

/-- What has become of a packet handed to `makeRequest`. -/
inductive LogPktStatus where
  | issued
  | completed
  deriving DecidableEq, Repr

/-- A write packet to the log. -/
structure LogPacket where
  addr : BitVec 64
  size : Nat
  data : Nat → UInt8

/-- `LogRequestInfo`.  The counters `outstanding` and `completed` of the source are the numbers of
packets with these statuses. -/
structure LogRequestInfo where
  logAddrPkt : LogPacket
  logDataPkt : LogPacket
  logAddrPktStatus : LogPktStatus
  logDataPktStatus : LogPktStatus
  logIndex : Nat
  vaddr : BitVec 64
  paddr : BitVec 64

/-- `buildLogPackets` for the store to `vaddr` with physical address `paddr`, whose block holds
`datablock`; both packets are issued. -/
def buildLogPackets (vm : LogVersionManager) (vaddr paddr : BitVec 64) (datablock : Nat → UInt8) :
    Checked (LogRequestInfo × LogVersionManager) := do
  let (logIndex, eager) ← vm.toEagerTransactionVersionManager.addLogEntry
  let vm := { vm with toEagerTransactionVersionManager := eager }
  let logDataVPtr ← vm.computeLogDataPointer logIndex
  let logDataPtr ← vm.translateLogAddress logDataVPtr
  assertThat (logDataPtr = lineAddress logDataPtr) "logDataPtr == makeLineAddress(logDataPtr)"
  let logAddressPtr ← logtmComputeAddrPtrFromDataPtr logDataPtr
  if lineAddress logDataPtr = lineAddress logAddressPtr then
    panicWith "Undo log has overflowed, address log should never overlap with data log"
  else
    return ({ logAddrPkt := ⟨logAddressPtr, 8, byteOf (lineAddress vaddr)⟩
              logDataPkt := ⟨logDataPtr, 64, datablock⟩
              logAddrPktStatus := .issued
              logDataPktStatus := .issued
              logIndex := logIndex
              vaddr := vaddr
              paddr := lineAddress paddr }, vm)

/-- The two writes of a log request. -/
inductive LogWrite where
  | addr
  | data
  deriving DecidableEq, Repr

namespace LogRequestInfo

/-- The packet of a write. -/
def packet (log : LogRequestInfo) : LogWrite → LogPacket
  | .addr => log.logAddrPkt
  | .data => log.logDataPkt

/-- The status of a write. -/
def status (log : LogRequestInfo) : LogWrite → LogPktStatus
  | .addr => log.logAddrPktStatus
  | .data => log.logDataPktStatus

/-- A write has completed. -/
def complete (log : LogRequestInfo) : LogWrite → LogRequestInfo
  | .addr => { log with logAddrPktStatus := .completed }
  | .data => { log with logDataPktStatus := .completed }

/-- The assertions of `handleStoresToLog` on the packet of a write. -/
def checkCallback (log : LogRequestInfo) : LogWrite → Checked Unit
  | .addr => assertThat (ofBytes log.logAddrPkt.data 8 = lineAddress log.vaddr)
      "*vaddrPtr == makeLineAddress(log.vaddr)"
  | .data => assertThat (log.logDataPkt.size = 64)
      "pkt->getSize() == RubySystem::getBlockSizeBytes()"

end LogRequestInfo

/-! ## The slots of an entry -/

/-- The contents of a slot of entry `i`, which logs the given block: `old` is the memory before the
transaction. -/
def slotBytes (old : ByteMemory 64) (block : BitVec 64) : LogWrite → Nat → UInt8
  | .addr => byteOf block
  | .data => old.read block

/-- The slot of entry `i`. -/
def slotAddress (logBase : BitVec 64) (i : Nat) : LogWrite → BitVec 64
  | .addr => logtmComputeAddrLogPointer logBase i
  | .data => logtmComputeDataLogPointer logBase i

/-- The size of a slot. -/
def slotSize : LogWrite → Nat
  | .addr => 8
  | .data => 64

/-- A log request is the one for entry `i`. -/
structure LogRequestInfo.For (log : LogRequestInfo) (space : AddressSpace) (logBase : BitVec 64)
    (old : ByteMemory 64) (i : Nat) (block : BitVec 64) : Prop where
  vaddr : lineAddress log.vaddr = block
  addr : ∀ write, (log.packet write).addr = space.translate (slotAddress logBase i write)
  size : ∀ write, (log.packet write).size = slotSize write
  data : ∀ write, ∀ k < slotSize write, (log.packet write).data k = slotBytes old block write k

section Slots

variable {space : AddressSpace} {logBase : BitVec 64} {i j : Nat} {write other : LogWrite}

/-- Every slot is in the log. -/
theorem inLog_of_slot (bound : i < 256 * 56) {addr : BitVec 64}
    (inside : InRegion (slotAddress logBase i write) (slotSize write) addr) :
    InLog logBase addr := by
  cases write with
  | addr => exact inLog_of_addrSlot bound inside
  | data => exact inLog_of_dataSlot bound inside

private theorem slots_apart (bound : i < 256 * 56) (bound' : j < 256 * 56)
    (different : i = j → write ≠ other) :
    Apart (slotAddress logBase i write) (slotSize write) (slotAddress logBase j other)
      (slotSize other) := by
  cases write with
  | addr =>
    cases other with
    | addr =>
      intro addr first second
      have range := (inRegion_addrSlot bound).mp first
      have range' := (inRegion_addrSlot bound').mp second
      unfold logtmComputeAddrLogPointerOffset at range range'
      exact different (by omega) rfl
    | data => exact (dataSlot_addrSlot_apart bound' bound).symm
  | data =>
    cases other with
    | addr => exact dataSlot_addrSlot_apart bound bound'
    | data =>
      intro addr first second
      have range := (inRegion_dataSlot bound).mp first
      have range' := (inRegion_dataSlot bound').mp second
      unfold logtmComputeDataLogPointerOffset at range range'
      exact different (by omega) rfl

/-- Where a slot starts in its page. -/
def slotOffset (i : Nat) : LogWrite → Nat
  | .addr => 4096 - (i % 56 + 1) * 8
  | .data => i % 56 * 64

/-- A slot is its page and its offset. -/
theorem slotAddress_eq : slotAddress logBase i write =
    logBase + BitVec.ofNat 64 (i / 56 * 4096) + BitVec.ofNat 64 (slotOffset i write) := by
  cases write <;> rw [BitVec.add_assoc, ← BitVec.ofNat_add] <;> rfl

/-- A slot lies within its page. -/
theorem slotOffset_fits : slotOffset i write + slotSize write ≤ 4096 := by
  cases write <;> simp only [slotOffset, slotSize] <;> omega

/-- A slot fits the address space. -/
theorem slotSize_le : slotSize write ≤ 2 ^ 64 := by
  cases write <;> decide

/-- A slot is not empty. -/
theorem slotSize_pos : 0 < slotSize write := by
  cases write <;> decide

private theorem translate_slotAddress (aligned : PageAligned logBase) :
    space.translate (slotAddress logBase i write) =
      space.frame (logBase + BitVec.ofNat 64 (i / 56 * 4096)) +
        BitVec.ofNat 64 (slotOffset i write) := by
  have fits := @slotOffset_fits i write
  have positive := @slotSize_pos write
  rw [slotAddress_eq, AddressSpace.translate_add (pageAligned_add aligned _) (by omega)]

private theorem LogRequestInfo.For.complete {log : LogRequestInfo} {block : BitVec 64}
    {old : ByteMemory 64}
    (request : log.For space logBase old i block) (write : LogWrite) :
    (log.complete write).For space logBase old i block := by
  cases write <;> exact { request with }

end Slots

/-! ## The system -/

/-- The part of a core that logs the stores of its transaction. -/
structure LoggingCore where
  vm : LogVersionManager
  /-- The physical memory. -/
  mem : ByteMemory 64
  /-- The virtual lines in the write set, in the order in which they were logged. -/
  writeSet : List (BitVec 64)
  /-- `m_logRequestTable`, by physical line. -/
  logRequestTable : BitVec 64 → Option LogRequestInfo

/-- What can happen to the log. -/
inductive LogEvent where
  /-- A store finds its block with write permission and not yet in the write set. -/
  | log (vaddr : BitVec 64)
  /-- A write of the log request for a line completes. -/
  | complete (store : BitVec 64) (write : LogWrite)
  /-- A store to a logged block. -/
  | store (vaddr : BitVec 64) (data : List UInt8)

namespace LoggingCore

variable (space : AddressSpace) (core : LoggingCore)

/-- `logTransactionalStores` for a store that needs logging. -/
def logTransactionalStores (vaddr : BitVec 64) : Checked LoggingCore := do
  let address := space.translate (lineAddress vaddr)
  assertThat (core.writeSet.all (space.translate · ≠ address) = true)
    "!m_xact_mgr->checkWriteSignature(address)"
  assertThat ((core.logRequestTable address).isNone = true)
    "m_logRequestTable.find(address) == m_logRequestTable.end()"
  let (logReq, vm) ←
    buildLogPackets core.vm vaddr (space.translate vaddr) (core.mem.read address)
  return { core with
    vm := vm
    writeSet := core.writeSet ++ [lineAddress vaddr]
    logRequestTable := Function.update core.logRequestTable address (some logReq) }

/-- `handleStoresToLog`: a write to the log for the store to a line completes. -/
def handleStoresToLog (storeAddr : BitVec 64) (write : LogWrite) : Checked LoggingCore :=
  match core.logRequestTable storeAddr with
  | none => .error (.assertion "m_logRequestTable.find(store_addr) != m_logRequestTable.end()")
  | some log => do
    log.checkCallback write
    let pkt := log.packet write
    let log := log.complete write
    return { core with
      mem := core.mem.write pkt.addr pkt.size pkt.data
      logRequestTable := Function.update core.logRequestTable storeAddr
        (if log.logAddrPktStatus = .completed ∧ log.logDataPktStatus = .completed then none
          else some log) }

/-- The bytes of a store reach memory. -/
def performStore (vaddr : BitVec 64) (data : List UInt8) : LoggingCore :=
  { core with
    mem := core.mem.write (space.translate vaddr) data.length fun i => (data[i]?).getD 0 }

/-- Take an event. -/
def take : LogEvent → Checked LoggingCore
  | .log vaddr => core.logTransactionalStores space vaddr
  | .complete storeAddr write => core.handleStoresToLog storeAddr write
  | .store vaddr data => return core.performStore space vaddr data

/-- When an event can happen: only program blocks outside the log are logged, a packet that was
issued completes once, and a store stays in one block, which is locked until it is logged. -/
def Admits : LogEvent → Prop
  | .log vaddr => lineAddress vaddr ∉ core.writeSet ∧
      ∀ addr, InRegion (lineAddress vaddr) 64 addr → ¬ InLog core.vm.logBaseVAddr addr
  | .complete storeAddr write =>
      ∃ log, core.logRequestTable storeAddr = some log ∧ log.status write = .issued
  | .store vaddr data => lineAddress vaddr ∈ core.writeSet ∧
      core.logRequestTable (space.translate (lineAddress vaddr)) = none ∧
      vaddr.toNat % 64 + data.length ≤ 64

/-- A transaction begins: the log is empty and its pages have their translations. -/
structure Begins (logBase : BitVec 64) : Prop where
  base : core.vm.logBaseVAddr = logBase
  ready : core.vm.initStatus = .ready
  translated : ∀ page < 256, core.vm.logTLB[(logBase + BitVec.ofNat 64 (page * 4096)).toNat]? =
    some (space.frame (logBase + BitVec.ofNat 64 (page * 4096))).toNat
  logNumEntries : core.vm.logNumEntries = 0
  writeSet : core.writeSet = []
  logRequestTable : ∀ line, core.logRequestTable line = none

/-- The runs of one transaction. -/
def system (logBase : BitVec 64) : TransitionSystem LoggingCore LogEvent where
  Initial core := core.Begins space logBase
  Step core event next := core.Admits space event ∧ core.take space event = .ok next

/-! ## The invariant -/

/-- What holds throughout a transaction that started with the memory `old`. -/
structure Logs (logBase : BitVec 64) (old : ByteMemory 64) : Prop where
  base : core.vm.logBaseVAddr = logBase
  ready : core.vm.initStatus = .ready
  translated : ∀ page < 256, core.vm.logTLB[(logBase + BitVec.ofNat 64 (page * 4096)).toNat]? =
    some (space.frame (logBase + BitVec.ofNat 64 (page * 4096))).toNat
  entries : core.vm.logNumEntries = core.writeSet.length
  capacity : core.writeSet.length ≤ 256 * 56
  distinct : core.writeSet.Nodup
  lines : ∀ block ∈ core.writeSet, block.toNat % 64 = 0
  outside : ∀ block ∈ core.writeSet, ∀ addr, InRegion block 64 addr → ¬ InLog logBase addr
  untouched : ∀ addr, ¬ InLog logBase addr → (∀ block ∈ core.writeSet, ¬ InRegion block 64 addr) →
    space.view core.mem addr = old addr
  requests : ∀ {line log}, core.logRequestTable line = some log →
    ∃ i block, core.writeSet[i]? = some block ∧ line = space.translate block ∧
      log.For space logBase old i block
  slots : ∀ {i block}, core.writeSet[i]? = some block → ∀ write,
    (space.view core.mem).Holds (slotAddress logBase i write) (slotSize write)
        (slotBytes old block write) ∨
      ∃ log, core.logRequestTable (space.translate block) = some log ∧ log.status write = .issued

variable {space core} {logBase : BitVec 64} {old : ByteMemory 64}

private theorem Begins.logs (begins : core.Begins space logBase) :
    core.Logs space logBase (space.view core.mem) where
  base := begins.base
  ready := begins.ready
  translated := begins.translated
  entries := by rw [begins.logNumEntries, begins.writeSet, List.length_nil]
  capacity := by simp [begins.writeSet]
  distinct := by simp [begins.writeSet]
  lines := by simp [begins.writeSet]
  outside := by simp [begins.writeSet]
  untouched _ _ _ := rfl
  requests found := by simp [begins.logRequestTable] at found
  slots found := by simp [begins.writeSet] at found

/-! ### Logging a store -/

/-- A line address is rounded down to a multiple of 64. -/
theorem toNat_lineAddress (addr : BitVec 64) :
    (lineAddress addr).toNat = addr.toNat - addr.toNat % 64 := by
  have bound := addr.isLt
  rw [lineAddress, makeLineAddress, BitVec.toNat_ofNat]
  omega

/-- The line of an address stays in its page. -/
theorem lineAddress_page_add {page : BitVec 64} (aligned : PageAligned page) {offset : Nat}
    (low : offset < 4096) : lineAddress (page + BitVec.ofNat 64 offset) =
      page + BitVec.ofNat 64 (offset - offset % 64) := by
  apply BitVec.eq_of_toNat_eq
  unfold PageAligned at aligned
  rw [toNat_lineAddress, BitVec.toNat_add, BitVec.toNat_ofNat, BitVec.toNat_add, BitVec.toNat_ofNat]
  omega

private theorem Logs.translateLogAddress (logs : core.Logs space logBase old)
    (aligned : PageAligned logBase) {i : Nat} (bound : i < 256 * 56) :
    core.vm.translateLogAddress (logtmComputeDataLogPointer logBase i) =
      .ok (space.translate (logtmComputeDataLogPointer logBase i)) := by
  have page := logs.translated (i / 56) (by omega)
  obtain ⟨pageBits, offsetBits⟩ := @dataSlot_masks logBase i aligned
  have notMask : ~~~ pageMask = pageOffsetMask := BitVec.not_not
  unfold LogVersionManager.translateLogAddress AddressSpace.translate
  rw [notMask, pageBits, offsetBits, page]
  simp only [BitVec.ofNat_toNat, BitVec.setWidth_eq]
  rfl

/-- The request for entry `i`. -/
def entryRequest (space : AddressSpace) (logBase : BitVec 64) (i : Nat) (vaddr paddr : BitVec 64)
    (data : Nat → UInt8) : LogRequestInfo where
  logAddrPkt := ⟨space.translate (slotAddress logBase i .addr), 8, byteOf (lineAddress vaddr)⟩
  logDataPkt := ⟨space.translate (slotAddress logBase i .data), 64, data⟩
  logAddrPktStatus := .issued
  logDataPktStatus := .issued
  logIndex := i
  vaddr := vaddr
  paddr := lineAddress paddr

/-- While the log has room, the packets are those of the next entry. -/
theorem Logs.buildLogPackets (logs : core.Logs space logBase old) (aligned : PageAligned logBase)
    (room : core.writeSet.length < 256 * 56) (vaddr paddr : BitVec 64) (data : Nat → UInt8) :
    buildLogPackets core.vm vaddr paddr data = .ok
      (entryRequest space logBase core.writeSet.length vaddr paddr data,
       { core.vm with logNumEntries := core.writeSet.length + 1 }) := by
  have dataPtr := @translate_slotAddress space logBase core.writeSet.length .data aligned
  have addrPtr := @translate_slotAddress space logBase core.writeSet.length .addr aligned
  set frame := space.frame (logBase + BitVec.ofNat 64 (core.writeSet.length / 56 * 4096))
  have frameAligned : PageAligned frame := space.aligned _
  have found := logs.translateLogAddress aligned room
  -- The physical data slot is a data slot of the log that starts at the physical page.
  have physical : space.translate (slotAddress logBase core.writeSet.length .data) =
      logtmComputeDataLogPointer frame (core.writeSet.length % 56) := by
    rw [dataPtr, slotOffset, logtmComputeDataLogPointer]
    congr 2
    omega
  have computed : logtmComputeAddrPtrFromDataPtr
      (space.translate (slotAddress logBase core.writeSet.length .data)) =
        .ok (space.translate (slotAddress logBase core.writeSet.length .addr)) := by
    rw [physical, logtmComputeAddrPtrFromDataPtr_eq frameAligned, addrPtr, slotOffset,
      logtmComputeAddrLogPointer]
    congr 3
    omega
  have lineAligned :
      lineAddress (space.translate (slotAddress logBase core.writeSet.length .data)) =
      space.translate (slotAddress logBase core.writeSet.length .data) := by
    rw [dataPtr, slotOffset, lineAddress_page_add frameAligned (by omega)]
    congr 2
    omega
  have apart : lineAddress (space.translate (slotAddress logBase core.writeSet.length .data)) ≠
      lineAddress (space.translate (slotAddress logBase core.writeSet.length .addr)) := by
    rw [lineAligned, dataPtr, addrPtr, slotOffset, slotOffset,
      lineAddress_page_add frameAligned (by omega)]
    intro same
    have offsets := congrArg BitVec.toNat ((BitVec.add_right_inj _).mp same)
    have last : core.writeSet.length % 56 * 64 ≤ 55 * 64 := by omega
    have first : 57 * 64 ≤ 4096 - (core.writeSet.length % 56 + 1) * 8 := by omega
    have below : 4096 - (core.writeSet.length % 56 + 1) * 8 < 4096 := by omega
    rw [BitVec.toNat_ofNat, BitVec.toNat_ofNat] at offsets
    generalize 4096 - (core.writeSet.length % 56 + 1) * 8 = top at *
    omega
  have added : core.vm.toEagerTransactionVersionManager.addLogEntry = .ok (core.writeSet.length,
        { core.vm.toEagerTransactionVersionManager with
          logNumEntries := core.writeSet.length + 1 }) := by
    rw [EagerTransactionVersionManager.addLogEntry, assertThat_of logs.ready, ok_bind, logs.entries]
    rfl
  simp only [Ruby.buildLogPackets, bind_eq_ok]
  refine ⟨_, added, logtmComputeDataLogPointer logBase core.writeSet.length, ?_,
    _, found, (), assertThat_of lineAligned.symm, _, computed, ?_⟩
  · rw [LogVersionManager.computeLogDataPointer, assertThat_of room, ok_bind, logs.base]
    rfl
  · exact if_neg apart

private theorem translate_line_add {block : BitVec 64} (line : block.toNat % 64 = 0) {k : Nat}
    (inside : k < 64) :
    space.translate (block + BitVec.ofNat 64 k) = space.translate block + BitVec.ofNat 64 k := by
  obtain ⟨page, offset, aligned, low, rfl⟩ := exists_page_add block
  have offsetLine : offset % 64 = 0 := by
    unfold PageAligned at aligned
    rw [BitVec.toNat_add, BitVec.toNat_ofNat] at line
    omega
  rw [BitVec.add_assoc, ← BitVec.ofNat_add, AddressSpace.translate_add aligned (by omega),
    AddressSpace.translate_add aligned low, BitVec.add_assoc, ← BitVec.ofNat_add]

variable {vaddr : BitVec 64}

/-- The request of a logged store has the old contents of its block. -/
private theorem Logs.entryRequest_for (logs : core.Logs space logBase old)
    (fresh : lineAddress vaddr ∉ core.writeSet)
    (outside : ∀ addr, InRegion (lineAddress vaddr) 64 addr → ¬ InLog logBase addr) (i : Nat)
    (paddr : BitVec 64) : (entryRequest space logBase i vaddr paddr
      (core.mem.read (space.translate (lineAddress vaddr)))).For space logBase old i
        (lineAddress vaddr) where
  vaddr := rfl
  addr write := by cases write <;> rfl
  size write := by cases write <;> rfl
  data write k inside := by
    cases write with
    | addr => rfl
    | data =>
      have line : (lineAddress vaddr).toNat % 64 = 0 := by
        rw [toNat_lineAddress]
        omega
      have member := inRegion_add (lineAddress vaddr) (by decide : 64 ≤ 2 ^ 64) inside
      -- No block logged before contains this byte, so it is the byte of the old memory.
      have untouched := logs.untouched _ (outside _ member) fun block logged again => by
        have other := logs.lines block logged
        unfold InRegion at member again
        rw [BitVec.toNat_sub] at member again
        have same : block = lineAddress vaddr := BitVec.eq_of_toNat_eq (by omega)
        exact fresh (same ▸ logged)
      rw [AddressSpace.view, translate_line_add line inside] at untouched
      exact untouched

variable {log : LogRequestInfo}

/-- The core after the store to `vaddr` was logged. -/
def logged (space : AddressSpace) (logBase : BitVec 64) (core : LoggingCore) (vaddr : BitVec 64) :
    LoggingCore :=
  { core with
    vm := { core.vm with logNumEntries := core.writeSet.length + 1 }
    writeSet := core.writeSet ++ [lineAddress vaddr]
    logRequestTable := Function.update core.logRequestTable (space.translate (lineAddress vaddr))
      (some (entryRequest space logBase core.writeSet.length vaddr (space.translate vaddr)
        (core.mem.read (space.translate (lineAddress vaddr))))) }

/-- Logging a store succeeds exactly while the log has room. -/
theorem Logs.logTransactionalStores_eq_ok (logs : core.Logs space logBase old)
    (aligned : PageAligned logBase) (fresh : lineAddress vaddr ∉ core.writeSet)
    {next : LoggingCore} : core.logTransactionalStores space vaddr = .ok next ↔
      core.writeSet.length < 256 * 56 ∧ next = core.logged space logBase vaddr := by
  have notLogged : ∀ line ∈ core.writeSet, space.translate line ≠
      space.translate (lineAddress vaddr) :=
    fun line member same => fresh (AddressSpace.translate_injective same ▸ member)
  have notPending : (core.logRequestTable (space.translate (lineAddress vaddr))).isNone = true := by
    cases found : core.logRequestTable (space.translate (lineAddress vaddr)) with
    | none => rfl
    | some log =>
      obtain ⟨i, block, entry, same, -⟩ := logs.requests found
      exact absurd same.symm (notLogged block (List.mem_of_getElem? entry))
  rw [logTransactionalStores, assertThat_of (by simpa using notLogged), ok_bind,
    assertThat_of notPending, ok_bind]
  simp only [run_eq_ok]
  constructor
  · rintro ⟨⟨request, vm⟩, built, rfl⟩
    have room : core.writeSet.length < 256 * 56 := by
      simp only [Ruby.buildLogPackets, EagerTransactionVersionManager.addLogEntry,
        LogVersionManager.computeLogDataPointer, run_eq_ok] at built
      obtain ⟨_, ⟨-, rfl⟩, _, ⟨room, -⟩, -⟩ := built
      exact logs.entries ▸ room
    rw [logs.buildLogPackets aligned room] at built
    obtain ⟨rfl, rfl⟩ := Prod.mk.inj (Except.ok.inj built)
    exact ⟨room, rfl⟩
  · rintro ⟨room, rfl⟩
    exact ⟨_, logs.buildLogPackets aligned room _ _ _, rfl⟩

private theorem getElem?_append_singleton {α : Type} {entries : List α} {last entry : α} {i : Nat}
    (found : (entries ++ [last])[i]? = some entry) :
    entries[i]? = some entry ∨ i = entries.length ∧ entry = last := by
  grind

private theorem Logs.logged (logs : core.Logs space logBase old)
    (room : core.writeSet.length < 256 * 56)
    (fresh : lineAddress vaddr ∉ core.writeSet)
    (outside : ∀ addr, InRegion (lineAddress vaddr) 64 addr → ¬ InLog logBase addr) :
    (core.logged space logBase vaddr).Logs space logBase old where
  base := logs.base
  ready := logs.ready
  translated := logs.translated
  entries := by simp [LoggingCore.logged]
  capacity := by
    rw [LoggingCore.logged, List.length_append]
    exact room
  distinct := by
    refine List.nodup_append.mpr ⟨logs.distinct, List.nodup_singleton _, ?_⟩
    rintro block member other same rfl
    exact fresh (List.mem_singleton.mp same ▸ member)
  lines block member := by
    rcases List.mem_append.mp member with before | last
    · exact logs.lines block before
    · rw [List.mem_singleton.mp last, toNat_lineAddress]
      omega
  outside block member := by
    rcases List.mem_append.mp member with before | last
    · exact logs.outside block before
    · exact List.mem_singleton.mp last ▸ outside
  untouched addr notLog notLogged :=
    logs.untouched addr notLog fun block member => notLogged block (List.mem_append_left _ member)
  requests {line log} found := by
    by_cases same : line = space.translate (lineAddress vaddr)
    · subst same
      simp only [LoggingCore.logged, Function.update_self, Option.some.injEq] at found
      subst found
      exact ⟨core.writeSet.length, lineAddress vaddr, by simp [LoggingCore.logged], rfl,
        logs.entryRequest_for fresh outside _ _⟩
    · simp only [LoggingCore.logged, Function.update_of_ne same] at found
      obtain ⟨i, block, entry, isLine, request⟩ := logs.requests found
      have bound := (List.getElem?_eq_some_iff.mp entry).1
      exact ⟨i, block, (List.getElem?_append_left bound).trans entry, isLine, request⟩
  slots {i block} entry write := by
    rcases getElem?_append_singleton entry with before | ⟨-, rfl⟩
    · have other : space.translate block ≠ space.translate (lineAddress vaddr) := fun same =>
        fresh (AddressSpace.translate_injective same ▸ List.mem_of_getElem? before)
      simpa only [LoggingCore.logged, Function.update_of_ne other] using logs.slots before write
    · refine .inr ⟨_, Function.update_self _ _ _, ?_⟩
      cases write <;> rfl

/-! ### Completing a write to the log -/

/-- The core after a write of a log request has completed. -/
def completed (core : LoggingCore) (storeAddr : BitVec 64) (log : LogRequestInfo)
    (write : LogWrite) : LoggingCore :=
  { core with
    mem := core.mem.write (log.packet write).addr (log.packet write).size (log.packet write).data
    logRequestTable := Function.update core.logRequestTable storeAddr
      (if (log.complete write).logAddrPktStatus = .completed ∧
          (log.complete write).logDataPktStatus = .completed then none
        else some (log.complete write)) }

variable {write : LogWrite}

/-- A store to the log completes its write. -/
theorem Logs.handleStoresToLog (logs : core.Logs space logBase old) {storeAddr : BitVec 64}
    (found : core.logRequestTable storeAddr = some log) :
    core.handleStoresToLog storeAddr write = .ok (core.completed storeAddr log write) := by
  obtain ⟨i, block, -, -, request⟩ := logs.requests found
  have checked : log.checkCallback write = .ok () := by
    cases write with
    | addr =>
      refine assertThat_of ?_
      rw [request.vaddr]
      exact ofBytes_eq (request.data .addr)
    | data => exact assertThat_of (request.size .data)
  rw [LoggingCore.handleStoresToLog, found]
  simp only [checked, ok_bind]
  rfl

/-- Completing one write leaves the other. -/
theorem status_complete {other : LogWrite} (different : other ≠ write) :
    (log.complete write).status other = log.status other := by
  cases write <;> cases other <;> first | rfl | exact absurd rfl different

private theorem not_both_completed (issued : log.status write = .issued) :
    ¬ (log.logAddrPktStatus = .completed ∧ log.logDataPktStatus = .completed) := by
  rintro ⟨addrDone, dataDone⟩
  cases write
  · exact absurd (issued.symm.trans addrDone) (by decide)
  · exact absurd (issued.symm.trans dataDone) (by decide)

private theorem Logs.completed (logs : core.Logs space logBase old) (aligned : PageAligned logBase)
    {storeAddr : BitVec 64} (found : core.logRequestTable storeAddr = some log) :
    (core.completed storeAddr log write).Logs space logBase old := by
  obtain ⟨i, block, entry, rfl, request⟩ := logs.requests found
  have bound : i < 256 * 56 :=
    Nat.lt_of_lt_of_le (List.getElem?_eq_some_iff.mp entry).1 logs.capacity
  have written : space.view (core.completed (space.translate block) log write).mem =
      (space.view core.mem).write (slotAddress logBase i write) (slotSize write)
        (slotBytes old block write) := by
    rw [LoggingCore.completed, request.addr, request.size, slotAddress_eq,
      AddressSpace.view_write _ (pageAligned_add aligned _) slotOffset_fits]
    exact write_congr (request.data write)
  refine { logs with untouched := ?_, requests := ?_, slots := ?_ }
  · intro addr notLog notLogged
    rw [written, write_outside fun inside => notLog (inLog_of_slot bound inside)]
    exact logs.untouched addr notLog notLogged
  · intro line other pending
    by_cases same : line = space.translate block
    · subst same
      simp only [LoggingCore.completed, Function.update_self, Option.ite_none_left_eq_some,
        Option.some.injEq] at pending
      exact pending.2 ▸ ⟨i, block, entry, rfl, request.complete write⟩
    · simp only [LoggingCore.completed, Function.update_of_ne same] at pending
      exact logs.requests pending
  · intro j block' entry' other
    have bound' : j < 256 * 56 :=
      Nat.lt_of_lt_of_le (List.getElem?_eq_some_iff.mp entry').1 logs.capacity
    rw [written]
    by_cases this : j = i ∧ other = write
    · obtain ⟨rfl, rfl⟩ := this
      obtain rfl : block' = block := Option.some.inj (entry'.symm.trans entry)
      exact .inl (holds_write slotSize_le)
    · refine (logs.slots entry' other).imp (fun holds => ?_) ?_
      · exact holds.write_apart slotSize_le
          (slots_apart bound' bound fun same isWrite => this ⟨same, isWrite⟩)
      · rintro ⟨log', found', issued⟩
        by_cases same : space.translate block' = space.translate block
        · -- The other write of the same request is still issued.
          obtain rfl := AddressSpace.translate_injective same
          obtain rfl := Option.some.inj (found'.symm.trans found)
          have sameEntry : j = i :=
            (List.getElem?_inj (List.getElem?_eq_some_iff.mp entry').1 logs.distinct).mp
              (entry'.trans entry.symm)
          have still : (log'.complete write).status other = .issued :=
            (status_complete fun isWrite => this ⟨sameEntry, isWrite⟩).trans issued
          refine ⟨log'.complete write, ?_, still⟩
          simp only [LoggingCore.completed, Function.update_self]
          exact if_neg (not_both_completed still)
        · refine ⟨log', ?_, issued⟩
          simp only [LoggingCore.completed, Function.update_of_ne same, found']

/-! ### Storing to a logged block -/

private theorem view_performStore {data : List UInt8} (fits : vaddr.toNat % 64 + data.length ≤ 64) :
    space.view (core.performStore space vaddr data).mem =
      (space.view core.mem).write vaddr data.length fun i => (data[i]?).getD 0 := by
  obtain ⟨page, offset, aligned, low, rfl⟩ := exists_page_add vaddr
  have inPage : offset + data.length ≤ 4096 := by
    unfold PageAligned at aligned
    rw [BitVec.toNat_add, BitVec.toNat_ofNat] at fits
    omega
  have written := @AddressSpace.view_write space core.mem page aligned offset _ inPage fun i =>
    (data[i]?).getD 0
  exact written

private theorem inLine_of_store {addr : BitVec 64} {length : Nat}
    (fits : vaddr.toNat % 64 + length ≤ 64) (inside : InRegion vaddr length addr) :
    InRegion (lineAddress vaddr) 64 addr := by
  unfold InRegion at *
  have bounds := And.intro vaddr.isLt addr.isLt
  rw [BitVec.toNat_sub] at *
  rw [toNat_lineAddress]
  omega

private theorem Logs.performStore (logs : core.Logs space logBase old) {data : List UInt8}
    (member : lineAddress vaddr ∈ core.writeSet) (fits : vaddr.toNat % 64 + data.length ≤ 64) :
    (core.performStore space vaddr data).Logs space logBase old := by
  refine { logs with untouched := ?_, slots := ?_ }
  · intro addr notLog notLogged
    rw [view_performStore fits,
      write_outside fun inside => notLogged _ member (inLine_of_store fits inside)]
    exact logs.untouched addr notLog notLogged
  · intro i block entry write
    have bound : i < 256 * 56 :=
      Nat.lt_of_lt_of_le (List.getElem?_eq_some_iff.mp entry).1 logs.capacity
    refine (logs.slots entry write).imp_left fun holds => ?_
    rw [view_performStore fits]
    refine holds.write_apart slotSize_le fun addr slot inside => ?_
    exact logs.outside _ member addr (inLine_of_store fits inside) (inLog_of_slot bound slot)

/-! ### Runs -/

private theorem Logs.step (logs : core.Logs space logBase old) (aligned : PageAligned logBase)
    {event : LogEvent} {next : LoggingCore}
    (step : (system space logBase).Step core event next) : next.Logs space logBase old := by
  obtain ⟨admitted, taken⟩ := step
  cases event with
  | log vaddr =>
    obtain ⟨fresh, outside⟩ := admitted
    obtain ⟨room, rfl⟩ := (logs.logTransactionalStores_eq_ok aligned fresh).mp taken
    exact logs.logged room fresh (logs.base ▸ outside)
  | complete storeAddr write =>
    obtain ⟨log, found, -⟩ := admitted
    obtain rfl := Except.ok.inj ((logs.handleStoresToLog found).symm.trans taken)
    exact logs.completed aligned found
  | store vaddr data =>
    obtain ⟨member, -, fits⟩ := admitted
    obtain rfl := pure_eq_ok.mp taken
    exact logs.performStore member fits

/-- Every run from a begin keeps the log. -/
theorem Logs.of_steps (aligned : PageAligned logBase) {initial : LoggingCore}
    {events : List LogEvent} (begins : initial.Begins space logBase)
    (steps : (system space logBase).Steps initial events core) :
    core.Logs space logBase (space.view initial.mem) := by
  have preserved : ∀ {state event next}, state.Logs space logBase (space.view initial.mem) →
      (system space logBase).Step state event next →
        next.Logs space logBase (space.view initial.mem) :=
    fun logs step => logs.step aligned step
  exact steps.preserves preserved begins.logs

/-- No event fails, except that a full log takes no further entry. -/
theorem Logs.progress (logs : core.Logs space logBase old) (aligned : PageAligned logBase)
    {event : LogEvent} (admitted : core.Admits space event) :
    (∃ next, (system space logBase).Step core event next) ∨
      (∃ vaddr, event = .log vaddr) ∧ core.vm.logNumEntries = 256 * 56 := by
  cases event with
  | log vaddr =>
    by_cases room : core.writeSet.length < 256 * 56
    · have taken := (logs.logTransactionalStores_eq_ok aligned admitted.1).mpr ⟨room, rfl⟩
      exact .inl ⟨_, admitted, taken⟩
    · have capacity := logs.capacity
      exact .inr ⟨⟨vaddr, rfl⟩, by rw [logs.entries]; omega⟩
  | complete storeAddr write =>
    obtain ⟨log, found, issued⟩ := admitted
    exact .inl ⟨_, ⟨log, found, issued⟩, logs.handleStoresToLog found⟩
  | store vaddr data => exact .inl ⟨_, admitted, rfl⟩

/-- While the log has room, a first store is logged and both writes of its request complete. -/
theorem Logs.exists_steps (logs : core.Logs space logBase old) (aligned : PageAligned logBase)
    (room : core.writeSet.length < 256 * 56) (admitted : core.Admits space (.log vaddr))
    {line : BitVec 64} (named : space.translate (lineAddress vaddr) = line)
    (free : ∀ line, core.logRequestTable line = none) :
    ∃ last, (system space logBase).Steps core
        [.log vaddr, .complete line .data, .complete line .addr] last ∧
      last.vm.logBaseVAddr = core.vm.logBaseVAddr ∧
      last.writeSet = core.writeSet ++ [lineAddress vaddr] ∧
      ∀ other, last.logRequestTable other = none := by
  let request := entryRequest space logBase core.writeSet.length vaddr (space.translate vaddr)
    (core.mem.read line)
  let logged := core.logged space logBase vaddr
  have first : (system space logBase).Step core (.log vaddr) logged :=
    ⟨admitted, (logs.logTransactionalStores_eq_ok aligned admitted.1).mpr ⟨room, rfl⟩⟩
  have found : logged.logRequestTable line = some request := by
    simp [logged, LoggingCore.logged, named, request]
  let half := logged.completed line request .data
  have second : (system space logBase).Step logged (.complete line .data) half :=
    ⟨⟨_, found, rfl⟩, (logs.step aligned first).handleStoresToLog found⟩
  have found' : half.logRequestTable line = some (request.complete .data) := by
    simp [half, LoggingCore.completed, LogRequestInfo.complete, request, entryRequest]
  let full := half.completed line (request.complete .data) .addr
  have third : (system space logBase).Step half (.complete line .addr) full :=
    ⟨⟨_, found', rfl⟩, ((logs.step aligned first).step aligned second).handleStoresToLog found'⟩
  have none : ∀ other, full.logRequestTable other = none := by
    intro other
    by_cases same : other = line
    · simp [full, LoggingCore.completed, LogRequestInfo.complete, same]
    · simp [full, half, logged, LoggingCore.completed, LoggingCore.logged, named, same, free]
  have run := ((TransitionSystem.Steps.single first).trans (.single second)).trans (.single third)
  exact ⟨full, run, rfl, rfl, none⟩

/-- The undo log round trip.  For every page-aligned log and every memory, and after any sequence of
first stores, completions of log writes and further stores: an event is refused only when the log
is full, the log has one entry for each of the distinct blocks of the write set, and once every log
write has completed the unroll puts every block of the write set back to its contents before the
transaction and leaves every other byte as it is. -/
theorem logtmLogUnroll_undoes (space : AddressSpace) (logBase : BitVec 64)
    (aligned : PageAligned logBase) (initial core : LoggingCore) (events : List LogEvent)
    (begins : initial.Begins space logBase)
    (steps : (system space logBase).Steps initial events core) :
    (core.vm.logNumEntries = core.writeSet.length ∧ core.writeSet.Nodup) ∧
    (∀ event, core.Admits space event → (∃ next, (system space logBase).Step core event next) ∨
      (∃ vaddr, event = .log vaddr) ∧ core.vm.logNumEntries = 256 * 56) ∧
    ((∀ line, core.logRequestTable line = none) → ∀ addr,
      logtmLogUnroll logBase core.vm.logNumEntries (space.view core.mem) addr =
        if ∃ block ∈ core.writeSet, InRegion block 64 addr then space.view initial.mem addr
        else space.view core.mem addr) := by
  have logs := Logs.of_steps aligned begins steps
  refine ⟨⟨logs.entries, logs.distinct⟩, fun event admitted => ?_, fun completed addr => ?_⟩
  · exact logs.progress aligned admitted
  · -- with every log request completed, the log holds every block of the write set
    have holds : ∀ {i block}, core.writeSet[i]? = some block → ∀ write,
        (space.view core.mem).Holds (slotAddress logBase i write) (slotSize write)
          (slotBytes (space.view initial.mem) block write) := by
      intro i block entry write
      refine (logs.slots entry write).resolve_right ?_
      rintro ⟨log, found, -⟩
      simp [completed] at found
    rw [logs.entries, logtmLogUnroll_eq_restore aligned logs.capacity logs.outside
      ⟨fun entry => holds entry .data, fun entry => holds entry .addr⟩]
    rfl

/-- A manager whose log is the first megabyte, with the translations set up. -/
def readyManager : LogVersionManager where
  logNumEntries := 0
  initStatus := .ready
  logTLB := .ofList ((List.range 256).map fun page => (page * 4096, page * 4096))
  logBaseVAddr := 0

/-- A core at the begin of a transaction. -/
def ready (mem : ByteMemory 64) : LoggingCore where
  vm := readyManager
  mem := mem
  writeSet := []
  logRequestTable _ := none

private theorem readyManager_translated : ∀ page < 256,
    readyManager.logTLB[(0 + BitVec.ofNat 64 (page * 4096)).toNat]? =
      some (AddressSpace.flat.frame (0 + BitVec.ofNat 64 (page * 4096))).toNat := by
  decide +kernel

/-- The ready core begins. -/
theorem ready_begins (mem : ByteMemory 64) : (ready mem).Begins .flat 0 where
  base := rfl
  ready := rfl
  translated := readyManager_translated
  logNumEntries := rfl
  writeSet := rfl
  logRequestTable _ := rfl

/-- A block above the log is admitted. -/
theorem admits_above {vaddr : BitVec 64} (base : core.vm.logBaseVAddr = 0)
    (above : 4096 * 256 ≤ (lineAddress vaddr).toNat)
    (bounded : (lineAddress vaddr).toNat + 64 ≤ 2 ^ 64)
    (fresh : lineAddress vaddr ∉ core.writeSet) : core.Admits .flat (.log vaddr) := by
  refine ⟨fresh, fun addr inside inLog => ?_⟩
  rw [base] at inLog
  change (addr - lineAddress vaddr).toNat < 64 at inside
  change (addr - 0#64).toNat < 4096 * 256 at inLog
  bv_omega

/-- The first store is logged, and both writes of its log request complete. -/
theorem ready_logs (mem : ByteMemory 64) : ∃ core, (system .flat 0).Steps (ready mem)
        [.log 0x40000008, .complete 0x40000000 .data, .complete 0x40000000 .addr] core ∧
      core.vm.logBaseVAddr = 0 ∧ core.writeSet = [0x40000000] ∧
      ∀ line, core.logRequestTable line = none :=
  (ready_begins mem).logs.exists_steps rfl (Nat.zero_lt_succ _)
    (admits_above rfl (by decide) (by decide) List.not_mem_nil) (by decide) fun _ => rfl

/-- A transaction logs two blocks, overwrites bytes of both and is undone. -/
theorem logtmLogUnroll_undoes_ready : ∃ core, (system .flat 0).Steps (ready fun _ => 7)
      [.log 0x40000008, .complete 0x40000000 .data, .complete 0x40000000 .addr,
        .log 0x40000050, .complete 0x40000040 .data, .complete 0x40000040 .addr,
        .store 0x40000008 [1, 2], .store 0x40000050 [3]] core ∧ core.vm.logNumEntries = 2 ∧
      ∀ addr ∈ [0x40000008, 0x40000009, 0x40000050],
        logtmLogUnroll 0 core.vm.logNumEntries (AddressSpace.flat.view core.mem) addr = 7 := by
  have aligned : PageAligned 0 := rfl
  obtain ⟨one, run, base, writeSet, free⟩ := ready_logs fun _ => 7
  have logs := Logs.of_steps aligned (ready_begins _) run
  have admitted : one.Admits .flat (.log 0x40000050) :=
    admits_above base (by decide) (by decide) (by rw [writeSet]; decide)
  obtain ⟨two, later, -, both, none⟩ := logs.exists_steps aligned (by simp [writeSet]) admitted
    (show _ = 0x40000040#64 by decide) free
  rw [writeSet] at both
  have third : (system .flat 0).Step two (.store 0x40000008 [1, 2])
      (two.performStore .flat 0x40000008 [1, 2]) :=
    ⟨⟨by rw [both]; decide, none _, by decide⟩, rfl⟩
  have last : (system .flat 0).Step (two.performStore .flat 0x40000008 [1, 2])
      (.store 0x40000050 [3]) ((two.performStore .flat 0x40000008 [1, 2]).performStore .flat
        0x40000050 [3]) :=
    ⟨⟨both ▸ (by decide), none _, by decide⟩, rfl⟩
  have steps := ((run.trans later).trans (.single third)).trans (.single last)
  obtain ⟨⟨entries, -⟩, -, undone⟩ := logtmLogUnroll_undoes .flat 0 aligned (ready fun _ => 7) _ _
    (ready_begins _) steps
  refine ⟨_, steps, entries.trans (congrArg List.length both), fun addr listed => ?_⟩
  have covered : ∃ block ∈ two.writeSet, InRegion block 64 addr := by
    simp only [List.mem_cons, List.not_mem_nil, or_false] at listed
    rw [both]
    rcases listed with rfl | rfl | rfl
    · exact ⟨0x40000000, by decide, by decide⟩
    · exact ⟨0x40000000, by decide, by decide⟩
    · exact ⟨0x40000040, by decide, by decide⟩
  rw [undone none addr]
  exact (if_pos covered).trans rfl

end LoggingCore

end Gem5.Ruby
