import Gem5.Mem.Ruby.Htm.UndoLog

/-!
# Setting up the translation of the log

The runtime gives the base address of the log to the simulator and then writes to each of
its 256 pages (`walk_log`).  The sequencer intercepts the writes: `setupLogTranslation` collects
the physical pages, and each access is checked against them.  Afterwards the version manager
translates log addresses itself.
-/

namespace Gem5.Ruby

open Foundation Htmrt

namespace LogVersionManager

variable (vm : LogVersionManager)

/-- `EagerTransactionVersionManager::setLogBaseVirtualAddress`. -/
def setLogBaseVirtualAddress (addr : BitVec 64) : Checked LogVersionManager :=
  if vm.initStatus = .invalid then
    return { vm with initStatus := .baseAddress, logBaseVAddr := addr }
  else do
    assertThat (vm.logBaseVAddr = addr) "m_logBaseVAddr == addr"
    return vm

/-- `EagerTransactionVersionManager::setupLogTranslation`. -/
def setupLogTranslation (vaddr paddr : BitVec 64) : Checked LogVersionManager := do
  if vm.initStatus = .baseAddress then
    assertThat (vm.logTLB.isEmpty = true) "m_logTLB.empty()"
    assertThat (vm.logBaseVAddr = vaddr) "m_logBaseVAddr == vaddr"
  else
    assertThat (vm.initStatus = .v2pTranslations) "m_initStatus == LogInitStatus::V2PTranslations"
  assertThat (∀ known ∈ vm.logTLB[vaddr.toNat]?, known = paddr.toNat) "m_logTLB[vaddr] == paddr"
  return { vm with
    logTLB := vm.logTLB.insert vaddr.toNat paddr.toNat
    initStatus := if vaddr + 4096#64 = vm.logBaseVAddr + BitVec.ofNat 64 (4096 * 256) then .ready
      else .v2pTranslations }

/-- `EagerTransactionVersionManager::isAccessToLog`. -/
def isAccessToLog (addr : BitVec 64) : Bool :=
  vm.initStatus ≠ .invalid && vm.logBaseVAddr ≤ addr &&
    addr < vm.logBaseVAddr + BitVec.ofNat 64 (4096 * 256)

/-- A packet with a virtual address; `data` is the first word of a write. -/
structure LogAccess where
  vaddr : BitVec 64
  paddr : BitVec 64
  isWrite : Bool
  data : BitVec 64

/-- `EagerTransactionVersionManager::isEndLogUnrollSignal`. -/
def isEndLogUnrollSignal (pkt : LogAccess) : Checked Bool :=
  if pkt.vaddr = vm.logBaseVAddr ∧ pkt.isWrite = true then do
    assertThat (pkt.data = 0xdeadc0debaadcafe#64) "*data == 0xdeadc0debaadcafe"
    return true
  else return false

/-- The check at the end of `interceptLogAccess`: the log has not been moved. -/
def checkLogAccess (pkt : LogAccess) : Checked Unit := do
  let paddr ← vm.translateLogAddress pkt.vaddr
  panicIf (pkt.paddr ≠ paddr) "Unexpected v2p translation for log access"

/-- `TransactionalSequencer::interceptLogAccess`, without lazy versioning.  An access that ends
the unrolling, which the manager then notes, needs no memory. -/
def interceptLogAccess (isUnrollingLog : Bool) (pkt : LogAccess) :
    Checked (Bool × LogVersionManager) :=
  if vm.isAccessToLog pkt.vaddr then
    if vm.initStatus ≠ .ready then do
      let vm ← vm.setupLogTranslation pkt.vaddr pkt.paddr
      vm.checkLogAccess pkt
      return (false, vm)
    else do
      let ends ← if isUnrollingLog then vm.isEndLogUnrollSignal pkt else pure false
      if ends then return (true, vm)
      else do
        assertThat (isUnrollingLog = true → pkt.isWrite = false) "!pkt->isWrite()"
        vm.checkLogAccess pkt
        return (false, vm)
  else return (false, vm)

/-- A manager that knows nothing of a log. -/
def unset : LogVersionManager := ⟨⟨0, .invalid, ∅⟩, 0⟩

/-- The page that round `i` of `walk_log` writes to. -/
def logPage (logBase : BitVec 64) (i : Nat) : BitVec 64 :=
  logBase + BitVec.ofNat 64 (i * 4096)

/-- The write of round `i`. -/
def touch (logBase : BitVec 64) (paddr : Nat → BitVec 64) (i : Nat) : LogAccess where
  vaddr := logPage logBase i
  paddr := paddr i
  isWrite := true
  data := 0

/-- The base address, and the first rounds of `walk_log` with the physical address of each write. -/
def walkLog (logBase : BitVec 64) (paddr : Nat → BitVec 64) (rounds : Nat) :
    Checked LogVersionManager := do
  (List.range rounds).foldlM
    (fun vm i => return (← vm.interceptLogAccess false (touch logBase paddr i)).2)
    (← unset.setLogBaseVirtualAddress logBase)

variable {vm} {logBase : BitVec 64} {paddr : Nat → BitVec 64} {rounds : Nat}

private theorem walkLog_succ : walkLog logBase paddr (rounds + 1) =
    walkLog logBase paddr rounds >>= fun vm =>
      return (← vm.interceptLogAccess false (touch logBase paddr rounds)).2 := by
  simp [walkLog, List.range_succ, List.foldlM_append]

private theorem logPage_inj {i j : Nat} (low : i < 256) (low' : j < 256)
    (same : (logPage logBase i).toNat = (logPage logBase j).toNat) : i = j := by
  have offsets := (BitVec.add_right_inj logBase).mp (BitVec.eq_of_toNat_eq same)
  rw [← BitVec.toNat_inj, BitVec.toNat_ofNat, BitVec.toNat_ofNat] at offsets
  omega

/-- The manager after some rounds: the pages written to so far are translated. -/
structure Walked (logBase : BitVec 64) (paddr : Nat → BitVec 64) (rounds : Nat)
    (vm : LogVersionManager) : Prop where
  base : vm.logBaseVAddr = logBase
  status : vm.initStatus = if rounds = 0 then .baseAddress else if rounds = 256 then .ready
    else .v2pTranslations
  first : rounds = 0 → vm.logTLB.isEmpty = true
  translated : ∀ i < 256, vm.logTLB[(logPage logBase i).toNat]? =
    if i < rounds then some (paddr i).toNat else none

private theorem Walked.setupLogTranslation (walked : vm.Walked logBase paddr rounds)
    (low : rounds < 256) : vm.setupLogTranslation (logPage logBase rounds) (paddr rounds) =
      .ok { vm with
        logTLB := vm.logTLB.insert (logPage logBase rounds).toNat (paddr rounds).toNat
        initStatus := if rounds = 255 then .ready else .v2pTranslations } := by
  have fresh := walked.translated rounds low
  rw [if_neg (Nat.lt_irrefl _)] at fresh
  have last : logPage logBase rounds + 4096#64 =
      logBase + BitVec.ofNat 64 (4096 * 256) ↔ rounds = 255 := by
    rw [logPage, BitVec.add_assoc, BitVec.add_right_inj, ← BitVec.toNat_inj, BitVec.toNat_add,
      BitVec.toNat_ofNat, BitVec.toNat_ofNat, BitVec.toNat_ofNat]
    omega
  simp only [LogVersionManager.setupLogTranslation, walked.base, last, fresh]
  by_cases start : rounds = 0
  · have empty := walked.first start
    subst start
    simp [walked.status, empty, logPage, assertThat_of]
  · simp [walked.status, start, show rounds ≠ 256 by omega, assertThat_of]

/-- A log that starts at a page and ends before the last address. -/
structure Placed (logBase : BitVec 64) : Prop where
  aligned : PageAligned logBase
  bounded : logBase.toNat + 4096 * 256 < 2 ^ 64

/-- The pages of the log are recognised. -/
theorem Walked.isAccessToLog (walked : vm.Walked logBase paddr rounds) (placed : Placed logBase)
    {i : Nat} (low : i < 256) : vm.isAccessToLog (logPage logBase i) = true := by
  have known : vm.initStatus ≠ .invalid := by
    rw [walked.status]
    grind
  have bounded := placed.bounded
  have small : i * 4096 < 4096 * 256 := by omega
  have page : (logPage logBase i).toNat = logBase.toNat + i * 4096 := by
    rw [logPage, BitVec.toNat_add, BitVec.toNat_ofNat]
    omega
  have last : (logBase + BitVec.ofNat 64 (4096 * 256)).toNat = logBase.toNat + 4096 * 256 := by
    rw [BitVec.toNat_add, BitVec.toNat_ofNat]
    omega
  have above : logBase ≤ logPage logBase i := by
    rw [BitVec.le_def, page]
    exact Nat.le_add_right _ _
  have below : logPage logBase i < logBase + BitVec.ofNat 64 (4096 * 256) := by
    rw [BitVec.lt_def, page, last]
    exact Nat.add_lt_add_left small _
  simp [LogVersionManager.isAccessToLog, walked.base, known, above, below]

/-- The page that was just written to passes the check. -/
theorem checkLogAccess_touch {i : Nat} (aligned : PageAligned logBase)
    (found : vm.logTLB[(logPage logBase i).toNat]? = some (paddr i).toNat) :
    vm.checkLogAccess (touch logBase paddr i) = .ok () := by
  obtain ⟨pageBits, offsetBits⟩ := page_and_masks (pageAligned_add aligned i)
    (show (0#64).toNat < 4096 by decide)
  rw [BitVec.add_zero, ← logPage] at pageBits offsetBits
  have translated : vm.translateLogAddress (logPage logBase i) = .ok (paddr i) := by
    rw [LogVersionManager.translateLogAddress, pageBits,
      show ~~~ pageMask = pageOffsetMask from rfl, offsetBits, found]
    simp
  show (vm.translateLogAddress (logPage logBase i) >>= _) = _
  rw [translated]
  simp [touch, panicIf]

private theorem walkLog_walked (placed : Placed logBase) (low : rounds ≤ 256) :
    ∃ vm, walkLog logBase paddr rounds = .ok vm ∧ vm.Walked logBase paddr rounds := by
  induction rounds with
  | zero => exact ⟨_, rfl, rfl, rfl, fun _ => rfl, fun i _ => by simp [unset]⟩
  | succ rounds ih =>
    obtain ⟨vm, ran, walked⟩ := ih (by omega)
    have unready : vm.initStatus ≠ .ready := by
      rw [walked.status]
      grind
    rw [walkLog_succ, ran, ok_bind, interceptLogAccess,
      show (touch logBase paddr rounds).vaddr = logPage logBase rounds from rfl,
      show (touch logBase paddr rounds).paddr = paddr rounds from rfl,
      if_pos (walked.isAccessToLog placed (by omega)), if_pos unready,
      walked.setupLogTranslation (by omega), ok_bind, checkLogAccess_touch placed.aligned (by simp)]
    refine ⟨_, rfl, walked.base, by simp, by simp, fun i inside => ?_⟩
    simp only [Std.ExtTreeMap.getElem?_insert, compare_eq_iff_eq]
    by_cases same : rounds = i
    · simp [same]
    · rw [if_neg fun equal => same (logPage_inj (by omega) inside equal),
        walked.translated i inside]
      simp only [show i < rounds + 1 ↔ i < rounds by omega]

/-- A byte of a page of the log is translated to the page's frame. -/
theorem Walked.translateLogAddress (walked : vm.Walked logBase paddr 256)
    (aligned : PageAligned logBase) {page offset : Nat} (framed : PageAligned (paddr page))
    (inside : page < 256) (low : offset < 4096) :
    vm.translateLogAddress (logPage logBase page + BitVec.ofNat 64 offset) =
      .ok (paddr page + BitVec.ofNat 64 offset) := by
  have small : (BitVec.ofNat 64 offset).toNat < 4096 := by
    rw [BitVec.toNat_ofNat]
    omega
  obtain ⟨pageBits, offsetBits⟩ := page_and_masks (pageAligned_add aligned _) small
  rw [LogVersionManager.translateLogAddress, logPage, pageBits,
    show ~~~ pageMask = pageOffsetMask from rfl, offsetBits, ← logPage,
    walked.translated page inside, if_pos inside]
  simp only [BitVec.ofNat_toNat, BitVec.setWidth_eq, page_or framed small]
  rfl

/-- For a log that starts at a page and does not wrap around, as that of the runtime, the manager is
ready after the last page and not before.  Each byte of the log's slots is then translated. -/
theorem translateLogAddress_complete (logBase : BitVec 64) (placed : Placed logBase)
    (frame : Nat → BitVec 64) :
    (∀ rounds ≤ 256, ∃ vm, walkLog logBase frame rounds = .ok vm ∧
      (vm.initStatus = .ready ↔ rounds = 256)) ∧
    ((∀ page < 256, PageAligned (frame page)) →
      ∃ vm, walkLog logBase frame 256 = .ok vm ∧
        ∀ i < 256 * 56, ∀ write, ∀ k < slotSize write,
          vm.translateLogAddress (slotAddress logBase i write + BitVec.ofNat 64 k) =
            .ok (frame (i / 56) + BitVec.ofNat 64 (slotOffset i write + k))) := by
  refine ⟨fun rounds low => ?_, fun framed => ?_⟩
  · obtain ⟨vm, ran, walked⟩ := walkLog_walked placed low
    refine ⟨vm, ran, ?_⟩
    rw [walked.status]
    grind
  · obtain ⟨vm, ran, walked⟩ := walkLog_walked placed (Nat.le_refl 256)
    refine ⟨vm, ran, fun i low write k inside => ?_⟩
    have page : i / 56 < 256 := by omega
    have fits : slotOffset i write + slotSize write ≤ 4096 := slotOffset_fits
    rw [slotAddress_eq, BitVec.add_assoc, ← BitVec.ofNat_add]
    exact walked.translateLogAddress placed.aligned (framed _ page) page (by omega)

/-- With the pages mapped in reverse order the second one is at `0xfe000`. -/
theorem translateLogAddress_complete_reversed :
    ∃ vm, walkLog 0x200000 (fun page => BitVec.ofNat 64 ((255 - page) * 4096)) 256 = .ok vm ∧
      vm.translateLogAddress (slotAddress 0x200000 57 .data + 3#64) = .ok 0xfe043#64 := by
  obtain ⟨vm, ran, translated⟩ := (translateLogAddress_complete 0x200000
    ⟨by decide, by decide⟩ fun page => BitVec.ofNat 64 ((255 - page) * 4096)).2 (by decide +kernel)
  exact ⟨vm, ran, translated 57 (by decide) .data 3 (by decide)⟩

/-- The writes to a log that ends with the address space are not recognised. -/
theorem walkLog_wrapping (paddr : Nat → BitVec 64) (rounds : Nat) :
    walkLog (-0x100000) paddr rounds =
      .ok { unset with initStatus := .baseAddress, logBaseVAddr := -0x100000 } := by
  induction rounds with
  | zero => rfl
  | succ rounds ih =>
    rw [walkLog_succ, ih]
    simp [interceptLogAccess, isAccessToLog]

/-- A log that does not start at a page stops the simulator at the first write, and one that ends
with the address space never gets ready. -/
theorem translateLogAddress_misplaced :
    walkLog 8 (fun page => BitVec.ofNat 64 (page * 4096)) 1 =
        .error (.assertion "it != m_logTLB.end()") ∧
      ∃ vm, walkLog (-0x100000) (fun page => BitVec.ofNat 64 (page * 4096)) 256 = .ok vm ∧
        vm.initStatus = .baseAddress :=
  ⟨by decide, _, walkLog_wrapping _ 256, rfl⟩

end LogVersionManager

end Gem5.Ruby
