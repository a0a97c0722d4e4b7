import Gem5.Foundation.Overlay
import Gem5.Foundation.Transition
import Gem5.Mem.Ruby.Htm.TransactionVersionManager
import Mathlib

/-!
# The write buffer of a lazy-lazy transaction

Stores enter the write buffer and loads look into it before they use the byte of the
cache.  At commit the buffer is flushed block by block: the sequencer may refuse a
request, requests complete in any order, and each completion may start the flush
again.  `FlushInvariant` is what every operation of the manager keeps; over it, the
memory that the merged blocks leave behind is the one of a transaction with atomic
commit.
-/

namespace Gem5.Ruby

open Foundation

namespace LazyTransactionVersionManager

/-! ## Loads -/

section Loads

variable {n : Nat} [NeZero n] (vm : LazyTransactionVersionManager) (level : Nat)

/-- The byte that `forwardData` returns for an address: the buffered one, or the one of the cache
block. -/
def forwardByte (cacheBlock : DataBlock n) (addr : Addr) : UInt8 :=
  (vm.writeBuffer[addr]?).getD (cacheBlock (Fin.ofNat n addr))

/-- `forwardData`: the bytes, and whether one of them came from the write buffer. -/
def forwardData (addr : Addr) (size : Nat) (cacheBlock : DataBlock n) :
    Checked (List UInt8 × Bool) :=
  if level = 0 then return ([], false)
  else do
    assertThat (size = 0 ∨ level = 1) "transactionLevel == 1"
    return ((List.range size).map fun i => vm.forwardByte cacheBlock (addr + i),
      (List.range size).any fun i => vm.writeBuffer.contains (addr + i))

/-- `bypassLoadFromWriteBuffer`: the data of a load packet, which holds the bytes of the cache
block unless the write buffer forwards. -/
def bypassLoadFromWriteBuffer (addr : Addr) (size : Nat) (cacheBlock : DataBlock n) :
    Checked (List UInt8) := do
  let (data, forwarding) ← vm.forwardData level addr size cacheBlock
  if forwarding then
    assertThat (data.length = size) "data.size() == pkt->getSize()"
    assertThat (data.length < 256) "data.size() < sizeof(buffer)"
    return data
  else return (List.range size).map fun i => cacheBlock (Fin.ofNat n (addr + i))

variable {vm}

/-- Each byte of a load is the buffered one or else the one of the cache. -/
theorem bypassLoadFromWriteBuffer_eq {addr : Addr} {size : Nat} (small : size < 256)
    (cacheBlock : DataBlock n) : vm.bypassLoadFromWriteBuffer 1 addr size cacheBlock =
      .ok ((List.range size).map fun i => vm.forwardByte cacheBlock (addr + i)) := by
  have forwarded : vm.forwardData 1 addr size cacheBlock =
      .ok ((List.range size).map fun i => vm.forwardByte cacheBlock (addr + i),
        (List.range size).any fun i => vm.writeBuffer.contains (addr + i)) := by
    rw [forwardData, if_neg one_ne_zero, assertThat_of (.inr rfl)]
    rfl
  rw [bypassLoadFromWriteBuffer, forwarded, ok_bind]
  dsimp only
  split
  · rw [assertThat_of (by simp), ok_bind, assertThat_of (by simpa using small), ok_bind]
    rfl
  · next cached =>
    -- No byte is buffered, so the bytes of the cache stay in the packet.
    refine congrArg Except.ok (List.map_congr_left fun i listed => ?_)
    have absent : vm.writeBuffer[addr + i]? = none := by
      simp only [List.any_eq_true, not_exists, not_and, Bool.not_eq_true] at cached
      exact Std.ExtTreeMap.getElem?_eq_none_of_contains_eq_false (cached i listed)
    rw [forwardByte, absent, Option.getD_none]

end Loads

/-! ## The blocks with an outstanding request -/

/-- The blocks whose request has been issued. -/
def issuedBlocks (vm : LazyTransactionVersionManager) : Finset Addr :=
  (vm.writeBufferBlocks.toList.filterMap fun entry =>
    if entry.2 = .issued then some entry.1 else none).toFinset

variable {addr : Addr}

/-- The issued blocks are those marked so. -/
@[simp] theorem mem_issuedBlocks {vm : LazyTransactionVersionManager} :
    addr ∈ vm.issuedBlocks ↔ vm.writeBufferBlocks[addr]? = some .issued := by
  simp only [issuedBlocks, List.mem_toFinset, List.mem_filterMap, Option.ite_none_right_eq_some,
    Option.some.injEq, Prod.exists, Std.ExtTreeMap.mem_toList_iff_getElem?_eq_some]
  grind

/-! ## The loop over the blocks -/

/-- What issuing requests for pending blocks changes. -/
structure Issues (width : Nat) (vm after : LazyTransactionVersionManager) : Prop where
  committed : after.committed = vm.committed
  committing : after.committing = vm.committing
  aborting : after.aborting = vm.aborting
  writeBuffer : after.writeBuffer = vm.writeBuffer
  blocks : ∀ addr, addr ∈ after.writeBufferBlocks ↔ addr ∈ vm.writeBufferBlocks
  issued : vm.issuedBlocks ⊆ after.issuedBlocks
  counted : after.issuedWriteBufferRequest = after.issuedBlocks.card
  bounded : after.issuedBlocks.card ≤ width

variable {vm : LazyTransactionVersionManager} {width : Nat} {issues : Addr → Bool}

private theorem Issues.trans {middle after : LazyTransactionVersionManager}
    (first : Issues width vm middle) (second : Issues width middle after) :
    Issues width vm after where
  committed := second.committed.trans first.committed
  committing := second.committing.trans first.committing
  aborting := second.aborting.trans first.aborting
  writeBuffer := second.writeBuffer.trans first.writeBuffer
  blocks addr := (second.blocks addr).trans (first.blocks addr)
  issued := first.issued.trans second.issued
  counted := second.counted
  bounded := second.bounded

/-- One request is issued. -/
def issue (vm : LazyTransactionVersionManager) (addr : Addr) : LazyTransactionVersionManager :=
  { vm with
    writeBufferBlocks := vm.writeBufferBlocks.insert addr .issued
    issuedWriteBufferRequest := vm.issuedWriteBufferRequest + 1 }

private theorem issuedBlocks_issue (addr : Addr) :
    (vm.issue addr).issuedBlocks = insert addr vm.issuedBlocks := by
  ext other
  simp only [mem_issuedBlocks, issue, Std.ExtTreeMap.getElem?_insert, Finset.mem_insert,
    compare_eq_iff_eq]
  grind

private theorem issue_issues (pending : vm.writeBufferBlocks[addr]? = some .pending)
    (counted : vm.issuedWriteBufferRequest = vm.issuedBlocks.card)
    (bounded : vm.issuedBlocks.card ≤ width) (room : vm.issuedWriteBufferRequest ≠ width) :
    Issues width vm (vm.issue addr) where
  committed := rfl
  committing := rfl
  aborting := rfl
  writeBuffer := rfl
  blocks other := by
    have member : addr ∈ vm.writeBufferBlocks := by
      simp [Std.ExtTreeMap.mem_iff_isSome_getElem?, pending]
    simp only [issue, Std.ExtTreeMap.mem_insert, compare_eq_iff_eq]
    grind
  issued := by
    rw [issuedBlocks_issue]
    exact Finset.subset_insert _ _
  counted := by
    have fresh : addr ∉ vm.issuedBlocks := by simp [pending]
    rw [issuedBlocks_issue, Finset.card_insert_of_notMem fresh]
    simp [issue, counted]
  bounded := by
    have fresh : addr ∉ vm.issuedBlocks := by simp [pending]
    rw [issuedBlocks_issue, Finset.card_insert_of_notMem fresh]
    omega

/-- The loop issues requests for pending blocks up to the commit width; if the sequencer accepts
one, some request is outstanding after it. -/
theorem flushBlocks_issues {blocks : List (Addr × WriteBufferBlockStatus)}
    (listed : ∀ entry ∈ blocks, vm.writeBufferBlocks[entry.1]? = some entry.2)
    (distinct : blocks.Pairwise fun entry other => entry.1 ≠ other.1)
    (counted : vm.issuedWriteBufferRequest = vm.issuedBlocks.card)
    (bounded : vm.issuedBlocks.card ≤ width) :
    Issues width vm (flushBlocks width issues blocks vm) ∧
      (0 < width → (∃ addr, (addr, .pending) ∈ blocks ∧ issues addr = true) →
        (flushBlocks width issues blocks vm).issuedBlocks.Nonempty) := by
  induction blocks generalizing vm with
  | nil =>
    exact ⟨⟨rfl, rfl, rfl, rfl, fun _ => .rfl, Finset.Subset.refl _, counted, bounded⟩, by simp⟩
  | cons entry rest ih =>
    obtain ⟨addr, status⟩ := entry
    obtain ⟨different, others⟩ := List.pairwise_cons.mp distinct
    have now := listed (addr, status) (by simp)
    have later : ∀ entry ∈ rest, vm.writeBufferBlocks[entry.1]? = some entry.2 :=
      fun entry member => listed entry (List.mem_cons_of_mem _ member)
    have among : (status = .pending → ¬ issues addr = true) →
        (∃ other, (other, .pending) ∈ (addr, status) :: rest ∧ issues other = true) →
          ∃ other, (other, .pending) ∈ rest ∧ issues other = true := by
      rintro refused ⟨other, member, issued⟩
      rcases List.mem_cons.mp member with same | member
      · obtain ⟨rfl, rfl⟩ := Prod.mk.inj same
        exact absurd issued (refused rfl)
      · exact ⟨other, member, issued⟩
    unfold flushBlocks
    split
    · next full =>
      refine ⟨⟨rfl, rfl, rfl, rfl, fun _ => .rfl, Finset.Subset.refl _, counted, bounded⟩,
        fun positive _ => Finset.card_pos.mp (show 0 < vm.issuedBlocks.card from ?_)⟩
      omega
    · next room =>
      split
      · next pending =>
        subst pending
        split
        · have issued := issue_issues now counted bounded room
          have kept : ∀ entry ∈ rest,
              (vm.issue addr).writeBufferBlocks[entry.1]? = some entry.2 := fun entry member => by
            simp [issue, Std.ExtTreeMap.getElem?_insert, different entry member, later entry member]
          obtain ⟨more, -⟩ := ih kept others issued.counted issued.bounded
          have outstanding : addr ∈ (vm.issue addr).issuedBlocks := by
            rw [issuedBlocks_issue]
            exact Finset.mem_insert_self _ _
          exact ⟨issued.trans more, fun _ _ => ⟨addr, more.issued outstanding⟩⟩
        · next refused =>
          obtain ⟨more, reissues⟩ :=
            @ih { vm with flushPending := true } later others counted bounded
          exact ⟨{ more with }, fun positive accepted =>
            reissues positive (among (fun _ => refused) accepted)⟩
      · next done =>
        obtain ⟨more, reissues⟩ := ih later others counted bounded
        exact ⟨more, fun positive accepted =>
          reissues positive (among (fun pending => absurd pending done) accepted)⟩

/-! ## The invariant -/

/-- What the operations of a transaction keep. -/
structure FlushInvariant (n width : Nat) (vm : LazyTransactionVersionManager) : Prop where
  counted : vm.issuedWriteBufferRequest = vm.issuedBlocks.card
  bounded : vm.issuedBlocks.card ≤ width
  lines : ∀ addr ∈ vm.writeBufferBlocks, makeLineAddress n addr = addr
  running : vm.committing = false → vm.issuedBlocks = ∅ ∧ vm.committed = false ∧ vm.aborting = false
  buffered : vm.committing = false → ∀ addr ∈ vm.writeBuffer,
    makeLineAddress n addr ∈ vm.writeBufferBlocks
  finished : vm.committing = true → vm.aborting = false →
    (vm.committed = true ↔ vm.writeBufferBlocks = ∅)
  emptied : vm.committed = true → vm.writeBuffer = ∅ ∧ vm.writeBufferBlocks = ∅

variable {n : Nat} {after : LazyTransactionVersionManager}

/-- The manager at the begin of a transaction. -/
structure Begun (vm : LazyTransactionVersionManager) : Prop where
  committed : vm.committed = false
  committing : vm.committing = false
  aborting : vm.aborting = false
  writeBuffer : vm.writeBuffer = ∅
  writeBufferBlocks : vm.writeBufferBlocks = ∅
  issuedWriteBufferRequest : vm.issuedWriteBufferRequest = 0

private theorem issuedBlocks_of_empty (empty : vm.writeBufferBlocks = ∅) : vm.issuedBlocks = ∅ := by
  ext addr
  simp [empty]

/-- A transaction that begins has the invariant. -/
theorem Begun.flushInvariant (begun : vm.Begun) : FlushInvariant n width vm := by
  have none := issuedBlocks_of_empty begun.writeBufferBlocks
  refine ⟨?_, ?_, ?_, fun _ => ⟨none, begun.committed, begun.aborting⟩, ?_, ?_, ?_⟩
  · rw [none, begun.issuedWriteBufferRequest]
    rfl
  · simp [none]
  · simp [begun.writeBufferBlocks]
  · simp [begun.writeBuffer]
  · simp [begun.committing]
  · simp [begun.committed]

/-! ### Stores -/

variable {data : List UInt8}

private theorem getElem?_bufferBytes {addr start : Nat} {buffer : Std.ExtTreeMap Addr UInt8} :
    (bufferBytes data start buffer)[addr]? =
      if start ≤ addr ∧ addr < start + data.length then data[addr - start]? else buffer[addr]? := by
  induction data generalizing start buffer with
  | nil => simp [bufferBytes]
  | cons byte rest ih =>
    simp only [bufferBytes, ih, Std.ExtTreeMap.getElem?_insert, List.length_cons, compare_eq_iff_eq]
    by_cases first : start = addr
    · subst first
      simp
    · by_cases inside : start + 1 ≤ addr ∧ addr < start + 1 + rest.length
      · have shift : addr - start = addr - (start + 1) + 1 := by omega
        rw [if_pos inside, if_pos (by omega), shift, List.getElem?_cons_succ]
      · rw [if_neg inside, if_neg first, if_neg (by omega)]

private theorem sameLine {addr other size : Nat} (positive : 0 < size)
    (line : makeLineAddress n addr = makeLineAddress n (addr + size - 1)) (above : addr ≤ other)
    (below : other < addr + size) : makeLineAddress n other = makeLineAddress n addr := by
  have product : ∀ x, makeLineAddress n x = n * (x / n) := fun x => by
    rw [makeLineAddress, Nat.sub_eq_of_eq_add (Nat.div_add_mod x n).symm]
  have first : n * (addr / n) ≤ n * (other / n) :=
    Nat.mul_le_mul_left n (Nat.div_le_div_right above)
  have last : n * (other / n) ≤ n * ((addr + size - 1) / n) :=
    Nat.mul_le_mul_left n (Nat.div_le_div_right (by omega))
  rw [product, product] at line ⊢
  exact Nat.le_antisymm (last.trans_eq line.symm) first

/-- A store that is accepted. -/
structure Stores (n : Nat) (vm : LazyTransactionVersionManager) (addr : Addr) (data : List UInt8)
    (after : LazyTransactionVersionManager) : Prop where
  line : ∀ other, addr ≤ other → other < addr + data.length →
    makeLineAddress n other = makeLineAddress n addr
  shape : after = { vm with
    writeBuffer := bufferBytes data addr vm.writeBuffer
    writeBufferBlocks := vm.writeBufferBlocks.insert (makeLineAddress n addr) .pending }

/-- A successful store buffers its bytes. -/
theorem addToWriteBuffer_stores (stored : vm.addToWriteBuffer 1 n addr data = .ok after) :
    Stores n vm addr data after := by
  simp only [addToWriteBuffer, run_eq_ok] at stored
  obtain ⟨-, line, stored⟩ := stored
  split at stored
  · next size =>
    have positive : 0 < data.length := by omega
    exact ⟨fun other above below => sameLine positive line above below, (pure_eq_ok.mp stored).symm⟩
  · simp at stored

private theorem Stores.writeBuffer (stores : Stores n vm addr data after) (other : Addr) :
    after.writeBuffer[other]? =
      if addr ≤ other ∧ other < addr + data.length then data[other - addr]?
      else vm.writeBuffer[other]? := by
  rw [stores.shape]
  exact getElem?_bufferBytes

private theorem Stores.mem_blocks (stores : Stores n vm addr data after) {other : Addr} :
    other ∈ after.writeBufferBlocks ↔
      makeLineAddress n addr = other ∨ other ∈ vm.writeBufferBlocks := by
  rw [stores.shape, Std.ExtTreeMap.mem_insert, compare_eq_iff_eq]

/-- A store keeps the invariant. -/
theorem FlushInvariant.store (inv : FlushInvariant n width vm) (running : vm.committing = false)
    (stores : Stores n vm addr data after) : FlushInvariant n width after := by
  have stillRunning : after.committing = false := by rw [stores.shape, running]
  have idle : after.issuedBlocks = ∅ := by
    have before := (inv.running running).1
    ext other
    have notIssued : vm.writeBufferBlocks[other]? ≠ some .issued := by
      simpa using congrArg (other ∈ ·) before
    simp only [mem_issuedBlocks, stores.shape, Std.ExtTreeMap.getElem?_insert, Finset.notMem_empty,
      iff_false]
    split <;> simp_all
  have noRequest : vm.issuedWriteBufferRequest = 0 := by
    rw [inv.counted, (inv.running running).1, Finset.card_empty]
    rfl
  refine ⟨?_, ?_, ?_, fun _ => ⟨idle, ?_, ?_⟩, ?_, ?_, ?_⟩
  · rw [idle, stores.shape]
    exact noRequest
  · simp [idle]
  · intro other member
    rcases stores.mem_blocks.mp member with rfl | before
    · exact makeLineAddress_idem n addr
    · exact inv.lines other before
  · rw [stores.shape]
    exact (inv.running running).2.1
  · rw [stores.shape]
    exact (inv.running running).2.2
  · intro _ other member
    rw [stores.mem_blocks]
    rw [Std.ExtTreeMap.mem_iff_isSome_getElem?, stores.writeBuffer] at member
    split at member
    · next inside => exact .inl (stores.line other inside.1 inside.2).symm
    · exact .inr (inv.buffered running other (Std.ExtTreeMap.mem_iff_isSome_getElem?.mpr member))
  · simp [stillRunning]
  · intro committed
    have uncommitted := (inv.running running).2.1
    rw [stores.shape, uncommitted] at committed
    simp at committed

/-! ### The flush -/

/-- The flush of a buffer with blocks left issues requests. -/
theorem flushWriteBuffer_issues (counted : vm.issuedWriteBufferRequest = vm.issuedBlocks.card)
    (bounded : vm.issuedBlocks.card ≤ width) (live : vm.aborting = false)
    (blocks : vm.writeBufferBlocks.isEmpty = false) :
    ∃ after, vm.flushWriteBuffer 1 width issues = .ok after ∧ Issues width vm after ∧
      (0 < width → (∃ addr, vm.writeBufferBlocks[addr]? = some .pending ∧ issues addr = true) →
        after.issuedBlocks.Nonempty) := by
  have distinct : vm.writeBufferBlocks.toList.Pairwise fun entry other => entry.1 ≠ other.1 :=
    Std.ExtTreeMap.distinct_keys_toList.imp fun different same => different (by simp [same])
  obtain ⟨flushed, reissues⟩ := @flushBlocks_issues vm width issues _
    (fun _ => Std.ExtTreeMap.mem_toList_iff_getElem?_eq_some.mp) distinct counted bounded
  refine ⟨flushBlocks width issues vm.writeBufferBlocks.toList vm, ?_, flushed, ?_⟩
  · rw [flushWriteBuffer, assertThat_of rfl, ok_bind, assertThat_of live, ok_bind, blocks]
    rfl
  · rintro positive ⟨addr, pending, accepted⟩
    exact reissues positive
      ⟨addr, Std.ExtTreeMap.mem_toList_iff_getElem?_eq_some.mpr pending, accepted⟩

private theorem Issues.blocks_eq_empty (issues : Issues width vm after) :
    after.writeBufferBlocks = ∅ ↔ vm.writeBufferBlocks = ∅ := by
  simp only [Std.ExtTreeMap.eq_empty_iff_forall_not_mem, issues.blocks]

section

variable (inv : FlushInvariant n width vm)

include inv

/-- Issuing requests during the flush keeps the invariant. -/
theorem FlushInvariant.of_issues (committing : vm.committing = true)
    (issues : Issues width vm after) : FlushInvariant n width after where
  counted := issues.counted
  bounded := issues.bounded
  lines addr member := inv.lines addr ((issues.blocks addr).mp member)
  running stopped := by simp [issues.committing, committing] at stopped
  buffered stopped := by simp [issues.committing, committing] at stopped
  finished started live := by
    rw [issues.committing] at started
    rw [issues.aborting] at live
    rw [issues.committed, issues.blocks_eq_empty]
    exact inv.finished started live
  emptied done := by
    rw [issues.committed] at done
    rw [issues.writeBuffer, issues.blocks_eq_empty]
    exact inv.emptied done

/-- A commit attempt of a live transaction succeeds, and issues requests for pending blocks that the
sequencer accepts. -/
theorem FlushInvariant.commit (issues : Addr → Bool)
    (uncommitted : vm.committed = false) (live : vm.aborting = false) :
    ∃ after, vm.commitTransaction 1 width issues = .ok after ∧ FlushInvariant n width after ∧
      after.committing = true ∧ after.aborting = false ∧ after.writeBuffer = vm.writeBuffer ∧
      (∀ addr, addr ∈ after.writeBufferBlocks ↔ addr ∈ vm.writeBufferBlocks) ∧
      (0 < width → (∃ addr, vm.writeBufferBlocks[addr]? = some .pending ∧ issues addr = true) →
        after.issuedBlocks.Nonempty) := by
  let started := { vm with committing := true, flushPending := false }
  have opened : vm.commitTransaction 1 width issues = started.flushWriteBuffer 1 width issues := by
    rw [commitTransaction, assertThat_of rfl, ok_bind, assertThat_of uncommitted]
    rfl
  rw [opened]
  by_cases empty : vm.writeBufferBlocks = ∅
  · have none := issuedBlocks_of_empty empty
    have noRequest : started.issuedWriteBufferRequest = 0 := by
      rw [show started.issuedWriteBufferRequest = vm.issuedBlocks.card from inv.counted, none]
      rfl
    have isEmpty : started.writeBufferBlocks.isEmpty = true := Std.ExtTreeMap.isEmpty_iff.mpr empty
    -- no block before the end of the flush means that nothing was stored
    have running : vm.committing = false := by
      by_contra committing
      have done := (inv.finished (by simpa using committing) live).mpr empty
      simp [uncommitted] at done
    have buffer : vm.writeBuffer = ∅ := by
      rw [Std.ExtTreeMap.eq_empty_iff_forall_not_mem]
      intro addr member
      have block := inv.buffered running addr member
      simp [empty] at block
    refine ⟨{ started with committed := true }, ?_, ?_, rfl, live, rfl, fun _ => .rfl, ?_⟩
    · rw [flushWriteBuffer, assertThat_of rfl, ok_bind, assertThat_of live, ok_bind, if_pos isEmpty,
        assertThat_of noRequest]
      rfl
    · exact ⟨inv.counted, inv.bounded, inv.lines, by simp [started], by simp [started],
        fun _ _ => by simp [started, empty], fun _ => ⟨buffer, empty⟩⟩
    · rintro - ⟨addr, pending, -⟩
      simp [empty] at pending
  · have inv' : FlushInvariant n width started :=
      ⟨inv.counted, inv.bounded, inv.lines, by simp [started], by simp [started],
        fun _ _ => by simp [started, uncommitted, empty], by simp [started, uncommitted]⟩
    have blocks : started.writeBufferBlocks.isEmpty = false := by
      rw [Bool.eq_false_iff]
      exact fun isEmpty => empty (Std.ExtTreeMap.isEmpty_iff.mp isEmpty)
    obtain ⟨after, flushed, issued, outstanding⟩ :=
      @flushWriteBuffer_issues started width issues inv'.counted inv'.bounded live blocks
    exact ⟨after, flushed, inv'.of_issues rfl issued, issued.committing, issued.aborting.trans live,
      issued.writeBuffer, issued.blocks, outstanding⟩

end

/-! ### Completed requests -/

/-- The manager after a block has been merged, before the flush goes on. -/
def retire (vm : LazyTransactionVersionManager) (addr : Addr) : LazyTransactionVersionManager :=
  { vm with
    writeBufferBlocks := vm.writeBufferBlocks.erase addr
    issuedWriteBufferRequest := vm.issuedWriteBufferRequest - 1 }

private theorem mem_retire {other : Addr} :
    other ∈ (vm.retire addr).writeBufferBlocks ↔ other ∈ vm.writeBufferBlocks ∧ other ≠ addr := by
  simp only [retire, Std.ExtTreeMap.mem_erase, ne_eq, compare_eq_iff_eq]
  grind

private theorem issuedBlocks_retire :
    (vm.retire addr).issuedBlocks = vm.issuedBlocks.erase addr := by
  ext other
  simp only [mem_issuedBlocks, retire, Std.ExtTreeMap.getElem?_erase, Finset.mem_erase,
    compare_eq_iff_eq]
  grind

/-- A flush is under way while a request is outstanding. -/
theorem FlushInvariant.flushing (inv : FlushInvariant n width vm)
    (issued : vm.writeBufferBlocks[addr]? = some .issued) :
    vm.committing = true ∧ vm.committed = false := by
  have outstanding : addr ∈ vm.issuedBlocks := mem_issuedBlocks.mpr issued
  constructor
  · by_contra stopped
    rw [(inv.running (by simpa using stopped)).1] at outstanding
    simp at outstanding
  · by_contra done
    rw [(inv.emptied (by simpa using done)).2] at issued
    simp at issued

private theorem getElem?_of_retire {other : Addr} {status : WriteBufferBlockStatus}
    (left : (vm.retire addr).writeBufferBlocks[other]? = some status) :
    vm.writeBufferBlocks[other]? = some status := by
  simp only [retire, Std.ExtTreeMap.getElem?_erase] at left
  split at left
  · simp at left
  · exact left

private theorem FlushInvariant.retire (inv : FlushInvariant n width vm)
    (issued : vm.writeBufferBlocks[addr]? = some .issued)
    (left : (vm.retire addr).writeBufferBlocks ≠ ∅) : FlushInvariant n width (vm.retire addr) := by
  obtain ⟨committing, uncommitted⟩ := inv.flushing issued
  have outstanding : addr ∈ vm.issuedBlocks := mem_issuedBlocks.mpr issued
  have card := Finset.card_erase_add_one outstanding
  have counted := inv.counted
  have bounded := inv.bounded
  refine ⟨?_, ?_, ?_, ?_, ?_, ?_, ?_⟩
  · rw [issuedBlocks_retire]
    simp only [LazyTransactionVersionManager.retire]
    omega
  · rw [issuedBlocks_retire]
    omega
  · exact fun other member => inv.lines other (mem_retire.mp member).1
  · simp [LazyTransactionVersionManager.retire, committing]
  · simp [LazyTransactionVersionManager.retire, committing]
  · intro _ _
    simp only [left, iff_false]
    simp [LazyTransactionVersionManager.retire, uncommitted]
  · simp [LazyTransactionVersionManager.retire, uncommitted]

/-- What the completion of a request does. -/
structure Merges (width : Nat) (vm : LazyTransactionVersionManager) (addr : Addr)
    (data merged : DataBlock n) (after : LazyTransactionVersionManager) : Prop where
  merged : merged = fun i : Fin n => (vm.writeBuffer[addr + (i : Nat)]?).getD (data i)
  inv : FlushInvariant n width after
  committing : after.committing = true
  aborting : after.aborting = vm.aborting
  blocks : ∀ other, other ∈ after.writeBufferBlocks ↔ other ∈ vm.writeBufferBlocks ∧ other ≠ addr
  committed : after.committed = true ↔ after.writeBufferBlocks = ∅
  writeBuffer : after.committed = false → after.writeBuffer = vm.writeBuffer
  statuses : vm.aborting = true → ∀ (other : Addr) (status : WriteBufferBlockStatus),
    after.writeBufferBlocks[other]? = some status → vm.writeBufferBlocks[other]? = some status

/-- A request that was issued completes. -/
theorem FlushInvariant.merge (inv : FlushInvariant n width vm) (issues : Addr → Bool)
    (issued : vm.writeBufferBlocks[addr]? = some .issued) (data : DataBlock n) :
    ∃ merged after, vm.mergeDataFromWriteBuffer 1 width issues addr data = .ok (merged, after) ∧
      Merges width vm addr data merged after := by
  obtain ⟨committing, uncommitted⟩ := inv.flushing issued
  have line := inv.lines addr (by simp [Std.ExtTreeMap.mem_iff_isSome_getElem?, issued])
  let merged : DataBlock n := fun i => (vm.writeBuffer[addr + (i : Nat)]?).getD (data i)
  have opened : vm.mergeDataFromWriteBuffer 1 width issues addr data =
      if (vm.retire addr).writeBufferBlocks.isEmpty then
        .ok (merged, { vm.retire addr with committed := true, writeBuffer := ∅ })
      else if vm.aborting then .ok (merged, vm.retire addr)
      else if vm.flushPending then do
        let vm ← flushWriteBuffer { vm.retire addr with flushPending := false } 1 width issues
        return (merged, vm)
      else .ok (merged, vm.retire addr) := by
    rw [mergeDataFromWriteBuffer, assertThat_of rfl, ok_bind, assertThat_of issued, ok_bind,
      assertThat_of line.symm, ok_bind]
    rfl
  rw [opened]
  split
  · next isEmpty =>
    have empty : (vm.retire addr).writeBufferBlocks = ∅ := Std.ExtTreeMap.isEmpty_iff.mp isEmpty
    have none : (vm.retire addr).issuedBlocks = ∅ := issuedBlocks_of_empty empty
    have last : vm.issuedWriteBufferRequest - 1 = 0 := by
      have card := Finset.card_erase_add_one (mem_issuedBlocks.mpr issued)
      rw [← issuedBlocks_retire, none] at card
      rw [inv.counted, ← card]
      rfl
    refine ⟨merged, _, rfl, rfl, ?_, committing, rfl, fun other => mem_retire, by simp [empty],
      by simp, fun _ _ _ => getElem?_of_retire⟩
    refine ⟨?_, ?_, ?_, ?_, ?_, fun _ _ => by simp [empty], fun _ => ⟨rfl, empty⟩⟩
    · exact last.trans (congrArg (fun blocks => ((Finset.card blocks : Nat) : Int)) none).symm
    · exact (congrArg Finset.card none).trans_le (Nat.zero_le width)
    · exact fun other member => inv.lines other (mem_retire.mp member).1
    · simp [LazyTransactionVersionManager.retire, committing]
    · simp [LazyTransactionVersionManager.retire, committing]
  · next isEmpty =>
    have left : (vm.retire addr).writeBufferBlocks ≠ ∅ := fun empty =>
      isEmpty (Std.ExtTreeMap.isEmpty_iff.mpr empty)
    have kept := inv.retire issued left
    have waiting : Merges width vm addr data merged (vm.retire addr) :=
      ⟨rfl, kept, committing, rfl, fun other => mem_retire, by simp [left]; exact uncommitted,
        fun _ => rfl, fun _ _ _ => getElem?_of_retire⟩
    split
    · exact ⟨merged, _, rfl, waiting⟩
    · next live =>
      split
      · -- The flush goes on with the blocks that are still pending.
        let resumed := { vm.retire addr with flushPending := false }
        have notEmpty : resumed.writeBufferBlocks.isEmpty = false := by simpa using isEmpty
        have resumedInv : FlushInvariant n width resumed := { kept with }
        obtain ⟨after, flushed, issued, -⟩ := @flushWriteBuffer_issues resumed width issues
          resumedInv.counted resumedInv.bounded (Bool.eq_false_iff.mpr live) notEmpty
        refine ⟨merged, after, by rw [flushed]; rfl, rfl, resumedInv.of_issues committing issued,
          issued.committing.trans committing, issued.aborting,
          fun other => (issued.blocks other).trans mem_retire, ?_, fun _ => issued.writeBuffer,
          fun aborting => absurd aborting live⟩
        rw [issued.committed, issued.blocks_eq_empty]
        exact waiting.committed
      · exact ⟨merged, _, rfl, waiting⟩

/-! ### An abort during the flush -/

/-- The manager after an abort has cancelled the flush. -/
def cancelled (vm : LazyTransactionVersionManager) : LazyTransactionVersionManager :=
  { vm with
    aborting := true
    writeBufferBlocks := vm.writeBufferBlocks.filter fun _ status => status ≠ .pending }

/-- Only blocks with an outstanding request are left. -/
theorem getElem?_cancelled {status : WriteBufferBlockStatus} :
    vm.cancelled.writeBufferBlocks[addr]? = some status ↔
      vm.writeBufferBlocks[addr]? = some .issued ∧ status = .issued := by
  simp only [cancelled, Std.ExtTreeMap.getElem?_filter', Option.filter_eq_some_iff,
    decide_eq_true_eq]
  cases status <;> simp

private theorem issuedBlocks_cancelled : vm.cancelled.issuedBlocks = vm.issuedBlocks := by
  ext addr
  simp [getElem?_cancelled]

/-- A cancelled buffer is empty exactly when nothing was issued. -/
theorem cancelled_eq_empty : vm.cancelled.writeBufferBlocks = ∅ ↔ vm.issuedBlocks = ∅ := by
  rw [Std.ExtTreeMap.eq_empty_iff_forall_not_mem, Finset.eq_empty_iff_forall_notMem]
  refine forall_congr' fun addr => not_congr ?_
  rw [Std.ExtTreeMap.mem_iff_isSome_getElem?, Option.isSome_iff_exists]
  simp [getElem?_cancelled]

/-- Cancelling a flush leaves the issued blocks. -/
theorem cancelWriteBufferFlush_eq (committing : vm.committing = true) (live : vm.aborting = false) :
    vm.cancelWriteBufferFlush 1 = .ok vm.cancelled := by
  rw [cancelWriteBufferFlush, assertThat_of committing, ok_bind, assertThat_of live, ok_bind,
    assertThat_of rfl]
  rfl

/-- An abort during the flush keeps the invariant. -/
theorem FlushInvariant.cancel (inv : FlushInvariant n width vm)
    (committing : vm.committing = true) : FlushInvariant n width vm.cancelled where
  counted := by
    rw [issuedBlocks_cancelled]
    exact inv.counted
  bounded := by
    rw [issuedBlocks_cancelled]
    exact inv.bounded
  lines addr member := by
    obtain ⟨status, present⟩ :=
      Option.isSome_iff_exists.mp (Std.ExtTreeMap.mem_iff_isSome_getElem?.mp member)
    have issued := (getElem?_cancelled.mp present).1
    exact inv.lines addr (by simp [Std.ExtTreeMap.mem_iff_isSome_getElem?, issued])
  running stopped := by simp [cancelled, committing] at stopped
  buffered stopped := by simp [cancelled, committing] at stopped
  finished _ live := by simp [cancelled] at live
  emptied done := by
    obtain ⟨buffer, empty⟩ := inv.emptied done
    exact ⟨buffer, cancelled_eq_empty.mpr (issuedBlocks_of_empty empty)⟩

end LazyTransactionVersionManager

/-! ## The memory below the write buffer -/

/-- A lazy-lazy transaction and the memory that its flush writes. -/
structure BufferedCore where
  vm : LazyTransactionVersionManager
  mem : Addr → UInt8

/-- What can happen to the write buffer. -/
inductive BufferEvent where
  | store (addr : Addr) (data : List UInt8)
  /-- A commit attempt; `issues` says which requests the sequencer accepts. -/
  | commit (issues : Addr → Bool)
  /-- A request of the flush completes. -/
  | merge (addr : Addr) (issues : Addr → Bool)
  | abort

/-- The events that go on with the flush. -/
def BufferEvent.Flushes : BufferEvent → Prop
  | .commit _ => True
  | .merge _ _ => True
  | _ => False

/-- Stores stay in one block, and `addToWriteBuffer` panics for other sizes. -/
def BufferEvent.Supported (n : Nat) : BufferEvent → Prop
  | .store addr data => addr % n + data.length ≤ n ∧
    (data.length = 1 ∨ data.length = 2 ∨ data.length = 4 ∨ data.length = 8)
  | _ => True

namespace BufferedCore

open LazyTransactionVersionManager

variable (n width : Nat) (core : BufferedCore)

/-- The contents of a block. -/
def block (addr : Addr) : DataBlock n :=
  fun i => core.mem (addr + i)

/-- The memory with a block overwritten. -/
def writeBlock {n : Nat} (mem : Addr → UInt8) (addr : Addr) (data : DataBlock n) : Addr → UInt8 :=
  fun other => if inside : addr ≤ other ∧ other - addr < n then data ⟨other - addr, inside.2⟩
    else mem other

/-- The value of a load inside a block. -/
def load [NeZero n] (addr : Addr) (size : Nat) : Checked (List UInt8) :=
  core.vm.bypassLoadFromWriteBuffer 1 addr size (core.block n (makeLineAddress n addr))

/-- Take an event. -/
def take : BufferEvent → Checked BufferedCore
  | .store addr data => do
    let vm ← core.vm.addToWriteBuffer 1 n addr data
    return { core with vm := vm }
  | .commit issues => do
    let vm ← core.vm.commitTransaction 1 width issues
    return { core with vm := vm }
  | .merge addr issues => do
    let (merged, vm) ← core.vm.mergeDataFromWriteBuffer 1 width issues addr (core.block n addr)
    return ⟨vm, writeBlock core.mem addr merged⟩
  | .abort => do
    let vm ← core.vm.cancelWriteBufferFlush 1
    return { core with vm := vm }

/-- When an event can happen: stores end when the commit starts, a commit is attempted until the
flush is done, a request that was issued completes, and an abort during the flush comes once. -/
def Admits : BufferEvent → Prop
  | .store _ _ => core.vm.committing = false
  | .commit _ => core.vm.committed = false ∧ core.vm.aborting = false
  | .merge addr _ => core.vm.writeBufferBlocks[addr]? = some .issued
  | .abort => core.vm.committing = true ∧ core.vm.aborting = false

/-- The runs of one transaction. -/
def system : TransitionSystem BufferedCore BufferEvent where
  Initial core := core.vm.Begun
  Step core event next := core.Admits event ∧ core.take n width event = .ok next

/-- The effect of an event on a transaction with atomic commit: stores are writes. -/
def act (state : Buffered Addr UInt8) : BufferEvent → Buffered Addr UInt8
  | .store addr data =>
    state.write (fun other => addr ≤ other ∧ other < addr + data.length) fun other =>
      (data[other - addr]?).getD 0
  | _ => state

/-- The writes of a run over the given memory. -/
def atomic (memory : Addr → UInt8) (events : List BufferEvent) : Buffered Addr UInt8 :=
  events.foldl act (Buffered.start memory)

/-- How the transaction with atomic commit shows in the write buffer and in the memory: the blocks
that are not in the buffer any more have been merged. -/
structure Tracks (state : Buffered Addr UInt8) (core : BufferedCore) : Prop where
  inv : FlushInvariant n width core.vm
  buffer : core.vm.committed = false → ∀ addr, core.vm.writeBuffer[addr]? = state.writes addr
  memory : core.vm.aborting = false → ∀ addr, core.mem addr =
    if makeLineAddress n addr ∈ core.vm.writeBufferBlocks then state.memory addr
    else state.load addr

variable {n width core} {state : Buffered Addr UInt8} {next : BufferedCore}

private theorem Tracks.start (begun : core.vm.Begun) :
    core.Tracks n width (Buffered.start core.mem) where
  inv := begun.flushInvariant
  buffer _ addr := by simp [begun.writeBuffer, Buffered.start]
  memory _ addr := by simp [begun.writeBufferBlocks, Buffered.load, Buffered.start, overlay]

private theorem Tracks.store {addr : Addr} {data : List UInt8} (tracks : core.Tracks n width state)
    (running : core.vm.committing = false)
    (taken : core.take n width (.store addr data) = .ok next) :
    next.Tracks n width (act state (.store addr data)) := by
  simp only [take, run_eq_ok] at taken
  obtain ⟨vm, stored, rfl⟩ := taken
  have stores := addToWriteBuffer_stores stored
  obtain ⟨-, uncommitted, live⟩ := tracks.inv.running running
  refine ⟨tracks.inv.store running stores, fun _ other => ?_, fun _ other => ?_⟩
  · rw [stores.writeBuffer, tracks.buffer uncommitted]
    simp only [act, Buffered.write, patchOn]
    split
    · next inside =>
      have bound : other - addr < data.length := Nat.sub_lt_left_of_lt_add inside.1 inside.2
      rw [List.getElem?_eq_getElem bound, Option.getD_some]
    · rfl
  · simp only [stores.mem_blocks]
    have memory := tracks.memory live other
    by_cases member : makeLineAddress n other ∈ core.vm.writeBufferBlocks
    · rw [if_pos member] at memory
      rw [if_pos (.inr member)]
      exact memory
    · rw [if_neg member] at memory
      -- A byte whose block was not buffered has not been written.
      have unwritten : state.writes other = none := by
        rw [← tracks.buffer uncommitted]
        by_contra written
        refine member (tracks.inv.buffered running other ?_)
        rw [Std.ExtTreeMap.mem_iff_isSome_getElem?]
        exact Option.isSome_iff_ne_none.mpr written
      rw [Buffered.load_of_none unwritten] at memory
      split
      · exact memory
      · next outside =>
        have notStored : ¬ (addr ≤ other ∧ other < addr + data.length) := fun inside =>
          outside (.inl (stores.line other inside.1 inside.2).symm)
        rw [Buffered.load_of_none]
        · exact memory
        · simp only [act, Buffered.write, patchOn, if_neg notStored]
          exact unwritten

private theorem Tracks.commit {issues : Addr → Bool} (tracks : core.Tracks n width state)
    (uncommitted : core.vm.committed = false) (live : core.vm.aborting = false) :
    ∃ next, core.take n width (.commit issues) = .ok next ∧ next.Tracks n width state ∧
      (next.vm.committed = true ↔ next.vm.writeBufferBlocks = ∅) := by
  obtain ⟨vm, started, inv, committing, stillLive, buffer, blocks, -⟩ :=
    tracks.inv.commit issues uncommitted live
  refine ⟨{ core with vm := vm }, ?_, ⟨inv, fun _ addr => ?_, fun _ addr => ?_⟩,
    inv.finished committing stillLive⟩
  · simp only [take, started]
    rfl
  · rw [buffer]
    exact tracks.buffer uncommitted addr
  · simp only [blocks]
    exact tracks.memory live addr

variable {addr : Nat}

private theorem makeLineAddress_eq_iff [NeZero n] {line : Nat}
    (isLine : makeLineAddress n line = line) :
    makeLineAddress n addr = line ↔ line ≤ addr ∧ addr - line < n := by
  have positive : 0 < n := Nat.pos_of_neZero n
  change line - line % n = line at isLine
  change addr - addr % n = line ↔ _
  have below := Nat.mod_le addr n
  constructor
  · rintro rfl
    have small := Nat.mod_lt addr positive
    omega
  · rintro ⟨after, inside⟩
    have aligned : line % n = 0 := by
      have below := Nat.mod_le line n
      omega
    obtain ⟨index, rfl⟩ := Nat.dvd_of_mod_eq_zero aligned
    obtain ⟨offset, rfl⟩ := Nat.exists_eq_add_of_le after
    rw [Nat.mul_add_mod, Nat.mod_eq_of_lt (by omega)]
    omega

section

variable (tracks : core.Tracks n width state)

include tracks

private theorem Tracks.merge [NeZero n] {addr : Addr} {issues : Addr → Bool}
    (issued : core.vm.writeBufferBlocks[addr]? = some .issued) :
    ∃ next, core.take n width (.merge addr issues) = .ok next ∧ next.Tracks n width state ∧
      (next.vm.committed = true ↔ next.vm.writeBufferBlocks = ∅) := by
  obtain ⟨merged, vm, completed, merges⟩ := tracks.inv.merge issues issued (core.block n addr)
  have uncommitted := (tracks.inv.flushing issued).2
  have member : addr ∈ core.vm.writeBufferBlocks := by
    simp [Std.ExtTreeMap.mem_iff_isSome_getElem?, issued]
  have isLine := tracks.inv.lines addr member
  refine ⟨⟨vm, writeBlock core.mem addr merged⟩, ?_, ⟨merges.inv, ?_, ?_⟩, merges.committed⟩
  · simp only [take, completed]
    rfl
  · intro still other
    rw [merges.writeBuffer still]
    exact tracks.buffer uncommitted other
  · intro live other
    have memory := tracks.memory (merges.aborting.symm.trans live) other
    simp only [merges.blocks]
    by_cases here : makeLineAddress n other = addr
    · have inside := (makeLineAddress_eq_iff isLine).mp here
      rw [here, if_pos member] at memory
      rw [if_neg (fun left => left.2 here), writeBlock, dif_pos inside, merges.merged]
      simp only [block, Nat.add_sub_cancel' inside.1, tracks.buffer uncommitted, memory]
      rfl
    · have outside := mt (makeLineAddress_eq_iff isLine).mpr here
      simp only [writeBlock, dif_neg outside, memory, ne_eq, here, not_false_eq_true, and_true]

private theorem Tracks.abort (committing : core.vm.committing = true)
    (live : core.vm.aborting = false) :
    ∃ next, core.take n width .abort = .ok next ∧ next.Tracks n width state ∧
      next.vm.committed = core.vm.committed ∧ next.vm.aborting = true := by
  refine ⟨{ core with vm := core.vm.cancelled }, ?_, ⟨tracks.inv.cancel committing, ?_, ?_⟩,
    rfl, rfl⟩
  · simp only [take, cancelWriteBufferFlush_eq committing live]
    rfl
  · exact tracks.buffer
  · intro aborting
    simp [cancelled] at aborting

omit tracks in
private theorem makeLineAddress_add {offset : Nat} (inside : addr % n + offset < n) :
    makeLineAddress n (addr + offset) = makeLineAddress n addr := by
  have remainder : (addr + offset) % n = addr % n + offset := by
    rw [Nat.add_mod, Nat.mod_eq_of_lt (by omega : offset < n), Nat.mod_eq_of_lt inside]
  have below := Nat.mod_le addr n
  change addr + offset - (addr + offset) % n = addr - addr % n
  omega

omit tracks in
private theorem take_store {data : List UInt8}
    (supported : BufferEvent.Supported n (.store addr data)) :
    ∃ next, core.take n width (.store addr data) = .ok next := by
  obtain ⟨inside, size⟩ := supported
  have sameLine : makeLineAddress n addr = makeLineAddress n (addr + data.length - 1) := by
    change addr % n + data.length ≤ n at inside
    rw [Nat.add_sub_assoc (by omega), makeLineAddress_add]
    omega
  simp only [take, addToWriteBuffer, assertThat_of, sameLine, if_pos size]
  exact ⟨_, rfl⟩

/-- Every event succeeds and is seen by the transaction with atomic commit. -/
theorem Tracks.step [NeZero n] {event : BufferEvent}
    (transition : (system n width).Step core event next) :
    next.Tracks n width (act state event) ∧ (core.vm.committed = false →
        (next.vm.committed = true ↔ event.Flushes ∧ next.vm.writeBufferBlocks = ∅)) := by
  obtain ⟨admits, taken⟩ := transition
  cases event with
  | store addr data =>
    refine ⟨tracks.store admits taken, fun uncommitted => ?_⟩
    simp only [take, run_eq_ok] at taken
    obtain ⟨vm, stored, rfl⟩ := taken
    have kept := (addToWriteBuffer_stores stored).shape
    simp [BufferEvent.Flushes, kept, uncommitted]
  | commit issues =>
    obtain ⟨after, flushed, tracks, committed⟩ := tracks.commit admits.1 admits.2
    obtain rfl : after = next := Except.ok.inj (flushed.symm.trans taken)
    exact ⟨tracks, fun _ => by simp [BufferEvent.Flushes, committed]⟩
  | merge addr issues =>
    obtain ⟨after, merged, tracks, committed⟩ := tracks.merge admits
    obtain rfl : after = next := Except.ok.inj (merged.symm.trans taken)
    exact ⟨tracks, fun _ => by simp [BufferEvent.Flushes, committed]⟩
  | abort =>
    obtain ⟨after, cancelled, tracks, committed, -⟩ := tracks.abort admits.1 admits.2
    obtain rfl : after = next := Except.ok.inj (cancelled.symm.trans taken)
    exact ⟨tracks, fun uncommitted => by simp [BufferEvent.Flushes, committed, uncommitted]⟩

omit tracks in
/-- Along a run the transaction with atomic commit takes the same stores. -/
theorem Tracks.steps [NeZero n] {initial : BufferedCore} {events : List BufferEvent}
    (begun : initial.vm.Begun) (run : (system n width).Steps initial events core) :
    core.Tracks n width (atomic initial.mem events) := by
  induction run with
  | refl => exact Tracks.start begun
  | step prior transition ih =>
    have after := (ih.step transition).1
    simpa only [atomic, List.foldl_append, List.foldl_cons, List.foldl_nil] using after

/-- Every supported event that can happen succeeds. -/
theorem Tracks.progress [NeZero n] {event : BufferEvent} (admits : core.Admits event)
    (supported : event.Supported n) :
    ∃ next, core.take n width event = .ok next := by
  cases event with
  | store addr data => exact take_store supported
  | commit issues =>
    obtain ⟨next, taken, -⟩ := tracks.commit admits.1 admits.2
    exact ⟨next, taken⟩
  | merge addr issues =>
    obtain ⟨next, taken, -⟩ := tracks.merge admits
    exact ⟨next, taken⟩
  | abort =>
    obtain ⟨next, taken, -⟩ := tracks.abort admits.1 admits.2
    exact ⟨next, taken⟩

omit tracks in
private theorem load_eq [NeZero n] {size : Nat} (inside : addr % n + size ≤ n) (small : size ≤ 64) :
    core.load n addr size = .ok ((List.range size).map fun i =>
      (core.vm.writeBuffer[addr + i]?).getD (core.mem (addr + i))) := by
  rw [load, bypassLoadFromWriteBuffer_eq (by omega)]
  refine congrArg Except.ok (List.map_congr_left fun i listed => ?_)
  have offset := List.mem_range.mp listed
  rw [forwardByte, ← makeLineAddress_add (by omega : addr % n + i < n), block, Fin.val_ofNat,
    makeLineAddress, Nat.sub_add_cancel (Nat.mod_le _ _)]

private theorem Tracks.mem_of_committed (committed : core.vm.committed = true)
    (live : core.vm.aborting = false) :
    core.mem = state.commit.memory := by
  funext addr
  simp [tracks.memory live addr, (tracks.inv.emptied committed).2, Buffered.commit, Buffered.start]

/-- Until an abort, the write buffer over the cache shows the transaction with atomic commit. -/
theorem Tracks.visible (live : core.vm.aborting = false) (addr : Addr)
    : (core.vm.writeBuffer[addr]?).getD (core.mem addr) = state.load addr := by
  cases committed : core.vm.committed with
  | true =>
    rw [(tracks.inv.emptied committed).1, tracks.mem_of_committed committed live]
    rfl
  | false =>
    rw [tracks.buffer committed, tracks.memory live addr]
    cases written : state.writes addr <;> simp [Buffered.load, overlay, written]

end

/-- The write buffer refines a transaction with atomic commit. -/
theorem writeBuffer_refines_atomicCommit [NeZero n] {initial core : BufferedCore}
    {events : List BufferEvent} (begun : (system n width).Initial initial)
    (run : (system n width).Steps initial events core) :
    (∀ addr size, addr % n + size ≤ n → size ≤ 64 →
      (core.vm.committed = false → core.load n addr size = .ok ((List.range size).map fun i =>
        ((atomic initial.mem events).writes (addr + i)).getD (core.mem (addr + i)))) ∧
      (core.vm.aborting = false → core.load n addr size = .ok ((List.range size).map fun i =>
        (atomic initial.mem events).load (addr + i)))) ∧
    (core.vm.committed = true → core.vm.aborting = false →
      core.mem = (atomic initial.mem events).commit.memory ∧
        core.vm.writeBuffer = ∅ ∧ core.vm.writeBufferBlocks = ∅) ∧
    core.vm.issuedWriteBufferRequest = core.vm.issuedBlocks.card ∧
    core.vm.issuedBlocks.card ≤ width ∧
    (∀ event next, (system n width).Step core event next → core.vm.committed = false →
      (next.vm.committed = true ↔ event.Flushes ∧ next.vm.writeBufferBlocks = ∅)) ∧
    (∀ event, core.Admits event → event.Supported n →
      ∃ next, (system n width).Step core event next) := by
  have tracks := Tracks.steps begun run
  refine ⟨fun addr size inside small => ⟨fun uncommitted => ?_, fun live => ?_⟩,
    fun committed live => ?_, tracks.inv.counted, tracks.inv.bounded, ?_, ?_⟩
  · rw [load_eq inside small]
    simp only [tracks.buffer uncommitted]
  · rw [load_eq inside small]
    simp only [tracks.visible live]
  · exact ⟨tracks.mem_of_committed committed live, tracks.inv.emptied committed⟩
  · exact fun event next transition => (tracks.step transition).2
  · intro event admits supported
    obtain ⟨next, taken⟩ := tracks.progress admits supported
    exact ⟨next, admits, taken⟩

/-- Stores to two blocks, and a commit that flushes them one after the other. -/
theorem writeBuffer_refines_atomicCommit_twoBlocks : ∃ core,
      (system 64 1).Steps ⟨.init, fun _ => 0⟩ [.store 8 [7], .store 66 [1, 2],
        .commit fun _ => true, .merge 0 fun _ => true, .merge 64 fun _ => true] core ∧
      core.vm.committed = true ∧ core.mem 8 = 7 ∧ core.mem 67 = 2 ∧ core.mem 65 = 0 := by
  have stored := @TransitionSystem.Steps.single _ _ (system 64 1) ⟨.init, fun _ => 0⟩ _
    (.store 8 [7]) ⟨rfl, rfl⟩
  have storedMore := @TransitionSystem.Steps.step _ _ _ _ _ _ (BufferEvent.store 66 [1, 2]) _
    stored ⟨rfl, rfl⟩
  have flushed := @TransitionSystem.Steps.step _ _ _ _ _ _ (BufferEvent.commit fun _ => true) _
    storedMore ⟨⟨rfl, rfl⟩, rfl⟩
  have merged := @TransitionSystem.Steps.step _ _ _ _ _ _ (BufferEvent.merge 0 fun _ => true) _
    flushed ⟨rfl, rfl⟩
  have mergedAll := @TransitionSystem.Steps.step _ _ _ _ _ _ (BufferEvent.merge 64 fun _ => true) _
    merged ⟨rfl, rfl⟩
  have refines := writeBuffer_refines_atomicCommit ⟨rfl, rfl, rfl, rfl, rfl, rfl⟩ mergedAll
  have flat := congrFun (refines.2.1 rfl rfl).1
  exact ⟨_, mergedAll, rfl, flat 8, flat 67, flat 65⟩

end BufferedCore

end Gem5.Ruby
