import Gem5.Foundation.ByteMemory
import Gem5.Foundation.FailStop

/-!
# The undo log of the runtime

The pointer arithmetic and the unroll loop of `logtm.h`.  A log page has its data slots at
the bottom and the address slots at the top: `LOG_PAGE_SIZE_BYTES` is 4096,
`LOG_CACHE_BLOCK_SIZE` 64, `LOG_ENTRIES_PER_PAGE` 56 and `MAX_LOG_SIZE_PAGES` 256. The
unroll walks the entries backwards, moving its two pointers by one slot inside a page and
recomputing them when it crosses to the previous page.  `logtmLogUnroll_eq_restore` says
what the loop computes from a memory that holds the log of a list of blocks.
-/

namespace Gem5.Htmrt

open Foundation Foundation.ByteMemory

/-- `PAGE_OFFSET_MASK`. -/
def pageOffsetMask : BitVec 64 := 4095#64

/-- `PAGE_MASK`. -/
def pageMask : BitVec 64 := ~~~ pageOffsetMask

/-- `logtm_compute_addr_ptr_from_data_ptr`. -/
def logtmComputeAddrPtrFromDataPtr (dataLogPtr : BitVec 64) : Checked (BitVec 64) := do
  let pageAddr := dataLogPtr &&& pageMask
  let pageOffset := dataLogPtr &&& pageOffsetMask
  let entryIndex := pageOffset.toNat / 64
  assertThat (pageOffset.toNat < 56 * 64)
    "pageOffset < LOG_ENTRIES_PER_PAGE*LOG_CACHE_BLOCK_SIZE"
  assertThat (pageOffset.toNat % 64 = 0) "(pageOffset % LOG_CACHE_BLOCK_SIZE) == 0"
  return pageAddr ||| BitVec.ofNat 64 (4096 - (entryIndex + 1) * 8)

/-- `LOGTM_COMPUTE_DATA_LOG_POINTER_OFFSET`. -/
def logtmComputeDataLogPointerOffset (numEntries : Nat) : Nat :=
  numEntries / 56 * 4096 + numEntries % 56 * 64

/-- `LOGTM_COMPUTE_ADDR_LOG_POINTER_OFFSET`. -/
def logtmComputeAddrLogPointerOffset (numEntries : Nat) : Nat :=
  numEntries / 56 * 4096 + 4096 - (numEntries % 56 + 1) * 8

/-- `logtm_compute_data_log_pointer`. -/
def logtmComputeDataLogPointer (logBase : BitVec 64) (numEntries : Nat) : BitVec 64 :=
  let pageIndex := numEntries / 56
  let entryIndex := numEntries % 56
  logBase + BitVec.ofNat 64 (pageIndex * 4096 + entryIndex * 64)

/-- `logtm_compute_addr_log_pointer`. -/
def logtmComputeAddrLogPointer (logBase : BitVec 64) (numEntries : Nat) : BitVec 64 :=
  let pageIndex := numEntries / 56
  let entryIndex := numEntries % 56
  logBase + BitVec.ofNat 64
    (pageIndex * 4096 + (4096 - (entryIndex + 1) * 8))

/-- The body of the loop of `logtm_log_unroll`: copy one logged block back, word by word. -/
def unrollEntry (dataLogPtr addrLogPtr : BitVec 64) (mem : ByteMemory 64) : ByteMemory 64 :=
  let address : BitVec 64 := mem.load addrLogPtr 8
  mem.copyWords address dataLogPtr 8 8

/-- The loop of `logtm_log_unroll`. -/
def unrollLoop (logBase : BitVec 64) : Nat → BitVec 64 → BitVec 64 → ByteMemory 64 → ByteMemory 64
  | 0, dataLogPtr, addrLogPtr, mem => unrollEntry dataLogPtr addrLogPtr mem
  | logSize + 1, dataLogPtr, addrLogPtr, mem =>
    let mem := unrollEntry dataLogPtr addrLogPtr mem
    if dataLogPtr &&& pageOffsetMask = 0 then
      -- Just unrolled the block at the beginning of the page: move to the previous page.
      unrollLoop logBase logSize
        (logBase + BitVec.ofNat 64 (logtmComputeDataLogPointerOffset logSize))
        (logBase + BitVec.ofNat 64 (logtmComputeAddrLogPointerOffset logSize)) mem
    else
      unrollLoop logBase logSize (dataLogPtr - 64#64)
        (addrLogPtr + 8#64) mem

/-- `logtm_log_unroll`. -/
def logtmLogUnroll (logBase : BitVec 64) : Nat → ByteMemory 64 → ByteMemory 64
  | 0, mem => mem
  | logSize + 1, mem =>
    unrollLoop logBase logSize
      (logBase + BitVec.ofNat 64 (logtmComputeDataLogPointerOffset logSize))
      (logBase + BitVec.ofNat 64 (logtmComputeAddrLogPointerOffset logSize)) mem

/-! ## Pages -/

/-- The address of a page. -/
def PageAligned (addr : BitVec 64) : Prop := addr.toNat % 4096 = 0

instance : DecidablePred PageAligned := fun _ => inferInstanceAs (Decidable (_ = _))

private theorem toNat_and_pageOffsetMask (addr : BitVec 64) :
    (addr &&& pageOffsetMask).toNat = addr.toNat % 4096 := by
  rw [BitVec.toNat_and]
  exact Nat.and_two_pow_sub_one_eq_mod addr.toNat 12

private theorem and_pageMask_add (addr : BitVec 64) :
    (addr &&& pageMask) + (addr &&& pageOffsetMask) = addr := by
  rw [BitVec.add_eq_or_of_and_eq_zero]
  · rw [← BitVec.and_or_distrib_left, pageMask, BitVec.or_comm, BitVec.or_not_self,
      BitVec.and_allOnes]
  · rw [BitVec.and_assoc, ← BitVec.and_assoc pageMask, BitVec.and_comm pageMask, BitVec.and_assoc,
      pageMask, BitVec.and_comm (~~~ pageOffsetMask), BitVec.and_not_self]
    simp

/-- The page mask rounds down to a multiple of 4096. -/
theorem toNat_and_pageMask (addr : BitVec 64) :
    (addr &&& pageMask).toNat = addr.toNat - addr.toNat % 4096 := by
  have total := congrArg BitVec.toNat (and_pageMask_add addr)
  have offset := toNat_and_pageOffsetMask addr
  have low : (addr &&& pageMask).toNat ≤ addr.toNat := by
    rw [BitVec.toNat_and]
    exact Nat.and_le_left
  have bound := addr.isLt
  rw [BitVec.toNat_add, offset] at total
  omega

/-- The page mask keeps an aligned address. -/
theorem and_pageMask_of_aligned {page : BitVec 64} (aligned : PageAligned page) :
    page &&& pageMask = page := by
  apply BitVec.eq_of_toNat_eq
  rw [toNat_and_pageMask, aligned, Nat.sub_zero]

/-- Adding an offset below the page size to a page address sets its low bits. -/
theorem page_or {page offset : BitVec 64} (aligned : PageAligned page)
    (low : offset.toNat < 4096) : page ||| offset = page + offset := by
  refine (BitVec.add_eq_or_of_and_eq_zero _ _ ?_).symm
  have offsetOnly : pageOffsetMask &&& offset = offset := by
    apply BitVec.eq_of_toNat_eq
    rw [BitVec.and_comm, toNat_and_pageOffsetMask, Nat.mod_eq_of_lt low]
  calc page &&& offset = (page &&& pageMask) &&& (pageOffsetMask &&& offset) := by
        rw [and_pageMask_of_aligned aligned, offsetOnly]
    _ = page &&& ((pageMask &&& pageOffsetMask) &&& offset) := by simp only [BitVec.and_assoc]
    _ = 0#64 := by
        rw [pageMask, BitVec.and_comm (~~~ pageOffsetMask), BitVec.and_not_self]
        simp

/-- The masks take a page and an offset apart. -/
theorem page_and_masks {page offset : BitVec 64} (aligned : PageAligned page)
    (low : offset.toNat < 4096) :
    (page + offset) &&& pageMask = page ∧ (page + offset) &&& pageOffsetMask = offset := by
  have sum : (page + offset).toNat = page.toNat + offset.toNat := by
    unfold PageAligned at aligned
    rw [BitVec.toNat_add]
    omega
  unfold PageAligned at aligned
  constructor <;> apply BitVec.eq_of_toNat_eq
  · rw [toNat_and_pageMask, sum]
    omega
  · rw [toNat_and_pageOffsetMask, sum]
    omega

/-- Every address is an offset in a page. -/
theorem exists_page_add (addr : BitVec 64) : ∃ page offset, PageAligned page ∧ offset < 4096 ∧
    addr = page + BitVec.ofNat 64 offset := by
  refine ⟨addr &&& pageMask, addr.toNat % 4096, ?_, Nat.mod_lt _ (by decide), ?_⟩
  · unfold PageAligned
    rw [toNat_and_pageMask]
    omega
  · rw [← toNat_and_pageOffsetMask, BitVec.ofNat_toNat, BitVec.setWidth_eq, and_pageMask_add]

/-! ## The slots of an entry -/

section Slots

variable {logBase : BitVec 64} {i j : Nat}

/-- The pages of an aligned region are aligned. -/
theorem pageAligned_add (aligned : PageAligned logBase) (pages : Nat) :
    PageAligned (logBase + BitVec.ofNat 64 (pages * 4096)) := by
  unfold PageAligned at *
  rw [BitVec.toNat_add, BitVec.toNat_ofNat]
  omega

/-- The page and the offset of a data slot. -/
theorem dataSlot_masks (aligned : PageAligned logBase) :
    logtmComputeDataLogPointer logBase i &&& pageMask = logBase + BitVec.ofNat 64 (i / 56 * 4096) ∧
      logtmComputeDataLogPointer logBase i &&& pageOffsetMask = BitVec.ofNat 64 (i % 56 * 64) := by
  have low : (BitVec.ofNat 64 (i % 56 * 64)).toNat < 4096 := by
    rw [BitVec.toNat_ofNat]
    omega
  rw [logtmComputeDataLogPointer, BitVec.ofNat_add, ← BitVec.add_assoc]
  exact page_and_masks (pageAligned_add aligned (i / 56)) low

/-- The address slot of an entry is found from its data slot. -/
theorem logtmComputeAddrPtrFromDataPtr_eq (aligned : PageAligned logBase) :
    logtmComputeAddrPtrFromDataPtr (logtmComputeDataLogPointer logBase i) =
      .ok (logtmComputeAddrLogPointer logBase i) := by
  have page := pageAligned_add aligned (i / 56)
  obtain ⟨pageBits, offsetBits⟩ := @dataSlot_masks logBase i aligned
  have slot : (BitVec.ofNat 64 (i % 56 * 64)).toNat = i % 56 * 64 := by
    rw [BitVec.toNat_ofNat]
    omega
  have top : (BitVec.ofNat 64 (4096 - (i % 56 + 1) * 8)).toNat < 4096 := by
    rw [BitVec.toNat_ofNat]
    omega
  have entry : i % 56 * 64 / 64 = i % 56 := by omega
  simp only [logtmComputeAddrPtrFromDataPtr, pageBits, offsetBits, slot, entry]
  rw [assertThat_of (by omega), assertThat_of (by omega), ok_bind, ok_bind, page_or page top,
    logtmComputeAddrLogPointer, BitVec.ofNat_add, ← BitVec.add_assoc]
  rfl

/-- The function and the macro for the address slot agree. -/
theorem logtmComputeAddrLogPointer_eq : logtmComputeAddrLogPointer logBase i =
    logBase + BitVec.ofNat 64 (logtmComputeAddrLogPointerOffset i) := by
  have same : i / 56 * 4096 + (4096 - (i % 56 + 1) * 8) =
      i / 56 * 4096 + 4096 - (i % 56 + 1) * 8 := by omega
  rw [logtmComputeAddrLogPointer, logtmComputeAddrLogPointerOffset, same]

variable {addr : BitVec 64}

/-- The bytes of a data slot, as distances from the base. -/
theorem inRegion_dataSlot (bound : i < 256 * 56) :
    InRegion (logtmComputeDataLogPointer logBase i) 64 addr ↔
      logtmComputeDataLogPointerOffset i ≤ (addr - logBase).toNat ∧
        (addr - logBase).toNat < logtmComputeDataLogPointerOffset i + 64 := by
  have fits : logtmComputeDataLogPointerOffset i + 64 ≤ 2 ^ 64 := by
    unfold logtmComputeDataLogPointerOffset
    omega
  exact inRegion_add_iff fits (by decide)

/-- The bytes of an address slot, as distances from the base. -/
theorem inRegion_addrSlot (bound : i < 256 * 56) :
    InRegion (logtmComputeAddrLogPointer logBase i) 8 addr ↔
      logtmComputeAddrLogPointerOffset i ≤ (addr - logBase).toNat ∧
        (addr - logBase).toNat < logtmComputeAddrLogPointerOffset i + 8 := by
  have fits : logtmComputeAddrLogPointerOffset i + 8 ≤ 2 ^ 64 := by
    unfold logtmComputeAddrLogPointerOffset
    omega
  rw [logtmComputeAddrLogPointer_eq]
  exact inRegion_add_iff fits (by decide)

/-- The bytes of the log. -/
abbrev InLog (logBase addr : BitVec 64) : Prop := InRegion logBase (4096 * 256) addr

variable (bound : i < 256 * 56)

include bound

/-- Data slots are in the log. -/
theorem inLog_of_dataSlot (inside : InRegion (logtmComputeDataLogPointer logBase i) 64 addr) :
    InLog logBase addr := by
  have range := (inRegion_dataSlot bound).mp inside
  unfold logtmComputeDataLogPointerOffset at range
  unfold InLog InRegion
  omega

/-- Address slots are in the log. -/
theorem inLog_of_addrSlot
    (inside : InRegion (logtmComputeAddrLogPointer logBase i) 8 addr) : InLog logBase addr := by
  have range := (inRegion_addrSlot bound).mp inside
  unfold logtmComputeAddrLogPointerOffset at range
  unfold InLog InRegion
  omega

/-- The data log never meets the address log. -/
theorem dataSlot_addrSlot_apart (bound' : j < 256 * 56) :
    Apart (logtmComputeDataLogPointer logBase i) 64
      (logtmComputeAddrLogPointer logBase j) 8 := by
  intro addr first second
  have range := (inRegion_dataSlot bound).mp first
  have range' := (inRegion_addrSlot bound').mp second
  unfold logtmComputeDataLogPointerOffset at range
  unfold logtmComputeAddrLogPointerOffset at range'
  omega

end Slots

/-! ## What the unroll computes -/

/-- The memory with every byte of the blocks taken from the old memory. -/
def restore (blocks : List (BitVec 64)) (old mem : ByteMemory 64) : ByteMemory 64 :=
  fun addr => if ∃ block ∈ blocks, InRegion block 64 addr then old addr else mem addr

/-- The log holds, entry by entry, the address of each block and its old contents. -/
structure LogHolds (logBase : BitVec 64) (blocks : List (BitVec 64)) (old mem : ByteMemory 64) :
    Prop where
  data : ∀ {i block}, blocks[i]? = some block →
    mem.Holds (logtmComputeDataLogPointer logBase i) 64 (old.read block)
  addr : ∀ {i block}, blocks[i]? = some block →
    mem.Holds (logtmComputeAddrLogPointer logBase i) 8 (byteOf block)

section Unroll

variable {logBase : BitVec 64} {blocks : List (BitVec 64)} {old mem : ByteMemory 64}

/-- The two pointers at an entry move to those of the previous one. -/
private theorem unrollLoop_succ (aligned : PageAligned logBase) (i : Nat) :
    unrollLoop logBase (i + 1) (logtmComputeDataLogPointer logBase (i + 1))
        (logtmComputeAddrLogPointer logBase (i + 1)) mem =
      unrollLoop logBase i (logtmComputeDataLogPointer logBase i)
        (logtmComputeAddrLogPointer logBase i)
        (unrollEntry (logtmComputeDataLogPointer logBase (i + 1))
          (logtmComputeAddrLogPointer logBase (i + 1)) mem) := by
  simp only [unrollLoop]
  split
  · rw [@logtmComputeAddrLogPointer_eq logBase i]
    rfl
  · next inner =>
    -- Inside a page the next slot down is the slot of the previous entry.
    have notFirst : (i + 1) % 56 ≠ 0 := by
      intro first
      rw [(dataSlot_masks aligned).2, first] at inner
      exact inner rfl
    have dataOffset : logtmComputeDataLogPointerOffset (i + 1) =
        logtmComputeDataLogPointerOffset i + 64 := by
      unfold logtmComputeDataLogPointerOffset
      omega
    have addrOffset : logtmComputeAddrLogPointerOffset i =
        logtmComputeAddrLogPointerOffset (i + 1) + 8 := by
      unfold logtmComputeAddrLogPointerOffset
      omega
    have data : logtmComputeDataLogPointer logBase (i + 1) - 64#64 =
        logtmComputeDataLogPointer logBase i := by
      change logBase + BitVec.ofNat 64 (logtmComputeDataLogPointerOffset (i + 1)) - 64#64 =
        logBase + BitVec.ofNat 64 (logtmComputeDataLogPointerOffset i)
      rw [dataOffset, BitVec.ofNat_add, ← BitVec.add_assoc, BitVec.add_sub_cancel]
    have addr : logtmComputeAddrLogPointer logBase (i + 1) + 8#64 =
        logtmComputeAddrLogPointer logBase i := by
      rw [logtmComputeAddrLogPointer_eq, logtmComputeAddrLogPointer_eq, addrOffset,
        BitVec.ofNat_add, BitVec.add_assoc]
    rw [data, addr]

/-- A write outside the log leaves the log as it is. -/
theorem LogHolds.write_outside (log : LogHolds logBase blocks old mem)
    (capacity : blocks.length ≤ 256 * 56) {base : BitVec 64} {length : Nat} {bytes : Nat → UInt8}
    (outside : ∀ addr, InRegion base length addr → ¬ InLog logBase addr) :
    LogHolds logBase blocks old (mem.write base length bytes) where
  data {i block} entry := by
    have bound : i < blocks.length := (List.getElem?_eq_some_iff.mp entry).1
    refine (log.data entry).write_apart (by decide) fun addr slot inside => ?_
    exact outside addr inside (inLog_of_dataSlot (by omega) slot)
  addr {i block} entry := by
    have bound : i < blocks.length := (List.getElem?_eq_some_iff.mp entry).1
    refine (log.addr entry).write_apart (by decide) fun addr slot inside => ?_
    exact outside addr inside (inLog_of_addrSlot (by omega) slot)

/-- One turn of the loop puts the old contents of one block back. -/
private theorem unrollEntry_eq_write (log : LogHolds logBase blocks old mem)
    (capacity : blocks.length ≤ 256 * 56) {i : Nat} {block : BitVec 64}
    (entry : blocks[i]? = some block)
    (outside : ∀ addr, InRegion block 64 addr → ¬ InLog logBase addr) :
    unrollEntry (logtmComputeDataLogPointer logBase i) (logtmComputeAddrLogPointer logBase i) mem =
      mem.write block 64 (old.read block) := by
  have bound : i < blocks.length := (List.getElem?_eq_some_iff.mp entry).1
  have address : mem.load (logtmComputeAddrLogPointer logBase i) 8 = block :=
    load_of_holds (log.addr entry)
  have apart : Apart (logtmComputeDataLogPointer logBase i) (8 * 8) block (8 * 8) :=
    fun addr slot inside => outside addr inside (inLog_of_dataSlot (by omega) slot)
  simp only [unrollEntry, address]
  rw [copyWords_eq_write (by decide) (by decide) apart]
  exact write_congr (log.data entry)

private theorem restore_write (blocks : List (BitVec 64)) (block : BitVec 64) :
    restore blocks old (mem.write block 64 (old.read block)) =
      restore (blocks ++ [block]) old mem := by
  funext addr
  by_cases earlier : ∃ block ∈ blocks, InRegion block 64 addr
  · have later : ∃ other ∈ blocks ++ [block], InRegion other 64 addr := by
      obtain ⟨other, member, inside⟩ := earlier
      exact ⟨other, List.mem_append_left _ member, inside⟩
    rw [restore, restore, if_pos earlier, if_pos later]
  · rw [restore, restore, if_neg earlier]
    by_cases last : InRegion block 64 addr
    · rw [if_pos ⟨block, by simp, last⟩, write_inside last, ByteMemory.read, add_distance]
    · rw [ByteMemory.write_outside last, if_neg]
      rintro ⟨other, member, inside⟩
      rcases List.mem_append.mp member with before | same
      · exact earlier ⟨other, before, inside⟩
      · exact last (List.mem_singleton.mp same ▸ inside)

variable (aligned : PageAligned logBase) (capacity : blocks.length ≤ 256 * 56)
  (outside : ∀ block ∈ blocks, ∀ addr, InRegion block 64 addr → ¬ InLog logBase addr)

include aligned capacity outside

/-- From an entry on, the loop restores the blocks of that entry and of all earlier ones. -/
private theorem unrollLoop_eq_restore
    {i : Nat} (bound : i < blocks.length) (log : LogHolds logBase blocks old mem) :
    unrollLoop logBase i (logtmComputeDataLogPointer logBase i)
        (logtmComputeAddrLogPointer logBase i) mem =
      restore (blocks.take (i + 1)) old mem := by
  have entry : blocks[i]? = some blocks[i] := List.getElem?_eq_getElem bound
  have apart := outside blocks[i] (List.getElem_mem bound)
  -- The loop writes only program blocks, so the log it still has to read stays.
  induction i generalizing mem with
  | zero =>
    rw [unrollLoop, unrollEntry_eq_write log capacity entry apart,
      List.take_succ_eq_append_getElem bound, ← restore_write]
    funext addr
    simp [restore]
  | succ i ih =>
    have earlier : i < blocks.length := by omega
    rw [unrollLoop_succ aligned, unrollEntry_eq_write log capacity entry apart,
      ih earlier (log.write_outside capacity apart) (List.getElem?_eq_getElem earlier)
        (outside _ (List.getElem_mem earlier)),
      restore_write, List.take_succ_eq_append_getElem bound]

/-- Unrolling the log of a list of blocks restores exactly those blocks. -/
theorem logtmLogUnroll_eq_restore (log : LogHolds logBase blocks old mem) :
    logtmLogUnroll logBase blocks.length mem = restore blocks old mem := by
  cases size : blocks.length with
  | zero =>
    obtain rfl := List.length_eq_zero_iff.mp size
    funext addr
    simp [logtmLogUnroll, restore]
  | succ last =>
    have unrolled := unrollLoop_eq_restore aligned capacity outside (by omega : last < _) log
    rw [logtmComputeAddrLogPointer_eq, ← size, List.take_length] at unrolled
    exact unrolled

end Unroll

end Gem5.Htmrt
