import Gem5.Mem.Htm
import Mathlib.Data.Fintype.Pi
import Std.Data.ExtTreeMap

/-!
# Ruby addresses, machines, data blocks and the L0 data cache

A block has `n` bytes, the value of `RubySystem::getBlockSizeBytes`.  A data block
gives each byte offset its value and a write mask gives each byte offset a bit,
so an out-of-range offset cannot be written; the range assertions of
`WriteMask::setMask` and `DataBlock::setData` are checked where offsets come in.
-/

namespace Gem5.Ruby

open Foundation

/-- Physical addresses. -/
abbrev Addr := Nat

/-- Simulated time. -/
abbrev Cycles := Nat

/-- `makeLineAddress`: the address of the first byte of the block. -/
def makeLineAddress (n : Nat) (addr : Addr) : Addr :=
  addr - addr % n

/-- A line address is its own line address. -/
@[simp] theorem makeLineAddress_idem (n : Nat) (addr : Addr) :
    makeLineAddress n (makeLineAddress n addr) = makeLineAddress n addr := by
  have aligned : (addr - addr % n) % n = 0 := Nat.sub_mod_eq_zero_of_mod_eq (Nat.mod_mod _ _).symm
  simp [makeLineAddress, aligned]

/-- `MachineType`, with the machines of the `MESI_Three_Level_HTM_umu` protocol; `num`
is the invalid type of `createInvalidMachineID`. -/
inductive MachineType where
  | l0Cache
  | l1Cache
  | l2Cache
  | directory
  | dma
  | num
  deriving DecidableEq, Repr

/-- `MachineID`. -/
structure MachineID where
  type : MachineType
  num : Nat
  deriving DecidableEq, Repr

/-- `createInvalidMachineID`. -/
def createInvalidMachineID : MachineID := ⟨.num, 0⟩

/-- `TransactionBit`: whether a request comes from a transaction. -/
inductive TransactionBit where
  | nonTrans
  | trans
  deriving DecidableEq, Repr

/-- `isTransactionalRequest`. -/
def isTransactionalRequest (bit : TransactionBit) : Bool :=
  bit = .trans

/-- The bytes of one block. -/
abbrev DataBlock (n : Nat) := Fin n → UInt8

namespace DataBlock

variable {n : Nat}

/-- `DataBlock::equal`. -/
def equal (block other : DataBlock n) : Bool :=
  block = other

/-- `DataBlock::setData`: overwrite `len` bytes from `offset` on. -/
def setData (block : DataBlock n) (data : Nat → UInt8) (offset len : Nat) : DataBlock n :=
  fun i => if offset ≤ i ∧ i < offset + len then data (i - offset) else block i

end DataBlock

/-- One bit for each byte of a block. -/
abbrev WriteMask (n : Nat) := Fin n → Bool

namespace WriteMask

variable {n : Nat}

/-- `WriteMask()`: no byte set. -/
def empty : WriteMask n := fun _ => false

/-- `WriteMask::setMask`. -/
def setMask (mask : WriteMask n) (offset len : Nat) : Checked (WriteMask n) := do
  assertThat (offset + len ≤ n) "mSize >= (offset + len)"
  return fun i => if offset ≤ i ∧ i < offset + len then true else mask i

end WriteMask

/-- `DataBlock::comparePartial`: equality on the bytes of the mask. -/
def DataBlock.comparePartial {n : Nat} (block other : DataBlock n) (mask : WriteMask n) : Bool :=
  decide (∀ i, mask i = true → block i = other i)

/-- `DataBlock::copyPartial`: take the bytes of the mask from the other block. -/
def DataBlock.copyPartial {n : Nat} (block other : DataBlock n) (mask : WriteMask n) :
    DataBlock n :=
  fun i => if mask i then other i else block i

/-- The access permissions `CacheMemory::tryCacheAccess` distinguishes. -/
inductive AccessPermission where
  | readWrite
  | readOnly
  | busy
  | invalid
  deriving DecidableEq, Repr

/-- `RubyRequestType`, as far as the sequencer and the cache tell the types apart. -/
inductive RubyRequestType where
  | ld
  | ifetch
  | st
  | rmwRead
  | lockedRmwRead
  | lockedRmwWrite
  deriving DecidableEq, Repr

/-- The types that only need a copy to read. -/
def RubyRequestType.isLoad (type : RubyRequestType) : Bool :=
  type = .ld || type = .ifetch

/-- An L0 cache line. -/
structure CacheEntry (n : Nat) where
  permission : AccessPermission
  data : DataBlock n
  dirty : Bool

/-- The lines of the L0 data cache by line address. -/
abbrev CacheMemory (n : Nat) := Std.ExtTreeMap Addr (CacheEntry n)

/-- `CacheMemory::tryCacheAccess`: whether the line is present with a sufficient permission. -/
def CacheMemory.tryCacheAccess {n : Nat} (cache : CacheMemory n) (addr : Addr)
    (type : RubyRequestType) : Bool :=
  match cache[addr]? with
  | some entry =>
    entry.permission = .readWrite || (entry.permission = .readOnly && type.isLoad)
  | none => false

end Gem5.Ruby
