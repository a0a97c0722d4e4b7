import Gem5.Foundation.Overlay
import Gem5.Mem.Ruby.Htm.ValueForwarding

/-!
# The history of a forwarded block

What a transaction does to a block it received: the bytes it stored, the values it read
before validation, and the block that arrived with permissions.  Three copies of the
block exist meanwhile, the buffered one, the cache line and the one a validation brings;
the access mask ties them together.
-/

namespace Gem5.Ruby

open Foundation

/-- A byte read by the transaction: its value, and the last own store to the byte before. -/
structure ByteRead (n : Nat) where
  offset : Fin n
  value : UInt8
  own : Option UInt8

/-- What the transaction did to a received block. -/
structure BlockHistory (n : Nat) where
  stored : Fin n → Option UInt8
  reads : List (ByteRead n)
  validated : Option (DataBlock n)

namespace BlockHistory

variable {n : Nat}

/-- A block that has just been received. -/
def fresh (n : Nat) : BlockHistory n := ⟨fun _ => none, [], none⟩

/-- The transaction stores `len` bytes from `offset` on. -/
def store (history : BlockHistory n) (data : Nat → UInt8) (offset len : Nat) : BlockHistory n :=
  { history with
    stored := patchOn (fun i : Fin n => offset ≤ i ∧ i < offset + len)
      (fun i => data (i - offset)) history.stored }

/-- The bytes of a load of `len` bytes from `offset` on. -/
def bytesRead (history : BlockHistory n) (line : DataBlock n) (offset len : Nat) :
    List (ByteRead n) :=
  ((List.finRange n).filter fun i : Fin n => offset ≤ i ∧ i < offset + len).map
    fun i => ⟨i, line i, history.stored i⟩

/-- The transaction loads from the line; only loads before validation are followed. -/
def load (history : BlockHistory n) (line : DataBlock n) (offset len : Nat) : BlockHistory n :=
  match history.validated with
  | none => { history with reads := history.reads ++ history.bytesRead line offset len }
  | some _ => history

/-- Every byte read had the value of the block, or of the own store before the read. -/
def ReadsFrom (history : BlockHistory n) (block : DataBlock n) : Prop :=
  ∀ read ∈ history.reads, read.value = read.own.getD (block read.offset)

/-- The block as the transaction leaves it. -/
def result (history : BlockHistory n) (block : DataBlock n) : DataBlock n :=
  overlay block history.stored

/-- A block that is not validated yet, with its cache line and its buffered copy. -/
structure Unvalidated (history : BlockHistory n) (line : CacheEntry n)
    (buffered : DataForwarded n) :
    Prop where
  dirty : line.dirty = true
  line : line.data = history.result buffered.data
  reads : history.ReadsFrom buffered.data
  storedMask : ∀ i, (history.stored i).isSome = true → buffered.mask i = true
  readMask : ∀ read ∈ history.reads, buffered.mask read.offset = true

/-- A validated block with its cache line. -/
structure Validated (history : BlockHistory n) (line : CacheEntry n) (block : DataBlock n) :
    Prop where
  line : line.data = history.result block
  reads : history.ReadsFrom block

variable {history : BlockHistory n} {line : CacheEntry n} {buffered : DataForwarded n}
variable {block data : DataBlock n} {bytes : Nat → UInt8} {offset len : Nat} {read : ByteRead n}

/-- A block just received is not validated. -/
theorem unvalidated_fresh (data : DataBlock n) (permission : AccessPermission) :
    (fresh n).Unvalidated ⟨permission, data, true⟩ ⟨data, false, WriteMask.empty, 0⟩ where
  dirty := rfl
  line := rfl
  reads := by simp [ReadsFrom, fresh]
  storedMask := by simp [fresh]
  readMask := by simp [fresh]

private theorem mem_bytesRead : read ∈ history.bytesRead data offset len ↔
    (offset ≤ read.offset ∧ read.offset < offset + len) ∧ read.value = data read.offset ∧
      read.own = history.stored read.offset := by
  obtain ⟨i, value, own⟩ := read
  simp only [bytesRead, List.mem_map, List.mem_filter, List.mem_finRange, true_and,
    decide_eq_true_eq, ByteRead.mk.injEq]
  constructor
  · rintro ⟨j, inside, rfl, rfl, rfl⟩
    exact ⟨inside, rfl, rfl⟩
  · rintro ⟨inside, rfl, rfl⟩
    exact ⟨i, inside, rfl, rfl, rfl⟩

private theorem load_of_none (pending : history.validated = none) : history.load data offset len =
    { history with reads := history.reads ++ history.bytesRead data offset len } := by
  simp [load, pending]

/-- Loads of a validated block are not followed. -/
theorem load_of_some (validated : history.validated = some block) :
    history.load data offset len = history := by
  simp [load, validated]

/-- A store does not validate. -/
@[simp] theorem store_validated : (history.store bytes offset len).validated = history.validated :=
  rfl

/-- A load does not validate. -/
@[simp] theorem load_validated : (history.load data offset len).validated = history.validated := by
  unfold load
  split
  · rfl
  · rfl

/-- A store to the line is a store to the result. -/
theorem result_store : (history.store bytes offset len).result block =
    (history.result block).setData bytes offset len :=
  overlay_patchOn ..

/-- The mask follows a load or a store of `len` bytes from `offset` on. -/
theorem Unvalidated.load (unvalidated : history.Unvalidated line buffered)
    (pending : history.validated = none) {mask : WriteMask n}
    (masked : buffered.mask.setMask offset len = .ok mask) (modified : Bool) :
    (history.load line.data offset len).Unvalidated line
      { buffered with mask := mask, modified := modified } := by
  simp only [WriteMask.setMask, run_eq_ok] at masked
  obtain ⟨-, rfl⟩ := masked
  rw [load_of_none pending]
  refine ⟨unvalidated.dirty, unvalidated.line, ?_, ?_, ?_⟩
  · intro read listed
    rcases List.mem_append.mp listed with earlier | now
    · exact unvalidated.reads read earlier
    · obtain ⟨-, value, own⟩ := mem_bytesRead.mp now
      rw [value, own, unvalidated.line]
      rfl
  · intro i stored
    have before := unvalidated.storedMask i stored
    simp only [before]
    split <;> rfl
  · intro read listed
    rcases List.mem_append.mp listed with earlier | now
    · have before := unvalidated.readMask read earlier
      simp only [before]
      split <;> rfl
    · exact if_pos (mem_bytesRead.mp now).1

/-- A store to a block that is not validated is followed. -/
theorem Unvalidated.store (unvalidated : history.Unvalidated line buffered) {mask : WriteMask n}
    (masked : buffered.mask.setMask offset len = .ok mask) (modified : Bool) :
    (history.store bytes offset len).Unvalidated
      { line with data := line.data.setData bytes offset len, dirty := true }
      { buffered with mask := mask, modified := modified } := by
  simp only [WriteMask.setMask, run_eq_ok] at masked
  obtain ⟨-, rfl⟩ := masked
  refine ⟨rfl, ?_, unvalidated.reads, ?_, ?_⟩
  · rw [result_store, ← unvalidated.line]
  · intro i stored
    simp only [BlockHistory.store, patchOn] at stored
    split at stored
    · next inside => exact if_pos inside
    · next outside => exact (if_neg outside).trans (unvalidated.storedMask i stored)
  · intro read listed
    have before := unvalidated.readMask read listed
    simp only [before]
    split <;> rfl

/-- A store to a validated block is followed. -/
theorem Validated.store (validated : history.Validated line block) :
    (history.store bytes offset len).Validated
      { line with data := line.data.setData bytes offset len, dirty := true } block where
  line := by rw [result_store, ← validated.line]
  reads := validated.reads

section Validation

variable {params : HTMParams} {count : Nat}

open TransactionInterfaceManager

/-- A comparison that passes leaves the arrived block in the buffer and, below the own stores, in
the line; on the accessed bytes it is the block the transaction has worked on. -/
theorem Unvalidated.compare {after : DataForwarded n} {left : DataBlock n}
    (unvalidated : history.Unvalidated line buffered)
    (passes : compareForwardedData params { buffered with nVal := count } line.data block
      line.dirty = (true, after, left)) :
    after.data = block ∧ after.mask = buffered.mask ∧ left = history.result block ∧
      ∀ i, buffered.mask i = true → buffered.data i = block i := by
  simp only [compareForwardedData, unvalidated.dirty, ↓reduceIte] at passes
  repeat' split at passes
  all_goals
    obtain ⟨checked, rfl, rfl⟩ : _ ∧ _ ∧ _ := by simpa only [Prod.mk.injEq] using passes
  · next same =>
    simp only [DataBlock.equal, decide_eq_true_eq] at same
    exact ⟨same, rfl, same ▸ unvalidated.line, fun i _ => congrFun same i⟩
  · simp only [DataBlock.comparePartial, decide_eq_true_eq] at checked
    refine ⟨rfl, rfl, ?_, checked⟩
    rw [unvalidated.line]
    exact overlay_of_mask unvalidated.storedMask checked
  · simp only [DataBlock.equal, decide_eq_true_eq] at checked
    exact ⟨checked, rfl, checked ▸ unvalidated.line, fun i _ => congrFun checked i⟩

/-- What was read stays right when the accessed bytes do not change. -/
theorem Unvalidated.readsFrom (unvalidated : history.Unvalidated line buffered)
    (agree : ∀ i, buffered.mask i = true → buffered.data i = block i) :
    history.ReadsFrom block := by
  intro read listed
  rw [unvalidated.reads read listed, agree read.offset (unvalidated.readMask read listed)]

end Validation

end BlockHistory

end Gem5.Ruby
