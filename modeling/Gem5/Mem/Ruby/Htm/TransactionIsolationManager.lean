import Gem5.Mem.Ruby.Common
import Std.Data.ExtTreeSet

/-!
# `TransactionIsolationManager`

The read and write sets of the transaction of one core.  A read-set entry
remembers how far its load has come; write-set entries always carry the same
mark (`RETIRED_STORE`), so the write set and the set of blocks redirected to the
lazy write buffer are plain sets of line addresses.
-/

namespace Gem5.Ruby

open Foundation

/-- The mark of a read-set entry: `EXECUTED_LOAD`, `RETIRED_LOAD` or `OVERTAKING_LOAD`. -/
inductive LoadMark where
  | executed
  | retired
  | overtaking
  deriving DecidableEq, Repr

/-- The sets of `TransactionIsolationManager`. -/
structure TransactionIsolationManager where
  readSet : Std.ExtTreeMap Addr LoadMark
  writeSet : Std.ExtTreeSet Addr
  writeSetInWriteBuffer : Std.ExtTreeSet Addr

namespace TransactionIsolationManager

variable (n : Nat) (iso : TransactionIsolationManager)

/-- The sets before the first transaction. -/
def init : TransactionIsolationManager := ⟨∅, ∅, ∅⟩

/-- `beginTransaction`: transactional loads may have overtaken the begin, so the read set stays. -/
def beginTransaction : TransactionIsolationManager :=
  { iso with writeSet := ∅ }

/-- `releaseIsolation`, which `abortTransaction` of this class repeats. -/
def releaseIsolation (_ : TransactionIsolationManager) : TransactionIsolationManager :=
  ⟨∅, ∅, ∅⟩

/-- `releaseReadIsolation`. -/
def releaseReadIsolation : TransactionIsolationManager :=
  { iso with readSet := ∅ }

/-- `commitTransaction`: with precise tracking every read must have retired. -/
def commitTransaction (precise : Bool) : Checked TransactionIsolationManager := do
  assertThat (precise = true → iso.readSet.toList.all (fun entry => entry.2 = .retired))
    "ii->second == RETIRED_LOAD"
  return iso.releaseIsolation

/-- `isInReadSetPerfectFilter`, at transaction level `level`. -/
def isInReadSetPerfectFilter (level : Nat) (precise : Bool) (addr : Addr) : Checked Bool :=
  match iso.readSet[makeLineAddress n addr]? with
  | some mark => do
    assertThat (level = 0 → mark ≠ .retired) "it->second != RETIRED_LOAD"
    assertThat (precise = true → mark = .retired) "it->second == RETIRED_LOAD"
    return true
  | none => return false

/-- `isInWriteSetPerfectFilter`. -/
def isInWriteSetPerfectFilter (addr : Addr) : Bool :=
  iso.writeSet.contains (makeLineAddress n addr)

/-- `addToReadSetPerfectFilter`, at transaction level `level`. -/
def addToReadSetPerfectFilter (level : Nat) (addr : Addr) : TransactionIsolationManager :=
  { iso with
    readSet := iso.readSet.insertIfNew (makeLineAddress n addr)
      (if level = 0 then .overtaking else .executed) }

/-- `addToRetiredReadSet`. -/
def addToRetiredReadSet (addr : Addr) : Checked TransactionIsolationManager :=
  match iso.readSet[makeLineAddress n addr]? with
  | some mark => do
    assertThat (mark = .overtaking ∨ mark = .executed) "it->second == EXECUTED_LOAD"
    return { iso with readSet := iso.readSet.insert (makeLineAddress n addr) .retired }
  | none => .error (.assertion "it != m_readSet.end()")

/-- `inRetiredReadSet`, for a block of the read set. -/
def inRetiredReadSet (addr : Addr) : Bool :=
  iso.readSet[makeLineAddress n addr]? = some .retired

/-- `wasOvertakingRead`. -/
def wasOvertakingRead (addr : Addr) : Checked Bool :=
  match iso.readSet[addr]? with
  | some mark => return mark = .overtaking
  | none => .error (.assertion "it != m_readSet.end()")

/-- `addToWriteSetPerfectFilter`. -/
def addToWriteSetPerfectFilter (addr : Addr) : TransactionIsolationManager :=
  { iso with writeSet := iso.writeSet.insert (makeLineAddress n addr) }

/-- `redirectedStoreToWriteBuffer`. -/
def redirectedStoreToWriteBuffer (addr : Addr) : TransactionIsolationManager :=
  { iso with writeSetInWriteBuffer := iso.writeSetInWriteBuffer.insert addr }

/-- `isRedirectedStoreToWriteBuffer`. -/
def isRedirectedStoreToWriteBuffer (addr : Addr) : Bool :=
  iso.writeSetInWriteBuffer.contains addr

/-- The loop of `hasConflictWith` over buffered blocks of the ongoing committer; `level` is the
transaction level of the new one. -/
def conflictsWithAny (newCommitter : TransactionIsolationManager) (level : Nat) (precise : Bool) :
    List Addr → Checked Bool
  | [] => return false
  | waddr :: rest => do
    let isRead ← newCommitter.isInReadSetPerfectFilter n level precise waddr
    if isRead then return true
    else if newCommitter.isRedirectedStoreToWriteBuffer waddr then return true
    else newCommitter.conflictsWithAny level precise rest

/-- `hasConflictWith`: the write buffer of this committer against the read set and the write buffer
of the new one. -/
def hasConflictWith (newCommitter : TransactionIsolationManager) (level : Nat) (precise : Bool) :
    Checked Bool :=
  newCommitter.conflictsWithAny n level precise iso.writeSetInWriteBuffer.toList

/-- No block buffered for writing by the one is read or buffered by the other. -/
def ConflictFree (iso other : TransactionIsolationManager) : Prop :=
  ∀ addr, iso.writeSetInWriteBuffer.contains addr = true →
    other.readSet.contains addr = false ∧ other.writeSetInWriteBuffer.contains addr = false

/-- No block was added to the read set or to the write buffer. -/
def AddsNoBlock (iso next : TransactionIsolationManager) : Prop :=
  (∀ addr, next.readSet.contains addr = true → iso.readSet.contains addr = true) ∧
  (∀ addr, next.writeSetInWriteBuffer.contains addr = true →
    iso.writeSetInWriteBuffer.contains addr = true)

variable {n iso} {level : Nat} {precise : Bool} {addr : Addr}

/-- A successful read-set query answers membership of the block. -/
theorem isInReadSetPerfectFilter_ok {answer : Bool}
    (queried : iso.isInReadSetPerfectFilter n level precise addr = .ok answer) :
    answer = iso.readSet.contains (makeLineAddress n addr) := by
  rw [Std.ExtTreeMap.contains_eq_isSome_getElem?]
  unfold isInReadSetPerfectFilter at queried
  split at queried <;> simp_all

private theorem conflictsWithAny_false {newCommitter : TransactionIsolationManager}
    {blocks : List Addr}
    (checked : newCommitter.conflictsWithAny n level precise blocks = .ok false) :
    ∀ waddr ∈ blocks, newCommitter.readSet.contains (makeLineAddress n waddr) = false ∧
      newCommitter.writeSetInWriteBuffer.contains waddr = false := by
  induction blocks with
  | nil => simp
  | cons block rest ih =>
    simp only [conflictsWithAny, bind_eq_ok] at checked
    obtain ⟨isRead, queried, checked⟩ := checked
    have answer := isInReadSetPerfectFilter_ok queried
    split at checked
    · simp at checked
    · next unread =>
      split at checked
      · simp at checked
      · next unbuffered =>
        intro waddr member
        rcases List.mem_cons.mp member with rfl | later
        · exact ⟨by rw [← answer]; simpa using unread, Bool.eq_false_iff.mpr unbuffered⟩
        · exact ih checked waddr later

/-- If the check finds nothing the committers are conflict free, provided that the buffer holds line
addresses. -/
theorem conflictFree_of_hasConflictWith {newCommitter : TransactionIsolationManager}
    (aligned : ∀ waddr, iso.writeSetInWriteBuffer.contains waddr = true →
      makeLineAddress n waddr = waddr)
    (checked : iso.hasConflictWith n newCommitter level precise = .ok false) :
    iso.ConflictFree newCommitter := by
  intro waddr buffered
  have free := conflictsWithAny_false checked waddr
    (by simpa [Std.ExtTreeSet.mem_toList] using buffered)
  rwa [aligned waddr buffered] at free

/-- Doing nothing adds no block. -/
theorem AddsNoBlock.refl (iso : TransactionIsolationManager) : iso.AddsNoBlock iso :=
  ⟨fun _ => id, fun _ => id⟩

/-- Transactions that add no block stay conflict free. -/
theorem ConflictFree.mono {next other after : TransactionIsolationManager}
    (free : iso.ConflictFree other) (first : iso.AddsNoBlock next)
    (second : other.AddsNoBlock after) : next.ConflictFree after := by
  intro addr buffered
  obtain ⟨unread, unbuffered⟩ := free addr (first.2 addr buffered)
  refine ⟨?_, ?_⟩
  · by_contra reads
    simp [second.1 addr (by simpa using reads)] at unread
  · by_contra buffers
    simp [second.2 addr (by simpa using buffers)] at unbuffered

end TransactionIsolationManager

end Gem5.Ruby
