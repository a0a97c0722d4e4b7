import Gem5.Mem.Ruby.Htm.ConflictResolution

/-!
# The isolation checker

`XactIsolationChecker` is a debugging aid beside the conflict managers: it keeps its
own copy of the retired read set and of the write set of every processor, and each
access that hits is compared with the copies of the other processors.  The manager
of a core adds to its copy where a load retires or a store is isolated, clears it at
the end of a transaction, and takes a single address out of it whenever
`setAbortFlag` is called for that address.  The copies are modelled next to the
managers, for any number of cores; all other calls of a manager are one event that
leaves its sets and its abort state alone.
-/

namespace Gem5.Ruby

open Foundation TransactionInterfaceManager

/-- The two sets of a transaction. -/
inductive BlockSet where
  | read
  | write
  deriving DecidableEq, Repr

/-- What `XactIsolationChecker` keeps for one processor.  The times at which blocks were added only
appear in messages and are left out. -/
structure IsolationCopy where
  readSet : Std.ExtTreeSet Addr
  writeSet : Std.ExtTreeSet Addr
  abortingProcessor : Bool

namespace IsolationCopy

variable (copy : IsolationCopy) (addr : Addr)

/-- Nothing is isolated. -/
def init : IsolationCopy := ⟨∅, ∅, false⟩

/-- `addToReadSet`. -/
def addToReadSet : IsolationCopy := { copy with readSet := copy.readSet.insert addr }

/-- `addToWriteSet`. -/
def addToWriteSet : IsolationCopy := { copy with writeSet := copy.writeSet.insert addr }

/-- `removeFromReadSet`. -/
def removeFromReadSet : IsolationCopy := { copy with readSet := copy.readSet.erase addr }

/-- `removeFromWriteSet`. -/
def removeFromWriteSet : IsolationCopy := { copy with writeSet := copy.writeSet.erase addr }

/-- `clearReadSet`. -/
def clearReadSet : IsolationCopy := { copy with readSet := ∅ }

/-- `clearWriteSet`. -/
def clearWriteSet : IsolationCopy := { copy with writeSet := ∅ }

/-- The copy of one set. -/
def set : BlockSet → Std.ExtTreeSet Addr
  | .read => copy.readSet
  | .write => copy.writeSet

end IsolationCopy

/-- The checker: one copy for each processor. -/
abbrev XactIsolationChecker (count : Nat) := Fin count → IsolationCopy

namespace XactIsolationChecker

variable {count : Nat} (checker : XactIsolationChecker count)

/-- The body of the loop of `checkXACTIsolation` at processor `i`; `ok` is the verdict so far.
Atomic accesses are checked like stores. -/
def checkAgainst (proc : Fin count) (addr : Addr) (trans : Bool) (accessType : RubyRequestType)
    (ok : Bool) (i : Fin count) : Checked Bool :=
  if i = proc then return ok
  else if (checker i).abortingProcessor then return ok
  else match accessType with
    | .ld =>
      if (checker i).writeSet.contains addr && (checker proc).readSet.contains addr then do
        assertThat (trans = true) "trans"
        return false
      else return ok
    | .st =>
      return ok && !(checker i).readSet.contains addr && !(checker i).writeSet.contains addr
    | _ => return ok

/-- `checkXACTIsolation`. -/
def checkXACTIsolation (n : Nat) (proc : Fin count) (addr : Addr) (trans : Bool)
    (accessType : RubyRequestType) : Checked Bool :=
  (List.finRange count).foldlM
    (checker.checkAgainst proc (makeLineAddress n addr) trans accessType) true

/-- The access of `proc` meets the copy of `i`. -/
def Meets (proc i : Fin count) (addr : Addr) : RubyRequestType → Prop
  | .ld => addr ∈ (checker i).writeSet ∧ addr ∈ (checker proc).readSet
  | .st => addr ∈ (checker i).readSet ∨ addr ∈ (checker i).writeSet
  | _ => False

variable {checker} {proc : Fin count} {addr : Addr} {trans : Bool} {accessType : RubyRequestType}

private theorem checkAgainst_eq_ok_true {ok : Bool} {i : Fin count} :
    checker.checkAgainst proc addr trans accessType ok i = .ok true ↔ ok = true ∧
      (i ≠ proc → (checker i).abortingProcessor = false →
        ¬ checker.Meets proc i addr accessType) := by
  unfold checkAgainst Meets
  by_cases own : i = proc
  · simp [own]
  · cases aborting : (checker i).abortingProcessor with
    | true => simp [own]
    | false =>
      cases accessType with
      | ld =>
        by_cases met : addr ∈ (checker i).writeSet ∧ addr ∈ (checker proc).readSet
        · simp [own, met.1, met.2]
        · simp only [own, ↓reduceIte, Bool.false_eq_true, Bool.and_eq_true,
            Std.ExtTreeSet.contains_iff_mem, met, pure_eq_ok]
          simp
      | st => simp [own, and_assoc, ← Std.ExtTreeSet.contains_iff_mem]
      | _ => simp [own]

/-- The access passes if it meets no copy of another processor. -/
theorem checkXACTIsolation_eq_ok_true {n : Nat} :
    checker.checkXACTIsolation n proc addr trans accessType = .ok true ↔
      ∀ i, i ≠ proc → (checker i).abortingProcessor = false →
        ¬ checker.Meets proc i (makeLineAddress n addr) accessType := by
  have loop : ∀ (others : List (Fin count)) (ok : Bool),
      others.foldlM (checker.checkAgainst proc (makeLineAddress n addr) trans accessType) ok =
          .ok true ↔ ok = true ∧ ∀ i ∈ others, i ≠ proc → (checker i).abortingProcessor = false →
        ¬ checker.Meets proc i (makeLineAddress n addr) accessType := by
    intro others
    induction others with
    | nil => simp
    | cons i rest ih =>
      intro ok
      rw [List.foldlM_cons, bind_eq_ok]
      simp only [ih, List.forall_mem_cons]
      constructor
      · rintro ⟨_, checked, rfl, later⟩
        obtain ⟨isOk, free⟩ := checkAgainst_eq_ok_true.mp checked
        exact ⟨isOk, free, later⟩
      · rintro ⟨isOk, free, later⟩
        exact ⟨true, checkAgainst_eq_ok_true.mpr ⟨isOk, free⟩, rfl, later⟩
  simp [checkXACTIsolation, loop]

end XactIsolationChecker

/-! ## A manager with its copy -/

/-- The manager of a core and its copy in the checker. -/
structure CheckedManager (params : HTMParams) (n : Nat) where
  mgr : TransactionInterfaceManager params n
  copy : IsolationCopy

/-- The calls of a manager that change its sets, its abort flag or its copy.  Every other call is an
`other` with the manager it leaves. -/
inductive IsolationCall (params : HTMParams) (n : Nat) where
  | isolateTransactionLoad (addr : Addr)
  | addToRetiredReadSet (addr : Addr)
  | isolateTransactionStore (addr : Addr)
  | setAbortFlag (signal : AbortSignal)
  | beginTransaction (pkt : HtmPacket)
  | commitTransaction (htm : HTM)
  | abortTransaction (htm : HTM)
  | other (next : TransactionInterfaceManager params n)

namespace CheckedManager

variable {params : HTMParams} {n : Nat} (core : CheckedManager params n)

/-- What `setAbortFlag` takes out of the copy. -/
def prune (addr : Addr) : Checked IsolationCopy := do
  let inReadSet ← core.mgr.checkReadSignature addr
  let copy := if inReadSet then core.copy.removeFromReadSet addr else core.copy
  return if core.mgr.checkWriteSignature addr then copy.removeFromWriteSet addr else copy

/-- What `abortTransaction` clears: LogTM keeps the write set until the log is unrolled. -/
def clearOnAbort : IsolationCopy :=
  if params.lazyVm || core.mgr.eagerVersion.logNumEntries = 0 then
    core.copy.clearReadSet.clearWriteSet
  else core.copy.clearReadSet

/-- A call with the checker on. -/
def take : IsolationCall params n → Checked (CheckedManager params n)
  | .isolateTransactionLoad addr => do
    let mgr ← core.mgr.isolateTransactionLoad addr
    return { core with mgr := mgr }
  | .addToRetiredReadSet addr => do
    let mgr ← core.mgr.addToRetiredReadSet addr
    return ⟨mgr, core.copy.addToReadSet (makeLineAddress n addr)⟩
  | .isolateTransactionStore addr => do
    let mgr ← core.mgr.isolateTransactionStore addr
    return ⟨mgr, core.copy.addToWriteSet (makeLineAddress n addr)⟩
  | .setAbortFlag signal => do
    let mgr ← core.mgr.setAbortFlag signal
    let copy ← core.prune signal.addr
    return ⟨mgr, copy⟩
  | .beginTransaction pkt => do
    let mgr ← core.mgr.beginTransaction pkt
    return { core with mgr := mgr }
  | .commitTransaction htm => do
    let (mgr, _) ← core.mgr.commitTransaction htm
    return ⟨mgr, core.copy.clearReadSet.clearWriteSet⟩
  | .abortTransaction htm => do
    let (mgr, _) ← core.mgr.abortTransaction htm
    return ⟨mgr, core.clearOnAbort⟩
  | .other next => return { core with mgr := next }

/-- The other calls leave the sets and the abort state alone. -/
def Admits : IsolationCall params n → Prop
  | .other next => next.isolation = core.mgr.isolation ∧ next.abort = core.mgr.abort ∧
      next.transactionLevel = core.mgr.transactionLevel
  | _ => True

/-- Before the first transaction nothing is isolated. -/
def Starts : Prop :=
  core.mgr.isolation = .init ∧ core.mgr.transactionLevel = 0 ∧ core.copy = .init

/-- The runs of one core. -/
def system (params : HTMParams) (n : Nat) :
    TransitionSystem (CheckedManager params n) (IsolationCall params n) where
  Initial core := core.Starts
  Step core call next := core.Admits call ∧ core.take call = .ok next

/-- The block is in the perfect filter of a set; of the read set the checker sees the retired
loads. -/
def InFilter : BlockSet → Addr → Prop
  | .read, addr => core.mgr.isolation.readSet[addr]? = some .retired
  | .write, addr => addr ∈ core.mgr.isolation.writeSet

end CheckedManager

namespace IsolationCall

variable {params : HTMParams}

/-- The call puts the block into the copy of a set. -/
def enters {n : Nat} (addr : Addr) : BlockSet → IsolationCall params n → Bool
  | .read, .addToRetiredReadSet access => makeLineAddress n access = addr
  | .write, .isolateTransactionStore access => makeLineAddress n access = addr
  | _, _ => false

/-- The call signals an abort at the block. -/
def signals {n : Nat} (addr : Addr) : IsolationCall params n → Bool
  | .setAbortFlag signal => signal.addr = addr
  | _ => false

/-- One of the named calls. -/
def isKnown {n : Nat} : IsolationCall params n → Bool
  | .other _ => false
  | _ => true

/-- Some abort has been signalled at the block since it last entered the set. -/
def signalledSince {n : Nat} (calls : List (IsolationCall params n)) (kind : BlockSet)
    (addr : Addr) : Bool :=
  calls.foldl (fun signalled call =>
    if call.enters addr kind then false else signalled || call.signals addr) false

private theorem signalledSince_append {n : Nat} {calls : List (IsolationCall params n)}
    {call : IsolationCall params n} {kind : BlockSet} {addr : Addr} :
    signalledSince (calls ++ [call]) kind addr = if call.enters addr kind then false
      else signalledSince calls kind addr || call.signals addr := by
  simp [signalledSince]

end IsolationCall

namespace CheckedManager

variable {params : HTMParams} {n : Nat} {core next : CheckedManager params n}
  {calls : List (IsolationCall params n)}

open IsolationCall

/-- The copy of a core after some calls: of the blocks in its sets, those at which no abort has been
signalled. -/
structure Tracks (calls : List (IsolationCall params n)) (core : CheckedManager params n) :
    Prop where
  copies : ∀ kind addr, addr ∈ core.copy.set kind ↔
    core.InFilter kind addr ∧ signalledSince calls kind addr = false
  aligned : ∀ kind addr, core.InFilter kind addr → makeLineAddress n addr = addr
  outside : core.mgr.transactionLevel = 0 → core.mgr.isolation.writeSet = ∅
  processor : core.copy.abortingProcessor = false

private theorem Starts.tracks (starts : core.Starts) : core.Tracks [] := by
  obtain ⟨isolation, -, copy⟩ := starts
  refine ⟨?_, ?_, ?_, by simp [copy, IsolationCopy.init]⟩
  · intro kind addr
    cases kind <;> simp [InFilter, isolation, copy, IsolationCopy.init, IsolationCopy.set,
      TransactionIsolationManager.init]
  · intro kind addr inside
    cases kind <;> simp [InFilter, isolation, TransactionIsolationManager.init] at inside
  · intro _
    simp [isolation, TransactionIsolationManager.init]

variable {call : IsolationCall params n}

/-- A call that neither fills nor empties the sets nor signals an abort. -/
theorem Tracks.keeps (tracks : core.Tracks calls)
    (filter : ∀ kind addr, next.InFilter kind addr ↔ core.InFilter kind addr)
    (copy : next.copy = core.copy) (neutral : ∀ kind addr, call.enters addr kind = false)
    (silent : ∀ addr, call.signals addr = false)
    (outside : next.mgr.transactionLevel = 0 → next.mgr.isolation.writeSet = ∅) :
    next.Tracks (calls ++ [call]) where
  copies kind addr := by
    rw [copy, filter, signalledSince_append, neutral, silent]
    simpa using tracks.copies kind addr
  aligned kind addr inside := tracks.aligned kind addr ((filter kind addr).mp inside)
  outside := outside
  processor := copy ▸ tracks.processor

variable {line : Addr}

/-- A call that puts one block into a set and its copy. -/
theorem Tracks.adds (tracks : core.Tracks calls) (added : BlockSet)
    (aligned : makeLineAddress n line = line) (filter : ∀ kind addr, next.InFilter kind addr ↔
      core.InFilter kind addr ∨ kind = added ∧ addr = line)
    (copy : ∀ kind addr, addr ∈ next.copy.set kind ↔
      addr ∈ core.copy.set kind ∨ kind = added ∧ addr = line)
    (enters : ∀ kind addr, call.enters addr kind = true ↔ kind = added ∧ addr = line)
    (silent : ∀ addr, call.signals addr = false)
    (outside : next.mgr.transactionLevel = 0 → next.mgr.isolation.writeSet = ∅)
    (processor : next.copy.abortingProcessor = core.copy.abortingProcessor) :
    next.Tracks (calls ++ [call]) where
  copies kind addr := by
    rw [copy, filter, signalledSince_append, silent, tracks.copies]
    by_cases this : kind = added ∧ addr = line
    · rw [if_pos ((enters kind addr).mpr this)]
      simp [this]
    · simp [Bool.eq_false_iff.mpr (mt (enters kind addr).mp this), this]
  aligned kind addr inside := by
    rcases (filter kind addr).mp inside with before | ⟨-, rfl⟩
    · exact tracks.aligned kind addr before
    · exact aligned
  outside := outside
  processor := processor.trans tracks.processor

/-- The end of a transaction. -/
theorem Tracks.clears (isolation : next.mgr.isolation = ⟨∅, ∅, ∅⟩)
    (copy : ∀ kind addr, addr ∉ next.copy.set kind)
    (processor : next.copy.abortingProcessor = false) : next.Tracks (calls ++ [call]) where
  copies kind addr := by
    have empty : ¬ next.InFilter kind addr := by cases kind <;> simp [InFilter, isolation]
    simp [copy, empty]
  aligned kind addr inside := by cases kind <;> simp [InFilter, isolation] at inside
  outside _ := by rw [isolation]
  processor := processor

private theorem mem_erase_iff {blocks : Std.ExtTreeSet Addr} {addr : Addr} :
    addr ∈ blocks.erase line ↔ addr ∈ blocks ∧ addr ≠ line := by
  rw [Std.ExtTreeSet.mem_erase, ne_eq, Std.compare_eq_iff_eq]
  exact ⟨fun ⟨differs, member⟩ => ⟨member, fun same => differs same.symm⟩,
    fun ⟨member, differs⟩ => ⟨fun same => differs same.symm, member⟩⟩

private theorem mem_insert_iff {blocks : Std.ExtTreeSet Addr} {addr : Addr} :
    addr ∈ blocks.insert line ↔ addr ∈ blocks ∨ addr = line := by
  rw [Std.ExtTreeSet.mem_insert, Std.compare_eq_iff_eq, or_comm, eq_comm]

/-- `setAbortFlag` takes exactly its address out of the copies. -/
theorem Tracks.mem_prune (tracks : core.Tracks calls) {copy : IsolationCopy}
    (pruned : core.prune line = .ok copy) : copy.abortingProcessor = false ∧
      ∀ kind addr, addr ∈ copy.set kind ↔ addr ∈ core.copy.set kind ∧ addr ≠ line := by
  simp only [prune, run_eq_ok] at pruned
  obtain ⟨inReadSet, queried, rfl⟩ := pruned
  have answer := TransactionIsolationManager.isInReadSetPerfectFilter_ok queried
  have unread : inReadSet = false → line ∉ core.copy.readSet := by
    intro isFalse member
    obtain ⟨inside, -⟩ := (tracks.copies .read line).mp member
    rw [tracks.aligned .read line inside, Std.ExtTreeMap.contains_eq_isSome_getElem?,
      show core.mgr.isolation.readSet[line]? = some .retired from inside] at answer
    simp [isFalse] at answer
  have unwritten : core.mgr.checkWriteSignature line = false → line ∉ core.copy.writeSet := by
    intro isFalse member
    obtain ⟨inside, -⟩ := (tracks.copies .write line).mp member
    have contained : core.mgr.isolation.writeSet.contains (makeLineAddress n line) = true := by
      rw [tracks.aligned .write line inside]
      exact inside
    simp [checkWriteSignature,
      TransactionIsolationManager.isInWriteSetPerfectFilter, contained] at isFalse
  refine ⟨?_, fun kind addr => ?_⟩
  · cases inReadSet <;> cases core.mgr.checkWriteSignature line <;> exact tracks.processor
  · cases kind with
    | read =>
      cases inReadSet with
      | true =>
        cases core.mgr.checkWriteSignature line <;> exact mem_erase_iff
      | false =>
        have absent := unread rfl
        have same : addr ∈ core.copy.readSet ↔ addr ∈ core.copy.readSet ∧ addr ≠ line :=
          ⟨fun member => ⟨member, fun isLine => absent (isLine ▸ member)⟩, And.left⟩
        cases core.mgr.checkWriteSignature line <;>
          simpa [IsolationCopy.set, IsolationCopy.removeFromWriteSet] using same
    | write =>
      cases inWriteSet : core.mgr.checkWriteSignature line with
      | true =>
        cases inReadSet <;> exact mem_erase_iff
      | false =>
        have absent := unwritten inWriteSet
        have same : addr ∈ core.copy.writeSet ↔ addr ∈ core.copy.writeSet ∧ addr ≠ line :=
          ⟨fun member => ⟨member, fun isLine => absent (isLine ▸ member)⟩, And.left⟩
        cases inReadSet <;>
          simpa [IsolationCopy.set, IsolationCopy.removeFromReadSet] using same

section

variable (tracks : core.Tracks calls)

include tracks

/-- A load that has not retired is not copied. -/
theorem Tracks.isolateTransactionLoad {addr : Addr}
    (taken : core.take (.isolateTransactionLoad addr) = .ok next) :
    next.Tracks (calls ++ [.isolateTransactionLoad addr]) := by
  simp only [take, TransactionInterfaceManager.isolateTransactionLoad, run_eq_ok] at taken
  obtain ⟨_, ⟨-, rfl⟩, rfl⟩ := taken
  refine tracks.keeps (fun kind block => ?_) rfl (fun kind _ => by cases kind <;> rfl)
    (fun _ => rfl) tracks.outside
  cases kind with
  | read =>
    simp only [InFilter, TransactionIsolationManager.addToReadSetPerfectFilter,
      Std.ExtTreeMap.getElem?_insertIfNew]
    split
    · next added =>
      have absent : core.mgr.isolation.readSet[block]? = none := by
        simp only [Std.compare_eq_iff_eq] at added
        exact Std.ExtTreeMap.getElem?_eq_none (added.1 ▸ added.2)
      rw [absent]
      split <;> simp
    · rfl
  | write => rfl

/-- A load retires. -/
theorem Tracks.addToRetiredReadSet {addr : Addr}
    (taken : core.take (.addToRetiredReadSet addr) = .ok next) :
    next.Tracks (calls ++ [.addToRetiredReadSet addr]) := by
  simp only [take, TransactionInterfaceManager.addToRetiredReadSet,
    TransactionIsolationManager.addToRetiredReadSet, run_eq_ok] at taken
  obtain ⟨_, ⟨level, isolation, retired, rfl⟩, rfl⟩ := taken
  split at retired
  · simp only [run_eq_ok] at retired
    obtain ⟨-, rfl⟩ := retired
    refine tracks.adds .read (makeLineAddress_idem n addr) (fun kind block => ?_)
      (fun kind block => ?_) (fun kind block => by cases kind <;> simp [enters, eq_comm])
      (fun _ => rfl) (by simp [level]) rfl
    · cases kind with
      | read =>
        simp only [InFilter, Std.ExtTreeMap.getElem?_insert, Std.compare_eq_iff_eq,
          makeLineAddress_idem]
        split
        · next same => simp [← same]
        · next differs => simp [Ne.symm differs]
      | write => simp [InFilter]
    · cases kind with
      | read =>
        simp only [IsolationCopy.set, IsolationCopy.addToReadSet, true_and]
        exact mem_insert_iff
      | write => simp [IsolationCopy.set, IsolationCopy.addToReadSet]
  · simp at retired

/-- A store is isolated. -/
theorem Tracks.isolateTransactionStore {addr : Addr}
    (taken : core.take (.isolateTransactionStore addr) = .ok next) :
    next.Tracks (calls ++ [.isolateTransactionStore addr]) := by
  simp only [take, TransactionInterfaceManager.isolateTransactionStore, run_eq_ok] at taken
  obtain ⟨_, ⟨level, rfl⟩, rfl⟩ := taken
  refine tracks.adds .write (makeLineAddress_idem n addr) (fun kind block => ?_)
    (fun kind block => ?_) (fun kind block => by cases kind <;> simp [enters, eq_comm])
    (fun _ => rfl) (fun outside => absurd outside (Nat.pos_iff_ne_zero.mp level)) rfl
  · cases kind with
    | read => simp [InFilter, TransactionIsolationManager.addToWriteSetPerfectFilter]
    | write =>
      simp only [InFilter, TransactionIsolationManager.addToWriteSetPerfectFilter,
        makeLineAddress_idem, true_and]
      exact mem_insert_iff
  · cases kind with
    | read => simp [IsolationCopy.set, IsolationCopy.addToWriteSet]
    | write =>
      simp only [IsolationCopy.set, IsolationCopy.addToWriteSet, true_and]
      exact mem_insert_iff

/-- An abort is signalled. -/
theorem Tracks.setAbortFlag {signal : AbortSignal}
    (taken : core.take (.setAbortFlag signal) = .ok next) :
    next.Tracks (calls ++ [.setAbortFlag signal]) := by
  simp only [take, run_eq_ok] at taken
  obtain ⟨mgr, signalled, copy, pruned, rfl⟩ := taken
  obtain ⟨-, -, abort, lazyVersion, rfl, -⟩ := setAbortFlag_ok signalled
  obtain ⟨processor, members⟩ := tracks.mem_prune pruned
  refine ⟨fun kind addr => ?_, tracks.aligned, tracks.outside, processor⟩
  have neutral : (IsolationCall.setAbortFlag signal : IsolationCall params n).enters addr kind =
      false := by cases kind <;> rfl
  rw [members, tracks.copies, signalledSince_append, neutral, if_neg (by simp),
    Bool.or_eq_false_iff, and_assoc]
  have unsignalled : (IsolationCall.setAbortFlag signal : IsolationCall params n).signals addr =
      false ↔ addr ≠ signal.addr := by
    simp [signals, eq_comm]
  rw [unsignalled]
  exact Iff.rfl

/-- A transaction begins. -/
theorem Tracks.beginTransaction {pkt : HtmPacket}
    (taken : core.take (.beginTransaction pkt) = .ok next) :
    next.Tracks (calls ++ [.beginTransaction pkt]) := by
  simp only [take, run_eq_ok] at taken
  obtain ⟨mgr, begun, rfl⟩ := taken
  obtain ⟨level, -, -, -, -, -, _, _, rfl, -⟩ := beginTransaction_ok begun
  refine tracks.keeps (fun kind addr => ?_) rfl (fun kind _ => by cases kind <;> rfl)
    (fun _ => rfl) (by simp)
  cases kind with
  | read => rfl
  | write => simp [InFilter, TransactionIsolationManager.beginTransaction, tracks.outside level]

/-- A transaction aborts; without a log both copies are cleared. -/
theorem Tracks.abortTransaction {htm : HTM} (lazy : params.lazyVm = true)
    (taken : core.take (.abortTransaction htm) = .ok next) :
    next.Tracks (calls ++ [.abortTransaction htm]) := by
  simp only [take, run_eq_ok] at taken
  obtain ⟨⟨mgr, _⟩, aborted, rfl⟩ := taken
  obtain ⟨_, _, _, _, _, _, rfl, -⟩ := abortTransaction_lazy lazy aborted
  refine .clears rfl (fun kind addr => ?_) ?_
  · cases kind <;> simp [clearOnAbort, lazy, IsolationCopy.set, IsolationCopy.clearReadSet,
      IsolationCopy.clearWriteSet]
  · simpa [clearOnAbort, lazy, IsolationCopy.clearReadSet, IsolationCopy.clearWriteSet] using
      tracks.processor

/-- One call. -/
theorem Tracks.step (lazy : params.lazyVm = true)
    (step : (system params n).Step core call next) : next.Tracks (calls ++ [call]) := by
  obtain ⟨admitted, taken⟩ := step
  cases call with
  | isolateTransactionLoad addr => exact tracks.isolateTransactionLoad taken
  | addToRetiredReadSet addr => exact tracks.addToRetiredReadSet taken
  | isolateTransactionStore addr => exact tracks.isolateTransactionStore taken
  | setAbortFlag signal => exact tracks.setAbortFlag taken
  | beginTransaction pkt => exact tracks.beginTransaction taken
  | commitTransaction htm =>
    simp only [take, run_eq_ok] at taken
    obtain ⟨⟨mgr, _⟩, committed, rfl⟩ := taken
    obtain ⟨-, -, _, _, _, _, _, _, rfl, -⟩ := commitTransaction_ok committed
    exact .clears rfl (fun kind addr => by cases kind <;> simp [IsolationCopy.set,
      IsolationCopy.clearReadSet, IsolationCopy.clearWriteSet]) tracks.processor
  | abortTransaction htm => exact tracks.abortTransaction lazy taken
  | other after =>
    obtain ⟨isolation, -, level⟩ := admitted
    obtain rfl := pure_eq_ok.mp taken
    refine tracks.keeps (fun kind addr => ?_) rfl (fun kind _ => by cases kind <;> rfl)
      (fun _ => rfl) ?_
    · cases kind <;> simp [InFilter, isolation]
    · simpa [isolation, level] using tracks.outside

end

/-- The copies of a core after a run. -/
theorem Tracks.of_steps {initial : CheckedManager params n} (lazy : params.lazyVm = true)
    (starts : initial.Starts) (steps : (system params n).Steps initial calls core) :
    core.Tracks calls := by
  induction steps with
  | refl => exact starts.tracks
  | step _ transition ih => exact ih.step lazy transition

end CheckedManager

/-! ## Any number of cores -/

namespace CheckedCores

variable {params : HTMParams} {n count : Nat}

open IsolationCall TransitionSystem

/-- The runs of several cores. -/
def system (params : HTMParams) (n count : Nat) : TransitionSystem
    (Fin count → CheckedManager params n) (Fin count × IsolationCall params n) :=
  (CheckedManager.system params n).interleave

/-- The copies of all cores. -/
def checker (cores : Fin count → CheckedManager params n) : XactIsolationChecker count :=
  fun i => (cores i).copy

/-- The access conflicts with the sets of a transaction, as `shouldNackLoad` and `shouldNackStore`
see it. -/
def Conflicts (mgr : TransactionInterfaceManager params n) (line : Addr) : RubyRequestType → Prop
  | .ld => line ∈ mgr.isolation.writeSet
  | .st => line ∈ mgr.isolation.readSet ∨ line ∈ mgr.isolation.writeSet
  | _ => False

/-- Every other core lets the access through: it has no conflict, or its transaction has been marked
as aborting. -/
def Admitted (cores : Fin count → CheckedManager params n) (proc : Fin count) (addr : Addr)
    (accessType : RubyRequestType) : Prop :=
  ∀ i, i ≠ proc → Conflicts (cores i).mgr (makeLineAddress n addr) accessType →
    (cores i).mgr.isAborting = true

/-- The block is in a set of the transaction and no abort has been signalled at it since. -/
def Unsignalled (events : List (Fin count × IsolationCall params n))
    (cores : Fin count → CheckedManager params n) (i : Fin count) (kind : BlockSet) (line : Addr) :
    Prop :=
  (cores i).InFilter kind line ∧ signalledSince (eventsOf i events) kind line = false

/-- The access of `proc` to a block of core `i` at which no abort was signalled. -/
def Exposed (events : List (Fin count × IsolationCall params n))
    (cores : Fin count → CheckedManager params n) (proc i : Fin count) (line : Addr) :
    RubyRequestType → Prop
  | .ld => Unsignalled events cores i .write line ∧ Unsignalled events cores proc .read line
  | .st => Unsignalled events cores i .read line ∨ Unsignalled events cores i .write line
  | _ => False

variable {cores initial : Fin count → CheckedManager params n}
  {events : List (Fin count × IsolationCall params n)}

variable {accessType : RubyRequestType}

/-- What an access meets in the copies. -/
theorem meets_iff_exposed (tracks : ∀ i, (cores i).Tracks (eventsOf i events))
    {proc i : Fin count} {line : Addr} :
    (checker cores).Meets proc i line accessType ↔ Exposed events cores proc i line accessType := by
  have copies : ∀ j kind, line ∈ (checker cores j).set kind ↔
      Unsignalled events cores j kind line := fun j kind => (tracks j).copies kind line
  cases accessType with
  | ld => exact and_congr (copies i .write) (copies proc .read)
  | st => exact or_congr (copies i .read) (copies i .write)
  | _ => exact Iff.rfl

/-- Only a block in conflict is exposed. -/
theorem Exposed.conflicts {proc i : Fin count} {line : Addr}
    (exposed : Exposed events cores proc i line accessType) :
    Conflicts (cores i).mgr line accessType := by
  cases accessType with
  | ld => exact exposed.1.1
  | st =>
    refine exposed.imp (fun read => ?_) fun written => written.1
    exact Std.ExtTreeMap.mem_iff_isSome_getElem?.mpr
      (by simp [show (cores i).mgr.isolation.readSet[line]? = some .retired from read.1])
  | _ => exact exposed

/-- False alarms of the isolation checker.  For every number of cores, every run under lazy
versioning and every access that the conflict manager of each other core has let through: the check
passes exactly if the access touches no block of an aborting transaction at which no abort was
signalled. -/
theorem checkXACTIsolation_iff_signalled (lazy : params.lazyVm = true)
    (initial cores : Fin count → CheckedManager params n)
    (events : List (Fin count × IsolationCall params n)) (starts : ∀ i, (initial i).Starts)
    (steps : (system params n count).Steps initial events cores)
    (proc : Fin count) (addr : Addr) (trans : Bool) (accessType : RubyRequestType)
    (admitted : Admitted cores proc addr accessType) :
    (checker cores).checkXACTIsolation n proc addr trans accessType = .ok true ↔
      ∀ i, i ≠ proc → (cores i).mgr.isAborting = true →
        ¬ Exposed events cores proc i (makeLineAddress n addr) accessType := by
  have tracks : ∀ i, (cores i).Tracks (eventsOf i events) :=
    fun i => .of_steps lazy (starts i) (steps.component i)
  rw [XactIsolationChecker.checkXACTIsolation_eq_ok_true]
  constructor
  · intro free i differs _ exposed
    exact free i differs (tracks i).processor ((meets_iff_exposed tracks).mpr exposed)
  · intro signalled i differs _ meets
    have exposed := (meets_iff_exposed tracks).mp meets
    exact signalled i differs (admitted i differs exposed.conflicts) exposed

/-- One event of one core. -/
def take (cores : Fin count → CheckedManager params n)
    (event : Fin count × IsolationCall params n) :
    Checked (Fin count → CheckedManager params n) := do
  let core ← (cores event.1).take event.2
  return Function.update cores event.1 core

/-- Cores before their first transactions. -/
def start (params : HTMParams) (n count : Nat) : Fin count → CheckedManager params n :=
  fun i => ⟨.init params n i Core.pageLog, .init⟩

/-- A list of calls that all succeed is a run. -/
theorem exists_steps {events : List (Fin count × IsolationCall params n)}
    {P : (Fin count → CheckedManager params n) → Prop} (evaluated : ∃ cores, events.foldlM
      (checkedStep (fun _ event => event.2.isKnown) (.assertion "known") take) initial = .ok cores ∧
        P cores) : ∃ cores, (system params n count).Steps initial events cores ∧ P cores := by
  obtain ⟨cores, run, holds⟩ := evaluated
  have admits : ∀ (state : Fin count → CheckedManager params n)
      (event : Fin count × IsolationCall params n), event.2.isKnown = true →
        (state event.1).Admits event.2 := by
    rintro state ⟨i, call⟩ known
    cases call with
    | other after => simp [isKnown] at known
    | _ => trivial
  refine ⟨cores,
    (@Steps.of_checked_foldlM _ _ _ _ _ _ _ (fun _ => True) _ _ _ admits run).mono ?_, holds⟩
  rintro state event next ⟨admitted, taken⟩
  simp only [ofExcept_step, take, run_eq_ok] at taken
  obtain ⟨after, taken, rfl⟩ := taken
  exact ⟨after, ⟨admitted, taken⟩, rfl⟩

/-- The store of core 1 to a block. -/
def storeOf (addr : Addr) : RemoteRequest := ⟨addr, ⟨.l1Cache, 1⟩, 7, .trans, ncPrioValue, false⟩

/-- Core 0 reads the blocks at 64 and 128 and loses the conflict on the first one. -/
def doomedReader : List (Fin 2 × IsolationCall requesterWins 64) :=
  [(0, .beginTransaction ⟨1, 1, false⟩), (0, .isolateTransactionLoad 64),
   (0, .addToRetiredReadSet 64), (0, .isolateTransactionLoad 128), (0, .addToRetiredReadSet 128),
   (0, .setAbortFlag ((storeOf 64).abortSignal false))]

private theorem doomedReader_run : ∃ cores,
    (system requesterWins 64 2).Steps (start requesterWins 64 2) doomedReader cores ∧
    (cores 0).mgr.isAborting = true ∧
    succeedsWith ((cores 0).mgr.shouldNackStore (storeOf 128)) (fun answer => !answer.1) = true ∧
    (checker cores).checkXACTIsolation 64 1 128 true .st = .ok false ∧
    (checker cores).checkXACTIsolation 64 1 64 true .st = .ok true := by
  exact exists_steps (by decide +kernel)

/-- With core 0 aborting, its conflict manager lets every access of core 1 through. -/
private theorem admitted_of_aborting {cores : Fin 2 → CheckedManager params n} {addr : Addr}
    (aborting : (cores 0).mgr.isAborting = true) : Admitted cores 1 addr accessType := by
  intro i differs _
  obtain rfl : i = 0 := by omega
  exact aborting

private theorem start_starts (i : Fin count) : (start params n count i).Starts :=
  ⟨rfl, rfl, rfl⟩

/-- The store of core 1 to the block on which core 0 lost passes. -/
theorem checkXACTIsolation_iff_signalled_doomedReader : ∃ cores,
    (system requesterWins 64 2).Steps (start requesterWins 64 2) doomedReader cores ∧
    Admitted cores 1 64 .st ∧ (cores 0).mgr.isAborting = true ∧
    ¬ Exposed doomedReader cores 1 0 64 .st := by
  obtain ⟨cores, steps, aborting, -, -, passes⟩ := doomedReader_run
  have admitted : Admitted cores 1 64 .st := admitted_of_aborting aborting
  refine ⟨cores, steps, admitted, aborting, ?_⟩
  exact (checkXACTIsolation_iff_signalled rfl _ cores _ start_starts steps 1 64 true .st
    admitted).mp passes 0 (by decide) aborting

/-- Core 0 has read two blocks and is aborting after the conflict on one of them.  Its conflict
manager lets a store of core 1 to the other block through, and the checker reports a violation. -/
theorem doomedReader_false_alarm : ∃ cores,
    (system requesterWins 64 2).Steps (start requesterWins 64 2) doomedReader cores ∧
    Admitted cores 1 128 .st ∧
    succeedsWith ((cores 0).mgr.shouldNackStore (storeOf 128)) (fun answer => !answer.1) = true ∧
    (checker cores).checkXACTIsolation 64 1 128 true .st = .ok false := by
  obtain ⟨cores, steps, aborting, admitted, reported, -⟩ := doomedReader_run
  exact ⟨cores, steps, admitted_of_aborting aborting, admitted, reported⟩

end CheckedCores

end Gem5.Ruby
