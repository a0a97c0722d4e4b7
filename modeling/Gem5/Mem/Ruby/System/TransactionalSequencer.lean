import Gem5.Mem.Ruby.Htm.TransactionLifecycle
import Gem5.Mem.Ruby.System.Sequencer

/-!
# `TransactionalSequencer`

The sequencer of a core turns the CPU's packets into calls of the transaction
manager: HTM commands, the isolation of loads and stores when they are issued or
performed, and the reaction to nacked requests.  Of its own state only what these
calls read is kept; the request table and the stall flag are fields of the
manager's environment.
-/

namespace Gem5

/-- The causes with which the CPU may abort before Ruby has set the abort flag. -/
def HtmFailureFaultCause.cpuTriggered : HtmFailureFaultCause → Bool
  | .lsq | .exception | .interrupt | .disabled => true
  | _ => false

end Gem5

namespace Gem5.Ruby

open Foundation

/-- The HTM commands of a packet. -/
inductive HtmCommand where
  | start
  | commit
  | cancel
  | abort (cause : HtmFailureFaultCause)
  | isolate (addr : Addr)
  deriving DecidableEq, Repr

/-- A transactional data access of `size` bytes from `addr` on; `data` are the bytes of a
store. -/
structure Access where
  addr : Addr
  size : Nat
  write : Bool
  data : Nat → UInt8

/-- One core: its manager, its view of the shared token list, and the sequencer. -/
structure Core (params : HTMParams) (n : Nat) where
  mgr : TransactionInterfaceManager params n
  htm : HTM
  lastAbortHtmUid : Nat
  commitPending : Bool

namespace TransactionInterfaceManager

variable {params : HTMParams} {n : Nat} (mgr : TransactionInterfaceManager params n)

/-- `HTM_ISOLATE`: a load retires.  With precise tracking this is when its block enters the read
set. -/
def isolateRetiredLoad (addr : Addr) : Checked (TransactionInterfaceManager params n) := do
  let inReadSet ← mgr.checkReadSignature addr
  if inReadSet then
    if mgr.isolation.inRetiredReadSet n addr then return mgr else mgr.addToRetiredReadSet addr
  else if params.preciseReadSetTracking then do
    let mgr ← mgr.isolateTransactionLoad addr
    mgr.addToRetiredReadSet addr
  else panicWith "Unexpected HTM_ISOLATE! (ST2LD forwarding?)"

/-- The part of `insertRequest` that isolates a load when it is issued. -/
def isolateIssuedLoad (addr : Addr) : Checked (TransactionInterfaceManager params n) :=
  if params.preciseReadSetTracking then return mgr
  else if mgr.inTransaction then do
    let inReadSet ← mgr.checkReadSignature addr
    if inReadSet then return mgr else mgr.isolateTransactionLoad addr
  else panicWith "Transactional store outside boundaries!"

/-- `insertRequest`: the first packet of a block keeps its place in the request table. -/
def insertRequest (uid : Nat) (access : Access) : Checked (TransactionInterfaceManager params n) :=
  let mgr := { mgr with
    requestTable := mgr.requestTable.insertIfNew (makeLineAddress n access.addr) uid }
  if access.write then return mgr else mgr.isolateIssuedLoad access.addr

/-- The part of `hitCallback` that follows accesses to forwarded blocks. -/
def trackForwardedAccess (access : Access) : Checked (TransactionInterfaceManager params n) :=
  let line := makeLineAddress n access.addr
  if params.allowEarlyValueFwd && mgr.isBlockConsumed access.addr then
    mgr.setAccessOnForwardBlock line (access.addr - line) access.size access.write
  else if params.allowEarlyValueFwd && mgr.isBlockProduced access.addr then do
    assertThat (mgr.forwarding.allSentData.contains line = true) "it != m_allSentData.end()"
    return mgr
  else return mgr

/-- `handleTransactionalWrite`. -/
def handleTransactionalWrite (addr : Addr) : Checked (TransactionInterfaceManager params n) := do
  assertThat (mgr.inTransaction = true) "m_xact_mgr->inTransaction()"
  if mgr.checkWriteSignature addr then return mgr else mgr.isolateTransactionStore addr

/-- The line of a block in the data cache. -/
def cacheLine (addr : Addr) : Checked (CacheEntry n) :=
  match mgr.dataCache[makeLineAddress n addr]? with
  | some entry => return entry
  | none => .error (.assertion "is_valid(cache_entry)")

/-- The line of a block is overwritten. -/
def writeLine (addr : Addr) (entry : CacheEntry n) : TransactionInterfaceManager params n :=
  { mgr with dataCache := mgr.dataCache.insert (makeLineAddress n addr) entry }

/-- A store changes the line and makes it dirty. -/
def performStore (access : Access) : Checked (TransactionInterfaceManager params n) := do
  let entry ← mgr.cacheLine access.addr
  return mgr.writeLine access.addr { entry with
    data := entry.data.setData access.data (access.addr - makeLineAddress n access.addr) access.size
    dirty := true }

/-- A write request of the flush completes: the buffered bytes enter the line. -/
def performFlushedStore (addr : Addr) (issues : Addr → Bool) :
    Checked (TransactionInterfaceManager params n) := do
  let entry ← mgr.cacheLine addr
  let (merged, lazyVersion) ← mgr.lazyVersion.mergeDataFromWriteBuffer mgr.transactionLevel
    params.lazyCommitWidth issues (makeLineAddress n addr) entry.data
  let mgr := mgr.writeLine addr { entry with data := merged, dirty := true }
  return { mgr with lazyVersion := lazyVersion }

/-- The write part of `hitCallback`. -/
def hitStore (access : Access) (issues : Addr → Bool) :
    Checked (TransactionInterfaceManager params n) := do
  let mgr ← mgr.handleTransactionalWrite access.addr
  if params.lazyVm && !params.eagerCd then do
    assertThat (mgr.atCommit = true) "false"
    mgr.performFlushedStore access.addr issues
  else mgr.performStore access

/-- `hitCallback` of a program access of the transaction. -/
def hitCallback (access : Access) (issues : Addr → Bool) :
    Checked (TransactionInterfaceManager params n) := do
  let mgr ← mgr.trackForwardedAccess access
  if access.write then mgr.hitStore access issues else return mgr

/-- `logTransactionalStores`: the first store of LogTM to a block isolates the block and reserves a
log entry; the store itself is performed once the log has been written. -/
def logTransactionalStores (addr : Addr) : Checked (TransactionInterfaceManager params n) := do
  let mgr ← mgr.isolateTransactionStore addr
  let (_, eagerVersion) ← mgr.eagerVersion.addLogEntry
  return { mgr with eagerVersion := eagerVersion }

/-- `writeCallback` of a transactional store. -/
def writeCallback (access : Access) (issues : Addr → Bool) :
    Checked (TransactionInterfaceManager params n) :=
  if !params.lazyVm && !mgr.checkWriteSignature access.addr then
    mgr.logTransactionalStores access.addr
  else mgr.hitCallback access issues

/-- `writeCallback` on a block that was just consumed: a read also enters the write set. -/
def specCallback (access : Access) (issues : Addr → Bool) :
    Checked (TransactionInterfaceManager params n) :=
  if access.write then mgr.writeCallback access issues
  else do
    let mgr ← mgr.hitCallback access issues
    mgr.isolateTransactionStore access.addr

/-- `failedCallback`: a nack without usable data.  The nack of a validation aborts, and so may the
nack of a request of the transaction that runs. -/
def failedCallback (lastAbortHtmUid : Nat) (nack : RemoteRequest) :
    Checked (TransactionInterfaceManager params n) :=
  if params.allowEarlyValueFwd && mgr.isBlockConsumed nack.addr then
    if mgr.isAborting then return mgr
    else mgr.setAbortFlag
      { addr := nack.addr, abortSource := nack.remoteId, remoteTrans := nack.remoteTrans
        remotePriority := 0, wset := true }
  else do
    let uid ← mgr.packetUid nack.addr
    if uid = lastAbortHtmUid then return mgr else mgr.notifyReceiveNack nack

end TransactionInterfaceManager

namespace Core

variable {params : HTMParams} {n : Nat} (core : Core params n)

/-- `abortTransaction`. -/
def abortTransaction (pkt : HtmPacket) : Checked (Core params n) := do
  let (mgr, htm) ← core.mgr.abortTransaction core.htm
  return { core with
    mgr := { mgr with stalled := false }, htm := htm, lastAbortHtmUid := pkt.uid }

/-- `HTM_COMMIT`: commit, or start what has to happen before. -/
def commit (conflictingCommitter : Checked Bool) (issues : Addr → Bool) : Checked (Core params n) :=
  if core.mgr.canCommitTransaction then do
    let (mgr, htm) ← core.mgr.commitTransaction core.htm
    return { core with
      mgr := { mgr with stalled := false }, htm := htm, commitPending := false }
  else do
    let (mgr, htm) ← core.mgr.initiateCommitTransaction core.htm conflictingCommitter issues
    return { core with mgr := mgr, htm := htm, commitPending := true }

/-- `notifyXactionEvent`: once the abort flag is set only the abort command is obeyed. -/
def notifyXactionEvent (cmd : HtmCommand) (pkt : HtmPacket) (conflictingCommitter : Checked Bool)
    (issues : Addr → Bool) : Checked (Core params n) :=
  if core.mgr.isAborting then
    match cmd with
    | .abort _ => core.abortTransaction pkt
    | _ =>
      if core.commitPending then do
        assertThat (cmd = .commit) "pkt->req->isHTMCommit()"
        return { core with commitPending := !core.mgr.canCommitTransaction }
      else return core
  else match cmd with
    | .start => do
      let mgr ← core.mgr.beginTransaction pkt
      return { core with mgr := mgr }
    | .commit => core.commit conflictingCommitter issues
    | .cancel => do
      let mgr ← core.mgr.cancelTransaction
      return { core with mgr := mgr }
    | .abort cause =>
      if cause.cpuTriggered then core.abortTransaction pkt
      else panicWith "HTM_ABORT must find abort flag set!"
    | .isolate addr => do
      let mgr ← core.mgr.isolateRetiredLoad addr
      return { core with mgr := mgr }

/-- `makeRequest` of a transactional access: dropped once the transaction aborts, redirected to
the write buffer by a lazy-lazy transaction, issued otherwise. -/
def makeRequest (uid : Nat) (access : Access) : Checked (Core params n) :=
  if core.mgr.isAborting || uid = core.lastAbortHtmUid then
    if core.commitPending then panicWith "Unexpected abort while commit pending!"
    else return core
  else if params.lazyVm && !params.eagerCd && access.write && !core.mgr.atCommit then do
    let mgr ← core.mgr.redirectStoreToWriteBuffer access.addr
      ((List.range access.size).map access.data)
    return { core with mgr := mgr }
  else do
    let mgr ← core.mgr.insertRequest uid access
    return { core with mgr := mgr }

end Core

end Gem5.Ruby
