import Gem5.Foundation.Controller
import Gem5.Mem.Ruby.Protocol.Messages

/-!
# The L2 cache controller of `MESI_Three_Level_HTM_umu`

One line of the shared L2 cache, which is also the directory of the L1 copies.  The
transitions are those of the source, in its order, without the instruction fetches
that the L1 never issues, without statistics, the replacement order and the wake-up
of stalled messages.
-/

namespace Gem5.Ruby.L2Cache

open Foundation

/-- The states of a line. -/
inductive State where
  | np
  | ss
  | m
  | mt
  | mI
  | mtI
  | mctI
  | iI
  | sI
  | iss
  | is
  | im
  | ssMB
  | mtMB
  | mtIIB
  | mtIB
  | mtSB
  | mmt
  | mmtMB
  | mmtIIB
  | issB
  | imB
  | issMB
  deriving DecidableEq, Repr

inductive Event where
  | l1Gets
  | l1Getx
  | l1Upgrade
  | l1GetsHtmCheck
  | l1GetxHtmCheck
  | l1GetsOwner
  | l1GetxOwner
  | l1Putx
  | l1Putm
  | l1PutmOld
  | l1PutxOld
  | l2Replacement
  | l2ReplacementClean
  | memData
  | memAck
  | wbData
  | wbDataClean
  | ack
  | ackAll
  | nackAll
  | unblock
  | exclusiveUnblock
  | unblockCancel
  | unblockCancelSS
  | unblockCancelMMT
  | yield
  | memInv
  deriving DecidableEq, Repr

inductive Action where
  | issueFetchToMemory
  | forwardRequestToExclusive
  | exclusiveReplacement
  | exclusiveCleanReplacement
  | exclusiveReplacementFromTBE
  | sendDataToRequestor
  | sendExclusiveDataToRequestor
  | sendExclusiveDataToOwner
  | sendSharedDataToRequestor
  | sendSharedDataToOriginalRequestor
  | sendDataToGetSRequestors
  | sendExclusiveDataToGetSRequestors
  | sendDataToGetXRequestor
  | sendInvToSharers
  | sendInvToNackers
  | checkReadWriteFilterSharers
  | checkWriteFilter
  | sendFwdInvToSharersMinusRequestor
  | allocateTBE
  | deallocateTBE
  | popL1RequestQueue
  | popUnblockQueue
  | popIncomingResponseQueue
  | writeDataToCache
  | writeDataToCacheFromRequest
  | updateAck
  | writeDataToTBE
  | recordGetSL1ID
  | recordGetXL1ID
  | allocateL2CacheBlock
  | deallocateL2CacheBlock
  | sendWBAck
  | sendInvAckToUpgrader
  | addSharer
  | addSharerFromYield
  | addSharerFromUnblock
  | clearSharers
  | clearExclusive
  | markExclusiveFromUnblock
  | stallAndWaitL1RequestQueue
  | recycleResponseNetwork
  | missDataToGetXRequestor
  | missDataToGetSRequestor
  | checkL1ReadWriteFiltersExceptRequestor
  | copyNackersIntoSharers
  | markExclusiveFromUnblockNackers
  deriving DecidableEq, Repr

/-- The transitions, in the order of the source. -/
def transitions : List (Rule State Event Action) := [
  ⟨[.np, .is, .iss, .im, .ss, .m, .mI, .iI, .sI, .mtIB, .mtSB], [.l1Putx], none,
    [.sendWBAck, .popL1RequestQueue]⟩,
  ⟨[.np, .ss, .m, .mt, .mI, .iI, .sI, .is, .iss, .im, .issB, .imB, .issMB, .mtIB, .mtSB],
    [.l1PutxOld, .l1PutmOld], none, [.sendWBAck, .popL1RequestQueue]⟩,
  ⟨[.im, .is, .iss, .issB, .imB, .issMB, .ssMB, .mtMB, .mtIIB, .mtIB, .mtSB],
    [.l2Replacement, .l2ReplacementClean], none, [.stallAndWaitL1RequestQueue]⟩,
  ⟨[.im, .is, .iss, .issB, .imB, .issMB, .ssMB, .mtMB, .mtIIB, .mtIB, .mtSB], [.memInv], none,
    [.recycleResponseNetwork]⟩,
  ⟨[.iI, .sI, .mI, .mtI, .mctI, .np], [.memInv], none, [.popIncomingResponseQueue]⟩,
  ⟨[.issB, .imB, .issMB, .ssMB, .mtMB, .mtIIB, .mtIB, .mtSB, .mmtIIB, .mmtMB],
    [.l1Gets, .l1Getx, .l1Upgrade], none, [.stallAndWaitL1RequestQueue]⟩,
  ⟨[.np], [.l1Gets], some .iss,
    [.allocateL2CacheBlock, .clearSharers, .addSharer, .allocateTBE, .recordGetSL1ID,
      .issueFetchToMemory, .popL1RequestQueue]⟩,
  ⟨[.np], [.l1Getx], some .im,
    [.allocateL2CacheBlock, .clearSharers, .allocateTBE, .recordGetXL1ID, .issueFetchToMemory,
      .popL1RequestQueue]⟩,
  ⟨[.np], [.l1GetsHtmCheck], some .issB,
    [.allocateL2CacheBlock, .clearSharers, .allocateTBE, .recordGetSL1ID, .issueFetchToMemory,
      .checkL1ReadWriteFiltersExceptRequestor, .popL1RequestQueue]⟩,
  ⟨[.np], [.l1GetxHtmCheck], some .imB,
    [.allocateL2CacheBlock, .clearSharers, .allocateTBE, .recordGetXL1ID, .issueFetchToMemory,
      .checkL1ReadWriteFiltersExceptRequestor, .popL1RequestQueue]⟩,
  ⟨[.iss], [.memData], some .mtMB,
    [.writeDataToCache, .sendExclusiveDataToGetSRequestors, .deallocateTBE,
      .popIncomingResponseQueue]⟩,
  ⟨[.issB], [.memData], some .issMB,
    [.writeDataToCache, .missDataToGetSRequestor, .deallocateTBE, .popIncomingResponseQueue]⟩,
  ⟨[.imB], [.memData], some .issMB,
    [.writeDataToCache, .missDataToGetXRequestor, .deallocateTBE, .popIncomingResponseQueue]⟩,
  ⟨[.issMB], [.unblockCancelMMT], some .mmt, [.markExclusiveFromUnblockNackers, .popUnblockQueue]⟩,
  ⟨[.issMB], [.unblockCancelSS], some .ss, [.copyNackersIntoSharers, .popUnblockQueue]⟩,
  ⟨[.issMB], [.exclusiveUnblock], some .mt, [.markExclusiveFromUnblock, .popUnblockQueue]⟩,
  ⟨[.is], [.memData], some .ss,
    [.writeDataToCache, .sendDataToGetSRequestors, .deallocateTBE, .popIncomingResponseQueue]⟩,
  ⟨[.im], [.memData], some .mtMB,
    [.writeDataToCache, .sendDataToGetXRequestor, .deallocateTBE, .popIncomingResponseQueue]⟩,
  ⟨[.is, .iss], [.l1Gets], some .is, [.addSharer, .recordGetSL1ID, .popL1RequestQueue]⟩,
  ⟨[.is, .iss], [.l1Getx], none, [.stallAndWaitL1RequestQueue]⟩,
  ⟨[.im], [.l1Getx, .l1Gets], none, [.stallAndWaitL1RequestQueue]⟩,
  ⟨[.ss], [.l1Gets], none, [.sendSharedDataToRequestor, .addSharer, .popL1RequestQueue]⟩,
  ⟨[.ss], [.l1Getx], some .ssMB,
    [.sendDataToRequestor, .sendFwdInvToSharersMinusRequestor, .popL1RequestQueue]⟩,
  ⟨[.ss], [.l1Upgrade], some .ssMB,
    [.sendFwdInvToSharersMinusRequestor, .sendInvAckToUpgrader, .popL1RequestQueue]⟩,
  ⟨[.ss], [.l2ReplacementClean], some .iI,
    [.allocateTBE, .sendInvToSharers, .deallocateL2CacheBlock]⟩,
  ⟨[.ss], [.l2Replacement, .memInv], some .sI,
    [.allocateTBE, .sendInvToSharers, .deallocateL2CacheBlock]⟩,
  ⟨[.m], [.l1Getx], some .mtMB, [.sendDataToRequestor, .popL1RequestQueue]⟩,
  ⟨[.m], [.l1Gets], some .mtMB, [.sendExclusiveDataToRequestor, .popL1RequestQueue]⟩,
  ⟨[.m, .mmt], [.l2Replacement, .memInv], some .mI,
    [.allocateTBE, .exclusiveReplacement, .deallocateL2CacheBlock]⟩,
  ⟨[.m, .mmt], [.l2ReplacementClean], some .mI,
    [.allocateTBE, .exclusiveCleanReplacement, .deallocateL2CacheBlock]⟩,
  ⟨[.mt], [.l1Getx], some .mtMB, [.forwardRequestToExclusive, .popL1RequestQueue]⟩,
  ⟨[.mt], [.l1Gets], some .mtIIB, [.forwardRequestToExclusive, .popL1RequestQueue]⟩,
  ⟨[.mt], [.l2Replacement, .memInv], some .mtI,
    [.allocateTBE, .sendInvToSharers, .deallocateL2CacheBlock]⟩,
  ⟨[.mt], [.l2ReplacementClean], some .mctI,
    [.allocateTBE, .sendInvToSharers, .deallocateL2CacheBlock]⟩,
  ⟨[.mt], [.l1Putx], some .m,
    [.clearSharers, .writeDataToCacheFromRequest, .sendWBAck, .popL1RequestQueue]⟩,
  ⟨[.mt], [.l1Putm], some .mmt, [.writeDataToCacheFromRequest, .sendWBAck, .popL1RequestQueue]⟩,
  ⟨[.mtIIB, .mtMB], [.l1Putm], none, [.stallAndWaitL1RequestQueue]⟩,
  ⟨[.mmt], [.l1GetsOwner, .l1GetxOwner], some .mtMB,
    [.sendExclusiveDataToOwner, .popL1RequestQueue]⟩,
  ⟨[.mmt], [.l1Gets], some .mmtIIB, [.sendDataToRequestor, .checkWriteFilter, .popL1RequestQueue]⟩,
  ⟨[.mmtIIB], [.unblock], some .ss, [.clearExclusive, .addSharerFromUnblock, .popUnblockQueue]⟩,
  ⟨[.mmtIIB, .mmtMB], [.unblockCancel], some .mmt, [.popUnblockQueue]⟩,
  ⟨[.mmt], [.l1Getx], some .mmtMB,
    [.sendDataToRequestor, .checkReadWriteFilterSharers, .popL1RequestQueue]⟩,
  ⟨[.ssMB, .mtMB, .mmtMB], [.exclusiveUnblock], some .mt,
    [.clearExclusive, .markExclusiveFromUnblock, .popUnblockQueue]⟩,
  ⟨[.mtMB], [.unblockCancel], some .mt, [.popUnblockQueue]⟩,
  ⟨[.ssMB], [.unblockCancel, .unblockCancelSS], some .ss,
    [.addSharerFromUnblock, .popUnblockQueue]⟩,
  ⟨[.mtIIB], [.yield], some .ss,
    [.clearExclusive, .addSharerFromYield, .sendSharedDataToOriginalRequestor,
      .popIncomingResponseQueue]⟩,
  ⟨[.mtIIB], [.l1Putx, .l1PutxOld], none, [.stallAndWaitL1RequestQueue]⟩,
  ⟨[.mtIIB], [.unblock], some .mtIB, [.clearExclusive, .addSharerFromUnblock, .popUnblockQueue]⟩,
  ⟨[.mtIIB], [.unblockCancel], some .mt, [.popUnblockQueue]⟩,
  ⟨[.mtIIB], [.unblockCancelMMT], some .mmt, [.popUnblockQueue]⟩,
  ⟨[.mtIIB], [.wbData, .wbDataClean], some .mtSB, [.writeDataToCache, .popIncomingResponseQueue]⟩,
  ⟨[.mtIB], [.wbData, .wbDataClean], some .ss, [.writeDataToCache, .popIncomingResponseQueue]⟩,
  ⟨[.mtSB], [.unblock], some .ss, [.clearExclusive, .addSharerFromUnblock, .popUnblockQueue]⟩,
  ⟨[.iI, .sI, .mtI, .mctI, .mI], [.l1Getx, .l1Upgrade, .l1Gets], none,
    [.stallAndWaitL1RequestQueue]⟩,
  ⟨[.iI], [.ack], none, [.updateAck, .popIncomingResponseQueue]⟩,
  ⟨[.iI], [.ackAll], some .mI, [.exclusiveCleanReplacement, .popIncomingResponseQueue]⟩,
  ⟨[.mtI, .mctI], [.wbData], some .mI,
    [.writeDataToTBE, .exclusiveReplacementFromTBE, .popIncomingResponseQueue]⟩,
  ⟨[.mctI], [.wbDataClean, .ackAll], some .mI,
    [.exclusiveCleanReplacement, .popIncomingResponseQueue]⟩,
  ⟨[.mctI, .mtI], [.nackAll], none, [.sendInvToNackers, .popIncomingResponseQueue]⟩,
  ⟨[.mctI], [.l1Putx, .l1PutxOld, .l1Putm, .l1PutmOld], none, [.stallAndWaitL1RequestQueue]⟩,
  ⟨[.mtI], [.wbDataClean, .ackAll], some .mI,
    [.exclusiveReplacementFromTBE, .popIncomingResponseQueue]⟩,
  ⟨[.mtI], [.l1Putx, .l1PutxOld, .l1Putm, .l1PutmOld], none, [.stallAndWaitL1RequestQueue]⟩,
  ⟨[.mtMB, .ssMB], [.l1Putx, .l1PutxOld], none, [.stallAndWaitL1RequestQueue]⟩,
  ⟨[.sI], [.ack], none, [.updateAck, .popIncomingResponseQueue]⟩,
  ⟨[.sI], [.ackAll], some .mI, [.exclusiveReplacementFromTBE, .popIncomingResponseQueue]⟩,
  ⟨[.mI], [.memAck], some .np, [.deallocateTBE, .popIncomingResponseQueue]⟩]

/-! ## The line -/

/-- The cache entry: the data and the directory of the L1 copies. -/
structure Entry (n : Nat) where
  cacheState : State
  sharers : Finset MachineID
  exclusive : MachineID
  block : DataBlock n
  dirty : Bool
  deriving DecidableEq

/-- The TBE of a fetch or of a replacement. -/
structure TBE (n : Nat) where
  tbeState : State
  block : DataBlock n
  dirty : Bool
  l1GetSIDs : Finset MachineID
  nackers : Finset MachineID
  l1GetXID : MachineID
  pendingAcks : Int
  deriving DecidableEq

/-- What the controller holds of one line. -/
structure Line (n : Nat) where
  entry : Option (Entry n)
  tbe : Option (TBE n)
  deriving DecidableEq

variable {n : Nat}

namespace Line

/-- A line the cache does not hold. -/
def notPresent : Line n := ⟨none, none⟩

variable (line : Line n)

/-- `getState`. -/
def getState : State :=
  match line.tbe, line.entry with
  | some tbe, _ => tbe.tbeState
  | none, some entry => entry.cacheState
  | none, none => .np

/-- `setState`. -/
def setState (state : State) : Line n where
  tbe := line.tbe.map fun tbe => { tbe with tbeState := state }
  entry := line.entry.map fun entry => { entry with cacheState := state }

/-- The cache entry, where the controller dereferences it. -/
def getEntry : Checked (Entry n) :=
  match line.entry with
  | some entry => return entry
  | none => .error (.assertion "is_valid(cache_entry)")

/-- The TBE, where the controller dereferences it. -/
def getTBE : Checked (TBE n) :=
  match line.tbe with
  | some tbe => return tbe
  | none => .error (.assertion "is_valid(tbe)")

/-- `isSharer`. -/
def isSharer (requestor : MachineID) : Bool :=
  line.entry.any fun entry => requestor ∈ entry.sharers

/-- `isExclusive`. -/
def isExclusive (requestor : MachineID) : Checked Bool :=
  match line.entry with
  | none => return false
  | some entry =>
    if entry.exclusive = requestor ∧ requestor ∈ entry.sharers then do
      assertThat (entry.sharers.card = 1) "cache_entry.Sharers.count() == 1"
      return true
    else return false

end Line

/-- A message the controller sends: to L1 caches on the request or on the response network, or to
the directory. -/
inductive Output (n : Nat) where
  | request (destination : Finset MachineID) (msg : RequestMsg n)
  | response (destination : Finset MachineID) (msg : ResponseMsg n)
  | fetch
  | writeback (block : DataBlock n) (dirty : Bool)
  | cleanReplacement

/-- The message at the head of one of the ports; `victim` is a request for another block that needs
the place of this one. -/
inductive Input (n : Nat) where
  | unblock (msg : UnblockMsg)
  | response (msg : ResponseMsg n)
  | request (msg : RequestMsg n)
  | victim

namespace Input

/-- `peek(L1unblockNetwork_in, ResponseMsg)`. -/
def peekUnblock : Input n → Checked UnblockMsg
  | .unblock msg => return msg
  | _ => .error (.assertion "peek(L1unblockNetwork_in, ResponseMsg)")

/-- `peek(responseL2Network_in, ResponseMsg)`. -/
def peekResponse : Input n → Checked (ResponseMsg n)
  | .response msg => return msg
  | _ => .error (.assertion "peek(responseL2Network_in, ResponseMsg)")

/-- The block in a response. -/
def peekBlock : Input n → Checked (DataBlock n × Bool)
  | .response (.data _ _ block dirty _) => return (block, dirty)
  | .response (.memoryData block) => return (block, false)
  | _ => .error (.assertion "peek(responseL2Network_in, ResponseMsg)")

/-- The requester that an L1 without a copy names. -/
def peekYield : Input n → Checked MachineID
  | .response (.yield originalRequestor) => return originalRequestor
  | _ => .error (.assertion "peek(responseL2Network_in, ResponseMsg)")

/-- `peek(L1RequestL2Network_in, RequestMsg)`. -/
def peekRequest : Input n → Checked (RequestMsg n)
  | .request msg => return msg
  | _ => .error (.assertion "peek(L1RequestL2Network_in, RequestMsg)")

end Input

/-- What a transition works on. -/
structure Context (n : Nat) where
  line : Line n
  sent : List (Output n)
  popped : Bool

/-- The L2 bank in a machine of `l1Count` L1 caches; `curCycle` is the time. -/
structure Place where
  params : HTMParams
  l1Count : Nat
  address : Addr
  curCycle : Cycles

/-- `broadcast(MachineType:L1Cache)`. -/
def Place.l1Caches (place : Place) : Finset MachineID :=
  (Finset.range place.l1Count).image fun num => ⟨.l1Cache, num⟩

/-- The conflict checks of the L2 need the option to evict blocks of transactions from it. -/
def Place.evicts (place : Place) : Bool :=
  place.params.allowReadSetL2CacheEvictions || place.params.allowWriteSetL2CacheEvictions

/-! ## Actions -/

namespace Context

variable (ctx : Context n)

/-- A message leaves. -/
def send (output : Output n) : Context n :=
  { ctx with sent := ctx.sent ++ [output] }

/-- The message leaves its queue. -/
def pop : Context n :=
  { ctx with popped := true }

/-- The cache entry changes. -/
def setEntry (entry : Option (Entry n)) : Context n :=
  { ctx with line := { ctx.line with entry := entry } }

/-- The TBE changes. -/
def setTBE (tbe : Option (TBE n)) : Context n :=
  { ctx with line := { ctx.line with tbe := tbe } }

/-- An update of the cache entry. -/
def updateEntry (update : Entry n → Entry n) : Checked (Context n) := do
  let entry ← ctx.line.getEntry
  return ctx.setEntry (some (update entry))

/-- An update of the TBE. -/
def updateTBE (update : TBE n → TBE n) : Checked (Context n) := do
  let tbe ← ctx.line.getTBE
  return ctx.setTBE (some (update tbe))

end Context

/-- The number of acks that `d_sendDataToRequestor` and `dd_sendExclusiveDataToRequestor` announce:
one for each sharer but the requester. -/
def Entry.announcedAcks (entry : Entry n) (requestor : MachineID) : Int :=
  if requestor ∈ entry.sharers then 0 - entry.sharers.card + 1 else 0 - entry.sharers.card

/-- A request that the L2 passes to L1 caches on behalf of the requester. -/
def fwdMsg (place : Place) (type : CoherenceRequestType) (req : RemoteRequest) : RequestMsg n :=
  { req with addr := place.address, type := type, data := none }

/-- An invalidation on behalf of the L2 itself. -/
def replacementInv (place : Place) : RequestMsg n :=
  { addr := place.address, remoteId := l2Bank, remoteTimestamp := 0, remoteTrans := .nonTrans
    remotePriority := 0, remoteSwPriority := false, type := .inv, data := none }

namespace Context

variable (ctx : Context n) (place : Place) (input : Input n)

/-- `d_sendDataToRequestor`, `dd_sendExclusiveDataToRequestor`: data for the requester, with the
number of acks it has to wait for. -/
def sendData (message : Int → DataBlock n → ResponseMsg n) : Checked (Context n) := do
  let msg ← input.peekRequest
  let entry ← ctx.line.getEntry
  return ctx.send (.response {msg.remoteId}
    (message (entry.announcedAcks msg.remoteId) entry.block))

/-- A check or an invalidation for every sharer but the requester. -/
def sendToOtherSharers (type : CoherenceRequestType) : Checked (Context n) := do
  let msg ← input.peekRequest
  let entry ← ctx.line.getEntry
  return ctx.send (.request (entry.sharers.erase msg.remoteId)
    (fwdMsg place type msg.toRemoteRequest))

/-- The check that the option to evict blocks of transactions is on. -/
def assertEvicts : Checked Unit :=
  assertThat (place.evicts = true)
    "xact_mgr.config_allowReadSetL2CacheEvictions() || xact_mgr.config_allowWriteSetL2CacheEvictions()"

/-- `fx_sendDataToGetXRequestor`, `fs_sendDataToGetSRequestor`: data after a miss, with the answers
of all other L1 caches to wait for. -/
def sendMissData (destination : TBE n → Finset MachineID)
    (message : Int → DataBlock n → ResponseMsg n) : Checked (Context n) := do
  assertEvicts place
  let entry ← ctx.line.getEntry
  let tbe ← ctx.line.getTBE
  return ctx.send (.response (destination tbe) (message (0 - (place.l1Count - 1)) entry.block))

/-- `nnu_addSharerFromUnblock`. -/
def addSharerFromUnblock (sender : MachineID) : Checked (Context n) := do
  let entry ← ctx.line.getEntry
  assertThat (entry.exclusive = createInvalidMachineID)
    "cache_entry.Exclusive == createInvalidMachineID()"
  return ctx.setEntry (some { entry with sharers := insert sender entry.sharers })

/-- `mmu_markExclusiveFromUnblock`. -/
def markExclusiveFromUnblock (sender : MachineID) : Checked (Context n) := do
  let entry ← ctx.line.getEntry
  assertThat (entry.exclusive = createInvalidMachineID)
    "cache_entry.Exclusive == createInvalidMachineID()"
  return ctx.setEntry (some { entry with sharers := {sender}, exclusive := sender })

/-- The number of the least L1 cache in a set, `smallestElement`. -/
def smallestElement (set : Finset MachineID) : MachineID :=
  match (List.range place.l1Count).find? fun num => decide (⟨.l1Cache, num⟩ ∈ set) with
  | some num => ⟨.l1Cache, num⟩
  | none => createInvalidMachineID

end Context

/-- The sender of a message on the unblock network. -/
def senderOf : UnblockMsg → MachineID
  | .unblock sender | .exclusiveUnblock sender | .unblockCancel sender _ _ => sender

/-- The nackers a message on the unblock network reports. -/
def nackersOf : UnblockMsg → Finset MachineID
  | .unblockCancel _ nackers _ => nackers
  | _ => ∅

/-- The actions. -/
def perform (place : Place) (input : Input n) (action : Action) (ctx : Context n) :
    Checked (Context n) :=
  match action with
  | .issueFetchToMemory => return ctx.send .fetch
  | .forwardRequestToExclusive => do
    let msg ← input.peekRequest
    let entry ← ctx.line.getEntry
    return ctx.send (.request {entry.exclusive} (fwdMsg place msg.type msg.toRemoteRequest))
  | .exclusiveReplacement => do
    let entry ← ctx.line.getEntry
    return ctx.send (.writeback entry.block entry.dirty)
  | .exclusiveCleanReplacement => return ctx.send .cleanReplacement
  | .exclusiveReplacementFromTBE => do
    let tbe ← ctx.line.getTBE
    return ctx.send (.writeback tbe.block tbe.dirty)
  | .sendDataToRequestor =>
    ctx.sendData input fun count block => .data l2Bank count block false false
  | .sendExclusiveDataToRequestor =>
    ctx.sendData input fun count block => .dataExclusive count block false false
  | .sendExclusiveDataToOwner => do
    let msg ← input.peekRequest
    let owner ← ctx.line.isExclusive msg.remoteId
    assertThat (owner = true) "isExclusive(address, in_msg.Requestor, cache_entry)"
    ctx.sendData input fun count block => .dataExclusive count block false false
  | .sendSharedDataToRequestor => do
    let msg ← input.peekRequest
    let entry ← ctx.line.getEntry
    return ctx.send (.response {msg.remoteId} (.data l2Bank 0 entry.block false false))
  | .sendSharedDataToOriginalRequestor => do
    let requestor ← input.peekYield
    let entry ← ctx.line.getEntry
    return ctx.send (.response {requestor} (.data l2Bank 0 entry.block false false))
  | .sendDataToGetSRequestors => do
    let tbe ← ctx.line.getTBE
    assertThat (tbe.l1GetSIDs.card > 0) "tbe.L1_GetS_IDs.count() > 0"
    let entry ← ctx.line.getEntry
    return ctx.send (.response tbe.l1GetSIDs (.data l2Bank 0 entry.block false false))
  | .sendExclusiveDataToGetSRequestors => do
    let tbe ← ctx.line.getTBE
    assertThat (tbe.l1GetSIDs.card = 1) "tbe.L1_GetS_IDs.count() == 1"
    let entry ← ctx.line.getEntry
    return ctx.send (.response tbe.l1GetSIDs (.dataExclusive 0 entry.block false false))
  | .sendDataToGetXRequestor => do
    let tbe ← ctx.line.getTBE
    let entry ← ctx.line.getEntry
    return ctx.send (.response {tbe.l1GetXID} (.data l2Bank 0 entry.block false false))
  | .sendInvToSharers => do
    let entry ← ctx.line.getEntry
    return ctx.send (.request entry.sharers (replacementInv place))
  | .sendInvToNackers => do
    let tbe ← ctx.line.getTBE
    return ctx.send (.request tbe.nackers (replacementInv place))
  | .checkReadWriteFilterSharers => ctx.sendToOtherSharers place input .checkReadWriteSet
  | .checkWriteFilter => ctx.sendToOtherSharers place input .checkWriteSet
  | .sendFwdInvToSharersMinusRequestor => ctx.sendToOtherSharers place input .inv
  | .allocateTBE => do
    let entry ← ctx.line.getEntry
    return ctx.setTBE (some
      { tbeState := .np, block := entry.block, dirty := entry.dirty, l1GetSIDs := ∅, nackers := ∅
        l1GetXID := createInvalidMachineID, pendingAcks := entry.sharers.card })
  | .deallocateTBE => return ctx.setTBE none
  | .popL1RequestQueue | .popUnblockQueue | .popIncomingResponseQueue => return ctx.pop
  | .writeDataToCache => do
    let (block, dirty) ← input.peekBlock
    ctx.updateEntry fun entry => { entry with block := block, dirty := entry.dirty || dirty }
  | .writeDataToCacheFromRequest => do
    let msg ← input.peekRequest
    ctx.updateEntry fun entry => match msg.data with
      | some block => { entry with block := block, dirty := true }
      | none => entry
  | .updateAck => do
    let msg ← input.peekResponse
    ctx.updateTBE fun tbe => { tbe with pendingAcks := tbe.pendingAcks - msg.ackCount }
  | .writeDataToTBE => do
    let (block, dirty) ← input.peekBlock
    ctx.updateTBE fun tbe => { tbe with block := block, dirty := dirty }
  | .recordGetSL1ID => do
    let msg ← input.peekRequest
    ctx.updateTBE fun tbe => { tbe with l1GetSIDs := insert msg.remoteId tbe.l1GetSIDs }
  | .recordGetXL1ID => do
    let msg ← input.peekRequest
    ctx.updateTBE fun tbe => { tbe with l1GetXID := msg.remoteId }
  | .allocateL2CacheBlock =>
    return if ctx.line.entry.isNone then
      ctx.setEntry (some ⟨.np, ∅, createInvalidMachineID, fun _ => 0, false⟩) else ctx
  | .deallocateL2CacheBlock => return ctx.setEntry none
  | .sendWBAck => do
    let msg ← input.peekRequest
    return ctx.send (.response {msg.remoteId} .wbAck)
  | .sendInvAckToUpgrader => do
    let msg ← input.peekRequest
    let entry ← ctx.line.getEntry
    return ctx.send (.response {msg.remoteId} (.ack l2Bank (0 - entry.sharers.card + 1)))
  | .addSharer => do
    let msg ← input.peekRequest
    ctx.updateEntry fun entry => { entry with sharers := insert msg.remoteId entry.sharers }
  | .addSharerFromYield => do
    Context.assertEvicts place
    let requestor ← input.peekYield
    ctx.updateEntry fun entry => { entry with sharers := insert requestor entry.sharers }
  | .addSharerFromUnblock => do
    let msg ← input.peekUnblock
    ctx.addSharerFromUnblock (senderOf msg)
  | .clearSharers => ctx.updateEntry fun entry =>
      { entry with sharers := ∅, exclusive := createInvalidMachineID }
  | .clearExclusive => ctx.updateEntry fun entry =>
      { entry with exclusive := createInvalidMachineID }
  | .markExclusiveFromUnblock => do
    let msg ← input.peekUnblock
    ctx.markExclusiveFromUnblock (senderOf msg)
  | .stallAndWaitL1RequestQueue | .recycleResponseNetwork => return ctx
  | .missDataToGetXRequestor =>
    ctx.sendMissData place (fun tbe => {tbe.l1GetXID}) fun count block =>
      .data createInvalidMachineID count block false true
  | .missDataToGetSRequestor =>
    ctx.sendMissData place TBE.l1GetSIDs fun count block => .dataExclusive count block false true
  | .checkL1ReadWriteFiltersExceptRequestor => do
    Context.assertEvicts place
    let msg ← input.peekRequest
    return ctx.send (.request (place.l1Caches.erase msg.remoteId)
      (fwdMsg place .checkReadWriteSet
        { msg.toRemoteRequest with remoteTimestamp := place.curCycle }))
  | .copyNackersIntoSharers => do
    Context.assertEvicts place
    let msg ← input.peekUnblock
    assertThat ((nackersOf msg).card > 0) "in_msg.Nackers.count() > 0"
    ctx.updateEntry fun entry => { entry with sharers := nackersOf msg }
  | .markExclusiveFromUnblockNackers => do
    Context.assertEvicts place
    let msg ← input.peekUnblock
    assertThat ((nackersOf msg).card = 1) "in_msg.Nackers.count() == 1"
    ctx.updateEntry fun entry => { entry with
      sharers := {Context.smallestElement place (nackersOf msg)}
      exclusive := Context.smallestElement place (nackersOf msg) }

/-- The controller with a message at one of its ports. -/
def controller (place : Place) (input : Input n) : Controller State Event Action (Context n) where
  table := transitions
  getState ctx := ctx.line.getState
  setState ctx state := { ctx with line := ctx.line.setState state }
  perform := perform place input

/-! ## Ports -/

/-- The event of a message on the unblock network. -/
def unblockEvent : UnblockMsg → Event
  | .exclusiveUnblock _ => .exclusiveUnblock
  | .unblock _ => .unblock
  | .unblockCancel _ nackers isWriter =>
    if nackers.card > 1 ∨ (nackers.card = 1 ∧ isWriter = false) then .unblockCancelSS
    else if nackers.card = 1 ∧ isWriter = true then .unblockCancelMMT
    else .unblockCancel

/-- `L1unblockNetwork_in`. -/
def l1UnblockNetworkIn (place : Place) (msg : UnblockMsg) (ctx : Context n) : Checked (Context n) :=
  (controller place (.unblock msg)).trigger (unblockEvent msg) ctx

/-- The event of a message on the response network, and the nacker it adds to the TBE. -/
def responseEvent (ctx : Context n) (msg : ResponseMsg n) : Checked (Event × Context n) :=
  match msg with
  | .data _ _ _ dirty _ => return (if dirty then .wbData else .wbDataClean, ctx)
  | .ack _ count => do
    let tbe ← ctx.line.getTBE
    return (if tbe.pendingAcks - count = 0 then .ackAll else .ack, ctx)
  | .yield _ => return (.yield, ctx)
  | .nack count nack => do
    assertThat (count = 0) "in_msg.AckCount == 0"
    let ctx ← ctx.updateTBE fun tbe => { tbe with nackers := insert nack.sender tbe.nackers }
    return (.nackAll, ctx)
  | .memoryData _ => return (.memData, ctx)
  | .memoryAck => return (.memAck, ctx)
  | .memoryInv => return (.memInv, ctx)
  | .dataExclusive _ _ _ _ | .wbAck => panicWith "unknown message type"

/-- `responseL2Network_in`. -/
def responseL2NetworkIn (place : Place) (msg : ResponseMsg n) (ctx : Context n) :
    Checked (Context n) := do
  let (event, ctx) ← responseEvent ctx msg
  (controller place (.response msg)).trigger event ctx

/-- Whether a request finds neither a cache entry nor a TBE and has to be checked against the
signatures of all cores. -/
def missNeedsCheck (place : Place) (line : Line n) : Bool :=
  line.entry.isNone && line.tbe.isNone && place.evicts

/-- Whether a request comes from the exclusive owner of a line that no L1 holds. -/
def fromOwner (line : Line n) (requestor : MachineID) : Checked Bool := do
  let owner ← line.isExclusive requestor
  return owner && line.entry.any fun entry => entry.cacheState = .mmt

/-- `L1Cache_request_type_to_event`. -/
def l1CacheRequestTypeToEvent (place : Place) (line : Line n) (type : CoherenceRequestType)
    (requestor : MachineID) : Checked Event :=
  match type with
  | .gets => do
    let owner ← fromOwner line requestor
    return if owner then .l1GetsOwner
      else if missNeedsCheck place line then .l1GetsHtmCheck else .l1Gets
  | .getx => do
    let owner ← fromOwner line requestor
    return if owner then .l1GetxOwner
      else if missNeedsCheck place line then .l1GetxHtmCheck else .l1Getx
  | .upgrade =>
    return if line.isSharer requestor then .l1Upgrade
      else if missNeedsCheck place line then .l1GetxHtmCheck else .l1Getx
  | .putx => return if line.isSharer requestor then .l1Putx else .l1PutxOld
  | .putm => do
    let owner ← line.isExclusive requestor
    return if owner then .l1Putm else .l1PutmOld
  | .inv | .checkReadWriteSet | .checkWriteSet => panicWith "Invalid L1 forwarded request type"

/-- `L1RequestL2Network_in` for a request that finds its line or place for it. -/
def l1RequestL2NetworkIn (place : Place) (msg : RequestMsg n) (ctx : Context n) :
    Checked (Context n) := do
  assertThat (msg.remoteId.type = .l1Cache)
    "machineIDToMachineType(in_msg.Requestor) == MachineType:L1Cache"
  let event ← l1CacheRequestTypeToEvent place ctx.line msg.type msg.remoteId
  (controller place (.request msg)).trigger event ctx

/-- `L1RequestL2Network_in` for a request that needs the place of this line. -/
def victimIn (place : Place) (ctx : Context n) : Checked (Context n) := do
  let entry ← ctx.line.getEntry
  (controller place .victim).trigger
    (if entry.dirty then .l2Replacement else .l2ReplacementClean) ctx

end Gem5.Ruby.L2Cache
