import Gem5.Foundation.Controller
import Gem5.Mem.Ruby.Protocol.Messages

/-!
# The L1 cache controller of `MESI_Three_Level_HTM_umu`

One line of an L1 cache: its cache entry, its TBE, and the flags with which a nack of
the L0 waits for the request it answers.  The transitions are those of the source, in
its order; an incoming message is turned into an event by its port and the event
triggers a transition.  Statistics, the replacement order and the wake-up of stalled
messages are left out: a stalled message stays in its queue and may be tried again at
any time.
-/

namespace Gem5.Ruby

open Foundation TransactionInterfaceManager

/-- What a cache controller asks the transaction manager of its core. -/
class XactMgr (σ : Type) where
  params : HTMParams
  checkReadSignature : σ → Addr → Checked Bool
  checkWriteSignature : σ → Addr → Bool
  isBlockConsumed : σ → Addr → Bool
  getOldestTimestamp : σ → Checked Cycles
  shouldNackLoad : σ → RemoteRequest → Checked (Bool × σ)
  shouldNackStore : σ → RemoteRequest → Checked (Bool × σ)

instance (params : HTMParams) (n : Nat) : XactMgr (TransactionInterfaceManager params n) where
  params := params
  checkReadSignature := checkReadSignature
  checkWriteSignature := checkWriteSignature
  isBlockConsumed := isBlockConsumed
  getOldestTimestamp := getOldestTimestamp
  shouldNackLoad := shouldNackLoad
  shouldNackStore := shouldNackStore

namespace L1Cache

/-- The states of a line. -/
inductive State where
  | i
  | s
  | ss
  | e
  | ee
  | m
  | mm
  | is
  | iss
  | isx
  | im
  | sm
  | imM
  | isI
  | mI
  | mmS
  | sinkWbAck
  | sIL0
  | eIL0
  | mIL0
  | mDL0
  | eDL0
  | mmIL0
  | smIL0
  deriving DecidableEq, Repr

inductive Event where
  | load
  | store
  | writeBack
  | l0DataAck
  | inv
  | l0InvalidateOwn
  | l0InvalidateElse
  | l0DowngradeElse
  | l1Replacement
  | l1ReplacementWset
  | l1ReplacementRset
  | fwdGetx
  | fwdGets
  | data
  | dataExclusive
  | dataExclusiveHtmCheck
  | dataSFromL1
  | dataAllAcks
  | dataAllNacks
  | dataExclusiveAllAcks
  | dataExclusiveAllNacks
  | l0Ack
  | ack
  | ackAll
  | nackAll
  | wbAck
  | invX
  | fwdGetxX
  | fwdGetsX
  | checkReadWriteSet
  | checkWriteSet
  | writebackCopy
  | l0NackOwn
  | l0NackElse
  deriving DecidableEq, Repr

inductive Action where
  | issueGETS
  | issueGETX
  | issueUPGRADE
  | sendDataToRequestor
  | sendNackToL1Requestor
  | sendYieldToL2
  | sendInvNackToL1Requestor
  | sendDataToL2
  | sendDataToRequestorFromTBE
  | sendDataToL2FromTBE
  | sendInvAck
  | forwardEvictionToL0Own
  | forwardEvictionToL0Else
  | forwardDowngradeToL0Else
  | issuePUTX
  | issuePUTM
  | sendUnblock
  | sendUnblockCancel
  | sendExclusiveUnblock
  | dataToL0
  | nackToL0
  | xdataToL0
  | staleDataToL0
  | allocateTBE
  | popL0RequestQueue
  | popL2RequestQueue
  | popL2ResponseQueue
  | deallocateTBE
  | writeDataFromL0
  | writeDataFromL2Response
  | updateAckCount
  | deallocateCacheBlock
  | allocateCacheBlock
  | stallAndWaitL0Queue
  | stallAndWaitL2Queue
  | checkHtmWriteSet
  | checkHtmReadWriteSet
  | sendNackToL2Replacement
  deriving DecidableEq, Repr

/-- The transitions, in the order of the source. -/
def transitions : List (Rule State Event Action) := [
  ⟨[.is, .iss, .im, .isI, .mI, .imM, .sm, .sinkWbAck, .sIL0, .mIL0, .eIL0, .mmIL0, .eDL0, .mDL0],
    [.load, .store, .l1Replacement, .l1ReplacementWset, .l1ReplacementRset], none,
    [.stallAndWaitL0Queue]⟩,
  ⟨[.i], [.load], some .is, [.allocateCacheBlock, .allocateTBE, .issueGETS, .popL0RequestQueue]⟩,
  ⟨[.i], [.store], some .im, [.allocateCacheBlock, .allocateTBE, .issueGETX, .popL0RequestQueue]⟩,
  ⟨[.i], [.inv], none, [.sendInvAck, .popL2RequestQueue]⟩,
  ⟨[.s, .ss], [.load], some .s, [.dataToL0, .popL0RequestQueue]⟩,
  ⟨[.s, .ss], [.store], some .sm, [.allocateTBE, .issueUPGRADE, .popL0RequestQueue]⟩,
  ⟨[.ss], [.l1Replacement, .l1ReplacementRset], some .i, [.deallocateCacheBlock]⟩,
  ⟨[.s], [.l0InvalidateOwn], some .sIL0, [.forwardEvictionToL0Own]⟩,
  ⟨[.s], [.l0InvalidateElse], some .sIL0, [.forwardEvictionToL0Else]⟩,
  ⟨[.ss], [.inv], some .i, [.sendInvAck, .deallocateCacheBlock, .popL2RequestQueue]⟩,
  ⟨[.ee, .mm], [.store], some .m, [.xdataToL0, .popL0RequestQueue]⟩,
  ⟨[.ee], [.l1Replacement], some .mI, [.allocateTBE, .issuePUTX, .deallocateCacheBlock]⟩,
  ⟨[.ee], [.inv], some .i, [.sendInvAck, .deallocateCacheBlock, .popL2RequestQueue]⟩,
  ⟨[.ee], [.fwdGetx], some .i, [.sendDataToRequestor, .deallocateCacheBlock, .popL2RequestQueue]⟩,
  ⟨[.ee], [.fwdGets], some .ss, [.sendDataToRequestor, .sendDataToL2, .popL2RequestQueue]⟩,
  ⟨[.e], [.l0InvalidateOwn], some .eIL0, [.forwardEvictionToL0Own]⟩,
  ⟨[.e], [.l0InvalidateElse], some .eIL0, [.forwardEvictionToL0Else]⟩,
  ⟨[.e], [.l0DowngradeElse], some .eDL0, [.forwardDowngradeToL0Else]⟩,
  ⟨[.mm], [.l1Replacement], some .mI, [.allocateTBE, .issuePUTX, .deallocateCacheBlock]⟩,
  ⟨[.mm, .ee], [.l1ReplacementRset, .l1ReplacementWset], some .mI,
    [.allocateTBE, .issuePUTM, .deallocateCacheBlock]⟩,
  ⟨[.m, .e], [.writeBack], some .mm, [.writeDataFromL0, .popL0RequestQueue]⟩,
  ⟨[.mI], [.wbAck], some .i, [.deallocateTBE, .popL2ResponseQueue, .deallocateCacheBlock]⟩,
  ⟨[.mm], [.inv], some .i, [.sendDataToL2, .deallocateCacheBlock, .popL2RequestQueue]⟩,
  ⟨[.mI], [.inv], some .sinkWbAck, [.sendDataToL2FromTBE, .popL2RequestQueue]⟩,
  ⟨[.mm], [.fwdGetx], some .i, [.sendDataToRequestor, .deallocateCacheBlock, .popL2RequestQueue]⟩,
  ⟨[.mm], [.fwdGets], some .ss, [.sendDataToRequestor, .sendDataToL2, .popL2RequestQueue]⟩,
  ⟨[.i, .im, .is, .isI, .sm, .imM, .ss, .s], [.invX], none,
    [.sendInvNackToL1Requestor, .popL2RequestQueue]⟩,
  ⟨[.e, .m], [.invX], none, [.sendNackToL2Replacement, .popL2RequestQueue]⟩,
  ⟨[.i], [.fwdGets, .fwdGetx], none, [.sendYieldToL2, .popL2RequestQueue]⟩,
  ⟨[.i, .im, .is, .isI, .iss, .mm, .m, .mI, .ee, .e], [.fwdGetsX, .fwdGetxX], none,
    [.sendNackToL1Requestor, .popL2RequestQueue]⟩,
  ⟨[.m], [.l0InvalidateOwn], some .mIL0, [.forwardEvictionToL0Own]⟩,
  ⟨[.m], [.l0InvalidateElse], some .mIL0, [.forwardEvictionToL0Else]⟩,
  ⟨[.m], [.l0DowngradeElse], some .mDL0, [.forwardDowngradeToL0Else]⟩,
  ⟨[.mI], [.fwdGetx], some .sinkWbAck, [.sendDataToRequestorFromTBE, .popL2RequestQueue]⟩,
  ⟨[.mI], [.fwdGets], some .sinkWbAck,
    [.sendDataToRequestorFromTBE, .sendDataToL2FromTBE, .popL2RequestQueue]⟩,
  ⟨[.is, .isI], [.inv], some .isI, [.sendInvAck, .popL2RequestQueue]⟩,
  ⟨[.is], [.dataAllAcks], some .s,
    [.writeDataFromL2Response, .dataToL0, .deallocateTBE, .popL2ResponseQueue]⟩,
  ⟨[.isI], [.dataAllAcks], some .i,
    [.writeDataFromL2Response, .staleDataToL0, .deallocateTBE, .deallocateCacheBlock,
      .popL2ResponseQueue]⟩,
  ⟨[.is], [.dataSFromL1], some .s,
    [.writeDataFromL2Response, .sendUnblock, .dataToL0, .deallocateTBE, .popL2ResponseQueue]⟩,
  ⟨[.isI], [.dataSFromL1], some .i,
    [.writeDataFromL2Response, .sendUnblock, .staleDataToL0, .deallocateTBE,
      .deallocateCacheBlock, .popL2ResponseQueue]⟩,
  ⟨[.is, .isI, .im], [.nackAll], some .i,
    [.nackToL0, .sendUnblockCancel, .deallocateTBE, .deallocateCacheBlock, .popL2ResponseQueue]⟩,
  ⟨[.sm], [.nackAll], some .s,
    [.nackToL0, .sendUnblockCancel, .deallocateTBE, .popL2ResponseQueue]⟩,
  ⟨[.imM], [.nackAll], some .i,
    [.nackToL0, .sendUnblockCancel, .deallocateTBE, .popL2ResponseQueue]⟩,
  ⟨[.is, .isI], [.dataExclusive], some .e,
    [.writeDataFromL2Response, .xdataToL0, .sendExclusiveUnblock, .deallocateTBE,
      .popL2ResponseQueue]⟩,
  ⟨[.im], [.inv], some .im, [.sendInvAck, .popL2RequestQueue]⟩,
  ⟨[.im], [.data], some .imM, [.writeDataFromL2Response, .updateAckCount, .popL2ResponseQueue]⟩,
  ⟨[.im], [.dataAllAcks], some .m,
    [.writeDataFromL2Response, .xdataToL0, .sendExclusiveUnblock, .deallocateTBE,
      .popL2ResponseQueue]⟩,
  ⟨[.is, .iss, .im], [.dataAllNacks], some .i,
    [.writeDataFromL2Response, .nackToL0, .sendUnblockCancel, .deallocateTBE,
      .deallocateCacheBlock, .popL2ResponseQueue]⟩,
  ⟨[.is], [.data], some .iss, [.writeDataFromL2Response, .updateAckCount, .popL2ResponseQueue]⟩,
  ⟨[.is, .isI], [.ack], some .iss, [.updateAckCount, .popL2ResponseQueue]⟩,
  ⟨[.sm, .im, .iss, .imM], [.ack], none, [.updateAckCount, .popL2ResponseQueue]⟩,
  ⟨[.iss], [.ackAll], some .s, [.sendUnblock, .dataToL0, .deallocateTBE, .popL2ResponseQueue]⟩,
  ⟨[.is, .iss], [.dataExclusiveHtmCheck], some .isx,
    [.writeDataFromL2Response, .updateAckCount, .popL2ResponseQueue]⟩,
  ⟨[.isx], [.ackAll], some .e,
    [.xdataToL0, .sendExclusiveUnblock, .deallocateTBE, .popL2ResponseQueue]⟩,
  ⟨[.iss, .isx], [.nackAll], none,
    [.nackToL0, .sendUnblockCancel, .deallocateTBE, .deallocateCacheBlock, .popL2ResponseQueue]⟩,
  ⟨[.iss], [.dataAllAcks], some .s,
    [.writeDataFromL2Response, .sendUnblock, .dataToL0, .deallocateTBE, .popL2ResponseQueue]⟩,
  ⟨[.iss], [.dataExclusiveAllAcks], some .e,
    [.writeDataFromL2Response, .xdataToL0, .sendExclusiveUnblock, .deallocateTBE,
      .popL2ResponseQueue]⟩,
  ⟨[.iss], [.dataExclusiveAllNacks], some .i,
    [.writeDataFromL2Response, .nackToL0, .sendUnblockCancel, .deallocateTBE,
      .deallocateCacheBlock, .popL2ResponseQueue]⟩,
  ⟨[.sm, .imM, .im], [.ackAll], some .m,
    [.sendExclusiveUnblock, .xdataToL0, .deallocateTBE, .popL2ResponseQueue]⟩,
  ⟨[.sm], [.inv, .l0InvalidateElse], some .smIL0, [.forwardEvictionToL0Else]⟩,
  ⟨[.sinkWbAck], [.inv], none, [.sendInvAck, .popL2RequestQueue]⟩,
  ⟨[.sinkWbAck], [.wbAck], some .i, [.deallocateTBE, .popL2ResponseQueue, .deallocateCacheBlock]⟩,
  ⟨[.mIL0, .eIL0], [.writeBack], some .mmIL0, [.writeDataFromL0, .popL0RequestQueue]⟩,
  ⟨[.mIL0, .eIL0], [.l0DataAck], some .mm, [.writeDataFromL0, .popL0RequestQueue]⟩,
  ⟨[.eDL0, .mDL0], [.l0DataAck], some .mmS, [.writeDataFromL0, .popL0RequestQueue]⟩,
  ⟨[.eDL0, .mDL0], [.writebackCopy], none, [.writeDataFromL0, .popL0RequestQueue]⟩,
  ⟨[.eDL0, .mDL0], [.l0Ack], some .mm, [.popL0RequestQueue]⟩,
  ⟨[.sIL0], [.l0NackElse], some .s, [.popL0RequestQueue]⟩,
  ⟨[.eIL0, .eDL0], [.l0NackElse], some .e, [.popL0RequestQueue]⟩,
  ⟨[.mIL0, .mDL0], [.l0NackElse], some .m, [.popL0RequestQueue]⟩,
  ⟨[.smIL0], [.l0NackElse], some .sm, [.popL0RequestQueue]⟩,
  ⟨[.mmIL0], [.l0NackElse], some .mm, [.popL0RequestQueue]⟩,
  ⟨[.eDL0, .mDL0], [.writeBack], some .mDL0, [.writeDataFromL0, .popL0RequestQueue]⟩,
  ⟨[.eDL0, .mDL0], [.l0InvalidateOwn], none, [.stallAndWaitL0Queue]⟩,
  ⟨[.mmS], [.fwdGets], some .s, [.sendDataToRequestor, .sendDataToL2, .popL2RequestQueue]⟩,
  ⟨[.mIL0, .mmIL0], [.l0Ack], some .mm, [.popL0RequestQueue]⟩,
  ⟨[.eIL0], [.l0Ack], some .ee, [.popL0RequestQueue]⟩,
  ⟨[.sIL0], [.l0Ack], some .ss, [.popL0RequestQueue]⟩,
  ⟨[.smIL0], [.l0Ack], some .im, [.popL0RequestQueue]⟩,
  ⟨[.sIL0, .mIL0, .eIL0, .smIL0, .sm], [.l0InvalidateOwn], none, [.stallAndWaitL0Queue]⟩,
  ⟨[.sIL0, .mIL0, .eIL0, .smIL0], [.l0InvalidateElse], none, [.stallAndWaitL2Queue]⟩,
  ⟨[.mDL0, .eDL0, .eIL0, .mIL0], [.l0DowngradeElse], none, [.stallAndWaitL2Queue]⟩,
  ⟨[.sIL0, .mIL0, .eIL0, .mmIL0], [.inv, .fwdGetx, .fwdGets], none, [.stallAndWaitL2Queue]⟩,
  ⟨[.sIL0, .mIL0, .eIL0, .mDL0, .eDL0, .mmIL0], [.invX, .fwdGetxX, .fwdGetsX], none,
    [.stallAndWaitL2Queue]⟩,
  ⟨[.ee, .e], [.load], some .e, [.xdataToL0, .popL0RequestQueue]⟩,
  ⟨[.mm, .m], [.load], some .m, [.xdataToL0, .popL0RequestQueue]⟩,
  ⟨[.e, .m], [.store], some .m, [.xdataToL0, .popL0RequestQueue]⟩,
  ⟨[.m, .e], [.writebackCopy], some .m, [.writeDataFromL0, .popL0RequestQueue]⟩,
  ⟨[.mIL0, .eIL0], [.writebackCopy], some .mIL0, [.writeDataFromL0, .popL0RequestQueue]⟩,
  ⟨[.im], [.dataExclusive], some .e,
    [.writeDataFromL2Response, .xdataToL0, .sendExclusiveUnblock, .deallocateTBE,
      .popL2ResponseQueue]⟩,
  ⟨[.eIL0], [.l0NackOwn], some .e, [.popL0RequestQueue]⟩,
  ⟨[.mIL0], [.l0NackOwn], some .m, [.popL0RequestQueue]⟩,
  ⟨[.sIL0], [.l0NackOwn], some .s, [.popL0RequestQueue]⟩,
  ⟨[.i, .is, .isI, .im, .mI, .sinkWbAck], [.checkWriteSet], none,
    [.checkHtmWriteSet, .popL2RequestQueue]⟩,
  ⟨[.i, .is, .isI, .im, .mI, .sinkWbAck], [.checkReadWriteSet], none,
    [.checkHtmReadWriteSet, .popL2RequestQueue]⟩,
  ⟨[.i], [.l1Replacement], none, [.deallocateCacheBlock]⟩]

/-- `inL0Cache`. -/
def inL0Cache : State → Bool
  | .s | .e | .m | .sm | .sIL0 | .eIL0 | .mDL0 | .eDL0 | .mIL0 | .smIL0 => true
  | _ => false

/-! ## The line -/

/-- The cache entry. -/
structure Entry (n : Nat) where
  cacheState : State
  block : DataBlock n
  dirty : Bool
  deriving DecidableEq

/-- The TBE of a request or of a writeback. -/
structure TBE (n : Nat) where
  tbeState : State
  block : DataBlock n
  dirty : Bool
  pendingAcks : Int
  nacks : NackTbe n
  l2Miss : Bool

/-- The flags `l0_nack_else`, set by a nack of the L0 until the request it answers is tried again.
Only the first one is reset then.  The controller has one set of them for all its lines; here each
line has its own. -/
structure L0NackElse (n : Nat) where
  pending : Bool := false
  transactional : TransactionBit := .nonTrans
  priority : Priority := 0
  swPriority : Bool := false
  data : Option (DataBlock n) := none

/-- What the controller holds of one line. -/
structure Line (n : Nat) where
  entry : Option (Entry n)
  tbe : Option (TBE n)
  l0NackElse : L0NackElse n

variable {n : Nat}

namespace Line

/-- A line the cache does not hold. -/
def invalid : Line n := ⟨none, none, {}⟩

variable (line : Line n)

/-- `getState`. -/
def getState : State :=
  match line.tbe, line.entry with
  | some tbe, _ => tbe.tbeState
  | none, some entry => entry.cacheState
  | none, none => .i

/-- `setState`. -/
def setState (state : State) : Line n :=
  { line with
    tbe := line.tbe.map fun tbe => { tbe with tbeState := state }
    entry := line.entry.map fun entry => { entry with cacheState := state } }

/-- The cache entry, where the controller dereferences it. -/
def getEntry : Checked (Entry n) :=
  match line.entry with
  | some entry => return entry
  | none => .error (.assertion "is_valid(cache_entry)")

/-- The TBE, where the controller dereferences it. -/
def getTBE : Checked (TBE n) :=
  match line.tbe with
  | some tbe => return tbe
  | none => .error (.assertion "is_valid(tbe)")

/-- Whether the L0 may hold the line, by the state of the cache entry. -/
def maybeInL0 : Bool :=
  line.entry.any fun entry => inL0Cache entry.cacheState

end Line

/-- A message the controller sends. -/
inductive Output (n : Nat) where
  | request (msg : RequestMsg n)
  | response (destination : MachineID) (msg : ResponseMsg n)
  | unblock (msg : UnblockMsg)
  | toL0 (msg : ToL0Msg n)

/-- The message at the head of one of the ports; `victim` is a request of the L0 for another block
that needs the place of this one. -/
inductive Input (n : Nat) where
  | response (msg : ResponseMsg n)
  | request (msg : RequestMsg n)
  | fromL0 (msg : FromL0Msg n)
  | victim

namespace Input

/-- `peek(responseNetwork_in, ResponseMsg)`. -/
def peekResponse : Input n → Checked (ResponseMsg n)
  | .response msg => return msg
  | _ => .error (.assertion "peek(responseNetwork_in, ResponseMsg)")

/-- `peek(requestNetwork_in, RequestMsg)`. -/
def peekRequest : Input n → Checked (RequestMsg n)
  | .request msg => return msg
  | _ => .error (.assertion "peek(requestNetwork_in, RequestMsg)")

/-- The request of the L0 that a miss turns into a request of the L1. -/
def peekL0Request : Input n → Checked RemoteRequest
  | .fromL0 (.gets req) | .fromL0 (.getx req) | .fromL0 (.upgrade req) => return req
  | _ => .error (.assertion "peek(messageBufferFromL0_in, CoherenceMsg)")

/-- The block in a message of the L0, if it is dirty. -/
def peekL0Block : Input n → Checked (Option (DataBlock n))
  | .fromL0 (.putx block dirty) | .fromL0 (.putxCopy block dirty)
  | .fromL0 (.invData block dirty) => return if dirty then some block else none
  | _ => .error (.assertion "peek(messageBufferFromL0_in, CoherenceMsg)")

end Input

/-- What a transition works on: the manager of the core, the line, the messages sent so far, and
whether the message that caused the event has left its queue. -/
structure Context (σ : Type) (n : Nat) where
  mgr : σ
  line : Line n
  sent : List (Output n)
  popped : Bool

/-- The controller and the line. -/
structure Place where
  machineID : MachineID
  address : Addr

variable {σ : Type}

/-! ## Actions -/

namespace Context

variable (ctx : Context σ n)

/-- A message leaves. -/
def send (output : Output n) : Context σ n :=
  { ctx with sent := ctx.sent ++ [output] }

/-- The message leaves its queue. -/
def pop : Context σ n :=
  { ctx with popped := true }

/-- The cache entry changes. -/
def setEntry (entry : Option (Entry n)) : Context σ n :=
  { ctx with line := { ctx.line with entry := entry } }

/-- The TBE changes. -/
def setTBE (tbe : Option (TBE n)) : Context σ n :=
  { ctx with line := { ctx.line with tbe := tbe } }

/-- `a_issueGETS`, `b_issueGETX`, `c_issueUPGRADE`. -/
def issue (place : Place) (type : CoherenceRequestType) (input : Input n) :
    Checked (Context σ n) := do
  let req ← input.peekL0Request
  let _ ← ctx.line.getTBE
  return ctx.send (.request
    { req with addr := place.address, remoteId := place.machineID, type := type, data := none })

/-- `g_issuePUTX`, `gm_issuePUTM`. -/
def issueWriteback (place : Place) (type : CoherenceRequestType) : Checked (Context σ n) := do
  let entry ← ctx.line.getEntry
  return ctx.send (.request
    { addr := place.address, remoteId := place.machineID, remoteTimestamp := 0
      remoteTrans := .nonTrans, remotePriority := 0, remoteSwPriority := false
      type := type, data := if entry.dirty then some entry.block else none })

/-- The data of the cache entry. -/
def entryData (place : Place) : Checked (ResponseMsg n) := do
  let entry ← ctx.line.getEntry
  return .data place.machineID 0 entry.block entry.dirty false

/-- The data of the TBE. -/
def tbeData (place : Place) : Checked (ResponseMsg n) := do
  let tbe ← ctx.line.getTBE
  return .data place.machineID 0 tbe.block tbe.dirty false

variable [XactMgr σ]

/-- The block that a nack carries on behalf of the L0. -/
def takeNackData : Checked (Option (DataBlock n) × Context σ n) :=
  match ctx.line.l0NackElse.data with
  | none => return (none, ctx)
  | some block => do
    assertThat ((XactMgr.params σ).allowEarlyValueFwd = true) "xact_mgr.config_allowEarlyValueFwd()"
    return (some block, { ctx with line := { ctx.line with
      l0NackElse := { ctx.line.l0NackElse with data := none } } })

/-- `en_sendNackToL1Requestor` and `ein_sendInvNackToL1Requestor`, which counts as an ack. -/
def sendNack (place : Place) (ackCount : Int) (input : Input n) : Checked (Context σ n) := do
  let msg ← input.peekRequest
  assertThat (msg.remoteId.type = .l1Cache)
    "machineIDToMachineType(in_msg.Requestor) == MachineType:L1Cache"
  let timestamp ← XactMgr.getOldestTimestamp ctx.mgr
  let (data, ctx) ← ctx.takeNackData
  return ctx.send (.response msg.remoteId (.nack ackCount
    { addr := place.address, sender := place.machineID, timestamp := timestamp
      trans := ctx.line.l0NackElse.transactional, priority := ctx.line.l0NackElse.priority
      swPriority := ctx.line.l0NackElse.swPriority, data := data
      nackerIsWriter := XactMgr.checkWriteSignature ctx.mgr place.address &&
        !XactMgr.isBlockConsumed ctx.mgr place.address }))

/-- The nackers that `jc_sendUnblockCancel` reports after an L2 miss, and whether they are a
writer.  A local writer is the only one it names. -/
def missNackers (place : Place) (mgr : σ) (nacks : NackTbe n) : Checked (Finset MachineID × Bool) :=
  if nacks.nackersWriters.card = 0 then
    if XactMgr.checkWriteSignature mgr place.address then return ({place.machineID}, false)
    else do
      let isReader ← XactMgr.checkReadSignature mgr place.address
      return (if isReader then insert place.machineID nacks.nackers else nacks.nackers, false)
  else do
    assertThat (nacks.nackersWriters.card = 1) "tbe.NackersWriters.count() == 1"
    assertThat (XactMgr.checkWriteSignature mgr place.address = false)
      "!xact_mgr.checkWriteSignature(address)"
    return (nacks.nackersWriters, true)

/-- The nackers of an unblock; none are reported if the L2 did not miss. -/
def reportedNackers (place : Place) (mgr : σ) (l2Miss : Bool) (nacks : NackTbe n) :
    Checked (Finset MachineID × Bool) :=
  if l2Miss then missNackers place mgr nacks else return (∅, false)

/-- `jc_sendUnblockCancel`. -/
def sendUnblockCancel (place : Place) : Checked (Context σ n) := do
  let tbe ← ctx.line.getTBE
  assertThat (tbe.nacks.nack.isSome = true) "isNack(tbe)"
  let (nackers, isWriter) ← reportedNackers place ctx.mgr tbe.l2Miss tbe.nacks
  return ctx.send (.unblock (.unblockCancel place.machineID nackers isWriter))

/-- `n_nack_to_l0`. -/
def nackToL0 : Checked (Context σ n) := do
  let tbe ← ctx.line.getTBE
  let nack ← nNackToL0 (XactMgr.params σ) tbe.nacks
  return ctx.send (.toL0 (.nack nack))

/-- `u_writeDataFromL0Request` and `u_writeDataFromL0Response`. -/
def writeDataFromL0 (input : Input n) : Checked (Context σ n) := do
  let data ← input.peekL0Block
  let entry ← ctx.line.getEntry
  match data with
  | none => return ctx
  | some block => return ctx.setEntry (some { entry with block := block, dirty := true })

/-- The TBE remembers that the L2 missed. -/
def noteL2Miss (l2Miss : Bool) : Checked (Context σ n) :=
  if l2Miss then do
    let tbe ← ctx.line.getTBE
    return ctx.setTBE (some { tbe with l2Miss := true })
  else return ctx

/-- `u_writeDataFromL2Response`. -/
def writeDataFromL2Response (input : Input n) : Checked (Context σ n) := do
  let msg ← input.peekResponse
  let entry ← ctx.line.getEntry
  match msg with
  | .data _ _ block dirty l2Miss | .dataExclusive _ block dirty l2Miss =>
    (ctx.setEntry (some { entry with block := block, dirty := dirty })).noteL2Miss l2Miss
  | _ => .error (.assertion "in_msg.DataBlk")

/-- `q_updateAckCount`. -/
def updateAckCount (input : Input n) : Checked (Context σ n) := do
  let msg ← input.peekResponse
  let tbe ← ctx.line.getTBE
  return ctx.setTBE (some { tbe with pendingAcks := tbe.pendingAcks - msg.ackCount })

end Context

variable [XactMgr σ]

/-- `shouldNackLoad` of the controller: conflicts are detected here only if the L1 may evict blocks
of a transaction. -/
def shouldNackLoad (mgr : σ) (req : RemoteRequest) : Checked (Bool × σ) :=
  if !(XactMgr.params σ).allowWriteSetL1CacheEvictions &&
      !(XactMgr.params σ).allowReadSetL1CacheEvictions then
    return (false, mgr)
  else do
    assertThat (req.remoteId.type = .l1Cache)
      "machineIDToMachineType(remote_id) == MachineType:L1Cache"
    XactMgr.shouldNackLoad mgr req

/-- `shouldNackStore` of the controller. -/
def shouldNackStore (mgr : σ) (req : RemoteRequest) : Checked (Bool × σ) :=
  if !(XactMgr.params σ).allowReadSetL1CacheEvictions then return (false, mgr)
  else XactMgr.shouldNackStore mgr req

/-- The controller asks only when read set evictions are allowed. -/
theorem shouldNackStore_eq {params : HTMParams} {mgr : TransactionInterfaceManager params n}
    {req : RemoteRequest} : shouldNackStore mgr req =
      if params.allowReadSetL1CacheEvictions then mgr.shouldNackStore req
      else .ok (false, mgr) := by
  change (if (!params.allowReadSetL1CacheEvictions) = true then _ else _) = _
  cases params.allowReadSetL1CacheEvictions <;> rfl

/-- `cws_checkHtmWriteSet` and `crws_checkHtmReadWriteSet`: the answer to a check of the signatures.
The fields a nack leaves unset have their default values. -/
def Context.checkHtmSets (ctx : Context σ n) (place : Place)
    (shouldNack : σ → RemoteRequest → Checked (Bool × σ)) (input : Input n) :
    Checked (Context σ n) := do
  let msg ← input.peekRequest
  let (nacks, mgr) ← shouldNack ctx.mgr msg.toRemoteRequest
  let ctx := { ctx with mgr := mgr }
  if nacks then do
    let timestamp ← XactMgr.getOldestTimestamp mgr
    return ctx.send (.response msg.remoteId (.nack 1
      { addr := place.address, sender := place.machineID, timestamp := timestamp
        trans := .nonTrans, priority := 0, swPriority := false, data := none
        nackerIsWriter := XactMgr.checkWriteSignature mgr place.address }))
  else return ctx.send (.response msg.remoteId (.ack place.machineID 1))

/-- The actions. -/
def perform (place : Place) (input : Input n) (action : Action) (ctx : Context σ n) :
    Checked (Context σ n) :=
  match action with
  | .issueGETS => ctx.issue place .gets input
  | .issueGETX => ctx.issue place .getx input
  | .issueUPGRADE => ctx.issue place .upgrade input
  | .sendDataToRequestor => do
    let msg ← input.peekRequest
    let data ← ctx.entryData place
    return ctx.send (.response msg.remoteId data)
  | .sendNackToL1Requestor => ctx.sendNack place 0 input
  | .sendYieldToL2 => do
    assertThat ((XactMgr.params σ).allowWriteSetL2CacheEvictions = true)
      "xact_mgr.config_allowWriteSetL2CacheEvictions()"
    let msg ← input.peekRequest
    assertThat (msg.remoteId.type = .l1Cache)
      "machineIDToMachineType(in_msg.Requestor) == MachineType:L1Cache"
    return ctx.send (.response l2Bank (.yield msg.remoteId))
  | .sendInvNackToL1Requestor => ctx.sendNack place 1 input
  | .sendDataToL2 => do
    let data ← ctx.entryData place
    return ctx.send (.response l2Bank data)
  | .sendDataToRequestorFromTBE => do
    let msg ← input.peekRequest
    let data ← ctx.tbeData place
    return ctx.send (.response msg.remoteId data)
  | .sendDataToL2FromTBE => do
    let data ← ctx.tbeData place
    return ctx.send (.response l2Bank data)
  | .sendInvAck => do
    let msg ← input.peekRequest
    return ctx.send (.response msg.remoteId (.ack place.machineID 1))
  | .forwardEvictionToL0Own => return ctx.send (.toL0 .invOwn)
  | .forwardEvictionToL0Else => do
    assertThat (ctx.line.l0NackElse.pending = false) "!l0_nack_else"
    let msg ← input.peekRequest
    return ctx.send (.toL0 (.invElse msg.toRemoteRequest))
  | .forwardDowngradeToL0Else => do
    let msg ← input.peekRequest
    return ctx.send (.toL0 (.gets msg.toRemoteRequest))
  | .issuePUTX => ctx.issueWriteback place .putx
  | .issuePUTM => ctx.issueWriteback place .putm
  | .sendUnblock => return ctx.send (.unblock (.unblock place.machineID))
  | .sendUnblockCancel => ctx.sendUnblockCancel place
  | .sendExclusiveUnblock => return ctx.send (.unblock (.exclusiveUnblock place.machineID))
  | .dataToL0 => do
    let entry ← ctx.line.getEntry
    return ctx.send (.toL0 (.data entry.block))
  | .nackToL0 => ctx.nackToL0
  | .xdataToL0 => do
    let entry ← ctx.line.getEntry
    return ctx.send (.toL0 (.dataExclusive entry.block entry.dirty))
  | .staleDataToL0 => do
    let entry ← ctx.line.getEntry
    return ctx.send (.toL0 (.staleData entry.block entry.dirty))
  | .allocateTBE => do
    let entry ← ctx.line.getEntry
    return ctx.setTBE (some
      { tbeState := .i, block := entry.block, dirty := entry.dirty
        pendingAcks := 0, nacks := .empty, l2Miss := false })
  | .popL0RequestQueue | .popL2RequestQueue | .popL2ResponseQueue => return ctx.pop
  | .deallocateTBE => return ctx.setTBE none
  | .writeDataFromL0 => ctx.writeDataFromL0 input
  | .writeDataFromL2Response => ctx.writeDataFromL2Response input
  | .updateAckCount => ctx.updateAckCount input
  | .deallocateCacheBlock => return ctx.setEntry none
  | .allocateCacheBlock =>
    return if ctx.line.entry.isNone then ctx.setEntry (some ⟨.i, fun _ => 0, false⟩) else ctx
  | .stallAndWaitL0Queue | .stallAndWaitL2Queue => return ctx
  | .checkHtmWriteSet => ctx.checkHtmSets place shouldNackLoad input
  | .checkHtmReadWriteSet => ctx.checkHtmSets place shouldNackStore input
  | .sendNackToL2Replacement => do
    let msg ← input.peekRequest
    assertThat (msg.remoteId.type = .l2Cache)
      "machineIDToMachineType(in_msg.Requestor) == MachineType:L2Cache"
    return ctx.send (.response msg.remoteId (.nack 0
      { addr := place.address, sender := place.machineID, timestamp := 0, trans := .nonTrans
        priority := 0, swPriority := false, data := none, nackerIsWriter := false }))

/-- The controller with a message at one of its ports. -/
def controller (place : Place) (input : Input n) : Controller State Event Action (Context σ n) where
  table := transitions
  getState ctx := ctx.line.getState
  setState ctx state := { ctx with line := ctx.line.setState state }
  perform := perform place input

/-! ## Ports -/

/-- The event of the last answer, by what the answers so far were. -/
def lastEvent (tbe : TBE n) (acked nacked : Event) : Event :=
  if tbe.nacks.nack.isSome then nacked else acked

/-- The event of a message on the response network. -/
def responseEvent (line : Line n) (msg : ResponseMsg n) : Checked Event :=
  match msg with
  | .dataExclusive count _ _ _ =>
    if count = 0 then return .dataExclusive
    else do
      let tbe ← line.getTBE
      return if tbe.pendingAcks - count = 0 then
        lastEvent tbe .dataExclusiveAllAcks .dataExclusiveAllNacks else .dataExclusiveHtmCheck
  | .data sender count _ _ _ =>
    if (line.getState = .is ∨ line.getState = .isI) ∧ sender.type = .l1Cache then
      return .dataSFromL1
    else do
      let tbe ← line.getTBE
      return if tbe.pendingAcks - count = 0 then
        lastEvent tbe .dataAllAcks .dataAllNacks else .data
  | .ack _ count | .nack count _ => do
    let tbe ← line.getTBE
    return if tbe.pendingAcks - count = 0 then lastEvent tbe .ackAll .nackAll else .ack
  | .wbAck => return .wbAck
  | _ => panicWith "Invalid L1 response type"

/-- The part of the port that collects a nack in the TBE. -/
def collectNack (params : HTMParams) (line : Line n) (msg : ResponseMsg n) : Checked (Line n) :=
  match msg with
  | .nack _ nack => do
    let tbe ← line.getTBE
    let nacks ← tbe.nacks.setNack params nack
    return { line with tbe := some { tbe with nacks := nacks } }
  | _ => return line

/-- `responseNetwork_in`. -/
def responseNetworkIn (place : Place) (msg : ResponseMsg n) (ctx : Context σ n) :
    Checked (Context σ n) := do
  let line ← collectNack (XactMgr.params σ) ctx.line msg
  let event ← responseEvent line msg
  (controller place (.response msg)).trigger event { ctx with line := line }

/-- The nack of the L0 is used up. -/
def Context.takeL0Nack (ctx : Context σ n) : Context σ n :=
  { ctx with line := { ctx.line with l0NackElse := { ctx.line.l0NackElse with pending := false } } }

/-- The event of a request that conflicts with the local transaction if the verdict says so. -/
def storeEvent (ctx : Context σ n) (req : RemoteRequest) (nacked plain : Event) :
    Checked (Event × Context σ n) :=
  if ctx.line.l0NackElse.pending then return (nacked, ctx.takeL0Nack)
  else do
    let (nacks, mgr) ← shouldNackStore ctx.mgr req
    let ctx := { ctx with mgr := mgr }
    return if nacks then (nacked, ctx)
      else if ctx.line.maybeInL0 then (.l0InvalidateElse, ctx) else (plain, ctx)

/-- The event of a forwarded `GETS`.  A conflict that is found here, and not by the L0, stops at an
assertion. -/
def loadEvent (ctx : Context σ n) (req : RemoteRequest) : Checked (Event × Context σ n) :=
  if ctx.line.l0NackElse.pending then return (.fwdGetsX, ctx.takeL0Nack)
  else do
    let (nacks, mgr) ← shouldNackLoad ctx.mgr req
    let ctx := { ctx with mgr := mgr }
    if nacks then do
      assertThat ((XactMgr.params σ).allowEarlyValueFwd = false)
        "!xact_mgr.config_allowEarlyValueFwd()"
      assertThat False "false"
      return (.fwdGetsX, ctx)
    else if ctx.line.maybeInL0 then
      return (if (XactMgr.params σ).l0DowngradeOnL1Gets then .l0DowngradeElse
        else .l0InvalidateElse, ctx)
    else return (.fwdGets, ctx)

/-- The event of a message on the request network. -/
def requestEvent (ctx : Context σ n) (msg : RequestMsg n) : Checked (Event × Context σ n) :=
  match msg.type with
  | .inv => storeEvent ctx msg.toRemoteRequest .invX .inv
  | .checkReadWriteSet => return (.checkReadWriteSet, ctx)
  | .checkWriteSet => return (.checkWriteSet, ctx)
  | .getx | .upgrade => storeEvent ctx msg.toRemoteRequest .fwdGetxX .fwdGetx
  | .gets => loadEvent ctx msg.toRemoteRequest
  | .putx | .putm => panicWith "Invalid forwarded request type"

/-- `requestNetwork_in`. -/
def requestNetworkIn (place : Place) (msg : RequestMsg n) (ctx : Context σ n) :
    Checked (Context σ n) := do
  let (event, ctx) ← requestEvent ctx msg
  (controller place (.request msg)).trigger event ctx

/-- The event of a message of the L0; a nack that answers a request of another core waits in the
flags until that request is tried again. -/
def l0Event (place : Place) (ctx : Context σ n) (msg : FromL0Msg n) :
    Checked (Event × Context σ n) :=
  match msg with
  | .invData _ _ => return (.l0DataAck, ctx)
  | .nack originalRequestor transactional priority swPriority data =>
    if originalRequestor = place.machineID then return (.l0NackOwn, ctx)
    else do
      assertThat (ctx.line.l0NackElse.pending = false) "!l0_nack_else"
      assertThat (data.isSome = true → (XactMgr.params σ).allowEarlyValueFwd = true)
        "xact_mgr.config_allowEarlyValueFwd()"
      assertThat (data.isSome = true → ctx.line.l0NackElse.data.isNone = true)
        "!l0_nack_else_data"
      return (.l0NackElse, { ctx with line := { ctx.line with l0NackElse :=
        { pending := true, transactional := transactional, priority := priority
          swPriority := swPriority, data := data.or ctx.line.l0NackElse.data } } })
  | .invAck => return (.l0Ack, ctx)
  | .gets _ => return (.load, ctx)
  | .getx _ | .upgrade _ => return (.store, ctx)
  | .putx _ _ => return (.writeBack, ctx)
  | .putxCopy _ _ => return (.writebackCopy, ctx)

/-- `messageBufferFromL0_in` for a message about this line. -/
def messageBufferFromL0In (place : Place) (msg : FromL0Msg n) (ctx : Context σ n) :
    Checked (Context σ n) := do
  let (event, ctx) ← l0Event place ctx msg
  (controller place (.fromL0 msg)).trigger event ctx

/-- `getReplacementEvent`. -/
def getReplacementEvent (place : Place) (mgr : σ) : Checked Event :=
  if (XactMgr.params σ).allowWriteSetL1CacheEvictions &&
      XactMgr.checkWriteSignature mgr place.address then
    return .l1ReplacementWset
  else if (XactMgr.params σ).allowReadSetL1CacheEvictions then do
    let isReader ← XactMgr.checkReadSignature mgr place.address
    return if isReader then .l1ReplacementRset else .l1Replacement
  else return .l1Replacement

/-- The event of a line whose place another block needs. -/
def victimEvent (place : Place) (ctx : Context σ n) : Checked Event :=
  if ctx.line.maybeInL0 then return .l0InvalidateOwn else getReplacementEvent place ctx.mgr

/-- `messageBufferFromL0_in` for a request that needs the place of this line. -/
def victimIn (place : Place) (ctx : Context σ n) : Checked (Context σ n) := do
  let event ← victimEvent place ctx
  (controller place .victim).trigger event ctx

end L1Cache

end Gem5.Ruby
