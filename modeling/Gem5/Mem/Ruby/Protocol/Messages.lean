import Gem5.Mem.Ruby.Protocol.NackAggregation

/-!
# Coherence messages

The messages of one line between the L0, L1 and L2 caches and the directory, with
the fields the controllers read.  A requester is described by a `RemoteRequest`, as
in the calls of the transaction manager.
-/

namespace Gem5.Ruby

/-- The L2 bank of the line, `mapAddressToRange`. -/
def l2Bank : MachineID := ⟨.l2Cache, 0⟩

/-- `CoherenceRequestType`. -/
inductive CoherenceRequestType where
  | gets
  | getx
  | upgrade
  | putx
  | putm
  | inv
  | checkReadWriteSet
  | checkWriteSet
  deriving DecidableEq, Repr

/-- `RequestMsg`: a request to the L2 or one the L2 sends to an L1; the fields of the remote request
are those of its `Requestor`.  The block of a written-back line is sent only if it is dirty. -/
structure RequestMsg (n : Nat) extends RemoteRequest where
  type : CoherenceRequestType
  data : Option (DataBlock n)
  deriving DecidableEq

/-- `ResponseMsg` on the response network. -/
inductive ResponseMsg (n : Nat) where
  | data (sender : MachineID) (ackCount : Int) (block : DataBlock n) (dirty l2Miss : Bool)
  | dataExclusive (ackCount : Int) (block : DataBlock n) (dirty l2Miss : Bool)
  | ack (sender : MachineID) (ackCount : Int)
  | nack (ackCount : Int) (msg : NackMsg n)
  | wbAck
  | yield (originalRequestor : MachineID)
  | memoryData (block : DataBlock n)
  | memoryAck
  | memoryInv

/-- `AckCount`. -/
def ResponseMsg.ackCount {n : Nat} : ResponseMsg n → Int
  | .data _ count _ _ _ | .dataExclusive count _ _ _ | .ack _ count | .nack count _ => count
  | .wbAck | .yield _ | .memoryData _ | .memoryAck | .memoryInv => 0

/-- `ResponseMsg` on the unblock network. -/
inductive UnblockMsg where
  | unblock (sender : MachineID)
  | exclusiveUnblock (sender : MachineID)
  | unblockCancel (sender : MachineID) (nackers : Finset MachineID) (nackerIsWriter : Bool)
  deriving DecidableEq

/-- `CoherenceMsg` from an L0 to its L1. -/
inductive FromL0Msg (n : Nat) where
  | gets (req : RemoteRequest)
  | getx (req : RemoteRequest)
  | upgrade (req : RemoteRequest)
  | putx (block : DataBlock n) (dirty : Bool)
  | putxCopy (block : DataBlock n) (dirty : Bool)
  | invData (block : DataBlock n) (dirty : Bool)
  | invAck
  | nack (originalRequestor : MachineID) (transactional : TransactionBit) (priority : Priority)
      (swPriority : Bool) (data : Option (DataBlock n))

/-- `CoherenceMsg` from an L1 to its L0. -/
inductive ToL0Msg (n : Nat) where
  | data (block : DataBlock n)
  | dataExclusive (block : DataBlock n) (dirty : Bool)
  | staleData (block : DataBlock n) (dirty : Bool)
  | nack (msg : Nack n)
  | invOwn
  | invElse (req : RemoteRequest)
  | gets (req : RemoteRequest)

end Gem5.Ruby
