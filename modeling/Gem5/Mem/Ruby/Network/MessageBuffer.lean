import Gem5.Mem.Ruby.Common
import Gem5.Foundation.HeapContract
import Gem5.Foundation.Transition
import Mathlib.Data.Prod.Lex

/-!
# Message buffers

`MessageBuffer` of `mem/ruby/network`.  Messages wait in a heap ordered by arrival time
and counter; a message whose address is blocked is put aside in a map of stalled
messages and comes back when the address is analyzed again.  Sizes are kept in 32 bits.
A message popped in a cycle leaves room only in the next one.
-/

namespace Gem5.Ruby

open Foundation

/-- `Message`; `id` stands for the pointer to it. -/
structure Message (ι : Type) where
  id : ι
  lastEnqueueTime : Nat
  delayedTicks : Nat
  msgCounter : BitVec 64
  deriving DecidableEq

namespace Message

variable {ι : Type}

/-- `operator>`: by arrival time, then by counter. -/
def greater (l r : Message ι) : Bool :=
  if l.lastEnqueueTime = r.lastEnqueueTime then l.msgCounter > r.msgCounter
  else l.lastEnqueueTime > r.lastEnqueueTime

/-- `updateDelayedTicks`. -/
def updateDelayedTicks (message : Message ι) (curTime : Nat) : Checked (Message ι) := do
  assertThat (message.lastEnqueueTime ≤ curTime) "m_LastEnqueueTime <= curTime"
  return { message with
    delayedTicks := message.delayedTicks + (curTime - message.lastEnqueueTime) }

end Message

/-- The parameters of a message buffer, with the two flags of the Ruby system. -/
structure MessageBufferParams where
  maxSize : BitVec 32
  strictFifo : Bool
  randomized : Bool
  allowZeroLatency : Bool
  warmupEnabled : Bool
  /-- The bytes of a block. -/
  blockSize : Nat

/-- `MessageBuffer`; the map of stalled messages is a list in the order of addresses. -/
structure MessageBuffer (ι : Type) where
  prioHeap : List (Message ι)
  stallMsgMap : List (Addr × List (Message ι))
  stallMapSize : Int
  timeLastTimeEnqueue : Nat
  timeLastTimePop : Nat
  lastArrivalTime : Nat
  sizeAtCycleStart : BitVec 32
  stalledAtCycleStart : BitVec 32
  msgsThisCycle : BitVec 32
  msgCounter : BitVec 64

namespace MessageBuffer

variable {ι : Type}

/-- The constructor. -/
def empty : MessageBuffer ι where
  prioHeap := []
  stallMsgMap := []
  stallMapSize := 0
  timeLastTimeEnqueue := 0
  timeLastTimePop := 0
  lastArrivalTime := 0
  sizeAtCycleStart := 0
  stalledAtCycleStart := 0
  msgsThisCycle := 0
  msgCounter := 0

/-- `isReady`. -/
def isReady (buffer : MessageBuffer ι) (currentTime : Nat) : Bool :=
  buffer.prioHeap.head?.any fun front => front.lastEnqueueTime ≤ currentTime

/-- The sizes `areNSlotsAvailable` compares. -/
def currentSize (buffer : MessageBuffer ι) (currentTime : Nat) : BitVec 32 × BitVec 32 :=
  if buffer.timeLastTimePop < currentTime then
    -- No pops this cycle.
    (BitVec.ofNat 32 buffer.prioHeap.length, BitVec.ofInt 32 buffer.stallMapSize)
  else
    (if buffer.timeLastTimeEnqueue < currentTime then buffer.sizeAtCycleStart
      else buffer.sizeAtCycleStart + buffer.msgsThisCycle,
      buffer.stalledAtCycleStart)

/-- `areNSlotsAvailable`. -/
def areNSlotsAvailable (params : MessageBufferParams) (buffer : MessageBuffer ι) (n : BitVec 32)
    (currentTime : Nat) : Bool :=
  if params.maxSize = 0 then true
  else
    let (size, stallSize) := buffer.currentSize currentTime
    size + stallSize + n ≤ params.maxSize

/-- The arrival time `enqueue` computes; the randomized delay is given. -/
def arrivalTime (params : MessageBufferParams) (buffer : MessageBuffer ι)
    (currentTime delta randomTime : Nat) : Nat :=
  if params.randomized then
    if params.strictFifo then max buffer.lastArrivalTime currentTime + randomTime
    else currentTime + randomTime
  else currentTime + delta

/-- The text of the assertion on the capacity. -/
def capacityText : String :=
  "(m_max_size == 0) || ((m_prio_heap.size() + m_stall_map_size) <= m_max_size)"

variable (std : HeapAlgorithms (Message.greater : Message ι → Message ι → Bool))

/-- `push_back` and `push_heap`. -/
def push (buffer : MessageBuffer ι) (message : Message ι) : MessageBuffer ι :=
  { buffer with prioHeap := std.pushHeap (buffer.prioHeap ++ [message]) }

/-- The start of `enqueue`: count the message in this cycle. -/
def countMessage (buffer : MessageBuffer ι) (currentTime : Nat) : MessageBuffer ι :=
  let buffer :=
    if buffer.timeLastTimeEnqueue < currentTime then
      { buffer with msgsThisCycle := 0, timeLastTimeEnqueue := currentTime }
    else buffer
  { buffer with msgCounter := buffer.msgCounter + 1, msgsThisCycle := buffer.msgsThisCycle + 1 }

/-- `enqueue`. -/
def enqueue (params : MessageBufferParams) (buffer : MessageBuffer ι) (message : Message ι)
    (currentTime delta randomTime : Nat) : Checked (MessageBuffer ι) := do
  let arrival := buffer.arrivalTime params currentTime delta randomTime
  let last := if params.randomized && params.strictFifo then max buffer.lastArrivalTime currentTime
    else buffer.lastArrivalTime
  let buffer := buffer.countMessage currentTime
  panicIf (delta = 0 ∧ params.allowZeroLatency = false)
    "Delta equals zero and allow_zero_latency is false during enqueue"
  assertThat (currentTime ≤ arrival) "arrival_time >= current_time"
  panicIf (params.strictFifo = true ∧ arrival < last) "FIFO ordering violated"
  let buffer := { buffer with lastArrivalTime := if params.warmupEnabled then last else arrival }
  assertThat (message.lastEnqueueTime ≤ currentTime) "ensure we aren't dequeued early"
  let message ← message.updateDelayedTicks currentTime
  let buffer := buffer.push std
    { message with lastEnqueueTime := arrival, msgCounter := buffer.msgCounter }
  assertThat (params.maxSize = 0 ∨
    (buffer.prioHeap.length : Int) + buffer.stallMapSize ≤ params.maxSize.toNat) capacityText
  return buffer

/-- The part of `dequeue` that records the sizes before the first pop of a cycle. -/
def notePop (buffer : MessageBuffer ι) (currentTime : Nat) : MessageBuffer ι :=
  if buffer.timeLastTimePop < currentTime then
    { buffer with
      sizeAtCycleStart := BitVec.ofNat 32 buffer.prioHeap.length
      stalledAtCycleStart := BitVec.ofInt 32 buffer.stallMapSize
      timeLastTimePop := currentTime }
  else buffer

/-- `pop_heap` and `pop_back`. -/
def pop (buffer : MessageBuffer ι) : MessageBuffer ι :=
  { buffer with prioHeap := (std.popHeap buffer.prioHeap).dropLast }

/-- `dequeue`; the message with its delay is returned. -/
def dequeue (buffer : MessageBuffer ι) (currentTime : Nat) :
    Checked (MessageBuffer ι × Message ι) := do
  assertThat (buffer.isReady currentTime = true) "isReady(current_time)"
  match buffer.prioHeap.head? with
  | none => panicWith "m_prio_heap.front()"
  | some front =>
    let message ← front.updateDelayedTicks currentTime
    return ((buffer.notePop currentTime).pop std, message)

/-- `recycle`. -/
def recycle (buffer : MessageBuffer ι) (currentTime recycleLatency : Nat) :
    Checked (MessageBuffer ι) := do
  assertThat (buffer.isReady currentTime = true) "isReady(current_time)"
  match buffer.prioHeap.head? with
  | none => panicWith "m_prio_heap.front()"
  | some node =>
    return (buffer.pop std).push std { node with lastEnqueueTime := currentTime + recycleLatency }

/-- `reanalyzeList`. -/
def reanalyzeList (buffer : MessageBuffer ι) (messages : List (Message ι)) (schdTick : Nat) :
    Checked (MessageBuffer ι) :=
  messages.foldlM (fun buffer m => do
    assertThat (m.lastEnqueueTime ≤ schdTick) "m->getLastEnqueueTime() <= schdTick"
    return buffer.push std m) buffer

/-- The list of messages stalled for an address, if there is one. -/
def stalledAt (buffer : MessageBuffer ι) (addr : Addr) : Option (List (Message ι)) :=
  (buffer.stallMsgMap.find? fun entry => entry.1 = addr).map Prod.snd

/-- `hasStalledMsg`. -/
def hasStalledMsg (buffer : MessageBuffer ι) (addr : Addr) : Bool :=
  (buffer.stalledAt addr).isSome

/-- `reanalyzeMessages`. -/
def reanalyzeMessages (buffer : MessageBuffer ι) (addr : Addr) (currentTime : Nat) :
    Checked (MessageBuffer ι) :=
  match buffer.stalledAt addr with
  | none => .error (.assertion "m_stall_msg_map.count(addr) > 0")
  | some messages => do
    let buffer : MessageBuffer ι :=
      { buffer with stallMapSize := buffer.stallMapSize - (messages.length : Int) }
    assertThat ((0 : Int) ≤ buffer.stallMapSize) "m_stall_map_size >= 0"
    let buffer ← buffer.reanalyzeList std messages currentTime
    return { buffer with
      stallMsgMap := buffer.stallMsgMap.filter fun entry => entry.1 ≠ addr }

/-- `reanalyzeAllMessages`. -/
def reanalyzeAllMessages (buffer : MessageBuffer ι) (currentTime : Nat) :
    Checked (MessageBuffer ι) := do
  let buffer ← buffer.stallMsgMap.foldlM (fun buffer entry => do
    let buffer : MessageBuffer ι :=
      { buffer with stallMapSize := buffer.stallMapSize - (entry.2.length : Int) }
    assertThat ((0 : Int) ≤ buffer.stallMapSize) "m_stall_map_size >= 0"
    buffer.reanalyzeList std entry.2 currentTime) buffer
  return { buffer with stallMsgMap := [] }

/-- `m_stall_msg_map[addr].push_back(message)`. -/
def pushStalled (addr : Addr) (message : Message ι) :
    List (Addr × List (Message ι)) → List (Addr × List (Message ι))
  | [] => [(addr, [message])]
  | (a, messages) :: rest =>
    if addr < a then (addr, [message]) :: (a, messages) :: rest
    else if a < addr then (a, messages) :: pushStalled addr message rest
    else (a, messages ++ [message]) :: rest

/-- `stallMessage`. -/
def stallMessage (params : MessageBufferParams) (buffer : MessageBuffer ι) (addr : Addr)
    (currentTime : Nat) : Checked (MessageBuffer ι) := do
  assertThat (buffer.isReady currentTime = true) "isReady(current_time)"
  assertThat (addr % params.blockSize = 0) "getOffset(addr) == 0"
  let (buffer, message) ← buffer.dequeue std currentTime
  return { buffer with
    stallMsgMap := pushStalled addr message buffer.stallMsgMap
    stallMapSize := buffer.stallMapSize + 1 }

end MessageBuffer

end Gem5.Ruby
