import Gem5.Mem.Ruby.Network.BufferContents

/-!
# Runs of a message buffer

A sender asks for a slot before it enqueues a message.  The answer is computed from sizes
recorded at the first pop of a cycle and from the number of messages of the cycle; it is
safe because what it compares is never less than what the buffer holds.
-/

namespace Gem5.Ruby

open Foundation

namespace MessageBuffer

variable {ι : Type} {std : HeapAlgorithms (Message.greater : Message ι → Message ι → Bool)}
  {params : MessageBufferParams} {buffer buffer' : MessageBuffer ι} {message : Message ι}
  {now time delta randomTime : Nat} {addr : Addr}

/-! ## The record of the cycle -/

/-- What the record of the cycle says about the number of messages. -/
structure Recorded (params : MessageBufferParams) (buffer : MessageBuffer ι) (now : Nat) :
    Prop where
  capacity : buffer.ids.length ≤ params.maxSize.toNat
  popTime : buffer.timeLastTimePop ≤ now
  enqueueTime : buffer.timeLastTimeEnqueue ≤ now
  cycleStart : buffer.sizeAtCycleStart.toNat + buffer.stalledAtCycleStart.toNat ≤
    params.maxSize.toNat
  thisCycle : buffer.msgsThisCycle.toNat ≤ params.maxSize.toNat
  -- After the first pop, at most the messages of this cycle have been added.
  popped : buffer.timeLastTimePop = now → buffer.ids.length ≤
    buffer.sizeAtCycleStart.toNat + buffer.stalledAtCycleStart.toNat +
      if buffer.timeLastTimeEnqueue < now then 0 else buffer.msgsThisCycle.toNat
  -- Before it, the messages of this cycle are all there.
  unpopped : buffer.timeLastTimePop < now → buffer.timeLastTimeEnqueue = now →
    buffer.msgsThisCycle.toNat ≤ buffer.ids.length

/-- There is room for one message, also in the count of the cycle. -/
def Room (params : MessageBufferParams) (buffer : MessageBuffer ι) (now : Nat) : Prop :=
  buffer.ids.length < params.maxSize.toNat ∧
    (buffer.timeLastTimeEnqueue = now → buffer.msgsThisCycle.toNat < params.maxSize.toNat)

namespace Recorded

variable (recorded : buffer.Recorded params now)
include recorded

private theorem advance (le : now ≤ time) : buffer.Recorded params time := by
  rcases Nat.eq_or_lt_of_le le with rfl | less
  · exact recorded
  · have pop := recorded.popTime
    have enqueue := recorded.enqueueTime
    refine ⟨recorded.capacity, by omega, by omega, recorded.cycleStart, recorded.thisCycle, ?_, ?_⟩
    · intro same
      omega
    · intro _ same
      omega

variable {prioHeap : List (Message ι)}

/-- Contents of the same size have the same record. -/
theorem congr {stallMsgMap : List (Addr × List (Message ι))} {stallMapSize : Int}
    (same : (buffer.refill prioHeap stallMsgMap stallMapSize).ids.length = buffer.ids.length) :
    (buffer.refill prioHeap stallMsgMap stallMapSize).Recorded params now := by
  obtain ⟨capacity, popTime, enqueueTime, cycleStart, thisCycle, popped, unpopped⟩ := recorded
  rw [← same] at capacity popped unpopped
  exact ⟨capacity, popTime, enqueueTime, cycleStart, thisCycle, popped, unpopped⟩

/-- A successful check means there is room. -/
theorem room (sound : buffer.Sound now) (small : params.maxSize.toNat < 2 ^ 31)
    (finite : params.maxSize ≠ 0) (available : buffer.areNSlotsAvailable params 1 now = true) :
    buffer.Room params now := by
  obtain ⟨capacity, popTime, enqueueTime, cycleStart, thisCycle, popped, unpopped⟩ := recorded
  have count := buffer.length_ids
  have one : (1 : BitVec 32).toNat = 1 := rfl
  unfold areNSlotsAvailable currentSize at available
  rw [if_neg finite] at available
  by_cases noPops : buffer.timeLastTimePop < now
  · simp only [noPops, if_true, sound.size, BitVec.ofInt_natCast, decide_eq_true_eq, BitVec.le_def,
      BitVec.toNat_add, BitVec.toNat_ofNat, one] at available
    refine ⟨by omega, fun same => ?_⟩
    have added := unpopped noPops same
    omega
  · have atMost := popped (by omega)
    by_cases noEnqueues : buffer.timeLastTimeEnqueue < now
    · simp only [noPops, noEnqueues, if_true, if_false, decide_eq_true_eq, BitVec.le_def,
        BitVec.toNat_add, one] at available atMost
      exact ⟨by omega, fun same => by omega⟩
    · simp only [noPops, noEnqueues, if_false, decide_eq_true_eq, BitVec.le_def,
        BitVec.toNat_add, one] at available atMost
      exact ⟨by omega, fun _ => by omega⟩

/-- Recording the sizes before a pop. -/
theorem notePop (sound : buffer.Sound now) :
    (buffer.notePop now).Recorded params now ∧ (buffer.notePop now).timeLastTimePop = now := by
  have count := buffer.length_ids
  have bound := params.maxSize.isLt
  have capacity := recorded.capacity
  unfold MessageBuffer.notePop
  split
  · next noPops =>
    have heapSize : (BitVec.ofNat 32 buffer.prioHeap.length).toNat = buffer.prioHeap.length := by
      rw [BitVec.toNat_ofNat]
      omega
    have stallSize : (BitVec.ofInt 32 buffer.stallMapSize).toNat = buffer.stalled.length := by
      rw [sound.size, BitVec.ofInt_natCast, BitVec.toNat_ofNat]
      omega
    refine ⟨⟨capacity, le_rfl, recorded.enqueueTime, ?_, recorded.thisCycle, fun _ => ?_,
      fun less => absurd less (lt_irrefl _)⟩, rfl⟩
    · change (BitVec.ofNat 32 _).toNat + (BitVec.ofInt 32 _).toNat ≤ _
      omega
    · change buffer.ids.length ≤ (BitVec.ofNat 32 _).toNat + (BitVec.ofInt 32 _).toNat + _
      omega
  · next pops => exact ⟨recorded, le_antisymm recorded.popTime (not_lt.mp pops)⟩

/-- A message is counted and added. -/
theorem enqueue {lastArrivalTime : Nat} (room : buffer.Room params now)
    (more : (ids { buffer.countMessage now with
      prioHeap := prioHeap, lastArrivalTime := lastArrivalTime }).length = buffer.ids.length + 1) :
    Recorded params { buffer.countMessage now with
      prioHeap := prioHeap, lastArrivalTime := lastArrivalTime } now := by
  obtain ⟨capacity, popTime, enqueueTime, cycleStart, thisCycle, popped, unpopped⟩ := recorded
  obtain ⟨room, roomInCycle⟩ := room
  unfold countMessage at more ⊢
  by_cases first : buffer.timeLastTimeEnqueue < now
  · simp only [first, if_true] at more popped ⊢
    have one : ((0 : BitVec 32) + 1).toNat = 1 := rfl
    refine ⟨by rw [more]; exact room, popTime, le_rfl, cycleStart, ?_, fun same => ?_,
      fun _ _ => ?_⟩
    · change ((0 : BitVec 32) + 1).toNat ≤ _
      omega
    · simp only [lt_irrefl, if_false, more, one]
      have atMost := popped same
      omega
    · simp only [more, one]
      omega
  · simp only [first, if_false] at more popped ⊢
    have counted : (buffer.msgsThisCycle + 1).toNat = buffer.msgsThisCycle.toNat + 1 := by
      rw [BitVec.toNat_add]
      change (_ + 1) % _ = _
      have less := roomInCycle (by omega)
      omega
    refine ⟨by rw [more]; exact room, popTime, enqueueTime, cycleStart, ?_, fun same => ?_,
      fun less same => ?_⟩
    · rw [counted]
      exact roomInCycle (by omega)
    · have atMost := popped same
      simp only [first, if_false, more, counted]
      omega
    · have all := unpopped less same
      simp only [more, counted]
      omega

end Recorded

/-! ## Enqueueing -/

/-- A successful `enqueue` counts the message and pushes it. -/
theorem enqueue_ok (ran : buffer.enqueue std params message time delta randomTime = .ok buffer') :
    ∃ lastArrivalTime message', buffer' = MessageBuffer.push std
        { buffer.countMessage time with lastArrivalTime := lastArrivalTime } message' ∧
      message'.id = message.id := by
  simp only [enqueue, run_eq_ok, panicIf_eq_ok, Message.updateDelayedTicks] at ran
  obtain ⟨-, -, -, -, delayed, ⟨-, rfl⟩, -, rfl⟩ := ran
  exact ⟨_, _, rfl, rfl⟩

@[simp] private theorem countMessage_prioHeap :
    (buffer.countMessage time).prioHeap = buffer.prioHeap := by
  unfold countMessage
  split <;> rfl

@[simp] private theorem countMessage_stallMsgMap :
    (buffer.countMessage time).stallMsgMap = buffer.stallMsgMap := by
  unfold countMessage
  split <;> rfl

@[simp] private theorem countMessage_stallMapSize :
    (buffer.countMessage time).stallMapSize = buffer.stallMapSize := by
  unfold countMessage
  split <;> rfl

/-- Counting a message leaves the contents alone. -/
theorem countMessage_sound (time lastArrivalTime : Nat) (sound : buffer.Sound now) :
    Sound { buffer.countMessage time with lastArrivalTime := lastArrivalTime } now := by
  obtain ⟨heap, addresses, size, arrived⟩ := sound
  constructor
  · simpa using heap
  · simpa using addresses
  · simpa [stalled] using size
  · simpa [stalled] using arrived

/-! ## Runs -/

/-- A buffer with the time of the last call, whether a slot has been granted at that time, and
the messages enqueued and delivered so far. -/
structure Run (ι : Type) where
  buffer : MessageBuffer ι
  now : Nat
  granted : Bool
  enqueued : List ι
  delivered : List ι

/-- The calls on a buffer. -/
inductive Call (ι : Type) where
  | areNSlotsAvailable
  | enqueue (message : Message ι) (delta randomTime : Nat)
  | dequeue
  | recycle (recycleLatency : Nat)
  | stallMessage (addr : Addr)
  | reanalyzeMessages (addr : Addr)
  | reanalyzeAllMessages

namespace Run

variable {run next : Run ι}

/-- A grant holds for the time of the check only. -/
def advance (run : Run ι) (time : Nat) : Run ι :=
  { run with now := time, granted := run.granted && decide (run.now = time) }

variable (std params) in
/-- One call at the time of the run. -/
def call (run : Run ι) : Call ι → Checked (Run ι)
  | .areNSlotsAvailable =>
    return { run with
      granted := run.granted || run.buffer.areNSlotsAvailable params 1 run.now }
  | .enqueue message delta randomTime =>
    return { run with
      buffer := ← run.buffer.enqueue std params message run.now delta randomTime
      granted := false
      enqueued := message.id :: run.enqueued }
  | .dequeue => do
    let (buffer, message) ← run.buffer.dequeue std run.now
    return { run with buffer := buffer, delivered := message.id :: run.delivered }
  | .recycle latency => return { run with buffer := ← run.buffer.recycle std run.now latency }
  | .stallMessage addr =>
    return { run with buffer := ← run.buffer.stallMessage std params addr run.now }
  | .reanalyzeMessages addr =>
    return { run with buffer := ← run.buffer.reanalyzeMessages std addr run.now }
  | .reanalyzeAllMessages =>
    return { run with buffer := ← run.buffer.reanalyzeAllMessages std run.now }

variable (params) in
/-- When a call may be made: a message is enqueued only with a grant. -/
def Permits (run : Run ι) : Call ι → Prop
  | .enqueue _ _ _ => run.granted = true
  | .dequeue | .recycle _ => run.buffer.isReady run.now = true
  | .stallMessage addr => run.buffer.isReady run.now = true ∧ addr % params.blockSize = 0
  | .reanalyzeMessages addr => run.buffer.hasStalledMsg addr = true
  | .areNSlotsAvailable | .reanalyzeAllMessages => True

/-- The run before any call. -/
def initial : Run ι :=
  ⟨.empty, 0, false, [], []⟩

end Run

/-- The runs of a buffer, with calls at nondecreasing times. -/
def runs (std : HeapAlgorithms (Message.greater : Message ι → Message ι → Bool))
    (params : MessageBufferParams) : TransitionSystem (Run ι) (Nat × Call ι) where
  Initial run := run = .initial
  Step run event next := run.now ≤ event.1 ∧ (run.advance event.1).Permits params event.2 ∧
    (run.advance event.1).call std params event.2 = .ok next

/-- The contents and the record of a run are right, and nothing is lost or duplicated. -/
structure Run.Valid (params : MessageBufferParams) (run : Run ι) : Prop where
  sound : run.buffer.Sound run.now
  recorded : run.buffer.Recorded params run.now
  room : run.granted = true → run.buffer.Room params run.now
  accounted : (run.buffer.ids ++ run.delivered).Perm run.enqueued

namespace Run

variable {run next : Run ι}

section

variable (valid : run.Valid params)

include valid

private theorem Valid.advance (le : run.now ≤ time) : (run.advance time).Valid params := by
  refine ⟨valid.sound.mono le, valid.recorded.advance le, fun granted => ?_, valid.accounted⟩
  simp only [Run.advance, Bool.and_eq_true, decide_eq_true_eq] at granted
  obtain ⟨granted, rfl⟩ := granted
  exact valid.room granted

/-- Moving messages between the heap and the stalled ones keeps a run valid. -/
theorem Valid.refill {prioHeap : List (Message ι)} {stallMsgMap : List (Addr × List (Message ι))}
    {stallMapSize : Int}
    (sound : (run.buffer.refill prioHeap stallMsgMap stallMapSize).Sound run.now)
    (perm : (run.buffer.refill prioHeap stallMsgMap stallMapSize).ids.Perm run.buffer.ids) :
    Valid params { run with buffer := run.buffer.refill prioHeap stallMsgMap stallMapSize } :=
  ⟨sound, valid.recorded.congr perm.length_eq,
    fun granted => ⟨perm.length_eq.trans_lt (valid.room granted).1, (valid.room granted).2⟩,
    (perm.append_right _).trans valid.accounted⟩

/-- Recording the sizes before a pop keeps a run valid. -/
theorem Valid.notePop : Valid params { run with buffer := run.buffer.notePop run.now } ∧
      (run.buffer.notePop run.now).timeLastTimePop = run.now := by
  have same : (run.buffer.notePop run.now).ids = run.buffer.ids := by
    simp [ids, stalled]
  have times : (run.buffer.notePop run.now).timeLastTimeEnqueue = run.buffer.timeLastTimeEnqueue ∧
      (run.buffer.notePop run.now).msgsThisCycle = run.buffer.msgsThisCycle := by
    unfold MessageBuffer.notePop
    split <;> exact ⟨rfl, rfl⟩
  obtain ⟨recorded, isPop⟩ := valid.recorded.notePop valid.sound
  refine ⟨⟨⟨?_, ?_, ?_, ?_⟩, recorded, fun granted => ?_, ?_⟩, isPop⟩
  · simpa using valid.sound.heap
  · simpa using valid.sound.addresses
  · simpa [stalled] using valid.sound.size
  · simpa [stalled] using valid.sound.arrived
  · simpa only [Room, same, times.1, times.2] using valid.room granted
  · simpa only [same] using valid.accounted

/-- Taking a message from the heap keeps a run valid. -/
theorem Valid.pop {prioHeap : List (Message ι)} {stallMsgMap : List (Addr × List (Message ι))}
    {stallMapSize : Int} {delivered : List ι}
    (fewer : ((run.buffer.notePop run.now).refill prioHeap stallMsgMap stallMapSize).ids.length ≤
      run.buffer.ids.length)
    (sound : ((run.buffer.notePop run.now).refill prioHeap stallMsgMap stallMapSize).Sound run.now)
    (accounted : (((run.buffer.notePop run.now).refill prioHeap stallMsgMap stallMapSize).ids ++
      delivered).Perm run.enqueued) :
    Valid params { run with
      buffer := (run.buffer.notePop run.now).refill prioHeap stallMsgMap stallMapSize
      delivered := delivered } := by
  obtain ⟨noted, isPop⟩ := valid.notePop
  have same : (run.buffer.notePop run.now).ids = run.buffer.ids := by
    simp [ids, stalled]
  rw [← same] at fewer
  have recorded := noted.recorded
  exact ⟨sound, ⟨fewer.trans recorded.capacity, recorded.popTime, recorded.enqueueTime,
      recorded.cycleStart, recorded.thisCycle, fun same => fewer.trans (recorded.popped same),
      fun less => absurd isPop less.ne⟩,
    fun granted => ⟨fewer.trans_lt (noted.room granted).1, (noted.room granted).2⟩, accounted⟩

end

section

variable (small : params.maxSize.toNat < 2 ^ 31) (finite : params.maxSize ≠ 0)
  (valid : run.Valid params) {made : Call ι} (permits : run.Permits params made)

include small finite valid permits

variable (std) in
/-- A permitted call other than `enqueue` succeeds and keeps a run valid. -/
theorem Valid.call_total : (∃ message delta randomTime, made = .enqueue message delta randomTime) ∨
    ∃ next, run.call std params made = .ok next ∧ next.Valid params := by
  cases made with
  | enqueue message delta randomTime => exact .inl ⟨message, delta, randomTime, rfl⟩
  | areNSlotsAvailable =>
    refine .inr ⟨_, rfl, valid.sound, valid.recorded, fun granted => ?_, valid.accounted⟩
    rcases Bool.or_eq_true_iff.mp granted with granted | available
    · exact valid.room granted
    · exact valid.recorded.room valid.sound small finite available
  | dequeue =>
    obtain ⟨front, message, -, -, -, -, dequeued, sound, perm⟩ := dequeue_eq std valid.sound permits
    have fewer : ((run.buffer.notePop run.now).pop std).ids.length < run.buffer.ids.length := by
      rw [← perm.length_eq]
      exact Nat.lt_succ_self _
    refine .inr ⟨_, by rw [Run.call, dequeued]; rfl, valid.pop fewer.le sound ?_⟩
    exact (List.perm_middle.trans (perm.append_right run.delivered)).trans valid.accounted
  | recycle latency =>
    obtain ⟨front, recycled, sound, perm⟩ := recycle_eq std latency valid.sound permits
    exact .inr ⟨_, by rw [Run.call, recycled]; rfl, valid.refill sound perm⟩
  | stallMessage addr =>
    obtain ⟨buffer, message, stalled, rfl, sound, perm⟩ :=
      stallMessage_eq std valid.sound permits.1 permits.2
    exact .inr ⟨_, by rw [Run.call, stalled]; rfl,
      valid.pop perm.length_eq.le sound ((perm.append_right _).trans valid.accounted)⟩
  | reanalyzeMessages addr =>
    obtain ⟨messages, found⟩ := Option.isSome_iff_exists.mp permits
    obtain ⟨prioHeap, stallMsgMap, stallMapSize, reanalyzed, sound, perm, -⟩ :=
      reanalyzeMessages_eq std valid.sound found
    exact .inr ⟨_, by rw [Run.call, reanalyzed]; rfl, valid.refill sound perm⟩
  | reanalyzeAllMessages =>
    obtain ⟨prioHeap, reanalyzed, sound, perm, -⟩ := reanalyzeAllMessages_eq std valid.sound
    exact .inr ⟨_, by rw [Run.call, reanalyzed]; rfl, valid.refill sound perm⟩

/-- A permitted call keeps a run valid. -/
theorem Valid.call (ran : run.call std params made = .ok next) : next.Valid params := by
  rcases valid.call_total std small finite permits with
    ⟨message, delta, randomTime, rfl⟩ | ⟨next', ran', after⟩
  · simp only [Run.call, run_eq_ok] at ran
    obtain ⟨buffer, enqueued, rfl⟩ := ran
    obtain ⟨lastArrivalTime, message', rfl, isMessage⟩ := enqueue_ok enqueued
    have counted := countMessage_sound run.now lastArrivalTime valid.sound
    have same : (ids { run.buffer.countMessage run.now with
        lastArrivalTime := lastArrivalTime }) = run.buffer.ids := by
      simp [ids, stalled]
    have perm := push_ids std message' counted
    rw [same, isMessage] at perm
    refine ⟨push_sound counted, ?_, by simp, ?_⟩
    · exact valid.recorded.enqueue (valid.room permits) perm.length_eq
    · exact (perm.append_right _).trans (valid.accounted.cons _)
  · cases ran.symm.trans ran'
    exact after

variable (std) in
/-- A permitted call succeeds or is an `enqueue` that stops at a check of its arguments. -/
theorem Valid.call_avoids : Avoids (.assertion capacityText) (run.call std params made) ∧
      ((∃ message delta randomTime, made = .enqueue message delta randomTime) ∨
        ∃ next, run.call std params made = .ok next) := by
  rcases valid.call_total std small finite permits with
    ⟨message, delta, randomTime, rfl⟩ | ⟨next, ran, -⟩
  · refine ⟨avoids_bind.mpr ⟨?_, fun _ _ => avoids_pure⟩, .inl ⟨_, _, _, rfl⟩⟩
    have fits : ∀ lastArrivalTime (message' : Message ι),
        ((MessageBuffer.push std { run.buffer.countMessage run.now with
          lastArrivalTime := lastArrivalTime } message').prioHeap.length : Int) +
          (run.buffer.countMessage run.now).stallMapSize ≤ params.maxSize.toNat := by
      intro lastArrivalTime message'
      have heap : IsHeap Message.greater (run.buffer.countMessage run.now).prioHeap := by
        rw [countMessage_prioHeap]
        exact valid.sound.heap
      have pushed := (push_heap std { run.buffer.countMessage run.now with
        lastArrivalTime := lastArrivalTime } message' heap).2.length_eq
      have count := run.buffer.length_ids
      have less := (valid.room permits).1
      rw [pushed, countMessage_stallMapSize, valid.sound.size, List.length_cons,
        countMessage_prioHeap]
      omega
    simp only [enqueue, avoids_bind, avoids_panicIf, avoids_assertThat, avoids_pure,
      Message.updateDelayedTicks, capacityText, reduceCtorEq, Fault.assertion.injEq,
      String.reduceEq, false_implies, true_implies, implies_true, true_and, and_true]
    intros
    exact .inr (fits _ _)
  · exact ⟨ran ▸ avoids_ok, .inr ⟨next, ran⟩⟩

end

end Run

private theorem empty_sound : (empty : MessageBuffer ι).Sound now := by
  refine ⟨fun i _ _ _ => ?_, .nil, rfl, ?_⟩ <;> simp [empty, stalled]

private theorem valid_invariant (small : params.maxSize.toNat < 2 ^ 31)
    (finite : params.maxSize ≠ 0) :
    (runs std params).Invariant (Run.Valid params) where
  initial := by
    rintro run rfl
    refine ⟨empty_sound, ⟨?_, le_rfl, le_rfl, ?_, ?_, ?_, ?_⟩, ?_, .refl _⟩ <;>
      simp [Run.initial, empty, stalled, ids]
  preserved := by
    rintro run ⟨time, call⟩ next valid ⟨le, permits, ran⟩
    exact (valid.advance le).call small finite permits ran

/-- In every run of a finite buffer of fewer than `2 ^ 31` messages, the capacity is respected,
no message is lost or duplicated, and the least message of the heap is delivered. -/
theorem capacity_respected (small : params.maxSize.toNat < 2 ^ 31) (finite : params.maxSize ≠ 0)
    {run : Run ι} (reachable : (runs std params).Reachable run) :
    run.buffer.prioHeap.length + run.buffer.stalled.length ≤ params.maxSize.toNat ∧
    (run.buffer.prioHeap.map Message.id ++ run.buffer.stalled.map Message.id ++
      run.delivered).Perm run.enqueued ∧
    -- The assertion on the capacity cannot fail, and no other call stops.
    (∀ time call, run.now ≤ time → (run.advance time).Permits params call →
      Avoids (.assertion capacityText) ((run.advance time).call std params call) ∧
        ((∃ message delta randomTime, call = .enqueue message delta randomTime) ∨
          ∃ next, (run.advance time).call std params call = .ok next)) ∧
    -- The message with the least arrival time and counter is dequeued.
    (∀ time buffer message, run.now ≤ time → run.buffer.dequeue std time = .ok (buffer, message) →
      (∃ front ∈ run.buffer.prioHeap, front.id = message.id ∧ front.key = message.key) ∧
        ∀ other ∈ run.buffer.prioHeap, message.key ≤ other.key) ∧
    -- Stalled messages come back with the arrival time and counter they had.
    (∀ time addr messages, run.now ≤ time → run.buffer.stalledAt addr = some messages →
      ∃ buffer, run.buffer.reanalyzeMessages std addr time = .ok buffer ∧
        buffer.prioHeap.Perm (messages ++ run.buffer.prioHeap)) ∧
    ∀ time, run.now ≤ time → ∃ buffer, run.buffer.reanalyzeAllMessages std time = .ok buffer ∧
      buffer.prioHeap.Perm (run.buffer.stalled ++ run.buffer.prioHeap) := by
  have valid := (valid_invariant small finite).of_reachable reachable
  refine ⟨?_, ?_,
    fun time call le permits => (valid.advance le).call_avoids std small finite permits,
    fun time buffer message le dequeued => ?_, fun time addr messages le found => ?_,
    fun time le => ?_⟩
  · rw [← length_ids]
    exact valid.recorded.capacity
  · rw [← List.map_append]
    exact valid.accounted
  · have ready : run.buffer.isReady time = true := by
      simp only [dequeue, run_eq_ok] at dequeued
      exact dequeued.1
    obtain ⟨front, message', isFront, sameId, sameKey, -, dequeued', -⟩ :=
      dequeue_eq std (valid.sound.mono le) ready
    cases dequeued.symm.trans dequeued'
    refine ⟨⟨front, List.mem_of_mem_head? isFront, sameId.symm, sameKey.symm⟩, ?_⟩
    rw [sameKey]
    exact front_le valid.sound isFront
  · obtain ⟨prioHeap, stallMsgMap, stallMapSize, reanalyzed, -, -, perm⟩ :=
      reanalyzeMessages_eq std (valid.sound.mono le) found
    exact ⟨_, reanalyzed, perm⟩
  · obtain ⟨prioHeap, reanalyzed, -, -, perm⟩ := reanalyzeAllMessages_eq std (valid.sound.mono le)
    exact ⟨_, reanalyzed, perm⟩

/-- A buffer without further options. -/
def plain (maxSize : BitVec 32) : MessageBufferParams where
  maxSize := maxSize
  strictFifo := false
  randomized := false
  allowZeroLatency := false
  warmupEnabled := false
  blockSize := 64

/-- A message made at the start. -/
def fresh : Message Nat :=
  ⟨7, 0, 0, 0⟩

/-- Of two messages the one that arrives first is delivered. -/
theorem capacity_respected_two :
    ∃ run, (runs (sortedHeap Message.greater_isOrder) (plain 2)).Reachable run ∧
      run.enqueued = [8, 7] ∧ run.delivered = [8] ∧ run.buffer.prioHeap.map Message.id = [7] ∧
      run.buffer.prioHeap.length + run.buffer.stalled.length ≤ 2 := by
  have start : (runs (sortedHeap Message.greater_isOrder) (plain 2)).Reachable
      (Run.initial : Run Nat) := .of_initial rfl
  have asked := @TransitionSystem.Reachable.step _ _ _ _ _ (1, Call.areNSlotsAvailable) start
    ⟨Nat.zero_le 1, trivial, rfl⟩
  have late := @TransitionSystem.Reachable.step _ _ _ _ _ (1, Call.enqueue fresh 2 0) asked
    ⟨Nat.le_refl 1, rfl, rfl⟩
  have askedAgain := @TransitionSystem.Reachable.step _ _ _ _ _ (1, Call.areNSlotsAvailable) late
    ⟨Nat.le_refl 1, trivial, rfl⟩
  have early := @TransitionSystem.Reachable.step _ _ _ _ _ (1, Call.enqueue ⟨8, 0, 0, 0⟩ 1 0)
    askedAgain ⟨Nat.le_refl 1, rfl, rfl⟩
  have reachable := @TransitionSystem.Reachable.step _ _ _ _ _ (2, Call.dequeue) early
    ⟨by decide, rfl, rfl⟩
  exact ⟨_, reachable, rfl, rfl, rfl, (capacity_respected (by decide) (by decide) reachable).1⟩

/-! ## A buffer whose sizes do not fit in 32 bits -/

/-- A buffer with the greatest size. -/
def widest : MessageBufferParams :=
  plain (BitVec.allOnes 32)

/-- `enqueue` in a buffer without further options comes to the assertion on the capacity. -/
theorem enqueue_widest {buffer : MessageBuffer Nat} (sound : buffer.Sound 1)
    (std : HeapAlgorithms (Message.greater : Message Nat → Message Nat → Bool)) :
    ∃ pushed : MessageBuffer Nat, buffer.enqueue std widest fresh 1 1 0 = (do
        assertThat (widest.maxSize = 0 ∨
          (pushed.prioHeap.length : Int) + pushed.stallMapSize ≤ widest.maxSize.toNat) capacityText
        return pushed) ∧
      pushed.Sound 1 ∧ pushed.prioHeap.length = buffer.prioHeap.length + 1 ∧
      pushed.stalled = buffer.stalled ∧ pushed.timeLastTimePop = buffer.timeLastTimePop := by
  have counted := fun lastArrivalTime => countMessage_sound 1 lastArrivalTime sound
  refine ⟨_, rfl, push_sound (counted _), ?_, ?_, ?_⟩
  · exact ((push_heap std _ _ (counted _).heap).2.length_eq).trans (by simp)
  · simp [stalled, push]
  · simp only [push, countMessage]
    split <;> rfl

/-- Slots are granted however many messages there are. -/
theorem available_widest (buffer : MessageBuffer Nat) :
    buffer.areNSlotsAvailable widest 1 1 = true := by
  unfold areNSlotsAvailable
  rw [if_neg (by decide)]
  simp only [decide_eq_true_eq, BitVec.le_def]
  exact Nat.le_of_lt_succ (BitVec.isLt _)

/-- Any number of messages that fits in 32 bits may be waiting. -/
theorem crowded (std : HeapAlgorithms (Message.greater : Message Nat → Message Nat → Bool))
    (n : Nat) (bound : n < 2 ^ 32) :
    ∃ run, (runs std widest).Reachable run ∧ run.now = 1 ∧ run.granted = true ∧
      run.buffer.Sound 1 ∧ run.buffer.prioHeap.length = n ∧ run.buffer.stalled = [] := by
  induction n with
  | zero =>
    have start : (runs std widest).Reachable (Run.initial : Run Nat) := .of_initial rfl
    have step : (runs std widest).Step Run.initial (1, .areNSlotsAvailable)
        { (Run.initial : Run Nat) with now := 1, granted := true } :=
      ⟨Nat.zero_le 1, trivial, rfl⟩
    exact ⟨_, start.step step, rfl, rfl, empty_sound, rfl, rfl⟩
  | succ n ih =>
    obtain ⟨run, reachable, isNow, granted, sound, count, none⟩ := ih (by omega)
    obtain ⟨pushed, enqueued, sound', count', none', -⟩ := enqueue_widest sound std
    have fits : widest.maxSize = 0 ∨
        (pushed.prioHeap.length : Int) + pushed.stallMapSize ≤ widest.maxSize.toNat := by
      right
      rw [sound'.size, none', none, count', count]
      change ((n + 1 : Nat) : Int) + 0 ≤ ((2 ^ 32 - 1 : Nat) : Int)
      omega
    rw [assertThat_of fits] at enqueued
    have isNow' : (run.advance 1).granted = true := by simp [Run.advance, granted, isNow]
    have first : (runs std widest).Step run (1, .enqueue fresh 1 0)
        { run.advance 1 with
          buffer := pushed, granted := false, enqueued := fresh.id :: run.enqueued } := by
      refine ⟨isNow.le, isNow', ?_⟩
      simp only [Run.call, Run.advance, enqueued]
      rfl
    have second : ∀ run : Run Nat, run.now = 1 → (runs std widest).Step run (1, .areNSlotsAvailable)
        { run.advance 1 with granted := true } := by
      intro run isNow
      have available : (run.advance 1).buffer.areNSlotsAvailable widest 1 (run.advance 1).now =
        true := available_widest run.buffer
      refine ⟨isNow.le, trivial, ?_⟩
      rw [Run.call, available, Bool.or_true]
      rfl
    exact ⟨_, (reachable.step first).step (second _ rfl), rfl, rfl, sound',
      count'.trans (congrArg (· + 1) count), none'.trans none⟩

/-- A full buffer grants one more slot, because the sum wraps around, and the assertion fails. -/
theorem capacity_exceeded : ∃ run : Run Nat,
      (runs (sortedHeap Message.greater_isOrder) widest).Reachable run ∧
      (run.advance run.now).Permits widest (.enqueue fresh 1 0) ∧
      (run.advance run.now).call (sortedHeap Message.greater_isOrder) widest
        (.enqueue fresh 1 0) = .error (.assertion capacityText) := by
  obtain ⟨run, reachable, isNow, granted, sound, count, none⟩ :=
    crowded (sortedHeap Message.greater_isOrder) (2 ^ 32 - 1) (by decide)
  obtain ⟨pushed, enqueued, sound', count', none', -⟩ :=
    enqueue_widest sound (sortedHeap Message.greater_isOrder)
  have full : ¬(widest.maxSize = 0 ∨
      (pushed.prioHeap.length : Int) + pushed.stallMapSize ≤ widest.maxSize.toNat) := by
    rw [sound'.size, none', none, count', count]
    decide
  refine ⟨run, reachable, by simp [Run.Permits, Run.advance, granted], ?_⟩
  simp only [Run.call, Run.advance, isNow, enqueued, assertThat, if_neg full]
  rfl

end MessageBuffer

end Gem5.Ruby
