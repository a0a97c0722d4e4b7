import Gem5.Mem.Ruby.Network.MessageBuffer

/-!
# What a message buffer contains

Each operation of a message buffer moves messages between the heap and the stalled
messages; the heap stays a heap, and the size kept for the stalled messages is right.
-/

namespace Gem5.Ruby

open Foundation

namespace Message

variable {ι : Type}

/-- Arrival time and counter, in this order. -/
def key (message : Message ι) : Nat ×ₗ Nat :=
  toLex (message.lastEnqueueTime, message.msgCounter.toNat)

private theorem greater_eq_false {l r : Message ι} : l.greater r = false ↔ l.key ≤ r.key := by
  rw [← Bool.not_eq_true, ← not_lt, not_iff_not, greater, key, key, Prod.Lex.toLex_lt_toLex]
  split
  · next same => simp [same, BitVec.lt_def]
  · next different => simp [different, eq_comm]

/-- The comparison orders the messages. -/
theorem greater_isOrder : IsOrder (greater : Message ι → Message ι → Bool) where
  trans a b c := by
    simp only [greater_eq_false]
    exact le_trans
  total a b := by
    simp only [greater_eq_false]
    exact le_total a.key b.key

end Message

namespace MessageBuffer

variable {ι : Type} {std : HeapAlgorithms (Message.greater : Message ι → Message ι → Bool)}
  {buffer buffer' : MessageBuffer ι} {message : Message ι} {now : Nat} {addr : Addr}

/-- The stalled messages of all addresses. -/
def stalled (buffer : MessageBuffer ι) : List (Message ι) :=
  buffer.stallMsgMap.flatMap Prod.snd

/-- The messages in the buffer. -/
def ids (buffer : MessageBuffer ι) : List ι :=
  (buffer.prioHeap ++ buffer.stalled).map Message.id

/-- The messages are those of the heap and the stalled ones. -/
theorem length_ids : buffer.ids.length = buffer.prioHeap.length + buffer.stalled.length := by
  simp [ids]

/-- The heap is one, the map is ordered, and stalled messages have arrived. -/
structure Sound (buffer : MessageBuffer ι) (now : Nat) : Prop where
  heap : IsHeap Message.greater buffer.prioHeap
  addresses : buffer.stallMsgMap.Pairwise fun first second => first.1 < second.1
  size : buffer.stallMapSize = buffer.stalled.length
  arrived : ∀ m ∈ buffer.stalled, m.lastEnqueueTime ≤ now

/-- A sound buffer stays so as time goes on. -/
theorem Sound.mono {later : Nat} (sound : buffer.Sound now) (le : now ≤ later) :
    buffer.Sound later :=
  ⟨sound.heap, sound.addresses, sound.size, fun m listed => (sound.arrived m listed).trans le⟩

/-! ## The heap -/

variable (std) in
/-- A push keeps the heap and adds the message to it. -/
theorem push_heap (buffer : MessageBuffer ι) (message : Message ι)
    (heap : IsHeap Message.greater buffer.prioHeap) :
    IsHeap Message.greater (buffer.push std message).prioHeap ∧
      (buffer.push std message).prioHeap.Perm (message :: buffer.prioHeap) := by
  obtain ⟨isHeap, perm⟩ := std.pushHeap_spec buffer.prioHeap message heap
  exact ⟨isHeap, perm.trans (List.perm_append_singleton _ _)⟩

variable (std) in
private theorem pop_heap {front : Message ι} (heap : IsHeap Message.greater buffer.prioHeap)
    (isFront : buffer.prioHeap.head? = some front) :
    IsHeap Message.greater (buffer.pop std).prioHeap ∧
      (front :: (buffer.pop std).prioHeap).Perm buffer.prioHeap := by
  obtain ⟨rest, isHeap⟩ := List.head?_eq_some_iff.mp isFront
  obtain ⟨popped, moved, heap', perm⟩ := std.popHeap_spec front rest (isHeap ▸ heap)
  have removed : (buffer.pop std).prioHeap = popped := by
    simp [pop, isHeap, moved]
  rw [removed, isHeap]
  exact ⟨heap', perm.cons front⟩

/-- A push keeps the buffer sound. -/
theorem push_sound (sound : buffer.Sound now) : (buffer.push std message).Sound now :=
  ⟨(push_heap std buffer message sound.heap).1, sound.addresses, sound.size, sound.arrived⟩

variable (std) in
/-- A push adds the message. -/
theorem push_ids (message : Message ι) (sound : buffer.Sound now) :
    (buffer.push std message).ids.Perm (message.id :: buffer.ids) := by
  have perm := (push_heap std buffer message sound.heap).2
  exact (perm.append_right buffer.stalled).map Message.id

private theorem exists_front (ready : buffer.isReady now = true) :
    ∃ front, buffer.prioHeap.head? = some front ∧ front.lastEnqueueTime ≤ now := by
  simpa [isReady, Option.any_eq_true] using ready

/-- The front of the heap has the least arrival time and counter. -/
theorem front_le {front : Message ι} (sound : buffer.Sound now)
    (isFront : buffer.prioHeap.head? = some front) :
    ∀ other ∈ buffer.prioHeap, front.key ≤ other.key := by
  obtain ⟨rest, isHeap⟩ := List.head?_eq_some_iff.mp isFront
  intro other listed
  rw [isHeap] at listed
  exact Message.greater_eq_false.mp
    ((isHeap ▸ sound.heap).first_le Message.greater_isOrder other listed)

/-! ## Popping -/

/-- Recording the sizes leaves the contents alone. -/
@[simp] theorem notePop_prioHeap : (buffer.notePop now).prioHeap = buffer.prioHeap := by
  unfold notePop
  split <;> rfl

/-- Counting a pop leaves the stalled messages. -/
@[simp] theorem notePop_stallMsgMap : (buffer.notePop now).stallMsgMap = buffer.stallMsgMap := by
  unfold notePop
  split <;> rfl

/-- Counting a pop leaves their number. -/
@[simp] theorem notePop_stallMapSize : (buffer.notePop now).stallMapSize = buffer.stallMapSize := by
  unfold notePop
  split <;> rfl

variable (std) in
/-- `dequeue` takes the front of the heap. -/
theorem dequeue_eq (sound : buffer.Sound now) (ready : buffer.isReady now = true) :
    ∃ front message, buffer.prioHeap.head? = some front ∧ message.id = front.id ∧
      message.key = front.key ∧ message.lastEnqueueTime ≤ now ∧
      buffer.dequeue std now = .ok ((buffer.notePop now).pop std, message) ∧
      ((buffer.notePop now).pop std).Sound now ∧
      (message.id :: ((buffer.notePop now).pop std).ids).Perm buffer.ids := by
  obtain ⟨front, isFront, arrived⟩ := exists_front ready
  have heap : IsHeap Message.greater (buffer.notePop now).prioHeap := by
    rw [notePop_prioHeap]
    exact sound.heap
  obtain ⟨isHeap, perm⟩ := pop_heap std heap (by rw [notePop_prioHeap, isFront])
  rw [notePop_prioHeap] at perm
  have stalledSame : ((buffer.notePop now).pop std).stalled = buffer.stalled :=
    congrArg (List.flatMap Prod.snd) notePop_stallMsgMap
  refine ⟨front, { front with
    delayedTicks := front.delayedTicks + (now - front.lastEnqueueTime) }, isFront, rfl, rfl,
    arrived, ?_, ⟨isHeap, ?_, ?_, ?_⟩, ?_⟩
  · rw [dequeue, assertThat_of ready, ok_bind]
    simp only [isFront, Message.updateDelayedTicks, assertThat_of arrived, ok_bind]
    rfl
  · change (buffer.notePop now).stallMsgMap.Pairwise _
    rw [notePop_stallMsgMap]
    exact sound.addresses
  · rw [stalledSame]
    exact notePop_stallMapSize.trans sound.size
  · rw [stalledSame]
    exact sound.arrived
  · rw [ids, stalledSame, ids, ← List.map_cons, ← List.cons_append]
    exact ((perm.append_right buffer.stalled).map Message.id)

variable (std) in
/-- `recycle` puts the front back with another arrival time. -/
theorem recycle_eq (latency : Nat) (sound : buffer.Sound now) (ready : buffer.isReady now = true) :
    ∃ front : Message ι, buffer.recycle std now latency =
        .ok ((buffer.pop std).push std { front with lastEnqueueTime := now + latency }) ∧
      ((buffer.pop std).push std { front with lastEnqueueTime := now + latency }).Sound now ∧
      ((buffer.pop std).push std { front with lastEnqueueTime := now + latency }).ids.Perm
        buffer.ids := by
  obtain ⟨front, isFront, -⟩ := exists_front ready
  obtain ⟨isHeap, perm⟩ := pop_heap std sound.heap isFront
  have popped : (buffer.pop std).Sound now := ⟨isHeap, sound.addresses, sound.size, sound.arrived⟩
  refine ⟨front, ?_, push_sound popped, (push_ids std _ popped).trans ?_⟩
  · rw [recycle, assertThat_of ready, ok_bind]
    simp only [isFront]
    rfl
  · exact (perm.append_right buffer.stalled).map Message.id

/-! ## Stalling -/

private theorem pushStalled_perm (addr : Addr) (message : Message ι)
    (map : List (Addr × List (Message ι))) : ((pushStalled addr message map).flatMap Prod.snd).Perm
      (message :: map.flatMap Prod.snd) := by
  induction map with
  | nil => exact .refl _
  | cons entry rest ih =>
    rw [pushStalled]
    split
    · exact .refl _
    · split
      · exact (ih.append_left entry.2).trans List.perm_middle
      · simp only [List.flatMap_cons, List.append_assoc, List.singleton_append]
        exact List.perm_middle

variable {map : List (Addr × List (Message ι))}

private theorem pushStalled_addr {entry : Addr × List (Message ι)}
    (listed : entry ∈ pushStalled addr message map) :
    entry.1 = addr ∨ ∃ other ∈ map, other.1 = entry.1 := by
  induction map with
  | nil =>
    simp only [pushStalled, List.mem_singleton] at listed
    exact .inl (by rw [listed])
  | cons first rest ih =>
    rw [pushStalled] at listed
    split at listed
    · rcases List.mem_cons.mp listed with rfl | listed
      · exact .inl rfl
      · exact .inr ⟨entry, listed, rfl⟩
    · split at listed
      · rcases List.mem_cons.mp listed with rfl | listed
        · exact .inr ⟨first, by simp, rfl⟩
        · exact (ih listed).imp_right fun ⟨other, member, same⟩ => ⟨other, by simp [member], same⟩
      · rcases List.mem_cons.mp listed with rfl | listed
        · exact .inr ⟨first, by simp, rfl⟩
        · exact .inr ⟨entry, by simp [listed], rfl⟩

private theorem pushStalled_addresses (addresses :
    map.Pairwise fun first second => first.1 < second.1) :
    (pushStalled addr message map).Pairwise fun first second => first.1 < second.1 := by
  induction map with
  | nil => exact List.pairwise_singleton _ _
  | cons first rest ih =>
    obtain ⟨least, sorted⟩ := List.pairwise_cons.mp addresses
    rw [pushStalled]
    split
    · next less =>
      refine List.pairwise_cons.mpr ⟨fun entry listed => ?_, addresses⟩
      rcases List.mem_cons.mp listed with rfl | later
      · exact less
      · exact less.trans (least entry later)
    · split
      · next less =>
        refine List.pairwise_cons.mpr ⟨fun entry listed => ?_, ih sorted⟩
        rcases pushStalled_addr listed with same | ⟨other, member, same⟩
        · exact same ▸ less
        · exact same ▸ least other member
      · exact List.pairwise_cons.mpr ⟨least, sorted⟩

variable (std) in
/-- `stallMessage` takes the front of the heap to the stalled messages. -/
theorem stallMessage_eq {params : MessageBufferParams} (sound : buffer.Sound now)
    (ready : buffer.isReady now = true) (aligned : addr % params.blockSize = 0) :
    ∃ buffer' message, buffer.stallMessage std params addr now = .ok buffer' ∧
      buffer' = { (buffer.notePop now).pop std with
          stallMsgMap := pushStalled addr message (buffer.notePop now).stallMsgMap
          stallMapSize := (buffer.notePop now).stallMapSize + 1 } ∧
      buffer'.Sound now ∧ buffer'.ids.Perm buffer.ids := by
  obtain ⟨front, message, -, -, -, arrived, dequeued, sound', perm⟩ := dequeue_eq std sound ready
  have moved := pushStalled_perm addr message (buffer.notePop now).stallMsgMap
  refine ⟨_, message, ?_, rfl, ⟨sound'.heap, pushStalled_addresses sound'.addresses, ?_, ?_⟩, ?_⟩
  · rw [stallMessage, assertThat_of ready, assertThat_of aligned, ok_bind, ok_bind, dequeued]
    rfl
  · have same : (buffer.notePop now).stallMapSize =
        ((buffer.notePop now).stallMsgMap.flatMap Prod.snd).length := sound'.size
    rw [stalled, moved.length_eq, same, List.length_cons]
    rfl
  · intro m listed
    rcases List.mem_cons.mp (moved.subset listed) with rfl | stalled
    · exact arrived
    · exact sound'.arrived m stalled
  · have inserted := (moved.append_left ((buffer.notePop now).pop std).prioHeap).map Message.id
    refine (inserted.trans ?_).trans perm
    rw [List.map_append, List.map_cons]
    refine List.perm_middle.trans ?_
    rw [ids, List.map_append]
    rfl

/-! ## Analyzing again -/

/-- The buffer with other contents; the record of the cycle is kept. -/
def refill (buffer : MessageBuffer ι) (prioHeap : List (Message ι))
    (stallMsgMap : List (Addr × List (Message ι))) (stallMapSize : Int) : MessageBuffer ι :=
  { buffer with prioHeap := prioHeap, stallMsgMap := stallMsgMap, stallMapSize := stallMapSize }

variable (std) in
/-- Messages that have arrived are put back unchanged. -/
theorem reanalyzeList_eq (buffer : MessageBuffer ι) (messages : List (Message ι))
    (heap : IsHeap Message.greater buffer.prioHeap)
    (arrived : ∀ m ∈ messages, m.lastEnqueueTime ≤ now) :
    ∃ prioHeap, buffer.reanalyzeList std messages now = .ok { buffer with prioHeap := prioHeap } ∧
      IsHeap Message.greater prioHeap ∧ prioHeap.Perm (messages ++ buffer.prioHeap) := by
  induction messages generalizing buffer with
  | nil => exact ⟨buffer.prioHeap, rfl, heap, .refl _⟩
  | cons m messages ih =>
    obtain ⟨pushed, perm⟩ := push_heap std buffer m heap
    obtain ⟨prioHeap, ran, isHeap, perm'⟩ :=
      ih (buffer.push std m) pushed fun m listed => arrived m (by simp [listed])
    refine ⟨prioHeap, ?_, isHeap, perm'.trans ?_⟩
    · rw [reanalyzeList, List.foldlM_cons, assertThat_of (arrived m (by simp)), ok_bind, pure_bind]
      exact ran
    · exact (perm.append_left messages).trans List.perm_middle

private theorem stalled_split {messages : List (Message ι)}
    (addresses : map.Pairwise fun first second => first.1 < second.1)
    (found : (map.find? fun entry => entry.1 = addr).map Prod.snd = some messages) :
    (map.flatMap Prod.snd).Perm
      (messages ++ (map.filter fun entry => entry.1 ≠ addr).flatMap Prod.snd) := by
  induction map with
  | nil => simp at found
  | cons entry rest ih =>
    obtain ⟨least, sorted⟩ := List.pairwise_cons.mp addresses
    by_cases isEntry : entry.1 = addr
    · have others : rest.filter (fun other => other.1 ≠ addr) = rest :=
        List.filter_eq_self.mpr fun other listed => by
          have less := least other listed
          simp only [decide_eq_true_eq]
          exact (isEntry ▸ less).ne'
      obtain rfl : entry.2 = messages := by simpa [isEntry] using found
      rw [List.filter_cons_of_neg (by simpa using isEntry), others, List.flatMap_cons]
    · rw [List.find?_cons_of_neg (by simpa using isEntry)] at found
      rw [List.filter_cons_of_pos (by simpa using isEntry), List.flatMap_cons, List.flatMap_cons]
      refine ((ih sorted found).append_left entry.2).trans ?_
      rw [← List.append_assoc, ← List.append_assoc]
      exact List.perm_append_comm.append_right _

variable (std) in
/-- `reanalyzeMessages` puts the messages stalled for an address back on the heap. -/
theorem reanalyzeMessages_eq {messages : List (Message ι)} (sound : buffer.Sound now)
    (found : buffer.stalledAt addr = some messages) :
    ∃ prioHeap stallMsgMap stallMapSize, buffer.reanalyzeMessages std addr now =
        .ok (buffer.refill prioHeap stallMsgMap stallMapSize) ∧
      (buffer.refill prioHeap stallMsgMap stallMapSize).Sound now ∧
      (buffer.refill prioHeap stallMsgMap stallMapSize).ids.Perm buffer.ids ∧
      prioHeap.Perm (messages ++ buffer.prioHeap) := by
  have split := stalled_split sound.addresses found
  have arrived : ∀ m ∈ messages, m.lastEnqueueTime ≤ now := fun m listed =>
    sound.arrived m (split.symm.subset (List.mem_append_left _ listed))
  have size := sound.size
  rw [stalled, split.length_eq, List.length_append] at size
  have enough : (0 : Int) ≤ buffer.stallMapSize - messages.length := by omega
  obtain ⟨prioHeap, ran, isHeap, perm⟩ := reanalyzeList_eq std
    { buffer with stallMapSize := buffer.stallMapSize - messages.length } messages sound.heap
    arrived
  refine ⟨prioHeap, buffer.stallMsgMap.filter fun entry => entry.1 ≠ addr,
    buffer.stallMapSize - messages.length, ?_, ⟨isHeap, ?_, ?_, ?_⟩, ?_, perm⟩
  · simp only [reanalyzeMessages, found, assertThat_of enough, ok_bind, ran]
    rfl
  · exact sound.addresses.sublist List.filter_sublist
  · simp only [stalled, refill]
    omega
  · exact fun m listed => sound.arrived m (split.symm.subset (List.mem_append_right _ listed))
  · refine List.Perm.map Message.id ((perm.append_right _).trans ?_)
    refine List.Perm.trans ?_ (split.symm.append_left buffer.prioHeap)
    rw [← List.append_assoc]
    exact List.perm_append_comm.append_right _

variable (std) in
/-- The loop of `reanalyzeAllMessages` over the rest of the map. -/
theorem reanalyzeEntries_eq (buffer : MessageBuffer ι) (entries : List (Addr × List (Message ι)))
    (heap : IsHeap Message.greater buffer.prioHeap)
    (arrived : ∀ m ∈ entries.flatMap Prod.snd, m.lastEnqueueTime ≤ now)
    (enough : ((entries.flatMap Prod.snd).length : Int) ≤ buffer.stallMapSize) :
    ∃ prioHeap stallMapSize, entries.foldlM (fun (buffer : MessageBuffer ι) entry => do
        let buffer : MessageBuffer ι :=
          { buffer with stallMapSize := buffer.stallMapSize - (entry.2.length : Int) }
        assertThat ((0 : Int) ≤ buffer.stallMapSize) "m_stall_map_size >= 0"
        buffer.reanalyzeList std entry.2 now) buffer =
          .ok (buffer.refill prioHeap buffer.stallMsgMap stallMapSize) ∧
      stallMapSize = buffer.stallMapSize - (entries.flatMap Prod.snd).length ∧
      IsHeap Message.greater prioHeap ∧
      prioHeap.Perm (entries.flatMap Prod.snd ++ buffer.prioHeap) := by
  induction entries generalizing buffer with
  | nil => exact ⟨buffer.prioHeap, buffer.stallMapSize, rfl, by simp, heap, .refl _⟩
  | cons entry entries ih =>
    rw [List.flatMap_cons, List.length_append] at enough
    have nonneg : (0 : Int) ≤ buffer.stallMapSize - entry.2.length := by omega
    obtain ⟨middle, ran, isHeap, perm⟩ := reanalyzeList_eq std
      { buffer with stallMapSize := buffer.stallMapSize - entry.2.length } entry.2 heap
      fun m listed => arrived m (by simp [listed])
    obtain ⟨prioHeap, stallMapSize, ran', size, isHeap', perm'⟩ := ih
      { buffer with prioHeap := middle, stallMapSize := buffer.stallMapSize - entry.2.length }
      isHeap
      (fun m listed => arrived m (by rw [List.flatMap_cons]; exact List.mem_append_right _ listed))
      (by change _ ≤ buffer.stallMapSize - _; omega)
    refine ⟨prioHeap, stallMapSize, ?_, ?_, isHeap', perm'.trans ?_⟩
    · rw [List.foldlM_cons]
      simp only [assertThat_of nonneg, ok_bind, ran]
      exact ran'
    · rw [size, List.flatMap_cons, List.length_append]
      push_cast
      omega
    · refine (perm.append_left _).trans ?_
      rw [List.flatMap_cons, ← List.append_assoc]
      exact List.perm_append_comm.append_right _

variable (std) in
/-- `reanalyzeAllMessages` puts all stalled messages back on the heap. -/
theorem reanalyzeAllMessages_eq (sound : buffer.Sound now) : ∃ prioHeap,
      buffer.reanalyzeAllMessages std now = .ok (buffer.refill prioHeap [] 0) ∧
      (buffer.refill prioHeap [] 0).Sound now ∧
      (buffer.refill prioHeap [] 0).ids.Perm buffer.ids ∧
      prioHeap.Perm (buffer.stalled ++ buffer.prioHeap) := by
  obtain ⟨prioHeap, stallMapSize, ran, size, isHeap, perm⟩ :=
    reanalyzeEntries_eq std buffer buffer.stallMsgMap sound.heap sound.arrived sound.size.ge
  obtain rfl : stallMapSize = 0 := by
    rw [size, sound.size, stalled]
    omega
  refine ⟨prioHeap, ?_, ⟨isHeap, .nil, rfl, by simp [stalled, refill]⟩, ?_, perm⟩
  · rw [reanalyzeAllMessages, ran]
    rfl
  · refine List.Perm.map Message.id ?_
    rw [show (buffer.refill prioHeap [] 0).stalled = [] from rfl, List.append_nil]
    exact perm.trans List.perm_append_comm

end MessageBuffer

end Gem5.Ruby
