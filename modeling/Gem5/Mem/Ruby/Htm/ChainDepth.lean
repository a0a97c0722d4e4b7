import Gem5.Mem.Ruby.Htm.ForwardingTopology

/-!
# The depth limit of `WX_DX`

The bounded mechanism limits the length of a chain of suppliers and consumers through
the priorities: a transaction that consumes aborts when its own priority is further than
`max_prio_diff` from the initial one.  Priorities sink along a chain, so the distance of
the last consumer is the length of the chain, provided that nobody in the chain is above
the initial priority.  A producer that is asked by a transaction that has produced before
places itself above the initial priority, and then the distance measures less than the
length.
-/

namespace Gem5.Ruby

open Foundation TransactionInterfaceManager

/-- Numeric priorities over requester-loses with the bounded mechanism. -/
structure IsBounded (params : HTMParams) : Prop where
  policy : params.conflictResolution = .requesterLoses
  mechanism : params.fwdMechanism = .wxDx
  priorities : params.prioMechanism = .numeric

private theorem IsBounded.ordered {params : HTMParams} (bounded : IsBounded params)
    (strategy : params.fwdCycleSolveStrategy ≠ .noStrategy) : IsOrdered params :=
  ⟨bounded.policy, by simp [bounded.mechanism], by simp [bounded.mechanism], bounded.priorities,
    strategy⟩

namespace TransactionInterfaceManager

variable {params : HTMParams} {n : Nat} {mgr next : TransactionInterfaceManager params n}

/-- The distance of the priority from the initial one is within the limit. -/
def Near (mgr : TransactionInterfaceManager params n) : Prop :=
  (initialPrioValue - mgr.hwTransPrio).abs.toInt ≤ params.maxPrioDiff

/-- Nobody is above the initial priority, and a live consumer is within the limit. -/
structure Measured (mgr : TransactionInterfaceManager params n) : Prop where
  low : mgr.hwTransPrio ≤ initialPrioValue
  near : mgr.Live → mgr.isConsumer = true → mgr.Near

private theorem Near.of_same (same : next.hwTransPrio = mgr.hwTransPrio) (near : mgr.Near) :
    next.Near := by
  rwa [Near, same]

private theorem Measured.of_kept (plain : params.conflictResolution ≠ .requesterStallsPicBase)
    (frame : CallFrame mgr next) (kept : RankKept mgr next) (measured : mgr.Measured) :
    next.Measured where
  low := kept.prio plain ▸ measured.low
  near live consumer :=
    (measured.near (live.of_call frame) (kept.isConsumer consumer)).of_same (kept.prio plain)

/-- Forwarding to a request from below the initial priority. -/
theorem Forwards.low {req : RemoteRequest} {prio : Priority} (forwards : mgr.Forwards req prio)
    (low : mgr.hwTransPrio ≤ initialPrioValue) (below : req.remotePriority < initialPrioValue) :
    prio ≤ initialPrioValue := by
  rw [forwards.placed]
  unfold forwardedPrio producerPrio initialPrioValue at *
  repeat' split
  all_goals grind

private theorem Measured.of_answers {req : RemoteRequest} {response : Option (Nack n)}
    (frame : CallFrame mgr next) (answers : mgr.Answers req response next)
    (step : RankStep mgr next)
    (below : ∀ nack, response = some nack → nack.data.isSome = true →
      req.remotePriority < initialPrioValue) (measured : mgr.Measured) : next.Measured where
  low := by
    by_cases plain : ∀ nack, response = some nack → nack.data = none
    · exact answers.silent plain ▸ measured.low
    · push Not at plain
      obtain ⟨nack, sent, data⟩ := plain
      have carried := Option.isSome_iff_ne_none.mpr data
      exact (answers.forwards nack sent carried).2.low measured.low (below nack sent carried)
  near live consumer := by
    have before : mgr.isConsumer = true := by
      rwa [isConsumer, ← buffer, answers.buffer] at consumer
    exact (measured.near (live.of_call frame) before).of_same (step.frozen consumer before)

private theorem Measured.of_consumes {nack : Nack n} (consumes : mgr.Consumes nack next)
    (near : next.abort.abortFlag = false → next.Near) (high : IsProducerPrio nack.priority)
    (below : nack.priority ≤ initialPrioValue) (measured : mgr.Measured) : next.Measured where
  low := by
    rw [consumes.prio]
    split
    · unfold IsProducerPrio ncPrioValue initialPrioValue at *
      grind
    · exact measured.low
  near live _ := near live.unflagged

end TransactionInterfaceManager

namespace Core

variable {params : HTMParams} {n : Nat} {core next : Core params n} {event : CoreEvent n}
variable {mgr : TransactionInterfaceManager params n}

/-- A nack that is consumed leaves a live transaction within the limit. -/
theorem receiveNack_near (bounded : IsBounded params) {nack : Nack n} {tbe : Option TBE}
    {pending : Pending} (received : core.receiveNack nack tbe pending = .ok next) :
    RankKept core.mgr next.mgr ∨ (next.mgr.abort.abortFlag = false → next.mgr.Near) := by
  cases receiveNack_cases received with
  | quiet _ _ call => exact .inl call.rank
  | consumed _ _ consumed =>
    refine .inr fun unflagged => ?_
    simp only [consumeForwardedData, bind_eq_ok] at consumed
    obtain ⟨middle, notified, called⟩ := consumed
    simp only [notifyForwardedDataFromProducer, run_eq_ok] at notified
    obtain ⟨_, -, -, -, _, -, -, _, -, _, -, _, -, limited⟩ := notified
    have access := AccessCall.of_specCallback called
    refine Near.of_same (access.rank.prio (by simp [bounded.policy])) ?_
    have live := access.call.live unflagged
    unfold limitPrioDiff at limited
    split at limited
    · obtain ⟨-, -, _, _, rfl, flagged, -⟩ := setAbortFlag_ok limited
      simp [flagged] at live
    · next within =>
      obtain rfl := pure_eq_ok.mp limited
      simpa [Near, bounded.mechanism] using within
  | validated judged validated =>
    exact .inl ((QuietCall.of_nackEvent judged).rank.trans
      (RankCall.of_validateConsumedData validated).rank)

/-- A local event.  A life cycle step leaves the priority or takes it back; a transaction begins
without consumed blocks, and the other steps but the first part of a commit leave no live
transaction. -/
theorem step_measured (ordered : IsOrdered params) (sound : core.mgr.Sound)
    (admitted : core.Admits event) (inside : isLocal event = true)
    (stepped : core.step event = .ok next) (measured : core.mgr.Measured) : next.mgr.Measured := by
  rcases local_cases sound admitted inside stepped with kept | cycle
  · exact measured.of_kept ordered.plain kept.call kept.rank
  · generalize next.mgr = mgr at cycle ⊢
    rcases cycle.cases sound with ⟨_, begun⟩ | ⟨_, _, _, done⟩ | ended
    · have clear := (beginTransaction_clear ordered.forwarding begun).1
      obtain ⟨-, -, -, -, -, -, _, _, rfl, -⟩ := beginTransaction_ok begun
      refine ⟨measured.low, fun _ consumer => ?_⟩
      simp [clear] at consumer
    · obtain ⟨_, _, rfl, -⟩ := initiateCommitTransaction_ok done
      exact ⟨measured.low, measured.near⟩
    · refine ⟨?_, fun live => by simp [Live, ended.outside] at live⟩
      rcases ended.prio with same | reset
      · exact same ▸ measured.low
      · rw [reset]
        decide

end Core

namespace ForwardingMachine

variable {params : HTMParams} {n count : Nat} {machine next : ForwardingMachine params n count}
variable {proc : Fin count} {core : Core params n}

/-- Data goes only to requests from below the initial priority. -/
def feedsLow (machine : ForwardingMachine params n count) : MachineEvent n count → Bool
  | .handle slot holder kind line =>
    match machine.requests[slot]? with
    | none => true
    | some out =>
      match (machine.cores holder).mgr.remoteRequest kind out.req line with
      | .ok (some nack, _) => nack.data.isNone || out.req.remotePriority < initialPrioValue
      | _ => true
  | _ => true

/-- The priorities measure the depth: either nobody is producer and consumer at once, or nacks are
checked and no producer is fed. -/
def DepthMeasured (machine : ForwardingMachine params n count) (event : MachineEvent n count) :
    Prop :=
  params.maxPrioDiff = 1 ∨
    params.fwdCycleSolveStrategy ≠ .noStrategy ∧ machine.feedsLow event = true

instance (machine : ForwardingMachine params n count) (event : MachineEvent n count) :
    Decidable (machine.DepthMeasured event) := inferInstanceAs (Decidable (_ ∨ _))

/-- Live transactions, each of which has supplied a block that the next has not validated. -/
structure LiveChain (machine : ForwardingMachine params n count) (chain : Nat → Fin count)
    (length : Nat) : Prop where
  feeds : ∀ i < length, machine.Feeds (chain i) (chain (i + 1))
  live : ∀ i ≤ length, (machine.cores (chain i)).mgr.Live

/-- What holds of a machine that feeds low. -/
structure Measured (machine : ForwardingMachine params n count) : Prop where
  ranked : machine.Ranked
  cores : ∀ proc, (machine.cores proc).mgr.Measured
  requests : ∀ out ∈ machine.requests, out.req.remotePriority ≤ initialPrioValue
  answers : ∀ out ∈ machine.requests, ∀ answer ∈ out.answers, answer.nack.data.isSome = true →
    answer.nack.priority ≤ initialPrioValue

namespace Measured

private theorem setCore_cores (measured : machine.Measured) (moved : core.mgr.Measured)
    (other : Fin count) :
    ((machine.setCore proc core).cores other).mgr.Measured :=
  forall_setCore (P := fun _ core => core.mgr.Measured) measured.cores moved other

/-- A request reaches a holder. -/
theorem handle (ordered : IsOrdered params) (measured : machine.Measured) {slot : Nat}
    {holder : Fin count} {kind : RequestKind} {line : LineStatus}
    (low : machine.feedsLow (.handle slot holder kind line) = true)
    (handled : machine.handle slot holder kind line = .ok next) : next.Measured := by
  have fits : ∀ out, machine.requests[slot]? = some out →
      (machine.cores holder).mgr.isConsumer = false → out.req.remotePriority ≠ Int32.maxValue := by
    intro out found _
    have low := measured.requests out (List.mem_of_getElem? found)
    unfold initialPrioValue at low
    grind
  have ranked := measured.ranked.handle ordered fits handled
  obtain ⟨out, response, mgr, found, -, answered, rfl⟩ := handle_ok handled
  have frame := (AnswerCall.of_remoteRequest answered).call
  have responds := Answers.of_remoteRequest ordered answered
  obtain ⟨step, carries⟩ := RankStep.of_answers frame responds
    (measured.ranked.cores holder).placed (fits out found)
  have below : ∀ nack, response = some nack → nack.data.isSome = true →
      out.req.remotePriority < initialPrioValue := by
    rintro nack rfl data
    simpa [feedsLow, found, answered, Option.isSome_iff_ne_none.mp data] using low
  have moved := (measured.cores holder).of_answers frame responds step below
  refine ⟨ranked, measured.setCore_cores moved, fun entry listed => ?_,
    fun entry listed answer sent data => ?_⟩
  · rcases List.mem_or_eq_of_mem_set listed with earlier | rfl
    · exact measured.requests entry earlier
    · exact measured.requests out (List.mem_of_getElem? found)
  · rcases mem_answers_set found listed sent with
      ⟨before, earlier, -, sent⟩ | ⟨nack, answered, rfl, -⟩
    · exact measured.answers before earlier answer sent data
    · rw [(carries nack answered data).2]
      exact moved.low

/-- The collected nacks of a request reach the requester. -/
theorem deliver (bounded : IsBounded params) (ordered : IsOrdered params)
    (measured : machine.Measured) {slot : Nat} {tbe : Option TBE} {pending : Pending}
    (delivered : machine.deliver slot tbe pending = .ok next) : next.Measured := by
  have ranked := measured.ranked.deliver ordered delivered
  obtain ⟨out, nack, after, found, collecting, received, rfl⟩ := deliver_ok delivered
  have frame := measured.ranked.receiveNack_call found collecting received
  obtain ⟨_, collected⟩ := collectNacks_some collecting
  have moved : after.mgr.Measured := by
    rcases Core.receiveNack_near bounded received with kept | near
    · exact (measured.cores out.requester).of_kept ordered.plain frame kept
    · rcases Core.receiveNack_rank ordered received with kept | consumes
      · exact (measured.cores out.requester).of_kept ordered.plain frame kept
      · obtain ⟨answer, answered, same⟩ := collected.among
        have carried := collected.data_all consumes.data _ answered
        have inFlight := List.mem_of_getElem? found
        exact (measured.cores out.requester).of_consumes consumes near
          (same ▸ (measured.ranked.answers out inFlight answer answered).high carried)
          (same ▸ measured.answers out inFlight answer answered carried)
  exact ⟨ranked, measured.setCore_cores moved,
    fun entry listed => measured.requests entry (List.mem_of_mem_eraseIdx listed),
    fun entry listed => measured.answers entry (List.mem_of_mem_eraseIdx listed)⟩

end Measured

private theorem measured_invariant (bounded : IsBounded params) (deep : params.maxPrioDiff ≠ 1) :
    ((system params n count).restrict DepthMeasured).Invariant Measured where
  initial := by
    rintro machine initial
    refine ⟨.of_initial initial, fun proc => ?_, by simp [initial.1], by simp [initial.1]⟩
    obtain ⟨log, -, start⟩ := initial.2.2 proc
    rw [start]
    refine ⟨(by decide : ncPrioValue ≤ initialPrioValue), fun live => ?_⟩
    simp [Live, inTransaction, Core.start, init] at live
  preserved := by
    rintro machine event next measured ⟨condition, taken⟩
    obtain ⟨strategy, low⟩ := condition.resolve_left deep
    have ordered := bounded.ordered strategy
    cases event with
    | core proc event =>
      simp only [system, TransitionSystem.ofExcept_step, take, run_eq_ok] at taken
      obtain ⟨inside, core, stepped, rfl⟩ := taken
      obtain ⟨admitted, effect⟩ := Core.system_step.mp stepped
      exact ⟨measured.ranked.takeCore ordered inside stepped,
        measured.setCore_cores
        (Core.step_measured ordered (measured.ranked.cores proc).sound admitted
          inside effect (measured.cores proc)),
        measured.requests, measured.answers⟩
    | issue proc addr =>
      simp only [system, TransitionSystem.ofExcept_step, take, run_eq_ok] at taken
      obtain ⟨req, issued, rfl⟩ := taken
      simp only [issueRequest, run_eq_ok] at issued
      obtain ⟨_, -, rfl⟩ := issued
      refine ⟨measured.ranked.issue _, measured.cores, fun out listed => ?_,
        fun out listed answer sent => ?_⟩
      · rcases List.mem_append.mp listed with earlier | now
        · exact measured.requests out earlier
        · rw [List.mem_singleton.mp now]
          simpa [getTransactionPriority, bounded.priorities] using (measured.cores proc).low
      · rcases List.mem_append.mp listed with earlier | now
        · exact measured.answers out earlier answer sent
        · simp [List.mem_singleton.mp now] at sent
    | handle slot holder kind line => exact measured.handle ordered low taken
    | deliver slot tbe pending => exact measured.deliver bounded ordered taken

/-- Along a chain each step goes down by one at least. -/
theorem LiveChain.prio_le {chain : Nat → Fin count} {length : Nat} (measured : machine.Measured)
    (live : machine.LiveChain chain length) :
    ∀ i ≤ length, (machine.prio (chain i)).toInt ≤ -(i : Int) := by
  intro i within
  induction i with
  | zero => exact Int32.le_iff_toInt_le.mp (measured.cores (chain 0)).low
  | succ i ih =>
    obtain ⟨supply, listed, producer, consumer, runs⟩ := live.feeds i within
    have below := (measured.ranked.supplies supply listed).below (producer ▸ runs)
    rw [producer, consumer, Int32.lt_iff_toInt_lt] at below
    have above := ih (Nat.le_of_succ_le within)
    push_cast
    omega

/-- A machine in which nobody is producer and consumer at once has no chain of two. -/
theorem LiveChain.length_le_one {chain : Nat → Fin count} {length : Nat} {sends : List (Send count)}
    (roles : machine.Roles sends) (shallow : params.depthOne = true)
    (live : machine.LiveChain chain length) : length ≤ 1 := by
  by_contra long
  obtain ⟨first, listed, -, consumer, -⟩ := live.feeds 0 (by omega)
  obtain ⟨second, given, producer, -, runs⟩ := live.feeds 1 (by omega)
  have consumes : (machine.cores (chain 1)).mgr.isConsumer = true :=
    isConsumer_of_mem (consumer ▸ (roles.supplies first listed).held)
  have recorded := (roles.sends _ (roles.supplies second given).sent).recorded (producer ▸ runs)
  rw [producer] at recorded
  have allowed := (roles.cores (chain 1)).roles.allowed (Finset.ne_empty_of_mem recorded)
  simp [canProduce_depthOne shallow allowed] at consumes

/-- In every run in which the priorities measure the depth, no chain of live transactions is longer
than the limit. -/
theorem chain_depth_bounded (bounded : IsBounded params) (limit : 1 ≤ params.maxPrioDiff)
    (reachable : ((system params n count).restrict DepthMeasured).Reachable machine)
    {chain : Nat → Fin count} {length : Nat} (live : machine.LiveChain chain length) :
    length ≤ params.maxPrioDiff := by
  by_cases shallow : params.maxPrioDiff = 1
  · obtain ⟨sends, recorded⟩ := reachable.of_restrict.recorded newSends
    have roles : machine.Roles sends := roles_invariant.of_reachable recorded
    have short := live.length_le_one roles
      (by simp [HTMParams.depthOne, bounded.mechanism, shallow])
    omega
  · have measured := (measured_invariant bounded shallow).of_reachable reachable
    have low := live.prio_le measured length (Nat.le_refl _)
    cases length with
    | zero => exact Int.le_trans (by decide) limit
    | succ length =>
      obtain ⟨supply, listed, -, consumer, -⟩ := live.feeds length (Nat.lt_succ_self _)
      have consumes : (machine.cores (chain (length + 1))).mgr.isConsumer = true :=
        isConsumer_of_mem (consumer ▸ (measured.ranked.supplies supply listed).held)
      have near := (measured.cores (chain (length + 1))).near (live.live _ (Nat.le_refl _)) consumes
      rw [Near, toInt_abs_initial_sub ((measured.ranked.cores _).placed consumes)] at near
      unfold prio at low
      omega

private theorem isBounded_depthTwo : IsBounded depthTwo := ⟨rfl, rfl, rfl⟩

/-- The core consumes the block of another. -/
def consumeEvents (proc holder : Fin 4) : List (MachineEvent 64 4) :=
  [.core proc (.request 1 ⟨block holder, 8, false, fun _ => 0⟩), .issue proc (block holder),
   .handle 0 holder .load ⟨true, false⟩,
   .deliver 0 none (.miss ⟨block holder, 8, false, fun _ => 0⟩ fun _ => false)]

/-- The cores begin, and the first three write their blocks. -/
def writeEvents : List (MachineEvent 64 4) :=
  (Core.writerEvents (block 0) false).map (.core 0) ++
  (Core.writerEvents (block 1) false).map (.core 1) ++
  (Core.writerEvents (block 2) false).map (.core 2) ++
  [.core 3 (.environment ⟨⟨[]⟩, ∅, 5, false, ∅⟩),
   .core 3 (.command .start ⟨1, 1, false⟩ (.ok false) fun _ => false)]

/-- Whether these are the supplies, and all transactions are live. -/
def chainCheck (machine : ForwardingMachine depthTwo 64 4) (supplies : List (Supply 4)) : Bool :=
  decide (machine.supplies = supplies ∧ ∀ proc, machine.Runs proc 1 ∧ (machine.cores proc).mgr.Live)

/-- A run that feeds only transactions that have not produced: core 1 consumes from core 0 and core
3 from core 1, a chain of two. -/
theorem chain_depth_bounded_down : ∃ machine : ForwardingMachine depthTwo 64 4,
    ((system depthTwo 64 4).restrict DepthMeasured).Reachable machine ∧
      machine.LiveChain (fun i => if i = 0 then 0 else if i = 1 then 1 else 3) 2 ∧
      ((2 : Nat) : Int) ≤ depthTwo.maxPrioDiff := by
  obtain ⟨machine, reachable, checked⟩ := exists_opening depthTwo DepthMeasured
    (P := fun machine => chainCheck machine [⟨1, block 0, 0, 1⟩, ⟨3, block 1, 1, 1⟩] = true)
    (writeEvents ++ consumeEvents 1 0 ++ consumeEvents 3 1) (by decide +kernel)
  obtain ⟨supplied, states⟩ := of_decide_eq_true checked
  have live : machine.LiveChain (fun i => if i = 0 then 0 else if i = 1 then 1 else 3) 2 := by
    refine ⟨fun i within => ?_, fun i _ => (states _).2⟩
    rcases (by omega : i = 0 ∨ i = 1) with rfl | rfl
    · exact ⟨⟨1, block 0, 0, 1⟩, by simp [supplied], rfl, rfl, (states 0).1⟩
    · exact ⟨⟨3, block 1, 1, 1⟩, by simp [supplied], rfl, rfl, (states 1).1⟩
  exact ⟨machine, reachable, live,
    chain_depth_bounded isBounded_depthTwo (by decide) reachable live⟩

/-- A run that feeds producers: core 3 consumes from core 2, then core 2 from core 1, then core 1
from core 0.  Cores 0 and 1 place themselves above the initial priority, and the chain has three
links. -/
theorem chain_exceeds_limit : ∃ machine : ForwardingMachine depthTwo 64 4,
    (system depthTwo 64 4).Reachable machine ∧ machine.LiveChain (Fin.ofNat 4) 3 ∧
      ¬ ((3 : Nat) : Int) ≤ depthTwo.maxPrioDiff := by
  obtain ⟨machine, reachable, checked⟩ := exists_opening depthTwo (fun _ _ => True)
    (P := fun machine =>
      chainCheck machine [⟨3, block 2, 2, 1⟩, ⟨2, block 1, 1, 1⟩, ⟨1, block 0, 0, 1⟩] = true)
    (writeEvents ++ consumeEvents 3 2 ++ consumeEvents 2 1 ++ consumeEvents 1 0) (by decide +kernel)
  obtain ⟨supplied, states⟩ := of_decide_eq_true checked
  refine ⟨machine, reachable.of_restrict, ⟨fun i within => ?_, fun i _ => (states _).2⟩, by decide⟩
  rcases (by omega : i = 0 ∨ i = 1 ∨ i = 2) with rfl | rfl | rfl
  · exact ⟨⟨1, block 0, 0, 1⟩, by simp [supplied], rfl, rfl, (states 0).1⟩
  · exact ⟨⟨2, block 1, 1, 1⟩, by simp [supplied], rfl, rfl, (states 1).1⟩
  · exact ⟨⟨3, block 2, 2, 1⟩, by simp [supplied], rfl, rfl, (states 2).1⟩

end ForwardingMachine

end Gem5.Ruby
