import Gem5.Mem.Ruby.Htm.PriorityMoves
import Gem5.Mem.Ruby.Protocol.L1Cache

/-!
# The forwarding graph of a machine

Any number of cores that exchange requests and nacks.  A request carries the priority of
its sender at issue and may be handled at any later time by any holder; the nacks of its
holders are collected and delivered at any later time.  `supplies` records which running
transaction has supplied which block that its consumer has not validated yet.  As long as
no place above a requester wraps around, every supplier stays above its consumers, so the
graph of suppliers and consumers has no cycle.
-/

namespace Gem5.Ruby

open Foundation TransactionInterfaceManager

/-- The nack of a holder, with the uid of the holder's transaction. -/
structure Answer (n count : Nat) where
  holder : Fin count
  uid : Nat
  nack : Nack n

/-- A request in flight and the nacks it has met so far. -/
structure Outstanding (n count : Nat) where
  requester : Fin count
  req : RemoteRequest
  answers : List (Answer n count)

/-- A block in the buffer of a consumer, and the transaction it came from. -/
structure Supply (count : Nat) where
  consumer : Fin count
  addr : Addr
  producer : Fin count
  uid : Nat
  deriving DecidableEq, Repr

/-- The cores, the requests in flight, and the suppliers of the blocks that are not validated. -/
structure ForwardingMachine (params : HTMParams) (n count : Nat) where
  cores : Fin count → Core params n
  requests : List (Outstanding n count)
  supplies : List (Supply count)

/-- What happens in the machine: an event of one core alone, a request that leaves its core, a
request that reaches a holder, and the delivery of the collected nacks of a request. -/
inductive MachineEvent (n count : Nat) where
  | core (proc : Fin count) (event : CoreEvent n)
  | issue (proc : Fin count) (addr : Addr)
  | handle (slot : Nat) (holder : Fin count)
      (kind : RequestKind) (line : LineStatus)
  | deliver (slot : Nat) (tbe : Option TBE) (pending : Pending)

namespace ForwardingMachine

variable {params : HTMParams} {n count : Nat}

/-- A core changes; what its buffer no longer holds is no longer supplied. -/
def setCore (machine : ForwardingMachine params n count) (proc : Fin count) (core : Core params n) :
    ForwardingMachine params n count :=
  { machine with
    cores := Function.update machine.cores proc core
    supplies := machine.supplies.filter fun supply =>
      supply.consumer ≠ proc || core.mgr.buffer.contains supply.addr }

/-- A holder handles a request. -/
def handle (machine : ForwardingMachine params n count) (slot : Nat) (holder : Fin count)
    (kind : RequestKind) (line : LineStatus) : Checked (ForwardingMachine params n count) :=
  match machine.requests[slot]? with
  | none => .error (.assertion "request in flight")
  | some out => do
    assertThat (holder ≠ out.requester) "request of another core"
    let core := machine.cores holder
    let (response, mgr) ← core.mgr.remoteRequest kind out.req line
    let answers := response.toList.map fun nack => ⟨holder, core.mgr.currentHtmUid, nack⟩
    let machine := machine.setCore holder { core with mgr := mgr }
    return { machine with
      requests := machine.requests.set slot { out with answers := out.answers ++ answers } }

/-- The blocks a core consumes with a nack, one for each transaction that answered.  A validation
that another running producer nacks with data adds nothing: the block has been consumed before. -/
def supplied (out : Outstanding n count) (nack : Nack n) (before after : Core params n) :
    List (Supply count) :=
  if !before.mgr.buffer.contains nack.addr && after.mgr.buffer.contains nack.addr then
    out.answers.map fun answer => ⟨out.requester, nack.addr, answer.holder, answer.uid⟩
  else []

/-- The collected nacks of a request reach the requester. -/
def deliver (machine : ForwardingMachine params n count) (slot : Nat) (tbe : Option TBE)
    (pending : Pending) : Checked (ForwardingMachine params n count) :=
  match machine.requests[slot]? with
  | none => .error (.assertion "request in flight")
  | some out => do
    let collected ← collectNacks (out.answers.map Answer.nack)
    match collected with
    | none => .error (.assertion "isNack(tbe)")
    | some nack => do
      let core := machine.cores out.requester
      let next ← core.step (.nack nack tbe pending)
      let machine := machine.setCore out.requester next
      return { machine with
        requests := machine.requests.eraseIdx slot
        supplies := machine.supplies ++ supplied out nack core next }

/-- What a handled request went through. -/
theorem handle_ok {machine next : ForwardingMachine params n count} {slot : Nat}
    {holder : Fin count}
    {kind : RequestKind} {line : LineStatus}
    (handled : machine.handle slot holder kind line = .ok next) :
    ∃ out response mgr, machine.requests[slot]? = some out ∧ holder ≠ out.requester ∧
      (machine.cores holder).mgr.remoteRequest kind out.req line = .ok (response, mgr) ∧
      next = { machine.setCore holder { machine.cores holder with mgr := mgr } with
        requests := machine.requests.set slot { out with
          answers := out.answers ++ response.toList.map
            (⟨holder, (machine.cores holder).mgr.currentHtmUid, ·⟩) } } := by
  unfold handle at handled
  split at handled
  · simp at handled
  · next out found =>
    simp only [run_eq_ok] at handled
    obtain ⟨apart, ⟨response, mgr⟩, answered, rfl⟩ := handled
    exact ⟨out, response, mgr, found, apart, answered, rfl⟩

/-- What a delivered nack went through. -/
theorem deliver_ok {machine next : ForwardingMachine params n count} {slot : Nat}
    {tbe : Option TBE} {pending : Pending}
    (delivered : machine.deliver slot tbe pending = .ok next) :
    ∃ out nack after, machine.requests[slot]? = some out ∧
      collectNacks (out.answers.map Answer.nack) = .ok (some nack) ∧
      (machine.cores out.requester).step (.nack nack tbe pending) = .ok after ∧
      next = { machine.setCore out.requester after with
        requests := machine.requests.eraseIdx slot
        supplies := (machine.setCore out.requester after).supplies ++
          supplied out nack (machine.cores out.requester) after } := by
  unfold deliver at delivered
  split at delivered
  · simp at delivered
  · next out found =>
    simp only [bind_eq_ok] at delivered
    obtain ⟨collected, collecting, delivered⟩ := delivered
    split at delivered
    · simp at delivered
    · next nack =>
      simp only [run_eq_ok] at delivered
      obtain ⟨after, taken, rfl⟩ := delivered
      exact ⟨out, nack, after, found, collecting, taken, rfl⟩

/-- An answer to a request that was just handled was there before or is new. -/
theorem mem_answers_set {requests : List (Outstanding n count)} {slot : Nat}
    {out entry : Outstanding n count} {response : Option (Nack n)} {holder : Fin count} {uid : Nat}
    {answer : Answer n count} (found : requests[slot]? = some out)
    (listed : entry ∈ requests.set slot
      { out with answers := out.answers ++ response.toList.map (⟨holder, uid, ·⟩) })
    (sent : answer ∈ entry.answers) :
    (∃ before ∈ requests, before.requester = entry.requester ∧ answer ∈ before.answers) ∨
      ∃ nack, response = some nack ∧ answer = ⟨holder, uid, nack⟩ ∧
        entry.requester = out.requester := by
  rcases List.mem_or_eq_of_mem_set listed with earlier | rfl
  · exact .inl ⟨entry, earlier, rfl, sent⟩
  · rcases List.mem_append.mp sent with earlier | now
    · exact .inl ⟨out, List.mem_of_getElem? found, rfl, earlier⟩
    · simp only [List.mem_map, Option.mem_toList] at now
      obtain ⟨nack, answered, rfl⟩ := now
      exact .inr ⟨nack, answered, rfl, rfl⟩

/-- One event. -/
def take (machine : ForwardingMachine params n count) :
    MachineEvent n count → Checked (ForwardingMachine params n count)
  | .core proc event => do
    assertThat (Core.isLocal event = true) "local event"
    let core ← (machine.cores proc).take event
    return machine.setCore proc core
  | .issue proc addr => do
    let req ← (machine.cores proc).mgr.issueRequest addr
    return { machine with requests := machine.requests ++ [⟨proc, req, []⟩] }
  | .handle slot holder kind line => machine.handle slot holder kind line
  | .deliver slot tbe pending => machine.deliver slot tbe pending

/-- The runs of a machine. -/
def system (params : HTMParams) (n count : Nat) :
    TransitionSystem (ForwardingMachine params n count) (MachineEvent n count) :=
  .ofExcept (fun machine => machine.requests = [] ∧ machine.supplies = [] ∧
    ∀ proc, ∃ log, log.isEmpty = false ∧ machine.cores proc = Core.start params n proc log) take

/-- The priority of a core's transaction. -/
def prio (machine : ForwardingMachine params n count) (proc : Fin count) : Priority :=
  (machine.cores proc).mgr.hwTransPrio

/-- The transaction with this uid still runs on the core. -/
def Runs (machine : ForwardingMachine params n count) (proc : Fin count) (uid : Nat) : Prop :=
  (machine.cores proc).mgr.transactionLevel ≠ 0 ∧ (machine.cores proc).mgr.currentHtmUid = uid

instance (machine : ForwardingMachine params n count) (proc : Fin count) (uid : Nat) :
    Decidable (machine.Runs proc uid) := inferInstanceAs (Decidable (_ ∧ _))

/-- A running transaction has supplied a block that the consumer has not validated yet. -/
def Feeds (machine : ForwardingMachine params n count) (producer consumer : Fin count) : Prop :=
  ∃ supply ∈ machine.supplies, supply.producer = producer ∧ supply.consumer = consumer ∧
    machine.Runs producer supply.uid

end ForwardingMachine

namespace TransactionInterfaceManager

variable {params : HTMParams} {n : Nat} {mgr next : TransactionInterfaceManager params n}

/-- A consumer has a priority. -/
def Placed (mgr : TransactionInterfaceManager params n) : Prop :=
  mgr.isConsumer = true → mgr.hwTransPrio ≠ ncPrioValue

/-- What every step of a core does to its rank: within one transaction the priority does not sink
once there is one, and the priority of a consumer is frozen. -/
structure RankStep (mgr next : TransactionInterfaceManager params n) : Prop where
  uid : mgr.currentHtmUid ≤ next.currentHtmUid
  within : next.transactionLevel ≠ 0 → next.currentHtmUid = mgr.currentHtmUid →
    mgr.transactionLevel ≠ 0 ∧ (mgr.hwTransPrio ≠ ncPrioValue → mgr.hwTransPrio ≤ next.hwTransPrio)
  frozen : next.isConsumer = true → mgr.isConsumer = true → next.hwTransPrio = mgr.hwTransPrio
  placed : mgr.Placed → next.Placed
  unready : mgr.Unready → next.Unready

private theorem RankStep.of_local (step : LocalStep mgr next) : RankStep mgr next where
  uid := step.uid
  within running same := by
    obtain ⟨inside, prio⟩ := step.within running same
    exact ⟨inside, fun _ => prio ▸ Int32.le_refl _⟩
  frozen consumer _ := step.consumer consumer
  placed placed consumer := by
    obtain ⟨addr, found⟩ := isConsumer_iff.mp consumer
    rw [step.consumer consumer]
    exact placed (isConsumer_iff.mpr ⟨addr, step.held addr found⟩)
  unready := step.unready

/-- Handling a request, unless the place above the requester wraps around. -/
theorem RankStep.of_answers {req : RemoteRequest} {response : Option (Nack n)}
    (frame : CallFrame mgr next) (answers : mgr.Answers req response next) (placed : mgr.Placed)
    (fits : mgr.isConsumer = false → req.remotePriority ≠ Int32.maxValue) :
    RankStep mgr next ∧ ∀ nack, response = some nack → nack.data.isSome = true →
      IsProducerPrio nack.priority ∧ nack.priority = next.hwTransPrio := by
  have uid : next.currentHtmUid = mgr.currentHtmUid := congrArg Control.currentHtmUid frame.control
  have sameConsumer : next.isConsumer = mgr.isConsumer := by
    rw [isConsumer, isConsumer, ← buffer, ← buffer, answers.buffer]
  have moved : (mgr.hwTransPrio ≠ ncPrioValue → mgr.hwTransPrio ≤ next.hwTransPrio) ∧
      (mgr.isConsumer = true → next.hwTransPrio = mgr.hwTransPrio) := by
    by_cases plain : ∀ nack, response = some nack → nack.data = none
    · have same := answers.silent plain
      exact ⟨fun _ => same ▸ Int32.le_refl _, fun _ => same⟩
    · push Not at plain
      obtain ⟨nack, sent, data⟩ := plain
      obtain ⟨-, forwards⟩ := answers.forwards nack sent (Option.isSome_iff_ne_none.mpr data)
      exact (forwards.prio_ge placed fits).2
  refine ⟨⟨uid.ge, fun running _ => ⟨frame.transactionLevel ▸ running, moved.1⟩, ?_, ?_,
    .of_call frame⟩, ?_⟩
  · exact fun _ consumer => moved.2 consumer
  · intro placed consumer
    rw [sameConsumer] at consumer
    rw [moved.2 consumer]
    exact placed consumer
  · intro nack sent data
    obtain ⟨carried, forwards⟩ := answers.forwards nack sent data
    exact ⟨carried ▸ (forwards.prio_ge placed fits).1, carried⟩

/-- Keeping the rank is a step. -/
theorem RankStep.of_rankKept (plain : params.conflictResolution ≠ .requesterStallsPicBase)
    (frame : CallFrame mgr next) (kept : RankKept mgr next) : RankStep mgr next :=
  .of_local (.of_call plain frame kept)

/-- Consumption below a producer's priority. -/
theorem RankStep.of_consumes {nack : Nack n} (frame : CallFrame mgr next)
    (consumes : mgr.Consumes nack next) (placed : mgr.Placed) (high : IsProducerPrio nack.priority)
    (ordinary : nack.swPriority = false) :
    RankStep mgr next ∧ next.hwTransPrio < nack.priority := by
  have uid : next.currentHtmUid = mgr.currentHtmUid := congrArg Control.currentHtmUid frame.control
  have legal := consumes.legal
  have prio := consumes.prio
  simp only [ordinary, and_true] at prio
  have kept : mgr.hwTransPrio ≠ ncPrioValue → next.hwTransPrio = mgr.hwTransPrio := by
    intro known
    rw [prio, if_neg known]
  have known : next.hwTransPrio ≠ ncPrioValue := by
    rw [prio]
    split
    · exact high.pred_ne_nc
    · assumption
  refine ⟨⟨uid.ge, fun running _ => ⟨frame.transactionLevel ▸ running, ?_⟩, ?_, fun _ _ => known,
    .of_call frame⟩, ?_⟩
  · exact fun held => kept held ▸ Int32.le_refl _
  · exact fun _ consumer => kept (placed consumer)
  · rw [prio]
    split
    · unfold IsProducerPrio ncPrioValue at high
      grind
    · exact legal

end TransactionInterfaceManager

namespace ForwardingMachine

variable {params : HTMParams} {n count : Nat} {machine next : ForwardingMachine params n count}
variable {proc other : Fin count} {core : Core params n} {uid : Nat}

/-- The core that was set. -/
@[simp] theorem setCore_self : (machine.setCore proc core).cores proc = core :=
  Function.update_self ..

/-- The other cores stay. -/
theorem setCore_of_ne (apart : other ≠ proc) :
    (machine.setCore proc core).cores other = machine.cores other :=
  Function.update_of_ne apart ..

/-- What holds of each core before and of the core that changes holds of each core after. -/
theorem forall_setCore {P : Fin count → Core params n → Prop}
    (all : ∀ other, P other (machine.cores other)) (moved : P proc core) :
    ∀ other, P other ((machine.setCore proc core).cores other) :=
  (Function.forall_update_iff _ P).mpr ⟨moved, fun other _ => all other⟩

private theorem prio_of_ne (apart : other ≠ proc) :
    (machine.setCore proc core).prio other = machine.prio other := by
  rw [prio, setCore_of_ne apart, prio]

/-- A transaction that runs after a step of one core ran before, and what the step does within a
transaction has happened to it. -/
theorem runs_before (Kept : TransactionInterfaceManager params n →
      TransactionInterfaceManager params n → Prop) (refl : ∀ mgr, Kept mgr mgr)
    (rises : (machine.cores proc).mgr.currentHtmUid ≤ core.mgr.currentHtmUid)
    (within : core.mgr.transactionLevel ≠ 0 →
      core.mgr.currentHtmUid = (machine.cores proc).mgr.currentHtmUid →
      (machine.cores proc).mgr.transactionLevel ≠ 0 ∧ Kept (machine.cores proc).mgr core.mgr)
    (known : uid ≤ (machine.cores other).mgr.currentHtmUid)
    (runs : (machine.setCore proc core).Runs other uid) : machine.Runs other uid ∧
      Kept (machine.cores other).mgr ((machine.setCore proc core).cores other).mgr := by
  by_cases here : other = proc
  · subst here
    obtain ⟨running, sameUid⟩ := runs
    rw [setCore_self] at running sameUid ⊢
    have same : core.mgr.currentHtmUid = (machine.cores other).mgr.currentHtmUid :=
      le_antisymm (sameUid ▸ known) rises
    obtain ⟨inside, kept⟩ := within running same
    exact ⟨⟨inside, same.symm.trans sameUid⟩, kept⟩
  · rw [Runs, setCore_of_ne here] at runs
    rw [setCore_of_ne here]
    exact ⟨runs, refl _⟩

/-- Across a step, a transaction that has a priority and runs afterwards has not sunk. -/
theorem runs_setCore (step : RankStep (machine.cores proc).mgr core.mgr)
    (known : uid ≤ (machine.cores other).mgr.currentHtmUid)
    (runs : (machine.setCore proc core).Runs other uid) :
    machine.Runs other uid ∧ (machine.prio other ≠ ncPrioValue →
      machine.prio other ≤ (machine.setCore proc core).prio other) :=
  runs_before
    (fun mgr next => mgr.hwTransPrio ≠ ncPrioValue → mgr.hwTransPrio ≤ next.hwTransPrio)
    (fun _ _ => Int32.le_refl _) step.uid step.within known runs

/-- An answer in flight is not above its sender, as long as that runs. -/
structure AnswerRanked (machine : ForwardingMachine params n count) (answer : Answer n count) :
    Prop where
  uid : answer.uid ≤ (machine.cores answer.holder).mgr.currentHtmUid
  sender : answer.nack.sender.type = .l1Cache
  ordinary : answer.nack.swPriority = false
  high : answer.nack.data.isSome = true → IsProducerPrio answer.nack.priority
  below : answer.nack.data.isSome = true → machine.Runs answer.holder answer.uid →
    answer.nack.priority ≤ machine.prio answer.holder

/-- A consumer is below its supplier, as long as that runs. -/
structure SupplyRanked (machine : ForwardingMachine params n count) (supply : Supply count) :
    Prop where
  uid : supply.uid ≤ (machine.cores supply.producer).mgr.currentHtmUid
  held : (machine.cores supply.consumer).mgr.buffer.contains supply.addr = true
  below : machine.Runs supply.producer supply.uid →
    machine.prio supply.consumer < machine.prio supply.producer

/-- Known transaction numbers stay known. -/
theorem uid_setCore (rises : (machine.cores proc).mgr.currentHtmUid ≤ core.mgr.currentHtmUid)
    (known : uid ≤ (machine.cores other).mgr.currentHtmUid) :
    uid ≤ ((machine.setCore proc core).cores other).mgr.currentHtmUid := by
  by_cases here : other = proc
  · subst here
    rw [setCore_self]
    exact known.trans rises
  · rwa [setCore_of_ne here]

variable {supply : Supply count}

private theorem AnswerRanked.setCore {answer : Answer n count}
    (ranked : machine.AnswerRanked answer)
    (step : RankStep (machine.cores proc).mgr core.mgr) :
    (machine.setCore proc core).AnswerRanked answer where
  uid := uid_setCore step.uid ranked.uid
  sender := ranked.sender
  ordinary := ranked.ordinary
  high := ranked.high
  below data runs := by
    obtain ⟨before, rises⟩ := runs_setCore step ranked.uid runs
    have below := ranked.below data before
    exact Int32.le_trans below (rises ((ranked.high data).ne_nc_of_le below))

/-- What is still supplied after a step is still held. -/
theorem held_setCore (held : (machine.cores supply.consumer).mgr.buffer.contains supply.addr = true)
    (kept : supply ∈ (machine.setCore proc core).supplies) :
    ((machine.setCore proc core).cores supply.consumer).mgr.buffer.contains supply.addr = true := by
  by_cases here : supply.consumer = proc
  · subst here
    rw [setCore_self]
    simpa [ForwardingMachine.setCore] using (List.mem_filter.mp kept).2
  · rw [setCore_of_ne here]
    exact held

private theorem SupplyRanked.setCore (ranked : machine.SupplyRanked supply)
    (step : RankStep (machine.cores proc).mgr core.mgr)
    (kept : supply ∈ (machine.setCore proc core).supplies) :
    (machine.setCore proc core).SupplyRanked supply := by
  have holds := held_setCore ranked.held kept
  refine ⟨uid_setCore step.uid ranked.uid, holds, fun runs => ?_⟩
  obtain ⟨before, rises⟩ := runs_setCore step ranked.uid runs
  have below := ranked.below before
  have known : machine.prio supply.producer ≠ ncPrioValue := by
    unfold ncPrioValue
    grind
  have frozen :
      (machine.setCore proc core).prio supply.consumer = machine.prio supply.consumer := by
    by_cases here : supply.consumer = proc
    · subst here
      rw [setCore_self] at holds
      rw [prio, prio, setCore_self]
      exact step.frozen (isConsumer_iff.mpr ⟨_, holds⟩) (isConsumer_iff.mpr ⟨_, ranked.held⟩)
    · exact prio_of_ne here
  rw [frozen]
  exact Int32.lt_of_lt_of_le below (rises known)

/-- What holds of each core. -/
structure CoreRanked (core : Core params n) : Prop where
  sound : core.mgr.Sound
  placed : core.mgr.Placed
  unready : core.mgr.Unready

/-- What holds of a machine whose priorities never wrap around. -/
structure Ranked (machine : ForwardingMachine params n count) : Prop where
  cores : ∀ proc, CoreRanked (machine.cores proc)
  answers : ∀ out ∈ machine.requests, ∀ answer ∈ out.answers, machine.AnswerRanked answer
  supplies : ∀ supply ∈ machine.supplies, machine.SupplyRanked supply

namespace Ranked

/-- A step of one core. -/
theorem setCore (ranked : machine.Ranked) (sound : core.mgr.Sound)
    (step : RankStep (machine.cores proc).mgr core.mgr) : (machine.setCore proc core).Ranked where
  cores := forall_setCore (P := fun _ => CoreRanked) ranked.cores
    ⟨sound, step.placed (ranked.cores proc).placed, step.unready (ranked.cores proc).unready⟩
  answers out listed answer sent := (ranked.answers out listed answer sent).setCore step
  supplies supply kept :=
    (ranked.supplies supply (List.mem_of_mem_filter kept)).setCore step kept

/-- A local event. -/
theorem takeCore (ordered : IsOrdered params) (ranked : machine.Ranked) {event : CoreEvent n}
    (inside : Core.isLocal event = true) (taken : (machine.cores proc).take event = .ok core) :
    (machine.setCore proc core).Ranked := by
  obtain ⟨admitted, stepped⟩ := Core.system_step.mp taken
  have ⟨sound, _, unready⟩ := ranked.cores proc
  refine ranked.setCore (Core.sound_invariant.preserved sound taken) (.of_local ?_)
  rcases Core.local_cases sound admitted inside stepped with kept | cycle
  · exact .of_call ordered.plain kept.call kept.rank
  · exact Core.lifeCycle_local ordered.forwarding sound unready cycle

/-- A request reaches a holder. -/
theorem handle (ordered : IsOrdered params) (ranked : machine.Ranked) {slot : Nat}
    {holder : Fin count}
    {kind : RequestKind} {line : LineStatus} (fits : ∀ out, machine.requests[slot]? = some out →
      (machine.cores holder).mgr.isConsumer = false → out.req.remotePriority ≠ Int32.maxValue)
    (handled : machine.handle slot holder kind line = .ok next) : next.Ranked := by
  obtain ⟨out, response, mgr, found, -, answered, rfl⟩ := handle_ok handled
  have frame := (AnswerCall.of_remoteRequest answered).call
  have responds := Answers.of_remoteRequest ordered answered
  obtain ⟨step, carries⟩ := RankStep.of_answers frame responds (ranked.cores holder).placed
    (fits out found)
  have moved : (machine.setCore holder { machine.cores holder with mgr := mgr }).Ranked :=
    ranked.setCore ((ranked.cores holder).sound.of_call frame) step
  refine ⟨moved.cores, fun entry listed answer sent => ?_, fun supply listed => ?_⟩
  · suffices inFlight :
        (machine.setCore holder { machine.cores holder with mgr := mgr }).AnswerRanked answer from
      { inFlight with }
    rcases mem_answers_set found listed sent with
      ⟨before, earlier, -, sent⟩ | ⟨nack, named, rfl, -⟩
    · exact moved.answers before earlier answer sent
    · refine ⟨uid_setCore step.uid (Nat.le_refl _), ?_, responds.ordinary nack named,
        fun data => (carries nack named data).1, ?_⟩
      · rw [remoteRequest_sender (named ▸ answered)]
      · intro data _
        rw [prio, setCore_self, (carries nack named data).2]
        exact Int32.le_refl _
  · exact { moved.supplies supply listed with }

/-- The request leaves the machine, and its answers may have become supplies. -/
theorem settle (ranked : machine.Ranked) (slot : Nat) {supplies : List (Supply count)}
    (fresh : ∀ supply ∈ supplies, machine.SupplyRanked supply) : Ranked { machine with
      requests := machine.requests.eraseIdx slot, supplies := machine.supplies ++ supplies } where
  cores := ranked.cores
  answers out listed answer sent :=
    { ranked.answers out (List.mem_of_mem_eraseIdx listed) answer sent with }
  supplies supply listed := by
    rcases List.mem_append.mp listed with earlier | now
    · exact { ranked.supplies supply earlier with }
    · exact { fresh supply now with }

/-- The nack that is passed on comes from a core, so that its reception is an ordinary call. -/
theorem receiveNack_call (ranked : machine.Ranked) {slot : Nat} {out : Outstanding n count}
    {nack : Nack n} {tbe : Option TBE} {pending : Pending}
    (found : machine.requests[slot]? = some out)
    (collecting : collectNacks (out.answers.map Answer.nack) = .ok (some nack))
    (received : (machine.cores out.requester).step (.nack nack tbe pending) = .ok core) :
    CallFrame (machine.cores out.requester).mgr core.mgr := by
  obtain ⟨_, collected⟩ := collectNacks_some collecting
  obtain ⟨answer, sent, sender, -⟩ := collected.eldest
  refine Core.receiveNack_call ?_ received
  rw [sender]
  exact (ranked.answers out (List.mem_of_getElem? found) answer sent).sender

/-- The collected nacks of a request reach the requester. -/
theorem deliver (ordered : IsOrdered params) (ranked : machine.Ranked) {slot : Nat}
    {tbe : Option TBE}
    {pending : Pending}
    (delivered : machine.deliver slot tbe pending = .ok next) : next.Ranked := by
  obtain ⟨out, nack, after, found, collecting, received, rfl⟩ := deliver_ok delivered
  have frame := ranked.receiveNack_call found collecting received
  have sound := (ranked.cores out.requester).sound.of_call frame
  have answers := ranked.answers out (List.mem_of_getElem? found)
  obtain ⟨_, collected⟩ := collectNacks_some collecting
  rcases Core.receiveNack_rank ordered received with kept | consumes
  · have nothing : supplied out nack (machine.cores out.requester) after = [] := by
      refine if_neg fun entered => ?_
      simp only [Bool.and_eq_true, Bool.not_eq_true'] at entered
      simp [kept.held nack.addr entered.2] at entered
    refine (ranked.setCore sound (.of_rankKept ordered.plain frame kept)).settle slot ?_
    simp [nothing]
  · obtain ⟨answer, answered, same⟩ := collected.among
    have high := (answers answer answered).high (collected.data_all consumes.data _ answered)
    have ordinary : nack.swPriority = false := by
      refine Bool.eq_false_iff.mpr fun powered => ?_
      obtain ⟨answer, answered, sentPowered⟩ := collected.power.mp powered
      simp [(answers answer answered).ordinary] at sentPowered
    obtain ⟨step, below⟩ := RankStep.of_consumes frame consumes
      (ranked.cores out.requester).placed (same ▸ high) ordinary
    refine (ranked.setCore sound step).settle slot ?_
    -- the answers to a request become suppliers above its sender
    intro supply listed
    unfold supplied at listed
    split at listed
    · next entered =>
      simp only [Bool.and_eq_true] at entered
      obtain ⟨answer, sent, rfl⟩ := List.mem_map.mp listed
      have ranked := answers answer sent
      have carried : answer.nack.data.isSome = true :=
        collected.data_all consumes.data _ sent
      have least : nack.priority ≤ answer.nack.priority := collected.least _ sent
      refine ⟨uid_setCore step.uid ranked.uid, by rw [setCore_self]; exact entered.2,
        fun runs => ?_⟩
      obtain ⟨before, rises⟩ := runs_setCore step ranked.uid runs
      have above := ranked.below carried before
      have known := (ranked.high carried).ne_nc_of_le above
      rw [prio, setCore_self]
      exact Int32.lt_of_lt_of_le below (Int32.le_trans least (Int32.le_trans above (rises known)))
    · simp at listed

end Ranked

/-- The place a non-consumer takes above the requester it forwards to is in range. -/
def PriorityFits (machine : ForwardingMachine params n count) : MachineEvent n count → Prop
  | .handle slot holder _ _ => ∀ out, machine.requests[slot]? = some out →
    (machine.cores holder).mgr.isConsumer = false → out.req.remotePriority ≠ Int32.maxValue
  | _ => True

instance (machine : ForwardingMachine params n count) :
    (event : MachineEvent n count) → Decidable (machine.PriorityFits event)
  | .handle slot holder _ _ => inferInstanceAs (Decidable (∀ out ∈ machine.requests[slot]?,
      (machine.cores holder).mgr.isConsumer = false → out.req.remotePriority ≠ Int32.maxValue))
  | .core .. | .issue .. | .deliver .. => inferInstanceAs (Decidable True)

/-- The initial machine is ranked. -/
theorem Ranked.of_initial (initial : (system params n count).Initial machine) : machine.Ranked := by
  obtain ⟨noRequests, noSupplies, starts⟩ := initial
  refine ⟨fun proc => ?_, by simp [noRequests], by simp [noSupplies]⟩
  obtain ⟨log, setUp, start⟩ := starts proc
  rw [start]
  refine ⟨.init setUp, fun consumer => ?_, fun _ => rfl⟩
  simp [Core.start, init, ValueForwarding.init, isConsumer] at consumer

/-- A request leaves its core. -/
theorem Ranked.issue (ranked : machine.Ranked) (req : RemoteRequest) :
    Ranked { machine with requests := machine.requests ++ [⟨proc, req, []⟩] } where
  cores := ranked.cores
  answers out listed answer sent := by
    rcases List.mem_append.mp listed with earlier | now
    · exact { ranked.answers out earlier answer sent with }
    · simp [List.mem_singleton.mp now] at sent
  supplies supply listed := { ranked.supplies supply listed with }

private theorem ranked_invariant (ordered : IsOrdered params) :
    ((system params n count).restrict PriorityFits).Invariant Ranked where
  initial := .of_initial
  preserved := by
    rintro machine event next ranked ⟨fits, taken⟩
    cases event with
    | core proc event =>
      simp only [system, TransitionSystem.ofExcept_step, take, run_eq_ok] at taken
      obtain ⟨inside, core, stepped, rfl⟩ := taken
      exact ranked.takeCore ordered inside stepped
    | issue proc addr =>
      simp only [system, TransitionSystem.ofExcept_step, take, run_eq_ok] at taken
      obtain ⟨req, -, rfl⟩ := taken
      exact ranked.issue req
    | handle slot holder kind line => exact ranked.handle ordered fits taken
    | deliver slot tbe pending => exact ranked.deliver ordered taken

/-- In every run in which no place above a requester wraps around: the supplier of a block that is
not validated yet and its consumer have priorities, the supplier's is above, and the graph of
suppliers and consumers has no cycle. -/
theorem forwarding_acyclic (chats : IsChats params)
    (reachable : ((system params n count).restrict PriorityFits).Reachable machine) :
    (∀ supply ∈ machine.supplies, machine.Runs supply.producer supply.uid →
      machine.prio supply.producer ≠ ncPrioValue ∧ machine.prio supply.consumer ≠ ncPrioValue ∧
        machine.prio supply.consumer < machine.prio supply.producer) ∧
    ∀ proc, ¬ Relation.TransGen machine.Feeds proc proc := by
  have ranked := (ranked_invariant chats.ordered).of_reachable reachable
  refine ⟨fun supply listed runs => ?_, fun proc => ?_⟩
  · obtain ⟨-, held, below⟩ := ranked.supplies supply listed
    have lower := below runs
    refine ⟨?_, ?_, lower⟩
    · unfold ncPrioValue
      grind
    · exact (ranked.cores supply.consumer).placed (isConsumer_iff.mpr ⟨_, held⟩)
  · refine not_transGen_self_of_rank (fun proc => -(machine.prio proc).toInt) ?_ proc
    rintro producer consumer ⟨supply, listed, rfl, rfl, runs⟩
    have lower := Int32.lt_iff_toInt_lt.mp ((ranked.supplies supply listed).below runs)
    omega

/-- The block of each of four cores. -/
def block (proc : Fin 4) : Addr := 64 * (proc.val + 1)

/-- Cores 0, 1 and 2 write their blocks, and core 3 consumes the block of core 0. -/
def openingEvents : List (MachineEvent 64 4) :=
  (Core.writerEvents (block 0) false).map (.core 0) ++
  (Core.writerEvents (block 1) false).map (.core 1) ++
  (Core.writerEvents (block 2) false).map (.core 2) ++
  [.core 3 (.environment ⟨⟨[]⟩, ∅, 5, false, ∅⟩),
   .core 3 (.command .start ⟨1, 1, false⟩ (.ok false) fun _ => false),
   .core 3 (.request 1 ⟨block 0, 8, false, fun _ => 0⟩),
   .issue 3 (block 0),
   .handle 0 0 .load ⟨true, false⟩,
   .deliver 0 none (.miss ⟨block 0, 8, false, fun _ => 0⟩ fun _ => false)]

/-- What a run that meets a condition, such as that no priority wraps around, leads to. -/
theorem exists_opening (params : HTMParams)
    (guard : ForwardingMachine params 64 4 → MachineEvent 64 4 → Prop)
    [∀ machine event, Decidable (guard machine event)] (events : List (MachineEvent 64 4))
    {P : ForwardingMachine params 64 4 → Prop}
    (evaluated : ∃ machine, events.foldlM
      (TransitionSystem.checkedStep (fun machine event => decide (guard machine event))
        (.assertion "guard") take)
      ⟨fun proc => Core.start params 64 proc Core.pageLog, [], []⟩ = .ok machine ∧ P machine) :
    ∃ machine, ((system params 64 4).restrict guard).Reachable machine ∧ P machine :=
  TransitionSystem.exists_reachable_restrict _ events
    ⟨rfl, rfl, fun proc => ⟨Core.pageLog, by decide, rfl⟩⟩ evaluated

/-- After the opening core 0 supplies core 3. -/
theorem forwarding_acyclic_opening : ∃ machine : ForwardingMachine chats 64 4,
    ((system chats 64 4).restrict PriorityFits).Reachable machine ∧ machine.Feeds 0 3 ∧
      machine.prio 0 ≠ ncPrioValue ∧ machine.prio 3 ≠ ncPrioValue ∧
      machine.prio 3 < machine.prio 0 ∧ ∀ proc, ¬ Relation.TransGen machine.Feeds proc proc := by
  obtain ⟨machine, reachable, supplied, runs⟩ := exists_opening chats PriorityFits
    (P := fun machine => machine.supplies = [⟨3, block 0, 0, 1⟩] ∧ machine.Runs 0 1)
    openingEvents (by decide +kernel)
  obtain ⟨ordered, acyclic⟩ := forwarding_acyclic isChats_chats reachable
  have listed : ⟨3, block 0, 0, 1⟩ ∈ machine.supplies := by simp [supplied]
  obtain ⟨producer, consumer, below⟩ := ordered _ listed runs
  exact ⟨machine, reachable, ⟨_, listed, rfl, rfl, runs⟩, producer, consumer, below, acyclic⟩

/-! ## The arithmetic on priorities -/

/-- In every run in which no place above a requester wraps around, every update of a priority is the
exact one and none gives NC to a transaction with a priority; the depth check of a consumer and the
guard of a producer with a priority are exact too. -/
theorem priority_arithmetic_exact (ordered : IsOrdered params)
    (reachable : ((system params n count).restrict PriorityFits).Reachable machine) :
    (∀ slot holder kind line next, machine.PriorityFits (.handle slot holder kind line) →
      machine.take (.handle slot holder kind line) = .ok next →
      ∃ out, machine.requests[slot]? = some out ∧
        (next.prio holder = machine.prio holder ∨ next.prio holder = initialPrioValue ∨
          (next.prio holder).toInt = out.req.remotePriority.toInt + 1) ∧
        (machine.prio holder ≠ ncPrioValue → next.prio holder ≠ ncPrioValue)) ∧
    (∀ slot tbe pending next, machine.take (.deliver slot tbe pending) = .ok next →
      ∃ out nack, machine.requests[slot]? = some out ∧
        collectNacks (out.answers.map Answer.nack) = .ok (some nack) ∧
        (next.prio out.requester = machine.prio out.requester ∨
          (next.prio out.requester).toInt = nack.priority.toInt - 1 ∧
            next.prio out.requester ≠ ncPrioValue)) ∧
    (∀ proc, (machine.cores proc).mgr.isConsumer = true →
      (initialPrioValue - machine.prio proc).toInt = -(machine.prio proc).toInt ∧
        (initialPrioValue - machine.prio proc).abs.toInt = (machine.prio proc).toInt.natAbs) ∧
    ∀ proc, machine.prio proc ≠ ncPrioValue →
      (machine.prio proc - 1).toInt = (machine.prio proc).toInt - 1 := by
  have ranked := (ranked_invariant ordered).of_reachable reachable
  refine ⟨fun slot holder kind line next fits handled => ?_,
    fun slot tbe pending next delivered => ?_, fun proc consumer => ?_,
    fun proc known => toInt_sub_one known⟩
  · -- the priority stays or moves to the exact place above the requester
    obtain ⟨out, response, mgr, found, -, answered, rfl⟩ := handle_ok handled
    have responds := Answers.of_remoteRequest ordered answered
    refine ⟨out, found, ?_⟩
    unfold prio
    rw [setCore_self]
    by_cases plain : ∀ nack, response = some nack → nack.data = none
    · have same := responds.silent plain
      exact ⟨.inl same, fun known => same ▸ known⟩
    · push Not at plain
      obtain ⟨nack, sent, data⟩ := plain
      have forwards := (responds.forwards nack sent (Option.isSome_iff_ne_none.mpr data)).2
      refine ⟨forwards.exact (fits out found), fun known => ?_⟩
      exact (forwards.prio_ge (fun _ => known) (fits out found)).1.ne_nc_of_le (Int32.le_refl _)
  · -- the priority stays or moves to the exact place below the nack
    obtain ⟨out, nack, after, found, collecting, received, rfl⟩ := deliver_ok delivered
    obtain ⟨_, collected⟩ := collectNacks_some collecting
    refine ⟨out, nack, found, collecting, ?_⟩
    unfold prio
    rw [setCore_self]
    rcases Core.receiveNack_rank ordered received with kept | consumes
    · exact .inl (kept.prio ordered.plain)
    · obtain ⟨answer, answered, same⟩ := collected.among
      have high := (ranked.answers out (List.mem_of_getElem? found) answer answered).high
        (collected.data_all consumes.data _ answered)
      rw [← same] at high
      rw [consumes.prio]
      split
      · exact .inr ⟨toInt_sub_one (high.ne_nc_of_le (Int32.le_refl _)), high.pred_ne_nc⟩
      · exact .inl rfl
  · have known := (ranked.cores proc).placed consumer
    exact ⟨toInt_initial_sub known, toInt_abs_initial_sub known⟩

/-- After the opening core 3 is a consumer, and its depth is computed exactly. -/
theorem priority_arithmetic_exact_opening : ∃ machine : ForwardingMachine chats 64 4,
    ((system chats 64 4).restrict PriorityFits).Reachable machine ∧
      (machine.cores 3).mgr.isConsumer = true ∧
      (initialPrioValue - machine.prio 3).abs.toInt = (machine.prio 3).toInt.natAbs := by
  obtain ⟨machine, reachable, consumer⟩ := exists_opening chats PriorityFits openingEvents
    (P := fun machine => (machine.cores 3).mgr.isConsumer = true) (by decide +kernel)
  have exact := priority_arithmetic_exact isChats_chats.ordered reachable
  exact ⟨machine, reachable, consumer, (exact.2.2.1 3 consumer).2⟩

/-- Core 0 has no priority when the request of core 3 reaches it: it forwards, but the guard
`transactionPriority - 1` is below the range. -/
theorem producer_guard_underflows : ∃ machine : ForwardingMachine chats 64 4,
    (system chats 64 4).Reachable machine ∧ ∃ out ∈ machine.requests,
      succeedsWith ((machine.cores 0).mgr.shouldForwardDataToConsumer out.req false) Prod.fst =
        true ∧
      (machine.cores 0).mgr.getSwTransactionPriority = false ∧
      ¬ -2 ^ 31 ≤ (machine.cores 0).mgr.getTransactionPriority.toInt - 1 := by
  refine Exists.imp (fun _ => And.imp_left (·.of_restrict)) (exists_opening
    chats PriorityFits openingEvents.dropLast.dropLast ?_)
  decide +kernel

end ForwardingMachine

end Gem5.Ruby
