import Gem5.Mem.Ruby.Htm.ProducerAssertion

/-!
# The bounds of the forwarding mechanisms

A machine with a history of who has sent data to whom.  The set of consumers of each
manager covers the history of its running transaction, so that the bounds on the set
are bounds on the consumers the transaction has really sent data to.  Seen from one
core a run of the machine is a run of that core alone, so that what holds along the runs
of a core holds in every interleaving.
-/

namespace Gem5.Ruby

open Foundation TransactionInterfaceManager

/-- A transaction has sent data to a core. -/
structure Send (count : Nat) where
  producer : Fin count
  uid : Nat
  consumer : Fin count
  deriving DecidableEq, Repr

namespace ForwardingMachine

variable {params : HTMParams} {n count : Nat}

/-- The nacks with data a holder has added to the answers of a request. -/
def newSends (machine : ForwardingMachine params n count) (event : MachineEvent n count)
    (next : ForwardingMachine params n count) : List (Send count) :=
  match event with
  | .handle slot _ _ _ =>
    match machine.requests[slot]?, next.requests[slot]? with
    | some before, some after =>
      ((after.answers.drop before.answers.length).filter fun answer => answer.nack.data.isSome).map
        fun answer => ⟨answer.holder, answer.uid, before.requester⟩
    | _, _ => []
  | _ => []

/-- The runs of a machine with the history of the data sent. -/
def sendingSystem (params : HTMParams) (n count : Nat) :
    TransitionSystem (ForwardingMachine params n count × List (Send count))
      (MachineEvent n count) :=
  .ofExcept (fun state => (system params n count).Initial state.1 ∧ state.2 = [])
    (TransitionSystem.recordedStep take newSends)

/-- The cores to which the transaction of a core has sent data. -/
def consumersOf (machine : ForwardingMachine params n count) (sends : List (Send count))
    (proc : Fin count) : Finset (Fin count) :=
  ((sends.filter fun send => send.producer = proc &&
    send.uid = (machine.cores proc).mgr.currentHtmUid).map Send.consumer).toFinset

variable {machine next : ForwardingMachine params n count} {sends : List (Send count)}
variable {proc : Fin count} {core : Core params n}

/-- What holds of each core. -/
structure CoreRoles (core : Core params n) (proc : Nat) : Prop where
  sound : core.mgr.Sound
  roles : core.mgr.Roles
  version : core.mgr.version = proc

/-- The consumer is known to the transaction, as long as that runs. -/
structure SendKnown (machine : ForwardingMachine params n count) (send : Send count) : Prop where
  known : send.uid ≤ (machine.cores send.producer).mgr.currentHtmUid
  recorded : machine.Runs send.producer send.uid → ⟨.l1Cache, send.consumer⟩ ∈
    (machine.cores send.producer).mgr.forwarding.hasSentDataToConsumer

private theorem SendKnown.setCore {send : Send count} (sent : machine.SendKnown send)
    (step : RoleStep (machine.cores proc).mgr core.mgr) :
    (machine.setCore proc core).SendKnown send where
  known := uid_setCore step.uid sent.known
  recorded runs := by
    obtain ⟨before, grows⟩ := runs_before
      (fun mgr next => mgr.forwarding.hasSentDataToConsumer ⊆ next.forwarding.hasSentDataToConsumer)
      (fun _ => Finset.Subset.refl _) step.uid step.within sent.known runs
    exact grows (sent.recorded before)

/-- A request names its core and its nacks their holders, and the data it has met is in the
history. -/
structure RequestSent (out : Outstanding n count) (sends : List (Send count)) : Prop where
  source : out.req.remoteId = ⟨.l1Cache, out.requester⟩
  sender : ∀ answer ∈ out.answers,
    answer.nack.sender = ⟨.l1Cache, answer.holder⟩ ∧ answer.holder ≠ out.requester
  sent : ∀ answer ∈ out.answers, answer.nack.data.isSome = true →
    ⟨answer.holder, answer.uid, out.requester⟩ ∈ sends

/-- A block that is not validated is held by its consumer, and its supplier is in the history. -/
structure SupplySent (machine : ForwardingMachine params n count) (supply : Supply count)
    (sends : List (Send count)) : Prop where
  held : (machine.cores supply.consumer).mgr.buffer.contains supply.addr = true
  sent : ⟨supply.producer, supply.uid, supply.consumer⟩ ∈ sends

/-- What holds of a machine and its history. -/
structure Roles (machine : ForwardingMachine params n count) (sends : List (Send count)) :
    Prop where
  cores : ∀ proc, CoreRoles (machine.cores proc) proc
  requests : ∀ out ∈ machine.requests, RequestSent out sends
  supplies : ∀ supply ∈ machine.supplies, machine.SupplySent supply sends
  sends : ∀ send ∈ sends, machine.SendKnown send

namespace Roles

variable (roles : machine.Roles sends)

include roles

/-- A step of one core. -/
theorem setCore (sound : core.mgr.Sound) (step : RoleStep (machine.cores proc).mgr core.mgr) :
    (machine.setCore proc core).Roles sends where
  cores := forall_setCore (P := fun proc core => CoreRoles core proc) roles.cores
    ⟨sound, step.roles (roles.cores proc).roles, step.version.trans (roles.cores proc).version⟩
  requests := roles.requests
  supplies supply kept :=
    ⟨held_setCore (roles.supplies supply (List.mem_of_mem_filter kept)).held kept,
      (roles.supplies supply (List.mem_of_mem_filter kept)).sent⟩
  sends send listed := (roles.sends send listed).setCore step

/-- A request leaves its core. -/
theorem issue {addr : Addr} {req : RemoteRequest}
    (issued : (machine.cores proc).mgr.issueRequest addr = .ok req) :
    Roles { machine with requests := machine.requests ++ [⟨proc, req, []⟩] } sends where
  cores := roles.cores
  requests out listed := by
    rcases List.mem_append.mp listed with earlier | now
    · exact roles.requests out earlier
    · obtain rfl := List.mem_singleton.mp now
      simp only [issueRequest, run_eq_ok] at issued
      obtain ⟨_, -, rfl⟩ := issued
      exact ⟨by rw [(roles.cores proc).version], by simp, by simp⟩
  supplies supply listed :=
    ⟨(roles.supplies supply listed).held, (roles.supplies supply listed).sent⟩
  sends send listed := { roles.sends send listed with }

/-- A request reaches a holder. -/
theorem handle {slot : Nat} {holder : Fin count} {kind : RequestKind} {line : LineStatus}
    (handled : machine.handle slot holder kind line = .ok next) :
    next.Roles (sends ++ machine.newSends (.handle slot holder kind line) next) := by
  obtain ⟨out, response, mgr, found, apart, answered, rfl⟩ := handle_ok handled
  have frame := (AnswerCall.of_remoteRequest answered).call
  have forwards := Sends.of_remoteRequest answered
  have moved : (machine.setCore holder { machine.cores holder with mgr := mgr }).Roles sends :=
    roles.setCore ((roles.cores holder).sound.of_call frame) forwards.step
  obtain ⟨source, earlierSender, earlierSent⟩ := roles.requests out (List.mem_of_getElem? found)
  have bound := (List.getElem?_eq_some_iff.mp found).1
  simp only [newSends, found, List.getElem?_set_self bound, List.drop_left]
  refine ⟨moved.cores, fun entry listed => ?_, fun supply listed => ?_, fun send listed => ?_⟩
  · rcases List.mem_or_eq_of_mem_set listed with earlier | rfl
    · obtain ⟨source, sender, sent⟩ := moved.requests entry earlier
      exact ⟨source, sender, fun answer listed data =>
        List.mem_append_left _ (sent answer listed data)⟩
    · refine ⟨source, fun answer sent => ?_, fun answer sent data => ?_⟩
      all_goals rcases List.mem_append.mp sent with earlier | now
      · exact earlierSender answer earlier
      · simp only [List.mem_map, Option.mem_toList] at now
        obtain ⟨nack, rfl, rfl⟩ := now
        exact ⟨by rw [remoteRequest_sender answered, (roles.cores holder).version], apart⟩
      · exact List.mem_append_left _ (earlierSent answer earlier data)
      · exact List.mem_append_right _
          (List.mem_map.mpr ⟨answer, List.mem_filter.mpr ⟨now, data⟩, rfl⟩)
  · exact ⟨(moved.supplies supply listed).held,
      List.mem_append_left _ (moved.supplies supply listed).sent⟩
  · rcases List.mem_append.mp listed with earlier | now
    · exact { moved.sends send earlier with }
    · simp only [List.mem_map, List.mem_filter, Option.mem_toList] at now
      obtain ⟨answer, ⟨⟨nack, sent, rfl⟩, data⟩, rfl⟩ := now
      have recorded := forwards.recorded nack sent data
      rw [source] at recorded
      refine ⟨uid_setCore forwards.step.uid (Nat.le_refl _), fun _ => ?_⟩
      simpa using recorded

/-- A nack that is passed on comes from another core. -/
theorem admits_nack {out : Outstanding n count} {nack : Nack n} (listed : out ∈ machine.requests)
    (collecting : collectNacks (out.answers.map Answer.nack) = .ok (some nack)) (tbe : Option TBE)
    (pending : Pending) : (machine.cores out.requester).Admits (.nack nack tbe pending) := by
  obtain ⟨_, collected⟩ := collectNacks_some collecting
  obtain ⟨answer, sent, sender, -⟩ := collected.eldest
  obtain ⟨named, apart⟩ := (roles.requests out listed).sender answer sent
  rw [named] at sender
  exact ⟨by rw [sender], by simpa [sender, (roles.cores out.requester).version, Fin.val_inj]⟩

/-- A request comes from another core than its holder. -/
theorem source_ne {out : Outstanding n count} {holder : Fin count}
    (listed : out ∈ machine.requests) (apart : holder ≠ out.requester) :
    out.req.remoteId.num ≠ (machine.cores holder).mgr.version := by
  rw [(roles.requests out listed).source, (roles.cores holder).version]
  exact fun same => apart (Fin.ext same.symm)

/-- The collected nacks of a request reach the requester. -/
theorem deliver {slot : Nat} {tbe : Option TBE} {pending : Pending}
    (delivered : machine.deliver slot tbe pending = .ok next) : next.Roles sends := by
  obtain ⟨out, nack, after, found, collecting, received, rfl⟩ := deliver_ok delivered
  have admitted := roles.admits_nack (List.mem_of_getElem? found) collecting tbe pending
  have frame := Core.receiveNack_call admitted.1 received
  obtain ⟨step, outcome⟩ := Core.receiveNack_roles frame received
  have moved := roles.setCore ((roles.cores out.requester).sound.of_call frame) step
  refine ⟨moved.cores, fun entry listed => moved.requests entry (List.mem_of_mem_eraseIdx listed),
    fun supply listed => ?_, fun send listed => { moved.sends send listed with }⟩
  rcases List.mem_append.mp listed with earlier | now
  · exact ⟨(moved.supplies supply earlier).held, (moved.supplies supply earlier).sent⟩
  · unfold supplied at now
    split at now
    · next entered =>
      simp only [Bool.and_eq_true, Bool.not_eq_true'] at entered
      obtain ⟨answer, answered, rfl⟩ := List.mem_map.mp now
      rcases outcome with kept | data
      · simp [kept.held nack.addr entered.2] at entered
      · obtain ⟨_, collected⟩ := collectNacks_some collecting
        have carried : answer.nack.data.isSome = true :=
          collected.data_all data _ answered
        refine ⟨by simpa using entered.2, ?_⟩
        exact (roles.requests out (List.mem_of_getElem? found)).sent answer answered carried
    · simp at now

end Roles

/-- Every step keeps the roles of the cores. -/
theorem roles_invariant :
    (sendingSystem params n count).Invariant fun state => state.1.Roles state.2 where
  initial := by
    rintro ⟨machine, sends⟩ ⟨⟨noRequests, noSupplies, starts⟩, rfl⟩
    dsimp only at noRequests noSupplies starts
    refine ⟨fun proc => ?_, by simp [noRequests], by simp [noSupplies], by simp⟩
    obtain ⟨log, setUp, start⟩ := starts proc
    rw [start]
    exact ⟨.init setUp, @Roles.of_reset _ _ _ (.init n) rfl, rfl⟩
  preserved := by
    rintro ⟨machine, sends⟩ event ⟨next, later⟩ roles transition
    obtain ⟨taken, added⟩ := TransitionSystem.recordedStep_eq_ok.mp transition
    dsimp only at roles taken added ⊢
    subst added
    cases event with
    | core proc event =>
      simp only [take, run_eq_ok] at taken
      obtain ⟨inside, core, stepped, rfl⟩ := taken
      obtain ⟨admitted, effect⟩ := Core.system_step.mp stepped
      obtain ⟨sound, -, -⟩ := roles.cores proc
      simpa [newSends] using roles.setCore (Core.sound_invariant.preserved sound stepped)
        (Core.step_roles sound admitted inside effect)
    | issue proc addr =>
      simp only [take, run_eq_ok] at taken
      obtain ⟨req, issued, rfl⟩ := taken
      simpa [newSends] using roles.issue issued
    | handle slot holder kind line => exact roles.handle taken
    | deliver slot tbe pending => simpa [newSends] using roles.deliver taken

/-- The recorded consumers of a running transaction are those of its history. -/
theorem card_consumersOf (roles : machine.Roles sends)
    (running : (machine.cores proc).mgr.transactionLevel ≠ 0) :
    (machine.consumersOf sends proc).card ≤
      (machine.cores proc).mgr.forwarding.hasSentDataToConsumer.card := by
  refine Finset.card_le_card_of_injOn (fun consumer => ⟨.l1Cache, consumer⟩) ?_ ?_
  · intro consumer listed
    simp only [consumersOf, List.coe_toFinset, List.mem_map, List.mem_filter, Bool.and_eq_true,
      decide_eq_true_eq, Set.mem_ofPred_eq] at listed
    obtain ⟨send, ⟨recorded, rfl, current⟩, rfl⟩ := listed
    exact (roles.sends send recorded).recorded ⟨running, current.symm⟩
  · intro first _ second _ same
    simpa [Fin.ext_iff] using same

/-- No event stops at the check of `isProducer`. -/
theorem take_avoids (forwarding : params.allowEarlyValueFwd = true)
    (permitted : ∀ proc, (machine.cores proc).mgr.Permitted) (event : MachineEvent n count) :
    Avoids notProducer (machine.take event) := by
  cases event with
  | core proc event =>
    simp only [take, Core.take, avoids_bind, avoids_assertThat, avoids_pure, implies_true, and_true]
    refine ⟨by simp, fun _ checked => ⟨by simp, fun _ _ => ?_⟩⟩
    exact Core.step_avoids forwarding (permitted proc) (assertThat_eq_ok.mp checked)
  | issue proc addr =>
    simp [take, issueRequest, getOldestTimestamp]
  | handle slot holder kind line =>
    unfold take ForwardingMachine.handle
    dsimp only
    split
    · simp
    · simp [remoteRequest_avoids (permitted holder)]
  | deliver slot tbe pending =>
    unfold take ForwardingMachine.deliver
    dsimp only
    split
    · simp
    · next out _ =>
      have collects : Avoids notProducer (collectNacks (out.answers.map Answer.nack)) := by
        refine avoids_foldlM fun tbe nack => ?_
        unfold setNack
        cases tbe <;> simp
      rw [avoids_bind]
      refine ⟨collects, fun collected _ => ?_⟩
      split
      · simp
      · simp [Core.step, Core.receiveNack_avoids (permitted out.requester)]

/-- In every run: `isProducer` returns, and with forwarding no event stops at its check; a running
transaction that has sent data is a producer, and under the mechanisms of depth one no consumer; and
an ordinary transaction has sent data to no more cores than its mechanism allows. -/
theorem forwarding_topology
    (reachable : (sendingSystem params n count).Reachable (machine, sends)) (proc : Fin count) :
    (∃ producer, (machine.cores proc).mgr.isProducer = .ok producer) ∧
    (params.allowEarlyValueFwd = true → ∀ event, machine.take event ≠ .error notProducer) ∧
    ((machine.cores proc).mgr.transactionLevel ≠ 0 → machine.consumersOf sends proc ≠ ∅ →
      (machine.cores proc).mgr.isProducer = .ok true) ∧
    ((params.fwdMechanism = .simple ∨ params.fwdMechanism = .w1D1 ∨ params.fwdMechanism = .wnD1 ∨
        params.fwdMechanism = .wxDx ∧ params.maxPrioDiff = 1) →
      ¬ ((machine.cores proc).mgr.isProducer = .ok true ∧
        (machine.cores proc).mgr.isConsumer = true)) ∧
    ((machine.cores proc).mgr.transactionLevel ≠ 0 →
      (machine.cores proc).mgr.conflict.powered = false →
      (params.fwdMechanism = .w1D1 ∨ params.fwdMechanism = .w1Dn →
        (machine.consumersOf sends proc).card ≤ 1) ∧
      (params.fwdMechanism = .wxDx →
        (machine.consumersOf sends proc).card ≤ params.maxConsumers)) := by
  have all : machine.Roles sends := roles_invariant.of_reachable reachable
  obtain ⟨-, roles, -⟩ := all.cores proc
  have asked := roles.isProducer
  refine ⟨⟨_, asked⟩, fun forwarding event => ?_, fun running sent => ?_, fun mechanism => ?_,
    fun running ordinary => ⟨fun mechanism => ?_, fun mechanism => ?_⟩⟩
  · exact take_avoids forwarding (fun proc => (all.cores proc).roles.allowed) event
  · have covered := card_consumersOf all running
    have some_consumer := Finset.card_pos.mpr (Finset.nonempty_iff_ne_empty.mpr sent)
    rw [asked, decide_eq_true (Finset.nonempty_iff_ne_empty.mp
      (Finset.card_pos.mp (some_consumer.trans_le covered)))]
  · rintro ⟨produces, consumes⟩
    have shallow : params.depthOne = true := by
      unfold HTMParams.depthOne
      rcases mechanism with found | found | found | ⟨found, limit⟩ <;> simp_all
    have produced : (machine.cores proc).mgr.forwarding.hasSentDataToConsumer ≠ ∅ := by
      simpa [asked] using produces
    have allowed := roles.allowed produced
    rw [canProduce_depthOne shallow allowed] at consumes
    simp at consumes
  · refine (card_consumersOf all running).trans (roles.limited running ordinary 1 ?_)
    unfold HTMParams.consumerLimit
    rcases mechanism with found | found <;> simp [found]
  · refine (card_consumersOf all running).trans (roles.limited running ordinary _ ?_)
    simp [HTMParams.consumerLimit, mechanism]

/-- After the opening core 0 is a producer for core 3, and no consumer. -/
theorem forwarding_topology_opening :
    ∃ (machine : ForwardingMachine pairwise 64 4) (sends : List (Send 4)),
      (sendingSystem pairwise 64 4).Reachable (machine, sends) ∧
      machine.consumersOf sends 0 = {3} ∧ (machine.cores 0).mgr.isProducer = .ok true ∧
      (machine.cores 0).mgr.isConsumer = false ∧ (machine.consumersOf sends 0).card ≤ 1 ∧
      ∀ event, machine.take event ≠ .error notProducer := by
  obtain ⟨⟨machine, sends⟩, run, consumers, running, ordinary⟩ : ∃ state,
      openingEvents.foldlM (TransitionSystem.recordedStep take newSends)
        ((⟨fun proc => Core.start pairwise 64 proc Core.pageLog, [], []⟩ :
          ForwardingMachine pairwise 64 4), []) = .ok state ∧
      state.1.consumersOf state.2 0 = {3} ∧ (state.1.cores 0).mgr.transactionLevel ≠ 0 ∧
      (state.1.cores 0).mgr.conflict.powered = false := by
    decide +kernel
  have reachable : (sendingSystem pairwise 64 4).Reachable (machine, sends) :=
    ⟨_, openingEvents, ⟨⟨rfl, rfl, fun proc => ⟨Core.pageLog, by decide, rfl⟩⟩, rfl⟩,
      .of_foldlM run⟩
  obtain ⟨-, avoids, produces, apart, bounded⟩ := forwarding_topology reachable 0
  have producer := produces running (by simp [consumers])
  refine ⟨machine, sends, reachable, consumers, producer, ?_,
    (bounded running ordinary).1 (.inl rfl), avoids (by decide)⟩
  simpa [producer] using apart (.inr (.inl rfl))

/-! ## The runs of each core -/

/-- In a step of the machine each core stays or takes an event. -/
theorem Roles.moves (roles : machine.Roles sends) {event : MachineEvent n count}
    (taken : machine.take event = .ok next) :
    ∀ proc, (machine.cores proc).Moves (next.cores proc) := by
  have still : ∀ proc, (machine.cores proc).Moves (machine.cores proc) := fun _ => .inl rfl
  have moved {proc : Fin count} {core : Core params n} := @forall_setCore _ _ _ machine proc core
    (fun proc => (machine.cores proc).Moves) still
  cases event with
  | core proc event =>
    simp only [take, run_eq_ok] at taken
    obtain ⟨-, core, stepped, rfl⟩ := taken
    exact moved (.inr ⟨_, stepped⟩)
  | issue proc addr =>
    simp only [take, run_eq_ok] at taken
    obtain ⟨req, -, rfl⟩ := taken
    exact still
  | handle slot holder kind line =>
    obtain ⟨out, response, mgr, found, apart, answered, rfl⟩ := handle_ok taken
    exact moved (.of_remoteRequest (roles.source_ne (List.mem_of_getElem? found) apart) answered)
  | deliver slot tbe pending =>
    obtain ⟨out, nack, after, found, collecting, received, rfl⟩ := deliver_ok taken
    have admitted := roles.admits_nack (List.mem_of_getElem? found) collecting tbe pending
    exact moved (.inr ⟨_, Core.system_step.mpr ⟨admitted, received⟩⟩)

variable {state later : ForwardingMachine params n count × List (Send count)}
variable {events : List (MachineEvent n count)}

/-- Seen from one core a run of the machine is a run of that core. -/
theorem steps_core (roles : state.1.Roles state.2)
    (steps : (sendingSystem params n count).Steps state events later) (proc : Fin count) :
    ∃ taken, (Core.system params n).Steps (state.1.cores proc) taken (later.1.cores proc) := by
  induction steps with
  | refl => exact ⟨[], .refl⟩
  | step before transition ih =>
    obtain ⟨events, ran⟩ := ih
    have roles := before.preserves roles_invariant.preserved roles
    obtain ⟨taken, -⟩ := TransitionSystem.recordedStep_eq_ok.mp transition
    rcases roles.moves taken proc with same | ⟨event, stepped⟩
    · exact ⟨events, same ▸ ran⟩
    · exact ⟨events ++ [event], ran.step stepped⟩

/-- In every interleaving a transaction that has been told to abort stays so while it runs, and does
not commit; and a transaction that has ended does not run again. -/
theorem doomed_never_commits
    (reachable : (sendingSystem params n count).Reachable state)
    (steps : (sendingSystem params n count).Steps state events later) (proc : Fin count) :
    Core.Continues (state.1.cores proc).mgr (later.1.cores proc).mgr ∧
    ((state.1.cores proc).mgr.abort.abortFlag = true →
      (later.1.cores proc).mgr.inTransaction = true →
      (later.1.cores proc).mgr.currentHtmUid = (state.1.cores proc).mgr.currentHtmUid →
      ∀ htm result, (later.1.cores proc).mgr.commitTransaction htm ≠ .ok result) := by
  have roles := roles_invariant.of_reachable reachable
  obtain ⟨_, ran⟩ := steps_core roles steps proc
  have continues := Core.Continues.of_steps (roles.cores proc).sound ran
  refine ⟨continues, fun doomed running same htm result => ?_⟩
  have flagged := (continues.within running same).2 doomed
  simp [commitTransaction, flagged]

/-- Core 0 has lost a written block and is told to abort; the request of core 3 meets it later, and
it cannot commit. -/
theorem doomed_never_commits_evicted :
    ∃ first later : ForwardingMachine pairwise 64 4 × List (Send 4),
      (sendingSystem pairwise 64 4).Reachable first ∧
      (first.1.cores 0).mgr.abort.abortFlag = true ∧ (later.1.cores 0).mgr.inTransaction = true ∧
      later.1.requests.length = 1 ∧
      ∀ htm result, (later.1.cores 0).mgr.commitTransaction htm ≠ .ok result := by
  obtain ⟨first, evicted, doomed, later, run, inFlight, running, same⟩ : ∃ first,
      ((Core.writerEvents (block 0) false ++
        [CoreEvent.replacement (block 0) ⟨.l1Cache, 0⟩ false false false]).map
        (MachineEvent.core 0)).foldlM
        (TransitionSystem.recordedStep take newSends)
        ((⟨fun proc => Core.start pairwise 64 proc Core.pageLog, [], []⟩ :
          ForwardingMachine pairwise 64 4), []) = .ok first ∧
      (first.1.cores 0).mgr.abort.abortFlag = true ∧ ∃ later,
      (openingEvents.drop 9).dropLast.foldlM (TransitionSystem.recordedStep take newSends) first =
        .ok later ∧ later.1.requests.length = 1 ∧ (later.1.cores 0).mgr.inTransaction = true ∧
      (later.1.cores 0).mgr.currentHtmUid = (first.1.cores 0).mgr.currentHtmUid := by
    decide +kernel
  have reachable : (sendingSystem pairwise 64 4).Reachable first :=
    ⟨_, _, ⟨⟨rfl, rfl, fun proc => ⟨Core.pageLog, by decide, rfl⟩⟩, rfl⟩, .of_foldlM evicted⟩
  exact ⟨first, later, reachable, doomed, running, inFlight,
    (doomed_never_commits reachable (.of_foldlM run) 0).2 doomed running same⟩

end ForwardingMachine

end Gem5.Ruby
