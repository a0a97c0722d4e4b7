import Gem5.Mem.Ruby.Htm.ForwardingGraph
import Mathlib.Data.Nat.SuccPred

/-!
# Producers and consumers

The mechanisms of depth one let no transaction be producer and consumer at once; the
mechanisms of bounded width limit the number of consumers of a transaction.  Both are
checked when a block is forwarded and when one is accepted, at different moments, so
they are invariants of each manager: a manager that has forwarded may produce, and the
set of its consumers stays within the limit of the mechanism.
-/

namespace Gem5.HTMParams

/-- The mechanisms under which a producer does not consume. -/
def depthOne (params : HTMParams) : Bool :=
  match params.fwdMechanism with
  | .simple | .w1D1 | .wnD1 => true
  | .wxDx => params.maxPrioDiff = 1
  | .noFwd | .w1Dn | .wnDm | .naive => false

/-- The number of consumers a transaction may have, where the mechanism limits it. -/
def consumerLimit (params : HTMParams) : Option Nat :=
  match params.fwdMechanism with
  | .w1D1 | .w1Dn => some 1
  | .wxDx => some params.maxConsumers
  | .noFwd | .simple | .wnD1 | .wnDm | .naive => none

end Gem5.HTMParams

namespace Gem5.Ruby

open Foundation TransactionInterfaceManager

namespace TransactionInterfaceManager

variable {params : HTMParams} {n : Nat} {mgr next middle : TransactionInterfaceManager params n}
variable {req : RemoteRequest}

/-- With depth one a consumer does not produce. -/
theorem canProduce_depthOne (shallow : params.depthOne = true)
    (allowed : mgr.canProduce = .ok true) :
    mgr.isConsumer = false := by
  unfold canProduce at allowed
  unfold HTMParams.depthOne at shallow
  repeat' split at allowed
  all_goals simp_all [pure_eq_ok]

/-- Whether a transaction may produce depends on its being a consumer only. -/
theorem canProduce_of_consumer (consumer : next.isConsumer = true → mgr.isConsumer = true)
    (allowed : mgr.canProduce = .ok true) : next.canProduce = .ok true := by
  unfold canProduce at *
  repeat' split at allowed
  all_goals simp_all [pure_eq_ok]
  all_goals grind

private theorem canProduce_deep (deep : params.depthOne = false)
    (allowed : mgr.canProduce = .ok true)
    (next : TransactionInterfaceManager params n) : next.canProduce = .ok true := by
  unfold canProduce at *
  unfold HTMParams.depthOne at deep
  repeat' split at allowed
  all_goals simp_all [pure_eq_ok]

/-- What holds of the roles of a transaction. -/
structure Roles (mgr : TransactionInterfaceManager params n) : Prop where
  recorded : mgr.forwarding.hasSentDataToConsumer = ∅ ↔
    mgr.forwarding.sentDataForwardedToConsumer.isEmpty = true
  allowed : mgr.forwarding.hasSentDataToConsumer ≠ ∅ → mgr.canProduce = .ok true
  limited : mgr.transactionLevel ≠ 0 → mgr.conflict.powered = false →
    ∀ limit ∈ params.consumerLimit, mgr.forwarding.hasSentDataToConsumer.card ≤ limit

/-- The checks of `isProducer` pass. -/
theorem Roles.isProducer (roles : mgr.Roles) :
    mgr.isProducer = .ok (decide (mgr.forwarding.hasSentDataToConsumer ≠ ∅)) := by
  unfold TransactionInterfaceManager.isProducer
  split
  · next nothing =>
    rw [assertThat_of (roles.recorded.mp nothing)]
    simp [nothing, pure, Except.pure]
  · next produced =>
    have sent : mgr.forwarding.sentDataForwardedToConsumer.isEmpty = false := by
      simpa using mt roles.recorded.mpr produced
    rw [roles.allowed produced, ok_bind, assertThat_of rfl, ok_bind, assertThat_of sent]
    simp [produced, pure, Except.pure]

private theorem isProducer_false (asked : mgr.isProducer = .ok false) :
    mgr.forwarding.hasSentDataToConsumer = ∅ := by
  unfold isProducer at asked
  split at asked
  · assumption
  · simp [pure, Except.pure] at asked

/-- A step that forwards nothing keeps the roles, if it leaves a producer one that may produce. -/
theorem Roles.of_produced (roles : mgr.Roles) (produced : next.produced = mgr.produced)
    (allowed : mgr.forwarding.hasSentDataToConsumer ≠ ∅ → mgr.canProduce = .ok true →
      next.canProduce = .ok true)
    (limited : next.transactionLevel ≠ 0 → next.conflict.powered = false →
      mgr.transactionLevel ≠ 0 ∧ mgr.conflict.powered = false) : next.Roles := by
  obtain ⟨consumers, blocks⟩ := Prod.mk.inj produced
  refine ⟨?_, fun produces => ?_, fun running ordinary => ?_⟩
  · rw [consumers, blocks]
    exact roles.recorded
  · rw [consumers] at produces
    exact allowed produces (roles.allowed produces)
  · obtain ⟨running, ordinary⟩ := limited running ordinary
    rw [consumers]
    exact roles.limited running ordinary

/-- What a step does to the roles: they are kept, and within one transaction no consumer is
forgotten. -/
structure RoleStep (mgr next : TransactionInterfaceManager params n) : Prop where
  version : next.version = mgr.version
  uid : mgr.currentHtmUid ≤ next.currentHtmUid
  within : next.transactionLevel ≠ 0 → next.currentHtmUid = mgr.currentHtmUid →
    mgr.transactionLevel ≠ 0 ∧
      mgr.forwarding.hasSentDataToConsumer ⊆ next.forwarding.hasSentDataToConsumer
  roles : mgr.Roles → next.Roles

private theorem RoleStep.of_call (frame : CallFrame mgr next)
    (produced : next.produced = mgr.produced)
    (allowed : mgr.forwarding.hasSentDataToConsumer ≠ ∅ → mgr.canProduce = .ok true →
      next.canProduce = .ok true) : RoleStep mgr next where
  version := frame.version
  uid := (congrArg Control.currentHtmUid frame.control).ge
  within running _ :=
    ⟨frame.transactionLevel ▸ running, (Prod.mk.inj produced).1 ▸ Finset.Subset.refl _⟩
  roles roles := roles.of_produced produced allowed fun running ordinary =>
    ⟨frame.transactionLevel ▸ running, frame.powered ▸ ordinary⟩

private theorem RoleStep.of_kept (frame : CallFrame mgr next) (kept : RankKept mgr next) :
    RoleStep mgr next :=
  .of_call frame kept.produced fun _ => canProduce_of_consumer kept.isConsumer

private theorem RoleStep.trans (first : RoleStep mgr middle) (second : RoleStep middle next) :
    RoleStep mgr next where
  version := second.version.trans first.version
  uid := first.uid.trans second.uid
  within running same := by
    have between : next.currentHtmUid = middle.currentHtmUid :=
      le_antisymm (same ▸ first.uid) second.uid
    obtain ⟨inside, later⟩ := second.within running between
    obtain ⟨outer, earlier⟩ := first.within inside (between.symm.trans same)
    exact ⟨outer, earlier.trans later⟩
  roles := second.roles ∘ first.roles

section Forwarding

variable {line : LineStatus} {response : Option (Nack n)}

/-- The mechanism lets an ordinary transaction stay within its limit. -/
theorem mechanismForwards_limited (ordinary : mgr.conflict.powered = false)
    (forwards : mgr.mechanismForwards req = .ok true) {limit : Nat}
    (known : limit ∈ params.consumerLimit)
    (before : mgr.forwarding.hasSentDataToConsumer.card ≤ limit) :
    (insert req.remoteId mgr.forwarding.hasSentDataToConsumer).card ≤ limit := by
  by_cases again : req.remoteId ∈ mgr.forwarding.hasSentDataToConsumer
  · rwa [Finset.insert_eq_of_mem again]
  · rw [Finset.card_insert_of_notMem again]
    have alone : mgr.producesFor req.remoteId = .ok true →
        mgr.forwarding.hasSentDataToConsumer = ∅ := by
      intro produces
      simp only [producesFor, again, decide_false, Bool.or_false, run_eq_ok,
        Bool.not_eq_true'] at produces
      obtain ⟨_, producer, rfl⟩ := produces
      exact isProducer_false producer
    simp only [mechanismForwards, getSwTransactionPriority, ordinary, Bool.false_or] at forwards
    simp only [HTMParams.consumerLimit] at known
    repeat' split at forwards
    all_goals simp_all [pure_eq_ok]

/-- The answer to a request: with data the requester is recorded, and nothing else. -/
structure Sends (mgr : TransactionInterfaceManager params n) (req : RemoteRequest)
    (response : Option (Nack n)) (next : TransactionInterfaceManager params n) : Prop where
  step : RoleStep mgr next
  recorded : ∀ nack, response = some nack → nack.data.isSome = true →
    req.remoteId ∈ next.forwarding.hasSentDataToConsumer

private theorem Sends.of_addConsumer {nack : Nack n} {data : DataBlock n} (may : mgr.MayForward req)
    (judged : mgr.mechanismForwards req = .ok true)
    (added : mgr.addConsumer req = .ok (data, next)) :
    mgr.Sends req (some nack) next := by
  have inside := may.inside
  have frame := (AnswerCall.of_addConsumer inside added).call
  simp only [addConsumer, recordSentData, run_eq_ok, Prod.mk.injEq] at added
  obtain ⟨_, -, _, switched, -, _, produces, rfl, _, -, _, ⟨-, _, -, rfl⟩, -, rfl⟩ := added
  obtain ⟨_, rfl⟩ := switchHwPrio_ok switched
  refine ⟨⟨frame.version, (congrArg Control.currentHtmUid frame.control).ge,
    fun _ _ => ⟨inside, ?_⟩,
    fun roles => ⟨?_, fun _ => produces, fun _ ordinary limit known => ?_⟩⟩, fun _ _ _ => ?_⟩
  · exact Finset.subset_insert ..
  · simp
  · rw [frame.powered] at ordinary
    exact mechanismForwards_limited ordinary judged known
      (roles.limited inside ordinary limit known)
  · exact Finset.mem_insert_self ..

private theorem Sends.of_sendInvNack {nack : Nack n}
    (sent : mgr.sendInvNack req line = .ok (nack, next)) :
    mgr.Sends req (some nack) next := by
  rcases sendInvNack_cases sent with ⟨made, asked⟩ | ⟨_, _, -, -, may, judged, added, -⟩
  · simp only [plainNack, run_eq_ok] at made
    obtain ⟨_, -, rfl⟩ := made
    have quiet := QuietCall.of_asked asked
    exact ⟨.of_kept quiet.call quiet.rank, by rintro _ ⟨⟩ ⟨⟩⟩
  · exact .of_addConsumer may judged added

/-- Every answer to a remote request sends so. -/
theorem Sends.of_remoteRequest {kind : RequestKind}
    (answered : mgr.remoteRequest kind req line = .ok (response, next)) :
    mgr.Sends req response next := by
  rcases remoteRequest_cases answered with ⟨middle, nack, judged, sent, rfl⟩ | ⟨judged, rfl⟩
  · have before : RoleStep mgr middle := .of_kept judged.quiet.call judged.quiet.rank
    obtain ⟨step, recorded⟩ := Sends.of_sendInvNack sent
    exact ⟨before.trans step, recorded⟩
  · exact ⟨.of_kept judged.quiet.call judged.quiet.rank, by simp⟩

end Forwarding

section Consuming

/-- Under a mechanism of depth one a producer accepts no data. -/
theorem shouldAccept_depthOne (shallow : params.depthOne = true)
    (accepted : mgr.shouldAcceptForwardedDataFromProducer = .ok true) :
    mgr.forwarding.hasSentDataToConsumer = ∅ := by
  have clear : (mgr.isProducer >>= fun producer => pure !producer) = .ok true →
      mgr.forwarding.hasSentDataToConsumer = ∅ := by
    intro asked
    simp only [run_eq_ok, Bool.not_eq_true'] at asked
    obtain ⟨_, producer, rfl⟩ := asked
    exact isProducer_false producer
  unfold shouldAcceptForwardedDataFromProducer at accepted
  unfold HTMParams.depthOne at shallow
  split at accepted
  · simp only [bind_eq_ok, assertThat_eq_ok, exists_const] at accepted
    exact clear (bind_eq_ok.mpr accepted.2)
  · exact clear accepted
  · exact clear accepted
  · simp_all
  all_goals simp_all

/-- Consumption forwards nothing. -/
theorem consumeForwardedData_produced {nack : Nack n} {data : DataBlock n} {access : Access}
    {issues : Addr → Bool}
    (consumed : mgr.consumeForwardedData nack data access issues = .ok next) :
    next.produced = mgr.produced := by
  simp only [consumeForwardedData, bind_eq_ok] at consumed
  obtain ⟨_, notified, called⟩ := consumed
  obtain ⟨marked, taker, consumer, parts⟩ := notifyForwardedData_ok notified
  have taken : taker.produced = marked.produced := by
    have taking := parts.taking
    unfold takeNackPriority at taking
    split at taking
    · exact (QuietCall.of_notifyReceiveNack taking).rank.produced
    · obtain ⟨_, rfl⟩ := switchHwPrio_ok taking
      rfl
  obtain ⟨_, _, _, _, rfl, -⟩ := consumeData_ok parts.consuming
  rw [(AccessCall.of_specCallback called).rank.produced, parts.limits.rank.produced]
  exact taken.trans parts.marking.rank.produced

end Consuming

section LifeCycle

/-- A manager without bookkeeping has no role. -/
theorem Roles.of_reset {forwarding : ValueForwarding n}
    (reset : next.forwarding = resetForwarding forwarding) : next.Roles := by
  refine ⟨?_, fun produces => ?_, fun _ _ limit _ => ?_⟩
  · simp [reset, resetForwarding, ValueForwarding.init]
  · simp [reset, resetForwarding, ValueForwarding.init] at produces
  · simp [reset, resetForwarding, ValueForwarding.init]

/-- A transaction begins with nothing forwarded. -/
theorem beginTransaction_produces {pkt : HtmPacket} (roles : mgr.Roles)
    (begun : mgr.beginTransaction pkt = .ok next) : mgr.forwarding.hasSentDataToConsumer = ∅ := by
  simp only [beginTransaction, run_eq_ok] at begun
  obtain ⟨-, -, -, -, -, -, conflict, -, _, reset, -⟩ := begun
  unfold assertForwardingReset at reset
  split at reset
  · simp only [assertNoForwarding, run_eq_ok] at reset
    obtain ⟨_, producer, rfl, -⟩ := reset
    exact isProducer_false producer
  · next disabled =>
    by_contra produces
    have allowed := roles.allowed produces
    have none : params.fwdMechanism = .noFwd := by
      simpa [HTMParams.allowEarlyValueFwd] using disabled
    simp only [canProduce, none] at allowed
    split at allowed <;> simp [pure, Except.pure] at allowed

/-- The transaction ends, with its bookkeeping as it was or reset. -/
theorem RoleStep.of_ended (version : next.version = mgr.version)
    (level : next.transactionLevel = 0) (uid : next.currentHtmUid = mgr.currentHtmUid)
    (forwarding : next.forwarding = mgr.forwarding ∨
      next.forwarding = resetForwarding mgr.forwarding) : RoleStep mgr next := by
  refine ⟨version, uid.ge, fun running => absurd level running, fun roles => ?_⟩
  rcases forwarding with same | reset
  · refine roles.of_produced ?_ (fun _ => canProduce_of_consumer ?_) fun running => absurd level
      running
    · rw [produced, same]
    · rw [isConsumer, same]
      exact id
  · exact .of_reset reset

end LifeCycle

end TransactionInterfaceManager

namespace Core

variable {params : HTMParams} {n : Nat} {core next : Core params n} {event : CoreEvent n}
variable {mgr : TransactionInterfaceManager params n}

private theorem lifeCycle_roles (sound : core.mgr.Sound) (cycle : LifeCycle core event mgr) :
    RoleStep core.mgr mgr := by
  rcases cycle.cases sound with ⟨_, begun⟩ | ⟨_, _, _, done⟩ | ended
  · obtain ⟨-, -, -, -, fresh, -, _, _, rfl, -⟩ := beginTransaction_ok begun
    refine ⟨rfl, fresh.le, fun _ same => absurd same fresh.ne', fun roles => ?_⟩
    have nothing := beginTransaction_produces roles begun
    exact ⟨roles.recorded, fun produces => absurd nothing produces, by simp [nothing]⟩
  · obtain ⟨_, _, rfl, -⟩ := initiateCommitTransaction_ok done
    exact ⟨rfl, Nat.le_refl _, fun running _ => ⟨running, Finset.Subset.refl _⟩, fun roles =>
      ⟨roles.recorded, roles.allowed, roles.limited⟩⟩
  · rcases ended.level with outside | ⟨level, forwarding, conflict⟩
    · exact .of_ended ended.version outside ended.uid ended.forwarding
    · -- the log remains to be unrolled: the roles are left for the end of the unrolling
      refine ⟨ended.version, ended.uid.ge, fun running _ => ⟨level ▸ running, ?_⟩, fun roles => ?_⟩
      · rw [forwarding]
      · have produced : mgr.produced = core.mgr.produced := by
          rw [produced, forwarding]
        have consumer : mgr.isConsumer = core.mgr.isConsumer := by
          rw [isConsumer, forwarding, isConsumer]
        exact roles.of_produced produced
          (fun _ => canProduce_of_consumer (consumer ▸ id))
          fun running ordinary => ⟨level ▸ running, conflict ▸ ordinary⟩

/-- A local event. -/
theorem step_roles (sound : core.mgr.Sound) (admitted : core.Admits event)
    (inside : isLocal event = true) (stepped : core.step event = .ok next) :
    RoleStep core.mgr next.mgr := by
  rcases local_cases sound admitted inside stepped with kept | cycle
  · exact .of_kept kept.call kept.rank
  · exact lifeCycle_roles sound cycle

/-- A nack keeps the rank of its receiver, or its data is consumed: under a mechanism of depth one
by a producer of nothing only. -/
theorem receiveNack_roles {nack : Nack n} {tbe : Option TBE}
    {pending : Pending} (frame : CallFrame core.mgr next.mgr)
    (received : core.receiveNack nack tbe pending = .ok next) :
    RoleStep core.mgr next.mgr ∧ (RankKept core.mgr next.mgr ∨ nack.data.isSome = true) := by
  cases receiveNack_cases received with
  | quiet _ _ call => exact ⟨.of_kept frame call.rank, .inl call.rank⟩
  | consumed judged carried consumed =>
    have before := (QuietCall.of_nackEvent judged).rank
    have produced := consumeForwardedData_produced consumed
    refine ⟨.of_call frame (produced.trans before.produced) ?_, .inr (by simp [carried])⟩
    intro produces allowed
    cases shallow : params.depthOne with
    | true =>
      have nothing := shouldAccept_depthOne shallow (nackEvent_nackSpec judged).2
      exact absurd ((Prod.mk.inj before.produced).1.symm.trans nothing) produces
    | false => exact canProduce_deep shallow allowed next.mgr
  | validated judged validated =>
    have kept := (QuietCall.of_nackEvent judged).rank.trans
      (RankCall.of_validateConsumedData validated).rank
    exact ⟨.of_kept frame kept, .inl kept⟩

end Core

end Gem5.Ruby
