import Gem5.Foundation.Transition
import Gem5.Mem.Ruby.Htm.ManagerCalls
import Gem5.Mem.Ruby.Htm.Configurations

/-!
# The runs of one core

One core as a transition system: commands of its CPU, its own accesses, requests and
nacks of other cores, validations, replacements, and whatever the rest of the machine
changes in between.  A call that stops at an assertion has no successor.
`TransactionInterfaceManager.Sound` is what holds in every reachable state, in every
mode and under every policy.
-/

namespace Gem5.Ruby

open Foundation

/-- What the rest of the simulated machine may change between two calls. -/
structure Surroundings (n : Nat) where
  htm : HTM
  dataCache : CacheMemory n
  curCycle : Cycles
  stalled : Bool
  requestTable : Std.ExtTreeMap Addr Nat

/-- The events of a core.  `conflictingCommitter` is the outcome of the check of magic commit
arbitration against the other cores. -/
inductive CoreEvent (n : Nat) where
  | command (cmd : HtmCommand) (pkt : HtmPacket) (conflictingCommitter : Checked Bool)
      (issues : Addr → Bool)
  | request (uid : Nat) (access : Access)
  | readCallback (access : Access)
  | writeCallback (access : Access) (issues : Addr → Bool)
  | remoteLoad (req : RemoteRequest) (line : LineStatus)
  | remoteStore (req : RemoteRequest) (line : LineStatus)
  | remoteInvalidation (req : RemoteRequest) (line : LineStatus)
  | nack (nack : Nack n) (tbe : Option TBE) (pending : TransactionInterfaceManager.Pending)
  | dataExclusive (addr : Addr) (sender : MachineID) (data : DataBlock n) (timestamp : Cycles)
  | fireValidation (status : RequestStatus)
  | replacement (addr : Addr) (source : MachineID) (capacity dataStale spec : Bool)
  | endLogUnroll
  | environment (surroundings : Surroundings n)

namespace Core

variable {params : HTMParams} {n : Nat}

/-- A call that only concerns the manager. -/
def update (core : Core params n) (result : Checked (TransactionInterfaceManager params n)) :
    Checked (Core params n) := do
  let mgr ← result
  return { core with mgr := mgr }

/-- A call whose answer goes to another core. -/
def respond {α : Type} (core : Core params n)
    (result : Checked (α × TransactionInterfaceManager params n)) : Checked (Core params n) := do
  let (_, mgr) ← result
  return { core with mgr := mgr }

/-- An incoming nack. -/
def receiveNack (core : Core params n) (nack : Nack n) (tbe : Option TBE)
    (pending : TransactionInterfaceManager.Pending) : Checked (Core params n) := do
  let (event, mgr) ← core.mgr.nackEvent nack tbe
  core.update (mgr.handleNack core.lastAbortHtmUid nack pending event)

/-- The effect of an event. -/
def step (core : Core params n) : CoreEvent n → Checked (Core params n)
  | .command cmd pkt conflictingCommitter issues =>
    core.notifyXactionEvent cmd pkt conflictingCommitter issues
  | .request uid access => core.makeRequest uid access
  | .readCallback access =>
    core.update (core.mgr.hitCallback { access with write := false } fun _ => false)
  | .writeCallback access issues =>
    core.update (core.mgr.writeCallback { access with write := true } issues)
  | .remoteLoad req line => core.respond (core.mgr.remoteLoad req line)
  | .remoteStore req line => core.respond (core.mgr.remoteStore req line)
  | .remoteInvalidation req line => core.respond (core.mgr.remoteInvalidation req line)
  | .nack nack tbe pending => core.receiveNack nack tbe pending
  | .dataExclusive addr sender data timestamp =>
    core.update (core.mgr.validateConsumedData addr sender data timestamp false)
  | .fireValidation status => core.update (core.mgr.fireValidation status)
  | .replacement addr source capacity dataStale spec =>
    core.update (core.mgr.xactReplacement addr source capacity dataStale spec)
  | .endLogUnroll => core.update core.mgr.endLogUnroll
  | .environment surroundings =>
    return { core with
      htm := surroundings.htm
      mgr := { core.mgr with
        dataCache := surroundings.dataCache, curCycle := surroundings.curCycle
        stalled := surroundings.stalled, requestTable := surroundings.requestTable } }

/-- What the CPU and the network guarantee: commands other than `HTM_START` come from inside a
transaction, requests and nacks from other cores, and time does not run backwards. -/
def Admits (core : Core params n) : CoreEvent n → Prop
  | .command cmd _ _ _ => cmd = .start ∨ core.mgr.inTransaction = true
  | .remoteLoad req _ | .remoteStore req _ | .remoteInvalidation req _ =>
    req.remoteId.type = .l1Cache → req.remoteId.num ≠ core.mgr.version
  | .nack nack _ _ => nack.sender.type = .l1Cache ∧ nack.sender.num ≠ core.mgr.version
  | .environment surroundings => core.mgr.curCycle ≤ surroundings.curCycle
  | _ => True

instance (core : Core params n) : (event : CoreEvent n) → Decidable (core.Admits event)
  | .command cmd _ _ _ => inferInstanceAs (Decidable (cmd = .start ∨ core.mgr.inTransaction = true))
  | .remoteLoad req _ | .remoteStore req _ | .remoteInvalidation req _ =>
    inferInstanceAs (Decidable
      (req.remoteId.type = .l1Cache → req.remoteId.num ≠ core.mgr.version))
  | .nack nack _ _ => inferInstanceAs (Decidable
      (nack.sender.type = .l1Cache ∧ nack.sender.num ≠ core.mgr.version))
  | .environment surroundings =>
    inferInstanceAs (Decidable (core.mgr.curCycle ≤ surroundings.curCycle))
  | .request .. | .readCallback .. | .writeCallback .. | .dataExclusive .. | .fireValidation ..
  | .replacement .. | .endLogUnroll => inferInstanceAs (Decidable True)

/-- A core before its first transaction; the undo log has been set up. -/
def start (params : HTMParams) (n : Nat) (version : Nat) (log : Std.ExtTreeMap Addr Addr) :
    Core params n where
  mgr := .init params n version log
  htm := ⟨[]⟩
  lastAbortHtmUid := 0
  commitPending := false

/-- One admitted event. -/
def take (core : Core params n) (event : CoreEvent n) : Checked (Core params n) := do
  assertThat (core.Admits event) "admitted"
  core.step event

/-- The runs of one core. -/
def system (params : HTMParams) (n : Nat) : TransitionSystem (Core params n) (CoreEvent n) :=
  .ofExcept (fun core => ∃ version log, log.isEmpty = false ∧
    core = start params n version log) take

/-- A step is an admitted event that succeeds. -/
theorem system_step {core next : Core params n} {event : CoreEvent n} :
    (system params n).Step core event next ↔ core.Admits event ∧ core.step event = .ok next := by
  simp [system, take]

end Core

namespace TransactionInterfaceManager

variable {params : HTMParams} {n : Nat} {mgr next : TransactionInterfaceManager params n}
variable {htm after : HTM}

/-- What holds of a manager in every reachable state. -/
structure Sound (mgr : TransactionInterfaceManager params n) : Prop where
  level : mgr.transactionLevel = 0 ∨ mgr.transactionLevel = 1
  escape : mgr.escapeLevel = if mgr.unrollingLogFlag then 1 else 0
  unrolling : mgr.unrollingLogFlag = true →
    mgr.transactionLevel = 1 ∧ params.lazyVm = false ∧ mgr.abort.abortFlag = false
  outside : mgr.transactionLevel = 0 → mgr.isolation = ⟨∅, ∅, ∅⟩ ∧
    mgr.abort.abortFlag = false ∧ mgr.conflict.powered = false
  cause : mgr.abort.abortFlag = false → mgr.abort.abortCause = .undefined
  tracked : mgr.isolation.Tracked n params.preciseReadSetTracking
  sourced : mgr.forwarding.Sourced
  prio : mgr.hwTransPrio = ncPrioValue ∨ (mgr.conflict.powered = false ∧
    (params.conflictResolution = .requesterStallsPicBase ∨ params.allowEarlyValueFwd = true))
  lazyUid : mgr.lazyVersion.currentHtmUid ≤ mgr.currentHtmUid
  flush : mgr.lazyVersion.aborting = true → mgr.abort.abortFlag = true ∧ params.eagerCd = false
  log : params.lazyVm = false → mgr.transactionLevel = 0 → mgr.eagerVersion.logNumEntries = 0
  ready : mgr.eagerVersion.initStatus = .ready ∧ mgr.eagerVersion.logTLB.isEmpty = false

namespace Sound

/-- A new manager with a log is sound. -/
theorem init {version : Nat} {log : Std.ExtTreeMap Addr Addr} (setUp : log.isEmpty = false) :
    Sound (TransactionInterfaceManager.init params n version log) where
  level := .inl rfl
  escape := rfl
  unrolling := by simp [TransactionInterfaceManager.init]
  outside _ := ⟨rfl, rfl, rfl⟩
  cause _ := rfl
  tracked := .empty
  sourced := by
    simp [ValueForwarding.Sourced, TransactionInterfaceManager.init, ValueForwarding.init]
  prio := .inl rfl
  lazyUid := Nat.le_refl 0
  flush := by simp [TransactionInterfaceManager.init, LazyTransactionVersionManager.init]
  log _ _ := rfl
  ready := ⟨rfl, setUp⟩

/-- Every call keeps the manager sound. -/
theorem of_call (sound : mgr.Sound) (frame : CallFrame mgr next) : next.Sound := by
  have control := frame.control
  simp only [TransactionInterfaceManager.control, Control.mk.injEq] at control
  obtain ⟨-, level, uid, -, escape, unroll, -, -, status, log⟩ := control
  have abortSame : mgr.transactionLevel = 0 ∨ mgr.isUnrollingLog = true →
      next.abort = mgr.abort := by
    intro excluded
    rcases frame.abort with same | ⟨inside, live, -⟩
    · exact same
    · rcases excluded with outside | unrolls
      · exact absurd outside inside
      · simp [live] at unrolls
  refine
    { level := level ▸ sound.level
      escape := by rw [escape, unroll]; exact sound.escape
      unrolling := ?_, outside := ?_, cause := ?_
      tracked := frame.tracked sound.tracked
      sourced := frame.sourced sound.sourced
      prio := ?_
      lazyUid := by rw [frame.flush.uid, uid]; exact sound.lazyUid
      flush := ?_, log := ?_
      ready := by rw [status, log]; exact sound.ready }
  · intro unrolls
    obtain ⟨inside, eager, clear⟩ := sound.unrolling (unroll ▸ unrolls)
    rw [abortSame (.inr (by simp [TransactionInterfaceManager.isUnrollingLog, eager,
      unroll ▸ unrolls]))]
    exact ⟨level ▸ inside, eager, clear⟩
  · intro outside
    rw [level] at outside
    rw [frame.isolation outside, abortSame (.inl outside), frame.powered]
    exact sound.outside outside
  · intro clear
    rcases frame.abort with same | ⟨-, -, flagged⟩
    · rw [same] at clear ⊢
      exact sound.cause clear
    · simp [clear] at flagged
  · rcases frame.prio with same | moved
    · rw [same, frame.powered]
      exact sound.prio
    · exact .inr ⟨frame.powered.trans moved.1, moved.2⟩
  · intro cancelled
    rcases frame.flush.aborting cancelled with before | now
    · obtain ⟨flagged, lazyCd⟩ := sound.flush before
      rcases frame.abort with same | ⟨-, -, still⟩
      · exact ⟨same ▸ flagged, lazyCd⟩
      · exact ⟨still, lazyCd⟩
    · exact now
  · intro eager outside
    rw [level] at outside
    rw [frame.log outside]
    exact sound.log eager outside

/-- Beginning keeps the manager sound. -/
theorem of_beginTransaction {pkt : HtmPacket} (sound : mgr.Sound)
    (begun : mgr.beginTransaction pkt = .ok next) : next.Sound := by
  obtain ⟨outside, escape, -, unroll, fresh, prio, conflict, lazyVersion, rfl, powered, flush⟩ :=
    beginTransaction_ok begun
  obtain ⟨isolation, clear, off⟩ := sound.outside outside
  refine
    { level := .inr rfl, escape := sound.escape
      unrolling := by simp [unroll]
      outside := by simp
      cause := sound.cause
      tracked := by rw [isolation]; exact .empty
      sourced := sound.sourced
      prio := ?_, lazyUid := ?_, flush := ?_
      log := by simp
      ready := sound.ready }
  · rcases sound.prio with same | ⟨-, enabled⟩
    · exact .inl same
    · by_cases forwarding : params.allowEarlyValueFwd = true
      · exact .inl (prio forwarding)
      · have pic : params.conflictResolution = .requesterStallsPicBase :=
          enabled.resolve_right forwarding
        refine .inr ⟨?_, .inl pic⟩
        by_contra on
        have policy := conflict.isPowered_policy (by simpa using on)
        simp [HTMParams.isPowerTMPolicy, pic] at policy
  · have known := sound.lazyUid
    rcases flush with rfl | ⟨sameUid, -⟩
    · exact Nat.le_of_lt (Nat.lt_of_le_of_lt known fresh)
    · exact Nat.le_of_eq sameUid
  · rcases flush with rfl | ⟨-, calm⟩
    · exact sound.flush
    · simp [calm]

/-- Outside the unrolling of the log the flag of a sound manager in a transaction is down. -/
theorem not_unrolling (sound : mgr.Sound) (escape : mgr.escapeLevel = 0) :
    mgr.unrollingLogFlag = false := by
  by_contra unrolls
  have escaped := sound.escape
  simp_all

/-- A running transaction does not unroll. -/
theorem not_isUnrollingLog (sound : mgr.Sound) (running : mgr.inTransaction = true) :
    mgr.isUnrollingLog = false := by
  simp only [inTransaction, Bool.and_eq_true, decide_eq_true_eq] at running
  simp [isUnrollingLog, sound.not_unrolling running.2]

private theorem of_commitTransaction (sound : mgr.Sound) (running : mgr.inTransaction = true)
    (done : mgr.commitTransaction htm = .ok (next, after)) : next.Sound := by
  obtain ⟨-, live, _, _, _, _, _, _, rfl, ⟨off, -⟩, flush, rfl, rfl, -, -⟩ :=
    commitTransaction_ok done
  have notUnrolling := sound.not_unrolling (by simp_all [inTransaction])
  exact
    { level := .inl rfl, escape := sound.escape
      unrolling := by simp [notUnrolling]
      outside := fun _ => ⟨rfl, live, off⟩
      cause := sound.cause
      tracked := .empty
      sourced := by
        dsimp only
        split
        · simp [ValueForwarding.Sourced, resetForwarding, ValueForwarding.init]
        · exact sound.sourced
      prio := .inl rfl
      lazyUid := by dsimp only; rw [flush.uid]; exact sound.lazyUid
      flush := fun cancelled => sound.flush ((flush.aborting cancelled).resolve_right id)
      log := by
        intro eager _
        simp [eager, EagerTransactionVersionManager.commitTransaction]
      ready := by
        dsimp only
        split
        · exact sound.ready
        · exact sound.ready }

/-- A taken abort leaves no signal. -/
theorem taken_flag (abort : AbortState) : (AbortState.taken abort).abortFlag = false := by
  unfold AbortState.taken
  split
  · rfl
  · next down => simpa using down

variable (sound : mgr.Sound)

include sound

private theorem taken_cause : (AbortState.taken mgr.abort).abortCause = .undefined := by
  unfold AbortState.taken
  split
  · rfl
  · next down => exact sound.cause (by simpa using down)

/-- Aborting keeps the manager sound. -/
theorem of_abortTransaction (done : mgr.abortTransaction htm = .ok (next, after)) : next.Sound := by
  have notUnrolling := sound.not_unrolling (abortTransaction_ok done).2.1
  have prio : mgr.hwTransPrio = ncPrioValue ∨ (false = false ∧
      (params.conflictResolution = .requesterStallsPicBase ∨ params.allowEarlyValueFwd = true)) :=
    sound.prio.imp_right fun moved => ⟨rfl, moved.2⟩
  cases lazy : params.lazyVm with
  | true =>
    obtain ⟨_, _, lazyVersion, _, forwarding, prioAfter, rfl, flush, lazyCd, eagerCd⟩ :=
      abortTransaction_lazy lazy done
    have forwarded : forwarding = mgr.forwarding ∨ forwarding = resetForwarding mgr.forwarding := by
      cases eager : params.eagerCd with
      | false => exact .inl (lazyCd eager).2.2.1
      | true => exact (eagerCd eager).2 ▸ (ite_eq_or_eq _ _ _).symm
    refine
      { level := by simp [notUnrolling], escape := sound.escape
        unrolling := by simp [notUnrolling]
        outside := fun _ => ⟨rfl, taken_flag _, rfl⟩
        cause := fun _ => sound.taken_cause
        tracked := .empty
        sourced := ?_, prio := ?_, flush := ?_
        lazyUid := by dsimp only; rw [flush.uid]; exact sound.lazyUid
        log := by simp [lazy], ready := sound.ready }
    · rcases forwarded with rfl | rfl
      · exact sound.sourced
      · simp [ValueForwarding.Sourced, resetForwarding, ValueForwarding.init]
    · cases eager : params.eagerCd with
      | false =>
        dsimp only
        rw [(lazyCd eager).2.2.2]
        exact prio
      | true => exact .inl (eagerCd eager).1
    · intro cancelled
      dsimp only at cancelled
      cases eager : params.eagerCd with
      | false => simp [(lazyCd eager).1] at cancelled
      | true =>
        obtain ⟨-, lazyCd⟩ := sound.flush ((flush.aborting cancelled).resolve_right id)
        simp [eager] at lazyCd
  | false =>
    have idle : mgr.lazyVersion.aborting = false := by
      by_contra cancelled
      have lazyCd := (sound.flush (by simpa using cancelled)).2
      simp [params.eagerOfLog lazy] at lazyCd
    rcases abortTransaction_log lazy done with rfl | rfl
    · exact
        { level := by simp [notUnrolling], escape := sound.escape
          unrolling := by simp [notUnrolling]
          outside := fun _ => ⟨rfl, taken_flag _, rfl⟩
          cause := fun _ => sound.taken_cause
          tracked := .empty, sourced := sound.sourced, prio := prio
          lazyUid := sound.lazyUid, flush := by simp [idle], log := fun _ _ => rfl
          ready := sound.ready }
    · exact
        { level := .inr rfl, escape := rfl
          unrolling := fun _ => ⟨rfl, lazy, taken_flag _⟩
          outside := by simp
          cause := fun _ => sound.taken_cause
          tracked := sound.tracked.releaseReads, sourced := sound.sourced, prio := sound.prio
          lazyUid := sound.lazyUid, flush := by simp [idle], log := by simp
          ready := sound.ready }

private theorem of_endLogUnroll (done : mgr.endLogUnroll = .ok next) : next.Sound := by
  simp only [endLogUnroll, run_eq_ok] at done
  obtain ⟨-, -, -, unrolls, rfl⟩ := done
  exact
    { level := .inl rfl, escape := rfl
      unrolling := by simp
      outside := fun _ => ⟨rfl, (sound.unrolling unrolls).2.2, rfl⟩
      cause := sound.cause
      tracked := .empty, sourced := sound.sourced
      prio := sound.prio.imp_right fun moved => ⟨rfl, moved.2⟩
      lazyUid := sound.lazyUid, flush := sound.flush, log := fun _ _ => rfl
      ready := sound.ready }

/-- Initiating the commit keeps the manager sound. -/
theorem of_initiateCommitTransaction {conflictingCommitter : Checked Bool} {issues : Addr → Bool}
    (initiated : mgr.initiateCommitTransaction htm conflictingCommitter issues =
      .ok (next, after)) : next.Sound := by
  obtain ⟨_, _, rfl, flush⟩ := initiateCommitTransaction_ok initiated
  exact { sound with
    lazyUid := by dsimp only; rw [flush.uid]; exact sound.lazyUid
    flush := fun cancelled => sound.flush ((flush.aborting cancelled).resolve_right id) }

/-- Whether a core is stalled is no part of soundness. -/
theorem with_stalled (stalled : Bool) : Sound { mgr with stalled := stalled } := { sound with }

end Sound

end TransactionInterfaceManager

namespace Core

variable {params : HTMParams} {n : Nat} {core next : Core params n} {event : CoreEvent n}

/-- The steps that change the control state of the manager: what a life cycle event makes of it. -/
inductive LifeCycle (core : Core params n) :
    CoreEvent n → TransactionInterfaceManager params n → Prop where
  | start {pkt committer issues mgr} (begun : core.mgr.beginTransaction pkt = .ok mgr) :
      LifeCycle core (.command .start pkt committer issues) mgr
  | commit {pkt committer issues mgr after} (running : core.mgr.inTransaction = true)
      (live : core.mgr.isAborting = false) (ready : core.mgr.canCommitTransaction = true)
      (done : core.mgr.commitTransaction core.htm = .ok (mgr, after)) :
      LifeCycle core (.command .commit pkt committer issues) { mgr with stalled := false }
  | initiate {pkt committer issues mgr after} (running : core.mgr.inTransaction = true)
      (live : core.mgr.isAborting = false)
      (done : core.mgr.initiateCommitTransaction core.htm committer issues = .ok (mgr, after)) :
      LifeCycle core (.command .commit pkt committer issues) mgr
  | abort {cause pkt committer issues mgr after} (running : core.mgr.inTransaction = true)
      (done : core.mgr.abortTransaction core.htm = .ok (mgr, after)) :
      LifeCycle core (.command (.abort cause) pkt committer issues) { mgr with stalled := false }
  | unrolled {mgr} (done : core.mgr.endLogUnroll = .ok mgr) : LifeCycle core .endLogUnroll mgr

/-- A call that answers nothing changes the manager only. -/
theorem update_ok {result : Checked (TransactionInterfaceManager params n)}
    (updated : core.update result = .ok next) :
    result = .ok next.mgr ∧ next = { core with mgr := next.mgr } := by
  simp only [update, run_eq_ok] at updated
  obtain ⟨_, computed, rfl⟩ := updated
  exact ⟨computed, rfl⟩

/-- A call that answers changes the manager only. -/
theorem respond_ok {α : Type} {result : Checked (α × TransactionInterfaceManager params n)}
    (responded : core.respond result = .ok next) :
    (∃ answer, result = .ok (answer, next.mgr)) ∧ next = { core with mgr := next.mgr } := by
  simp only [respond, run_eq_ok] at responded
  obtain ⟨⟨answer, _⟩, computed, rfl⟩ := responded
  exact ⟨⟨answer, computed⟩, rfl⟩

open TransactionInterfaceManager

variable {pkt : HtmPacket}

/-- What an abort leaves of the core. -/
theorem abortTransaction_ok (aborted : core.abortTransaction pkt = .ok next) :
    ∃ mgr after, core.mgr.abortTransaction core.htm = .ok (mgr, after) ∧ next = { core with
        mgr := { mgr with stalled := false }, htm := after, lastAbortHtmUid := pkt.uid } := by
  simp only [abortTransaction, run_eq_ok] at aborted
  obtain ⟨⟨mgr, after⟩, done, rfl⟩ := aborted
  exact ⟨mgr, after, done, rfl⟩

/-- An HTM command either is a life cycle step or changes no data. -/
theorem notifyXactionEvent_call {cmd : HtmCommand} {committer : Checked Bool}
    {issues : Addr → Bool} (sound : core.mgr.Sound)
    (admitted : cmd = .start ∨ core.mgr.inTransaction = true)
    (notified : core.notifyXactionEvent cmd pkt committer issues = .ok next) :
    QuietCall core.mgr next.mgr ∨ LifeCycle core (.command cmd pkt committer issues) next.mgr := by
  unfold notifyXactionEvent at notified
  split at notified
  · split at notified
    · obtain ⟨_, _, done, rfl⟩ := abortTransaction_ok notified
      exact .inr (.abort (admitted.resolve_left (by simp)) done)
    · split at notified
      · simp only [run_eq_ok] at notified
        obtain ⟨-, rfl⟩ := notified
        exact .inl (.refl _)
      · exact .inl (pure_eq_ok.mp notified ▸ .refl _)
  · next live =>
    have live : core.mgr.isAborting = false := by simpa using live
    split at notified
    · simp only [run_eq_ok] at notified
      obtain ⟨_, begun, rfl⟩ := notified
      exact .inr (.start begun)
    · have running := admitted.resolve_left (by simp)
      unfold commit at notified
      split at notified
      · next ready =>
        simp only [run_eq_ok] at notified
        obtain ⟨⟨_, _⟩, done, rfl⟩ := notified
        exact .inr (.commit running live ready done)
      · simp only [run_eq_ok] at notified
        obtain ⟨⟨_, _⟩, done, rfl⟩ := notified
        exact .inr (.initiate running live done)
    · simp only [run_eq_ok] at notified
      obtain ⟨_, cancelled, rfl⟩ := notified
      have running := admitted.resolve_left (by simp)
      exact .inl (.of_cancelTransaction (CallFrame.inside_of_inTransaction running)
        (sound.not_isUnrollingLog running) cancelled)
    · split at notified
      · obtain ⟨_, _, done, rfl⟩ := abortTransaction_ok notified
        exact .inr (.abort (admitted.resolve_left (by simp)) done)
      · simp at notified
    · simp only [run_eq_ok] at notified
      obtain ⟨_, isolated, rfl⟩ := notified
      exact .inl (.of_isolateRetiredLoad isolated)

/-- Making a request is a quiet call. -/
theorem makeRequest_call {uid : Nat} {access : Access}
    (made : core.makeRequest uid access = .ok next) : QuietCall core.mgr next.mgr := by
  unfold makeRequest at made
  repeat' split at made
  · simp at made
  · exact pure_eq_ok.mp made ▸ .refl _
  · simp only [run_eq_ok] at made
    obtain ⟨_, redirected, rfl⟩ := made
    exact .of_redirectStore redirected
  · simp only [run_eq_ok] at made
    obtain ⟨_, inserted, rfl⟩ := made
    exact .of_insertRequest inserted

/-- The ways a nack is handled: without data, by consuming its data, or by validating with it. -/
inductive Nacked (core : Core params n) (nack : Nack n) (tbe : Option TBE) :
    Pending → TransactionInterfaceManager params n → Prop where
  | quiet {pending mgr middle event} (judged : core.mgr.nackEvent nack tbe = .ok (event, middle))
      (plain : event ≠ .nackSpec) (call : QuietCall core.mgr mgr)
      (failed : event = .nack →
        middle.failedCallback core.lastAbortHtmUid nack.toRemote = .ok mgr) :
      Nacked core nack tbe pending mgr
  | consumed {middle data access issues mgr}
      (judged : core.mgr.nackEvent nack tbe = .ok (.nackSpec, middle))
      (carried : nack.data = some data)
      (consumed : middle.consumeForwardedData nack data access issues = .ok mgr) :
      Nacked core nack tbe (.miss access issues) mgr
  | validated {middle data mgr} (judged : core.mgr.nackEvent nack tbe = .ok (.nackSpec, middle))
      (validated : middle.validateConsumedData nack.addr nack.sender data nack.timestamp true =
        .ok mgr) : Nacked core nack tbe .validation mgr

/-- A nack is handled in one of the three ways. -/
theorem receiveNack_cases {nack : Nack n} {tbe : Option TBE} {pending : Pending}
    (received : core.receiveNack nack tbe pending = .ok next) :
    Nacked core nack tbe pending next.mgr := by
  simp only [receiveNack, bind_eq_ok] at received
  obtain ⟨⟨event, middle⟩, judged, received⟩ := received
  obtain ⟨handled, -⟩ := update_ok received
  have before := QuietCall.of_nackEvent judged
  cases event with
  | nackSpecIllegalRtry =>
    exact .quiet judged (by simp) (pure_eq_ok.mp handled ▸ before) (by simp)
  | nack =>
    exact .quiet judged (by simp) (before.trans (.of_failedCallback handled)) fun _ => handled
  | nackSpec =>
    simp only [handleNack] at handled
    split at handled
    · next carried => exact .consumed judged carried handled
    · exact .validated judged handled
    · simp at handled

/-- A nack from an L1 cache is handled by a call. -/
theorem receiveNack_call {nack : Nack n} {tbe : Option TBE}
    {pending : Pending} (sender : nack.sender.type = .l1Cache)
    (received : core.receiveNack nack tbe pending = .ok next) : CallFrame core.mgr next.mgr := by
  cases receiveNack_cases received with
  | quiet _ _ quiet => exact quiet.call
  | consumed judged _ consumed =>
    refine (QuietCall.of_nackEvent judged).call.trans
      (.of_consumeForwardedData (fun invalid => ?_) consumed)
    simp [invalid, createInvalidMachineID] at sender
  | validated judged validated =>
    exact (QuietCall.of_nackEvent judged).call.trans
      (RankCall.of_validateConsumedData validated).call

/-- Whether an event concerns the core alone: neither a request of another core nor a nack. -/
def isLocal : CoreEvent n → Bool
  | .remoteLoad .. | .remoteStore .. | .remoteInvalidation .. | .nack .. => false
  | _ => true

/-- A local event is a call that keeps the rank, or a life cycle step. -/
theorem local_cases (sound : core.mgr.Sound) (admitted : core.Admits event)
    (inside : isLocal event = true) (stepped : core.step event = .ok next) :
    RankCall core.mgr next.mgr ∨ LifeCycle core event next.mgr := by
  cases event with
  | command cmd pkt committer issues =>
    exact (notifyXactionEvent_call sound admitted stepped).imp_left (·.toRankCall)
  | request uid access => exact .inl (makeRequest_call stepped).toRankCall
  | readCallback access => exact .inl (AccessCall.of_hitCallback (update_ok stepped).1).toRankCall
  | writeCallback access issues =>
    exact .inl (AccessCall.of_writeCallback (update_ok stepped).1).toRankCall
  | dataExclusive addr sender data timestamp =>
    exact .inl (.of_validateConsumedData (update_ok stepped).1)
  | fireValidation status =>
    exact .inl (fireValidation_call (update_ok stepped).1).1
  | replacement addr source capacity dataStale spec =>
    exact .inl (.of_xactReplacement (update_ok stepped).1)
  | endLogUnroll => exact .inr (.unrolled (update_ok stepped).1)
  | environment surroundings =>
    rw [step, pure_eq_ok] at stepped
    subst stepped
    exact .inl ⟨.of_surroundings admitted, fun _ => rfl, rfl, fun _ => id⟩
  | _ => simp [isLocal] at inside

/-- The answer of a core to a request of another one. -/
theorem respond_call (kind : RequestKind) {req : RemoteRequest}
    {line : LineStatus} (stepped : core.respond (core.mgr.remoteRequest kind req line) = .ok next) :
    AnswerCall core.mgr next.mgr := by
  obtain ⟨⟨_, handled⟩, -⟩ := respond_ok stepped
  exact .of_remoteRequest handled

/-- Every step is an ordinary call or a life cycle step. -/
theorem step_cases (sound : core.mgr.Sound) (admitted : core.Admits event)
    (stepped : core.step event = .ok next) :
    CallFrame core.mgr next.mgr ∨ LifeCycle core event next.mgr := by
  by_cases inside : isLocal event = true
  · exact (local_cases sound admitted inside stepped).imp_left (·.call)
  · cases event with
    | remoteLoad req line => exact .inl (respond_call .load stepped).call
    | remoteStore req line => exact .inl (respond_call .store stepped).call
    | remoteInvalidation req line => exact .inl (respond_call .invalidation stepped).call
    | nack nack tbe pending => exact .inl (receiveNack_call admitted.1 stepped)
    | _ => simp [isLocal] at inside

/-- The end of a transaction, or of the first part of it when the log remains to be unrolled. -/
structure Ended (mgr next : TransactionInterfaceManager params n) : Prop where
  version : next.version = mgr.version
  uid : next.currentHtmUid = mgr.currentHtmUid
  outside : next.inTransaction = false
  level : next.transactionLevel = 0 ∨
    (next.transactionLevel = mgr.transactionLevel ∧ next.forwarding = mgr.forwarding ∧
      next.conflict = mgr.conflict)
  forwarding : next.forwarding = mgr.forwarding ∨
    next.forwarding = resetForwarding mgr.forwarding
  prio : next.hwTransPrio = mgr.hwTransPrio ∨ next.hwTransPrio = ncPrioValue

variable {mgr : TransactionInterfaceManager params n}

/-- An abort ends the transaction. -/
theorem Ended.of_abortTransaction {next : TransactionInterfaceManager params n} {htm after : HTM}
    (sound : mgr.Sound) (done : mgr.abortTransaction htm = .ok (next, after)) :
    Ended mgr { next with stalled := false } := by
  obtain ⟨level, escape, -⟩ := TransactionInterfaceManager.abortTransaction_ok done
  have unrolled := sound.not_unrolling escape
  cases lazy : params.lazyVm with
  | true =>
    obtain ⟨_, _, _, _, _, _, rfl, -, lazyCd, eagerCd⟩ := abortTransaction_lazy lazy done
    refine ⟨rfl, rfl, by simp [inTransaction, unrolled], .inl (by simp [unrolled]), ?_, ?_⟩
    · cases eager : params.eagerCd with
      | true => exact (eagerCd eager).2 ▸ (ite_eq_or_eq _ _ _).symm
      | false => exact .inl (lazyCd eager).2.2.1
    · cases eager : params.eagerCd with
      | true => exact .inr (eagerCd eager).1
      | false => exact .inl (lazyCd eager).2.2.2
  | false =>
    rcases abortTransaction_log lazy done with rfl | rfl
    · exact ⟨rfl, rfl, by simp [inTransaction, unrolled], .inl (by simp [unrolled]), .inl rfl,
        .inl rfl⟩
    · exact ⟨rfl, rfl, by simp [inTransaction], .inr ⟨by simp [level], rfl, rfl⟩, .inl rfl,
        .inl rfl⟩

/-- A transaction begins, the first part of its commit is done, or it ends. -/
theorem LifeCycle.cases (sound : core.mgr.Sound) (cycle : LifeCycle core event mgr) :
    (∃ pkt, core.mgr.beginTransaction pkt = .ok mgr) ∨
    (∃ committer issues after,
      core.mgr.initiateCommitTransaction core.htm committer issues = .ok (mgr, after)) ∨
    Ended core.mgr mgr := by
  cases cycle with
  | start begun => exact .inl ⟨_, begun⟩
  | initiate _ _ done => exact .inr (.inl ⟨_, _, _, done⟩)
  | commit _ _ _ done =>
    obtain ⟨-, -, _, _, _, _, _, _, rfl, -, -, -, reset, -⟩ := commitTransaction_ok done
    exact .inr (.inr ⟨rfl, rfl, rfl, .inl rfl, reset ▸ (ite_eq_or_eq _ _ _).symm, .inr rfl⟩)
  | abort _ done => exact .inr (.inr (.of_abortTransaction sound done))
  | unrolled done =>
    simp only [endLogUnroll, run_eq_ok] at done
    obtain ⟨-, -, -, -, rfl⟩ := done
    exact .inr (.inr ⟨rfl, rfl, rfl, .inl rfl, .inl rfl, .inl rfl⟩)

/-- The life cycle keeps the manager sound. -/
theorem LifeCycle.sound (sound : core.mgr.Sound) (cycle : LifeCycle core event mgr) :
    mgr.Sound := by
  cases cycle with
  | start begun => exact sound.of_beginTransaction begun
  | commit running _ _ done => exact (sound.of_commitTransaction running done).with_stalled false
  | initiate _ _ done => exact sound.of_initiateCommitTransaction done
  | abort _ done => exact (sound.of_abortTransaction done).with_stalled false
  | unrolled done => exact sound.of_endLogUnroll done

/-- The manager of a core is sound in every reachable state. -/
theorem sound_invariant : (system params n).Invariant fun core => core.mgr.Sound where
  initial := by
    rintro core ⟨version, log, setUp, rfl⟩
    exact .init setUp
  preserved := by
    intro core event next sound transition
    obtain ⟨admitted, stepped⟩ := system_step.mp transition
    rcases step_cases sound admitted stepped with call | cycle
    · exact sound.of_call call
    · exact cycle.sound sound

/-- What becomes of a transaction: uids only grow, and one that runs later ran before, with an abort
flag that is not taken back. -/
structure Continues (mgr next : TransactionInterfaceManager params n) : Prop where
  uid : mgr.currentHtmUid ≤ next.currentHtmUid
  within : next.inTransaction = true → next.currentHtmUid = mgr.currentHtmUid →
    mgr.inTransaction = true ∧ (mgr.abort.abortFlag = true → next.abort.abortFlag = true)

private theorem Continues.refl : Continues mgr mgr :=
  ⟨Nat.le_refl _, fun running _ => ⟨running, id⟩⟩

private theorem Continues.trans {middle next : TransactionInterfaceManager params n}
    (first : Continues mgr middle) (second : Continues middle next) : Continues mgr next where
  uid := first.uid.trans second.uid
  within running same := by
    have between : middle.currentHtmUid = mgr.currentHtmUid :=
      Nat.le_antisymm (same ▸ second.uid) first.uid
    obtain ⟨ran, later⟩ := second.within running (same.trans between.symm)
    obtain ⟨began, earlier⟩ := first.within ran between
    exact ⟨began, fun doomed => later (earlier doomed)⟩

private theorem Continues.of_step (sound : core.mgr.Sound)
    (transition : (system params n).Step core event next) : Continues core.mgr next.mgr := by
  obtain ⟨admitted, stepped⟩ := system_step.mp transition
  rcases step_cases sound admitted stepped with call | cycle
  · refine ⟨call.currentHtmUid.ge,
      fun running _ => ⟨call.inTransaction ▸ running, fun doomed => ?_⟩⟩
    rcases call.abort with kept | ⟨-, -, flagged⟩
    · exact kept ▸ doomed
    · exact flagged
  · rcases cycle.cases sound with ⟨pkt, begun⟩ | ⟨_, _, _, initiated⟩ | ended
    · obtain ⟨-, -, -, -, fresh, -, _, _, shape, -⟩ := beginTransaction_ok begun
      rw [shape]
      exact ⟨fresh.le, fun _ same => absurd same fresh.ne'⟩
    · obtain ⟨_, _, shape, -⟩ := initiateCommitTransaction_ok initiated
      rw [shape]
      exact ⟨Nat.le_refl _, fun running _ => ⟨running, id⟩⟩
    · exact ⟨ended.uid.ge, fun running => by simp [ended.outside] at running⟩

/-- The same over a run. -/
theorem Continues.of_steps {events : List (CoreEvent n)} (sound : core.mgr.Sound)
    (steps : (system params n).Steps core events next) : Continues core.mgr next.mgr := by
  induction steps with
  | refl => exact .refl
  | step before transition ih =>
    exact ih.trans (.of_step (before.preserves sound_invariant.preserved sound) transition)

/-- The core stays or takes an event. -/
def Moves (core next : Core params n) : Prop :=
  next = core ∨ ∃ event, (system params n).Step core event next

/-- A request of another core is an event the core admits. -/
theorem Moves.of_remoteRequest {kind : RequestKind} {req : RemoteRequest} {line : LineStatus}
    {response : Option (Nack n)} (other : req.remoteId.num ≠ core.mgr.version)
    (answered : core.mgr.remoteRequest kind req line = .ok (response, mgr)) :
    core.Moves { core with mgr := mgr } := by
  have responded : core.respond (.ok (response, mgr)) = .ok { core with mgr := mgr } := rfl
  rw [← answered] at responded
  simp only [Moves, system_step]
  cases kind with
  | load => exact .inr ⟨.remoteLoad req line, fun _ => other, responded⟩
  | store => exact .inr ⟨.remoteStore req line, fun _ => other, responded⟩
  | invalidation => exact .inr ⟨.remoteInvalidation req line, fun _ => other, responded⟩

/-- The machines of two and of four cores have a first core; named, so that all modules mean the
same instance. -/
instance neZero_two : @NeZero Nat Zero.ofOfNat0 2 := inferInstance

instance neZero_four : @NeZero Nat Zero.ofOfNat0 4 := inferInstance

/-- An undo log of one page, for runs on concrete inputs. -/
def pageLog : Std.ExtTreeMap Addr Addr := (∅ : Std.ExtTreeMap Addr Addr).insert 0 0

/-- A transaction that has overwritten the block at `addr`. -/
def writerEvents (addr : Addr) (power : Bool) : List (CoreEvent 64) :=
  [.environment ⟨⟨[]⟩, (∅ : CacheMemory 64).insert addr ⟨.readWrite, fun _ => 0, true⟩, 5, false,
    ∅⟩,
   .command .start ⟨1, 1, power⟩ (.ok false) fun _ => false,
   .writeCallback ⟨addr, 8, true, fun _ => 7⟩ fun _ => false]

/-- Running the events from the start reaches a state with the property. -/
theorem exists_reachable (events : List (CoreEvent n)) (version : Nat) {P : Core params n → Prop}
    (evaluated : ∃ core, events.foldlM take (start params n version pageLog) = .ok core ∧ P core) :
    ∃ core, (system params n).Reachable core ∧ P core :=
  TransitionSystem.exists_reachable events ⟨version, pageLog, by decide, rfl⟩ evaluated

/-- The same for two cores. -/
theorem exists_reachable_pair (first second : List (CoreEvent n)) (one two : Nat)
    {P : Core params n → Core params n → Prop}
    (evaluated : ∃ left, first.foldlM take (start params n one pageLog) = .ok left ∧
      ∃ right, second.foldlM take (start params n two pageLog) = .ok right ∧ P left right) :
    ∃ left, (system params n).Reachable left ∧
      ∃ right, (system params n).Reachable right ∧ P left right := by
  obtain ⟨left, reached, rest⟩ := exists_reachable first one evaluated
  exact ⟨left, reached, exists_reachable second two rest⟩

end Core

end Gem5.Ruby
