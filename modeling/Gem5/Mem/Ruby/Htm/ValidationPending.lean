import Gem5.Mem.Ruby.Htm.CoreSystem
import Gem5.Mem.Ruby.Htm.ValidationRound

/-!
# No validation is lost

A core together with the request table of its sequencer.  The validation of a consumed
block is first an event that the manager has scheduled, then a request in the table, and
when the request is answered the event of the next block.  In between the program's own
requests enter and leave the table, are coalesced with validations or refused, and
locked accesses block lines.  `SequencedCore.pending` lists the validations of the
running transaction in both places: a live consumer has exactly one, as long as the event
does not fire on a blocked line and data with permissions comes for the last block held.
-/

namespace Gem5.Ruby

open Foundation TransactionInterfaceManager

/-- A core with the request table of its sequencer. -/
structure SequencedCore (params : HTMParams) (n : Nat) where
  core : Core params n
  sequencer : Sequencer

/-- The callbacks with which requests leave the table: a load or a store is done, the log entry of
a store is written, or a nacked request is given up. -/
inductive Callback where
  | read
  | write
  | logged
  | failed
  deriving DecidableEq, Repr

/-- The events of a core and its request table.  A request that completes leaves the table in a
step of its own.  `writeBufferBusy` tells whether a store is on its way to the write buffer,
`bytes` are those of the validation packet, which nobody reads. -/
inductive SequencedEvent (n : Nat) where
  | core (event : CoreEvent n)
  | request (pkt : SequencerRequest) (access : Access) (writeBufferBusy : Bool)
  | callback (callback : Callback) (line : Addr)
  | fireValidation (bytes : Nat → UInt8) (writeBufferBusy : Bool)
  | validationNack (nack : Nack n) (tbe : Option TBE)
  | validationData (addr : Addr) (sender : MachineID) (data : DataBlock n) (timestamp : Cycles)
  | invalidValidation (line : Addr)
  | reserve (mshrs : Nat)

/-- The block whose validation is answered. -/
def SequencedEvent.answers {n : Nat} : SequencedEvent n → Option Addr
  | .validationNack nack _ => some nack.addr
  | .validationData addr .. => some addr
  | _ => none

namespace CoreEvent

variable {n : Nat}

/-- The events of a core in which the request table takes part. -/
def usesTable : CoreEvent n → Bool
  | .request .. | .nack _ _ .validation | .dataExclusive .. | .fireValidation .. => true
  | _ => false

/-- An abort command. -/
def isAbort : CoreEvent n → Bool
  | .command (.abort _) .. => true
  | _ => false

end CoreEvent

/-- The CPU aborts the transaction that runs. -/
def Core.abortsOwn {params : HTMParams} {n : Nat} (core : Core params n) : CoreEvent n → Bool
  | .command (.abort _) pkt _ _ => pkt.uid = core.mgr.currentHtmUid
  | _ => true

namespace SequencedCore

variable {params : HTMParams} {n : Nat}

/-- The manager finds its packets in the request table. -/
def sync (core : Core params n) (sequencer : Sequencer) : SequencedCore params n where
  core := { core with mgr := { core.mgr with requestTable := sequencer.packetUids } }
  sequencer := sequencer

variable (state : SequencedCore params n)

/-- `TransactionalSequencer::makeRequest`: a packet of a transaction that aborts is dropped and one
that goes to the write buffer needs no request, both are reported as issued. -/
def makeRequest (pkt : SequencerRequest) (access : Access) (writeBufferBusy : Bool) :
    Checked (RequestStatus × SequencedCore params n) :=
  match pkt.uid with
  | none =>
    let (status, sequencer) := state.sequencer.makeRequest pkt
    return (status, sync state.core sequencer)
  | some uid =>
    if state.core.mgr.isAborting || uid = state.core.lastAbortHtmUid then do
      let core ← state.core.makeRequest uid access
      return (.issued, sync core state.sequencer)
    else if params.lazyVm && !params.eagerCd && access.write && !state.core.mgr.atCommit then
      if writeBufferBusy then return (.bufferFull, state)
      else do
        let core ← state.core.makeRequest uid access
        return (.issued, sync core state.sequencer)
    else match state.sequencer.makeRequest pkt with
      | (.issued, sequencer) => do
        let core ← state.core.makeRequest uid access
        return (.issued, sync core sequencer)
      | (status, sequencer) => return (status, sync state.core sequencer)

/-- Requests for a line leave the table. -/
def complete (callback : Callback) (line : Addr) : Checked Sequencer :=
  match callback with
  | .read => state.sequencer.readCallback line
  | .write => state.sequencer.specWriteCallback line
      (params.allowEarlyValueFwd && state.core.mgr.isBlockConsumed line)
  | .logged => state.sequencer.writeCallback line false
  | .failed => state.sequencer.writeCallback line true

/-- The validation event fires: `TransactionalSequencer::validateConsumedData`. -/
def fireValidation (bytes : Nat → UInt8) (writeBufferBusy : Bool) :
    Checked (SequencedCore params n) :=
  match state.core.mgr.forwarding.validationEvent with
  | none => return state
  | some addr =>
    if state.core.mgr.isAborting then do
      let core ← state.core.step (.fireValidation .issued)
      return sync core state.sequencer
    else do
      let (status, requested) ← state.makeRequest
        { line := addr, type := .st, uid := some state.core.mgr.currentHtmUid, validation := true }
        ⟨addr, n, true, bytes⟩ writeBufferBusy
      let core ← requested.core.step (.fireValidation status)
      return sync core requested.sequencer

/-- A validation is nacked: it is issued again after an illegal nack, given up after a nack without
data, and completed after a nack with data. -/
def validationNack (nack : Nack n) (tbe : Option TBE) : Checked (SequencedCore params n) := do
  let (event, mgr) ← state.core.mgr.nackEvent nack tbe
  let core ← state.core.update (mgr.handleNack state.core.lastAbortHtmUid nack .validation event)
  let next : SequencedCore params n := ⟨core, state.sequencer⟩
  match event with
  | .nackSpecIllegalRtry => return sync core state.sequencer
  | .nack =>
    if (state.sequencer.front nack.addr).any (·.suppressed) || core.mgr.isAborting then do
      let sequencer ← next.complete .failed nack.addr
      return sync core sequencer
    else return sync core state.sequencer
  | .nackSpec => do
    let sequencer ← next.complete .write nack.addr
    return sync core sequencer

/-- The effect of an event. -/
def step : SequencedEvent n → Checked (SequencedCore params n)
  | .core event => do
    let core ← state.core.step event
    return sync core
      (if event.isAbort then state.sequencer.abortTransaction else state.sequencer)
  | .request pkt access writeBufferBusy => do
    let (_, requested) ← state.makeRequest pkt access writeBufferBusy
    return requested
  | .callback callback line => do
    let sequencer ← state.complete callback line
    return sync state.core sequencer
  | .fireValidation bytes writeBufferBusy => state.fireValidation bytes writeBufferBusy
  | .validationNack nack tbe => state.validationNack nack tbe
  | .validationData addr sender data timestamp => do
    let core ← state.core.step (.dataExclusive addr sender data timestamp)
    let next : SequencedCore params n := ⟨core, state.sequencer⟩
    let sequencer ← next.complete .write addr
    return sync core sequencer
  | .invalidValidation line => do
    assertThat (params.allowEarlyValueFwd = true ∧ (state.core.mgr.inTransaction = false ∨
        (state.core.mgr.isBlockConsumed line = true ∧ state.core.mgr.isAborting = true)))
      "config_allowEarlyValueFwd() && (!inTransaction() || (isBlockConsumed() && isAborting()))"
    let sequencer ← state.complete .failed line
    return sync state.core sequencer
  | .reserve mshrs => return sync state.core { state.sequencer with reservedMshrs := mshrs }

/-- The line is validated: the request at its front is a validation, and the block is in the cache,
which a live transaction cannot lose since the replacement of a consumed block aborts it. -/
def Validates (line : Addr) : Prop :=
  makeLineAddress n line = line ∧ (state.sequencer.front line).any (·.validation) = true ∧
    (state.core.mgr.Live → state.core.mgr.dataCache.contains line = true)

instance (line : Addr) : Decidable (state.Validates line) :=
  inferInstanceAs (Decidable (_ ∧ _ ∧ _))

/-- Validations enter the table when the event fires and leave it when they are answered; anything
else is for the requests of the program. -/
def Admits : SequencedEvent n → Prop
  | .core event =>
    event.usesTable = false ∧ state.core.Admits event ∧ state.core.abortsOwn event = true
  | .request pkt _ _ => pkt.validation = false
  | .callback _ line => (state.sequencer.front line).any (·.validation) = false
  | .fireValidation .. => True
  | .validationNack nack tbe =>
    state.core.Admits (.nack nack tbe .validation) ∧ state.Validates nack.addr
  | .validationData addr .. => state.Validates addr
  | .invalidValidation line => (state.sequencer.front line).any (·.validation) = true
  | .reserve _ => True

instance : (event : SequencedEvent n) → Decidable (state.Admits event)
  | .core _ | .validationNack .. => inferInstanceAs (Decidable (_ ∧ _))
  | .request .. | .callback .. | .invalidValidation _ => inferInstanceAs (Decidable (_ = _))
  | .fireValidation .. | .reserve _ => inferInstanceAs (Decidable True)
  | .validationData addr .. => inferInstanceAs (Decidable (state.Validates addr))

/-- One admitted event. -/
def take (event : SequencedEvent n) : Checked (SequencedCore params n) := do
  assertThat (state.Admits event) "admitted"
  state.step event

/-- The runs of a core with its request table. -/
def system (params : HTMParams) (n : Nat) :
    TransitionSystem (SequencedCore params n) (SequencedEvent n) :=
  .ofExcept (fun state => ∃ version log maxOutstandingRequests, log.isEmpty = false ∧
    state = sync (.start params n version log) (.init maxOutstandingRequests)) take

/-- The validations of the running transaction, scheduled or requested. -/
def pending : List Addr :=
  state.core.mgr.forwarding.validationEvent.toList ++
    state.sequencer.validations state.core.mgr.currentHtmUid

/-- The validation event of a live transaction does not fire while a locked access blocks its
line, and data with permissions comes when no other block is held: with another one the source
would step on from the block it has erased. -/
def Orderly : SequencedEvent n → Prop
  | .fireValidation .. => state.core.mgr.Live → ∀ addr ∈ state.core.mgr.forwarding.validationEvent,
      state.sequencer.blocked.contains addr = false
  | .validationData addr .. => state.core.mgr.Live →
      ∀ other ∈ state.core.mgr.forwarding.recvDataForwardedFromProducer.keys, other = addr
  | _ => True

instance : (event : SequencedEvent n) → Decidable (state.Orderly event)
  | .fireValidation .. => inferInstanceAs (Decidable (_ → ∀ addr ∈ _, _ = _))
  | .validationData .. => inferInstanceAs (Decidable (_ → ∀ other ∈ _, _ = _))
  | .core _ | .request .. | .callback .. | .validationNack .. | .invalidValidation _
  | .reserve _ => inferInstanceAs (Decidable True)

end SequencedCore

namespace Core

variable {params : HTMParams} {n : Nat} {core next : Core params n} {event : CoreEvent n}

private theorem makeRequest_lastAbort {uid : Nat} {access : Access}
    (made : core.makeRequest uid access = .ok next) :
    next.lastAbortHtmUid = core.lastAbortHtmUid := by
  unfold makeRequest at made
  repeat' split at made
  · simp at made
  · exact pure_eq_ok.mp made ▸ rfl
  all_goals
    simp only [run_eq_ok] at made
    obtain ⟨_, -, rfl⟩ := made
    rfl

/-- Only an abort command changes the transaction aborted last. -/
theorem step_lastAbort (notAbort : event.isAbort = false) (outside : event.usesTable = false)
    (stepped : core.step event = .ok next) : next.lastAbortHtmUid = core.lastAbortHtmUid := by
  cases event with
  | command cmd pkt committer issues =>
    simp only [step, notifyXactionEvent, commit] at stepped
    repeat' split at stepped
    all_goals try simp [CoreEvent.isAbort] at notAbort
    all_goals
      simp only [run_eq_ok] at stepped
      grind
  | request => simp [CoreEvent.usesTable] at outside
  | remoteLoad => exact (respond_ok stepped).2 ▸ rfl
  | remoteStore => exact (respond_ok stepped).2 ▸ rfl
  | remoteInvalidation => exact (respond_ok stepped).2 ▸ rfl
  | nack nack tbe pending =>
    simp only [step, receiveNack, bind_eq_ok] at stepped
    obtain ⟨_, -, received⟩ := stepped
    exact (update_ok received).2 ▸ rfl
  | environment => exact pure_eq_ok.mp stepped ▸ rfl
  | _ => exact (update_ok stepped).2 ▸ rfl

/-- An event without the request table keeps the round, stops it, receives a block, or is a life
cycle step. -/
theorem step_round (sound : core.mgr.Sound) (admitted : core.Admits event)
    (outside : event.usesTable = false) (stepped : core.step event = .ok next) :
    (CallFrame core.mgr next.mgr ∧ RoundStep core.mgr next.mgr) ∨
      LifeCycle core event next.mgr := by
  cases event with
  | command cmd pkt committer issues =>
    rcases notifyXactionEvent_call sound admitted stepped with quiet | cycle
    · exact .inl ⟨quiet.call, .kept (.of_sameReceiver quiet.same)⟩
    · exact .inr cycle
  | readCallback access =>
    have hit := AccessCall.of_hitCallback (update_ok stepped).1
    exact .inl ⟨hit.call, .kept hit.round⟩
  | writeCallback access issues =>
    have called := AccessCall.of_writeCallback (update_ok stepped).1
    exact .inl ⟨called.call, .kept called.round⟩
  | remoteLoad req line =>
    have answered := respond_call .load stepped
    exact .inl ⟨answered.call, .kept (.of_sameReceiver answered.same)⟩
  | remoteStore req line =>
    have answered := respond_call .store stepped
    exact .inl ⟨answered.call, .kept (.of_sameReceiver answered.same)⟩
  | remoteInvalidation req line =>
    have answered := respond_call .invalidation stepped
    exact .inl ⟨answered.call, .kept (.of_sameReceiver answered.same)⟩
  | nack nack tbe pending =>
    cases pending with
    | miss access issues =>
      refine .inl ⟨receiveNack_call admitted.1 stepped, ?_⟩
      cases receiveNack_cases stepped with
      | quiet _ _ call => exact .kept (.of_sameReceiver call.same)
      | consumed judged _ consumed =>
        obtain ⟨_, rfl⟩ := nackEvent_shape judged
        exact .received { consumeForwardedData_round consumed with }
    | validation => simp [CoreEvent.usesTable] at outside
  | replacement addr source capacity dataStale spec =>
    have replaced := (update_ok stepped).1
    exact .inl ⟨(RankCall.of_xactReplacement replaced).call,
      .of_xactReplacement sound.not_isUnrollingLog replaced⟩
  | endLogUnroll => exact .inr (.unrolled (update_ok stepped).1)
  | environment surroundings =>
    rw [step, pure_eq_ok] at stepped
    subst stepped
    exact .inl ⟨.of_surroundings admitted, .kept (.of_forwarding rfl)⟩
  | request | dataExclusive | fireValidation => simp [CoreEvent.usesTable] at outside

end Core

namespace SequencedCore

variable {params : HTMParams} {n : Nat} {state next : SequencedCore params n}

/-- The validations of a live transaction. -/
structure Validating (state : SequencedCore params n) : Prop where
  own : ∀ request ∈ state.sequencer.requestTable, request.validation = true →
    request.line ∈ state.core.mgr.buffer → request.uid = some state.core.mgr.currentHtmUid
  consumer : state.core.mgr.isConsumer = true →
    ∃ addr ∈ state.core.mgr.buffer, state.pending = [addr]
  idle : state.core.mgr.isConsumer = false → state.pending = []

/-- The validations in the table belong to transactions that have begun, and the transaction that
runs is not the one aborted last. -/
structure Inv (state : SequencedCore params n) : Prop where
  sound : state.core.mgr.Sound
  synced : state.core.mgr.requestTable = state.sequencer.packetUids
  known : state.core.mgr.KnownEvent
  aborted : state.core.lastAbortHtmUid ≤ state.core.mgr.currentHtmUid
  running : state.core.mgr.inTransaction = true →
    state.core.lastAbortHtmUid ≠ state.core.mgr.currentHtmUid
  issued : ∀ request ∈ state.sequencer.requestTable, request.validation = true →
    ∃ uid, request.uid = some uid ∧ uid ≤ state.core.mgr.currentHtmUid
  live : state.core.mgr.Live → state.Validating

section Calls

variable {core : Core params n} {sequencer : Sequencer}

section

variable (inv : state.Inv) (lastAbort : core.lastAbortHtmUid = state.core.lastAbortHtmUid)
  (known : core.mgr.KnownEvent)
  (issued : ∀ request ∈ sequencer.requestTable, request.validation = true →
    ∃ uid, request.uid = some uid ∧ uid ≤ state.core.mgr.currentHtmUid)
  (live : core.mgr.Live → (sync core sequencer).Validating)

include inv lastAbort known issued live

/-- What stays in a transaction keeps the invariant if it keeps the validations of a live one. -/
theorem Inv.of_inside (sound : core.mgr.Sound)
    (uid : core.mgr.currentHtmUid = state.core.mgr.currentHtmUid)
    (inside : core.mgr.inTransaction = state.core.mgr.inTransaction) :
    (sync core sequencer).Inv := by
  refine ⟨{ sound with }, rfl, known, ?_, fun running => ?_, ?_, live⟩
  · exact (lastAbort.trans_le inv.aborted).trans uid.ge
  · have apart := inv.running (inside ▸ running)
    rw [← lastAbort, ← uid] at apart
    exact apart
  · intro request listed validation
    have bound := issued request listed validation
    rw [← uid] at bound
    exact bound

private theorem Inv.of_call (frame : CallFrame state.core.mgr core.mgr) :
    (sync core sequencer).Inv :=
  inv.of_inside lastAbort known issued live (inv.sound.of_call frame) frame.currentHtmUid
    frame.inTransaction

end

variable (keeps : state.sequencer.Keeps sequencer state.core.mgr.currentHtmUid)

include keeps

/-- What leaves the round and the validations alone. -/
theorem Validating.of_kept (validating : state.Validating)
    (uid : core.mgr.currentHtmUid = state.core.mgr.currentHtmUid)
    (kept : RoundKept state.core.mgr core.mgr) : (sync core sequencer).Validating := by
  have pending : (sync core sequencer).pending = state.pending := by
    simp only [SequencedCore.pending, sync, kept.event, uid, keeps.validations]
  refine ⟨?_, fun consumer => ?_, fun nothing => ?_⟩
  · intro request listed validation held
    obtain ⟨before, present, validates, line, same⟩ := keeps.listed request listed validation
    have heldBefore : before.line ∈ state.core.mgr.buffer := line ▸ (kept.blocks _).mp held
    exact same ▸ uid ▸ validating.own before present validates heldBefore
  · obtain ⟨addr, held, only⟩ := validating.consumer (kept.isConsumer ▸ consumer)
    exact ⟨addr, (kept.blocks addr).mpr held, pending.trans only⟩
  · exact pending.trans (validating.idle (kept.isConsumer ▸ nothing))

variable (inv : state.Inv)

include inv

private theorem Inv.issued_of_keeps :
    ∀ request ∈ sequencer.requestTable, request.validation = true →
      ∃ uid, request.uid = some uid ∧ uid ≤ state.core.mgr.currentHtmUid := by
  intro request listed validation
  obtain ⟨before, present, validates, -, uid⟩ := keeps.listed request listed validation
  exact uid ▸ inv.issued before present validates

/-- A reception: the request that missed is one of the transaction, and so are all requests for
the line. -/
theorem Validating.of_reception {addr : Addr} (validating : state.Validating)
    (live : core.mgr.Live) (uid : core.mgr.currentHtmUid = state.core.mgr.currentHtmUid)
    (reception : Reception state.core.mgr core.mgr addr) : (sync core sequencer).Validating := by
  have new := (reception.blocks addr).mpr (.inl rfl)
  refine ⟨?_, fun _ => ?_, fun nothing => ?_⟩
  · intro request listed validation held
    obtain ⟨before, present, validates, line, same⟩ := keeps.listed request listed validation
    change request.uid = some core.mgr.currentHtmUid
    rw [← same, uid]
    rcases (reception.blocks _).mp held with new | old
    · obtain ⟨first, packet, current⟩ := reception.requested
      rw [packetUid, inv.synced] at packet
      split at packet
      · next found =>
        obtain rfl := pure_eq_ok.mp packet
        have own := state.sequencer.uid_of_packetUids found before present (line.trans new)
        obtain ⟨issued, packetUid, begun⟩ := inv.issued before present validates
        obtain rfl := Option.some.inj (own.symm.trans packetUid)
        rw [own, Nat.le_antisymm begun current]
      · simp at packet
    · exact validating.own before present validates (line ▸ old)
  · have validations : (sync core sequencer).pending = core.mgr.forwarding.validationEvent.toList ++
          state.sequencer.validations state.core.mgr.currentHtmUid := by
      simp only [SequencedCore.pending, sync, uid, keeps.validations]
    rcases reception.event with ⟨same, waits⟩ | ⟨nothing, scheduled⟩
    · obtain ⟨other, held, only⟩ := validating.consumer (waits live)
      exact ⟨other, (reception.blocks other).mpr (.inr held), by rw [validations, same]; exact only⟩
    · -- The first block of the transaction: nothing was pending.
      have idle := List.append_eq_nil_iff.mp (validating.idle nothing)
      exact ⟨addr, new, by simp [validations, scheduled, idle.2]⟩
  · exact absurd ((isConsumer_of_mem new).symm.trans nothing) (by simp)

private theorem Inv.of_round (frame : CallFrame state.core.mgr core.mgr)
    (lastAbort : core.lastAbortHtmUid = state.core.lastAbortHtmUid)
    (round : RoundStep state.core.mgr core.mgr) : (sync core sequencer).Inv := by
  refine inv.of_call lastAbort (inv.known.of_step round) (inv.issued_of_keeps keeps)
    (fun live => ?_) frame
  have validating := inv.live (live.of_call frame)
  cases round with
  | kept kept => exact validating.of_kept keeps frame.currentHtmUid kept
  | stopped _ dead => exact absurd live dead
  | received reception =>
    exact validating.of_reception keeps inv live frame.currentHtmUid reception

/-- A step of the table alone. -/
theorem Inv.of_table : (sync state.core sequencer).Inv :=
  inv.of_round keeps (.refl _) rfl (.kept (.refl _))

/-- A transaction begins without validations. -/
theorem Inv.of_begun {pkt : HtmPacket} (forwarding : params.allowEarlyValueFwd = true)
    (begun : state.core.mgr.beginTransaction pkt = .ok core.mgr)
    (lastAbort : core.lastAbortHtmUid = state.core.lastAbortHtmUid) :
    (sync core sequencer).Inv := by
  obtain ⟨nothing, unreceived⟩ := beginTransaction_clear forwarding begun
  have sound := inv.sound.of_beginTransaction begun
  obtain ⟨-, -, -, -, fresh, -, _, _, shape, -⟩ := beginTransaction_ok begun
  have uid : core.mgr.currentHtmUid = pkt.uid := by rw [shape]
  have event : core.mgr.forwarding.validationEvent = none := by
    by_contra scheduled
    obtain ⟨addr, found⟩ := Option.ne_none_iff_exists'.mp scheduled
    have known : core.mgr.forwarding.allReceivedData.contains addr = true := by
      rw [shape] at found ⊢
      exact inv.known addr found
    rw [Std.ExtTreeSet.isEmpty_iff.mp unreceived] at known
    simp at known
  have issued := inv.issued_of_keeps keeps
  have later : state.core.mgr.currentHtmUid < core.mgr.currentHtmUid := uid ▸ fresh
  refine ⟨{ sound with }, rfl, by simp [KnownEvent, sync, event], ?_,
    fun _ => ?_, ?_, fun _ => ⟨?_, fun consumer => ?_, fun _ => ?_⟩⟩
  · exact ((lastAbort.trans_le inv.aborted).trans later.le)
  · exact ((lastAbort.trans_le inv.aborted).trans_lt later).ne
  · intro request listed validation
    obtain ⟨old, packet, bound⟩ := issued request listed validation
    exact ⟨old, packet, bound.trans later.le⟩
  · intro request _ _ held
    exact absurd ((isConsumer_of_mem held).symm.trans nothing) (by simp)
  · exact absurd (consumer.symm.trans nothing) (by simp)
  · have validations : sequencer.validations core.mgr.currentHtmUid = [] := by
      rw [Sequencer.validations, List.map_eq_nil_iff, List.filter_eq_nil_iff]
      intro request listed validates
      simp only [SequencerRequest.validates, Bool.and_eq_true, decide_eq_true_eq] at validates
      obtain ⟨old, packet, bound⟩ := issued request listed validates.1
      obtain rfl := Option.some.inj (packet.symm.trans validates.2)
      exact absurd later (Nat.not_lt.mpr bound)
    simp [SequencedCore.pending, sync, event, validations]

/-- The first part of a commit keeps the round. -/
theorem Inv.of_initiated {committer : Checked Bool} {issues : Addr → Bool} {after : HTM}
    (initiated : state.core.mgr.initiateCommitTransaction state.core.htm committer issues =
      .ok (core.mgr, after))
    (lastAbort : core.lastAbortHtmUid = state.core.lastAbortHtmUid) :
    (sync core sequencer).Inv := by
  have sound := inv.sound.of_initiateCommitTransaction initiated
  obtain ⟨_, _, shape, -⟩ := initiateCommitTransaction_ok initiated
  have uid : core.mgr.currentHtmUid = state.core.mgr.currentHtmUid := by rw [shape]
  have kept : RoundKept state.core.mgr core.mgr := .of_forwarding (by rw [shape])
  have inside : core.mgr.inTransaction = state.core.mgr.inTransaction := by
    rw [shape]
    rfl
  have aborting : core.mgr.isAborting = state.core.mgr.isAborting := by
    rw [shape]
    rfl
  refine inv.of_inside lastAbort (inv.known.of_kept kept.toEventKept) (inv.issued_of_keeps keeps)
    (fun live => ?_) sound uid inside
  exact (inv.live ⟨inside ▸ live.1, aborting ▸ live.2⟩).of_kept keeps uid kept

/-- The end of a transaction. -/
theorem Inv.of_ended (sound : core.mgr.Sound) (ended : Core.Ended state.core.mgr core.mgr)
    (lastAbort : core.lastAbortHtmUid ≤ state.core.mgr.currentHtmUid) :
    (sync core sequencer).Inv := by
  have outside : core.mgr.inTransaction ≠ true := by simp [ended.outside]
  refine ⟨{ sound with }, rfl, ?_, lastAbort.trans ended.uid.ge,
    fun running => absurd running outside, ?_, fun live => absurd live.1 outside⟩
  · rcases ended.forwarding with same | reset
    · have known : core.mgr.KnownEvent := inv.known.of_kept ⟨by rw [same], by rw [same]⟩
      exact known
    · intro addr scheduled
      change core.mgr.forwarding.validationEvent = some addr at scheduled
      simp [reset, resetForwarding, ValueForwarding.init] at scheduled
  · intro request listed validation
    have bound := inv.issued_of_keeps keeps request listed validation
    rw [← ended.uid] at bound
    exact bound

/-- An event without the request table. -/
theorem Inv.of_core {event : CoreEvent n} (forwarding : params.allowEarlyValueFwd = true)
    (admitted : state.Admits (.core event))
    (stepped : state.core.step event = .ok core) : (sync core sequencer).Inv := by
  obtain ⟨outside, admits, own⟩ := admitted
  cases aborts : event.isAbort with
  | true =>
    unfold CoreEvent.isAbort at aborts
    split at aborts
    · next pkt _ _ =>
      have obeyed : state.core.abortTransaction pkt = .ok core := by
        rw [Core.step, Core.notifyXactionEvent] at stepped
        split at stepped
        · exact stepped
        · split at stepped
          · exact stepped
          · simp at stepped
      obtain ⟨mgr, after, done, rfl⟩ := Core.abortTransaction_ok obeyed
      have sound := (inv.sound.of_abortTransaction done).with_stalled false
      refine inv.of_ended keeps sound (.of_abortTransaction inv.sound done) ?_
      simp only [Core.abortsOwn, decide_eq_true_eq] at own
      exact own.le
    · simp at aborts
  | false =>
    have lastAbort := Core.step_lastAbort aborts outside stepped
    rcases Core.step_round inv.sound admits outside stepped with ⟨frame, round⟩ | cycle
    · exact inv.of_round keeps frame lastAbort round
    · rcases cycle.cases inv.sound with ⟨_, begun⟩ | ⟨_, _, _, done⟩ | ended
      · exact inv.of_begun keeps forwarding begun lastAbort
      · exact inv.of_initiated keeps done lastAbort
      · exact inv.of_ended keeps (cycle.sound inv.sound) ended (lastAbort.trans_le inv.aborted)

end Calls

section Requests

variable {pkt : SequencerRequest} {access : Access} {busy : Bool} {status : RequestStatus}

/-- What a request can do: it is dropped, it enters the table, or it is refused. -/
inductive Requested (state : SequencedCore params n) (pkt : SequencerRequest) :
    RequestStatus → Core params n → Sequencer → Prop where
  | dropped {uid core} (packet : pkt.uid = some uid)
      (ended : state.core.mgr.isAborting = true ∨ uid = state.core.lastAbortHtmUid) :
      Requested state pkt .issued core state.sequencer
  | entered {core sequencer}
      (appended : sequencer.requestTable = state.sequencer.requestTable ++ [pkt]) :
      Requested state pkt .issued core sequencer
  | refused {status core} (other : status ≠ .issued)
      (blocked : status = .aliased → state.sequencer.blocked.contains pkt.line = true) :
      Requested state pkt status core state.sequencer

/-- With eager conflict detection no request goes to the write buffer. -/
theorem makeRequest_cases (eager : params.eagerCd = true)
    (made : state.makeRequest pkt access busy = .ok (status, next)) :
    ∃ core sequencer, next = sync core sequencer ∧ CallFrame state.core.mgr core.mgr ∧
      SameReceiver state.core.mgr core.mgr ∧
      core.lastAbortHtmUid = state.core.lastAbortHtmUid ∧
      Requested state pkt status core sequencer := by
  unfold makeRequest at made
  split at made
  · cases inserted : state.sequencer.makeRequest pkt with
    | mk answer sequencer =>
      rw [inserted] at made
      obtain ⟨rfl, rfl⟩ := Prod.mk.inj (pure_eq_ok.mp made)
      refine ⟨_, _, rfl, .refl _, .refl _, rfl, ?_⟩
      rcases Sequencer.makeRequest_cases inserted with ⟨rfl, appended⟩ | ⟨other, rfl, blocked⟩
      · exact .entered appended
      · exact .refused other blocked
  · next uid packet =>
    split at made
    · next ended =>
      simp only [run_eq_ok, Prod.mk.injEq] at made
      obtain ⟨core, made, rfl, rfl⟩ := made
      exact ⟨core, _, rfl, (Core.makeRequest_call made).call, (Core.makeRequest_call made).same,
        Core.makeRequest_lastAbort made, .dropped packet (by simpa using ended)⟩
    · simp only [eager, Bool.not_true, Bool.and_false, Bool.false_and, Bool.false_eq_true,
        ↓reduceIte] at made
      split at made
      · next inserted =>
        simp only [run_eq_ok, Prod.mk.injEq] at made
        obtain ⟨core, made, rfl, rfl⟩ := made
        refine ⟨core, _, rfl, (Core.makeRequest_call made).call, (Core.makeRequest_call made).same,
          Core.makeRequest_lastAbort made, ?_⟩
        rcases Sequencer.makeRequest_cases inserted with ⟨-, appended⟩ | ⟨other, -⟩
        · exact .entered appended
        · exact absurd rfl other
      · next accepted inserted =>
        obtain ⟨rfl, rfl⟩ := Prod.mk.inj (pure_eq_ok.mp made)
        refine ⟨_, _, rfl, .refl _, .refl _, rfl, ?_⟩
        rcases Sequencer.makeRequest_cases inserted with ⟨issued, -⟩ | ⟨other, rfl, blocked⟩
        · exact absurd issued accepted
        · exact .refused other blocked

/-- The validation of a scheduled block of a live transaction: it enters the table or is scheduled
again. -/
theorem Validating.of_fired {addr : Addr} {core : Core params n} {sequencer : Sequencer}
    (validating : state.Validating)
    (scheduled : state.core.mgr.forwarding.validationEvent = some addr)
    (uid : core.mgr.currentHtmUid = state.core.mgr.currentHtmUid)
    (buffer : core.mgr.buffer = state.core.mgr.buffer)
    (moved : (core.mgr.forwarding.validationEvent = some addr ∧ sequencer = state.sequencer) ∨
      (core.mgr.forwarding.validationEvent = none ∧ ∃ pkt : SequencerRequest,
        pkt.line = addr ∧ pkt.uid = some state.core.mgr.currentHtmUid ∧ pkt.validation = true ∧
        sequencer.requestTable = state.sequencer.requestTable ++ [pkt])) :
    (sync core sequencer).Validating := by
  have consumer : core.mgr.isConsumer = state.core.mgr.isConsumer := by
    simp only [isConsumer, buffer]
  have busy : state.pending = addr :: state.sequencer.validations state.core.mgr.currentHtmUid := by
    simp [SequencedCore.pending, scheduled]
  have pending : (sync core sequencer).pending = state.pending := by
    rcases moved with ⟨again, rfl⟩ | ⟨ended, pkt, rfl, packet, validation, appended⟩
    · simp [SequencedCore.pending, sync, again, scheduled, uid]
    · cases held : state.core.mgr.isConsumer with
      | false => simp [validating.idle held] at busy
      | true =>
        obtain ⟨other, -, only⟩ := validating.consumer held
        obtain ⟨-, nothing⟩ := List.cons.inj (busy.symm.trans only)
        simp [SequencedCore.pending, sync, ended, scheduled, uid,
          Sequencer.validations_append appended, SequencerRequest.validates, packet, validation,
          nothing]
  refine ⟨?_, fun holds => ?_, fun nothing => ?_⟩
  · intro request listed validation held
    change request.line ∈ core.mgr.buffer at held
    change request.uid = some core.mgr.currentHtmUid
    rw [buffer] at held
    rw [uid]
    rcases moved with ⟨-, rfl⟩ | ⟨-, pkt, -, packet, -, appended⟩
    · exact validating.own request listed validation held
    · change request ∈ sequencer.requestTable at listed
      rw [appended, List.mem_append, List.mem_singleton] at listed
      rcases listed with before | rfl
      · exact validating.own request before validation held
      · exact packet
  · obtain ⟨other, held, only⟩ := validating.consumer (consumer ▸ holds)
    exact ⟨other, buffer ▸ held, pending.trans only⟩
  · exact pending.trans (validating.idle (consumer ▸ nothing))

/-- The validation event fires on a line that is not blocked. -/
theorem Inv.of_fireValidation (eager : params.eagerCd = true) (inv : state.Inv)
    {bytes : Nat → UInt8} (unblocked : state.Orderly (.fireValidation bytes busy))
    (fired : state.fireValidation bytes busy = .ok next) : next.Inv := by
  unfold SequencedCore.fireValidation at fired
  split at fired
  · exact pure_eq_ok.mp fired ▸ inv
  · next addr scheduled =>
    split at fired
    · next aborting =>
      simp only [run_eq_ok] at fired
      obtain ⟨core, stepped, rfl⟩ := fired
      obtain ⟨done, shape⟩ := Core.update_ok stepped
      have frame := (fireValidation_call done).1.call
      refine inv.of_call (by rw [shape]) (inv.known.of_fireValidation done) inv.issued
        (fun live => ?_) frame
      exact absurd (live.of_call frame).2 (by simp [aborting])
    · next calm =>
      simp only [run_eq_ok] at fired
      obtain ⟨⟨status, requested⟩, made, core, stepped, rfl⟩ := fired
      obtain ⟨middle, sequencer, rfl, frame, same, lastAbort, outcome⟩ :=
        makeRequest_cases eager made
      obtain ⟨done, shape⟩ := Core.update_ok stepped
      have synced : CallFrame middle.mgr (sync middle sequencer).core.mgr := .of_surroundings le_rfl
      obtain ⟨fires, kept⟩ := fireValidation_call done
      have frameAll := frame.trans (synced.trans fires.call)
      have known : (sync middle sequencer).core.mgr.KnownEvent :=
        inv.known.of_kept ⟨same.received, same.event⟩
      refine inv.of_call ?_ (known.of_fireValidation done) ?_ (fun live => ?_) frameAll
      · rw [shape]
        exact lastAbort
      · intro request listed validation
        cases outcome with
        | dropped => exact inv.issued request listed validation
        | refused => exact inv.issued request listed validation
        | entered appended =>
          change request ∈ sequencer.requestTable at listed
          rw [appended, List.mem_append, List.mem_singleton] at listed
          rcases listed with before | rfl
          · exact inv.issued request before validation
          · exact ⟨_, rfl, le_rfl⟩
      · have lived := live.of_call frameAll
        have again : (sync middle sequencer).core.mgr.forwarding.validationEvent = some addr :=
          same.event.trans scheduled
        have event := fireValidation_event again (live.of_call fires.call).2 done
        have buffer := kept.buffer.trans same.buffer
        refine (inv.live lived).of_fired scheduled frameAll.currentHtmUid buffer ?_
        cases outcome with
        | dropped packet ended =>
          obtain rfl := Option.some.inj packet
          rcases ended with aborting | last
          · exact absurd aborting calm
          · exact absurd last.symm (inv.running lived.1)
        | entered appended =>
          exact .inr ⟨by simpa using event, _, rfl, rfl, rfl, appended⟩
        | refused other blocked =>
          have free := unblocked lived addr scheduled
          have refused : ¬ status = .aliased := fun aliased => by simp [blocked aliased] at free
          exact .inl ⟨by simpa [other, refused] using event, rfl⟩

end Requests

section Answers

variable {core : Core params n} {sequencer : Sequencer} {addr : Addr}

/-- A live transaction has no validation in the table but for a block it holds. -/
theorem Validating.front_validates (validating : state.Validating) {first : SequencerRequest}
    (found : state.sequencer.front addr = some first) (validation : first.validation = true) :
    first.validates state.core.mgr.currentHtmUid = true ↔ addr ∈ state.core.mgr.buffer := by
  have line : first.line = addr := by simpa using List.find?_some found
  have listed : first ∈ state.sequencer.requestTable := List.mem_of_find?_eq_some found
  constructor
  · intro validates
    have pending : addr ∈ state.pending := by
      refine List.mem_append_right _ (List.mem_map.mpr ⟨first, ?_, line⟩)
      exact List.mem_filter.mpr ⟨listed, validates⟩
    cases consumer : state.core.mgr.isConsumer with
    | false => simp [validating.idle consumer] at pending
    | true =>
      obtain ⟨other, held, only⟩ := validating.consumer consumer
      rw [only, List.mem_singleton] at pending
      exact pending ▸ held
  · intro held
    have own := validating.own first listed validation (line ▸ held)
    simp [SequencerRequest.validates, validation, own]

/-- While a validation of a held block is in the table nothing else is pending. -/
theorem Validating.requested (validating : state.Validating) {first : SequencerRequest}
    (found : state.sequencer.front addr = some first) (validation : first.validation = true)
    (held : addr ∈ state.core.mgr.buffer) : state.core.mgr.forwarding.validationEvent = none ∧
      state.sequencer.validations state.core.mgr.currentHtmUid = [addr] := by
  have listed : addr ∈ state.sequencer.validations state.core.mgr.currentHtmUid := by
    refine List.mem_map.mpr ⟨first, ?_, by simpa using List.find?_some found⟩
    exact List.mem_filter.mpr ⟨List.mem_of_find?_eq_some found,
      (validating.front_validates found validation).mpr held⟩
  obtain ⟨other, -, only⟩ := validating.consumer (isConsumer_of_mem held)
  cases event : state.core.mgr.forwarding.validationEvent with
  | none =>
    rw [SequencedCore.pending, event, Option.toList_none, List.nil_append] at only
    rw [only, List.mem_singleton] at listed
    exact ⟨rfl, listed ▸ only⟩
  | some scheduled =>
    simp only [SequencedCore.pending, event, Option.toList_some, List.singleton_append,
      List.cons.injEq] at only
    simp [only.2] at listed

/-- The answer to a validation hands over to the next block. -/
theorem Validating.of_answered (validating : state.Validating)
    (uid : core.mgr.currentHtmUid = state.core.mgr.currentHtmUid) (live : core.mgr.Live)
    (round : NextRound state.core.mgr core.mgr addr)
    (front : (state.sequencer.front addr).any (·.validation) = true)
    (completes : state.sequencer.Completes sequencer addr) :
    (sync core sequencer).Validating ∧ (core.mgr.isConsumer = true →
      ∃ following, core.mgr.forwarding.validationEvent = some following ∧
        CyclicNext {other | other ∈ core.mgr.buffer} addr following) := by
  obtain ⟨first, found, validation⟩ := (Option.any_eq_true _ _).mp front
  obtain ⟨free, only⟩ := validating.requested found validation round.held
  have validates := (validating.front_validates found validation).mpr round.held
  have completed := (completes.validations_of_front found validates only).2
  have pending : (sync core sequencer).pending = core.mgr.forwarding.validationEvent.toList := by
    simp [SequencedCore.pending, sync, uid, completed]
  have own : ∀ request ∈ sequencer.requestTable, request.validation = true →
      request.line ∈ core.mgr.buffer → request.uid = some core.mgr.currentHtmUid := by
    intro request listed validates held
    rw [uid]
    exact validating.own request (completes.subset request listed) validates (round.blocks _ held)
  rcases round.event with ⟨same, ended⟩ | ⟨-, following, scheduled, -, next⟩
  · have nothing := ended live
    refine ⟨⟨own, fun consumer => ?_, fun _ => ?_⟩, fun consumer => ?_⟩
    · exact absurd (consumer.symm.trans nothing) (by simp)
    · rw [pending, same, free]
      rfl
    · exact absurd (consumer.symm.trans nothing) (by simp)
  · refine ⟨⟨own, fun _ => ⟨following, next.1, ?_⟩, fun nothing => ?_⟩,
      fun _ => ⟨following, scheduled, next⟩⟩
    · rw [pending, scheduled]
      rfl
    · exact absurd ((isConsumer_of_mem next.1).symm.trans nothing) (by simp)

/-- What an answered validation leaves: the invariant, and the next block in turn. -/
theorem Inv.of_answered (inv : state.Inv) (frame : CallFrame state.core.mgr core.mgr)
    (lastAbort : core.lastAbortHtmUid = state.core.lastAbortHtmUid) (known : core.mgr.KnownEvent)
    (round : core.mgr.Live → NextRound state.core.mgr core.mgr addr)
    (front : (state.sequencer.front addr).any (·.validation) = true)
    (completes : state.sequencer.Completes sequencer addr) :
    (sync core sequencer).Inv ∧ (core.mgr.Live → core.mgr.isConsumer = true →
      ∃ following, core.mgr.forwarding.validationEvent = some following ∧
        CyclicNext {other | other ∈ core.mgr.buffer} addr following) := by
  have answered (live : core.mgr.Live) := (inv.live (live.of_call frame)).of_answered
    frame.currentHtmUid live (round live) front completes
  refine ⟨inv.of_call lastAbort known ?_ (fun live => (answered live).1) frame,
    fun live => (answered live).2⟩
  exact fun request listed => inv.issued request (completes.subset request listed)

private theorem complete_completes {callback : Callback}
    (completed : state.complete callback addr = .ok sequencer) :
    state.sequencer.Completes sequencer addr := by
  unfold SequencedCore.complete at completed
  split at completed
  · exact .of_readCallback completed
  · exact .of_specWriteCallback completed
  · exact .of_writeCallback completed
  · exact .of_writeCallback completed

/-- The block validated last is validated again, or the next one in turn is. -/
def HandsOn (state : SequencedCore params n) (addr : Addr) : Prop :=
  (state.core.mgr.forwarding.validationEvent = none ∧
      state.sequencer.validations state.core.mgr.currentHtmUid = [addr]) ∨
    ∃ following, state.core.mgr.forwarding.validationEvent = some following ∧
      CyclicNext {other | other ∈ state.core.mgr.buffer} addr following

/-- What holds after the answer to a validation. -/
structure AfterAnswer (state next : SequencedCore params n) (addr : Addr) : Prop where
  inv : next.Inv
  handsOn : addr ∈ state.core.mgr.buffer → next.core.mgr.Live → next.core.mgr.isConsumer = true →
    next.HandsOn addr

/-- A nack with data, or data with permissions. -/
theorem AfterAnswer.of_validated {sender : MachineID} {data : DataBlock n} {timestamp : Cycles}
    {isNack : Bool} {mgr : TransactionInterfaceManager params n} (inv : state.Inv)
    (kept : RoundKept state.core.mgr mgr) (cache : mgr.dataCache = state.core.mgr.dataCache)
    (frame : CallFrame state.core.mgr core.mgr)
    (lastAbort : core.lastAbortHtmUid = state.core.lastAbortHtmUid) (front : state.Validates addr)
    (validated : mgr.validateConsumedData addr sender data timestamp isNack = .ok core.mgr)
    (completes : state.sequencer.Completes sequencer addr) :
    AfterAnswer state (sync core sequencer) addr := by
  obtain ⟨aligned, front, cached⟩ := front
  have known := inv.known.of_kept kept.toEventKept
  rcases validateConsumedData_round validated with
    ⟨missing, same⟩ | round
  · have dead : ¬ core.mgr.Live := fun live => by
      have present := cached (live.of_call frame)
      rw [← cache, ← aligned, Std.ExtTreeMap.contains_eq_isSome_getElem?, missing] at present
      simp at present
    obtain ⟨holds, -⟩ := inv.of_answered frame lastAbort (same ▸ known)
      (fun live => absurd live dead) front completes
    exact ⟨holds, fun _ live => absurd live dead⟩
  · obtain ⟨holds, following⟩ := inv.of_answered frame lastAbort (known.of_nextRound round)
      (fun _ => round.of_kept kept) front completes
    exact ⟨holds, fun _ live consumer => .inr (following live consumer)⟩

/-- A nack without usable data: the transaction stops if it holds the block, otherwise the request
is one of an earlier transaction. -/
theorem AfterAnswer.of_failed {nack : Nack n} {mgr : TransactionInterfaceManager params n}
    (forwarding : params.allowEarlyValueFwd = true) (inv : state.Inv)
    (kept : RoundKept state.core.mgr mgr) (frame : CallFrame state.core.mgr core.mgr)
    (lastAbort : core.lastAbortHtmUid = state.core.lastAbortHtmUid)
    (front : state.Validates nack.addr)
    (failed : mgr.failedCallback state.core.lastAbortHtmUid nack.toRemote = .ok core.mgr)
    (completes : sequencer = state.sequencer ∨ state.sequencer.Completes sequencer nack.addr) :
    AfterAnswer state (sync core sequencer) nack.addr := by
  obtain ⟨aligned, front, -⟩ := front
  obtain ⟨first, found, validation⟩ := (Option.any_eq_true _ _).mp front
  have keptAll := kept.trans (.of_sameReceiver (QuietCall.of_failedCallback failed).same)
  have dead : nack.addr ∈ state.core.mgr.buffer → ¬ core.mgr.Live := by
    intro held
    refine failedCallback_dead forwarding ?_ failed
    have listed := Std.ExtTreeMap.mem_iff_contains.mp ((kept.blocks _).mpr held)
    rw [← aligned] at listed
    exact listed
  refine ⟨inv.of_call lastAbort (inv.known.of_kept keptAll.toEventKept) ?_ (fun live => ?_) frame,
    fun held live => absurd live (dead held)⟩
  · intro request listed
    rcases completes with rfl | completes
    · exact inv.issued request listed
    · exact inv.issued request (completes.subset request listed)
  · have validating := inv.live (live.of_call frame)
    refine validating.of_kept ?_ frame.currentHtmUid keptAll
    rcases completes with rfl | completes
    · exact .of_same rfl
    · refine .of_completes completes fun other otherFound => ?_
      obtain rfl := Option.some.inj (found.symm.trans otherFound)
      by_contra validates
      exact dead ((validating.front_validates found validation).mp (by simpa using validates)) live

private theorem AfterAnswer.of_validationNack {nack : Nack n} {tbe : Option TBE}
    (forwarding : params.allowEarlyValueFwd = true) (inv : state.Inv)
    (admitted : state.Admits (.validationNack nack tbe))
    (done : state.validationNack nack tbe = .ok next) : AfterAnswer state next nack.addr := by
  obtain ⟨admits, front⟩ := admitted
  simp only [SequencedCore.validationNack, bind_eq_ok] at done
  obtain ⟨⟨event, mgr⟩, judged, core, updated, done⟩ := done
  obtain ⟨handled, shape⟩ := Core.update_ok updated
  have quiet := QuietCall.of_nackEvent judged
  have kept := RoundKept.of_sameReceiver quiet.same
  have judging := quiet.call
  have lastAbort : core.lastAbortHtmUid = state.core.lastAbortHtmUid := by rw [shape]
  cases event with
  | nackSpecIllegalRtry =>
    obtain rfl := pure_eq_ok.mp done
    have same : mgr = core.mgr := pure_eq_ok.mp handled
    rw [same] at kept judging
    refine ⟨inv.of_round (.of_same rfl) judging lastAbort (.kept kept), fun held live _ => ?_⟩
    -- The request stays in the table and is issued again.
    obtain ⟨first, found, validation⟩ := (Option.any_eq_true _ _).mp front.2.1
    obtain ⟨free, only⟩ := (inv.live (live.of_call judging)).requested found validation held
    refine .inl ⟨kept.event.trans free, ?_⟩
    have uid := judging.currentHtmUid
    change state.sequencer.validations core.mgr.currentHtmUid = [nack.addr]
    rw [uid]
    exact only
  | nack =>
    have frame := judging.trans (QuietCall.of_failedCallback handled).call
    dsimp only at done
    split at done
    · simp only [run_eq_ok] at done
      obtain ⟨sequencer, completed, rfl⟩ := done
      have completes := complete_completes completed
      exact .of_failed forwarding inv kept frame lastAbort front handled (.inr completes)
    · obtain rfl := pure_eq_ok.mp done
      exact .of_failed forwarding inv kept frame lastAbort front handled (.inl rfl)
  | nackSpec =>
    simp only [run_eq_ok] at done
    obtain ⟨sequencer, completed, rfl⟩ := done
    have completes := complete_completes completed
    unfold handleNack at handled
    dsimp only at handled
    split at handled
    · next other => cases other
    · exact .of_validated inv kept quiet.same.dataCache
        (judging.trans (RankCall.of_validateConsumedData handled).call) lastAbort front handled
          completes
    · simp at handled

end Answers

/-- One orderly event keeps the invariant; the answer to a validation also hands on to the next
block. -/
theorem Inv.step {event : SequencedEvent n} (forwarding : params.allowEarlyValueFwd = true)
    (eager : params.eagerCd = true) (inv : state.Inv) (admitted : state.Admits event)
    (orderly : state.Orderly event) (stepped : state.step event = .ok next) :
    next.Inv ∧ ∀ addr ∈ event.answers, AfterAnswer state next addr := by
  cases event with
  | core event =>
    simp only [SequencedCore.step, run_eq_ok] at stepped
    obtain ⟨core, stepped, rfl⟩ := stepped
    refine ⟨inv.of_core ?_ forwarding admitted stepped, by simp [SequencedEvent.answers]⟩
    split
    · exact .of_abortTransaction
    · exact .of_same rfl
  | request pkt access busy =>
    simp only [SequencedCore.step, run_eq_ok] at stepped
    obtain ⟨⟨_, _⟩, made, rfl⟩ := stepped
    obtain ⟨core, sequencer, rfl, frame, same, lastAbort, requested⟩ := makeRequest_cases eager made
    refine ⟨inv.of_round ?_ frame lastAbort (.kept (.of_sameReceiver same)),
      by simp [SequencedEvent.answers]⟩
    cases requested with
    | dropped => exact .of_same rfl
    | entered appended => exact .of_append admitted appended
    | refused => exact .of_same rfl
  | callback callback line =>
    simp only [SequencedCore.step, run_eq_ok] at stepped
    obtain ⟨sequencer, completed, rfl⟩ := stepped
    refine ⟨inv.of_table (.of_completes (complete_completes completed) fun first found => ?_),
      by simp [SequencedEvent.answers]⟩
    have program : first.validation = false := by
      simpa [SequencedCore.Admits, Option.mem_def.mp found] using admitted
    simp [SequencerRequest.validates, program]
  | fireValidation bytes busy =>
    exact ⟨inv.of_fireValidation eager orderly stepped, by simp [SequencedEvent.answers]⟩
  | validationNack nack tbe =>
    have after := AfterAnswer.of_validationNack forwarding inv admitted stepped
    exact ⟨after.inv, fun addr answered => Option.some.inj answered ▸ after⟩
  | validationData addr sender data timestamp =>
    simp only [SequencedCore.step, run_eq_ok] at stepped
    obtain ⟨core, updated, sequencer, completed, rfl⟩ := stepped
    obtain ⟨validated, shape⟩ := Core.update_ok updated
    have completes := complete_completes completed
    have after : AfterAnswer state _ addr := .of_validated inv (.refl _) rfl
      (RankCall.of_validateConsumedData validated).call (by rw [shape])
      admitted validated completes
    exact ⟨after.inv, fun other answered => Option.some.inj answered ▸ after⟩
  | invalidValidation line =>
    simp only [SequencedCore.step, run_eq_ok] at stepped
    obtain ⟨⟨-, ended⟩, sequencer, completed, rfl⟩ := stepped
    have completes := complete_completes completed
    refine ⟨inv.of_call rfl inv.known
      (fun request listed => inv.issued request (completes.subset request listed)) (fun live => ?_)
      (.refl _), by simp [SequencedEvent.answers]⟩
    rcases ended with outside | ⟨-, aborting⟩
    · exact absurd (outside.symm.trans live.1) (by simp)
    · exact absurd (aborting.symm.trans live.2) (by simp)
  | reserve mshrs =>
    rw [SequencedCore.step, pure_eq_ok] at stepped
    subst stepped
    exact ⟨inv.of_table (.of_same rfl), by simp [SequencedEvent.answers]⟩

private theorem system_step {event : SequencedEvent n} : (system params n).Step state event next ↔
      state.Admits event ∧ state.step event = .ok next := by
  simp [system, take]

private theorem inv_invariant (forwarding : params.allowEarlyValueFwd = true)
    (eager : params.eagerCd = true) :
    ((system params n).restrict Orderly).Invariant Inv where
  initial := by
    rintro state ⟨version, log, maxOutstandingRequests, setUp, rfl⟩
    have sound : (Core.start params n version log).mgr.Sound := .init setUp
    refine ⟨{ sound with }, rfl, ?_, le_rfl, ?_, ?_, ?_⟩
    all_goals simp [sync, Core.start, init, KnownEvent, ValueForwarding.init, Sequencer.init,
      inTransaction, Live]
  preserved := by
    intro state event next inv transition
    obtain ⟨orderly, transition⟩ := TransitionSystem.restrict_step.mp transition
    obtain ⟨admitted, stepped⟩ := system_step.mp transition
    exact (inv.step forwarding eager admitted orderly stepped).1

/-- As long as the validation event does not fire on a line blocked by a locked access and data with
permissions comes for the last block held, a consumer that is not aborting has exactly one
validation pending, of a block it holds, and when one is answered the next is that of the following
block in cyclic order, unless an illegal nack makes the controller repeat the request. -/
theorem validation_pending (forwarding : params.allowEarlyValueFwd = true)
    (eager : params.eagerCd = true)
    (reachable : ((system params n).restrict Orderly).Reachable state)
    (live : state.core.mgr.Live) :
    (state.core.mgr.isConsumer = true → ∃ addr ∈ state.core.mgr.buffer, state.pending = [addr]) ∧
    ∀ event addr next, event.answers = some addr → addr ∈ state.core.mgr.buffer →
      ((system params n).restrict Orderly).Step state event next → next.core.mgr.Live →
      next.core.mgr.isConsumer = true → next.HandsOn addr := by
  have inv := (inv_invariant forwarding eager).of_reachable reachable
  refine ⟨(inv.live live).consumer, ?_⟩
  intro event addr next answers held transition alive consumer
  obtain ⟨orderly, transition⟩ := TransitionSystem.restrict_step.mp transition
  obtain ⟨admitted, stepped⟩ := system_step.mp transition
  exact ((inv.step forwarding eager admitted orderly stepped).2 addr answers).handsOn held alive
    consumer

/-- Core 2 nacks a request for the block at `addr` with its data. -/
def forwardedNack (addr : Addr) : Nack 4 :=
  ⟨addr, ⟨.l1Cache, 2⟩, 3, .trans, 0, false, some fun _ => 0⟩

/-- A load misses, receives the block and completes. -/
def consumeEvents (addr : Addr) : List (SequencedEvent 4) :=
  [.request { line := addr, type := .ld, uid := some 1 } ⟨addr, 1, false, fun _ => 0⟩ false,
   .core (.nack (forwardedNack addr) none
     (.miss ⟨addr, 1, false, fun _ => 0⟩ fun _ => false)),
   .callback .write addr]

/-- A transaction begins and consumes the block at 8. -/
def consumerEvents : List (SequencedEvent 4) :=
  [.core (.environment ⟨⟨[]⟩, ∅, 5, false, ∅⟩),
   .core (.command .start ⟨1, 1, false⟩ (.ok false) fun _ => false)] ++ consumeEvents 8

/-- A second block is consumed before the validation event of the first one fires. -/
def twoBlockEvents : List (SequencedEvent 4) :=
  consumerEvents ++ consumeEvents 16 ++ [.fireValidation (fun _ => 0) false]

/-- When the validation of the first block is nacked with the data, the second block is next. -/
theorem validation_pending_twoBlocks : ∃ state next : SequencedCore forwardingParams 4,
      state.sequencer.validations 1 = [8] ∧
        (∃ addr ∈ state.core.mgr.buffer, state.pending = [addr]) ∧
      next.HandsOn 8 ∧ next.core.mgr.forwarding.validationEvent = some 16 := by
  obtain ⟨state, reachable, live, consumer, requested, held, next, answered, alive, consumes,
    scheduled⟩ : ∃ state, ((system forwardingParams 4).restrict Orderly).Reachable state ∧
      state.core.mgr.Live ∧ state.core.mgr.isConsumer = true ∧
      state.sequencer.validations 1 = [8] ∧ 8 ∈ state.core.mgr.buffer ∧
      ∃ next, state.take (.validationNack (forwardedNack 8) none) = .ok next ∧
        next.core.mgr.Live ∧ next.core.mgr.isConsumer = true ∧
        next.core.mgr.forwarding.validationEvent = some 16 :=
    TransitionSystem.exists_reachable_restrict (.assertion "orderly") twoBlockEvents
      ⟨1, Core.pageLog, 16, by decide, rfl⟩ (by decide +kernel)
  obtain ⟨one, handsOn⟩ := validation_pending (by decide) rfl reachable live
  exact ⟨state, next, requested, one consumer,
    handsOn (.validationNack (forwardedNack 8) none) 8 next rfl held
      (TransitionSystem.restrict_step.mpr ⟨trivial, answered⟩) alive consumes,
    scheduled⟩

/-- The read of a locked access to the consumed block blocks its line, and then the validation event
fires. -/
def lockedReadEvents : List (SequencedEvent 4) :=
  consumerEvents ++
    [.request { line := 8, type := .lockedRmwRead, uid := some 1 } ⟨8, 1, false, fun _ => 0⟩ false,
     .core (.readCallback ⟨8, 1, false, fun _ => 0⟩), .callback .write 8,
     .fireValidation (fun _ => 0) false]

/-- The validation of a blocked line is answered as aliased, which counts as accepted although no
request was inserted: nothing is pending for a consumer that is not aborting. -/
theorem validation_lost_onBlockedLine :
    ∃ state, (system forwardingParams 4).Reachable state ∧ state.core.mgr.Live ∧
      state.core.mgr.isConsumer = true ∧ state.pending = [] := by
  exact TransitionSystem.exists_reachable lockedReadEvents ⟨1, Core.pageLog, 16, by decide, rfl⟩
    (by decide +kernel)

end SequencedCore

end Gem5.Ruby
