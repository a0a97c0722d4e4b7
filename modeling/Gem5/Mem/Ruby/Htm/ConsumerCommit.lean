import Gem5.Mem.Ruby.Htm.CoreSystem
import Gem5.Mem.Ruby.Htm.ForwardedData

/-!
# A consumer commits on validated data

The run of one transaction that receives forwarded blocks, followed together with the
histories of the blocks: receptions, loads and stores, validations of any content in
any order, commit attempts, and the calls other cores cause in between.  When the
transaction is let through to `commitTransaction`, every received block has been
validated, what was read from it was right, and its line is the validated block with
the transaction's own stores on top.
-/

namespace Gem5.Ruby

open Foundation TransactionInterfaceManager

/-- A core and what its transaction did to the blocks it received. -/
structure Consumer (params : HTMParams) (n : Nat) where
  core : Core params n
  histories : BlockHistories n

/-- The events of a consumer.  `isNack` tells a validation that was nacked with the data from
one answered with data and permissions. -/
inductive ConsumerEvent (n : Nat) where
  | receive (nack : Nack n) (data : DataBlock n) (access : Access) (issues : Addr → Bool)
  | load (access : Access)
  | store (access : Access) (issues : Addr → Bool)
  | validate (addr : Addr) (sender : MachineID) (data : DataBlock n) (timestamp : Cycles)
      (isNack : Bool)
  | commit (pkt : HtmPacket) (conflictingCommitter : Checked Bool) (issues : Addr → Bool)
  | other (event : CoreEvent n)

/-- Requests of the core, requests of other cores, nacks without usable data and the validation
event. -/
def Core.interferes {params : HTMParams} {n : Nat} (core : Core params n) : CoreEvent n → Bool
  | .request .. | .remoteLoad .. | .remoteStore .. | .remoteInvalidation .. | .fireValidation .. =>
    true
  | .nack nack tbe _ =>
    succeedsWith (core.mgr.nackEvent nack tbe) fun judged => judged.1 ≠ .nackSpec
  | _ => false

namespace Core

variable {params : HTMParams} {n : Nat} {core next : Core params n} {event : CoreEvent n}

/-- What happens in between changes no data. -/
theorem interferes_sameData (interferes : core.interferes event = true)
    (stepped : core.step event = .ok next) :
    SameData core.mgr next.mgr ∧ CallFrame core.mgr next.mgr := by
  cases event with
  | request uid access =>
    exact ⟨(makeRequest_call stepped).same.toSameData, (makeRequest_call stepped).call⟩
  | remoteLoad req line =>
    exact ⟨(respond_call .load stepped).same.toSameData, (respond_call .load stepped).call⟩
  | remoteStore req line =>
    exact ⟨(respond_call .store stepped).same.toSameData, (respond_call .store stepped).call⟩
  | remoteInvalidation req line =>
    have answered := respond_call .invalidation stepped
    exact ⟨answered.same.toSameData, answered.call⟩
  | fireValidation status =>
    obtain ⟨kept, same⟩ := fireValidation_call (update_ok stepped).1
    exact ⟨same, kept.call⟩
  | nack nack tbe pending =>
    simp only [Core.interferes, succeedsWith_iff, decide_eq_true_eq] at interferes
    obtain ⟨_, expected, plain⟩ := interferes
    cases receiveNack_cases stepped with
    | quiet _ _ call => exact ⟨call.same.toSameData, call.call⟩
    | consumed judged =>
      exact absurd (congrArg Prod.fst (Except.ok.inj (judged.symm.trans expected))).symm plain
    | validated judged =>
      exact absurd (congrArg Prod.fst (Except.ok.inj (judged.symm.trans expected))).symm plain
  | _ => simp [Core.interferes] at interferes

end Core

namespace Consumer

variable {params : HTMParams} {n : Nat}

/-- An access that misses: the transaction has neither received nor written the block. -/
def misses (state : Consumer params n) (addr : Addr) : Bool :=
  (state.histories addr).isNone && !state.core.mgr.checkWriteSignature addr

/-- A block is received by an access that missed on it; the steps of `consumeForwardedData`, with
the history of the block started in between. -/
def receive (state : Consumer params n) (nack : Nack n) (data : DataBlock n) (access : Access)
    (issues : Addr → Bool) : Checked (Consumer params n) := do
  assertThat (nack.sender.type = .l1Cache) "nacked by another core"
  assertThat (state.misses nack.addr = true ∧ makeLineAddress n access.addr = nack.addr) "miss"
  let mgr ← (state.core.mgr.writeLine nack.addr ⟨.readWrite, data, true⟩)
    |>.notifyForwardedDataFromProducer nack.toRemote data
  let next ← mgr.specCallback access issues
  return { core := { state.core with mgr := next }
           histories := mgr.followAccess
             (Function.update state.histories nack.addr (some (.fresh n))) access }

/-- The effect of an event on the core and the histories.  A commit attempt waits or is ignored;
the one that is let through ends the run. -/
def take (state : Consumer params n) : ConsumerEvent n → Checked (Consumer params n)
  | .receive nack data access issues => state.receive nack data access issues
  | .load access => do
    let access := { access with write := false }
    let core ← state.core.update (state.core.mgr.hitCallback access fun _ => false)
    return ⟨core, state.core.mgr.followAccess state.histories access⟩
  | .store access issues => do
    let access := { access with write := true }
    let core ← state.core.update (state.core.mgr.writeCallback access issues)
    return ⟨core, state.core.mgr.followAccess state.histories access⟩
  | .validate addr sender data timestamp isNack => do
    let core ← state.core.update
      (state.core.mgr.validateConsumedData addr sender data timestamp isNack)
    return ⟨core, followValidation state.histories addr data isNack⟩
  | .commit pkt conflictingCommitter issues => do
    assertThat (state.core.mgr.isAborting = true ∨ state.core.mgr.canCommitTransaction = false)
      "not let through"
    let core ← state.core.notifyXactionEvent .commit pkt conflictingCommitter issues
    return { state with core := core }
  | .other event => do
    assertThat (state.core.interferes event = true) "other call"
    let core ← state.core.step event
    return { state with core := core }

/-- The runs of one transaction from a state in which nothing has been received. -/
def system (params : HTMParams) (n : Nat) :
    TransitionSystem (Consumer params n) (ConsumerEvent n) :=
  .ofExcept (fun state => state.core.mgr.isConsumer = false ∧ state.histories = fun _ => none) take

variable {issues : Addr → Bool}

/-- While the transaction runs, the copies of the received blocks agree with their histories. -/
def Inv (state : Consumer params n) : Prop :=
  state.core.mgr.abort.abortFlag = false → state.core.mgr.Consistent state.histories

variable {state next : Consumer params n}

section

variable (forwarding : params.allowEarlyValueFwd = true) (eager : params.eagerCd = true)

include forwarding eager

private theorem Inv.receive {nack : Nack n} {data : DataBlock n} {access : Access}
    (holds : state.Inv) (received : state.receive nack data access issues = .ok next) :
    next.Inv := by
  intro live
  simp only [Consumer.receive, run_eq_ok] at received
  obtain ⟨fromCore, -, mgr, notified, called, spec, rfl⟩ := received
  have consumed : state.core.mgr.consumeForwardedData nack data access issues = .ok called := by
    simp only [consumeForwardedData, notified, ok_bind, spec]
  have machine : nack.sender ≠ createInvalidMachineID := by
    intro invalid
    simp [invalid, createInvalidMachineID] at fromCore
  have running := (CallFrame.of_consumeForwardedData machine consumed).live live
  exact ((holds running).receive notified).specCallback forwarding eager spec

/-- One event, by the kind of the event. -/
theorem Inv.take {event : ConsumerEvent n} (holds : state.Inv)
    (taken : state.take event = .ok next) : next.Inv := by
  cases event with
  | receive nack data access issues => exact holds.receive forwarding eager taken
  | load access =>
    simp only [Consumer.take, run_eq_ok] at taken
    obtain ⟨core, updated, rfl⟩ := taken
    obtain ⟨hit, -⟩ := Core.update_ok updated
    intro live
    rw [followAccess_of_read rfl]
    exact (holds ((AccessCall.of_hitCallback hit).call.live live)).hitCallback forwarding eager hit
  | store access issues =>
    simp only [Consumer.take, run_eq_ok] at taken
    obtain ⟨core, updated, rfl⟩ := taken
    obtain ⟨called, -⟩ := Core.update_ok updated
    intro live
    exact (holds ((AccessCall.of_writeCallback called).call.live live)).writeCallback
      forwarding eager rfl called
  | validate addr sender data timestamp isNack =>
    simp only [Consumer.take, run_eq_ok] at taken
    obtain ⟨core, updated, rfl⟩ := taken
    obtain ⟨validated, -⟩ := Core.update_ok updated
    intro live
    exact (holds ((RankCall.of_validateConsumedData validated).call.live live)).validate
      validated live
  | commit pkt committer issues =>
    simp only [Consumer.take, run_eq_ok] at taken
    obtain ⟨waits, core, notified, rfl⟩ := taken
    -- a commit attempt that is not let through changes no data and does not abort
    obtain ⟨same, abort⟩ : SameData state.core.mgr core.mgr ∧
      core.mgr.abort = state.core.mgr.abort := by
      unfold Core.notifyXactionEvent at notified
      split at notified
      · simp only at notified
        split at notified
        · simp only [run_eq_ok] at notified
          exact notified.2 ▸ ⟨.refl _, rfl⟩
        · exact pure_eq_ok.mp notified ▸ ⟨.refl _, rfl⟩
      · next live =>
        have early : state.core.mgr.canCommitTransaction = false := waits.resolve_left live
        simp only [Core.commit, early, Bool.false_eq_true, ↓reduceIte,
          initiateCommitTransaction, forwarding, run_eq_ok] at notified
        obtain ⟨_, ⟨-, rfl⟩, rfl⟩ := notified
        exact ⟨⟨rfl, rfl⟩, rfl⟩
    intro live
    exact (holds (abort ▸ live)).of_sameData same
  | other event =>
    simp only [Consumer.take, run_eq_ok] at taken
    obtain ⟨interferes, core, stepped, rfl⟩ := taken
    obtain ⟨same, call⟩ := Core.interferes_sameData interferes stepped
    intro live
    exact (holds (call.live live)).of_sameData same

private theorem inv_invariant : (system params n).Invariant Inv where
  initial := by
    rintro state ⟨empty, histories⟩ -
    have nothing : state.core.mgr.buffer.isEmpty = true := by
      simpa [isConsumer] using empty
    refine ⟨by simp [histories], by simp [histories], fun addr _ => ?_⟩
    rw [Std.ExtTreeMap.isEmpty_iff.mp nothing]
    exact Std.ExtTreeMap.getElem?_empty
  preserved holds transition := holds.take forwarding eager transition

end

/-- A transaction is let through to `commitTransaction` only when every block it received has
been validated with permissions; what it read before came from the validated block or from its own
stores, and the line it leaves is the validated block with its own stores on top. -/
theorem commit_onValidatedData (forwarding : params.allowEarlyValueFwd = true)
    (eager : params.eagerCd = true) (reachable : (system params n).Reachable state)
    (running : state.core.mgr.inTransaction = true) (live : state.core.mgr.isAborting = false)
    (ready : state.core.mgr.canCommitTransaction = true) {addr : Addr} {history : BlockHistory n}
    (received : state.histories addr = some history) :
    ∃ block line, history.validated = some block ∧ history.ReadsFrom block ∧
      state.core.mgr.dataCache[addr]? = some line ∧ line.data = history.result block ∧
      ∀ pkt committer issues after,
        state.core.notifyXactionEvent .commit pkt committer issues = .ok after →
        after.mgr.dataCache[addr]? = some line := by
  have unflagged : state.core.mgr.abort.abortFlag = false := by
    simpa [isAborting, running] using live
  have consistent := (inv_invariant forwarding eager).of_reachable reachable unflagged
  have drained : state.core.mgr.buffer[addr]? = none := by
    simp only [canCommitTransaction, eager, forwarding, ↓reduceIte,
      unflagged, Bool.false_or] at ready
    rw [buffer, Std.ExtTreeMap.isEmpty_iff.mp ready]
    exact Std.ExtTreeMap.getElem?_empty
  obtain ⟨line, held, follows⟩ := consistent.follows addr history received
  cases validated : history.validated with
  | none => simp [validated, drained] at follows
  | some block =>
    simp only [validated] at follows
    refine ⟨block, line, rfl, follows.2.reads, held, follows.2.line, ?_⟩
    intro pkt committer issues after committed
    simp only [Core.notifyXactionEvent, live, Core.commit, ready, Bool.false_eq_true, ↓reduceIte,
      run_eq_ok] at committed
    obtain ⟨⟨_, _⟩, done, rfl⟩ := committed
    obtain ⟨-, -, _, _, _, _, _, _, rfl, -⟩ := commitTransaction_ok done
    exact held

/-- A block of four bytes is received by a load of its first byte; the second byte is stored to, and
the fourth one changes before the data with permissions arrives. -/
def falseSharingEvents : List (ConsumerEvent 4) :=
  [.other (.request 1 ⟨8, 1, false, fun _ => 0⟩),
   .receive ⟨8, ⟨.l1Cache, 2⟩, 3, .trans, 0, false, none⟩ (fun _ => 5) ⟨8, 1, false, fun _ => 0⟩
     fun _ => false,
   .store ⟨9, 1, true, fun _ => 7⟩ fun _ => false,
   .commit ⟨1, 1, false⟩ (.ok false) fun _ => false,
   .other (.fireValidation .issued),
   .validate 8 ⟨.l1Cache, 2⟩ (fun i => if i = 3 then 6 else 5) 4 true,
   .load ⟨11, 1, false, fun _ => 0⟩,
   .other (.fireValidation .issued),
   .validate 8 ⟨.l1Cache, 2⟩ (fun i => if i = 3 then 6 else 5) 4 false]

/-- The run ends with the block validated and the commit let through. -/
theorem commit_onValidatedData_falseSharing :
    ∃ state history block line, (system falseSharing 4).Reachable state ∧
      state.core.mgr.canCommitTransaction = true ∧ state.histories 8 = some history ∧
      history.reads.length = 2 ∧ history.validated = some block ∧ history.ReadsFrom block ∧
      state.core.mgr.dataCache[8]? = some line ∧ line.data = history.result block := by
  obtain ⟨core, -, nothing, state, run, running, live, ready, counted⟩ : ∃ core,
      [.environment ⟨⟨[]⟩, ∅, 5, false, ∅⟩,
        .command .start ⟨1, 1, false⟩ (.ok false) fun _ => false].foldlM Core.take
          (Core.start falseSharing 4 1 Core.pageLog) = .ok core ∧ core.mgr.isConsumer = false ∧
      ∃ state, falseSharingEvents.foldlM take ⟨core, fun _ => none⟩ = .ok state ∧
        state.core.mgr.inTransaction = true ∧ state.core.mgr.isAborting = false ∧
        state.core.mgr.canCommitTransaction = true ∧
        ((state.histories 8).any fun history => history.reads.length = 2) = true := by
    decide +kernel
  obtain ⟨history, received, reads⟩ := (Option.any_eq_true _ _).mp counted
  rw [decide_eq_true_eq] at reads
  have reachable : (system falseSharing 4).Reachable state :=
    ⟨_, falseSharingEvents, ⟨nothing, rfl⟩, .of_foldlM run⟩
  obtain ⟨block, line, validated, source, held, result, -⟩ :=
    commit_onValidatedData (by decide) rfl reachable running live ready received
  exact ⟨state, history, block, line, reachable, ready, received, reads, validated, source, held,
    result⟩

end Consumer

end Gem5.Ruby
