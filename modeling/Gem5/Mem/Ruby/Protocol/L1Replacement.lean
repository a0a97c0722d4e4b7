import Gem5.Mem.Ruby.Protocol.SharingCode

/-!
# Replacements in the L1 cache

A request of the L0 that finds no place asks the replacement policy for a victim.  The
port looks at the state of the victim only to tell whether the L0 may hold it; which
replacement it requests otherwise depends on the signatures of the transaction.
-/

namespace Gem5.Ruby.L1Cache

open Foundation

variable {σ : Type} [XactMgr σ] {n : Nat} {place : Place}

/-! ## The runs of one line -/

/-- A message at one of the ports is handled. -/
def arrive (place : Place) (input : Input n) (ctx : Context σ n) : Checked (Context σ n) :=
  match input with
  | .response msg => responseNetworkIn place msg ctx
  | .request msg => requestNetworkIn place msg ctx
  | .fromL0 msg => messageBufferFromL0In place msg ctx
  | .victim => victimIn place ctx

/-- The line after a message has been handled; the manager may have changed since the last one. -/
def Line.take (place : Place) (line : Line n) (event : σ × Input n) : Checked (Line n) := do
  let ctx ← arrive place event.2 ⟨event.1, line, [], false⟩
  return ctx.line

/-- The runs of one line, with any messages. -/
def lineSystem (σ : Type) [XactMgr σ] (n : Nat) (place : Place) :
    TransitionSystem (Line n) (σ × Input n) :=
  .ofExcept (· = .invalid) (Line.take place)

/-- The cache entry and the TBE have the same state. -/
def Line.Agrees (line : Line n) : Prop :=
  ∀ entry, line.entry = some entry → line.getState = entry.cacheState

private theorem Line.agrees_setState (line : Line n) (state : State) :
    (line.setState state).Agrees := by
  intro entry present
  obtain ⟨old, -, rfl⟩ := Option.map_eq_some_iff.mp present
  simp only [Line.getState, present]
  cases absent : line.tbe <;> simp [Line.setState, absent]

variable {event : Event}

/-- Every transition sets both states. -/
theorem agrees_of_trigger {input : Input n} {ctx after : Context σ n}
    (ran : (controller place input).trigger event ctx = .ok after) : after.line.Agrees := by
  obtain ⟨rule, last, -, -, rfl⟩ := Controller.trigger_eq_ok.mp ran
  exact Line.agrees_setState _ _

private theorem agrees_of_arrive {input : Input n} {ctx after : Context σ n}
    (handled : arrive place input ctx = .ok after) : after.line.Agrees := by
  cases input with
  | response msg =>
    simp only [arrive, responseNetworkIn, bind_eq_ok] at handled
    obtain ⟨line, -, event, -, ran⟩ := handled
    exact agrees_of_trigger ran
  | request msg =>
    simp only [arrive, requestNetworkIn, bind_eq_ok] at handled
    obtain ⟨⟨event, ctx⟩, -, ran⟩ := handled
    exact agrees_of_trigger ran
  | fromL0 msg =>
    simp only [arrive, messageBufferFromL0In, bind_eq_ok] at handled
    obtain ⟨⟨event, ctx⟩, -, ran⟩ := handled
    exact agrees_of_trigger ran
  | victim =>
    simp only [arrive, victimIn, bind_eq_ok] at handled
    obtain ⟨event, -, ran⟩ := handled
    exact agrees_of_trigger ran

private theorem agrees_invariant : (lineSystem σ n place).Invariant Line.Agrees where
  initial := by
    rintro line rfl entry present
    cases present
  preserved := by
    intro line event next _ transition
    simp only [lineSystem, TransitionSystem.ofExcept_step, Line.take, run_eq_ok] at transition
    obtain ⟨ctx, handled, rfl⟩ := transition
    exact agrees_of_arrive handled

/-! ## The victim -/

/-- The actions of the transitions for a victim. -/
def evictions : List (List Action) :=
  [[.stallAndWaitL0Queue], [.deallocateCacheBlock], [.forwardEvictionToL0Own],
    [.allocateTBE, .issuePUTX, .deallocateCacheBlock],
    [.allocateTBE, .issuePUTM, .deallocateCacheBlock]]

/-- The events of a victim. -/
def victimEvents : List Event :=
  [.l0InvalidateOwn, .l1Replacement, .l1ReplacementRset, .l1ReplacementWset]

variable {state : State}

private theorem evictions_table (listed : event ∈ victimEvents) :
    ∀ actions ∈ Rule.actionsOf transitions state event, actions ∈ evictions := by
  fin_cases listed <;> cases state <;> decide

variable {mgr : σ} {line : Line n}

variable {entry : Entry n}

/-- The manager lets written blocks leave the L1, and this is one. -/
def EvictsWritten (place : Place) (mgr : σ) : Prop :=
  (XactMgr.params σ).allowWriteSetL1CacheEvictions = true ∧
    XactMgr.checkWriteSignature mgr place.address = true

/-- The manager lets read blocks leave the L1, and this is one. -/
def EvictsRead (place : Place) (mgr : σ) : Prop :=
  (XactMgr.params σ).allowReadSetL1CacheEvictions = true ∧
    XactMgr.checkReadSignature mgr place.address = .ok true

/-- A victim for which the controller is prepared.  A line that waits for the answers to exclusive
data or for the load that downgraded the L0 never is, an invalid line that kept its place only
outside of the sets, and a shared one only outside of the write set. -/
structure Replaceable (place : Place) (mgr : σ) (state : State) : Prop where
  settled : state ∉ [.isx, .mmS]
  written : EvictsWritten place mgr → state ∉ [.i, .ss]
  read : ¬EvictsWritten place mgr → EvictsRead place mgr → state ≠ .i

/-- The event of a victim, by the signatures. -/
theorem victimEvent_cases (agrees : line.Agrees) (valid : line.entry = some entry)
    (requested : victimEvent place (⟨mgr, line, [], false⟩ : Context σ n) = .ok event) :
    (inL0Cache line.getState = true ∧ event = .l0InvalidateOwn) ∨
    (inL0Cache line.getState = false ∧ ((EvictsWritten place mgr ∧ event = .l1ReplacementWset) ∨
       (¬EvictsWritten place mgr ∧ EvictsRead place mgr ∧ event = .l1ReplacementRset) ∨
       (¬EvictsWritten place mgr ∧ ¬EvictsRead place mgr ∧ event = .l1Replacement))) := by
  have inL0 : line.maybeInL0 = inL0Cache line.getState := by
    simp only [Line.maybeInL0, valid, Option.any_some, agrees entry valid]
  simp only [victimEvent, inL0] at requested
  split at requested
  · next held => exact .inl ⟨held, (pure_eq_ok.mp requested).symm⟩
  · next free =>
    refine .inr ⟨by simpa using free, ?_⟩
    simp only [getReplacementEvent, Bool.and_eq_true] at requested
    split at requested
    · next written => exact .inl ⟨written, (pure_eq_ok.mp requested).symm⟩
    · next notWritten =>
      refine .inr ?_
      split at requested
      · next reads =>
        simp only [run_eq_ok] at requested
        obtain ⟨isReader, queried, rfl⟩ := requested
        cases isReader with
        | true => exact .inl ⟨notWritten, ⟨reads, queried⟩, rfl⟩
        | false => exact .inr ⟨notWritten, fun read => by simp [EvictsRead, queried] at read, rfl⟩
      · next kept =>
        exact .inr ⟨notWritten, fun read => kept read.1, (pure_eq_ok.mp requested).symm⟩

/-- The states outside of the L0 in which the replacements are defined. -/
theorem replacement_table (free : inL0Cache state = false) :
    ((Rule.actionsOf transitions state .l1Replacement).isSome = true ↔ state ∉ [.isx, .mmS]) ∧
    ((Rule.actionsOf transitions state .l1ReplacementRset).isSome = true ↔
      state ∉ [.isx, .mmS] ∧ state ≠ .i) ∧
    ((Rule.actionsOf transitions state .l1ReplacementWset).isSome = true ↔
      state ∉ [.isx, .mmS] ∧ state ∉ [.i, .ss]) := by
  revert free
  cases state <;> decide

/-- A line that the L0 may hold can always be asked for. -/
theorem invalidateOwn_table (held : inL0Cache state = true) :
    (Rule.actionsOf transitions state .l0InvalidateOwn).isSome = true ∧
      state ∉ [.isx, .mmS] ∧ state ∉ [.i, .ss] ∧ state ≠ .i := by
  revert held
  cases state <;> decide

private theorem actionsOf_victim_iff (agrees : line.Agrees) (valid : line.entry = some entry)
    (requested : victimEvent place (⟨mgr, line, [], false⟩ : Context σ n) = .ok event) :
    (Rule.actionsOf transitions line.getState event).isSome = true ↔
      Replaceable place mgr line.getState := by
  obtain ⟨held, rfl⟩ | ⟨free, choice⟩ := victimEvent_cases agrees valid requested
  · obtain ⟨defined, settled, written, read⟩ := invalidateOwn_table held
    exact iff_of_true defined ⟨settled, fun _ => written, fun _ _ => read⟩
  · obtain ⟨plain, rset, wset⟩ := replacement_table free
    obtain ⟨written, rfl⟩ | ⟨notWritten, read, rfl⟩ | ⟨notWritten, notRead, rfl⟩ := choice
    · rw [wset]
      constructor
      · rintro ⟨settled, kept⟩
        exact ⟨settled, fun _ => kept, fun notWritten => absurd written notWritten⟩
      · intro replaceable
        exact ⟨replaceable.settled, replaceable.written written⟩
    · rw [rset]
      constructor
      · rintro ⟨settled, kept⟩
        exact ⟨settled, fun written => absurd written notWritten, fun _ _ => kept⟩
      · intro replaceable
        exact ⟨replaceable.settled, replaceable.read notWritten read⟩
    · rw [plain]
      constructor
      · intro settled
        exact ⟨settled, fun written => absurd written notWritten, fun _ read => absurd read notRead⟩
      · exact Replaceable.settled

/-- The controller has a transition for the victim of a reachable line exactly when it is
replaceable, and then takes it. -/
theorem victim_defined_iff_replaceable (reachable : (lineSystem σ n place).Reachable line)
    (valid : line.entry.isSome = true) {event : Event}
    (requested : victimEvent place (⟨mgr, line, [], false⟩ : Context σ n) = .ok event) :
    ((controller place .victim : Controller _ _ _ (Context σ n)).defines line.getState event =
        true ↔ Replaceable place mgr line.getState) ∧
    ((∃ after, victimIn place (⟨mgr, line, [], false⟩ : Context σ n) = .ok after) ↔
      Replaceable place mgr line.getState) := by
  obtain ⟨entry, valid⟩ := Option.isSome_iff_exists.mp valid
  have agrees := agrees_invariant.of_reachable reachable
  have listed : event ∈ victimEvents := by
    obtain ⟨-, rfl⟩ | ⟨-, ⟨-, rfl⟩ | ⟨-, -, rfl⟩ | ⟨-, -, rfl⟩⟩ :=
      victimEvent_cases agrees valid requested <;> decide
  have defined := actionsOf_victim_iff agrees valid requested
  rw [Rule.actionsOf, Option.isSome_map] at defined
  refine ⟨defined, ?_⟩
  rw [← defined]
  constructor
  · rintro ⟨after, handled⟩
    simp only [victimIn, requested, ok_bind] at handled
    obtain ⟨rule, -, found, -, -⟩ := Controller.trigger_eq_ok.mp handled
    exact Option.isSome_iff_exists.mpr ⟨rule, found⟩
  · intro found
    simp only [victimIn, requested, ok_bind]
    obtain ⟨actions, found⟩ : ∃ actions,
        Rule.actionsOf transitions line.getState event = some actions := by
      rwa [← Option.isSome_iff_exists, Rule.actionsOf, Option.isSome_map]
    have eviction := evictions_table listed actions found
    obtain ⟨state, triggered⟩ :=
      @Controller.trigger_of_actions _ _ _ _ _ _ (controller place .victim)
      event (⟨mgr, line, [], false⟩ : Context σ n) actions found
    rw [triggered]
    fin_cases eviction <;>
      simp [controller, perform, Context.issueWriteback, Context.setTBE, Context.send,
        Context.setEntry, Line.getEntry, valid]

/-! ### Victims without a transition -/

/-- The load of the first core makes its line wait. -/
theorem reachable_loadLine :
    (lineSystem (TransactionInterfaceManager Core.logTM 1) 1 firstL1).Reachable loadLine := by
  have taken : Line.take firstL1 .invalid
      (idleMgr, .fromL0 (.gets plainLoad.toRemoteRequest)) = .ok loadLine := rfl
  exact .step (.of_initial rfl) taken

/-- A victim whose load waits does not stop the controller. -/
theorem victim_defined_iff_replaceable_loadLine : loadLine.entry.isSome = true ∧
      ∃ after, victimIn firstL1 ⟨idleMgr, loadLine, [], false⟩ = .ok after :=
  ⟨rfl, (victim_defined_iff_replaceable reachable_loadLine rfl rfl).2.mpr
    ⟨by decide, fun _ => by decide, fun _ _ => by decide⟩⟩

/-- A victim whose event has no transition stops the controller. -/
theorem victimIn_undefined
    (requested : victimEvent place (⟨mgr, line, [], false⟩ : Context σ n) = .ok event)
    (missing : (Rule.find transitions line.getState event).isSome = false) :
    victimIn place (⟨mgr, line, [], false⟩ : Context σ n) = panicWith "Invalid transition" := by
  simp only [victimIn, requested, ok_bind]
  exact Controller.trigger_of_undefined missing

/-- The line that waits for the two answers once the exclusive data has arrived. -/
def exclusiveLine : Line 1 :=
  ⟨some ⟨.isx, fun _ => 0, false⟩, some ⟨.isx, fun _ => 0, false, 2, .empty, true⟩, {}⟩

private theorem reachable_exclusiveLine :
    (lineSystem (TransactionInterfaceManager Core.logTM 1) 1 firstL1).Reachable exclusiveLine := by
  have taken : Line.take firstL1 loadLine
      (idleMgr, .response (.dataExclusive (-2) (fun _ => 0) false true)) = .ok exclusiveLine := rfl
  exact reachable_loadLine.step taken

/-- The L1 of the first core and the block at 64. -/
def storeL1 : Place := ⟨⟨.l1Cache, 0⟩, 64⟩

/-- A store that misses in the L1, finds a sharer in the L2 and is nacked by it after the data has
arrived. -/
def nackedStore : List (Input 64) :=
  [.fromL0 (.getx MissCheck.storeMiss.toRemoteRequest),
   .response (.data l2Bank (-1) (fun _ => 0) false false),
   .response (.nack 1 (checkNack ⟨⟨.l1Cache, 1⟩, 64⟩ 7 false))]

/-- A line that waits for the answers to exclusive data, and a line of the read set that a nacked
store has left invalid in its place: the replacement requested for them has no transition. -/
theorem victim_without_transition :
    (∃ line, (lineSystem (TransactionInterfaceManager Core.logTM 1) 1 firstL1).Reachable line ∧
      line.entry.isSome = true ∧ line.getState = .isx ∧
      victimEvent firstL1 ⟨idleMgr, line, [], false⟩ = .ok .l1Replacement ∧
      victimIn firstL1 ⟨idleMgr, line, [], false⟩ = panicWith "Invalid transition") ∧
    ∃ (core : Core MissCheck.logTMReadSets 64) (line : Line 64),
      (Core.system MissCheck.logTMReadSets 64).Reachable core ∧
      (lineSystem (TransactionInterfaceManager MissCheck.logTMReadSets 64) 64 storeL1).Reachable
        line ∧
      line.entry.isSome = true ∧ line.getState = .i ∧
      victimEvent storeL1 ⟨core.mgr, line, [], false⟩ = .ok .l1ReplacementRset ∧
      victimIn storeL1 ⟨core.mgr, line, [], false⟩ = panicWith "Invalid transition" := by
  constructor
  · refine ⟨exclusiveLine, reachable_exclusiveLine, rfl, rfl, rfl, ?_⟩
    exact victimIn_undefined rfl (by decide)
  · obtain ⟨core, reachable, line, run, valid, invalid, requested⟩ := Core.exists_reachable
      (P := fun core : Core MissCheck.logTMReadSets 64 => ∃ line,
        (nackedStore.map fun input => (core.mgr, input)).foldlM (Line.take storeL1) .invalid =
          .ok line ∧ line.entry.isSome = true ∧ line.getState = .i ∧
        victimEvent storeL1 ⟨core.mgr, line, [], false⟩ = .ok .l1ReplacementRset)
      MissCheck.loaderEvents 0 (by decide +kernel)
    refine ⟨core, line, reachable, ⟨_, _, rfl, .of_foldlM run⟩, valid, invalid, requested, ?_⟩
    exact victimIn_undefined requested (by rw [invalid]; decide)

end Gem5.Ruby.L1Cache
