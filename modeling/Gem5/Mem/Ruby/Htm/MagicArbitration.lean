import Gem5.Mem.Ruby.Htm.CoreSystem

/-!
# Magic commit arbitration of any number of cores

Under lazy versioning and lazy conflict detection the magic policy compares a new
committer with the committers that are validated already.  The machine below runs any
number of cores and makes that check with the state of the other cores.  The check
covers both directions, and a validated transaction that adds no block to its sets
stays conflict free with every later one.
-/

namespace Gem5.Ruby

open Foundation TransactionInterfaceManager

variable {params : HTMParams} {n count : Nat}

/-- `hasConflictWith` of the interface manager. -/
def TransactionInterfaceManager.hasConflictWith (mgr other : TransactionInterfaceManager params n) :
    Checked Bool :=
  mgr.isolation.hasConflictWith n other.isolation other.transactionLevel
    params.preciseReadSetTracking

/-- The event with the outcome of the conflict check that the rest of the machine determines. -/
def CoreEvent.withCommitter (committer : Checked Bool) : CoreEvent n → CoreEvent n
  | .command cmd pkt _ issues => .command cmd pkt committer issues
  | event => event

/-- Lazy versioning and lazy conflict detection with magic arbitration. -/
structure IsMagic (params : HTMParams) : Prop where
  lazyVm : params.lazyVm = true
  lazyCd : params.eagerCd = false
  magic : params.lazyArbitration = .magic

/-- The only life cycle step that validates a transaction is a commit attempt whose check against
the other committers found no conflict. -/
theorem Core.LifeCycle.validates {core : Core params n} {event : CoreEvent n}
    {mgr : TransactionInterfaceManager params n} (cycle : core.LifeCycle event mgr)
    (mode : IsMagic params) (before : core.mgr.arbiter.validated = false)
    (validated : mgr.arbiter.validated = true) :
    ∃ pkt issues, event = .command .commit pkt (.ok false) issues ∧
      mgr.isolation = core.mgr.isolation := by
  cases cycle with
  | start begun =>
    obtain ⟨-, -, -, -, -, -, _, _, rfl, -, -⟩ := beginTransaction_ok begun
    simp [before] at validated
  | commit _ _ _ done =>
    obtain ⟨-, -, _, _, _, _, _, _, rfl, -, -, -, -, -, lazyLazy⟩ := commitTransaction_ok done
    simp [(lazyLazy mode.lazyVm mode.lazyCd).2] at validated
  | initiate _ _ done =>
    obtain rfl := initiateCommitTransaction_validates mode.magic done before validated
    obtain ⟨_, _, rfl, -⟩ := initiateCommitTransaction_ok done
    exact ⟨_, _, rfl, rfl⟩
  | abort _ done =>
    obtain ⟨_, _, _, _, _, _, rfl, -, lazyLazy, -⟩ := abortTransaction_lazy mode.lazyVm done
    simp [(lazyLazy mode.lazyCd).2.1] at validated
  | unrolled done =>
    simp only [endLogUnroll, run_eq_ok, mode.lazyVm] at done
    simp at done

/-- The cores of a machine. -/
abbrev Machine (params : HTMParams) (n count : Nat) :=
  Fin count → Core params n

namespace Machine

/-- Whether the new committer conflicts with an ongoing one, in either direction. -/
def conflictsWithOngoing (newCommitter ongoing : Core params n) : Checked Bool := do
  let writes ← ongoing.mgr.hasConflictWith newCommitter.mgr
  if writes then return true else newCommitter.mgr.hasConflictWith ongoing.mgr

/-- The loop of `initiateValidateTransaction` over the managers of the machine. -/
def conflictingAmong (cores : Machine params n count) (proc : Fin count) :
    List (Fin count) → Checked Bool
  | [] => return false
  | other :: rest =>
    if (cores other).mgr.arbiter.validated then do
      let conflict ← conflictsWithOngoing (cores proc) (cores other)
      let later ← cores.conflictingAmong proc rest
      return conflict || later
    else cores.conflictingAmong proc rest

/-- `existsRemoteConflictingCommitter`. -/
def existsRemoteConflictingCommitter (cores : Machine params n count) (proc : Fin count) :
    Checked Bool :=
  cores.conflictingAmong proc (List.finRange count)

/-- One event of one core. -/
def take (cores : Machine params n count) (event : Fin count × CoreEvent n) :
    Checked (Machine params n count) := do
  let core ← (cores event.1).take
    (event.2.withCommitter (cores.existsRemoteConflictingCommitter event.1))
  return Function.update cores event.1 core

/-- The runs of a machine. -/
def system (params : HTMParams) (n count : Nat) :
    TransitionSystem (Machine params n count) (Fin count × CoreEvent n) :=
  .ofExcept (fun cores => ∀ proc, ∃ log, log.isEmpty = false ∧
    cores proc = Core.start params n proc log) take

variable {cores next : Machine params n count} {proc other : Fin count}

private theorem conflictingAmong_false {others : List (Fin count)}
    (checked : cores.conflictingAmong proc others = .ok false) (member : other ∈ others)
    (validated : (cores other).mgr.arbiter.validated = true) :
    conflictsWithOngoing (cores proc) (cores other) = .ok false := by
  induction others with
  | nil => simp at member
  | cons head rest ih =>
    unfold conflictingAmong at checked
    split at checked
    · simp only [run_eq_ok, Bool.or_eq_false_iff] at checked
      obtain ⟨_, first, _, later, rfl, rfl⟩ := checked
      rcases List.mem_cons.mp member with rfl | member
      · exact first
      · exact ih later member
    · next running =>
      rcases List.mem_cons.mp member with rfl | member
      · exact absurd validated running
      · exact ih checked member

/-- What a step of the machine does: one core takes one admitted event. -/
theorem take_ok {event : Fin count × CoreEvent n} (taken : cores.take event = .ok next) :
    ∃ core, (cores event.1).Admits
        (event.2.withCommitter (cores.existsRemoteConflictingCommitter event.1)) ∧
      (cores event.1).step
        (event.2.withCommitter (cores.existsRemoteConflictingCommitter event.1)) = .ok core ∧
      next = Function.update cores event.1 core := by
  simp only [take, Core.take, run_eq_ok] at taken
  obtain ⟨core, ⟨admitted, stepped⟩, rfl⟩ := taken
  exact ⟨core, admitted, stepped, rfl⟩

/-- A validated transaction adds no block to its read set or write buffer. -/
def ValidatedAddsNoBlock (cores : Machine params n count) (event : Fin count × CoreEvent n) :
    Prop :=
  (cores event.1).mgr.arbiter.validated = true → ∀ next, cores.take event = .ok next →
    (cores event.1).mgr.isolation.AddsNoBlock (next event.1).mgr.isolation

/-- Sound cores whose validated transactions are pairwise conflict free. -/
structure Arbitrated (cores : Machine params n count) : Prop where
  sound : ∀ proc, (cores proc).mgr.Sound
  free : ∀ proc other, proc ≠ other → (cores proc).mgr.arbiter.validated = true →
    (cores other).mgr.arbiter.validated = true →
      (cores proc).mgr.isolation.ConflictFree (cores other).mgr.isolation

/-- After a step of `proc` that leaves it validated, it is conflict free with every other validated
core, in both directions. -/
theorem Arbitrated.stepped (arbitrated : cores.Arbitrated) (mode : IsMagic params)
    {event : Fin count × CoreEvent n}
    (keeps : cores.ValidatedAddsNoBlock event) (taken : cores.take event = .ok next)
    (distinct : event.1 ≠ other) (validated : (next event.1).mgr.arbiter.validated = true)
    (otherValidated : (cores other).mgr.arbiter.validated = true) :
    (next event.1).mgr.isolation.ConflictFree (cores other).mgr.isolation ∧
      (cores other).mgr.isolation.ConflictFree (next event.1).mgr.isolation := by
  cases before : (cores event.1).mgr.arbiter.validated with
  | true =>
    have kept := keeps before next taken
    exact
      ⟨(arbitrated.free _ _ distinct before otherValidated).mono kept (.refl _),
       (arbitrated.free _ _ distinct.symm otherValidated before).mono (.refl _) kept⟩
  | false =>
    obtain ⟨core, admitted, stepped, rfl⟩ := take_ok taken
    rw [Function.update_self] at validated ⊢
    rcases Core.step_cases (arbitrated.sound _) admitted stepped with call | cycle
    · have same : core.mgr.arbiter = (cores event.1).mgr.arbiter :=
        congrArg Control.arbiter call.control
      simp [same, before] at validated
    -- the only step that validates a transaction is a commit attempt
    obtain ⟨pkt, issues, attempt, same⟩ := cycle.validates mode before validated
    have checked : cores.existsRemoteConflictingCommitter event.1 = .ok false := by
      cases kind : event.2 with
      | command cmd pkt committer issues =>
        simp only [kind, CoreEvent.withCommitter, CoreEvent.command.injEq] at attempt
        exact attempt.2.2.1
      | _ => simp [kind, CoreEvent.withCommitter] at attempt
    have free := conflictingAmong_false checked (List.mem_finRange other) otherValidated
    simp only [conflictsWithOngoing, bind_eq_ok] at free
    obtain ⟨writes, ongoing, new⟩ := free
    split at new
    · simp at new
    next none =>
    rw [Bool.not_eq_true] at none
    subst none
    rw [same]
    exact
      ⟨TransactionIsolationManager.conflictFree_of_hasConflictWith
         (arbitrated.sound event.1).tracked.buffered new,
       TransactionIsolationManager.conflictFree_of_hasConflictWith
         (arbitrated.sound other).tracked.buffered ongoing⟩

/-- Magic arbitration keeps the validated transactions pairwise conflict free. -/
theorem arbitrated_invariant (mode : IsMagic params) :
    ((system params n count).restrict ValidatedAddsNoBlock).Invariant Arbitrated where
  initial := by
    intro cores initial
    refine ⟨fun proc => ?_, fun proc other _ validated => ?_⟩
    · obtain ⟨log, setUp, start⟩ := initial proc
      rw [start]
      exact .init setUp
    · obtain ⟨log, -, start⟩ := initial proc
      rw [start] at validated
      simp [Core.start, init] at validated
  preserved := by
    rintro cores event next arbitrated ⟨keeps, taken⟩
    have taken : cores.take event = .ok next := taken
    obtain ⟨core, admitted, stepped, same⟩ := take_ok taken
    have elsewhere : ∀ other, other ≠ event.1 → next other = cores other := by
      intro other distinct
      rw [same, Function.update_of_ne distinct]
    refine ⟨fun proc => ?_, fun proc other distinct validated otherValidated => ?_⟩
    · by_cases actor : proc = event.1
      · subst actor
        rw [same, Function.update_self]
        exact Core.sound_invariant.preserved (arbitrated.sound _)
          (Core.system_step.mpr ⟨admitted, stepped⟩)
      · rw [elsewhere proc actor]
        exact arbitrated.sound proc
    · -- The pair contains the core that took the step, as the first or the second, or not at all.
      by_cases first : proc = event.1
      · subst first
        rw [elsewhere other distinct.symm] at otherValidated ⊢
        exact (arbitrated.stepped mode keeps taken distinct validated otherValidated).1
      · rw [elsewhere proc first] at validated ⊢
        by_cases second : other = event.1
        · subst second
          exact (arbitrated.stepped mode keeps taken (Ne.symm first) otherValidated validated).2
        · rw [elsewhere other second] at otherValidated ⊢
          exact arbitrated.free proc other distinct validated otherValidated

/-- In every run in which validated transactions add no block, any two transactions validated at the
same time are conflict free in both directions. -/
theorem validated_conflictFree (mode : IsMagic params)
    (reachable : ((system params n count).restrict ValidatedAddsNoBlock).Reachable cores)
    (distinct : proc ≠ other) (validated : (cores proc).mgr.arbiter.validated = true)
    (otherValidated : (cores other).mgr.arbiter.validated = true) :
    (cores proc).mgr.isolation.ConflictFree (cores other).mgr.isolation ∧
      (cores other).mgr.isolation.ConflictFree (cores proc).mgr.isolation := by
  have arbitrated := (arbitrated_invariant mode).of_reachable reachable
  exact ⟨arbitrated.free _ _ distinct validated otherValidated,
    arbitrated.free _ _ distinct.symm otherValidated validated⟩

/-- Each of two cores buffers a store to a block of its own and asks for validation. -/
def twoCommitters : List (Fin 2 × CoreEvent 64) :=
  [(0, .command .start ⟨1, 1, false⟩ (.ok false) fun _ => false),
   (0, .request 1 ⟨64, 8, true, fun _ => 7⟩),
   (1, .command .start ⟨1, 1, false⟩ (.ok false) fun _ => false),
   (1, .request 1 ⟨128, 8, true, fun _ => 9⟩),
   (0, .command .commit ⟨1, 1, false⟩ (.ok false) fun _ => false),
   (1, .command .commit ⟨1, 1, false⟩ (.ok false) fun _ => false)]

/-- Both are validated at the same time, and conflict free. -/
theorem validated_conflictFree_twoCommitters : ∃ cores, (system lazyLazy 64 2).Reachable cores ∧
      (cores 0).mgr.isolation.writeSetInWriteBuffer.contains 64 = true ∧
      (cores 0).mgr.isolation.ConflictFree (cores 1).mgr.isolation ∧
      (cores 1).mgr.isolation.ConflictFree (cores 0).mgr.isolation := by
  obtain ⟨cores, run, buffered, first, second⟩ : ∃ cores, twoCommitters.foldlM
      (TransitionSystem.checkedStep (fun cores event => !(cores event.1).mgr.arbiter.validated)
        (.assertion "validated") take) (fun proc => Core.start lazyLazy 64 proc Core.pageLog) =
          .ok cores ∧ (cores 0).mgr.isolation.writeSetInWriteBuffer.contains 64 = true ∧
      (cores 0).mgr.arbiter.validated = true ∧ (cores 1).mgr.arbiter.validated = true := by
    decide +kernel
  have reachable : ((system lazyLazy 64 2).restrict ValidatedAddsNoBlock).Reachable cores :=
    ⟨_, _, fun proc => ⟨Core.pageLog, by decide, rfl⟩,
      .of_checked_foldlM (fun cores event fresh validated => by simp [validated] at fresh) run⟩
  have free := validated_conflictFree ⟨rfl, rfl, rfl⟩ reachable
    (show (0 : Fin 2) ≠ 1 by decide) first second
  exact ⟨cores, reachable.of_restrict, buffered, free⟩

end Machine

end Gem5.Ruby
