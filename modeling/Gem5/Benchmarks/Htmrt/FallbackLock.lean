import Gem5.Benchmarks.Htmrt.AbortHandler
import Gem5.Foundation.Transition

/-!
# The fallback lock and the power flag

Any number of threads run `beginTransaction`, a body and `commitTransaction`, one shared
access a step.  `Pc` has a program point for each access to the fallback lock, the
pre-fallback lock and the power flag; between two of them a thread works on its own
variables.  Hardware transactions are strongly isolated: the lock is written only while
no other thread runs a transaction that has read it.
-/

namespace Gem5.Htmrt

open Foundation

/-- Where a thread is.  `held` tells that its `beginTransaction` returned with the lock. -/
inductive Pc where
  /-- Before `beginTransaction`. -/
  | outside
  /-- At the top of the loop. -/
  | loop
  /-- In the transaction, before it reads the lock. -/
  | subscribe
  /-- In the transaction, which found the lock taken. -/
  | cancel
  /-- After `beginTransaction`. -/
  | body (held : Bool)
  /-- Before the `htm_commit` of `commitTransaction`. -/
  | committing (held : Bool)
  /-- Before the `spinlock_unlock` of `commitTransaction`. -/
  | unlocking (held : Bool)
  /-- After `htm_commit`. -/
  | committed
  /-- The attempt has failed. -/
  | failed
  /-- In `spinlock_whileIsLocked`. -/
  | waiting
  /-- Before the retry in power mode. -/
  | handling
  /-- Before the rules for the count. -/
  | accounting
  /-- Before the choice of the next mode. -/
  | choosing
  /-- At the end of an iteration. -/
  | pausing
  /-- After the loop. -/
  | leaving
  /-- In `spinlock_prefb_lock`. -/
  | acquiringPre
  /-- In `spinlock_lock`. -/
  | acquiring
  /-- Before `spinlock_prefb_unlock`. -/
  | releasingPre
  deriving DecidableEq, Repr

/-- In a hardware transaction. -/
def Pc.inTransaction : Pc → Bool
  | .subscribe | .cancel | .body false | .committing false | .unlocking false => true
  | _ => false

/-- In a transaction that has read the lock. -/
def Pc.hasReadLock : Pc → Bool
  | .cancel | .body false | .committing false | .unlocking false => true
  | _ => false

/-- In a transaction that found the lock free. -/
def Pc.isSubscribed : Pc → Bool
  | .body false | .committing false => true
  | _ => false

/-- From `spinlock_lock` to `spinlock_unlock`. -/
def Pc.holdsLock : Pc → Bool
  | .releasingPre | .body true | .unlocking true => true
  | _ => false

/-- The words that the threads share. -/
structure Locks (Thread : Type) where
  fallbackLock : Bool := false
  preFallbackLock : Bool := false
  powerFlag : Option Thread := none
  deriving DecidableEq, Repr

/-- A thread in the runtime. -/
structure ThreadState where
  pc : Pc := .outside
  locals : Locals := {}
  deriving DecidableEq, Repr

section Thread

variable {Thread : Type} [DecidableEq Thread] (handler : Handler) (htmMaxRetries : Nat)

/-- The choice of the next mode, with the compare-and-swap on the power flag. -/
def chooseStep (self : Thread) (locks : Locks Thread) (locals : Locals) :
    Checked (Locks Thread × ThreadState) := do
  let next ← locals.chooseMode handler htmMaxRetries locks.powerFlag.isNone
  let swaps := locals.triesPower handler htmMaxRetries && locks.powerFlag.isNone
  return ({ locks with powerFlag := if swaps then some self else locks.powerFlag },
    ⟨.pausing, next⟩)

/-- The next shared access of a thread. -/
def advance (self : Thread) (locks : Locks Thread) (thread : ThreadState) :
    Checked (Locks Thread × ThreadState) :=
  let locals := thread.locals
  match thread.pc with
  | .outside => return (locks, ⟨.loop, {}⟩)
  | .loop =>
    return (locks, ⟨.subscribe, locals.attempt handler (locks.powerFlag = some self)⟩)
  | .subscribe => return (locks, ⟨if locks.fallbackLock then .cancel else .body false, locals⟩)
  | .cancel => return (locks, thread)
  | .body held =>
    return (locks, ⟨if locks.fallbackLock then .unlocking held else .committing held, locals⟩)
  | .unlocking _ => return ({ locks with fallbackLock := false }, ⟨.outside, locals⟩)
  | .committing held => do
    assertThat (held = false) "htm_commit outside a transaction"
    return (locks, ⟨.committed, locals⟩)
  | .committed =>
    -- the owner of the power flag releases it right after its commit
    let isOwner := handler.isPowerTm && locks.powerFlag = some self
    return ({ locks with powerFlag := if isOwner then none else locks.powerFlag },
      ⟨.outside, locals⟩)
  | .failed => return (locks, ⟨.waiting, locals.excuseConflict locks.fallbackLock⟩)
  | .waiting => return (locks, ⟨if locks.fallbackLock then .waiting else .handling, locals⟩)
  | .handling =>
    match locals.retryOnPower htmMaxRetries with
    | (true, next) => return (locks, ⟨.loop, next⟩)
    | (false, next) => return (locks, ⟨.accounting, next⟩)
  | .accounting => do
    let next ← locals.account handler htmMaxRetries locks.powerFlag.isSome
    return (locks, ⟨.choosing, next⟩)
  | .choosing => chooseStep handler htmMaxRetries self locks locals
  | .pausing =>
    if handler.isTwoPhase && locks.preFallbackLock then return (locks, thread)
    else return (locks, ⟨if locals.retryWithLock then .leaving else .loop, locals⟩)
  | .leaving =>
    let next := ⟨if handler.isTwoPhase then .acquiringPre else .acquiring, locals⟩
    if handler.isPowerTm && locks.powerFlag = some self then do
      locals.assertPowerOver htmMaxRetries
      return ({ locks with powerFlag := none }, next)
    else return (locks, next)
  | .acquiringPre =>
    if locks.preFallbackLock then return (locks, thread)
    else return ({ locks with preFallbackLock := true }, ⟨.acquiring, locals⟩)
  | .acquiring =>
    if locks.fallbackLock then return (locks, thread)
    else return ({ locks with fallbackLock := true },
      ⟨if handler.isTwoPhase then .releasingPre else .body true, locals⟩)
  | .releasingPre => return ({ locks with preFallbackLock := false }, ⟨.body true, locals⟩)

end Thread

/-- A thread takes its next shared access, or its transaction aborts. -/
inductive Action where
  | advance
  | abort (context : X86.FailureContext) (cause : HtmFailureFaultCause)
  deriving DecidableEq, Repr

/-- All threads. -/
structure Runtime (Thread : Type) where
  locks : Locks Thread := {}
  threads : Thread → ThreadState := fun _ => {}

namespace Runtime

variable {Thread : Type} [DecidableEq Thread] (handler : Handler) (htmMaxRetries : Nat)

/-- A step of one thread. -/
def step (runtime : Runtime Thread) : Thread × Action → Checked (Runtime Thread)
  | (self, .advance) => do
    let (locks, thread) ←
      Htmrt.advance handler htmMaxRetries self runtime.locks (runtime.threads self)
    return ⟨locks, Function.update runtime.threads self thread⟩
  | (self, .abort context cause) => do
    let status ← X86.abortStatus context cause
    let thread : ThreadState := ⟨.failed, { (runtime.threads self).locals with ret := status }⟩
    return ⟨runtime.locks, Function.update runtime.threads self thread⟩

/-- The thread is about to write the fallback lock. -/
def writesLock (runtime : Runtime Thread) (self : Thread) : Bool :=
  match (runtime.threads self).pc with
  | .acquiring => !runtime.locks.fallbackLock
  | .unlocking _ => true
  | _ => false

/-- The failures of a transaction: a conflict, as which a cancel because of the lock is shown too, a
capacity abort, and a cancel with the default code. -/
def IsReturned (context : X86.FailureContext) (cause : HtmFailureFaultCause) : Prop :=
  getIsaVisibleHtmFailureCause cause = .ok .memory ∨
  getIsaVisibleHtmFailureCause cause = .ok .size ∨
  (getIsaVisibleHtmFailureCause cause = .ok .explicit ∧ context.abortReason.setWidth 8 = 0xfe#8)

instance (context : X86.FailureContext) (cause : HtmFailureFaultCause) :
    Decidable (IsReturned context cause) := by
  unfold IsReturned
  infer_instance

/-- What the hardware allows.  A transaction that found the lock taken goes on with its abort. -/
def Admits (runtime : Runtime Thread) : Thread × Action → Prop
  | (self, .advance) => (runtime.threads self).pc ≠ .cancel ∧ (runtime.writesLock self = true →
      ∀ other, other ≠ self → (runtime.threads other).pc.hasReadLock = false)
  | (self, .abort context cause) =>
    (runtime.threads self).pc.inTransaction = true ∧ IsReturned context cause

/-- The runs of the threads. -/
def system : TransitionSystem (Runtime Thread) (Thread × Action) :=
  (TransitionSystem.ofExcept (· = {}) (step handler htmMaxRetries)).restrict Admits

/-- No transaction is cancelled by its own program while its thread owns the power flag. -/
def PowerNotCancelled (runtime : Runtime Thread) : Thread × Action → Prop
  | (_, .advance) => True
  | (self, .abort _ cause) => getIsaVisibleHtmFailureCause cause = .ok .explicit →
    runtime.locks.powerFlag ≠ some self

end Runtime

section Thread

variable {Thread : Type} [DecidableEq Thread] {handler : Handler} {htmMaxRetries : Nat}
  {self : Thread} {locks nextLocks : Locks Thread} {thread next : ThreadState}

/-- What a step of a thread does to the lock. -/
inductive LockMove (locks nextLocks : Locks Thread) (pc nextPc : Pc) : Prop where
  | kept (same : nextLocks.fallbackLock = locks.fallbackLock)
      (holds : nextPc.holdsLock = pc.holdsLock)
      (subscribes : nextPc.isSubscribed = true → locks.fallbackLock = false)
  | acquired (from_ : pc = .acquiring) (free : locks.fallbackLock = false)
      (taken : nextLocks.fallbackLock = true) (holds : nextPc.holdsLock = true)
      (outside : nextPc.isSubscribed = false)
  | released (held : Bool) (from_ : pc = .unlocking held)
      (freed : nextLocks.fallbackLock = false) (holds : nextPc = .outside)

omit [DecidableEq Thread] in
/-- A step that leaves the lock alone and reaches a point outside the critical section. -/
theorem LockMove.elsewhere {pc nextPc : Pc} (same : nextLocks.fallbackLock = locks.fallbackLock)
    (before : pc.holdsLock = false) (holds : nextPc.holdsLock = false)
    (subscribed : nextPc.isSubscribed = false) : LockMove locks nextLocks pc nextPc :=
  .kept same (holds.trans before.symm) (by simp [subscribed])

/-- The lock changes by `spinlock_lock` and `spinlock_unlock` only. -/
theorem LockMove.of_advance
    (subscribed : thread.pc.isSubscribed = true → locks.fallbackLock = false)
    (holds : thread.pc.holdsLock = true → locks.fallbackLock = true)
    (advanced : advance handler htmMaxRetries self locks thread = .ok (nextLocks, next)) :
    LockMove locks nextLocks thread.pc next.pc := by
  obtain ⟨pc, locals⟩ := thread
  cases pc
  all_goals simp only [advance, chooseStep, run_eq_ok, Prod.mk.injEq] at advanced
  case acquiring =>
    split at advanced
    · obtain ⟨rfl, rfl⟩ := Prod.mk.inj (pure_eq_ok.mp advanced)
      exact .elsewhere rfl rfl rfl rfl
    · next free =>
      obtain ⟨rfl, rfl⟩ := Prod.mk.inj (pure_eq_ok.mp advanced)
      refine .acquired rfl (by simpa using free) rfl ?_ ?_ <;> split <;> rfl
  case unlocking held =>
    obtain ⟨rfl, rfl⟩ := advanced
    exact .released held rfl rfl rfl
  case subscribe =>
    obtain ⟨rfl, rfl⟩ := advanced
    split
    · exact .elsewhere rfl rfl rfl rfl
    · next free => exact .kept rfl rfl fun _ => by simpa using free
  case body held =>
    obtain ⟨rfl, rfl⟩ := advanced
    cases held
    · have free := subscribed rfl
      exact .kept rfl (by simp [free, Pc.holdsLock]) fun _ => free
    · have taken := holds rfl
      exact .kept rfl (by simp [taken, Pc.holdsLock]) (by simp [taken, Pc.isSubscribed])
  case releasingPre =>
    obtain ⟨rfl, rfl⟩ := advanced
    exact .kept rfl rfl (by simp [Pc.isSubscribed])
  case committing held =>
    obtain ⟨-, rfl, rfl⟩ := advanced
    exact .elsewhere rfl (by cases held <;> rfl) rfl rfl
  case accounting | choosing =>
    obtain ⟨_, -, rfl, rfl⟩ := advanced
    exact .elsewhere rfl rfl rfl rfl
  case handling | acquiringPre | pausing =>
    split at advanced
    all_goals
      obtain ⟨rfl, rfl⟩ := Prod.mk.inj (pure_eq_ok.mp advanced)
      refine .elsewhere rfl rfl ?_ ?_ <;> (try split) <;> rfl
  case leaving =>
    split at advanced
    · simp only [run_eq_ok, Prod.mk.injEq] at advanced
      obtain ⟨_, -, rfl, rfl⟩ := advanced
      refine .elsewhere rfl rfl ?_ ?_ <;> split <;> rfl
    · obtain ⟨rfl, rfl⟩ := Prod.mk.inj (pure_eq_ok.mp advanced)
      refine .elsewhere rfl rfl ?_ ?_ <;> split <;> rfl
  all_goals
    obtain ⟨rfl, rfl⟩ := advanced
    refine .elsewhere rfl rfl ?_ ?_ <;> (try split) <;> rfl

/-- A thread takes the power flag only if it is free and gives up only its own. -/
theorem powerFlag_advance {other : Thread} (different : other ≠ self)
    (advanced : advance handler htmMaxRetries self locks thread = .ok (nextLocks, next)) :
    nextLocks.powerFlag = some other ↔ locks.powerFlag = some other := by
  obtain ⟨pc, locals⟩ := thread
  cases pc
  all_goals simp only [advance, chooseStep, run_eq_ok, Prod.mk.injEq] at advanced
  case choosing =>
    obtain ⟨_, -, rfl, -⟩ := advanced
    dsimp only
    split
    · next swaps =>
      rw [Bool.and_eq_true, Option.isNone_iff_eq_none] at swaps
      simp [swaps.2, different.symm]
    · exact Iff.rfl
  case committed =>
    obtain ⟨rfl, -⟩ := advanced
    dsimp only
    split
    · next owner =>
      rw [Bool.and_eq_true, decide_eq_true_eq] at owner
      simp [owner.2, different.symm]
    · exact Iff.rfl
  case leaving =>
    split at advanced
    · next owner =>
      rw [Bool.and_eq_true, decide_eq_true_eq] at owner
      simp only [run_eq_ok, Prod.mk.injEq] at advanced
      obtain ⟨_, -, rfl, -⟩ := advanced
      simp [owner.2, different.symm]
    · obtain ⟨rfl, -⟩ := Prod.mk.inj (pure_eq_ok.mp advanced)
      exact Iff.rfl
  case acquiring | acquiringPre | pausing | handling =>
    split at advanced
    all_goals
      obtain ⟨rfl, -⟩ := Prod.mk.inj (pure_eq_ok.mp advanced)
      exact Iff.rfl
  case committing =>
    obtain ⟨-, rfl, -⟩ := advanced
    exact Iff.rfl
  case accounting =>
    obtain ⟨_, -, rfl, -⟩ := advanced
    exact Iff.rfl
  all_goals
    obtain ⟨rfl, -⟩ := advanced
    exact Iff.rfl

/-- A status that the handler can meet; an owner of the power flag is not cancelled. -/
structure Reported (owns : Bool) (status : BitVec 64) : Prop where
  enabled : htmAbortCauseDisabled status = false
  explicit : htmAbortCauseExplicit status = true →
    owns = false ∧ htmAbortCodeIsDefault (htmAbortCauseExplicitCode status) = true

/-- The retries in power mode are over. -/
def Locals.PowerOver (htmMaxRetries : Nat) (locals : Locals) : Prop :=
  htmMaySucceedOnRetry locals.ret = false ∨
    (locals.retryWithLock = true ∧ htmMaxRetries < locals.nRetriesPowerMode)

/-- What holds of a thread at each program point; `owns` tells that it owns the power flag. -/
def Expected (htmMaxRetries : Nat) (owns : Bool) (locals : Locals) : Pc → Prop
  | .outside | .acquiringPre | .acquiring | .releasingPre | .body true | .unlocking true =>
    owns = false
  | .loop => locals.retryWithLock = false
  | .subscribe | .cancel | .body false | .committing false =>
    locals.retryWithLock = false ∧ locals.txExecOnPower = owns
  | .committing true | .unlocking false => False
  | .committed => True
  | .failed | .waiting | .handling =>
    locals.retryWithLock = false ∧ locals.txExecOnPower = owns ∧ Reported owns locals.ret
  | .accounting | .choosing =>
    locals.txExecOnPower = owns ∧ Reported owns locals.ret ∧
      (owns = true → locals.PowerOver htmMaxRetries)
  | .pausing => locals.retryWithLock = true → owns = true →
    locals.txExecOnPower = true ∧ locals.PowerOver htmMaxRetries
  | .leaving => owns = true → locals.txExecOnPower = true ∧ locals.PowerOver htmMaxRetries

/-- A transaction in power mode is repeated until its retries are over. -/
theorem retryOnPower_expected {owns : Bool} {locals : Locals}
    (expected : Expected htmMaxRetries owns locals .handling) :
    (∃ next, locals.retryOnPower htmMaxRetries = (true, next) ∧
      Expected htmMaxRetries owns next .loop) ∨
    (∃ next, locals.retryOnPower htmMaxRetries = (false, next) ∧
      Expected htmMaxRetries owns next .accounting) := by
  obtain ⟨idle, same, reported⟩ := expected
  unfold Locals.retryOnPower
  split
  · dsimp only
    split
    · split
      · next ended => exact .inr ⟨_, rfl, same, reported, fun _ => .inr ⟨rfl, ended⟩⟩
      · exact .inl ⟨_, rfl, idle⟩
    · next final => exact .inr ⟨_, rfl, same, reported, fun _ => .inl (by simpa using final)⟩
  · next unpowered =>
    refine .inr ⟨_, rfl, same, reported, fun owner => ?_⟩
    rw [same] at unpowered
    exact absurd owner unpowered

omit [DecidableEq Thread] in
variable (handler) in
/-- The owner of the power flag does not swap: a retry is useless or it has decided for the lock. -/
theorem chooseStep_owner {locals : Locals} (owner : locks.powerFlag = some self)
    (expected : Expected htmMaxRetries true locals .choosing) :
    ∃ next, chooseStep handler htmMaxRetries self locks locals = .ok (locks, ⟨.pausing, next⟩) ∧
      Expected htmMaxRetries true next .pausing := by
  obtain ⟨same, reported, ended⟩ := expected
  have aborted : htmAbortCauseExplicit locals.ret = false := by
    by_contra explicit
    simpa using (reported.explicit (by simpa using explicit)).1
  simp only [chooseStep, owner, Option.isNone_some, Bool.and_false, Bool.false_eq_true, ↓reduceIte,
    Locals.chooseMode]
  rw [show { locks with powerFlag := some self } = locks from by rw [← owner]]
  cases needs : locals.needsLock
  · have retries : locals.retryWithLock = true := by
      rcases ended rfl with final | ⟨retries, -⟩
      · simp [Locals.needsLock, aborted, final] at needs
      · exact retries
    simp only [Bool.false_eq_true, ↓reduceIte, Locals.isExhausted, retries, Bool.not_true,
      Bool.and_false]
    exact ⟨locals, rfl, fun _ _ => ⟨same, ended rfl⟩⟩
  · simp only [Locals.needsLock, Bool.and_eq_true, Bool.not_eq_eq_eq_not, Bool.not_true] at needs
    exact ⟨_, rfl, fun _ _ => ⟨same, .inl needs.2⟩⟩

variable (handler) in
/-- Another thread goes for the lock, or for the power flag, or tries again. -/
theorem chooseStep_other {locals : Locals} (other : locks.powerFlag ≠ some self)
    (expected : Expected htmMaxRetries false locals .choosing) : ∃ nextLocks next,
      chooseStep handler htmMaxRetries self locks locals = .ok (nextLocks, ⟨.pausing, next⟩) ∧
      (nextLocks.powerFlag = some self → handler.isPowerTm = true) ∧
      Expected htmMaxRetries (nextLocks.powerFlag = some self) next .pausing := by
  obtain ⟨same, -, -⟩ := expected
  have keeps : ∀ next : Locals,
      Expected htmMaxRetries (decide (locks.powerFlag = some self)) next .pausing := by
    intro next _ owns
    exact absurd (of_decide_eq_true owns) other
  have keepsLocks : locals.triesPower handler htmMaxRetries = false → ∀ next,
      locals.chooseMode handler htmMaxRetries locks.powerFlag.isNone = .ok next →
      chooseStep handler htmMaxRetries self locks locals = .ok (locks, ⟨.pausing, next⟩) := by
    intro keeps next chosen
    simp [chooseStep, chosen, keeps]
  by_cases needs : locals.needsLock = true
  · exact ⟨locks, _, keepsLocks (by simp [Locals.triesPower, needs]) _
      (by simp only [Locals.chooseMode, needs, ↓reduceIte]; rfl), by simp [other], keeps _⟩
  by_cases spent : locals.isExhausted htmMaxRetries = true
  · by_cases power : handler.isPowerTm = true
    · have idle : locals.retryWithLock = false := by
        simp only [Locals.isExhausted, Bool.and_eq_true, Bool.not_eq_true'] at spent
        exact spent.2
      simp only [chooseStep, Locals.chooseMode, needs, spent, power, ↓reduceIte, assertThat_of same]
      exact ⟨_, _, rfl, fun _ => trivial, fun retries => by simp [idle] at retries⟩
    · exact ⟨locks, _, keepsLocks (by simp [Locals.triesPower, power]) _
        (by simp only [Locals.chooseMode, needs, spent, power, ↓reduceIte]; rfl),
        by simp [other], keeps _⟩
  · exact ⟨locks, _, keepsLocks (by simp [Locals.triesPower, spent]) _
      (by simp only [Locals.chooseMode, needs, spent]; rfl), by simp [other], keeps _⟩

/-- The rules for the count do not fail and change the count only. -/
theorem account_ok (handler : Handler) (htmMaxRetries : Nat) (taken : Bool) {owns : Bool}
    {locals : Locals} (reported : Reported owns locals.ret) :
    ∃ nretries, locals.account handler htmMaxRetries taken =
      .ok { locals with nretries := nretries } := by
  unfold Locals.account
  split
  · next explicit =>
    split
    · exact ⟨_, rfl⟩
    · rw [assertThat_of (reported.explicit explicit).2]
      exact ⟨_, rfl⟩
  · rw [reported.enabled]
    simp only [Bool.false_eq_true, ↓reduceIte]
    split
    · split <;> exact ⟨_, rfl⟩
    · split
      · split <;> exact ⟨_, rfl⟩
      · exact ⟨_, rfl⟩

/-- A step of a thread succeeds and leads to an expected point. -/
def Arrives (handler : Handler) (htmMaxRetries : Nat) (self : Thread)
    (step : Checked (Locks Thread × ThreadState)) : Prop :=
  ∃ nextLocks next, step = .ok (nextLocks, next) ∧
    (nextLocks.powerFlag = some self → handler.isPowerTm = true) ∧
    Expected htmMaxRetries (nextLocks.powerFlag = some self) next.locals next.pc

section Points

variable {locals : Locals} (power : locks.powerFlag = some self → handler.isPowerTm = true)

include power

/-- A thread that leaves the shared words as they are. -/
theorem Arrives.of_kept
    (expected : Expected htmMaxRetries (locks.powerFlag = some self) next.locals next.pc) :
    Arrives handler htmMaxRetries self (.ok (locks, next)) :=
  ⟨locks, next, rfl, power, expected⟩

/-- The owner of the power flag gives it up with its commit. -/
theorem Arrives.of_committed :
    Arrives handler htmMaxRetries self
      (advance handler htmMaxRetries self locks ⟨.committed, locals⟩) := by
  have released : (if (handler.isPowerTm && decide (locks.powerFlag = some self)) = true
      then none else locks.powerFlag) ≠ some self := by
    split
    · simp
    · next other => exact fun owner => other (by simp [power owner, owner])
  exact ⟨_, _, rfl, fun owner => absurd owner released, decide_eq_false released⟩

/-- The owner of the power flag gives it up when its retries are over. -/
theorem Arrives.of_leaving
    (expected : Expected htmMaxRetries (locks.powerFlag = some self) locals .leaving) :
    Arrives handler htmMaxRetries self
      (advance handler htmMaxRetries self locks ⟨.leaving, locals⟩) := by
  simp only [advance]
  split
  · next owner =>
    rw [Bool.and_eq_true, decide_eq_true_eq] at owner
    obtain ⟨powered, ended⟩ := expected (decide_eq_true owner.2)
    rw [Locals.assertPowerOver, assertThat_of powered, ok_bind,
      assertThat_of (ended.imp_right And.right)]
    refine ⟨_, _, rfl, by simp, ?_⟩
    dsimp only
    split <;> rfl
  · next other =>
    have unowned : locks.powerFlag ≠ some self := fun owner => other (by simp [power owner, owner])
    refine .of_kept power ?_
    dsimp only
    split <;> exact decide_eq_false unowned

/-- The choice of the next mode. -/
theorem Arrives.of_choosing
    (expected : Expected htmMaxRetries (locks.powerFlag = some self) locals .choosing) :
    Arrives handler htmMaxRetries self (chooseStep handler htmMaxRetries self locks locals) := by
  by_cases owner : locks.powerFlag = some self
  · simp only [owner, decide_true] at expected
    obtain ⟨next, chosen, after⟩ := chooseStep_owner handler owner expected
    exact ⟨locks, _, chosen, power, by simpa [owner] using after⟩
  · simp only [owner, decide_false] at expected
    obtain ⟨nextLocks, next, chosen, powered, after⟩ := chooseStep_other handler owner expected
    exact ⟨nextLocks, _, chosen, powered, after⟩

end Points

/-- A thread at an expected point takes its next step, and arrives at an expected point. -/
theorem Expected.advance (power : locks.powerFlag = some self → handler.isPowerTm = true)
    (subscribed : thread.pc.isSubscribed = true → locks.fallbackLock = false)
    (holds : thread.pc.holdsLock = true → locks.fallbackLock = true)
    (expected : Expected htmMaxRetries (locks.powerFlag = some self) thread.locals thread.pc) :
    Arrives handler htmMaxRetries self (Htmrt.advance handler htmMaxRetries self locks thread) := by
  obtain ⟨pc, locals⟩ := thread
  cases pc
  case outside => exact .of_kept power rfl
  case loop =>
    refine .of_kept power ⟨expected, ?_⟩
    by_cases owner : locks.powerFlag = some self
    · simp [Locals.attempt, owner, power owner]
    · simp [Locals.attempt, owner]
  case subscribe | waiting =>
    refine .of_kept power ?_
    dsimp only
    split <;> exact expected
  case cancel => exact .of_kept power expected
  case body held =>
    refine .of_kept power ?_
    cases held
    · rw [subscribed rfl]
      exact expected
    · rw [holds rfl]
      exact expected
  case committing held =>
    cases held
    · exact .of_kept power trivial
    · exact expected.elim
  case unlocking held =>
    cases held
    · exact expected.elim
    · exact ⟨_, _, rfl, power, expected⟩
  case committed => exact .of_committed power
  case failed =>
    refine .of_kept power ?_
    simp only [Locals.excuseConflict]
    split <;> exact expected
  case handling =>
    rw [Htmrt.advance]
    rcases retryOnPower_expected expected with ⟨next, found, after⟩ | ⟨next, found, after⟩
    all_goals
      rw [found]
      exact .of_kept power after
  case accounting =>
    obtain ⟨same, reported, ended⟩ := expected
    obtain ⟨nretries, accounted⟩ :=
      account_ok handler htmMaxRetries locks.powerFlag.isSome reported
    simp only [Htmrt.advance, accounted]
    exact .of_kept power ⟨same, reported, ended⟩
  case choosing => exact .of_choosing power expected
  case pausing =>
    simp only [Htmrt.advance]
    split
    · exact .of_kept power expected
    · refine .of_kept power ?_
      cases retries : locals.retryWithLock
      · exact retries
      · exact expected retries
  case leaving => exact .of_leaving power expected
  case acquiringPre | acquiring =>
    simp only [Htmrt.advance]
    split
    · exact .of_kept power expected
    · refine ⟨_, _, rfl, power, ?_⟩
      dsimp only
      (try split) <;> exact expected
  case releasingPre => exact ⟨_, _, rfl, power, expected⟩

end Thread

section Exclusion

variable {Thread : Type} [DecidableEq Thread] {lock : Bool} {pcs : Thread → Pc} {self : Thread}
  {pc : Pc}

/-- At most one thread is between `spinlock_lock` and `spinlock_unlock`; the lock is taken then, and
free while a transaction that found it free runs. -/
structure Exclusive (lock : Bool) (pcs : Thread → Pc) : Prop where
  holds : ∀ self, (pcs self).holdsLock = true → lock = true
  unique : ∀ self other, (pcs self).holdsLock = true → (pcs other).holdsLock = true → self = other
  subscribed : ∀ self, (pcs self).isSubscribed = true → lock = false

/-- A thread moves without touching the lock. -/
theorem Exclusive.kept (exclusive : Exclusive lock pcs) (same : pc.holdsLock = (pcs self).holdsLock)
    (subscribes : pc.isSubscribed = true → lock = false) :
    Exclusive lock (Function.update pcs self pc) := by
  have holdsLock : ∀ other, (Function.update pcs self pc other).holdsLock =
      (pcs other).holdsLock := by
    intro other
    by_cases equal : other = self
    · subst equal
      simpa using same
    · simp [equal]
  refine ⟨fun other => ?_, fun first second => ?_, fun other => ?_⟩
  · rw [holdsLock]
    exact exclusive.holds other
  · rw [holdsLock, holdsLock]
    exact exclusive.unique first second
  · by_cases equal : other = self
    · simpa [equal] using subscribes
    · simpa [equal] using exclusive.subscribed other

/-- A thread takes the lock when it is free and no other thread has subscribed to it. -/
theorem Exclusive.acquired (exclusive : Exclusive false pcs)
    (isolated : ∀ other, other ≠ self → (pcs other).isSubscribed = false)
    (outside : pc.isSubscribed = false) : Exclusive true (Function.update pcs self pc) := by
  have free : ∀ other, (pcs other).holdsLock = false := fun other =>
    Bool.eq_false_iff.mpr fun holds => Bool.false_ne_true (exclusive.holds other holds)
  have owner : ∀ other, (Function.update pcs self pc other).holdsLock = true → other = self := by
    intro other holds
    by_contra different
    simp [different, free other] at holds
  refine ⟨fun _ _ => rfl, fun first second one two => ?_, fun other subscribed => ?_⟩
  · exact (owner first one).trans (owner second two).symm
  · by_cases equal : other = self
    · simp [equal, outside] at subscribed
    · simp [equal, isolated other equal] at subscribed

/-- The holder of the lock releases it. -/
theorem Exclusive.released (exclusive : Exclusive lock pcs) (holder : (pcs self).holdsLock = true)
    (outside : pc.holdsLock = false) : Exclusive false (Function.update pcs self pc) := by
  have none : ∀ other, (Function.update pcs self pc other).holdsLock = false := by
    intro other
    by_cases equal : other = self
    · simpa [equal] using outside
    · simp only [Function.update_of_ne equal]
      exact Bool.eq_false_iff.mpr fun holds => equal (exclusive.unique other self holds holder)
  exact ⟨fun other holds => by simp [none other] at holds,
    fun first _ holds => by simp [none first] at holds, fun _ _ => rfl⟩

end Exclusion

namespace Runtime

variable {Thread : Type} [DecidableEq Thread] {handler : Handler} {htmMaxRetries : Nat}
  {runtime next : Runtime Thread} {self : Thread}

/-- What holds of all threads in every state. -/
structure Inv (handler : Handler) (htmMaxRetries : Nat) (runtime : Runtime Thread) : Prop where
  power : ∀ self, runtime.locks.powerFlag = some self → handler.isPowerTm = true
  exclusive : Exclusive runtime.locks.fallbackLock fun self => (runtime.threads self).pc
  expected : ∀ self, Expected htmMaxRetries (runtime.locks.powerFlag = some self)
    (runtime.threads self).locals (runtime.threads self).pc

private theorem Inv.start : Inv handler htmMaxRetries ({} : Runtime Thread) where
  power := by simp
  exclusive := ⟨by simp [Pc.holdsLock], by simp [Pc.holdsLock], by simp⟩
  expected := fun self => by simp [Expected]

private theorem hasReadLock_of_isSubscribed {pc : Pc} (subscribed : pc.isSubscribed = true) :
    pc.hasReadLock = true := by
  unfold Pc.isSubscribed at subscribed
  split at subscribed <;> first | rfl | simp at subscribed

/-- The program points after one thread has moved. -/
theorem pcs_update (threads : Thread → ThreadState) (thread : ThreadState) :
    (fun other => (Function.update threads self thread other).pc) =
      Function.update (fun other => (threads other).pc) self thread.pc := by
  funext other
  by_cases equal : other = self
  · subst equal
    simp
  · simp [equal]

/-- The lock's part of the invariant. -/
theorem Inv.exclusive_advance {locks : Locks Thread} {thread : ThreadState}
    (inv : Inv handler htmMaxRetries runtime) (admitted : runtime.Admits (self, .advance))
    (advanced : Htmrt.advance handler htmMaxRetries self runtime.locks (runtime.threads self) =
      .ok (locks, thread)) :
    Exclusive locks.fallbackLock
      (Function.update (fun other => (runtime.threads other).pc) self thread.pc) := by
  obtain ⟨-, isolated⟩ := admitted
  have exclusive := inv.exclusive
  rcases LockMove.of_advance (exclusive.subscribed self) (exclusive.holds self) advanced with
    ⟨same, holds, subscribes⟩ | ⟨before, free, taken, holds, outside⟩ | ⟨held, before, freed, after⟩
  · rw [same]
    exact exclusive.kept holds subscribes
  · rw [free] at exclusive
    rw [taken]
    refine exclusive.acquired (fun other different => ?_) outside
    have unread := isolated (by simp [writesLock, before, free]) other different
    exact Bool.eq_false_iff.mpr fun subscribed => by
      simp [hasReadLock_of_isSubscribed subscribed] at unread
  · rw [freed, after]
    refine exclusive.released ?_ rfl
    have expected := inv.expected self
    rw [before] at expected ⊢
    cases held
    · exact expected.elim
    · rfl

/-- What an admitted failure reports. -/
theorem reported_of_isReturned {owns : Bool} {context : X86.FailureContext}
    {cause : HtmFailureFaultCause} {status : BitVec 64} (returned : IsReturned context cause)
    (notCancelled : getIsaVisibleHtmFailureCause cause = .ok .explicit → owns = false)
    (reported : X86.abortStatus context cause = .ok status) : Reported owns status := by
  simp only [X86.abortStatus, bind_eq_ok] at reported
  obtain ⟨visible, shown, restored⟩ := reported
  have bits := X86.StatusOf.of_restore restored
  rw [IsReturned, shown] at returned
  simp only [Except.ok.injEq] at returned
  refine ⟨?_, fun explicit => ?_⟩
  · rw [disabled_of_status bits, decide_eq_false_iff_not]
    rintro rfl
    simp at returned
  · rw [explicit_of_status bits, decide_eq_true_eq] at explicit
    subst explicit
    obtain code : context.abortReason.setWidth 8 = 0xfe#8 := by simpa using returned
    refine ⟨notCancelled shown, ?_⟩
    rw [explicitCode_of_status bits rfl, code]
    rfl

private theorem holdsLock_of_inTransaction {pc : Pc} (running : pc.inTransaction = true) :
    pc.holdsLock = false := by
  unfold Pc.inTransaction at running
  split at running <;> first | rfl | simp at running

/-- An admitted step succeeds and keeps the invariant. -/
theorem Inv.step {event : Thread × Action} (inv : Inv handler htmMaxRetries runtime)
    (admitted : runtime.Admits event) (uncancelled : runtime.PowerNotCancelled event) :
    ∃ next, runtime.step handler htmMaxRetries event = .ok next ∧
      Inv handler htmMaxRetries next := by
  obtain ⟨self, action⟩ := event
  cases action with
  | advance =>
    obtain ⟨locks, thread, advanced, power, expected⟩ := (inv.expected self).advance
      (inv.power self) (inv.exclusive.subscribed self) (inv.exclusive.holds self)
    refine ⟨⟨locks, Function.update runtime.threads self thread⟩,
      by simp only [Runtime.step, advanced, ok_bind]; rfl, ?_, ?_, ?_⟩
    · intro other owner
      by_cases equal : other = self
      · exact power (equal ▸ owner)
      · exact inv.power other ((powerFlag_advance equal advanced).mp owner)
    · rw [pcs_update]
      exact inv.exclusive_advance admitted advanced
    · intro other
      by_cases equal : other = self
      · subst equal
        simpa using expected
      · simpa [equal, powerFlag_advance equal advanced] using inv.expected other
  | abort context cause =>
    obtain ⟨running, returned⟩ := admitted
    obtain ⟨status, reported⟩ : ∃ status, X86.abortStatus context cause = .ok status := by
      rcases returned with shown | shown | ⟨shown, -⟩
      all_goals
        simp only [X86.abortStatus, shown, ok_bind]
        exact X86.restore_of_causeBits rfl
    obtain ⟨idle, same⟩ : (runtime.threads self).locals.retryWithLock = false ∧
        (runtime.threads self).locals.txExecOnPower =
          decide (runtime.locks.powerFlag = some self) := by
      have expected := inv.expected self
      generalize (runtime.threads self).pc = pc at expected running
      unfold Pc.inTransaction at running
      split at running
      all_goals first | exact expected | exact expected.elim | simp at running
    have afterwards : Reported (runtime.locks.powerFlag = some self) status :=
      reported_of_isReturned returned (fun shown => decide_eq_false (uncancelled shown)) reported
    refine ⟨⟨runtime.locks, Function.update runtime.threads self
        ⟨.failed, { (runtime.threads self).locals with ret := status }⟩⟩,
      by simp only [Runtime.step, reported, ok_bind]; rfl, inv.power, ?_, ?_⟩
    · rw [pcs_update]
      exact inv.exclusive.kept (holdsLock_of_inTransaction running).symm (by simp [Pc.isSubscribed])
    · intro other
      by_cases equal : other = self
      · subst equal
        simpa using ⟨idle, same, afterwards⟩
      · simpa [equal] using inv.expected other

private theorem inv_invariant : ((system handler htmMaxRetries).restrict
    PowerNotCancelled).Invariant (Inv handler htmMaxRetries : Runtime Thread → Prop) where
  initial := by
    rintro _ rfl
    exact Inv.start
  preserved := by
    intro runtime event next inv taken
    obtain ⟨uncancelled, admitted, stepped⟩ := taken
    obtain ⟨reached, succeeds, after⟩ := inv.step admitted uncancelled
    obtain rfl : reached = next := Except.ok.inj (succeeds.symm.trans stepped)
    exact after

/-- What the runtime promises in a state. -/
structure Sound (handler : Handler) (htmMaxRetries : Nat) (runtime : Runtime Thread) : Prop where
  /-- At most one thread runs its body with the lock. -/
  oneBody : ∀ self other, (runtime.threads self).pc = .body true →
    (runtime.threads other).pc = .body true → self = other
  /-- No transaction commits meanwhile. -/
  noCommit : ∀ self other held, (runtime.threads self).pc = .body true →
    (runtime.threads other).pc ≠ .committing held
  /-- `commitTransaction` releases the lock if its caller has it, and commits otherwise. -/
  released : ∀ self held next, (runtime.threads self).pc = .body held →
    runtime.step handler htmMaxRetries (self, .advance) = .ok next →
    (next.threads self).pc = if held then .unlocking true else .committing false
  unlocks : ∀ self held, (runtime.threads self).pc = .unlocking held → held = true
  /-- Only the owner gives up the power flag. -/
  owner : ∀ owner event next, runtime.locks.powerFlag = some owner →
    runtime.step handler htmMaxRetries event = .ok next →
    next.locks.powerFlag = some owner ∨ event.1 = owner
  /-- The owner has released it before its body runs with the lock, and after its commit. -/
  powerReleased : ∀ self, runtime.locks.powerFlag = some self →
    (runtime.threads self).pc ≠ .outside ∧ (runtime.threads self).pc ≠ .body true ∧
      (runtime.threads self).pc ≠ .unlocking true
  afterCommit : ∀ self next, (runtime.threads self).pc = .committed →
    runtime.step handler htmMaxRetries (self, .advance) = .ok next →
    (next.threads self).pc = .outside ∧ next.locks.powerFlag ≠ some self
  /-- No assertion fails. -/
  succeeds : ∀ event, runtime.Admits event → runtime.PowerNotCancelled event →
    ∃ next, runtime.step handler htmMaxRetries event = .ok next

/-- In every run in which no thread cancels its own transaction while it owns the power flag, the
protocol of the fallback lock and the power flag is sound in every state. -/
theorem fallbackLock_sound
    (reachable : ((system handler htmMaxRetries).restrict PowerNotCancelled).Reachable runtime) :
    Sound handler htmMaxRetries runtime := by
  have inv := inv_invariant.of_reachable reachable
  refine ⟨fun self other one two => ?_, fun self other held one commits => ?_,
    fun self held next at_body stepped => ?_, fun self held unlocks => ?_,
    fun owner event next owned stepped => ?_, fun self owner => ?_,
    fun self next at_commit stepped => ?_, fun event admitted uncancelled => ?_⟩
  · exact inv.exclusive.unique self other (by rw [one]; rfl) (by rw [two]; rfl)
  · have taken := inv.exclusive.holds self (by rw [one]; rfl)
    have expected := inv.expected other
    rw [commits] at expected
    cases held
    · have free := inv.exclusive.subscribed other (by rw [commits]; rfl)
      rw [taken] at free
      exact absurd free (by simp)
    · exact expected
  -- the body of a thread ends
  · have holds := inv.exclusive.holds self
    have subscribed := inv.exclusive.subscribed self
    rw [at_body] at holds subscribed
    simp only [Runtime.step, Htmrt.advance, at_body, run_eq_ok] at stepped
    obtain ⟨_, rfl, rfl⟩ := stepped
    cases held
    · simp [subscribed rfl]
    · simp [holds rfl]
  · have expected := inv.expected self
    rw [unlocks] at expected
    cases held
    · exact expected.elim
    · rfl
  -- the power flag is written by its owner, or by a thread that finds it free
  · obtain ⟨self, action⟩ := event
    by_cases equal : owner = self
    · exact .inr equal.symm
    · cases action with
      | advance =>
        simp only [Runtime.step, run_eq_ok] at stepped
        obtain ⟨⟨locks, thread⟩, advanced, rfl⟩ := stepped
        exact .inl ((powerFlag_advance equal advanced).mpr owned)
      | abort context cause =>
        simp only [Runtime.step, run_eq_ok] at stepped
        obtain ⟨_, -, rfl⟩ := stepped
        exact .inl owned
  · have expected := inv.expected self
    simp only [owner, decide_true] at expected
    refine ⟨fun here => ?_, fun here => ?_, fun here => ?_⟩
    all_goals
      rw [here] at expected
      simp [Expected] at expected
  · have power := inv.power self
    simp only [Runtime.step, Htmrt.advance, at_commit, run_eq_ok] at stepped
    obtain ⟨_, rfl, rfl⟩ := stepped
    refine ⟨by simp, fun owner => ?_⟩
    dsimp only at owner
    split at owner
    · simp at owner
    · next other => exact other (by simp [power owner, owner])
  · obtain ⟨next, stepped, -⟩ := inv.step admitted uncancelled
    exact ⟨next, stepped⟩

end Runtime

/-- The context of a failure with the code of a default cancel. -/
def defaultContext : X86.FailureContext where
  abortReason := 0xfe#16
  memoryPower := false
  forceHtmDisabled := false
  forceHtmRetryStatusBit := false
  htmUndoLogSize := 0

namespace Runtime

/-- Thread 0 fails once and becomes the owner of the power flag; it then runs in power mode. -/
def poweredEvents : List (Fin 2 × Action) :=
  List.replicate 3 (0, .advance) ++ [(0, .abort defaultContext .memory)] ++
    List.replicate 8 (0, .advance)

/-- Thread 1 then runs out of capacity and takes the lock, which aborts thread 0. -/
def lockedEvents : List (Fin 2 × Action) :=
  poweredEvents ++ List.replicate 3 (1, .advance) ++ [(1, .abort defaultContext .size)] ++
    List.replicate 7 (1, .advance) ++
    [(0, .abort defaultContext .memoryFallbackLock), (1, .advance)]

instance (runtime : Runtime (Fin 2)) (event : Fin 2 × Action) : Decidable (runtime.Admits event) :=
  match event with
  | (_, .advance) => inferInstanceAs (Decidable (_ ∧ _))
  | (_, .abort _ _) => inferInstanceAs (Decidable (_ ∧ _))

instance (runtime : Runtime (Fin 2)) (event : Fin 2 × Action) :
    Decidable (runtime.PowerNotCancelled event) :=
  match event with
  | (_, .advance) => inferInstanceAs (Decidable True)
  | (_, .abort _ _) => inferInstanceAs (Decidable (_ → _))

/-- One thread owns the power flag, another one runs its body with the lock. -/
theorem fallbackLock_sound_lockedBody :
    ∃ runtime : Runtime (Fin 2), runtime.locks.powerFlag = some 0 ∧
      (runtime.threads 1).pc = .body true ∧ Sound .powerTm 1 runtime := by
  obtain ⟨runtime, reachable, owned, locked⟩ : ∃ runtime : Runtime (Fin 2),
      ((system .powerTm 1).restrict PowerNotCancelled).Reachable runtime ∧
      runtime.locks.powerFlag = some 0 ∧ (runtime.threads 1).pc = .body true := by
    rw [system, TransitionSystem.restrict_restrict]
    exact TransitionSystem.exists_reachable_restrict (.assertion "admitted") lockedEvents rfl
      (by decide +kernel)
  exact ⟨runtime, owned, locked, fallbackLock_sound reachable⟩

/-- Thread 0 cancels its transaction in power mode. -/
def cancelledEvents : List (Fin 2 × Action) :=
  poweredEvents ++ [(0, .abort defaultContext .explicit)] ++ List.replicate 4 (0, .advance)

/-- A cancel has no retry bit, so it ends the retries in power mode, but it does not make the thread
take the lock either: the thread comes to the choice of its next mode as the owner of the power flag
and with its retries used up, and the assertion that it is not powered fails. -/
theorem powered_cancel_fails_assertion :
    ∃ runtime : Runtime (Fin 2), (system .powerTm 1).Reachable runtime ∧
      runtime.Admits (0, .advance) ∧
      runtime.step .powerTm 1 (0, .advance) = .error (.assertion "!txExecOnPower") := by
  exact TransitionSystem.exists_reachable_restrict (.assertion "admitted") cancelledEvents rfl
    (by decide +kernel)

end Runtime

end Gem5.Htmrt
