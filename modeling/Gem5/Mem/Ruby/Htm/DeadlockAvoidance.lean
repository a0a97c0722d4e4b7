import Gem5.Mem.Ruby.Htm.ForwardingGraph
import Gem5.Mem.Ruby.Htm.TimestampPolicy
import Mathlib.Algebra.Group.Fin.Basic
import Mathlib.Data.Fin.VecNotation
import Mathlib.Data.Fintype.Lattice

/-!
# Deadlock avoidance by timestamps

Under `requester_stalls_cda_base` a transaction that is nacked waits.  A transaction
that nacks an older one suspects a cycle from then on, and aborts when it is nacked by
an older one in turn.  In every cycle of waiting transactions the youngest one suspects
the cycle, and the nack of its successor makes it abort, provided that the nack the L1
passes on names an older nacker: of several nackers with the least timestamp it names
the first to arrive.
-/

namespace Gem5.Ruby

open Foundation TransactionInterfaceManager

/-- A transaction whose request a live transaction has nacked. -/
structure Wait (count : Nat) where
  requester : Fin count
  requesterUid : Nat
  holder : Fin count
  holderUid : Nat
  deriving DecidableEq, Repr

/-- A machine, the transaction that issued each request in flight, and who has waited for whom. -/
structure WaitingMachine (params : HTMParams) (n count : Nat) where
  machine : ForwardingMachine params n count
  issued : List Nat
  waits : List (Wait count)

namespace WaitingMachine

variable {params : HTMParams} {n count : Nat}

/-- The nacks a live holder has added to the answers of a request. -/
def newWaits (state : WaitingMachine params n count) (next : ForwardingMachine params n count)
    (slot : Nat) (holder : Fin count) : List (Wait count) :=
  match state.machine.requests[slot]?, state.issued[slot]?, next.requests[slot]? with
  | some before, some uid, some after =>
    if (state.machine.cores holder).mgr.abort.abortFlag then []
    else (after.answers.drop before.answers.length).map fun answer =>
      ⟨before.requester, uid, answer.holder, answer.uid⟩
  | _, _, _ => []

/-- One event. -/
def take (state : WaitingMachine params n count) (event : MachineEvent n count) :
    Checked (WaitingMachine params n count) := do
  let next ← state.machine.take event
  match event with
  | .core .. => return { state with machine := next }
  | .issue proc _ => return { state with
      machine := next
      issued := state.issued ++ [(state.machine.cores proc).mgr.currentHtmUid] }
  | .handle slot holder _ _ => return { state with
      machine := next, waits := state.waits ++ state.newWaits next slot holder }
  | .deliver slot _ _ => return { state with
      machine := next, issued := state.issued.eraseIdx slot }

/-- The runs of a machine with a record of who waits for whom. -/
def system (params : HTMParams) (n count : Nat) :
    TransitionSystem (WaitingMachine params n count) (MachineEvent n count) :=
  .ofExcept (fun state => (ForwardingMachine.system params n count).Initial state.machine ∧
    state.issued = [] ∧ state.waits = []) take

end WaitingMachine

/-! ## What the messages tell -/

namespace ForwardingMachine

variable {params : HTMParams} {n count : Nat} {machine next : ForwardingMachine params n count}
variable {proc other : Fin count} {core : Core params n} {uid : Nat}

/-- The age of a core's transaction. -/
def age (machine : ForwardingMachine params n count) (proc : Fin count) : Nat ×ₗ Nat :=
  (machine.cores proc).mgr.age

/-- The transaction of one core is older than that of another. -/
def Older (machine : ForwardingMachine params n count) (first second : Fin count) : Prop :=
  machine.age first < machine.age second

/-- What holds of each core. -/
structure CoreAged (core : Core params n) (proc : Nat) : Prop where
  sound : core.mgr.Sound
  version : core.mgr.version = proc
  timed : core.mgr.conflict.timestamp ≤ core.mgr.curCycle

private theorem CoreAged.step {next : Core params n} {proc : Nat} (aged : CoreAged core proc)
    (sound : next.mgr.Sound) (step : AgeStep core.mgr next.mgr) : CoreAged next proc :=
  ⟨sound, step.version.trans aged.version, step.timed aged.timed⟩

/-- A request carries the age of the transaction that issued it. -/
structure RequestAged (machine : ForwardingMachine params n count) (out : Outstanding n count)
    (uid : Nat) : Prop where
  known : uid ≤ (machine.cores out.requester).mgr.currentHtmUid
  source : out.req.remoteId = ⟨.l1Cache, out.requester⟩
  timestamp : machine.Runs out.requester uid →
    out.req.remoteTimestamp = (machine.cores out.requester).mgr.conflict.timestamp

/-- A nack carries the age of the transaction that sent it. -/
structure AnswerAged (machine : ForwardingMachine params n count) (answer : Answer n count) :
    Prop where
  known : answer.uid ≤ (machine.cores answer.holder).mgr.currentHtmUid
  sender : answer.nack.sender = ⟨.l1Cache, answer.holder⟩
  timestamp : machine.Runs answer.holder answer.uid →
    answer.nack.timestamp = (machine.cores answer.holder).mgr.conflict.timestamp
  ordinary : answer.nack.Ordinary
  priority : params.allowEarlyValueFwd = false → answer.nack.priority = ncPrioValue

/-- A live transaction that has nacked an older one suspects a cycle. -/
structure WaitAged (machine : ForwardingMachine params n count) (wait : Wait count) : Prop where
  apart : wait.requester ≠ wait.holder
  requester : wait.requesterUid ≤ (machine.cores wait.requester).mgr.currentHtmUid
  holder : wait.holderUid ≤ (machine.cores wait.holder).mgr.currentHtmUid
  cycle : machine.Runs wait.requester wait.requesterUid →
    machine.Runs wait.holder wait.holderUid → machine.Older wait.requester wait.holder →
    (machine.cores wait.holder).mgr.conflict.possibleCycle = true

variable (step : AgeStep (machine.cores proc).mgr core.mgr)

include step

/-- Across a step, a transaction that runs afterwards has kept its age and its suspicion. -/
theorem age_setCore (known : uid ≤ (machine.cores other).mgr.currentHtmUid)
    (runs : (machine.setCore proc core).Runs other uid) :
    machine.Runs other uid ∧ (((machine.setCore proc core).cores other).mgr.conflict.timestamp =
        (machine.cores other).mgr.conflict.timestamp ∧
      ((machine.cores other).mgr.conflict.possibleCycle = true →
        ((machine.setCore proc core).cores other).mgr.conflict.possibleCycle = true)) :=
  runs_before (fun mgr next => next.conflict.timestamp = mgr.conflict.timestamp ∧
      (mgr.conflict.possibleCycle = true → next.conflict.possibleCycle = true))
    (fun _ => ⟨rfl, id⟩) step.uid step.within known runs

private theorem version_setCore :
    ((machine.setCore proc core).cores other).mgr.version = (machine.cores other).mgr.version := by
  by_cases here : other = proc
  · subst here
    rw [setCore_self]
    exact step.version
  · rw [setCore_of_ne here]

private theorem RequestAged.setCore {out : Outstanding n count}
    (aged : machine.RequestAged out uid) :
    (machine.setCore proc core).RequestAged out uid where
  known := uid_setCore step.uid aged.known
  source := aged.source
  timestamp runs := by
    obtain ⟨before, same, -⟩ := age_setCore step aged.known runs
    rw [same]
    exact aged.timestamp before

private theorem AnswerAged.setCore {answer : Answer n count} (aged : machine.AnswerAged answer) :
    (machine.setCore proc core).AnswerAged answer where
  known := uid_setCore step.uid aged.known
  sender := aged.sender
  timestamp runs := by
    obtain ⟨before, same, -⟩ := age_setCore step aged.known runs
    rw [same]
    exact aged.timestamp before
  ordinary := aged.ordinary
  priority := aged.priority

private theorem WaitAged.setCore {wait : Wait count} (aged : machine.WaitAged wait) :
    (machine.setCore proc core).WaitAged wait where
  apart := aged.apart
  requester := uid_setCore step.uid aged.requester
  holder := uid_setCore step.uid aged.holder
  cycle waits holds older := by
    obtain ⟨before, sameAge, -⟩ := age_setCore step aged.requester waits
    obtain ⟨held, sameHolder, suspects⟩ := age_setCore step aged.holder holds
    refine suspects (aged.cycle before held ?_)
    unfold Older age TransactionInterfaceManager.age at older ⊢
    rwa [sameAge, sameHolder, version_setCore step, version_setCore step] at older

end ForwardingMachine

namespace WaitingMachine

variable {params : HTMParams} {n count : Nat} {state : WaitingMachine params n count}
variable {machine : ForwardingMachine params n count} {proc : Fin count} {core : Core params n}

open ForwardingMachine (CoreAged RequestAged AnswerAged WaitAged setCore_self setCore_of_ne
  uid_setCore version_setCore)

/-- What holds of a machine under the timestamp policy. -/
structure Aged (state : WaitingMachine params n count) : Prop where
  cores : ∀ proc, CoreAged (state.machine.cores proc) proc
  paired : state.issued.length = state.machine.requests.length
  requests : ∀ (slot : Nat) out uid, state.machine.requests[slot]? = some out →
    state.issued[slot]? = some uid → state.machine.RequestAged out uid
  answers : ∀ out ∈ state.machine.requests, ∀ answer ∈ out.answers, state.machine.AnswerAged answer
  apart : ∀ out ∈ state.machine.requests, ∀ answer ∈ out.answers, answer.holder ≠ out.requester
  waits : ∀ wait ∈ state.waits, state.machine.WaitAged wait

namespace Aged

/-- A step of one core. -/
theorem setCore (aged : state.Aged) (sound : core.mgr.Sound)
    (step : AgeStep (state.machine.cores proc).mgr core.mgr) :
    Aged { state with machine := state.machine.setCore proc core } where
  cores := ForwardingMachine.forall_setCore (P := fun proc core => CoreAged core proc) aged.cores
    ((aged.cores proc).step sound step)
  paired := aged.paired
  requests slot out uid listed issued := (aged.requests slot out uid listed issued).setCore step
  answers out listed answer sent := (aged.answers out listed answer sent).setCore step
  apart := aged.apart
  waits wait listed := (aged.waits wait listed).setCore step

/-- A request leaves its core. -/
theorem issue {addr : Addr} {req : RemoteRequest} (aged : state.Aged)
    (issued : (state.machine.cores proc).mgr.issueRequest addr = .ok req) : Aged { state with
      machine := { state.machine with requests := state.machine.requests ++ [⟨proc, req, []⟩] }
      issued := state.issued ++ [(state.machine.cores proc).mgr.currentHtmUid] } where
  cores := aged.cores
  paired := by simp [aged.paired]
  requests slot out uid listed known := by
    have paired := aged.paired
    dsimp only at listed known
    rw [List.getElem?_append] at listed known
    rw [paired] at known
    split at listed
    · next earlier =>
      rw [if_pos earlier] at known
      exact { aged.requests slot out uid listed known with }
    · next now =>
      rw [if_neg now] at known
      obtain ⟨rfl⟩ := List.mem_singleton.mp (List.mem_of_getElem? listed)
      obtain ⟨rfl⟩ := List.mem_singleton.mp (List.mem_of_getElem? known)
      have ⟨_, version, timed⟩ := aged.cores proc
      simp only [issueRequest, run_eq_ok] at issued
      obtain ⟨timestamp, asked, rfl⟩ := issued
      refine ⟨Nat.le_refl _, by rw [version], fun runs => ?_⟩
      exact getOldestTimestamp_inside runs.1 timed asked
  answers out listed answer sent := by
    rcases List.mem_append.mp listed with earlier | now
    · exact { aged.answers out earlier answer sent with }
    · simp [List.mem_singleton.mp now] at sent
  apart out listed answer sent := by
    rcases List.mem_append.mp listed with earlier | now
    · exact aged.apart out earlier answer sent
    · simp [List.mem_singleton.mp now] at sent
  waits wait listed := { aged.waits wait listed with }

variable (cda : IsCdaBase params) (aged : state.Aged)

include cda aged

/-- The answer of a holder is aged, and so is the wait it makes. -/
theorem answered {slot : Nat} {holder : Fin count}
    {kind : RequestKind} {line : LineStatus} {out : Outstanding n count}
    {uid : Nat} (found : state.machine.requests[slot]? = some out)
    (issued : state.issued[slot]? = some uid) (apart : holder ≠ out.requester) {nack : Nack n}
    {mgr : TransactionInterfaceManager params n}
    (answering : (state.machine.cores holder).mgr.remoteRequest kind out.req line =
      .ok (some nack, mgr)) :
    (state.machine.setCore holder { state.machine.cores holder with mgr := mgr }).AnswerAged
        ⟨holder, (state.machine.cores holder).mgr.currentHtmUid, nack⟩ ∧
      ((state.machine.cores holder).mgr.abort.abortFlag = false →
        (state.machine.setCore holder { state.machine.cores holder with mgr := mgr }).WaitAged
          ⟨out.requester, uid, holder, (state.machine.cores holder).mgr.currentHtmUid⟩) := by
  have ⟨sound, version, timed⟩ := aged.cores holder
  have request := aged.requests slot out uid found issued
  have frame := (AnswerCall.of_remoteRequest answering).call
  have step : AgeStep (state.machine.cores holder).mgr
      { state.machine.cores holder with mgr := mgr }.mgr := .of_call frame
  have back := NacksBack.of_remoteRequest cda sound timed (by rw [request.source]) answering
  refine ⟨⟨uid_setCore step.uid (Nat.le_refl _), by rw [back.sent.sender, version], fun _ => ?_,
    back.sent.ordinary, back.sent.priority⟩, fun live => ⟨apart.symm, (request.setCore step).known,
    uid_setCore step.uid (Nat.le_refl _), fun waits _ older => ?_⟩⟩
  · rw [setCore_self]
    exact back.sent.timestamp.trans frame.age.timestamp.symm
  · rw [setCore_self]
    refine back.cycle live ?_
    have sameAge : mgr.age = (state.machine.cores holder).mgr.age := by
      rw [age, frame.age.timestamp, frame.version]
      rfl
    unfold ForwardingMachine.Older ForwardingMachine.age at older
    rw [setCore_self, sameAge, age, version_setCore step, (aged.cores out.requester).version,
      ← (request.setCore step).timestamp waits] at older
    rwa [request.source]

/-- A request reaches a holder. -/
theorem handle {slot : Nat} {holder : Fin count} {kind : RequestKind} {line : LineStatus}
    (handled : state.machine.handle slot holder kind line = .ok machine) : Aged { state with
      machine := machine, waits := state.waits ++ state.newWaits machine slot holder } := by
  obtain ⟨out, response, mgr, found, apart, answering, rfl⟩ := ForwardingMachine.handle_ok handled
  have frame := (AnswerCall.of_remoteRequest answering).call
  have moved := aged.setCore ((aged.cores holder).sound.of_call frame)
    (show AgeStep _ { state.machine.cores holder with mgr := mgr }.mgr from .of_call frame)
  have bound : slot < state.machine.requests.length := (List.getElem?_eq_some_iff.mp found).1
  obtain ⟨uid, issued⟩ : ∃ uid, state.issued[slot]? = some uid :=
    ⟨_, List.getElem?_eq_getElem (aged.paired ▸ bound)⟩
  refine ⟨moved.cores, by simpa using aged.paired, ?_, ?_, ?_, ?_⟩
  · intro other entry known listed issuedBy
    dsimp only at listed issuedBy
    rw [List.getElem?_set] at listed
    split at listed
    · next here =>
      subst here
      obtain rfl : _ = entry := by simpa [bound] using listed
      have before := moved.requests slot out known found issuedBy
      exact ⟨before.known, before.source, before.timestamp⟩
    · exact { moved.requests other entry known listed issuedBy with }
  · intro entry listed answer sent
    suffices inFlight : (state.machine.setCore holder
        { state.machine.cores holder with mgr := mgr }).AnswerAged answer from
      { inFlight with }
    rcases ForwardingMachine.mem_answers_set found listed sent with
      ⟨before, earlier, -, sent⟩ | ⟨nack, rfl, rfl, -⟩
    · exact moved.answers before earlier answer sent
    · exact (aged.answered cda found issued apart answering).1
  · intro entry listed answer sent
    rcases ForwardingMachine.mem_answers_set found listed sent with
      ⟨before, earlier, same, sent⟩ | ⟨nack, -, rfl, same⟩
    · exact same ▸ aged.apart before earlier answer sent
    · exact same ▸ apart
  · intro wait listed
    suffices recorded : (state.machine.setCore holder
        { state.machine.cores holder with mgr := mgr }).WaitAged wait from
      { recorded with }
    rcases List.mem_append.mp listed with earlier | now
    · exact moved.waits wait earlier
    · simp only [newWaits, found, issued, List.getElem?_set_self bound, List.drop_left] at now
      split at now
      · simp at now
      · next live =>
        simp only [List.map_map, List.mem_map, Option.mem_toList, Function.comp_apply] at now
        obtain ⟨nack, rfl, rfl⟩ := now
        exact (aged.answered cda found issued apart answering).2 (by simpa using live)

/-- The collected nacks of a request reach the requester. -/
theorem deliver {slot : Nat} {tbe : Option TBE} {pending : Pending}
    (delivered : state.machine.deliver slot tbe pending = .ok machine) :
    Aged { state with machine := machine, issued := state.issued.eraseIdx slot } := by
  obtain ⟨out, nack, after, found, collecting, received, rfl⟩ :=
    ForwardingMachine.deliver_ok delivered
  obtain ⟨sound, version, -⟩ := aged.cores out.requester
  have inFlight := List.mem_of_getElem? found
  obtain ⟨_, collected⟩ := collectNacks_some collecting
  obtain ⟨answer, sent, sender, -⟩ := collected.eldest
  rw [(aged.answers out inFlight answer sent).sender] at sender
  have admitted : (state.machine.cores out.requester).Admits (.nack nack tbe pending) := by
    refine ⟨by rw [sender], ?_⟩
    simpa [sender, version, Fin.val_inj] using aged.apart out inFlight answer sent
  have taken := Core.system_step.mpr ⟨admitted, received⟩
  have moved := aged.setCore (Core.sound_invariant.preserved sound taken)
    (Core.ageStep_of_take cda.lazy sound taken)
  refine ⟨moved.cores, ?_, ?_, ?_, fun entry listed answer sent => aged.apart entry
    (List.mem_of_mem_eraseIdx listed) answer sent,
    fun wait listed => { moved.waits wait listed with }⟩
  · simp only [List.length_eraseIdx, aged.paired]
  · intro other entry known listed issuedBy
    dsimp only at listed issuedBy
    rw [List.getElem?_eraseIdx] at listed issuedBy
    split at listed
    · next before =>
      rw [if_pos before] at issuedBy
      exact { moved.requests _ entry known listed issuedBy with }
    · next behind =>
      rw [if_neg behind] at issuedBy
      exact { moved.requests _ entry known listed issuedBy with }
  · intro entry listed answer sent
    exact { moved.answers entry (List.mem_of_mem_eraseIdx listed) answer sent with }

end Aged

private theorem aged_invariant (cda : IsCdaBase params) :
    (system params n count).Invariant Aged where
  initial := by
    rintro state ⟨⟨noRequests, -, starts⟩, noIssued, noWaits⟩
    refine ⟨fun proc => ?_, by simp [noRequests, noIssued], by simp [noRequests],
      by simp [noRequests], by simp [noRequests], by simp [noWaits]⟩
    obtain ⟨log, setUp, start⟩ := starts proc
    rw [start]
    exact ⟨.init setUp, rfl, Nat.zero_le _⟩
  preserved := by
    rintro state event next aged transition
    simp only [system, TransitionSystem.ofExcept_step, take, bind_eq_ok] at transition
    obtain ⟨machine, taken, recorded⟩ := transition
    cases event with
    | core proc event =>
      simp only [ForwardingMachine.take, run_eq_ok] at taken recorded
      obtain ⟨-, core, stepped, rfl⟩ := taken
      have sound := (aged.cores proc).sound
      exact recorded ▸ aged.setCore (Core.sound_invariant.preserved sound stepped)
        (Core.ageStep_of_take cda.lazy sound stepped)
    | issue proc addr =>
      simp only [ForwardingMachine.take, run_eq_ok] at taken recorded
      obtain ⟨req, issued, rfl⟩ := taken
      exact recorded ▸ aged.issue issued
    | handle slot holder kind line =>
      exact pure_eq_ok.mp recorded ▸ aged.handle cda taken
    | deliver slot tbe pending =>
      exact pure_eq_ok.mp recorded ▸ aged.deliver cda taken

/-! ## Cycles -/

/-- A transaction waits for another: both run, and a request of the first has been nacked by the
second while that was live. -/
def Waits (state : WaitingMachine params n count) (first second : Fin count) : Prop :=
  ∃ wait ∈ state.waits, wait.requester = first ∧ wait.holder = second ∧
    state.machine.Runs first wait.requesterUid ∧ state.machine.Runs second wait.holderUid

/-- Nobody on a cycle is younger. -/
def Youngest (state : WaitingMachine params n count) {length : Nat}
    (cycle : Fin (length + 1) → Fin count) (index : Fin (length + 1)) : Prop :=
  ∀ other, cycle other ≠ cycle index → state.machine.Older (cycle other) (cycle index)

/-- The least timestamp among the nackers of a request is that of one of them only. -/
def Untied (out : Outstanding n count) : Prop :=
  ∀ answer ∈ out.answers, ∀ other ∈ out.answers,
    (∀ sent ∈ out.answers, answer.nack.timestamp ≤ sent.nack.timestamp) →
    other.nack.timestamp = answer.nack.timestamp → other.holder = answer.holder

private theorem Aged.age_eq (aged : state.Aged) (proc : Fin count) : state.machine.age proc =
    toLex ((state.machine.cores proc).mgr.conflict.timestamp, proc.val) := by
  rw [ForwardingMachine.age, age, (aged.cores proc).version]

/-- Transactions of different processors have different ages. -/
theorem Aged.isStrictTotalOrder (aged : state.Aged) :
    IsStrictTotalOrder (Fin count) state.machine.Older := by
  have injective : Function.Injective state.machine.age := by
    intro first second same
    rw [aged.age_eq, aged.age_eq, toLex_inj, Prod.mk.injEq] at same
    exact Fin.ext same.2
  exact (RelEmbedding.preimage ⟨state.machine.age, injective⟩ (· < ·)).isStrictTotalOrder

/-- Somebody on a cycle is the youngest. -/
theorem Aged.exists_youngest (aged : state.Aged) {length : Nat}
    (cycle : Fin (length + 1) → Fin count) : ∃ index, state.Youngest cycle index := by
  obtain ⟨index, latest⟩ := Finite.exists_max fun index => state.machine.age (cycle index)
  refine ⟨index, fun other apart => lt_of_le_of_ne (latest other) fun same => apart ?_⟩
  rw [aged.age_eq, aged.age_eq, toLex_inj, Prod.mk.injEq] at same
  exact Fin.ext same.2

/-- The youngest transaction on a cycle has nacked its predecessor and suspects the cycle. -/
theorem Aged.youngest_suspects (aged : state.Aged) {length : Nat}
    {cycle : Fin (length + 1) → Fin count}
    (waits : ∀ index, state.Waits (cycle index) (cycle (index + 1)))
    {index : Fin (length + 1)} (youngest : state.Youngest cycle index) :
    (state.machine.cores (cycle index)).mgr.conflict.possibleCycle = true := by
  obtain ⟨wait, listed, requester, holder, waiting, holding⟩ := waits (index - 1)
  rw [sub_add_cancel] at holder holding
  have recorded := aged.waits wait listed
  have apart := recorded.apart
  have cycle := recorded.cycle
  rw [requester, holder] at cycle apart
  exact cycle waiting holding (youngest _ apart)

variable {out : Outstanding n count}

section

variable (aged : state.Aged) (listed : out ∈ state.machine.requests)

include aged listed

/-- Without a tie the collected nack names a transaction that is older than everybody who is younger
than one of the nackers. -/
theorem Aged.collected_older (untied : Untied out) {first answer : Answer n count} {nack : Nack n}
    (collected : Collected Answer.nack first out.answers nack)
    (sent : answer ∈ out.answers) (runs : state.machine.Runs answer.holder answer.uid)
    (older : state.machine.Older answer.holder proc) :
    toLex (nack.timestamp, nack.sender.num) < state.machine.age proc := by
  have known := aged.answers out listed answer sent
  unfold ForwardingMachine.Older at older
  rw [aged.age_eq, ← known.timestamp runs] at older
  obtain ⟨eldest, among, sender, timestamp, -⟩ := collected.eldest
  rw [sender, (aged.answers out listed eldest among).sender]
  rcases (collected.oldest answer sent).lt_or_eq with earlier | same
  · exact lt_trans (Prod.Lex.toLex_lt_toLex.mpr (.inl earlier)) older
  · have holder : answer.holder = eldest.holder := by
      refine untied eldest among answer sent (fun other listed => ?_) ?_
      · exact timestamp ▸ collected.oldest other listed
      · exact same.symm.trans timestamp
    rw [same, ← holder]
    exact older

/-- The nackers of a request are collected into a nack that reaches the manager. -/
theorem Aged.collected (some_answer : out.answers ≠ []) :
    ∃ nack, collectNacks (out.answers.map Answer.nack) = .ok (some nack) := by
  refine collectNacks_total (by simpa using some_answer) fun nack sent => ?_
  obtain ⟨answer, answered, rfl⟩ := List.mem_map.mp sent
  exact (aged.answers out listed answer answered).ordinary

/-- The collected nack comes from another core, and without value forwarding it has no priority. -/
theorem Aged.collected_source {first : Answer n count} {nack : Nack n}
    (collected : Collected Answer.nack first out.answers nack) :
    (∃ answer ∈ out.answers, nack.timestamp = answer.nack.timestamp ∧
      nack.sender = ⟨.l1Cache, answer.holder⟩ ∧ answer.holder ≠ out.requester) ∧
    (params.allowEarlyValueFwd = false → nack.priority = ncPrioValue) := by
  constructor
  · obtain ⟨answer, sent, sender, timestamp, -⟩ := collected.eldest
    exact ⟨answer, sent, timestamp, sender.trans (aged.answers out listed answer sent).sender,
      aged.apart out listed answer sent⟩
  · intro disabled
    obtain ⟨answer, sent, same⟩ := collected.among
    exact same.trans ((aged.answers out listed answer sent).priority disabled)

end

/-- The age order is a strict total order.  In every cycle of waiting transactions the youngest one
suspects the cycle, and the nack made of the nacks of one of its requests, if its successor is among
the nackers and no two nackers tie for the least timestamp, makes `notifyReceiveNack` set its abort
flag.  Through `notifyReceiveNack` a transaction aborts only if it is younger than the nacker that
the nack names. -/
theorem youngest_aborts (cda : IsCdaBase params)
    (reachable : (system params n count).Reachable state) :
    IsStrictTotalOrder (Fin count) state.machine.Older ∧
    (∀ (length : Nat) (cycle : Fin (length + 1) → Fin count),
      (∀ index, state.Waits (cycle index) (cycle (index + 1))) →
      (∃ index, state.Youngest cycle index) ∧
      ∀ index, state.Youngest cycle index →
        (state.machine.cores (cycle index)).mgr.conflict.possibleCycle = true ∧
        ∀ out ∈ state.machine.requests, out.requester = cycle index → Untied out →
          (∃ answer ∈ out.answers, answer.holder = cycle (index + 1) ∧
            state.machine.Runs answer.holder answer.uid) →
          ∃ nack, collectNacks (out.answers.map Answer.nack) = .ok (some nack) ∧
            (∀ next, (state.machine.cores (cycle index)).mgr.notifyReceiveNack nack.toRemote =
              .ok next → next.abort.abortFlag = true) ∧
            (params.allowEarlyValueFwd = false ∨ makeLineAddress n
                (state.machine.cores (cycle index)).mgr.conflict.sentNackAddr ≠ 0 →
              ∃ next, (state.machine.cores (cycle index)).mgr.notifyReceiveNack nack.toRemote =
                .ok next)) ∧
    ∀ out ∈ state.machine.requests, ∀ nack next,
      collectNacks (out.answers.map Answer.nack) = .ok (some nack) →
      (state.machine.cores out.requester).mgr.notifyReceiveNack nack.toRemote = .ok next →
      (state.machine.cores out.requester).mgr.abort.abortFlag = false →
      next.abort.abortFlag = true →
      ∃ answer ∈ out.answers, nack.sender = ⟨.l1Cache, answer.holder⟩ ∧
        toLex (answer.nack.timestamp, answer.holder.val) < state.machine.age out.requester ∧
        (state.machine.Runs answer.holder answer.uid →
          state.machine.Older answer.holder out.requester) := by
  have aged := (aged_invariant cda).of_reachable reachable
  refine ⟨aged.isStrictTotalOrder, fun length cycle waits => ⟨aged.exists_youngest cycle,
    fun index youngest => ⟨aged.youngest_suspects waits youngest, ?_⟩⟩, ?_⟩
  · rintro out listed requester untied ⟨answer, sent, holder, runs⟩
    obtain ⟨_, _, _, _, ⟨inside, _⟩, _⟩ := waits index
    have ⟨sound, version, _⟩ := aged.cores (cycle index)
    have running := sound.isRunning_of_lazy cda.lazy inside
    obtain ⟨nack, collecting⟩ := aged.collected listed (List.ne_nil_of_mem sent)
    obtain ⟨_, collected⟩ := collectNacks_some collecting
    obtain ⟨⟨named, _, timestamp, sender, apart⟩, priority⟩ :=
      aged.collected_source listed collected
    have older : state.machine.Older answer.holder (cycle index) := by
      have apart := aged.apart out listed answer sent
      rw [holder, requester] at apart
      exact holder ▸ youngest _ apart
    refine ⟨nack, collecting, fun next received => ?_, fun named => ?_⟩
    · refine (notifyReceiveNack_iff cda running received).mpr (.inr ?_)
      exact ⟨aged.youngest_suspects waits youngest,
        aged.collected_older listed untied collected sent runs older⟩
    · have other : nack.sender.num ≠ (state.machine.cores (cycle index)).mgr.version := by
        rw [sender, version, ← requester]
        exact Fin.val_ne_of_ne apart
      refine notifyReceiveNack_total sound running
        (show nack.sender.type = .l1Cache by rw [sender]) other
        (named.imp_left fun disabled => ?_) cda
      rw [show nack.toRemote.remotePriority = nack.priority from rfl, priority disabled]
      decide
  · intro out listed nack next collecting received live flagged
    have ⟨sound, version, _⟩ := aged.cores out.requester
    obtain ⟨_, collected⟩ := collectNacks_some collecting
    obtain ⟨⟨named, sent, timestamp, sender, apart⟩, -⟩ := aged.collected_source listed collected
    have inside : (state.machine.cores out.requester).mgr.transactionLevel ≠ 0 := by
      intro outside
      simp only [notifyReceiveNack, outside, ↓reduceIte, pure_eq_ok] at received
      rw [← received, live] at flagged
      simp at flagged
    have running := sound.isRunning_of_lazy cda.lazy inside
    have older := ((notifyReceiveNack_iff cda running received).mp
      flagged).resolve_left (by simp [live])
    have before : toLex (named.nack.timestamp, named.holder.val) <
        state.machine.age out.requester := by
      have compared := older.2
      simp only [Nack.toRemote, timestamp, sender] at compared
      exact compared
    refine ⟨named, sent, sender, before, fun runs => ?_⟩
    unfold ForwardingMachine.Older
    rw [aged.age_eq named.holder, ← (aged.answers out listed named sent).timestamp runs]
    exact before

private theorem isCdaBase_cdaBase : IsCdaBase cdaBase := ⟨rfl, rfl⟩

/-- Three transactions begin in the same cycle.  Core 1 writes the block at 64, cores 0 and 2 read
the block at 128.  Core 0 asks for the block of core 1 and is nacked; core 1 asks for the other
block and `holders` answer in this order. -/
def crossedEvents (holders : List (Fin 3)) : List (MachineEvent 64 3) :=
  let reader (proc : Fin 3) : List (MachineEvent 64 3) :=
    [.core proc (.environment ⟨⟨[]⟩, ∅, 5, false, ∅⟩),
     .core proc (.command .start ⟨1, 1, false⟩ (.ok false) fun _ => false),
     .core proc (.request 1 ⟨128, 8, false, fun _ => 0⟩)]
  (Core.writerEvents 64 false).map (.core 1) ++ reader 0 ++ reader 2 ++
    [.issue 0 64, .handle 0 1 .load ⟨true, false⟩, .issue 1 128] ++
    holders.map fun holder => .handle 1 holder .invalidation ⟨true, false⟩

/-- Cores 0 and 1 wait for each other, core 1 is the younger one and has been nacked by core 0. -/
structure Crossed (state : WaitingMachine cdaBase 64 3) (out : Outstanding 64 3) : Prop where
  first : state.Waits 0 1
  second : state.Waits 1 0
  younger : state.machine.Older 0 1
  listed : out ∈ state.machine.requests
  requester : out.requester = 1
  answered : ∃ answer ∈ out.answers, answer.holder = 0 ∧ state.machine.Runs answer.holder answer.uid

/-- The state after `crossedEvents`, as far as it matters. -/
def isCrossed (state : WaitingMachine cdaBase 64 3) (out : Outstanding 64 3) : Bool :=
  ⟨0, 1, 1, 1⟩ ∈ state.waits && ⟨1, 1, 0, 1⟩ ∈ state.waits &&
    state.machine.Runs 0 1 && state.machine.Runs 1 1 &&
    (state.machine.cores 0).mgr.conflict.timestamp = 5 && (state.machine.cores 0).mgr.version = 0 &&
    (state.machine.cores 1).mgr.conflict.timestamp = 5 && (state.machine.cores 1).mgr.version = 1 &&
    out.requester = 1 && out.answers.any fun answer => answer.holder = 0 && answer.uid = 1

variable {state : WaitingMachine cdaBase 64 3}

private theorem Crossed.of_isCrossed {out : Outstanding 64 3}
    (listed : out ∈ state.machine.requests)
    (checked : isCrossed state out = true) : Crossed state out := by
  simp only [isCrossed, Bool.and_eq_true, decide_eq_true_eq, List.any_eq_true] at checked
  obtain ⟨⟨⟨⟨⟨⟨⟨⟨⟨first, second⟩, runsZero⟩, runsOne⟩, zeroTime⟩, zero⟩, oneTime⟩, one⟩, requester⟩,
    answer, sent, holder, uid⟩ := checked
  refine ⟨⟨_, first, rfl, rfl, runsZero, runsOne⟩, ⟨_, second, rfl, rfl, runsOne, runsZero⟩, ?_,
    listed, requester, answer, sent, holder, ?_⟩
  · simp [ForwardingMachine.Older, ForwardingMachine.age, age, zeroTime,
      oneTime, zero, one, Prod.Lex.toLex_lt_toLex]
  · rw [holder, uid]
    exact runsZero

private theorem Crossed.waits {out : Outstanding 64 3} (crossed : Crossed state out) :
    ∀ index : Fin 2, state.Waits (![0, 1] index) (![0, 1] (index + 1)) := by
  intro index
  match index with
  | 0 => exact crossed.first
  | 1 => exact crossed.second

private theorem Crossed.youngest {out : Outstanding 64 3} (crossed : Crossed state out) :
    state.Youngest ![0, 1] (1 : Fin 2) := by
  intro index apart
  match index with
  | 0 => exact crossed.younger
  | 1 => exact absurd rfl apart

/-- Running the events reaches a state in which the two wait for each other. -/
theorem exists_crossed (holders : List (Fin 3))
    {P : WaitingMachine cdaBase 64 3 → Outstanding 64 3 → Prop}
    (evaluated : ∃ state, (crossedEvents holders).foldlM take
      ⟨⟨fun proc => Core.start cdaBase 64 proc Core.pageLog, [], []⟩, [], []⟩ = .ok state ∧
      ∃ out ∈ state.machine.requests[1]?, isCrossed state out = true ∧ P state out) :
    ∃ state out, (system cdaBase 64 3).Reachable state ∧ Crossed state out ∧ P state out := by
  obtain ⟨state, run, out, found, crossed, holds⟩ := evaluated
  refine ⟨state, out, ⟨_, crossedEvents holders, ⟨⟨rfl, rfl, fun proc => ?_⟩, rfl, rfl⟩,
    .of_foldlM run⟩, .of_isCrossed (List.mem_of_getElem? found) crossed, holds⟩
  exact ⟨Core.pageLog, by decide, rfl⟩

/-- The nack of core 0 makes core 1 abort. -/
theorem youngest_aborts_crossed : ∃ (state : WaitingMachine cdaBase 64 3) (out : Outstanding 64 3),
    (system cdaBase 64 3).Reachable state ∧ Crossed state out ∧
    (state.machine.cores 1).mgr.conflict.possibleCycle = true ∧
    ∃ nack next, collectNacks (out.answers.map Answer.nack) = .ok (some nack) ∧
      (state.machine.cores 1).mgr.notifyReceiveNack nack.toRemote = .ok next ∧
      next.abort.abortFlag = true := by
  obtain ⟨state, out, reachable, crossed, one⟩ :=
    exists_crossed (P := fun _ out => out.answers.length = 1) [0] (by decide +kernel)
  obtain ⟨answer, only⟩ := List.length_eq_one_iff.mp one
  have untied : Untied out := by
    simp [Untied, only]
  obtain ⟨-, cycles, -⟩ := youngest_aborts isCdaBase_cdaBase reachable
  obtain ⟨-, aborts⟩ := cycles 1 ![0, 1] crossed.waits
  obtain ⟨suspects, nacked⟩ := aborts 1 crossed.youngest
  obtain ⟨nack, collected, flags, received⟩ := nacked out crossed.listed crossed.requester untied
    crossed.answered
  obtain ⟨next, received⟩ := received (.inl rfl)
  exact ⟨state, out, reachable, crossed, suspects, nack, next, collected, received,
    flags next received⟩

/-- If the nack of core 2 arrives before that of core 0, with the same timestamp, the nack names
core 2 and core 1 keeps waiting. -/
theorem tied_nack_spares_youngest :
    ∃ (state : WaitingMachine cdaBase 64 3) (out : Outstanding 64 3),
      (system cdaBase 64 3).Reachable state ∧ Crossed state out ∧
      (state.machine.cores 1).mgr.conflict.possibleCycle = true ∧
      ∃ nack next, collectNacks (out.answers.map Answer.nack) = .ok (some nack) ∧
        (state.machine.cores 1).mgr.notifyReceiveNack nack.toRemote = .ok next ∧
        next.abort.abortFlag = false := by
  obtain ⟨state, out, reachable, crossed, suspects, _, collected, nack, rfl, next, received,
    spared⟩ :=
    exists_crossed (P := fun state out =>
      (state.machine.cores 1).mgr.conflict.possibleCycle = true ∧
      ∃ collected, collectNacks (out.answers.map Answer.nack) = .ok collected ∧
        ∃ nack ∈ collected, ∃ next,
          (state.machine.cores 1).mgr.notifyReceiveNack nack.toRemote = .ok next ∧
          next.abort.abortFlag = false) [2, 0] (by decide +kernel)
  exact ⟨state, out, reachable, crossed, suspects, nack, next, collected, received, spared⟩

end WaitingMachine

end Gem5.Ruby
