import Gem5.Mem.Ruby.Htm.CoreSystem
import Gem5.Mem.Ruby.Protocol.L1Controller
import Mathlib.Tactic.FinCases

/-!
# Conflicts that the L1 cache answers

Under LogTM a block may leave the L0 and the L1 while a transaction has it in its sets,
so the L1 asks the conflict manager itself about the requests of other cores.  The port
asks before it looks at the state of the line, and whether a request that is to be
nacked meets a transition depends on that state.
-/

namespace Gem5.Ruby.L1Cache

open Foundation TransactionInterfaceManager

variable {n : Nat}

/-! ## States -/

/-- The states in which a forwarded request can be nacked. -/
def nacksForward : List State := [.i, .im, .is, .isI, .iss, .mm, .m, .mI, .ee, .e]

/-- The states in which an invalidation can be nacked. -/
def nacksInvalidation : List State := [.i, .im, .is, .isI, .sm, .imM, .ss, .s]

/-- The states in which a request that is to be nacked waits for an answer of the L0. -/
def awaitsL0 : List State := [.sIL0, .mIL0, .eIL0, .mDL0, .eDL0, .mmIL0]

/-- The states in which a request is passed to the L0, or waits for its answer. -/
def asksL0 : List State := [.s, .e, .m, .sm, .sIL0, .mIL0, .eIL0, .smIL0]

/-- The states in which a request that is not to be nacked waits for an answer of the L0. -/
def awaitsEviction : List State := [.sIL0, .mIL0, .eIL0, .mmIL0]

/-- The states in which the signatures can be checked. -/
def checksSets : List State := [.i, .is, .isI, .im, .mI, .sinkWbAck]

/-- An event that nacks in these states and waits for the L0 in others. -/
def NacksIn (nacked : List State) (event : Event) : Prop :=
  ∀ state : State, if state ∈ awaitsL0 then
    Rule.actionsOf transitions state event = some [.stallAndWaitL2Queue]
  else if state ∈ nacked then Rule.actionsOf transitions state event ∈
    [some [.sendNackToL1Requestor, .popL2RequestQueue],
      some [.sendInvNackToL1Requestor, .popL2RequestQueue]]
  else Rule.actionsOf transitions state event ∈
    [none, some [.sendNackToL2Replacement, .popL2RequestQueue]]

/-! ## Answers -/

section

variable {σ : Type} [XactMgr σ] {place : Place} {msg : RequestMsg n} {mgr : σ}

/-- A request that leaves its queue has been answered with one nack, which tells whether the nacker
has written the block; one that stays has not been answered yet. -/
structure Answered (place : Place) (msg : RequestMsg n) (mgr : σ) (ctx : Context σ n) : Prop where
  nack : ctx.popped = true → ∃ count nack, ctx.sent = [.response msg.remoteId (.nack count nack)] ∧
    (nack.nackerIsWriter = true ↔ XactMgr.checkWriteSignature mgr place.address = true)
  waits : ctx.popped = false → ∀ destination response, .response destination response ∉ ctx.sent

/-- The result of an attempt is an answer. -/
def Answers (place : Place) (msg : RequestMsg n) (mgr : σ) (result : Checked (Context σ n)) :
    Prop :=
  ∃ ctx, result = .ok ctx ∧ Answered place msg mgr ctx

variable {asked : σ} {line : Line n} {event : Event} {actions : List Action}

private theorem not_answers_undefined (missing :
    Rule.actionsOf transitions line.getState event = none) :
    ¬ Answers place msg mgr ((controller place (.request msg)).trigger event
      (⟨asked, line, [], false⟩ : Context σ n)) := by
  rw [Controller.trigger_of_undefined (by
    simpa [Controller.defines, controller, Rule.actionsOf] using missing)]
  rintro ⟨ctx, ran, -⟩
  exact panicWith_ne_ok ran

/-- The answer does not depend on the state that is set when the actions have been performed. -/
theorem answers_trigger (found : Rule.actionsOf transitions line.getState event = some actions) :
    Answers place msg mgr ((controller place (.request msg)).trigger event
        (⟨asked, line, [], false⟩ : Context σ n)) ↔
      Answers place msg mgr (actions.foldlM
        (fun ctx action => perform place (.request msg) action ctx)
        (⟨asked, line, [], false⟩ : Context σ n)) := by
  obtain ⟨state, ran⟩ := @Controller.trigger_of_actions _ _ _ _ _ _
    (controller place (.request msg)) event (⟨asked, line, [], false⟩ : Context σ n) _ found
  rw [ran]
  constructor
  · rintro ⟨ctx, performed, answered⟩
    simp only [run_eq_ok] at performed
    obtain ⟨last, performed, rfl⟩ := performed
    exact ⟨last, performed, answered.nack, answered.waits⟩
  · rintro ⟨last, performed, answered⟩
    refine ⟨{ last with line := last.line.setState state }, ?_, answered.nack, answered.waits⟩
    rw [show actions.foldlM _ _ = .ok last from performed]
    rfl

/-- The request is tried again. -/
theorem answers_stall : Answers place msg mgr ([Action.stallAndWaitL2Queue].foldlM
    (fun ctx action => perform place (.request msg) action ctx)
    (⟨asked, line, [], false⟩ : Context σ n)) :=
  ⟨_, rfl, nofun, fun _ _ _ => List.not_mem_nil⟩

/-- The actions of a transition that takes the request and does not nack it. -/
def grants : List Action :=
  [.sendDataToRequestor, .sendDataToL2, .sendDataToRequestorFromTBE, .sendDataToL2FromTBE,
    .sendInvAck, .sendYieldToL2, .deallocateCacheBlock, .popL2RequestQueue]

/-- No nack has been sent. -/
def Quiet (ctx : Context σ n) : Prop :=
  ∀ destination count nack, .response destination (.nack count nack) ∉ ctx.sent

omit [XactMgr σ] in
variable {ctx : Context σ n}

private theorem Quiet.send {output : Output n} (quiet : Quiet ctx)
    (other : ∀ destination count nack, output ≠ .response destination (.nack count nack)) :
    Quiet (ctx.send output) := by
  intro destination count nack sent
  rcases List.mem_append.mp sent with before | now
  · exact quiet destination count nack before
  · exact other destination count nack (List.mem_singleton.mp now).symm

private theorem Quiet.perform {next : Context σ n} {action : Action} (quiet : Quiet ctx)
    (granted : action ∈ grants)
    (performed : L1Cache.perform place (.request msg) action ctx = .ok next) :
    Quiet next ∧ (ctx.popped = true ∨ action = .popL2RequestQueue → next.popped = true) := by
  fin_cases granted
  all_goals
    simp only [L1Cache.perform, Input.peekRequest, Context.entryData, Context.tbeData, run_eq_ok,
      exists_eq_left', reduceCtorEq, or_false] at performed ⊢
  iterate 4
    · obtain ⟨_, ⟨entry, -, rfl⟩, rfl⟩ := performed
      exact ⟨quiet.send (by simp), id⟩
  · obtain rfl := performed
    exact ⟨quiet.send (by simp), id⟩
  · obtain ⟨-, -, rfl⟩ := performed
    exact ⟨quiet.send (by simp), id⟩
  · obtain rfl := performed
    exact ⟨quiet, id⟩
  · obtain rfl := performed
    exact ⟨quiet, fun _ => rfl⟩

/-- A request that is granted is not nacked. -/
theorem not_answers_granted (granted : ∀ action ∈ actions, action ∈ grants)
    (pops : .popL2RequestQueue ∈ actions) : ¬ Answers place msg mgr (actions.foldlM
      (fun ctx action => perform place (.request msg) action ctx)
      (⟨asked, line, [], false⟩ : Context σ n)) := by
  have run {actions : List Action} {ctx next : Context σ n}
      (granted : ∀ action ∈ actions, action ∈ grants) (quiet : Quiet ctx)
      (ran : actions.foldlM (fun ctx action => perform place (.request msg) action ctx) ctx =
        .ok next) :
      Quiet next ∧ (ctx.popped = true ∨ .popL2RequestQueue ∈ actions → next.popped = true) := by
    induction actions generalizing ctx with
    | nil =>
      obtain rfl := pure_eq_ok.mp ran
      exact ⟨quiet, by simp⟩
    | cons action rest ih =>
      rw [List.foldlM_cons, bind_eq_ok] at ran
      obtain ⟨middle, performed, ran⟩ := ran
      obtain ⟨quiet, popped⟩ := quiet.perform (granted action (by simp)) performed
      obtain ⟨quiet, last⟩ := ih (fun action member => granted action (by simp [member])) quiet ran
      refine ⟨quiet, fun pop => last ?_⟩
      rcases pop with already | pop
      · exact .inl (popped (.inl already))
      · rcases List.mem_cons.mp pop with rfl | later
        · exact .inl (popped (.inr rfl))
        · exact .inr later
  rintro ⟨next, ran, answered⟩
  obtain ⟨quiet, popped⟩ := run granted (fun _ _ _ => List.not_mem_nil) ran
  obtain ⟨count, nack, sent, -⟩ := answered.nack (popped (.inr pops))
  exact quiet msg.remoteId count nack (by simp [sent])

/-- A conflict of a load that the L1 itself finds stops the simulation. -/
theorem loadEvent_conflict {req : RemoteRequest} {next : σ}
    (idle : ctx.line.l0NackElse.pending = false)
    (asked : shouldNackLoad ctx.mgr req = .ok (true, next))
    (noFwd : (XactMgr.params σ).allowEarlyValueFwd = false) :
    loadEvent ctx req = .error (.assertion "false") := by
  simp only [loadEvent, idle, Bool.false_eq_true, if_false, asked, ok_bind, if_true,
    assertThat_of noFwd]
  rfl

/-- What a nack needs: the requester is an L1 cache, the time is known, and only forwarding leaves a
block in the flags. -/
structure Nackable (line : Line n) (msg : RequestMsg n) (asked : σ) : Prop where
  remote : msg.remoteId.type = .l1Cache
  stamped : ∃ timestamp, XactMgr.getOldestTimestamp asked = .ok timestamp
  flags : line.l0NackElse.data.isSome = true → (XactMgr.params σ).allowEarlyValueFwd = true

private theorem sendNack_ok (place : Place) (ctx : Context σ n) (count : Int)
    (nackable : Nackable ctx.line msg ctx.mgr) :
    ∃ nack after, ctx.sendNack place count (.request msg) = .ok after ∧
      after.sent = ctx.sent ++ [.response msg.remoteId (.nack count nack)] ∧
      nack.nackerIsWriter = (XactMgr.checkWriteSignature ctx.mgr place.address &&
        !XactMgr.isBlockConsumed ctx.mgr place.address) := by
  obtain ⟨remote, ⟨timestamp, stamped⟩, flags⟩ := nackable
  simp only [Context.sendNack, Input.peekRequest, pure_bind, assertThat_of remote, ok_bind, stamped,
    Context.takeNackData]
  cases data : ctx.line.l0NackElse.data with
  | none => exact ⟨_, _, rfl, rfl, rfl⟩
  | some block =>
    rw [data] at flags
    simp only [assertThat_of (flags rfl), ok_bind]
    exact ⟨_, _, rfl, rfl, rfl⟩

/-- The nack of a transaction that has written a block which it consumed denies that. -/
def Honest (place : Place) (mgr : σ) : Prop :=
  ¬ (XactMgr.checkWriteSignature mgr place.address = true ∧
    XactMgr.isBlockConsumed mgr place.address = true)

variable (nackable : Nackable line msg asked)
  (written : XactMgr.checkWriteSignature asked place.address =
    XactMgr.checkWriteSignature mgr place.address)

include nackable written

private theorem answers_nack (nacks : actions = [.sendNackToL1Requestor, .popL2RequestQueue] ∨
      actions = [.sendInvNackToL1Requestor, .popL2RequestQueue]) :
    Answers place msg mgr (actions.foldlM
        (fun ctx action => perform place (.request msg) action ctx)
        (⟨asked, line, [], false⟩ : Context σ n)) ↔ Honest place asked := by
  obtain ⟨count, same⟩ : ∃ count, actions.foldlM
      (fun ctx action => perform place (.request msg) action ctx)
      (⟨asked, line, [], false⟩ : Context σ n) = do
        let ctx ← Context.sendNack ⟨asked, line, [], false⟩ place count (.request msg)
        return ctx.pop := by
    rcases nacks with rfl | rfl
    · exact ⟨0, rfl⟩
    · exact ⟨1, rfl⟩
  obtain ⟨nack, after, sent, outs, isWriter⟩ :=
    sendNack_ok place ⟨asked, line, [], false⟩ count nackable
  rw [same, sent, ok_bind]
  constructor
  · rintro ⟨ctx, popped, answered⟩ ⟨writes, consumed⟩
    obtain rfl := Except.ok.inj popped
    obtain ⟨count', nack', sent', told⟩ := answered.nack rfl
    obtain ⟨-, rfl⟩ : count = count' ∧ nack = nack' := by
      simpa [Context.pop, outs] using sent'
    rw [isWriter, consumed, ← written, writes] at told
    exact absurd told (by decide)
  · intro honest
    refine ⟨after.pop, rfl, fun _ => ⟨count, nack, outs, ?_⟩, nofun⟩
    rw [isWriter, ← written]
    unfold Honest at honest
    cases writes : XactMgr.checkWriteSignature asked place.address with
    | false => simp
    | true => simpa [writes] using honest

private theorem answers_nacking {nacked : List State} (table : NacksIn nacked event) :
    Answers place msg mgr ((controller place (.request msg)).trigger event
        (⟨asked, line, [], false⟩ : Context σ n)) ↔
      line.getState ∈ nacked ∧ Honest place asked ∨ line.getState ∈ awaitsL0 := by
  have entry := table line.getState
  simp only [List.mem_cons, List.not_mem_nil, or_false] at entry
  split at entry
  · next waits =>
    rw [answers_trigger entry]
    exact iff_of_true answers_stall (.inr waits)
  · next silent =>
    split at entry
    · next listed =>
      rw [and_iff_right listed, or_iff_left silent]
      rcases entry with found | found
      · rw [answers_trigger found, answers_nack nackable written (.inl rfl)]
      · rw [answers_trigger found, answers_nack nackable written (.inr rfl)]
    · next other =>
      refine iff_of_false ?_ (by simp [other, silent])
      rcases entry with missing | found
      · exact not_answers_undefined missing
      · -- in `E` and `M` only the L2 itself may be refused
        rw [answers_trigger found]
        rintro ⟨ctx, ran, -⟩
        simp [perform, Input.peekRequest, nackable.remote] at ran

/-- An event that is granted, except in these states, in which the L0 has to answer first. -/
def WaitsIn (waits : List State) (event : Event) : Prop :=
  ∀ state : State, if state ∈ waits then Rule.actionsOf transitions state event ∈
    [some [.stallAndWaitL2Queue], some [.forwardEvictionToL0Else]]
  else ∀ actions ∈ Rule.actionsOf transitions state event,
    (∀ action ∈ actions, action ∈ grants) ∧ .popL2RequestQueue ∈ actions

omit nackable written in
private theorem answers_waiting {waits : List State} (idle : line.l0NackElse.pending = false)
    (table : WaitsIn waits event) :
    Answers place msg mgr ((controller place (.request msg)).trigger event
        (⟨asked, line, [], false⟩ : Context σ n)) ↔ line.getState ∈ waits := by
  have entry := table line.getState
  split at entry
  · next listed =>
    refine iff_of_true ?_ listed
    simp only [List.mem_cons, List.not_mem_nil, or_false] at entry
    rcases entry with found | found
    · rw [answers_trigger found]
      exact answers_stall
    · rw [answers_trigger found]
      -- the request is tried again when the L0 has answered
      refine ⟨⟨asked, line, [.toL0 (.invElse msg.toRemoteRequest)], false⟩, ?_, nofun, by simp⟩
      simp only [List.foldlM_cons, List.foldlM_nil, perform, assertThat_of idle, ok_bind]
      rfl
  · next never =>
    refine iff_of_false ?_ never
    cases found : Rule.actionsOf transitions line.getState event with
    | none => exact not_answers_undefined found
    | some actions =>
      obtain ⟨granted, pops⟩ := entry actions found
      rw [answers_trigger found]
      exact not_answers_granted granted pops

omit nackable written in
/-- A check of the signatures. -/
theorem answers_check {shouldNack : σ → RemoteRequest → Checked (Bool × σ)} {nacks : Bool}
    {next : σ} (checks : event = .checkWriteSet ∧ shouldNack = shouldNackLoad ∨
      event = .checkReadWriteSet ∧ shouldNack = shouldNackStore)
    (judged : shouldNack asked msg.toRemoteRequest = .ok (nacks, next))
    (stamped : ∃ timestamp, XactMgr.getOldestTimestamp next = .ok timestamp)
    (written : XactMgr.checkWriteSignature next place.address =
      XactMgr.checkWriteSignature mgr place.address) :
    Answers place msg mgr ((controller place (.request msg)).trigger event
        (⟨asked, line, [], false⟩ : Context σ n)) ↔
      line.getState ∈ checksSets ∧ nacks = true := by
  obtain ⟨action, table, performed⟩ : ∃ action, (Rule.actionsOf transitions line.getState event =
      if line.getState ∈ checksSets then some [action, .popL2RequestQueue] else none) ∧
      ∀ ctx : Context σ n, perform place (.request msg) action ctx =
        ctx.checkHtmSets place shouldNack (.request msg) := by
    rcases checks with ⟨rfl, rfl⟩ | ⟨rfl, rfl⟩
    · exact ⟨.checkHtmWriteSet, by cases line.getState <;> rfl, fun _ => rfl⟩
    · exact ⟨.checkHtmReadWriteSet, by cases line.getState <;> rfl, fun _ => rfl⟩
  split at table
  · next listed =>
    obtain ⟨timestamp, stamped⟩ := stamped
    rw [answers_trigger table, and_iff_right listed]
    simp only [List.foldlM_cons, List.foldlM_nil, performed, Context.checkHtmSets,
      Input.peekRequest, pure_bind, judged, ok_bind]
    cases nacks with
    | true =>
      refine iff_of_true ?_ rfl
      simp only [if_true, stamped, ok_bind]
      exact ⟨_, rfl, fun _ => ⟨1, _, rfl, by simp only [written]⟩, nofun⟩
    | false =>
      refine iff_of_false ?_ (by decide)
      rintro ⟨ctx, same, answered⟩
      obtain rfl := Except.ok.inj same
      obtain ⟨count, nack, sent, -⟩ := answered.nack rfl
      simp [Context.send, Context.pop] at sent
  · next never => exact iff_of_false (not_answers_undefined table) (fun both => never both.1)

end

/-! ## Conflicts under LogTM -/

section

variable {params : HTMParams} {place : Place} {msg : RequestMsg n}
  {mgr : TransactionInterfaceManager params n} {line : Line n}

/-- The conflict manager decides to nack the request: loads are checked against the write set,
stores against both sets. -/
def Nacks (mgr : TransactionInterfaceManager params n) (msg : RequestMsg n) : Prop :=
  match msg.type with
  | .gets | .checkWriteSet => ∃ next, mgr.shouldNackLoad msg.toRemoteRequest = .ok (true, next)
  | _ => ∃ next, mgr.shouldNackStore msg.toRemoteRequest = .ok (true, next)

/-- The states in which the L1 answers a request that is to be nacked.  A forwarded load is answered
only if the L0 has nacked it before; stores are looked up only if blocks of the read set may leave
the L1, and passed to the L0 otherwise. -/
def Answerable (place : Place) (mgr : TransactionInterfaceManager params n) (line : Line n) :
    CoherenceRequestType → Prop
  | .gets => line.l0NackElse.pending = true ∧
      (line.getState ∈ nacksForward ∧ Honest place mgr ∨ line.getState ∈ awaitsL0)
  | .getx | .upgrade =>
    if line.l0NackElse.pending = true ∨ params.allowReadSetL1CacheEvictions = true then
      line.getState ∈ nacksForward ∧ Honest place mgr ∨ line.getState ∈ awaitsL0
    else if line.maybeInL0 then line.getState ∈ asksL0 else line.getState ∈ awaitsEviction
  | .inv =>
    if line.l0NackElse.pending = true ∨ params.allowReadSetL1CacheEvictions = true then
      line.getState ∈ nacksInvalidation ∧ Honest place mgr ∨ line.getState ∈ awaitsL0
    else if line.maybeInL0 then line.getState ∈ asksL0 else line.getState ∈ .sm :: awaitsEviction
  | .checkReadWriteSet => line.getState ∈ checksSets ∧ params.allowReadSetL1CacheEvictions = true
  | .checkWriteSet => line.getState ∈ checksSets
  | .putx | .putm => False

section

variable {next : TransactionInterfaceManager params n}
  (frame : ConflictFrame mgr next)

include frame

private theorem Nackable.of_frame (nackable : Nackable line msg mgr) : Nackable line msg next := by
  obtain ⟨timestamp, stamped⟩ := nackable.stamped
  refine ⟨nackable.remote, ⟨timestamp, stamped ▸ ?_⟩, nackable.flags⟩
  have same := frame.timestamp
  obtain ⟨_, _, conflict, _, _, rfl⟩ := frame.shape
  show getOldestTimestamp _ = mgr.getOldestTimestamp
  simp only [getOldestTimestamp, show conflict.timestamp = _ from same]

private theorem honest_of_frame : Honest place next ↔ Honest place mgr := by
  obtain ⟨_, _, _, _, _, rfl⟩ := frame.shape
  rfl

end

variable (nackable : Nackable line msg mgr)

include nackable

omit nackable in
/-- Under LogTM the L1 passes the verdict on a load on. -/
theorem shouldNackLoad_of_logTm {req : RemoteRequest} {nacks : Bool}
    {next : TransactionInterfaceManager params n} (logTm : params.lazyVm = false)
    (remote : req.remoteId.type = .l1Cache) (judged : mgr.shouldNackLoad req = .ok (nacks, next)) :
    shouldNackLoad mgr req = .ok (nacks, next) := by
  rw [shouldNackLoad, if_neg (by
    show ¬ (!params.allowWriteSetL1CacheEvictions && !params.allowReadSetL1CacheEvictions) = true
    simp [(params.writeSetEvictions logTm).2.1]), assertThat_of remote, ok_bind]
  exact judged

omit nackable in
/-- The L1 passes the verdict on a store on if it asks for it. -/
theorem shouldNackStore_cases {req : RemoteRequest} {nacks : Bool}
    {next : TransactionInterfaceManager params n}
    (judged : mgr.shouldNackStore req = .ok (nacks, next)) :
    params.allowReadSetL1CacheEvictions = true ∧ shouldNackStore mgr req = .ok (nacks, next) ∨
      params.allowReadSetL1CacheEvictions = false ∧ shouldNackStore mgr req = .ok (false, mgr) := by
  cases allowed : params.allowReadSetL1CacheEvictions with
  | true => exact .inl ⟨rfl, by simp [shouldNackStore_eq, allowed, judged]⟩
  | false => exact .inr ⟨rfl, by simp [shouldNackStore_eq, allowed]⟩

/-- A store that is to be nacked: the L0 has nacked it before, or the L1 asks the conflict manager,
or the L0 is asked. -/
theorem answers_storeEvent {nacked plain : Event} {nackedStates waits : List State}
    (nacks : ∃ next, mgr.shouldNackStore msg.toRemoteRequest = .ok (true, next))
    (refuses : NacksIn nackedStates nacked) (asks : WaitsIn waits plain) : Answers place msg mgr (do
        let (event, ctx) ← storeEvent ⟨mgr, line, [], false⟩ msg.toRemoteRequest nacked plain
        (controller place (.request msg)).trigger event ctx) ↔
      if line.l0NackElse.pending = true ∨ params.allowReadSetL1CacheEvictions = true then
        line.getState ∈ nackedStates ∧ Honest place mgr ∨ line.getState ∈ awaitsL0
      else if line.maybeInL0 then line.getState ∈ asksL0 else line.getState ∈ waits := by
  obtain ⟨next, judged⟩ := nacks
  have frame := ConflictFrame.of_shouldNackStore judged
  unfold storeEvent
  by_cases pending : line.l0NackElse.pending = true
  · simp only [pending, if_true, true_or, pure_bind]
    refine answers_nacking ?_ rfl refuses
    exact ⟨nackable.remote, nackable.stamped, nackable.flags⟩
  · simp only [pending, Bool.false_eq_true, if_false, false_or]
    rcases shouldNackStore_cases judged with ⟨allowed, asked⟩ | ⟨never, silent⟩
    · rw [if_pos allowed]
      simp only [asked, ok_bind, if_true, pure_bind]
      rw [answers_nacking (nackable.of_frame frame) (frame.checkWriteSignature_eq _) refuses,
        honest_of_frame frame]
    · rw [if_neg (by simp [never])]
      simp only [silent, ok_bind, Bool.false_eq_true, if_false]
      have table : WaitsIn asksL0 .l0InvalidateElse := fun state => by cases state <;> decide
      split
      · exact answers_waiting (by simpa using pending) table
      · exact answers_waiting (by simpa using pending) asks

/-- Under LogTM a request that the conflict manager decides to nack is answered exactly in the
listed states. -/
theorem answers_iff_answerable (logTm : params.lazyVm = false) (nacks : Nacks mgr msg) :
    Answers place msg mgr (requestNetworkIn place msg ⟨mgr, line, [], false⟩) ↔
      Answerable place mgr line msg.type := by
  unfold requestNetworkIn requestEvent
  unfold Nacks at nacks
  cases type : msg.type with
  | gets =>
    simp only [type] at nacks ⊢
    obtain ⟨next, judged⟩ := nacks
    have asked := shouldNackLoad_of_logTm logTm nackable.remote judged
    unfold loadEvent
    by_cases pending : line.l0NackElse.pending = true
    · simp only [pending, if_true, pure_bind, Answerable, true_and]
      refine answers_nacking ?_ rfl fun state => by cases state <;> decide
      exact ⟨nackable.remote, nackable.stamped, nackable.flags⟩
    · refine iff_of_false ?_ fun answerable => pending answerable.1
      simp only [pending, Bool.false_eq_true, if_false, asked, ok_bind, if_true]
      rintro ⟨ctx, ran, -⟩
      simp at ran
  | getx | upgrade | inv =>
    simp only [type] at nacks ⊢
    refine answers_storeEvent nackable nacks ?_ ?_
    all_goals exact fun state => by cases state <;> decide
  | checkReadWriteSet =>
    simp only [type, pure_bind] at nacks ⊢
    obtain ⟨next, judged⟩ := nacks
    have frame := ConflictFrame.of_shouldNackStore judged
    rcases shouldNackStore_cases judged with ⟨allowed, asked⟩ | ⟨never, silent⟩
    · rw [answers_check (.inr ⟨rfl, rfl⟩) asked (nackable.of_frame frame).stamped
        (frame.checkWriteSignature_eq _)]
      simp [Answerable, allowed]
    · rw [answers_check (.inr ⟨rfl, rfl⟩) silent nackable.stamped rfl]
      simp [Answerable, never]
  | checkWriteSet =>
    simp only [type, pure_bind] at nacks ⊢
    obtain ⟨next, judged⟩ := nacks
    have asked := shouldNackLoad_of_logTm logTm nackable.remote judged
    have frame := ConflictFrame.of_shouldNackLoad judged
    rw [answers_check (.inl ⟨rfl, rfl⟩) asked (nackable.of_frame frame).stamped
      (frame.checkWriteSignature_eq _)]
    simp [Answerable]
  | putx | putm =>
    refine iff_of_false ?_ id
    rintro ⟨ctx, ran, -⟩
    simp at ran

end

/-! ### A transaction that has written a block -/

/-- The L1 cache of core 0 and the block at 64. -/
def writerL1 : Place := ⟨⟨.l1Cache, 0⟩, 64⟩

/-- A transactional load of core 1 that the L2 passes on. -/
def forwardedLoad : RequestMsg 64 :=
  { addr := 64, remoteId := ⟨.l1Cache, 1⟩, remoteTimestamp := 9, remoteTrans := .trans
    remotePriority := 0, remoteSwPriority := false, type := .gets, data := none }

/-- The store of core 0 for which the block was fetched. -/
def fetchingStore : RemoteRequest :=
  ⟨64, ⟨.l1Cache, 0⟩, 5, .trans, 0, false⟩

/-- A core that has written the block, and what its manager says to a load of core 1. -/
theorem exists_writer : ∃ core next timestamp, (Core.system Core.logTM 64).Reachable core ∧
    core.mgr.checkWriteSignature 64 = true ∧
    core.mgr.shouldNackLoad forwardedLoad.toRemoteRequest = .ok (true, next) ∧
    core.mgr.getOldestTimestamp = .ok timestamp := by
  obtain ⟨core, reachable, writes, ⟨timestamp, stamped⟩, ⟨_, next⟩, judged, rfl⟩ :=
    Core.exists_reachable (P := fun core : Core Core.logTM 64 =>
        core.mgr.checkWriteSignature 64 = true ∧
        (∃ timestamp, core.mgr.getOldestTimestamp = .ok timestamp) ∧
        ∃ answer, core.mgr.shouldNackLoad forwardedLoad.toRemoteRequest = .ok answer ∧
          answer.1 = true) (Core.writerEvents 64 false) 0 (by decide +kernel)
  exact ⟨core, next, timestamp, reachable, writes, judged, stamped⟩

/-- The block has left the private caches: the check of another core is nacked. -/
theorem answers_iff_answerable_evicted :
    ∃ core, (Core.system Core.logTM 64).Reachable core ∧ core.mgr.checkWriteSignature 64 = true ∧
      Answers writerL1 { forwardedLoad with type := .checkWriteSet } core.mgr
        (requestNetworkIn writerL1 { forwardedLoad with type := .checkWriteSet }
          ⟨core.mgr, .invalid, [], false⟩) := by
  obtain ⟨core, next, timestamp, reachable, writes, judged, stamped⟩ := exists_writer
  have nacks : Nacks core.mgr { forwardedLoad with type := .checkWriteSet } := ⟨next, judged⟩
  refine ⟨core, reachable, writes, (answers_iff_answerable ?_ rfl nacks).mpr ?_⟩
  · exact ⟨rfl, ⟨timestamp, stamped⟩, nofun⟩
  · show _ ∈ checksSets
    decide

/-- The block is in the L0 and a load of another core conflicts: the port stops at an assertion. -/
theorem forwardedLoad_fails_assertion :
    ∃ core waiting written next, (Core.system Core.logTM 64).Reachable core ∧
      core.mgr.checkWriteSignature 64 = true ∧
      messageBufferFromL0In writerL1 (.getx fetchingStore) ⟨core.mgr, .invalid, [], false⟩ =
        .ok waiting ∧
      responseNetworkIn writerL1 (.data l2Bank 0 (fun _ => 0) false false)
        { waiting with sent := [], popped := false } = .ok written ∧
      written.line.getState = .m ∧
      written.mgr.shouldNackLoad forwardedLoad.toRemoteRequest = .ok (true, next) ∧
      requestNetworkIn writerL1 forwardedLoad { written with sent := [], popped := false } =
        .error (.assertion "false") := by
  obtain ⟨core, next, timestamp, reachable, writes, judged, stamped⟩ := exists_writer
  refine ⟨core, _, _, next, reachable, writes, rfl, rfl, rfl, judged, ?_⟩
  exact (congrArg (· >>= _)
    (loadEvent_conflict rfl (shouldNackLoad_of_logTm rfl rfl judged) rfl)).trans rfl

end Gem5.Ruby.L1Cache
