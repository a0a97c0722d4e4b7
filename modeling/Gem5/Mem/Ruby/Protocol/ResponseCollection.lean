import Gem5.Mem.Ruby.Protocol.L1Controller
import Gem5.Mem.Ruby.Protocol.L2Controller
import Mathlib.Tactic.FinCases

/-!
# The answers to one request in the L1 cache

For a `GETS`, `GETX` or `UPGRADE` the L2 asks some other L1 caches for an ack or a nack
and tells the requester how many of them to expect, as a negative count in its data or
ack message.  The requester subtracts what arrives until nothing is pending.  The answers
and the message of the L2 arrive in any order, so the count may be negative for a while,
and the state in which the requester waits depends on the order.
-/

namespace Gem5.Ruby.L1Cache

open Foundation

variable {n : Nat}

/-- The answer of an L1 cache to an invalidation or to a check. -/
inductive IsAnswer : ResponseMsg n → Prop where
  | ack (sender : MachineID) : IsAnswer (.ack sender 1)
  | nack (msg : NackMsg n) : IsAnswer (.nack 1 msg)

/-- The L1 cache that answers. -/
def answerer : ResponseMsg n → MachineID
  | .ack sender _ => sender
  | .nack _ msg => msg.sender
  | _ => createInvalidMachineID

/-- The nacks among the messages, in the order of their arrival. -/
def nacksOf (msgs : List (ResponseMsg n)) : List (NackMsg n) :=
  msgs.filterMap fun
    | .nack _ msg => some msg
    | _ => none

/-- The messages to the L0. -/
def toL0Of (sent : List (Output n)) : List (ToL0Msg n) :=
  sent.filterMap fun
    | .toL0 msg => some msg
    | _ => none

/-- The messages on the unblock network. -/
def unblocksOf (sent : List (Output n)) : List UnblockMsg :=
  sent.filterMap fun
    | .unblock msg => some msg
    | _ => none

/-- A data message to the L0. -/
def isData : ToL0Msg n → Bool
  | .data _ | .dataExclusive _ _ | .staleData _ _ => true
  | _ => false

/-- An `UNBLOCK_CANCEL`. -/
def isCancel : UnblockMsg → Bool
  | .unblockCancel _ _ _ => true
  | _ => false

section

variable {σ : Type} [XactMgr σ] {place : Place}

/-- The message is taken and the request is finished. -/
def Closes (result : Checked (Context σ n)) (outs : List (Output n)) : Prop :=
  ∃ after, result = .ok after ∧ after.popped = true ∧ after.line.tbe = none ∧ after.sent = outs

/-- The messages are taken one after the other; each but the last leaves the request open and sends
nothing, the last one closes it and sends `outs`. -/
def Collects (place : Place) (mgr : σ) (line : Line n) :
    List (ResponseMsg n) → List (Output n) → Prop
  | [], _ => False
  | [msg], outs => Closes (responseNetworkIn place msg ⟨mgr, line, [], false⟩) outs
  | msg :: rest, outs => ∃ after, responseNetworkIn place msg ⟨mgr, line, [], false⟩ = .ok after ∧
      after.popped = true ∧ after.line.tbe.isSome = true ∧ after.sent = [] ∧
      Collects place after.mgr after.line rest outs

/-- The request ends with one data message or, if it was nacked, with one nack to the L0; it is
cancelled exactly if it was nacked, and an L2 that waits gets one unblock message. -/
structure Settles (outs : List (Output n)) (nacked blocks : Bool) : Prop where
  data : nacked = false → ∃ msg, toL0Of outs = [msg] ∧ isData msg = true
  nack : nacked = true → ∃ msg, toL0Of outs = [.nack msg]
  cancel : (∃ msg ∈ unblocksOf outs, isCancel msg = true) ↔ nacked = true
  once : blocks = true → (unblocksOf outs).length = 1

/-- A line with a request under way. -/
def Line.waiting (entry : Entry n) (tbe : TBE n) (flags : L0NackElse n) (state : State)
    (pending : Int) (nacks : NackTbe n) : Line n :=
  ⟨some { entry with cacheState := state },
    some { tbe with tbeState := state, pendingAcks := pending, nacks := nacks }, flags⟩

/-- A controller with a request under way that takes a message. -/
abbrev Context.waiting (mgr : σ) (entry : Entry n) (tbe : TBE n) (flags : L0NackElse n)
    (state : State)
    (pending : Int) (nacks : NackTbe n) : Context σ n :=
  ⟨mgr, .waiting entry tbe flags state pending nacks, [], false⟩

/-! ## One message -/

/-- `collectNack` on the nack fields alone. -/
def takeNack (params : HTMParams) (nacks : NackTbe n) (msg : ResponseMsg n) : Checked (NackTbe n) :=
  match msg with
  | .nack _ nack => nacks.setNack params nack
  | _ => return nacks

variable {params : HTMParams}

private theorem foldlM_takeNack {answers : List (ResponseMsg n)} {nacks : NackTbe n} :
    answers.foldlM (takeNack params) nacks = nacks.collect params (nacksOf answers) := by
  induction answers generalizing nacks with
  | nil => rfl
  | cons answer rest ih =>
    rw [List.foldlM_cons]
    cases answer with
    | nack count msg => exact bind_congr fun middle => ih
    | _ => exact ih

variable {mgr : σ} {entry : Entry n} {tbe : TBE n} {flags : L0NackElse n} {state : State}
  {pending : Int} {nacks : NackTbe n} {msg : ResponseMsg n} {outs : List (Output n)}

/-- The event an answer triggers. -/
def answerEvent (pending : Int) (nacks : NackTbe n) : Event :=
  if pending - 1 = 0 then if nacks.nack.isSome then .nackAll else .ackAll else .ack

private theorem responseNetworkIn_answer (answer : IsAnswer msg) : responseNetworkIn place msg
        (.waiting mgr entry tbe flags state pending nacks) =
      takeNack (XactMgr.params σ) nacks msg >>= fun nacks =>
        (controller place (.response msg)).trigger (answerEvent pending nacks)
          (.waiting mgr entry tbe flags state pending nacks) := by
  cases answer with
  | ack sender => rfl
  | nack nack =>
    simp only [responseNetworkIn, collectNack, takeNack, Line.getTBE, bind_assoc,
      pure_bind, responseEvent]
    rfl

private theorem getState_waiting : (controller place (.response msg)).getState
    (.waiting mgr entry tbe flags state pending nacks : Context σ n) = state :=
  rfl

variable {event : Event} {rule : Rule State Event Action}

/-- A message that is only counted. -/
theorem trigger_count (found : Rule.find transitions state event = some rule)
    (actions : rule.actions = [.updateAckCount, .popL2ResponseQueue]) :
    (controller place (.response msg)).trigger event
        (.waiting mgr entry tbe flags state pending nacks) =
      .ok ⟨mgr, .waiting entry tbe flags (rule.next.getD state) (pending - msg.ackCount) nacks,
        [], true⟩ := by
  rw [Controller.trigger_of_find getState_waiting found, actions]
  rfl

/-- A data message. -/
def Carries (msg : ResponseMsg n) (block : DataBlock n) (dirty l2Miss : Bool) : Prop :=
  (∃ sender count, msg = .data sender count block dirty l2Miss) ∨
    ∃ count, msg = .dataExclusive count block dirty l2Miss

variable {block : DataBlock n}

/-- A transition that writes the block of the message to the cache entry first. -/
theorem trigger_write {rest : List Action} {dirty l2Miss : Bool}
    (carries : Carries msg block dirty l2Miss)
    (found : Rule.find transitions state event = some rule)
    (actions : rule.actions = .writeDataFromL2Response :: rest) :
    (controller place (.response msg)).trigger event
        (.waiting mgr entry tbe flags state pending nacks : Context σ n) =
      rest.foldlM (fun ctx action => perform place (.response msg) action ctx)
        (.waiting mgr { entry with block := block, dirty := dirty }
          { tbe with l2Miss := tbe.l2Miss || l2Miss } flags state pending nacks) >>=
        fun after => .ok { after with line := after.line.setState (rule.next.getD state) } := by
  rw [Controller.trigger_of_find getState_waiting found, actions, List.foldlM_cons]
  rcases carries with ⟨sender, count, rfl⟩ | ⟨count, rfl⟩
  · cases l2Miss <;> cases missed : tbe.l2Miss <;> cases tbe <;> cases missed <;> rfl
  · cases l2Miss <;> cases missed : tbe.l2Miss <;> cases tbe <;> cases missed <;> rfl

/-- Data that is not the last message. -/
theorem trigger_data {dirty l2Miss : Bool} (carries : Carries msg block dirty l2Miss)
    (found : Rule.find transitions state event = some rule)
    (actions : rule.actions = [.writeDataFromL2Response, .updateAckCount, .popL2ResponseQueue]) :
    (controller place (.response msg)).trigger event
        (.waiting mgr entry tbe flags state pending nacks) =
      .ok ⟨mgr, .waiting { entry with block := block, dirty := dirty }
        { tbe with l2Miss := tbe.l2Miss || l2Miss } flags (rule.next.getD state)
        (pending - msg.ackCount) nacks, [], true⟩ := by
  rw [trigger_write carries found actions]
  rfl

/-! ## The last message -/

omit [XactMgr σ] in
private theorem closes_sent {after : Context σ n} (popped : after.popped = true)
    (done : after.line.tbe = none) : Closes (.ok after) outs ↔ after.sent = outs := by
  simp [Closes, popped, done]

omit [XactMgr σ] in
private theorem not_closes_error {fault : Fault} :
    ¬ Closes (.error fault : Checked (Context σ n)) outs := by
  simp [Closes]

/-- What the requester sends when the last answer is an ack and nothing was nacked. -/
def accepted (place : Place) (entry : Entry n) : State → List (Output n)
  | .iss => [.unblock (.unblock place.machineID), .toL0 (.data entry.block)]
  | .isx => [.toL0 (.dataExclusive entry.block entry.dirty),
      .unblock (.exclusiveUnblock place.machineID)]
  | _ => [.unblock (.exclusiveUnblock place.machineID),
      .toL0 (.dataExclusive entry.block entry.dirty)]

/-- What the requester sends when there was a nack. -/
def refused (place : Place) (mgr : σ) (l2Miss : Bool) (nacks : NackTbe n) :
    Checked (List (Output n)) := do
  let nack ← nNackToL0 (XactMgr.params σ) nacks
  let (nackers, isWriter) ← Context.reportedNackers place mgr l2Miss nacks
  return [.toL0 (.nack nack), .unblock (.unblockCancel place.machineID nackers isWriter)]

/-- What the requester sends at the end. -/
def concluded (place : Place) (mgr : σ) (l2Miss : Bool) (nacks : NackTbe n)
    (accepted : List (Output n)) : Checked (List (Output n)) :=
  if nacks.nack.isSome then refused place mgr l2Miss nacks else return accepted

private theorem closes_ackAll (listed : state ∈ [State.iss, .isx, .sm, .imM, .im]) :
    Closes ((controller place (.response msg)).trigger .ackAll
        (.waiting mgr entry tbe flags state pending nacks)) outs ↔
      accepted place entry state = outs := by
  fin_cases listed
  all_goals
    rw [Controller.trigger_of_find getState_waiting rfl]
    exact closes_sent rfl rfl

omit [XactMgr σ] in
/-- A request that closes with what a computation returns. -/
theorem closes_bind {result : Checked (List (Output n))} (line : Line n)
    (closed : line.tbe = none) :
    Closes (result >>= fun outs => .ok (⟨mgr, line, outs, true⟩ : Context σ n)) outs ↔
      result = .ok outs := by
  cases result with
  | error fault => exact iff_of_false not_closes_error (by simp)
  | ok sent =>
    rw [ok_bind, closes_sent rfl closed]
    simp

/-- The ways in which a transition releases the TBE at the end. -/
def releases : List (List Action) :=
  [[.deallocateTBE, .popL2ResponseQueue],
    [.deallocateTBE, .deallocateCacheBlock, .popL2ResponseQueue]]

variable {release : List Action}

private theorem closes_foldlM (next : State) (known : release ∈ releases)
    (nacked : nacks.nack.isSome = true) :
    Closes (([Action.nackToL0, .sendUnblockCancel] ++ release).foldlM
        (fun ctx action => perform place (.response msg) action ctx)
        (.waiting mgr entry tbe flags state pending nacks) >>=
      fun after => .ok { after with line := after.line.setState next }) outs ↔
      refused place mgr tbe.l2Miss nacks = .ok outs := by
  let before : Context σ n := .waiting mgr entry tbe flags state pending nacks
  have refuse : [Action.nackToL0, .sendUnblockCancel].foldlM
        (fun ctx action => perform place (.response msg) action ctx) before =
      refused place mgr tbe.l2Miss nacks >>= fun outs => .ok { before with sent := outs } := by
    simp only [perform, Context.nackToL0, Context.sendUnblockCancel, before, Line.waiting,
      Line.getTBE, Context.send, List.foldlM_cons, List.foldlM_nil, bind_assoc, pure_bind,
      assertThat_of nacked, ok_bind, refused]
    rfl
  rw [List.foldlM_append]
  simp only [before] at refuse
  simp only [refuse, bind_assoc, ok_bind]
  fin_cases known
  · exact closes_bind ⟨some { entry with cacheState := next }, none, flags⟩ rfl
  · exact closes_bind ⟨none, none, flags⟩ rfl

variable {block : DataBlock n} {dirty l2Miss : Bool}

/-- A transition that refuses the request when data is the last message. -/
theorem closes_dataRefusal (carries : Carries msg block dirty l2Miss)
    (found : Rule.find transitions state event = some rule) (actions : rule.actions =
      .writeDataFromL2Response :: ([.nackToL0, .sendUnblockCancel] ++ release))
    (known : release ∈ releases) (nacked : nacks.nack.isSome = true) :
    Closes ((controller place (.response msg)).trigger event
        (.waiting mgr entry tbe flags state pending nacks)) outs ↔
      refused place mgr (tbe.l2Miss || l2Miss) nacks = .ok outs := by
  rw [trigger_write carries found actions]
  exact closes_foldlM _ known nacked

private theorem closes_nackAll (listed : state ∈ [State.is, .isI, .im, .sm, .imM, .iss, .isx])
    (nacked : nacks.nack.isSome = true) :
    Closes ((controller place (.response msg)).trigger .nackAll
        (.waiting mgr entry tbe flags state pending nacks)) outs ↔
      refused place mgr tbe.l2Miss nacks = .ok outs := by
  fin_cases listed
  all_goals
    rw [Controller.trigger_of_find getState_waiting rfl]
    exact closes_foldlM _ (by decide) nacked

/-- What the requester sends when data is the last message and nothing was nacked. -/
def acceptedData (place : Place) (block : DataBlock n) (dirty : Bool) : State → List (Output n)
  | .is => [.toL0 (.data block)]
  | .isI => [.toL0 (.staleData block dirty)]
  | .iss => [.unblock (.unblock place.machineID), .toL0 (.data block)]
  | _ => [.toL0 (.dataExclusive block dirty), .unblock (.exclusiveUnblock place.machineID)]

private theorem closes_dataAllAcks (carries : Carries msg block dirty l2Miss)
    (listed : state ∈ [State.is, .isI, .iss, .im]) :
    Closes ((controller place (.response msg)).trigger .dataAllAcks
        (.waiting mgr entry tbe flags state pending nacks)) outs ↔
      acceptedData place block dirty state = outs := by
  fin_cases listed
  all_goals
    rw [trigger_write carries rfl rfl]
    exact closes_sent rfl rfl

private theorem closes_dataExclusive (carries : Carries msg block dirty l2Miss)
    (listed : (state, event) ∈ [(State.is, Event.dataExclusive), (.isI, .dataExclusive),
      (.im, .dataExclusive), (.iss, .dataExclusiveAllAcks)]) :
    Closes ((controller place (.response msg)).trigger event
        (.waiting mgr entry tbe flags state pending nacks)) outs ↔
      [.toL0 (.dataExclusive block dirty), .unblock (.exclusiveUnblock place.machineID)]
        = outs := by
  simp only [List.mem_cons, List.not_mem_nil, or_false, Prod.mk.injEq] at listed
  rcases listed with ⟨rfl, rfl⟩ | ⟨rfl, rfl⟩ | ⟨rfl, rfl⟩ | ⟨rfl, rfl⟩
  all_goals
    rw [trigger_write carries rfl rfl]
    exact closes_sent rfl rfl

/-! ## The answers -/

variable {line : Line n}

private theorem collects_singleton : Collects place mgr line [msg] outs ↔
    Closes (responseNetworkIn place msg ⟨mgr, line, [], false⟩) outs :=
  Iff.rfl

variable {rest : List (ResponseMsg n)}

/-- A message that leaves the request open. -/
theorem collects_cons {after : Line n} (more : rest ≠ [])
    (run : responseNetworkIn place msg ⟨mgr, line, [], false⟩ = .ok ⟨mgr, after, [], true⟩)
    (still : after.tbe.isSome = true) :
    Collects place mgr line (msg :: rest) outs ↔ Collects place mgr after rest outs := by
  cases rest with
  | nil => exact absurd rfl more
  | cons next rest => simp [Collects, run, still]

/-- A message on which the controller stops. -/
theorem not_collects_cons
    (stuck : ∀ after, responseNetworkIn place msg ⟨mgr, line, [], false⟩ ≠ .ok after) :
    ¬ Collects place mgr line (msg :: rest) outs := by
  cases rest with
  | nil =>
    rintro ⟨after, run, -⟩
    exact stuck after run
  | cons next rest =>
    rintro ⟨after, run, -⟩
    exact stuck after run

/-- The state after an answer that is not the last. -/
def afterAnswer : State → State
  | .is | .isI => .iss
  | state => state

/-- The states in which an answer that is not the last is counted. -/
def counting : List State := [.is, .isI, .iss, .im, .sm, .imM]

private theorem find_ack (listed : state ∈ counting) :
    ∃ rule, Rule.find transitions state .ack = some rule ∧
      rule.actions = [.updateAckCount, .popL2ResponseQueue] ∧
      rule.next.getD state = afterAnswer state := by
  fin_cases listed
  all_goals exact ⟨_, rfl, rfl, rfl⟩

private theorem counting_of_load (listed : state ∈ [State.is, .isI]) :
    state ∈ counting ∧ afterAnswer state = .iss := by
  revert listed
  cases state <;> decide

private theorem IsAnswer.ackCount_eq (answer : IsAnswer msg) : msg.ackCount = 1 := by
  cases answer <;> rfl

private theorem collects_answer (answer : IsAnswer msg) (more : rest ≠ [])
    (listed : state ∈ counting)
    (open_ : pending - 1 ≠ 0) :
    Collects place mgr (.waiting entry tbe flags state pending nacks) (msg :: rest) outs ↔
      ∃ after, takeNack (XactMgr.params σ) nacks msg = .ok after ∧
        Collects place mgr (.waiting entry tbe flags (afterAnswer state) (pending - 1) after) rest
          outs := by
  have run := @responseNetworkIn_answer n σ _ place mgr entry tbe flags state pending nacks msg
    answer
  cases taken : takeNack (XactMgr.params σ) nacks msg with
  | error fault =>
    rw [taken] at run
    refine iff_of_false (not_collects_cons fun after => ?_) (by simp)
    rw [run]
    exact fun stopped => nomatch stopped
  | ok after =>
    obtain ⟨rule, found, actions, next⟩ := find_ack listed
    have event : answerEvent pending after = .ack := if_neg open_
    rw [taken, ok_bind, event, trigger_count found actions, next, answer.ackCount_eq] at run
    rw [collects_cons more run rfl]
    simp

/-- Answers that arrive before the message of the L2. -/
theorem collects_early {early tail : List (ResponseMsg n)} (answers : ∀ msg ∈ early, IsAnswer msg)
    (more : tail ≠ []) (listed : state ∈ counting) (bound : pending ≤ 0) :
    Collects place mgr (.waiting entry tbe flags state pending nacks) (early ++ tail) outs ↔
      ∃ after, early.foldlM (takeNack (XactMgr.params σ)) nacks = .ok after ∧
        Collects place mgr
          (.waiting entry tbe flags (if early = [] then state else afterAnswer state)
          (pending - early.length) after) tail outs := by
  induction early generalizing state pending nacks with
  | nil => simp
  | cons msg rest ih =>
    have counted : afterAnswer state ∈ counting := by
      revert listed
      cases state <;> decide
    have stays : afterAnswer (afterAnswer state) = afterAnswer state := by
      cases state <;> rfl
    have same : (if rest = [] then afterAnswer state else afterAnswer (afterAnswer state)) =
        afterAnswer state := by
      rw [stays, ite_self]
    have count : pending - ((rest.length + 1 : Nat) : Int) = pending - 1 - rest.length := by omega
    rw [List.cons_append, collects_answer (answers msg List.mem_cons_self) (by simp [more]) listed
      (by omega)]
    simp only [List.foldlM_cons, exists_bind_ok, List.length_cons, reduceCtorEq, if_false, count,
      ih (fun msg member => answers msg (List.mem_cons_of_mem _ member)) counted
        (show pending - 1 ≤ 0 by omega), same]

/-- The last answer. -/
theorem collects_last (answer : IsAnswer msg) (listed : state ∈ [State.iss, .isx, .sm, .imM, .im]) :
    Collects place mgr (.waiting entry tbe flags state 1 nacks) [msg] outs ↔
      ∃ after, takeNack (XactMgr.params σ) nacks msg = .ok after ∧
        concluded place mgr tbe.l2Miss after
          (accepted place { entry with cacheState := state } state)
          = .ok outs := by
  have run := @responseNetworkIn_answer n σ _ place mgr entry tbe flags state 1 nacks msg answer
  rw [collects_singleton, run]
  cases takeNack (XactMgr.params σ) nacks msg with
  | error fault => exact iff_of_false not_closes_error (by simp)
  | ok after =>
    rw [ok_bind]
    simp only [answerEvent, sub_self, if_true, concluded, Except.ok.injEq, exists_eq_left']
    split
    · next nacked =>
      refine closes_nackAll ?_ nacked
      revert listed
      cases state <;> decide
    · rw [closes_ackAll listed, pure_eq_ok]
      rfl

/-- Answers that arrive after the message of the L2. -/
theorem collects_late {late : List (ResponseMsg n)} (answers : ∀ msg ∈ late, IsAnswer msg)
    (more : late ≠ []) (listed : state ∈ [State.iss, .sm, .imM, .im]) :
    Collects place mgr (.waiting entry tbe flags state late.length nacks) late outs ↔
      ∃ after, late.foldlM (takeNack (XactMgr.params σ)) nacks = .ok after ∧
        concluded place mgr tbe.l2Miss after (accepted place entry state) = .ok outs := by
  induction late generalizing nacks with
  | nil => exact absurd rfl more
  | cons msg rest ih =>
    have answer := answers msg List.mem_cons_self
    rcases eq_or_ne rest [] with rfl | further
    · rw [show ((([msg] : List (ResponseMsg n)).length : Nat) : Int) = 1 by rfl,
        collects_last answer (by revert listed; cases state <;> decide)]
      simp only [List.foldlM_cons, List.foldlM_nil, bind_pure]
      rfl
    · have stays : afterAnswer state = state := by
        revert listed
        cases state <;> decide
      have long : rest.length ≠ 0 := by simpa using further
      rw [collects_answer answer further (by revert listed; cases state <;> decide)
        (by rw [List.length_cons]; omega), stays,
        show (((msg :: rest).length : Nat) : Int) - 1 = rest.length by simp]
      simp only [List.foldlM_cons, exists_bind_ok,
        ih (fun msg member => answers msg (List.mem_cons_of_mem _ member)) further]

/-! ## The message of the L2 -/

variable {sender : MachineID} {count : Int} {late : List (ResponseMsg n)}

private theorem responseNetworkIn_data (source : sender.type ≠ .l1Cache) :
    responseNetworkIn place (.data sender count block dirty l2Miss)
        (.waiting mgr entry tbe flags state pending nacks) =
      (controller place (.response (.data sender count block dirty l2Miss))).trigger
        (if pending - count = 0 then if nacks.nack.isSome then .dataAllNacks else .dataAllAcks
          else .data)
        (.waiting mgr entry tbe flags state pending nacks) := by
  simp only [responseNetworkIn, collectNack, responseEvent, source, and_false, if_false, pure_bind]
  rfl

private theorem responseNetworkIn_dataExclusive (awaited : count ≠ 0) :
    responseNetworkIn place (.dataExclusive count block dirty l2Miss)
        (.waiting mgr entry tbe flags state pending nacks) =
      (controller place (.response (.dataExclusive count block dirty l2Miss))).trigger
        (if pending - count = 0 then
          if nacks.nack.isSome then .dataExclusiveAllNacks else .dataExclusiveAllAcks
          else .dataExclusiveHtmCheck)
        (.waiting mgr entry tbe flags state pending nacks) := by
  simp only [responseNetworkIn, collectNack, responseEvent, awaited, if_false, pure_bind]
  rfl

private theorem responseNetworkIn_ack : responseNetworkIn place (.ack sender count)
        (.waiting mgr entry tbe flags state pending nacks) =
      (controller place (.response (.ack sender count))).trigger
        (if pending - count = 0 then if nacks.nack.isSome then .nackAll else .ackAll else .ack)
        (.waiting mgr entry tbe flags state pending nacks) :=
  rfl

/-- A message for which the table has no transition. -/
theorem not_collects_undefined (run : responseNetworkIn place msg
        (.waiting mgr entry tbe flags state pending nacks) =
      (controller place (.response msg)).trigger event
        (.waiting mgr entry tbe flags state pending nacks))
    (missing : Rule.find transitions state event = none) :
    ¬ Collects place mgr (.waiting entry tbe flags state pending nacks) (msg :: rest) outs := by
  refine not_collects_cons fun after => ?_
  rw [run, Controller.trigger_of_undefined (Option.isSome_eq_false_iff.mpr
    (Option.isNone_iff_eq_none.mpr missing))]
  exact panicWith_ne_ok

/-- Data is the last message. -/
theorem collects_data_last (source : sender.type ≠ .l1Cache) (counted : pending = count)
    (listed : state ∈ [State.is, .iss, .im]) :
    Collects place mgr (.waiting entry tbe flags state pending nacks)
        [.data sender count block dirty l2Miss] outs ↔
      concluded place mgr (tbe.l2Miss || l2Miss) nacks (acceptedData place block dirty state)
        = .ok outs := by
  have carries : Carries (.data sender count block dirty l2Miss) block dirty l2Miss :=
    .inl ⟨sender, count, rfl⟩
  rw [collects_singleton, responseNetworkIn_data source]
  simp only [counted, sub_self, if_true, concluded]
  split
  · next nacked =>
    fin_cases listed
    all_goals exact closes_dataRefusal carries rfl rfl (by decide) nacked
  · rw [closes_dataAllAcks carries (by revert listed; cases state <;> decide), pure_eq_ok]

/-- The states in which data may come before other answers, and the states it leads to. -/
def afterData : State → Option State
  | .is => some .iss
  | .im => some .imM
  | _ => none

section

variable (source : sender.type ≠ .l1Cache)

include source

/-- Data comes before other answers. -/
theorem collects_data_more {next : State}
    (answers : ∀ msg ∈ late, IsAnswer msg) (more : late ≠ [])
    (counted : pending - count = late.length)
    (listed : afterData state = some next) :
    Collects place mgr (.waiting entry tbe flags state pending nacks)
        (.data sender count block dirty l2Miss :: late) outs ↔
      ∃ after, late.foldlM (takeNack (XactMgr.params σ)) nacks = .ok after ∧
        concluded place mgr (tbe.l2Miss || l2Miss) after
          (accepted place { entry with block := block, dirty := dirty } next) = .ok outs := by
  have long : late.length ≠ 0 := by simpa using more
  have run : responseNetworkIn place (.data sender count block dirty l2Miss)
      (.waiting mgr entry tbe flags state pending nacks) =
      .ok ⟨mgr, .waiting { entry with block := block, dirty := dirty }
        { tbe with l2Miss := tbe.l2Miss || l2Miss } flags next late.length nacks, [], true⟩ := by
    rw [responseNetworkIn_data source, if_neg (by omega), ← counted]
    cases state <;> cases listed
    all_goals
      rw [trigger_data (.inl ⟨sender, count, rfl⟩) rfl rfl]
      rfl
  rw [collects_cons more run rfl]
  refine collects_late answers more ?_
  revert listed
  cases state <;> simp +contextual [afterData, eq_comm]

/-- Data that comes before other answers but after an answer, or after an invalidation. -/
theorem not_collects_data (counted : pending - count ≠ 0)
    (listed : state ∈ [State.isI, .iss, .sm]) :
    ¬ Collects place mgr (.waiting entry tbe flags state pending nacks)
        (.data sender count block dirty l2Miss :: rest) outs := by
  refine not_collects_undefined (responseNetworkIn_data source) ?_
  rw [if_neg counted]
  revert listed
  cases state <;> decide

end

/-- Exclusive data is the last message. -/
theorem collects_exclusive_last (awaited : count ≠ 0) (counted : pending = count) :
    Collects place mgr (.waiting entry tbe flags .iss pending nacks)
        [.dataExclusive count block dirty l2Miss] outs ↔
      concluded place mgr (tbe.l2Miss || l2Miss) nacks
        [.toL0 (.dataExclusive block dirty), .unblock (.exclusiveUnblock place.machineID)]
        = .ok outs := by
  have carries : Carries (.dataExclusive count block dirty l2Miss) block dirty l2Miss :=
    .inr ⟨count, rfl⟩
  rw [collects_singleton, responseNetworkIn_dataExclusive awaited]
  simp only [counted, sub_self, if_true, concluded]
  split
  · next nacked => exact closes_dataRefusal carries rfl rfl (by decide) nacked
  · rw [closes_dataExclusive carries (by decide), pure_eq_ok]

/-- Exclusive data comes before other answers: only one more may follow. -/
theorem collects_exclusive_more (awaited : count ≠ 0) (answers : ∀ msg ∈ late, IsAnswer msg)
    (more : late ≠ []) (counted : pending - count = late.length)
    (listed : state ∈ [State.is, .iss]) :
    Collects place mgr (.waiting entry tbe flags state pending nacks)
        (.dataExclusive count block dirty l2Miss :: late) outs ↔
      late.length = 1 ∧ ∃ after, late.foldlM (takeNack (XactMgr.params σ)) nacks = .ok after ∧
        concluded place mgr (tbe.l2Miss || l2Miss) after
          (accepted place { entry with block := block, dirty := dirty } .isx) = .ok outs := by
  have long : late.length ≠ 0 := by simpa using more
  have run : responseNetworkIn place (.dataExclusive count block dirty l2Miss)
      (.waiting mgr entry tbe flags state pending nacks) =
      .ok ⟨mgr, .waiting { entry with block := block, dirty := dirty }
        { tbe with l2Miss := tbe.l2Miss || l2Miss } flags .isx late.length nacks, [], true⟩ := by
    rw [responseNetworkIn_dataExclusive awaited, if_neg (by omega), ← counted]
    fin_cases listed
    all_goals
      rw [trigger_data (.inr ⟨count, rfl⟩) rfl rfl]
      rfl
  rw [collects_cons more run rfl]
  match late, more with
  | [msg], _ =>
    rw [show ((([msg] : List (ResponseMsg n)).length : Nat) : Int) = 1 by rfl,
      collects_last (answers msg List.mem_cons_self) (by decide)]
    simp only [List.foldlM_cons, List.foldlM_nil, bind_pure, List.length_singleton, true_and]
    rfl
  | msg :: next :: rest, _ =>
    -- an answer that is not the last has no transition here
    refine iff_of_false ?_ (by simp)
    refine not_collects_cons fun after => ?_
    rw [responseNetworkIn_answer (answers msg List.mem_cons_self)]
    cases takeNack (XactMgr.params σ) nacks msg with
    | error fault => exact fun stopped => nomatch stopped
    | ok middle =>
      have event : answerEvent ((msg :: next :: rest).length : Int) middle = .ack := by
        refine if_neg ?_
        simp only [List.length_cons]
        omega
      rw [ok_bind, event, Controller.trigger_of_undefined rfl]
      exact panicWith_ne_ok

/-- The ack of the L2 to an upgrade is the last message. -/
theorem collects_ack_last (counted : pending = count) (listed : state ∈ [State.sm, .im]) :
    Collects place mgr (.waiting entry tbe flags state pending nacks) [.ack sender count] outs ↔
      concluded place mgr tbe.l2Miss nacks (accepted place entry state) = .ok outs := by
  rw [collects_singleton, responseNetworkIn_ack]
  simp only [counted, sub_self, if_true, concluded]
  split
  · next nacked => exact closes_nackAll (by revert listed; cases state <;> decide) nacked
  · rw [closes_ackAll (by revert listed; cases state <;> decide), pure_eq_ok]

/-- The ack of the L2 to an upgrade comes before other answers. -/
theorem collects_ack_more (answers : ∀ msg ∈ late, IsAnswer msg) (more : late ≠ [])
    (counted : pending - count = late.length) (listed : state ∈ [State.sm, .im]) :
    Collects place mgr (.waiting entry tbe flags state pending nacks) (.ack sender count :: late)
        outs ↔
      ∃ after, late.foldlM (takeNack (XactMgr.params σ)) nacks = .ok after ∧
        concluded place mgr tbe.l2Miss after (accepted place entry state) = .ok outs := by
  have long : late.length ≠ 0 := by simpa using more
  obtain ⟨rule, found, actions, leads⟩ := @find_ack state (by revert listed; cases state <;> decide)
  have stays : afterAnswer state = state := by
    revert listed
    cases state <;> decide
  have run :=
    @responseNetworkIn_ack n σ _ place mgr entry tbe flags state pending nacks sender count
  rw [if_neg (by omega), trigger_count found actions, leads, stays, ResponseMsg.ackCount, counted]
    at run
  rw [collects_cons more run rfl]
  exact collects_late answers more (by revert listed; cases state <;> decide)

/-! ## Whole requests -/

/-- What `jc_sendUnblockCancel` asserts of the nacks after an L2 miss: no local writer beside a
nacker that is a writer.  With readers alone the manager has to tell whether it is a reader. -/
structure Nameable (place : Place) (mgr : σ) (msgs : List (NackMsg n)) : Prop where
  writer : ∀ msg ∈ msgs, msg.nackerIsWriter = true →
    XactMgr.checkWriteSignature mgr place.address = false
  reader : (∀ msg ∈ msgs, msg.nackerIsWriter = false) →
    XactMgr.checkWriteSignature mgr place.address = false →
    ∃ isReader, XactMgr.checkReadSignature mgr place.address = .ok isReader

/-- The nacks among the answers pass the assertions of `setNack` and `n_nack_to_l0` and, after an L2
miss, those of `jc_sendUnblockCancel`. -/
def Reportable (place : Place) (mgr : σ) (l2Miss : Bool) (answers : List (ResponseMsg n)) : Prop :=
  Accepted (XactMgr.params σ) (nacksOf answers) ∧
    (l2Miss = true → nacksOf answers ≠ [] → Nameable place mgr (nacksOf answers))

/-- The nackers are named after a miss exactly if the assertions hold. -/
theorem missNackers_ok_iff {first : NackMsg n} {msgs : List (NackMsg n)}
    (holds : nacks.Holds first msgs) :
    (∃ named, Context.missNackers place mgr nacks = .ok named) ↔ Nameable place mgr msgs := by
  have local_iff : Nameable place mgr msgs ↔
      (nacks.nackersWriters ≠ ∅ → XactMgr.checkWriteSignature mgr place.address = false) ∧
      (nacks.nackersWriters = ∅ → XactMgr.checkWriteSignature mgr place.address = false →
        ∃ isReader, XactMgr.checkReadSignature mgr place.address = .ok isReader) := by
    rw [ne_eq, holds.writers]
    constructor
    · rintro ⟨writer, reader⟩
      refine ⟨fun listed => ?_, reader⟩
      obtain ⟨msg, sent, writes⟩ : ∃ msg ∈ msgs, msg.nackerIsWriter = true := by simpa using listed
      exact writer msg sent writes
    · rintro ⟨writer, reader⟩
      exact ⟨fun msg sent writes => writer fun none => by simp [none msg sent] at writes, reader⟩
  rw [local_iff, Context.missNackers]
  by_cases nobody : nacks.nackersWriters = ∅
  · cases XactMgr.checkWriteSignature mgr place.address with
    | true => simp [nobody, pure, Except.pure]
    | false =>
      cases XactMgr.checkReadSignature mgr place.address <;>
        simp [nobody, pure, Except.pure, bind, Except.bind]
  · have one : nacks.nackersWriters.card = 1 := Nat.le_antisymm holds.single
      (Finset.card_pos.mpr (Finset.nonempty_iff_ne_empty.mpr nobody))
    simp [nobody, one]

/-- The nacks of reportable answers are collected and reported. -/
theorem reportable_iff {answers : List (ResponseMsg n)} :
    Reportable place mgr l2Miss answers ↔
      ∃ nacks, NackTbe.empty.collect (XactMgr.params σ) (nacksOf answers) = .ok nacks ∧
        (nacks.nack.isSome = true → ∃ outs, refused place mgr l2Miss nacks = .ok outs) := by
  rw [Reportable, ← NackTbe.collect_ok_iff]
  generalize nacksOf answers = msgs
  rw [← exists_and_right]
  refine exists_congr fun nacks => and_congr_right fun collected => ?_
  rw [NackTbe.isSome_of_collect collected]
  cases msgs with
  | nil => simp
  | cons first rest =>
    obtain ⟨nack, sent, -⟩ := NackTbe.nNackToL0_of_collect collected
    rw [← missNackers_ok_iff (NackTbe.holds_of_collect collected)]
    cases l2Miss with
    | false => simp [refused, sent, Context.reportedNackers]
    | true =>
      cases named : Context.missNackers place mgr nacks <;>
        simp [refused, sent, Context.reportedNackers, named, pure, Except.pure, bind, Except.bind]

/-- Whether a message of the L2 tells that it missed. -/
def missed : ResponseMsg n → Bool
  | .data _ _ _ _ l2Miss | .dataExclusive _ _ _ l2Miss => l2Miss
  | _ => false

/-- The nackers that the requester reports after the messages have arrived. -/
def report (place : Place) (mgr : σ) (arrival : List (ResponseMsg n)) :
    Checked (Finset MachineID × Bool) := do
  let nacks ← NackTbe.empty.collect (XactMgr.params σ) (nacksOf arrival)
  Context.reportedNackers place mgr (arrival.any missed) nacks

/-- A cancellation names the nackers of the report. -/
def Names (place : Place) (reported : Checked (Finset MachineID × Bool))
    (outs : List (Output n)) : Prop :=
  ∀ msg ∈ unblocksOf outs, isCancel msg = true → ∃ nackers isWriter,
    reported = .ok (nackers, isWriter) ∧ msg = .unblockCancel place.machineID nackers isWriter

/-- The messages settle the request in the order of their arrival, and `outs` is sent. -/
def SettledBy (place : Place) (mgr : σ) (line : Line n) (arrival : List (ResponseMsg n))
    (nacked blocks : Bool) (outs : List (Output n)) : Prop :=
  Collects place mgr line arrival outs ∧ Settles outs nacked blocks ∧
    Names place (report place mgr arrival) outs

/-- The request is settled by the messages in the order of their arrival. -/
def Settled (place : Place) (mgr : σ) (line : Line n) (arrival : List (ResponseMsg n))
    (nacked blocks : Bool) : Prop :=
  ∃ outs, SettledBy place mgr line arrival nacked blocks outs

/-- The cancellation of a nacked request. -/
theorem SettledBy.cancellation {arrival : List (ResponseMsg n)}
    (settled : SettledBy place mgr line arrival true true outs) :
    ∃ nackers isWriter, report place mgr arrival = .ok (nackers, isWriter) ∧
      unblocksOf outs = [.unblockCancel place.machineID nackers isWriter] := by
  obtain ⟨-, settles, names⟩ := settled
  obtain ⟨cancel, only⟩ := List.length_eq_one_iff.mp (settles.once rfl)
  obtain ⟨msg, sent, isCancel⟩ := settles.cancel.mpr rfl
  obtain ⟨nackers, isWriter, reported, rfl⟩ := names msg sent isCancel
  rw [only, List.mem_singleton] at sent
  exact ⟨nackers, isWriter, reported, by rw [only, sent]⟩

variable {blocks : Bool}

private theorem Settles.names_of_granted {reported : Checked (Finset MachineID × Bool)}
    (settles : Settles outs false blocks) : Names place reported outs :=
  fun msg sent cancel => absurd (settles.cancel.mp ⟨msg, sent, cancel⟩) Bool.false_ne_true

variable {early : List (ResponseMsg n)} {blocks : Bool}

private theorem settles_data {msg : ToL0Msg n} (data : isData msg = true) :
    Settles [.toL0 msg] false false where
  data := fun _ => ⟨msg, rfl, data⟩
  nack := by simp
  cancel := by simp [unblocksOf]
  once := by simp

private theorem settles_unblock {msg : ToL0Msg n} {unblock : UnblockMsg} (data : isData msg = true)
    (granted : isCancel unblock = false) : Settles [.unblock unblock, .toL0 msg] false blocks ∧
      Settles [.toL0 msg, .unblock unblock] false blocks := by
  refine ⟨⟨fun _ => ⟨msg, rfl, data⟩, by simp, ?_, fun _ => rfl⟩,
    ⟨fun _ => ⟨msg, rfl, data⟩, by simp, ?_, fun _ => rfl⟩⟩
  all_goals simp [unblocksOf, granted]

private theorem settles_accepted : Settles (accepted place entry state) false blocks := by
  cases state
  case isx => exact (settles_unblock rfl rfl).2
  all_goals exact (settles_unblock rfl rfl).1

private theorem settles_exclusive : Settles
    [.toL0 (.dataExclusive block dirty), .unblock (.exclusiveUnblock place.machineID)] false
      blocks :=
  (settles_unblock rfl rfl).2

private theorem IsAnswer.not_missed (answer : IsAnswer msg) : missed msg = false := by
  cases answer <;> rfl

omit [XactMgr σ] in
/-- A message that is no nack leaves the nacks. -/
theorem nacksOf_message (quiet : nacksOf [msg] = []) :
    nacksOf (early ++ msg :: late) = nacksOf (early ++ late) := by
  rw [nacksOf, ← List.singleton_append, List.filterMap_append, List.filterMap_append,
    show [msg].filterMap _ = [] from quiet, List.nil_append, ← List.filterMap_append]
  rfl

/-- The message of the L2 adds nothing to the report but whether it missed. -/
theorem report_eq (answers : ∀ msg ∈ early, IsAnswer msg) (lateAnswers : ∀ msg ∈ late, IsAnswer msg)
    (quiet : nacksOf [msg] = []) : report place mgr (early ++ msg :: late) = (do
      let nacks ← NackTbe.empty.collect (XactMgr.params σ) (nacksOf (early ++ late))
      Context.reportedNackers place mgr (missed msg) nacks) := by
  have miss : (early ++ msg :: late).any missed = missed msg := by
    rw [List.any_append, List.any_cons, Bool.eq_iff_iff]
    simp only [Bool.or_eq_true, List.any_eq_true]
    constructor
    · rintro (⟨answer, member, miss⟩ | miss | ⟨answer, member, miss⟩)
      · simp [(answers answer member).not_missed] at miss
      · exact miss
      · simp [(lateAnswers answer member).not_missed] at miss
    · exact fun miss => .inr (.inl miss)
  rw [report, nacksOf_message quiet, miss]

/-- The answers before and after the message of the L2 are collected as one list. -/
theorem settled_iff_reportable (accept : List (Output n)) (settles : Settles accept false blocks)
    (answers : ∀ msg ∈ early, IsAnswer msg) (lateAnswers : ∀ msg ∈ late, IsAnswer msg)
    (quiet : nacksOf [msg] = []) (miss : missed msg = l2Miss) (listed : state ∈ counting)
    (collects : ∀ nacks outs, Collects place mgr (.waiting entry tbe flags
        (if early = [] then state else afterAnswer state) (-early.length) nacks)
          (msg :: late) outs ↔
      ∃ after, late.foldlM (takeNack (XactMgr.params σ)) nacks = .ok after ∧
        concluded place mgr l2Miss after accept = .ok outs) :
    Settled place mgr (.waiting entry tbe flags state 0 .empty) (early ++ msg :: late)
        (decide (nacksOf (early ++ late) ≠ [])) blocks ↔
      Reportable place mgr l2Miss (early ++ late) := by
  have collected_iff (outs : List (Output n)) : Collects place mgr
      (.waiting entry tbe flags state 0 .empty) (early ++ msg :: late) outs ↔
      ∃ after, (early ++ late).foldlM (takeNack (XactMgr.params σ)) .empty = .ok after ∧
        concluded place mgr l2Miss after accept = .ok outs := by
    rw [collects_early answers (by simp) listed le_rfl]
    simp only [zero_sub, collects, List.foldlM_append, exists_bind_ok]
  unfold Settled SettledBy
  rw [report_eq answers lateAnswers quiet, miss]
  simp only [collected_iff, foldlM_takeNack, reportable_iff, concluded]
  constructor
  · rintro ⟨outs, ⟨after, collected, last⟩, -⟩
    refine ⟨after, collected, fun nacked => ⟨outs, ?_⟩⟩
    rwa [if_pos nacked] at last
  · rintro ⟨after, collected, report⟩
    have nacked := NackTbe.isSome_of_collect collected
    by_cases some_nack : after.nack.isSome = true
    · obtain ⟨outs, refusal⟩ := report some_nack
      refine ⟨outs, ⟨after, collected, by rw [if_pos some_nack, refusal]⟩, ?_⟩
      simp only [refused, run_eq_ok] at refusal
      obtain ⟨nack, -, nackers, reported, rfl⟩ := refusal
      rw [decide_eq_true (nacked.mp some_nack)]
      refine ⟨⟨by simp, fun _ => ⟨nack, rfl⟩, by simp [unblocksOf, isCancel], fun _ => rfl⟩,
        fun msg sent _ => ?_⟩
      obtain rfl := List.mem_singleton.mp sent
      exact ⟨nackers.1, nackers.2, by rw [collected, ok_bind, reported], rfl⟩
    · refine ⟨accept, ⟨after, collected, by rw [if_neg some_nack]; rfl⟩, ?_⟩
      rw [decide_eq_false (fun listed => some_nack (nacked.mpr listed))]
      exact ⟨settles, settles.names_of_granted⟩

/-- No answer before the message of the L2 helps if the controller stops at it. -/
theorem not_settled {nacked : Bool} (answers : ∀ msg ∈ early, IsAnswer msg)
    (listed : state ∈ counting)
    (stuck : ∀ nacks outs, ¬ Collects place mgr (.waiting entry tbe flags
        (if early = [] then state else afterAnswer state) (-early.length) nacks) (msg :: late)
          outs) :
    ¬ Settled place mgr (.waiting entry tbe flags state 0 .empty) (early ++ msg :: late) nacked
        blocks := by
  rintro ⟨outs, collects, -⟩
  rw [collects_early answers (by simp) listed le_rfl] at collects
  obtain ⟨after, -, collects⟩ := collects
  exact stuck after outs (by simpa using collects)

/-- No answers are reportable. -/
theorem reportable_nil : Reportable place mgr l2Miss ([] : List (ResponseMsg n)) :=
  reportable_iff.mpr ⟨.empty, rfl, by simp [NackTbe.empty]⟩

/-- A load that waits for nothing but its data does not unblock the L2. -/
theorem settled_data_only (source : sender.type ≠ .l1Cache) (listed : state ∈ [State.is, .isI]) :
    Settled place mgr (.waiting entry tbe flags state 0 .empty)
        [.data sender 0 block dirty l2Miss] false blocks ↔ blocks = false := by
  have collects (outs : List (Output n)) :
      Collects place mgr (.waiting entry tbe flags state 0 .empty)
        [.data sender 0 block dirty l2Miss] outs ↔ acceptedData place block dirty state = outs := by
    rw [collects_singleton, responseNetworkIn_data source]
    refine closes_dataAllAcks (.inl ⟨sender, 0, rfl⟩) ?_
    revert listed
    cases state <;> decide
  have silent : unblocksOf (acceptedData place block dirty state) = [] := by
    revert listed
    cases state <;> simp [acceptedData, unblocksOf]
  have answered : Settles (acceptedData place block dirty state) false false := by
    fin_cases listed
    · exact settles_data rfl
    · exact settles_data rfl
  simp only [Settled, SettledBy, collects, exists_eq_left']
  constructor
  · rintro ⟨settles, -⟩
    cases blocks with
    | false => rfl
    | true => simpa [silent] using settles.once rfl
  · rintro rfl
    exact ⟨answered, answered.names_of_granted⟩

/-- A request that waits for nothing but exclusive data. -/
theorem settled_exclusive_only (listed : state ∈ [State.is, .isI, .im]) :
    Settled place mgr (.waiting entry tbe flags state 0 .empty)
        [.dataExclusive 0 block dirty l2Miss] false blocks := by
  have settles : Settles [.toL0 (.dataExclusive block dirty),
      .unblock (.exclusiveUnblock place.machineID)] false blocks := settles_exclusive
  refine ⟨_, (closes_dataExclusive (.inr ⟨0, rfl⟩) ?_).mpr rfl, settles, settles.names_of_granted⟩
  revert listed
  cases state <;> decide

section

variable (earlyAnswers : ∀ msg ∈ early, IsAnswer msg) (lateAnswers : ∀ msg ∈ late, IsAnswer msg)
  (clean : tbe.l2Miss = false)

include earlyAnswers lateAnswers clean

/-- A store whose data comes from the L2. -/
theorem settled_store_data (source : sender.type ≠ .l1Cache) :
    Settled place mgr (.waiting entry tbe flags .im 0 .empty)
        (early ++ .data sender (-(early.length + late.length)) block dirty l2Miss :: late)
        (decide (nacksOf (early ++ late) ≠ [])) blocks ↔
      Reportable place mgr l2Miss (early ++ late) := by
  have state : (if early = [] then State.im else afterAnswer .im) = .im := ite_self _
  rcases eq_or_ne late [] with rfl | more
  · refine settled_iff_reportable (acceptedData place block dirty .im) settles_exclusive
      earlyAnswers lateAnswers rfl rfl (by decide) fun nacks outs => ?_
    rw [state, collects_data_last source (by simp) (by decide), clean]
    simp
  · refine settled_iff_reportable
      (accepted place { entry with block := block, dirty := dirty } .imM) settles_accepted
      earlyAnswers lateAnswers rfl rfl (by decide) fun nacks outs => ?_
    rw [state, collects_data_more source lateAnswers more (by omega) rfl, clean, Bool.false_or]

omit lateAnswers clean in
/-- An upgrade that is answered with data. -/
theorem not_settled_upgrade_data {nacked : Bool} (source : sender.type ≠ .l1Cache) :
    ¬ Settled place mgr (.waiting entry tbe flags .sm 0 .empty)
        (early ++ .data sender count block dirty l2Miss :: late) nacked blocks := by
  refine not_settled earlyAnswers (by decide) fun nacks outs => ?_
  rw [show (if early = [] then State.sm else afterAnswer .sm) = .sm from ite_self _]
  refine not_collects_undefined (responseNetworkIn_data source) ?_
  split
  · split <;> rfl
  · rfl

/-- An upgrade that the L2 acknowledges. -/
theorem settled_upgrade_ack (listed : state ∈ [State.sm, .im]) :
    Settled place mgr (.waiting entry tbe flags state 0 .empty)
        (early ++ .ack sender (-(early.length + late.length)) :: late)
        (decide (nacksOf (early ++ late) ≠ [])) blocks ↔
      Reportable place mgr false (early ++ late) := by
  have stays : (if early = [] then state else afterAnswer state) = state := by
    revert listed
    cases state <;> simp [afterAnswer]
  refine settled_iff_reportable (accepted place entry state) settles_accepted earlyAnswers
    lateAnswers rfl
    rfl (by revert listed; cases state <;> decide) fun nacks outs => ?_
  rw [stays]
  rcases eq_or_ne late [] with rfl | more
  · rw [collects_ack_last (by simp) listed, clean]
    simp
  · rw [collects_ack_more lateAnswers more (by omega) listed, clean]

/-- A load that gets a copy to share: once an answer has come, the data has to be the last message,
and so it has to be after an invalidation. -/
theorem settled_load_data (source : sender.type ≠ .l1Cache) (listed : state ∈ [State.is, .isI]) :
    Settled place mgr (.waiting entry tbe flags state 0 .empty)
        (early ++ .data sender (-(early.length + late.length)) block dirty l2Miss :: late)
        (decide (nacksOf (early ++ late) ≠ [])) blocks ↔
      ((late = [] ∨ early = [] ∧ state = .is) ∧ (early ++ late = [] → blocks = false)) ∧
        Reportable place mgr l2Miss (early ++ late) := by
  obtain ⟨counts, moved⟩ := counting_of_load listed
  rcases eq_or_ne early [] with rfl | some_early
  · rcases eq_or_ne late [] with rfl | more
    · refine (settled_data_only source listed).trans ?_
      simp [reportable_nil]
    · fin_cases listed
      · rw [and_iff_right (by simp [more])]
        refine settled_iff_reportable
          (accepted place { entry with block := block, dirty := dirty } .iss) settles_accepted
          earlyAnswers lateAnswers rfl rfl counts fun nacks outs => ?_
        rw [if_pos rfl, collects_data_more source lateAnswers more (by simp) rfl, clean,
          Bool.false_or]
      · refine iff_of_false (not_settled earlyAnswers counts fun nacks outs => ?_) (by simp [more])
        rw [if_pos rfl]
        exact not_collects_data source (by simpa using more) (by decide)
  · rcases eq_or_ne late [] with rfl | more
    · rw [and_iff_right (by simp [some_early])]
      refine settled_iff_reportable (acceptedData place block dirty .iss)
        (settles_unblock rfl rfl).1 earlyAnswers lateAnswers rfl rfl counts fun nacks outs => ?_
      rw [if_neg some_early, moved, collects_data_last source (by simp) (by decide), clean]
      simp
    · refine iff_of_false (not_settled earlyAnswers counts fun nacks outs => ?_)
        (by simp [more, some_early])
      rw [if_neg some_early, moved]
      exact not_collects_data source (by simpa using more) (by decide)

/-- A load that gets an exclusive copy: at most one answer may come after the data, and after an
invalidation the data must not come first. -/
theorem settled_load_exclusive (listed : state ∈ [State.is, .isI]) :
    Settled place mgr (.waiting entry tbe flags state 0 .empty)
        (early ++ .dataExclusive (-(early.length + late.length)) block dirty l2Miss :: late)
        (decide (nacksOf (early ++ late) ≠ [])) blocks ↔
      (late.length ≤ 1 ∧ (state = .isI → early = [] → late = [])) ∧
        Reportable place mgr l2Miss (early ++ late) := by
  obtain ⟨counts, moved⟩ := counting_of_load listed
  -- exclusive data in a state where the rest of the answers is waited for in `ISX`
  have followed (moved : (if early = [] then state else afterAnswer state) ∈ [State.is, .iss])
      (more : late ≠ []) : Settled place mgr (.waiting entry tbe flags state 0 .empty)
        (early ++ .dataExclusive (-(early.length + late.length)) block dirty l2Miss :: late)
        (decide (nacksOf (early ++ late) ≠ [])) blocks ↔
      late.length ≤ 1 ∧ Reportable place mgr l2Miss (early ++ late) := by
    have long : late.length ≠ 0 := by simpa using more
    have awaited : -((early.length : Int) + late.length) ≠ 0 := by omega
    by_cases single : late.length = 1
    · rw [and_iff_right (by omega)]
      refine settled_iff_reportable
        (accepted place { entry with block := block, dirty := dirty } .isx) settles_accepted
        earlyAnswers lateAnswers rfl rfl counts fun nacks outs => ?_
      rw [collects_exclusive_more awaited lateAnswers more (by omega) moved, clean, Bool.false_or,
        and_iff_right single]
    · refine iff_of_false (not_settled earlyAnswers counts fun nacks outs => ?_) (by omega)
      rw [collects_exclusive_more awaited lateAnswers more (by omega) moved]
      exact fun collects => single collects.1
  rcases eq_or_ne early [] with rfl | some_early
  · rcases eq_or_ne late [] with rfl | more
    · refine iff_of_true (settled_exclusive_only (by revert listed; cases state <;> decide)) ?_
      simp [reportable_nil]
    · fin_cases listed
      · refine (followed (by simp) more).trans ?_
        simp
      · refine iff_of_false (not_settled earlyAnswers counts fun nacks outs => ?_) (by simp [more])
        rw [if_pos rfl]
        refine not_collects_undefined
          (responseNetworkIn_dataExclusive (by simpa using more)) ?_
        rw [if_neg (by simpa using more)]
        rfl
  · rcases eq_or_ne late [] with rfl | more
    · rw [and_iff_right (by simp)]
      refine settled_iff_reportable
        [.toL0 (.dataExclusive block dirty), .unblock (.exclusiveUnblock place.machineID)]
        settles_exclusive earlyAnswers lateAnswers rfl rfl counts fun nacks outs => ?_
      rw [if_neg some_early, moved, collects_exclusive_last (by simpa using some_early) (by simp),
        clean]
      simp
    · refine (followed (by simp [some_early, moved]) more).trans ?_
      simp [some_early]

end

end

end Gem5.Ruby.L1Cache
