import Gem5.Mem.Ruby.Htm.PriorityFrame

/-!
# How forwarding moves priorities

In the CHATS configuration a transaction that forwards a block places itself above the
requester, unless it is a consumer, whose priority is frozen; a transaction that
consumes a block for the first time places itself below the nacker.  The priority is a
32-bit integer, so placing oneself above the largest one wraps around to NC.
-/

namespace Gem5.Ruby

open Foundation

/-- Numeric priorities over requester-loses, forwarding to any number of consumers at any depth, and
some strategy against cycles. -/
structure IsChats (params : HTMParams) : Prop where
  policy : params.conflictResolution = .requesterLoses
  mechanism : params.fwdMechanism = .wnDm
  priorities : params.prioMechanism = .numeric
  strategy : params.fwdCycleSolveStrategy ≠ .noStrategy

/-- Numeric priorities over requester-loses, a strategy against cycles, and a mechanism that asks
for the priority before it forwards. -/
structure IsOrdered (params : HTMParams) : Prop where
  policy : params.conflictResolution = .requesterLoses
  forwards : params.fwdMechanism ≠ .noFwd
  cautious : params.fwdMechanism ≠ .naive
  priorities : params.prioMechanism = .numeric
  strategy : params.fwdCycleSolveStrategy ≠ .noStrategy

/-- Chats orders its transactions by priority. -/
theorem IsChats.ordered {params : HTMParams} (chats : IsChats params) : IsOrdered params :=
  ⟨chats.policy, by simp [chats.mechanism], by simp [chats.mechanism], chats.priorities,
    chats.strategy⟩

namespace IsOrdered

variable {params : HTMParams} (ordered : IsOrdered params)
include ordered

/-- An ordered configuration forwards. -/
theorem forwarding : params.allowEarlyValueFwd = true := by
  simp [HTMParams.allowEarlyValueFwd, ordered.forwards]

/-- An ordered configuration does not use the PiC policy. -/
theorem plain : params.conflictResolution ≠ .requesterStallsPicBase := by
  simp [ordered.policy]

/-- An ordered configuration does not stall the requester. -/
theorem not_stalls : params.isRequesterStallsPolicy = false := by
  simp [HTMParams.isRequesterStallsPolicy, ordered.policy, HtmPolicy.getResolutionPolicy_eq]

/-- An ordered configuration has no power transactions. -/
theorem not_powered (conflict : TransactionConflictManager params) : conflict.powered = false := by
  by_contra on
  have policy := conflict.isPowered_policy (by simpa using on)
  simp [HTMParams.isPowerTMPolicy, ordered.policy] at policy

end IsOrdered

/-- The configuration `chats` is one of Chats. -/
theorem isChats_chats : IsChats chats := ⟨rfl, rfl, rfl, by decide⟩

/-- A priority a producer may have: NC and the one above it are excluded, so that a consumer below
it still has a priority. -/
def IsProducerPrio (prio : Priority) : Prop :=
  ncPrioValue + 1 < prio

variable {prio : Priority}

/-- The priority below a producer's is not NC. -/
theorem IsProducerPrio.pred_ne_nc (high : IsProducerPrio prio) : prio - 1 ≠ ncPrioValue := by
  unfold IsProducerPrio ncPrioValue at *
  grind

private theorem lt_toInt_of_ne_nc (known : prio ≠ ncPrioValue) : -2 ^ 31 < prio.toInt :=
  lt_of_le_of_ne prio.minValue_le_toInt fun same => known (Int32.toInt.inj same.symm)

/-- Away from the ends of the range the arithmetic on priorities is exact. -/
theorem toInt_sub_one (known : prio ≠ ncPrioValue) : (prio - 1).toInt = prio.toInt - 1 := by
  have lower := lt_toInt_of_ne_nc known
  have upper := prio.toInt_lt
  rw [Int32.toInt_sub, show (1 : Priority).toInt = 1 from rfl]
  exact Int.bmod_eq_of_le (by omega) (by omega)

private theorem toInt_add_one (bounded : prio ≠ Int32.maxValue) :
    (prio + 1).toInt = prio.toInt + 1 := by
  have upper : prio.toInt < 2 ^ 31 - 1 :=
    lt_of_le_of_ne prio.toInt_le fun same => bounded (Int32.toInt.inj same)
  have lower := prio.le_toInt
  rw [Int32.toInt_add, show (1 : Priority).toInt = 1 from rfl]
  exact Int.bmod_eq_of_le (by omega) (by omega)

/-- The difference to the initial priority does not wrap. -/
theorem toInt_initial_sub (known : prio ≠ ncPrioValue) :
    (initialPrioValue - prio).toInt = -prio.toInt := by
  have lower := lt_toInt_of_ne_nc known
  have upper := prio.toInt_lt
  rw [Int32.toInt_sub, show initialPrioValue.toInt = 0 from rfl, zero_sub]
  exact Int.bmod_eq_of_le (by omega) (by omega)

/-- The distance to the initial priority does not wrap. -/
theorem toInt_abs_initial_sub (known : prio ≠ ncPrioValue) :
    (initialPrioValue - prio).abs.toInt = prio.toInt.natAbs := by
  have distance := toInt_initial_sub known
  have upper := prio.toInt_lt
  have regular : (initialPrioValue - prio).toBitVec ≠ BitVec.intMin 32 := by
    intro same
    have least := congrArg BitVec.toInt same
    rw [Int32.toInt_toBitVec, distance, show (BitVec.intMin 32).toInt = -2 ^ 31 by decide] at least
    omega
  rw [← Int32.toInt_toBitVec, Int32.toBitVec_abs,
    BitVec.toInt_abs_eq_natAbs_of_ne_intMin regular, Int32.toInt_toBitVec, distance,
    Int.natAbs_neg]

/-- A priority above a producer's is not NC. -/
theorem IsProducerPrio.ne_nc_of_le {upper : Priority} (high : IsProducerPrio prio)
    (above : prio ≤ upper) : upper ≠ ncPrioValue := by
  unfold IsProducerPrio ncPrioValue at *
  grind

namespace TransactionInterfaceManager

variable {params : HTMParams} {n : Nat} {mgr next : TransactionInterfaceManager params n}
variable {req : RemoteRequest}

/-- The priority of a transaction that forwards to a request. -/
def forwardedPrio (mgr : TransactionInterfaceManager params n) (req : RemoteRequest) : Priority :=
  if mgr.isConsumer then mgr.hwTransPrio else producerPrio mgr.hwTransPrio req.remotePriority

/-- What a transaction that forwards has checked, and where it places itself. -/
structure Forwards (mgr : TransactionInterfaceManager params n) (req : RemoteRequest)
    (prio : Priority) : Prop where
  depth : mgr.hwTransPrio - 1 ≠ ncPrioValue
  above : mgr.isConsumer = true → req.remotePriority < mgr.hwTransPrio
  placed : prio = mgr.forwardedPrio req

/-- Unless the place above the requester wraps around, the priority stays a producer's and does not
sink. -/
theorem Forwards.prio_ge (forwards : mgr.Forwards req prio)
    (frozen : mgr.isConsumer = true → mgr.hwTransPrio ≠ ncPrioValue)
    (fits : mgr.isConsumer = false → req.remotePriority ≠ Int32.maxValue) :
    IsProducerPrio prio ∧ (mgr.hwTransPrio ≠ ncPrioValue → mgr.hwTransPrio ≤ prio) ∧
      (mgr.isConsumer = true → prio = mgr.hwTransPrio) := by
  obtain ⟨depth, above, rfl⟩ := forwards
  unfold forwardedPrio
  cases consumer : mgr.isConsumer with
  | true =>
    simp only [↓reduceIte]
    refine ⟨?_, fun _ => Int32.le_refl _, fun _ => trivial⟩
    unfold IsProducerPrio ncPrioValue at *
    grind
  | false =>
    simp only [Bool.false_eq_true, ↓reduceIte, false_implies, and_true]
    unfold producerPrio IsProducerPrio ncPrioValue initialPrioValue at *
    split
    · split <;> grind
    · split <;> grind

/-- The place of a forwarding transaction is computed exactly. -/
theorem Forwards.exact (forwards : mgr.Forwards req prio)
    (fits : mgr.isConsumer = false → req.remotePriority ≠ Int32.maxValue) :
    prio = mgr.hwTransPrio ∨ prio = initialPrioValue ∨
      prio.toInt = req.remotePriority.toInt + 1 := by
  rw [forwards.placed, forwardedPrio]
  split
  · exact .inl rfl
  · next consumer =>
    unfold producerPrio
    split
    · split
      · exact .inr (.inl rfl)
      · exact .inl rfl
    · split
      · exact .inl rfl
      · exact .inr (.inr (toInt_add_one (fits (by simpa using consumer))))

variable {data : DataBlock n}

/-- The answer to a request: the priority moves exactly when data goes with the nack. -/
structure Answers (mgr : TransactionInterfaceManager params n) (req : RemoteRequest)
    (response : Option (Nack n)) (next : TransactionInterfaceManager params n) : Prop where
  buffer : next.buffer = mgr.buffer
  silent : (∀ nack, response = some nack → nack.data = none) → next.hwTransPrio = mgr.hwTransPrio
  ordinary : ∀ nack, response = some nack → nack.swPriority = false
  forwards : ∀ nack, response = some nack → nack.data.isSome = true →
    nack.priority = next.hwTransPrio ∧ mgr.Forwards req next.hwTransPrio

variable {line : LineStatus} {nack : Nack n}

private theorem Forwards.of_same {middle : TransactionInterfaceManager params n}
    (forwards : middle.Forwards req prio) (samePrio : middle.hwTransPrio = mgr.hwTransPrio)
    (sameBuffer : middle.buffer = mgr.buffer) : mgr.Forwards req prio := by
  have consumer : middle.isConsumer = mgr.isConsumer := by
    rw [isConsumer, isConsumer, ← buffer, ← buffer, sameBuffer]
  obtain ⟨depth, above, placed⟩ := forwards
  rw [forwardedPrio] at placed
  rw [samePrio] at depth above placed
  rw [consumer] at above placed
  exact ⟨depth, above, placed⟩

/-- The consumption of a block: a transaction without a priority goes below the nacker. -/
structure Consumes (mgr : TransactionInterfaceManager params n) (nack : Nack n)
    (next : TransactionInterfaceManager params n) : Prop where
  data : nack.data.isSome = true
  legal : mgr.hwTransPrio < nack.priority
  prio : next.hwTransPrio = if mgr.hwTransPrio = ncPrioValue ∧ nack.swPriority = false
    then nack.priority - 1 else mgr.hwTransPrio
  held : ∀ addr, next.buffer.contains addr = true →
    addr = nack.addr ∨ mgr.buffer.contains addr = true

/-- A nack names the core that sends it. -/
theorem remoteRequest_sender {kind : RequestKind}
    (answered : mgr.remoteRequest kind req line = .ok (some nack, next)) :
    nack.sender = ⟨.l1Cache, mgr.version⟩ := by
  rcases remoteRequest_cases answered with ⟨middle, _, judged, sent, ⟨⟩⟩ | ⟨-, served⟩
  · rw [← judged.quiet.call.version]
    rcases sendInvNack_cases sent with ⟨made, -⟩ | ⟨_, _, made, -, -, -, -, rfl⟩
    all_goals
      simp only [plainNack, run_eq_ok] at made
      obtain ⟨_, -, rfl⟩ := made
      rfl
  · simp at served

section

variable (ordered : IsOrdered params)

include ordered

/-- Under requester-loses asking for data changes nothing. -/
theorem Asked.eq_of_ordered {verdict : Bool}
    (asked : mgr.Asked req verdict next) : next = mgr := by
  cases asked with
  | silent => rfl
  | refused _ _ _ refused =>
    refine (refuseForwarding_ok refused).2.resolve_right fun wins => ?_
    simp [HTMParams.isReqLosesPolicy, ordered.policy, HtmPolicy.getResolutionPolicy_eq] at wins
  | judged => rfl

/-- It says yes only to what the checks allow. -/
theorem Forwards.of_judged
    (moves : mgr.mechanismForwards req = .ok true) : mgr.Forwards req (mgr.forwardedPrio req) := by
  have ordinary := ordered.not_powered mgr.conflict
  simp only [mechanismForwards, getSwTransactionPriority, ordinary, ordered.cautious,
    getTransactionPriority, ordered.priorities, Bool.false_or, decide_false, Bool.false_eq_true,
    ↓reduceIte] at moves
  split at moves
  · simp [pure, Except.pure] at moves
  · next depth =>
    split at moves
    · simp [pure, Except.pure] at moves
    · next below =>
      refine ⟨depth, fun consumer => ?_, rfl⟩
      simpa [consumer] using below

private theorem switchHwPrio_forwarded {remoteSwPrio : Bool}
    (switched : mgr.switchHwPrio req.remotePriority remoteSwPrio false = .ok next) :
    next.hwTransPrio = mgr.forwardedPrio req := by
  have movable : mgr.priorityMovable = !mgr.isConsumer := by
    simp [priorityMovable, ordered.policy, ordered.forwarding]
  rw [switchHwPrio_sent_ok switched, forwardedPrio, movable]
  cases mgr.isConsumer <;> simp [ordered.priorities, ordered.not_powered]

/-- `addConsumer` moves the priority to its place. -/
theorem addConsumer_prio (added : mgr.addConsumer req = .ok (data, next)) :
    next.hwTransPrio = mgr.forwardedPrio req := by
  simp only [addConsumer, recordSentData, run_eq_ok, Prod.mk.injEq] at added
  obtain ⟨_, -, _, switched, -, _, -, -, _, -, _, ⟨-, _, -, rfl⟩, -, rfl⟩ := added
  have moved := switchHwPrio_forwarded ordered switched
  exact moved

private theorem Answers.of_sendInvNack
    (sent : mgr.sendInvNack req line = .ok (nack, next)) : mgr.Answers req (some nack) next := by
  have ordinary := ordered.not_powered mgr.conflict
  rcases sendInvNack_cases sent with ⟨made, asked⟩ | ⟨_, _, made, -, may, judged, added, rfl⟩
  all_goals
    simp only [plainNack, run_eq_ok] at made
    obtain ⟨_, -, rfl⟩ := made
  · obtain rfl := asked.eq_of_ordered ordered
    exact ⟨rfl, fun _ => rfl, by rintro nack ⟨⟩; exact ordinary, by rintro nack ⟨⟩ ⟨⟩⟩
  · have moved := addConsumer_prio ordered added
    refine ⟨(AnswerCall.of_addConsumer may.inside added).same.buffer, fun plain => ?_, ?_, ?_⟩
    · simp at plain
    · rintro nack ⟨⟩
      exact ordinary
    · rintro nack ⟨⟩ -
      refine ⟨?_, moved ▸ .of_judged ordered judged⟩
      simp [getTransactionPriority, ordered.priorities]

/-- Every remote request is answered so. -/
theorem Answers.of_remoteRequest {kind : RequestKind}
    {response : Option (Nack n)}
    (answered : mgr.remoteRequest kind req line = .ok (response, next)) :
    mgr.Answers req response next := by
  rcases remoteRequest_cases answered with ⟨middle, nack, judged, sent, rfl⟩ | ⟨judged, rfl⟩
  · have samePrio := judged.quiet.rank.prio ordered.plain
    have sameBuffer := judged.quiet.same.buffer
    obtain ⟨buffer, silent, ordinary, forwards⟩ := Answers.of_sendInvNack ordered sent
    refine ⟨buffer.trans sameBuffer, fun plain => (silent plain).trans samePrio, ordinary, ?_⟩
    intro nack sent data
    obtain ⟨carried, moved⟩ := forwards nack sent data
    exact ⟨carried, moved.of_same samePrio sameBuffer⟩
  · exact ⟨judged.quiet.same.buffer,
      fun _ => judged.quiet.rank.prio ordered.plain, by simp, by simp⟩

/-- A nack judged fit for consumption comes from above. -/
theorem nackEvent_legal {tbe : Option TBE}
    (judged : mgr.nackEvent nack tbe = .ok (.nackSpec, next)) :
    mgr.hwTransPrio < nack.priority := by
  have checked := (nackEvent_nackSpec judged).1
  simp only [judgeNack, ordered.forwarding, ↓reduceIte, isIllegalNack, bind_eq_ok] at checked
  obtain ⟨_, -, checked⟩ := checked
  repeat' split at checked
  all_goals simp only [run_eq_ok, Prod.mk.injEq] at checked
  · exact absurd checked.1.symm (by simp)
  · exact absurd checked.2.1.symm (by simp)
  · next cleared =>
    simp only [ordered.priorities, ordered.strategy, ne_eq, reduceCtorEq, not_false_eq_true,
      true_and, not_or] at cleared
    exact Int32.not_le.mp cleared.1

private theorem notifyForwardedData_prio {nack : RemoteRequest}
    (notified : mgr.notifyForwardedDataFromProducer nack data = .ok next) :
    next.hwTransPrio = if mgr.hwTransPrio = ncPrioValue ∧ nack.remoteSwPriority = false
      then nack.remotePriority - 1 else mgr.hwTransPrio := by
  obtain ⟨marked, taker, consumer, parts⟩ := notifyForwardedData_ok notified
  have taken : taker.hwTransPrio = if marked.hwTransPrio = ncPrioValue ∧
      nack.remoteSwPriority = false then nack.remotePriority - 1 else marked.hwTransPrio := by
    have taking := parts.taking
    simp only [takeNackPriority, ordered.not_stalls, Bool.false_eq_true, ↓reduceIte] at taking
    rw [switchHwPrio_received_ok taking]
    simp [ordered.priorities]
  obtain ⟨_, _, _, _, rfl, -⟩ := consumeData_ok parts.consuming
  rw [parts.limits.rank.prio ordered.plain, ← parts.prio]
  exact taken

end

end TransactionInterfaceManager

namespace Core

variable {params : HTMParams} {n : Nat} {core next : Core params n}

open TransactionInterfaceManager

/-- A nack is consumed, or keeps the rank of its receiver. -/
theorem receiveNack_rank (ordered : IsOrdered params) {nack : Nack n} {tbe : Option TBE}
    {pending : TransactionInterfaceManager.Pending}
    (received : core.receiveNack nack tbe pending = .ok next) :
    RankKept core.mgr next.mgr ∨ Consumes core.mgr nack next.mgr := by
  cases receiveNack_cases received with
  | quiet _ _ call => exact .inl call.rank
  | consumed judged carried consumed =>
    have before := (QuietCall.of_nackEvent judged).rank
    simp only [TransactionInterfaceManager.consumeForwardedData, bind_eq_ok] at consumed
    obtain ⟨middle, notified, called⟩ := consumed
    have after := (AccessCall.of_specCallback called).rank
    have prio := (after.prio ordered.plain).trans
      (TransactionInterfaceManager.notifyForwardedData_prio ordered notified)
    refine .inr ⟨by simp [carried], TransactionInterfaceManager.nackEvent_legal ordered judged,
      before.prio ordered.plain ▸ prio, fun addr found => ?_⟩
    have entered := after.held addr found
    rw [(TransactionInterfaceManager.notifyForwardedData_data notified).2.2] at entered
    simp only [Std.ExtTreeMap.contains_insert, Bool.or_eq_true, beq_iff_eq,
      Std.compare_eq_iff_eq] at entered
    exact entered.imp Eq.symm (before.held addr)
  | validated judged validated =>
    exact .inl ((QuietCall.of_nackEvent judged).rank.trans
      (RankCall.of_validateConsumedData validated).rank)

end Core

end Gem5.Ruby
