import Gem5.Mem.Ruby.Protocol.RequestService

/-!
# The sharing code after an L2 miss

A request that misses in the L2 is checked against the transactions of all other
cores.  If some of them nack it, the requester cancels the request and reports the
nackers, and the L2 rebuilds from this report who has the block in the sets of its
transaction: a writer is the exclusive owner in `MMT`, readers are the sharers in `SS`.
-/

namespace Gem5.Ruby

open Foundation

/-! ## The nacks of a request -/

section

variable {n : Nat} {params : HTMParams} {tbe next : NackTbe n} {msgs : List (NackMsg n)}

/-- The nackers are the senders of the nacks, and the writers among them those who say so. -/
theorem NackTbe.mem_nackers_collect (collected : tbe.collect params msgs = .ok next)
    (machine : MachineID) :
    (machine ∈ next.nackers ↔ machine ∈ tbe.nackers ∨ ∃ msg ∈ msgs, msg.sender = machine) ∧
      (machine ∈ next.nackersWriters ↔ machine ∈ tbe.nackersWriters ∨
        ∃ msg ∈ msgs, msg.nackerIsWriter = true ∧ msg.sender = machine) := by
  induction msgs generalizing tbe with
  | nil =>
    obtain rfl := pure_eq_ok.mp collected
    simp
  | cons msg rest ih =>
    simp only [NackTbe.collect, List.foldlM_cons, bind_eq_ok] at collected
    obtain ⟨middle, set, collected⟩ := collected
    simp only [NackTbe.setNack, run_eq_ok] at set
    obtain ⟨-, nack, -, -, rfl⟩ := set
    obtain ⟨nackers, writers⟩ := ih collected
    rw [nackers, writers]
    constructor
    · simp only [Finset.mem_insert, List.exists_mem_cons_iff]
      grind
    · cases writes : msg.nackerIsWriter with
      | false => simp [writes]
      | true =>
        simp only [if_true, Finset.mem_insert, List.exists_mem_cons_iff, writes, true_and]
        grind

end

namespace L1Cache

variable {n : Nat}

private theorem sender_sublist_answerer (answers : List (ResponseMsg n)) :
    ((nacksOf answers).map fun msg => msg.sender).Sublist (answers.map answerer) := by
  induction answers with
  | nil => exact .slnil
  | cons answer rest ih =>
    cases answer with
    | nack count msg => exact ih.cons_cons _
    | _ => exact ih.cons _

/-! ## The answer to a check -/

section

variable {σ : Type} [XactMgr σ] {place : Place} {check : RequestMsg n} {mgr after : σ}
  {answer : ResponseMsg n}

/-- An L1 cache answers a check of its signatures. -/
def AnswersCheck (place : Place) (check : RequestMsg n) (mgr after : σ) (answer : ResponseMsg n) :
    Prop :=
  ∃ line ctx, requestNetworkIn place check ⟨mgr, line, [], false⟩ = .ok ctx ∧ ctx.mgr = after ∧
    ctx.sent = [.response check.remoteId answer]

/-- The nack that answers a check. -/
def checkNack (place : Place) (timestamp : Cycles) (isWriter : Bool) : NackMsg n :=
  { addr := place.address, sender := place.machineID, timestamp := timestamp, trans := .nonTrans
    priority := 0, swPriority := false, data := none, nackerIsWriter := isWriter }

private theorem find_checkReadWriteSet {state : State} {rule : Rule State Event Action}
    (found : Rule.find transitions state .checkReadWriteSet = some rule) :
    rule.actions = [.checkHtmReadWriteSet, .popL2RequestQueue] := by
  have all : (Rule.find transitions state .checkReadWriteSet).all fun rule =>
      decide (rule.actions = [.checkHtmReadWriteSet, .popL2RequestQueue]) := by
    cases state <;> rfl
  rw [found] at all
  exact of_decide_eq_true all

/-- The answer is the verdict on a store. -/
theorem AnswersCheck.verdict (type : check.type = .checkReadWriteSet)
    (answers : AnswersCheck place check mgr after answer) :
    ∃ nacks, shouldNackStore mgr check.toRemoteRequest = .ok (nacks, after) ∧
      (nacks = true ∧ (∃ timestamp, answer = .nack 1 (checkNack place timestamp
          (XactMgr.checkWriteSignature after place.address))) ∨
        nacks = false ∧ answer = .ack place.machineID 1) := by
  obtain ⟨line, ctx, handled, rfl, sent⟩ := answers
  simp only [requestNetworkIn, requestEvent, type, pure_bind, Controller.trigger_eq_ok] at handled
  obtain ⟨rule, last, found, performed, rfl⟩ := handled
  rw [find_checkReadWriteSet found] at performed
  simp only [List.foldlM_cons, List.foldlM_nil, controller, perform, run_eq_ok,
    Context.checkHtmSets, Input.peekRequest] at performed
  obtain ⟨middle, ⟨_, rfl, ⟨nacks, verdict⟩, decided, answered⟩, _, rfl, rfl⟩ := performed
  cases nacks with
  | true =>
    simp only [if_true, run_eq_ok] at answered
    obtain ⟨timestamp, -, rfl⟩ := answered
    have same := List.singleton_inj.mp sent
    exact ⟨true, decided, .inl ⟨rfl, timestamp, (Output.response.inj same).2.symm⟩⟩
  | false =>
    simp only [Bool.false_eq_true, if_false, pure_eq_ok] at answered
    subst answered
    have same := List.singleton_inj.mp sent
    exact ⟨false, decided, .inr ⟨rfl, (Output.response.inj same).2.symm⟩⟩

/-- A cache without a copy passes the verdict on. -/
theorem answersCheck_nack {timestamp : Cycles} (type : check.type = .checkReadWriteSet)
    (decided : shouldNackStore mgr check.toRemoteRequest = .ok (true, after))
    (stamped : XactMgr.getOldestTimestamp after = .ok timestamp) :
    AnswersCheck place check mgr after (.nack 1 (checkNack place timestamp
      (XactMgr.checkWriteSignature after place.address))) := by
  refine ⟨.invalid, ⟨after, .invalid, _, true⟩, ?_, rfl, rfl⟩
  simp only [requestNetworkIn, requestEvent, type, pure_bind]
  rw [Controller.trigger_of_find (rfl : _ = State.i) rfl]
  simp only [controller, perform, List.foldlM_cons, List.foldlM_nil, Context.checkHtmSets,
    Input.peekRequest, pure_bind, decided, ok_bind, if_true, stamped]
  rfl

end

end L1Cache

/-! ## The verdict of a live transaction -/

namespace TransactionInterfaceManager

variable {params : HTMParams} {n : Nat} {mgr next : TransactionInterfaceManager params n}
  {req : RemoteRequest} {nack : Bool}

/-- A LogTM transaction that has written the block nacks the request or is aborted by it. -/
theorem logWriter_nacks_or_aborts (logTm : params.lazyVm = false) (running : mgr.IsRunning)
    (live : mgr.abort.abortFlag = false) (remote : req.remoteId.type = .l1Cache)
    (writes : mgr.checkWriteSignature req.addr = true)
    (answered : mgr.shouldNackStore req = .ok (nack, next)) :
    nack = true ∨ next.abort.abortFlag = true := by
  simp only [shouldNackStore, existStoreConflict, writes, if_true, remote, run_eq_ok,
    exists_eq_left', reduceCtorEq, if_false, true_and] at answered
  obtain ⟨-, -, ⟨verdict, middle⟩, first, answered⟩ := answered
  split at answered
  · simp only [overrideStoreVerdict, logTm, Bool.not_false, Bool.and_self, if_true,
      Bool.true_eq_false, and_false, if_false] at answered
    split at answered
    · simp only [run_eq_ok, Prod.mk.injEq] at answered
      obtain ⟨_, -, isNack, -⟩ := answered
      exact .inl isNack.symm
    · simp only [pure_eq_ok, Prod.mk.injEq] at answered
      exact .inl answered.1.symm
  · simp only [pure_eq_ok, Prod.mk.injEq] at answered
    obtain ⟨rfl, rfl⟩ := answered
    exact shouldNackRemoteRequest_live running live first

end TransactionInterfaceManager

/-! ## The report in the L2 -/

namespace L2Cache

variable {n : Nat} {place : Place} {memory : DataBlock n} {requestor writer : MachineID}
  {nackers : Finset MachineID}

private theorem mem_l1Caches {machine : MachineID} :
    machine ∈ place.l1Caches ↔ machine.type = .l1Cache ∧ machine.num < place.l1Count := by
  unfold Place.l1Caches
  rw [Finset.mem_image]
  constructor
  · rintro ⟨num, bound, rfl⟩
    exact ⟨rfl, Finset.mem_range.mp bound⟩
  · rintro ⟨type, bound⟩
    exact ⟨machine.num, Finset.mem_range.mpr bound, by rw [← type]⟩

private theorem evicts_of_logTm (logTm : place.params.lazyVm = false) : place.evicts = true := by
  simp [Place.evicts, (place.params.writeSetEvictions logTm).2.2]

private theorem smallestElement_singleton (member : writer ∈ place.l1Caches) :
    Context.smallestElement place {writer} = writer := by
  obtain ⟨type, bound⟩ := mem_l1Caches.mp member
  unfold Context.smallestElement
  split
  · next num found =>
    have listed := List.find?_some found
    simpa using listed
  · next missing =>
    have absent := List.find?_eq_none.mp missing writer.num (List.mem_range.mpr bound)
    simp [← type] at absent

/-- One writer is reported. -/
theorem unblock_writer (evicts : place.evicts = true) (member : writer ∈ place.l1Caches) :
    l1UnblockNetworkIn place (.unblockCancel requestor {writer} true)
        ⟨filledLine memory, [], false⟩ =
      .ok ⟨⟨some ⟨.mmt, {writer}, writer, memory, false⟩, none⟩, [], true⟩ := by
  have event : unblockEvent (.unblockCancel requestor {writer} true) = .unblockCancelMMT := by
    simp [unblockEvent]
  rw [l1UnblockNetworkIn, event, Controller.trigger_of_find (rfl : _ = State.issMB) rfl]
  simp only [controller, perform, List.foldlM_cons, List.foldlM_nil, Context.assertEvicts,
    assertThat_of evicts, Input.peekUnblock, pure_bind, nackersOf, Finset.card_singleton,
    smallestElement_singleton member]
  rfl

/-- Readers are reported. -/
theorem unblock_readers (evicts : place.evicts = true) (some_nacker : nackers.Nonempty) :
    l1UnblockNetworkIn place (.unblockCancel requestor nackers false)
        ⟨filledLine memory, [], false⟩ =
      .ok ⟨⟨some ⟨.ss, nackers, createInvalidMachineID, memory, false⟩, none⟩, [], true⟩ := by
  have positive : nackers.card > 0 := some_nacker.card_pos
  have event : unblockEvent (.unblockCancel requestor nackers false) = .unblockCancelSS := by
    simp only [unblockEvent, and_true]
    rw [if_pos]
    omega
  rw [l1UnblockNetworkIn, event, Controller.trigger_of_find (rfl : _ = State.issMB) rfl]
  have reported : (nackersOf (.unblockCancel requestor nackers false)).card > 0 := positive
  simp only [controller, perform, List.foldlM_cons, List.foldlM_nil, Context.assertEvicts,
    assertThat_of evicts, Input.peekUnblock, pure_bind, assertThat_of reported]
  rfl

/-- A load that finds the line in `MMT` is checked against the exclusive owner. -/
theorem serve_load_mmt {load : RequestMsg n} {block other : DataBlock n} {dirty : Bool}
    (type : load.type = .gets) (source : load.remoteId.type = .l1Cache)
    (apart : load.remoteId ≠ writer) :
    serve place ⟨some ⟨.mmt, {writer}, writer, block, dirty⟩, none⟩ load other =
      .ok ⟨⟨some ⟨.mmtIIB, {writer}, writer, block, dirty⟩, none⟩,
        [.response {load.remoteId} (.data l2Bank (-1) block false false),
          .request {writer} (fwdMsg place .checkWriteSet load.toRemoteRequest)], true⟩ := by
  have event : l1CacheRequestTypeToEvent place
      (⟨some ⟨.mmt, {writer}, writer, block, dirty⟩, none⟩ : Line n) load.type load.remoteId =
        .ok .l1Gets := by
    simp [type, l1CacheRequestTypeToEvent, fromOwner, Line.isExclusive, missNeedsCheck, apart]
  have count :
      (⟨.mmt, {writer}, writer, block, dirty⟩ : Entry n).announcedAcks load.remoteId = -1 := by
    simp [Entry.announcedAcks, apart]
  have asked : ({writer} : Finset MachineID).erase load.remoteId = {writer} :=
    Finset.erase_eq_of_notMem (by simpa using apart)
  simp only [serve, l1RequestL2NetworkIn, assertThat_of source, ok_bind, event]
  rw [Controller.trigger_of_find (rfl : _ = State.mmt) rfl]
  simp only [controller, perform, List.foldlM_cons, List.foldlM_nil, Context.sendData,
    Context.sendToOtherSharers, Input.peekRequest, Line.getEntry, pure_bind, count, Context.send,
    asked]
  rfl

end L2Cache

/-! ## The whole request -/

open L1Cache

/-- A request that misses in the L2 is checked by all other cores.  At most one transaction has
written the block, and it is alive when it is asked. -/
structure MissCheck (home : L2Cache.Place) (n : Nat) where
  msg : RequestMsg n
  before : MachineID → TransactionInterfaceManager home.params n
  after : MachineID → TransactionInterfaceManager home.params n
  answer : MachineID → ResponseMsg n
  member : msg.remoteId ∈ home.l1Caches
  demand : msg.type = .gets ∨ msg.type = .getx ∨ msg.type = .upgrade
  own : after msg.remoteId = before msg.remoteId
  answers : ∀ core ∈ home.l1Caches.erase msg.remoteId,
    AnswersCheck ⟨core, home.address⟩ (L2Cache.checkMsg home msg) (before core) (after core)
      (answer core)
  live : ∀ core ∈ home.l1Caches, (before core).checkWriteSignature home.address = true →
    (before core).IsRunning ∧ (before core).abort.abortFlag = false
  oneWriter : ∀ core ∈ home.l1Caches, ∀ other ∈ home.l1Caches,
    (before core).checkWriteSignature home.address = true →
    (before other).checkWriteSignature home.address = true → core = other
  queried : ∃ isReader, (before msg.remoteId).checkReadSignature home.address = .ok isReader

namespace MissCheck

variable {n : Nat} {home : L2Cache.Place} (miss : MissCheck home n)

/-- The requester. -/
def requestor : MachineID := miss.msg.remoteId

/-- The L1 cache of the requester. -/
def place : Place := ⟨miss.requestor, home.address⟩

/-- The other cores. -/
def others : Finset MachineID := home.l1Caches.erase miss.requestor

/-- The core has the block in the write set of its transaction and was not made to give it up. -/
def Writes (nackers : Finset MachineID) (core : MachineID) : Prop :=
  core ∈ home.l1Caches ∧ (miss.after core).checkWriteSignature home.address = true ∧
    (core = miss.requestor ∨ core ∈ nackers ∨ (miss.after core).abort.abortFlag = false)

/-- The sharing code is right: a writer is the exclusive owner, and the next load of another core is
checked against it; without a writer the readers are sharers. -/
structure Rebuilt (nackers : Finset MachineID) (line : L2Cache.Line n) : Prop where
  writer : ∀ core, miss.Writes nackers core → ∃ entry, line = ⟨some entry, none⟩ ∧
    entry.cacheState = .mmt ∧ entry.exclusive = core
  readers : (∀ core, ¬ miss.Writes nackers core) → ∃ entry, line = ⟨some entry, none⟩ ∧
    entry.cacheState = .ss ∧ nackers ⊆ entry.sharers ∧
      ((miss.before miss.requestor).checkReadSignature home.address = .ok true →
        miss.requestor ∈ entry.sharers)
  checks : ∀ core, miss.Writes nackers core → ∀ (load : RequestMsg n) (memory : DataBlock n),
    load.type = .gets → load.remoteId ∈ home.l1Caches → load.remoteId ≠ core →
    ∃ after block, L2Cache.serve home line load memory = .ok after ∧
      after.sent = [.response {load.remoteId} (.data l2Bank (-1) block false false),
        .request {core} (L2Cache.fwdMsg home .checkWriteSet load.toRemoteRequest)]

/-- The senders of the nacks. -/
def nackersIn (arrival : List (ResponseMsg n)) : Finset MachineID :=
  ((nacksOf arrival).map fun msg => msg.sender).toFinset

/-- The request is settled and cancelled, and the L2 rebuilds the sharing code from the
cancellation. -/
def Rebuilds (line : Line n) (directory : L2Cache.Line n) (arrival : List (ResponseMsg n)) : Prop :=
  ∃ outs cancel ctx, SettledBy miss.place (miss.before miss.requestor) line arrival true true outs ∧
    unblocksOf outs = [cancel] ∧
    L2Cache.l1UnblockNetworkIn home cancel ⟨directory, [], false⟩ = .ok ctx ∧
    miss.Rebuilt (nackersIn arrival) ctx.line

variable {miss}

variable {core : MachineID}

private theorem mem_others (asked : core ∈ miss.others) :
    core ≠ miss.requestor ∧ core ∈ home.l1Caches ∧ core.type = .l1Cache :=
  have member := Finset.mem_erase.mp asked
  ⟨member.1, member.2, (L2Cache.mem_l1Caches.mp member.2).1⟩

/-- The L1 gives the verdict of the manager, where it gives one. -/
theorem shouldNackStore_ok {nacks : Bool} {mgr next : TransactionInterfaceManager home.params n}
    {req : RemoteRequest} (decided : shouldNackStore mgr req = .ok (nacks, next)) :
    home.params.allowReadSetL1CacheEvictions = true ∧ mgr.shouldNackStore req = .ok (nacks, next) ∨
      home.params.allowReadSetL1CacheEvictions = false ∧ nacks = false ∧ next = mgr := by
  rw [shouldNackStore_eq] at decided
  split at decided
  · next checked => exact .inl ⟨checked, decided⟩
  · next never =>
    cases decided
    exact .inr ⟨by simpa using never, rfl, rfl⟩

private theorem after_checkWriteSignature (member : core ∈ home.l1Caches) :
    (miss.after core).checkWriteSignature home.address =
      (miss.before core).checkWriteSignature home.address := by
  by_cases own : core = miss.requestor
  · rw [own, requestor, miss.own]
  · have asked : core ∈ home.l1Caches.erase miss.msg.remoteId := Finset.mem_erase.mpr ⟨own, member⟩
    obtain ⟨nacks, decided, -⟩ := (miss.answers core asked).verdict rfl
    rcases shouldNackStore_ok decided with ⟨-, decided⟩ | ⟨-, -, same⟩
    · exact (TransactionInterfaceManager.ConflictFrame.of_shouldNackStore
        decided).checkWriteSignature_eq _
    · rw [same]

/-- The answer of one core. -/
theorem answer_cases (asked : core ∈ miss.others) :
    (home.params.allowReadSetL1CacheEvictions = true ∧ ∃ timestamp,
      miss.answer core = .nack 1 (checkNack ⟨core, home.address⟩ timestamp
        ((miss.before core).checkWriteSignature home.address))) ∨
      miss.answer core = .ack core 1 ∧ (home.params.allowReadSetL1CacheEvictions = true →
        (miss.before core).shouldNackStore (L2Cache.checkMsg home miss.msg).toRemoteRequest =
          .ok (false, miss.after core)) := by
  obtain ⟨nacks, decided, ⟨rfl, timestamp, answer⟩ | ⟨rfl, answer⟩⟩ :=
    (miss.answers core asked).verdict rfl
  · rcases shouldNackStore_ok decided with ⟨allowed, -⟩ | ⟨-, never, -⟩
    · refine .inl ⟨allowed, timestamp, answer.trans ?_⟩
      rw [← after_checkWriteSignature (mem_others asked).2.1]
      rfl
    · exact absurd never (by decide)
  · refine .inr ⟨answer, fun allowed => ?_⟩
    rcases shouldNackStore_ok decided with ⟨-, verdict⟩ | ⟨never, -⟩
    · exact verdict
    · rw [never] at allowed
      exact absurd allowed (by decide)

section

private theorem answerer_answer {core : MachineID} (asked : core ∈ miss.others) :
    IsAnswer (miss.answer core) ∧ answerer (miss.answer core) = core := by
  rcases answer_cases asked with ⟨-, timestamp, answer⟩ | ⟨answer, -⟩
  · rw [answer]
    exact ⟨.nack _, rfl⟩
  · rw [answer]
    exact ⟨.ack _, rfl⟩

variable {arrival : List (ResponseMsg n)}

section

variable (all : arrival.Perm (miss.others.toList.map miss.answer))

include all

private theorem mem_arrival {msg : ResponseMsg n} : msg ∈ arrival ↔
    ∃ core ∈ miss.others, miss.answer core = msg := by
  rw [all.mem_iff]
  simp

private theorem answeredBy : AnsweredBy miss.others arrival where
  each msg member := by
    obtain ⟨core, asked, rfl⟩ := (mem_arrival all).mp member
    exact (answerer_answer asked).1
  once := by
    rw [(all.map answerer).nodup_iff, List.map_map]
    refine (List.nodup_map_iff_inj_on (Finset.nodup_toList _)).mpr ?_
    intro core asked other asked' same
    rw [Finset.mem_toList] at asked asked'
    simpa [(answerer_answer asked).2, (answerer_answer asked').2] using same
  all := by
    ext core
    simp only [List.mem_toFinset, List.mem_map, mem_arrival all]
    constructor
    · rintro ⟨_, ⟨other, asked, rfl⟩, rfl⟩
      rwa [(answerer_answer asked).2]
    · intro asked
      exact ⟨_, ⟨core, asked, rfl⟩, (answerer_answer asked).2⟩

/-- The nacks among the answers. -/
theorem nack_cases {nack : NackMsg n} (listed : nack ∈ nacksOf arrival) :
    nack.sender ∈ miss.others ∧ home.params.allowReadSetL1CacheEvictions = true ∧
      ∃ timestamp, nack = checkNack ⟨nack.sender, home.address⟩ timestamp
        ((miss.before nack.sender).checkWriteSignature home.address) := by
  obtain ⟨msg, member, isNack⟩ := List.mem_filterMap.mp listed
  obtain ⟨core, asked, rfl⟩ := (mem_arrival all).mp member
  rcases answer_cases asked with ⟨allowed, timestamp, answer⟩ | ⟨answer, -⟩
  · rw [answer] at isNack
    obtain rfl := Option.some.inj isNack
    exact ⟨asked, allowed, timestamp, rfl⟩
  · rw [answer] at isNack
    exact absurd isNack (by simp)

private theorem nacker_asked {core : MachineID} (nacker : core ∈ nackersIn arrival) :
    core ∈ miss.others := by
  simp only [nackersIn, List.mem_toFinset, List.mem_map] at nacker
  obtain ⟨msg, listed, rfl⟩ := nacker
  exact (nack_cases all listed).1

/-- A core that has written the block and does not nack is aborted. -/
theorem nacked_or_aborted (logTm : home.params.lazyVm = false)
    (allowed : home.params.allowReadSetL1CacheEvictions = true) {core : MachineID}
    (asked : core ∈ miss.others)
    (writes : (miss.before core).checkWriteSignature home.address = true) :
    core ∈ nackersIn arrival ∨ (miss.after core).abort.abortFlag = true := by
  rcases answer_cases asked with ⟨-, timestamp, answer⟩ | ⟨-, verdict⟩
  · left
    have member : miss.answer core ∈ arrival := (mem_arrival all).mpr ⟨core, asked, rfl⟩
    rw [answer] at member
    rw [nackersIn, List.mem_toFinset, List.mem_map]
    exact ⟨_, List.mem_filterMap.mpr ⟨_, member, rfl⟩, rfl⟩
  · obtain ⟨running, live⟩ := miss.live core (mem_others asked).2.1 writes
    have source : (L2Cache.checkMsg home miss.msg).remoteId.type = .l1Cache :=
      (L2Cache.mem_l1Caches.mp miss.member).1
    have decided := TransactionInterfaceManager.logWriter_nacks_or_aborts logTm running live
      source writes (verdict allowed)
    exact .inr (decided.resolve_left (by decide))

/-- The nacks of the other cores pass all assertions. -/
theorem nacks_accepted : Accepted home.params (nacksOf arrival) := by
  have plain : ∀ msg ∈ nacksOf arrival, msg.data = none ∧ msg.trans = .nonTrans := by
    intro msg listed
    obtain ⟨-, -, _, known⟩ := nack_cases all listed
    rw [known]
    exact ⟨rfl, rfl⟩
  refine ⟨fun msg listed => (mem_others (nack_cases all listed).1).2.2,
    fun first isFirst trans => ?_, ?_, fun first isFirst data => ?_⟩
  · simp [(plain first (List.mem_of_mem_head? isFirst)).2] at trans
  · have distinct : (nacksOf arrival).Pairwise fun msg other => msg.sender ≠ other.sender :=
      List.pairwise_map.mp ((sender_sublist_answerer arrival).nodup (answeredBy all).once)
    refine distinct.imp_of_mem fun {msg other} listed listed' apart => ?_
    obtain ⟨asked, -, _, known⟩ := nack_cases all listed
    obtain ⟨asked', -, _, known'⟩ := nack_cases all listed'
    refine ⟨fun both => ?_, fun both => apart ?_⟩
    · rw [known] at both
      exact absurd both.1 (by simp [checkNack])
    · rw [known, known'] at both
      exact miss.oneWriter _ (mem_others asked).2.1 _ (mem_others asked').2.1 both.1 both.2
  · simp [(plain first (List.mem_of_mem_head? isFirst)).1] at data

section

variable {nacks : NackTbe n}
  (collected : NackTbe.empty.collect home.params (nacksOf arrival) = .ok nacks)

include collected

omit all in
private theorem nackers_eq : nacks.nackers = nackersIn arrival := by
  ext machine
  rw [(NackTbe.mem_nackers_collect collected machine).1]
  simp [NackTbe.empty, nackersIn]

private theorem mem_nackersWriters {core : MachineID} : core ∈ nacks.nackersWriters ↔
    core ∈ nackersIn arrival ∧ (miss.before core).checkWriteSignature home.address = true := by
  rw [(NackTbe.mem_nackers_collect collected core).2]
  simp only [NackTbe.empty, Finset.notMem_empty, false_or, nackersIn, List.mem_toFinset,
    List.mem_map]
  constructor
  · rintro ⟨msg, listed, writes, rfl⟩
    obtain ⟨-, -, _, known⟩ := nack_cases all listed
    rw [known] at writes
    exact ⟨⟨msg, listed, rfl⟩, writes⟩
  · rintro ⟨⟨msg, listed, rfl⟩, writes⟩
    obtain ⟨-, -, _, known⟩ := nack_cases all listed
    exact ⟨msg, listed, by rw [known]; exact writes, rfl⟩

/-- A nacker that has written the block is the only one that is reported. -/
theorem missNackers_writer {core : MachineID} (nacker : core ∈ nackersIn arrival)
    (writes : (miss.before core).checkWriteSignature home.address = true) :
    Context.missNackers miss.place (miss.before miss.requestor) nacks = .ok ({core}, true) := by
  have only : nacks.nackersWriters = {core} := by
    ext other
    rw [mem_nackersWriters all collected, Finset.mem_singleton]
    constructor
    · rintro ⟨listed, writes'⟩
      exact miss.oneWriter _ (mem_others (nacker_asked all listed)).2.1 _
        (mem_others (nacker_asked all nacker)).2.1 writes' writes
    · rintro rfl
      exact ⟨nacker, writes⟩
  have idle : (miss.before miss.requestor).checkWriteSignature home.address = false := by
    by_contra own
    obtain ⟨apart, member, -⟩ := mem_others (nacker_asked all nacker)
    exact apart (miss.oneWriter _ member _ miss.member writes (by simpa using own))
  unfold Context.missNackers
  rw [only, Finset.card_singleton, if_neg one_ne_zero, assertThat_of rfl, ok_bind]
  rw [assertThat_of (show XactMgr.checkWriteSignature (miss.before miss.requestor)
    miss.place.address = false from idle)]
  rfl

/-- A local writer is reported as if it were a reader. -/
theorem missNackers_self
    (own : (miss.before miss.requestor).checkWriteSignature home.address = true) :
    Context.missNackers miss.place (miss.before miss.requestor) nacks =
      .ok ({miss.requestor}, false) := by
  have nobody : nacks.nackersWriters = ∅ := by
    refine Finset.eq_empty_of_forall_notMem fun core listed => ?_
    obtain ⟨nacker, writes⟩ := (mem_nackersWriters all collected).mp listed
    obtain ⟨apart, member, -⟩ := mem_others (nacker_asked all nacker)
    exact apart (miss.oneWriter _ member _ miss.member writes own)
  unfold Context.missNackers
  rw [nobody, Finset.card_empty, if_pos rfl]
  exact if_pos own

/-- Readers are reported, the requester with them. -/
theorem missNackers_readers
    (idle : (miss.before miss.requestor).checkWriteSignature home.address = false)
    (readers : ∀ core ∈ nackersIn arrival,
      (miss.before core).checkWriteSignature home.address = false) :
    ∃ isReader, (miss.before miss.requestor).checkReadSignature home.address = .ok isReader ∧
      Context.missNackers miss.place (miss.before miss.requestor) nacks =
        .ok (if isReader then insert miss.requestor (nackersIn arrival) else nackersIn arrival,
          false) := by
  have nobody : nacks.nackersWriters = ∅ := by
    refine Finset.eq_empty_of_forall_notMem fun core listed => ?_
    obtain ⟨nacker, writes⟩ := (mem_nackersWriters all collected).mp listed
    rw [readers core nacker] at writes
    exact absurd writes (by decide)
  obtain ⟨isReader, queried⟩ := miss.queried
  refine ⟨isReader, queried, ?_⟩
  unfold Context.missNackers
  rw [nobody, Finset.card_empty, if_pos rfl, if_neg (by
    show ¬ (miss.before miss.requestor).checkWriteSignature home.address = true
    simp [idle])]
  rw [show XactMgr.checkReadSignature (miss.before miss.requestor) miss.place.address =
    .ok isReader from queried, ok_bind, nackers_eq collected]
  rfl

end

end

end

section

variable {arrival : List (ResponseMsg n)} {memory : DataBlock n}
  (all : arrival.Perm (miss.others.toList.map miss.answer))

include all

/-- The writer among the nackers is named as the exclusive owner. -/
theorem rebuilt_of_writer {core : MachineID} (nacker : core ∈ nackersIn arrival)
    (writes : (miss.before core).checkWriteSignature home.address = true) :
    miss.Rebuilt (nackersIn arrival) ⟨some ⟨.mmt, {core}, core, memory, false⟩, none⟩ := by
  obtain ⟨-, member, -⟩ := mem_others (nacker_asked all nacker)
  have only (other) (writer : miss.Writes (nackersIn arrival) other) : other = core := by
    obtain ⟨member', writes', -⟩ := writer
    rw [after_checkWriteSignature member'] at writes'
    exact miss.oneWriter _ member' _ member writes' writes
  refine ⟨fun other writer => ?_, fun nobody => absurd ?_ (nobody core), ?_⟩
  · obtain rfl := only other writer
    exact ⟨_, rfl, rfl, rfl⟩
  · exact ⟨member, by rw [after_checkWriteSignature member, writes], .inr (.inl nacker)⟩
  · intro other writer load memory' type source apart
    obtain rfl := only other writer
    exact ⟨_, _, L2Cache.serve_load_mmt type (L2Cache.mem_l1Caches.mp source).1 apart, rfl⟩

/-- Without a writer the readers are named as sharers. -/
theorem rebuilt_of_readers (logTm : home.params.lazyVm = false)
    (allowed : home.params.allowReadSetL1CacheEvictions = true)
    (idle : (miss.before miss.requestor).checkWriteSignature home.address = false)
    (readers : ∀ core ∈ nackersIn arrival,
      (miss.before core).checkWriteSignature home.address = false)
    {isReader : Bool}
    (queried : (miss.before miss.requestor).checkReadSignature home.address = .ok isReader) :
    miss.Rebuilt (nackersIn arrival)
      ⟨some ⟨.ss, if isReader then insert miss.requestor (nackersIn arrival) else nackersIn arrival,
        createInvalidMachineID, memory, false⟩, none⟩ := by
  have nobody (core) : ¬ miss.Writes (nackersIn arrival) core := by
    rintro ⟨member, writes, kept⟩
    rw [after_checkWriteSignature member] at writes
    by_cases own : core = miss.requestor
    · rw [own, idle] at writes
      exact absurd writes (by decide)
    · have asked : core ∈ miss.others := Finset.mem_erase.mpr ⟨own, member⟩
      have silent : core ∉ nackersIn arrival := fun nacker => by
        rw [readers core nacker] at writes
        exact absurd writes (by decide)
      have aborted := (nacked_or_aborted all logTm allowed asked writes).resolve_left silent
      rcases kept with same | nacker | live
      · exact own same
      · exact silent nacker
      · rw [live] at aborted
        exact absurd aborted (by decide)
  refine ⟨fun core writer => absurd writer (nobody core), fun _ => ⟨_, rfl, rfl, ?_, ?_⟩,
    fun core writer => absurd writer (nobody core)⟩
  · cases isReader with
    | true => exact Finset.subset_insert _ _
    | false => exact Finset.Subset.refl _
  · intro reads
    rw [queried] at reads
    obtain rfl := Except.ok.inj reads
    exact Finset.mem_insert_self _ _

end

section

variable {arrival : List (ResponseMsg n)}
  (all : arrival.Perm (miss.others.toList.map miss.answer))

include all

/-- What a requester that has not written the block reports lets the L2 rebuild the sharing code. -/
theorem missNackers_rebuilds (memory : DataBlock n) (logTm : home.params.lazyVm = false)
    (nacked : nacksOf arrival ≠ []) {nacks : NackTbe n}
    (collected : NackTbe.empty.collect home.params (nacksOf arrival) = .ok nacks)
    (idle : (miss.before miss.requestor).checkWriteSignature home.address = false) :
    ∃ nackers isWriter ctx,
      Context.missNackers miss.place (miss.before miss.requestor) nacks = .ok (nackers, isWriter) ∧
      L2Cache.l1UnblockNetworkIn home (.unblockCancel miss.requestor nackers isWriter)
        ⟨L2Cache.filledLine memory, [], false⟩ = .ok ctx ∧
      miss.Rebuilt (nackersIn arrival) ctx.line := by
  have evicts : home.evicts = true := L2Cache.evicts_of_logTm logTm
  obtain ⟨msg, listed⟩ := List.exists_mem_of_ne_nil _ nacked
  have nacker : msg.sender ∈ nackersIn arrival :=
    List.mem_toFinset.mpr (List.mem_map.mpr ⟨msg, listed, rfl⟩)
  by_cases writer : ∃ core ∈ nackersIn arrival,
      (miss.before core).checkWriteSignature home.address = true
  · obtain ⟨core, nacker, writes⟩ := writer
    obtain ⟨-, member, -⟩ := mem_others (nacker_asked all nacker)
    exact ⟨_, _, _, missNackers_writer all collected nacker writes,
      L2Cache.unblock_writer evicts member, rebuilt_of_writer all nacker writes⟩
  · have readers : ∀ core ∈ nackersIn arrival,
        (miss.before core).checkWriteSignature home.address = false := fun core nacker =>
      Bool.eq_false_iff.mpr fun writes => writer ⟨core, nacker, writes⟩
    obtain ⟨isReader, queried, named⟩ := missNackers_readers all collected idle readers
    have some_nacker : (if isReader then insert miss.requestor (nackersIn arrival)
        else nackersIn arrival).Nonempty := by
      refine ⟨msg.sender, ?_⟩
      cases isReader with
      | true => exact Finset.mem_insert_of_mem nacker
      | false => exact nacker
    exact ⟨_, _, _, named, L2Cache.unblock_readers evicts some_nacker,
      rebuilt_of_readers all logTm (nack_cases all listed).2.1 idle readers queried⟩

end

section

variable {early late : List (ResponseMsg n)} {line : Line n} {state : State}
  {response : ResponseMsg n} (all : (early ++ late).Perm (miss.others.toList.map miss.answer))
  (l2Miss : missed response = true)
  (servedBy : L2Cache.ServedBy miss.msg.type miss.others.card response true)

include all l2Miss servedBy

/-- The answers to a miss can be collected in the orders for which there are transitions. -/
theorem settled_miss_iff (waiting : Waiting line miss.msg.type state)
    (nacked : nacksOf (early ++ late) ≠ []) :
    Settled miss.place (miss.before miss.requestor) line (early ++ response :: late) true true ↔
      Collectable state response true early late := by
  have settled : Settled miss.place (miss.before miss.requestor) line (early ++ response :: late)
      (decide (nacksOf (early ++ late) ≠ [])) true ↔ _ :=
    settled_iff_of_servedBy servedBy waiting (answeredBy all)
  rw [decide_eq_true nacked, l2Miss] at settled
  refine settled.trans (and_iff_left ?_)
  refine ⟨nacks_accepted all, fun _ _ => ⟨fun msg listed writes => ?_, fun _ _ => miss.queried⟩⟩
  obtain ⟨asked, -, _, known⟩ := nack_cases all listed
  obtain ⟨apart, member, -⟩ := mem_others asked
  rw [known] at writes
  exact Bool.eq_false_iff.mpr fun own => apart (miss.oneWriter _ member _ miss.member writes own)

/-- The cancellation names the nackers of the miss. -/
theorem cancellation_eq {nacks : NackTbe n} {outs : List (Output n)}
    (collected : NackTbe.empty.collect home.params (nacksOf (early ++ late)) = .ok nacks)
    (settled : SettledBy miss.place (miss.before miss.requestor) line (early ++ response :: late)
      true true outs) :
    ∃ nackers isWriter,
      Context.missNackers miss.place (miss.before miss.requestor) nacks = .ok (nackers, isWriter) ∧
      unblocksOf outs = [.unblockCancel miss.requestor nackers isWriter] := by
  have answered := answeredBy all
  have reported : report miss.place (miss.before miss.requestor) (early ++ response :: late) =
      Context.missNackers miss.place (miss.before miss.requestor) nacks := by
    rw [report_eq (fun msg member => answered.each msg (List.mem_append_left _ member))
      (fun msg member => answered.each msg (List.mem_append_right _ member)) servedBy.not_nack,
      l2Miss]
    exact (congrArg (· >>= _) collected).trans rfl
  obtain ⟨nackers, isWriter, named, cancels⟩ := settled.cancellation
  exact ⟨nackers, isWriter, reported ▸ named, cancels⟩

end

variable {early late : List (ResponseMsg n)} {memory : DataBlock n} {served : L2Cache.Context n}
  {line : Line n} {state : State}

/-- After an L2 miss that is nacked, the sharing code is rebuilt exactly if the answers can be
collected in the order of their arrival and the requester itself has not written the block. -/
theorem rebuilds_iff (miss : MissCheck home n) (logTm : home.params.lazyVm = false)
    (service : L2Cache.serve home .notPresent miss.msg memory = .ok served)
    (waiting : Waiting line miss.msg.type state)
    (all : (early ++ late).Perm (miss.others.toList.map miss.answer))
    (nacked : nacksOf (early ++ late) ≠ []) :
    ∃ response, L2Cache.responsesTo miss.requestor served.sent = [response] ∧
      (miss.Rebuilds line served.line (early ++ response :: late) ↔
        Collectable state response true early late ∧
          (miss.before miss.requestor).checkWriteSignature home.address = false) := by
  have evicts : home.evicts = true := L2Cache.evicts_of_logTm logTm
  obtain ⟨response, rfl, l2Miss, servedBy⟩ :=
    L2Cache.serve_miss miss.demand evicts miss.member service
  refine ⟨response, by simp [L2Cache.missRequests, L2Cache.responsesTo, requestor], ?_⟩
  have settled := settled_miss_iff all l2Miss servedBy waiting nacked
  obtain ⟨nacks, collected⟩ := NackTbe.collect_ok_iff.mpr (nacks_accepted all)
  have senders : nackersIn (early ++ response :: late) = nackersIn (early ++ late) := by
    rw [nackersIn, nacksOf_message servedBy.not_nack, nackersIn]
  unfold Rebuilds
  rw [senders]
  constructor
  · rintro ⟨outs, cancel, ctx, settledBy, only, unblocked, rebuilt⟩
    refine ⟨settled.mp ⟨outs, settledBy⟩, ?_⟩
    by_contra own
    rw [Bool.not_eq_false] at own
    obtain ⟨nackers, isWriter, named, cancels⟩ :=
      cancellation_eq all l2Miss servedBy collected settledBy
    rw [missNackers_self all collected own] at named
    obtain ⟨rfl, rfl⟩ := Prod.mk.inj (Except.ok.inj named)
    obtain rfl := List.singleton_inj.mp (only.symm.trans cancels)
    rw [L2Cache.unblock_readers evicts (Finset.singleton_nonempty _)] at unblocked
    obtain rfl := Except.ok.inj unblocked
    obtain ⟨entry, present, exclusive, -⟩ := rebuilt.writer miss.requestor
      ⟨miss.member, (after_checkWriteSignature miss.member).trans own, .inl rfl⟩
    obtain rfl := Option.some.inj (congrArg L2Cache.Line.entry present)
    cases exclusive
  · rintro ⟨collectable, idle⟩
    obtain ⟨nackers, isWriter, ctx, named, unblocked, rebuilt⟩ :=
      missNackers_rebuilds all memory logTm nacked collected idle
    obtain ⟨outs, settledBy⟩ := settled.mpr collectable
    obtain ⟨nackers', isWriter', named', cancels⟩ :=
      cancellation_eq all l2Miss servedBy collected settledBy
    rw [named] at named'
    obtain ⟨rfl, rfl⟩ := Prod.mk.inj (Except.ok.inj named')
    exact ⟨outs, _, ctx, settledBy, cancels, unblocked, rebuilt⟩

/-! ### Two cores -/

/-- Two cores and the block at 64. -/
def twoCores : L2Cache.Place := ⟨logTMReadSets, 2, 64, 9⟩

/-- A transaction of core 0 stores to the block. -/
def storeMiss : RequestMsg 64 :=
  { addr := 64, remoteId := ⟨.l1Cache, 0⟩, remoteTimestamp := 9, remoteTrans := .trans
    remotePriority := 0, remoteSwPriority := false, type := .getx, data := none }

/-- A transaction of another core that has issued a load from the block. -/
def loaderEvents : List (CoreEvent 64) :=
  [.environment ⟨⟨[]⟩, ∅, 7, false, ∅⟩, .command .start ⟨1, 1, false⟩ (.ok false) fun _ => false,
   .request 2 ⟨64, 8, false, fun _ => 0⟩]

/-- Both cores run a transaction, core 1 nacks the check, and the flags tell who has written the
block. -/
def isMiss (writes writes' : Bool) (left right : TransactionInterfaceManager logTMReadSets 64) :
    Checked Bool := do
  let _ ← left.checkReadSignature 64
  let (nacks, next) ← right.shouldNackStore (L2Cache.checkMsg twoCores storeMiss).toRemoteRequest
  let _ ← next.getOldestTimestamp
  return nacks &&
    (left.checkWriteSignature 64 == writes && right.checkWriteSignature 64 == writes') &&
    [left, right].all fun mgr => mgr.inTransaction && !mgr.isUnrollingLog && !mgr.abort.abortFlag

/-- The store of core 0 misses in the L2 and core 1 nacks it. -/
theorem exists_miss {left right : TransactionInterfaceManager logTMReadSets 64}
    {writes writes' : Bool} (tested : isMiss writes writes' left right = .ok true)
    (apart : writes = false ∨ writes' = false) :
    ∃ miss : MissCheck twoCores 64, miss.msg = storeMiss ∧
      miss.before ⟨.l1Cache, 0⟩ = left ∧ miss.before ⟨.l1Cache, 1⟩ = right ∧
      left.checkWriteSignature 64 = writes ∧
      nacksOf (miss.others.toList.map miss.answer ++ []) ≠ [] := by
  simp only [isMiss, run_eq_ok, Bool.and_eq_true, beq_iff_eq, List.all_cons, List.all_nil,
    Bool.not_eq_true', and_true] at tested
  obtain ⟨isReader, queried, ⟨_, next⟩, judged, timestamp, stamped,
    ⟨rfl, rfl, rfl⟩, ⟨⟨inside, idle⟩, live⟩, ⟨inside', idle'⟩, live'⟩ := tested
  have others : twoCores.l1Caches.erase storeMiss.remoteId = {⟨.l1Cache, 1⟩} := by decide
  have known : ∀ core ∈ twoCores.l1Caches, core = ⟨.l1Cache, 0⟩ ∨ core = ⟨.l1Cache, 1⟩ := by decide
  have frame := TransactionInterfaceManager.ConflictFrame.of_shouldNackStore judged
  have answers : AnswersCheck ⟨⟨.l1Cache, 1⟩, 64⟩ (L2Cache.checkMsg twoCores storeMiss) right next
      (.nack 1 (checkNack ⟨⟨.l1Cache, 1⟩, 64⟩ timestamp (right.checkWriteSignature 64))) := by
    rw [← frame.checkWriteSignature_eq]
    exact answersCheck_nack rfl judged stamped
  refine ⟨{ msg := storeMiss
            before := fun core => if core = ⟨.l1Cache, 0⟩ then left else right
            after := fun core => if core = ⟨.l1Cache, 0⟩ then left else next
            answer := fun _ =>
              .nack 1 (checkNack ⟨⟨.l1Cache, 1⟩, 64⟩ timestamp (right.checkWriteSignature 64))
            member := by decide
            demand := .inr (.inl rfl)
            own := rfl
            answers := ?_
            live := ?_
            oneWriter := ?_
            queried := ⟨isReader, queried⟩ },
    rfl, rfl, rfl, rfl, ?_⟩
  · intro core asked
    rw [others, Finset.mem_singleton] at asked
    obtain rfl := asked
    exact answers
  · intro core member _
    rcases known core member with rfl | rfl
    · exact ⟨⟨inside, idle⟩, live⟩
    · exact ⟨⟨inside', idle'⟩, live'⟩
  · intro core member other member' writes writes'
    rcases known core member with rfl | rfl <;> rcases known other member' with rfl | rfl
    · rfl
    · rcases apart with none | none
      · exact absurd (none.symm.trans writes) (by decide)
      · exact absurd (none.symm.trans writes') (by decide)
    · rcases apart with none | none
      · exact absurd (none.symm.trans writes') (by decide)
      · exact absurd (none.symm.trans writes) (by decide)
    · rfl
  · simp [MissCheck.others, requestor, others, nacksOf]

/-- The line of core 0 while its store waits. -/
def storeLine : Line 64 :=
  .waiting ⟨.im, fun _ => 0, false⟩ ⟨.im, fun _ => 0, false, 0, .empty, false⟩ {} .im 0 .empty

private theorem storeLine_waits : Waiting storeLine storeMiss.type .im :=
  ⟨by decide, _, _, _, rfl, rfl⟩

/-- The message of the L2 to core 0. -/
def storeData : ResponseMsg 64 := .data createInvalidMachineID (-1) (fun _ => 0) false true

private theorem serve_storeMiss : L2Cache.serve twoCores .notPresent storeMiss (fun _ => 0) =
      .ok ⟨L2Cache.filledLine fun _ => 0,
        L2Cache.missRequests twoCores storeMiss ++ [.response {⟨.l1Cache, 0⟩} storeData], true⟩ :=
  rfl

/-- Core 1 has written the block and core 0 has not: the sharing code is rebuilt. -/
theorem rebuilds_iff_remoteWriter : ∃ miss : MissCheck twoCores 64,
      L2Cache.serve twoCores .notPresent miss.msg (fun _ => 0) = .ok ⟨L2Cache.filledLine fun _ => 0,
          L2Cache.missRequests twoCores miss.msg ++ [.response {miss.requestor} storeData], true⟩ ∧
      nacksOf (miss.others.toList.map miss.answer) ≠ [] ∧
      miss.Rebuilds storeLine (L2Cache.filledLine fun _ => 0)
        (miss.others.toList.map miss.answer ++ [storeData]) := by
  obtain ⟨left, -, right, -, tested⟩ := Core.exists_reachable_pair
    (P := fun left right => isMiss false true left.mgr right.mgr = .ok true)
    loaderEvents (Core.writerEvents 64 false) 0 1 (by decide +kernel)
  obtain ⟨miss, msg, first, -, idle, nacked⟩ := exists_miss tested (.inl rfl)
  have own : miss.requestor = ⟨.l1Cache, 0⟩ := congrArg (fun msg => msg.remoteId) msg
  have service := serve_storeMiss
  have waiting := storeLine_waits
  rw [← msg, ← own] at service
  rw [← msg] at waiting
  have all : (miss.others.toList.map miss.answer ++ []).Perm
      (miss.others.toList.map miss.answer) := by simp
  obtain ⟨response, sent, rebuilds⟩ := rebuilds_iff miss rfl service waiting all nacked
  obtain rfl : storeData = response := by
    simpa [L2Cache.missRequests, L2Cache.responsesTo] using sent
  refine ⟨miss, service, by simpa using nacked, rebuilds.mpr ⟨trivial, ?_⟩⟩
  rw [own, first]
  exact idle

/-- Core 0 has written the block, whose copies have been evicted, and asks for it again while core 1
waits for a load from it: the L2 takes the writer for a reader and gives the block to core 1
unchecked. -/
theorem localWriter_reported_as_reader :
    ∃ (left right : Core logTMReadSets 64) (miss : MissCheck twoCores 64) (outs : List (Output 64)),
      (Core.system logTMReadSets 64).Reachable left ∧
      (Core.system logTMReadSets 64).Reachable right ∧
      miss.before ⟨.l1Cache, 0⟩ = left.mgr ∧ miss.before ⟨.l1Cache, 1⟩ = right.mgr ∧
      left.mgr.checkWriteSignature 64 = true ∧ miss.msg = storeMiss ∧
      SettledBy miss.place left.mgr storeLine
        (miss.others.toList.map miss.answer ++ [storeData]) true true outs ∧
      unblocksOf outs = [.unblockCancel ⟨.l1Cache, 0⟩ {⟨.l1Cache, 0⟩} false] ∧
      L2Cache.l1UnblockNetworkIn twoCores (.unblockCancel ⟨.l1Cache, 0⟩ {⟨.l1Cache, 0⟩} false)
          ⟨L2Cache.filledLine (n := 64) fun _ => 0, [], false⟩ =
        .ok ⟨⟨some ⟨.ss, {⟨.l1Cache, 0⟩}, createInvalidMachineID, fun _ => 0, false⟩, none⟩, [],
          true⟩ ∧
      ∃ after, L2Cache.serve twoCores
          ⟨some ⟨.ss, {⟨.l1Cache, 0⟩}, createInvalidMachineID, fun _ => 0, false⟩, none⟩
          { storeMiss with remoteId := ⟨.l1Cache, 1⟩, type := .gets } (fun _ => 0) = .ok after ∧
        after.sent = [.response {⟨.l1Cache, 1⟩} (.data l2Bank 0 (fun _ => 0) false false)] := by
  obtain ⟨left, reachable, right, reachable', tested⟩ := Core.exists_reachable_pair
    (P := fun left right => isMiss true false left.mgr right.mgr = .ok true)
    (Core.writerEvents 64 false) loaderEvents 0 1 (by decide +kernel)
  obtain ⟨miss, msg, first, second, writes, nacked⟩ := exists_miss tested (.inr rfl)
  have own : miss.requestor = ⟨.l1Cache, 0⟩ := congrArg (fun msg => msg.remoteId) msg
  have evicts : twoCores.evicts = true := rfl
  have service := serve_storeMiss
  have waiting := storeLine_waits
  rw [← msg] at service waiting
  obtain ⟨response, same, l2Miss, servedBy⟩ :=
    L2Cache.serve_miss miss.demand evicts miss.member service
  obtain ⟨-, rfl⟩ : _ ∧ storeData = response := by
    simpa using congrArg L2Cache.Context.sent same
  have all : (miss.others.toList.map miss.answer ++ []).Perm
      (miss.others.toList.map miss.answer) := by simp
  obtain ⟨nacks, collected⟩ := NackTbe.collect_ok_iff.mpr (nacks_accepted all)
  obtain ⟨outs, settledBy⟩ := (settled_miss_iff all l2Miss servedBy waiting nacked).mpr trivial
  obtain ⟨nackers, isWriter, named, cancels⟩ :=
    cancellation_eq all l2Miss servedBy collected settledBy
  have isWriter : (miss.before miss.requestor).checkWriteSignature twoCores.address = true := by
    rw [own, first]
    exact writes
  rw [missNackers_self all collected isWriter] at named
  obtain ⟨rfl, rfl⟩ := Prod.mk.inj (Except.ok.inj named)
  rw [own] at cancels settledBy
  rw [first] at settledBy
  exact ⟨left, right, miss, outs, reachable, reachable', first, second, writes, msg, settledBy,
    cancels, L2Cache.unblock_readers evicts (Finset.singleton_nonempty _), _, rfl, rfl⟩

end MissCheck

end Gem5.Ruby
