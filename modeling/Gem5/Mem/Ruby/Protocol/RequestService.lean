import Gem5.Mem.Ruby.Htm.CoreSystem
import Gem5.Mem.Ruby.Protocol.ResponseCollection

/-!
# How the L2 serves a request

A request that finds its line in `SS` or `MMT`, or that misses where all cores have to
be checked, is answered by one message of the L2 and by the L1 caches that it asks.
The count in the message of the L2 is the number of those caches, and the requester
collects their answers.
-/

namespace Gem5.Ruby

open Foundation

namespace L2Cache

open L1Cache (missed)

variable {n : Nat}

/-- A request is served; after a miss the L2 answers when the data has come from memory. -/
def serve (place : Place) (line : Line n) (msg : RequestMsg n) (memory : DataBlock n) :
    Checked (Context n) := do
  let ctx ← l1RequestL2NetworkIn place msg ⟨line, [], false⟩
  if ctx.line.getState = .issB ∨ ctx.line.getState = .imB then
    responseL2NetworkIn place (.memoryData memory) ctx
  else return ctx

/-- The L1 caches to which an invalidation or a check is sent. -/
def asked : List (Output n) → Finset MachineID
  | [] => ∅
  | .request destination _ :: rest => destination ∪ asked rest
  | _ :: rest => asked rest

/-- The responses to one L1 cache. -/
def responsesTo (machine : MachineID) : List (Output n) → List (ResponseMsg n)
  | [] => []
  | .response destination msg :: rest =>
    if machine ∈ destination then msg :: responsesTo machine rest else responsesTo machine rest
  | _ :: rest => responsesTo machine rest

/-- The line is in `SS` or in `MMT`, or misses with the check of all cores. -/
def Home (place : Place) (line : Line n) : Prop :=
  (∃ entry, line = ⟨some entry, none⟩ ∧ (entry.cacheState = .ss ∨ entry.cacheState = .mmt)) ∨
    line = .notPresent ∧ place.evicts = true

/-- The message with which the L2 serves a request when it has asked `k` L1 caches, and whether it
waits for an unblock message. -/
inductive ServedBy (type : CoherenceRequestType) (k : Nat) : ResponseMsg n → Bool → Prop where
  | shared {block} (load : type = .gets) (nobody : k = 0) :
      ServedBy type k (.data l2Bank 0 block false false) false
  | checkedLoad {block} (load : type = .gets) :
      ServedBy type k (.data l2Bank (-k) block false false) true
  | missedLoad {block} (load : type = .gets) :
      ServedBy type k (.dataExclusive (-k) block false true) true
  | owner {block} (demand : type = .gets ∨ type = .getx) (nobody : k = 0) :
      ServedBy type k (.dataExclusive 0 block false false) true
  | store {sender block l2Miss} (demand : type = .getx ∨ type = .upgrade)
      (source : sender.type ≠ .l1Cache) :
      ServedBy type k (.data sender (-k) block false l2Miss) true
  | upgrade (demand : type = .upgrade) : ServedBy type k (.ack l2Bank (-k)) true

variable {response : ResponseMsg n}

private theorem ServedBy.ackCount_eq {type : CoherenceRequestType} {k : Nat} {blocks : Bool}
    (served : ServedBy type k response blocks) : response.ackCount = -(k : Int) := by
  cases served with
  | shared load nobody => simp [ResponseMsg.ackCount, nobody]
  | owner demand nobody => simp [ResponseMsg.ackCount, nobody]
  | _ => rfl

/-- A service is not a nack. -/
theorem ServedBy.not_nack {type : CoherenceRequestType} {k : Nat} {blocks : Bool}
    (served : ServedBy type k response blocks) : L1Cache.nacksOf [response] = [] := by
  cases served <;> rfl

variable {place : Place} {entry : Entry n} {msg : RequestMsg n} {memory : DataBlock n}
  {after : Context n}

private theorem announcedAcks_eq (requestor : MachineID) :
    entry.announcedAcks requestor = -((entry.sharers.erase requestor).card : Int) := by
  unfold Entry.announcedAcks
  split
  · next listed =>
    have positive := Finset.card_pos.mpr ⟨requestor, listed⟩
    rw [Finset.card_erase_of_mem listed]
    omega
  · next missing => rw [Finset.erase_eq_of_notMem missing, zero_sub]

variable {line : Line n}

variable (demand : msg.type = .gets ∨ msg.type = .getx ∨ msg.type = .upgrade)

include demand in
/-- The events of requests that find the line. -/
theorem event_hit {event : Event} (present : line = ⟨some entry, none⟩)
    (chosen : l1CacheRequestTypeToEvent place line msg.type msg.remoteId = .ok event) :
    event = .l1Gets ∧ msg.type = .gets ∨
      event = .l1Getx ∧ (msg.type = .getx ∨ msg.type = .upgrade) ∨
      event = .l1Upgrade ∧ msg.type = .upgrade ∧ msg.remoteId ∈ entry.sharers ∨
      (event = .l1GetsOwner ∧ msg.type = .gets ∨ event = .l1GetxOwner ∧ msg.type = .getx) ∧
        entry.cacheState = .mmt ∧ line.isExclusive msg.remoteId = .ok true := by
  subst present
  rcases demand with type | type | type
  all_goals
    simp only [type, l1CacheRequestTypeToEvent, fromOwner, missNeedsCheck, run_eq_ok,
      Option.any_some, Option.isNone_some, Bool.false_and, Bool.false_eq_true, if_false,
      Line.isSharer] at chosen
  · obtain ⟨owner, ⟨exclusive, found, rfl⟩, rfl⟩ := chosen
    cases exclusive <;> by_cases mmt : entry.cacheState = .mmt <;> simp_all
  · obtain ⟨owner, ⟨exclusive, found, rfl⟩, rfl⟩ := chosen
    cases exclusive <;> by_cases mmt : entry.cacheState = .mmt <;> simp_all
  · by_cases listed : msg.remoteId ∈ entry.sharers <;> simp_all

/-- What is seen of a served request: the message of the L2, whom it has asked, and whether it waits
for an unblock message. -/
def Service (msg : RequestMsg n) (sent : List (Output n)) (state : State) : Prop :=
  ∃ response, responsesTo msg.remoteId sent = [response] ∧ msg.remoteId ∉ asked sent ∧
    ServedBy msg.type (asked sent).card response (decide (state ≠ .ss))

variable {state : State}

/-- A request is served without asking anyone. -/
theorem service_alone (by_ : ServedBy msg.type 0 response (decide (state ≠ .ss))) :
    Service msg [.response {msg.remoteId} response] state :=
  ⟨response, by simp [responsesTo], by simp [asked], by simpa [asked] using by_⟩

variable {sent : List (Output n)}

/-- A request is served after asking some L1 caches; the order of the messages does not matter. -/
theorem service_asking {others : Finset MachineID} {request : RequestMsg n}
    (order : sent = [.response {msg.remoteId} response, .request others request] ∨
      sent = [.request others request, .response {msg.remoteId} response] ∨
      sent = [.fetch, .request others request, .response {msg.remoteId} response])
    (apart : msg.remoteId ∉ others)
    (by_ : ServedBy msg.type others.card response (decide (state ≠ .ss))) :
    Service msg sent state := by
  rcases order with rfl | rfl | rfl
  all_goals
    exact ⟨response, by simp [responsesTo], by simpa [asked] using apart,
      by simpa [asked] using by_⟩

variable {popped : Bool}

/-- The messages and the state that a transition leaves that does not wait for memory. -/
theorem serve_hit (current : line.getState = state)
    (served : serve place line msg memory = .ok after) :
    ∃ event ctx, l1CacheRequestTypeToEvent place line msg.type msg.remoteId = .ok event ∧
      (controller place (.request msg)).trigger event ⟨line, [], false⟩ = .ok ctx ∧
      ∀ {rule next sent popped}, Rule.find transitions state event = some rule →
        rule.actions.foldlM (fun ctx action => perform place (.request msg) action ctx)
          (⟨line, [], false⟩ : Context n) = .ok ⟨next, sent, popped⟩ →
        let left := next.setState (rule.next.getD state)
        left.getState ≠ .issB → left.getState ≠ .imB → after = ⟨left, sent, popped⟩ := by
  simp only [serve, l1RequestL2NetworkIn, run_eq_ok] at served
  obtain ⟨ctx, ⟨-, event, chosen, ran⟩, served⟩ := served
  refine ⟨event, ctx, chosen, ran, fun found performed load store => ?_⟩
  have known : (controller place (.request msg)).getState (⟨line, [], false⟩ : Context n) = state :=
    current
  rw [Controller.trigger_of_find known found] at ran
  simp only [controller, performed, ok_bind, pure_eq_ok] at ran
  subst ran
  rw [if_neg (not_or_intro load store), pure_eq_ok] at served
  exact served.symm

include demand in
/-- What the L2 sends from `SS`. -/
theorem serve_ss (state : entry.cacheState = .ss)
    (served : serve place ⟨some entry, none⟩ msg memory = .ok after) :
    Service msg after.sent after.line.getState := by
  obtain ⟨event, ctx, chosen, ran, leaves⟩ :=
    serve_hit (show (⟨some entry, none⟩ : Line n).getState = .ss from state) served
  rcases event_hit demand rfl chosen with ⟨rfl, load⟩ | ⟨rfl, store⟩ | ⟨rfl, upgrade, listed⟩ |
    ⟨-, mmt, -⟩
  · obtain rfl := leaves rfl rfl (by rintro ⟨⟩) (by rintro ⟨⟩)
    exact service_alone (.shared load rfl)
  · obtain rfl := leaves rfl rfl (by rintro ⟨⟩) (by rintro ⟨⟩)
    refine service_asking (.inl rfl) (Finset.notMem_erase _ _) ?_
    rw [announcedAcks_eq]
    exact .store store (by decide)
  · obtain rfl := leaves rfl rfl (by rintro ⟨⟩) (by rintro ⟨⟩)
    refine service_asking (.inr (.inl rfl)) (Finset.notMem_erase _ _) ?_
    have count : 0 - (entry.sharers.card : Int) + 1 =
        -((entry.sharers.erase msg.remoteId).card : Int) := by
      rw [← announcedAcks_eq, Entry.announcedAcks, if_pos listed]
    rw [count]
    exact .upgrade upgrade
  · simp [state] at mmt

include demand in
/-- What the L2 sends from `MMT`. -/
theorem serve_mmt (state : entry.cacheState = .mmt)
    (served : serve place ⟨some entry, none⟩ msg memory = .ok after) :
    Service msg after.sent after.line.getState := by
  obtain ⟨event, ctx, chosen, ran, leaves⟩ :=
    serve_hit (show (⟨some entry, none⟩ : Line n).getState = .mmt from state) served
  rcases event_hit demand rfl chosen with ⟨rfl, load⟩ | ⟨rfl, store⟩ | ⟨rfl, upgrade, listed⟩ |
    ⟨owned, -, owner⟩
  · obtain rfl := leaves rfl rfl (by rintro ⟨⟩) (by rintro ⟨⟩)
    refine service_asking (.inl rfl) (Finset.notMem_erase _ _) ?_
    rw [announcedAcks_eq]
    exact .checkedLoad load
  · obtain rfl := leaves rfl rfl (by rintro ⟨⟩) (by rintro ⟨⟩)
    refine service_asking (.inl rfl) (Finset.notMem_erase _ _) ?_
    rw [announcedAcks_eq]
    exact .store store (by decide)
  · have missing : (controller place (.request msg)).defines
        ((controller place (.request msg)).getState (⟨⟨some entry, none⟩, [], false⟩ : Context n))
        .l1Upgrade = false := by
      rw [show (controller place (.request msg)).getState
        (⟨⟨some entry, none⟩, [], false⟩ : Context n) = .mmt from state]
      rfl
    rw [Controller.trigger_of_undefined missing] at ran
    exact absurd ran panicWith_ne_ok
  · have alone : entry.announcedAcks msg.remoteId = 0 := by
      simp only [Line.isExclusive] at owner
      split at owner
      · next shares =>
        simp only [run_eq_ok] at owner
        simp [Entry.announcedAcks, shares.2, owner.1]
      · simp at owner
    have performed : [Action.sendExclusiveDataToOwner, .popL1RequestQueue].foldlM
        (fun ctx action => perform place (.request msg) action ctx)
        (⟨⟨some entry, none⟩, [], false⟩ : Context n) =
        .ok ⟨⟨some entry, none⟩,
          [.response {msg.remoteId} (.dataExclusive 0 entry.block false false)], true⟩ := by
      simp only [List.foldlM_cons, List.foldlM_nil, perform, Input.peekRequest, pure_bind, owner,
        ok_bind, Context.sendData, Line.getEntry, alone]
      rfl
    rcases owned with ⟨rfl, load⟩ | ⟨rfl, store⟩
    · obtain rfl := leaves rfl performed (by rintro ⟨⟩) (by rintro ⟨⟩)
      exact service_alone (.owner (.inl load) rfl)
    · obtain rfl := leaves rfl performed (by rintro ⟨⟩) (by rintro ⟨⟩)
      exact service_alone (.owner (.inr store) rfl)

private theorem card_l1Caches : place.l1Caches.card = place.l1Count := by
  unfold Place.l1Caches
  rw [Finset.card_image_of_injective, Finset.card_range]
  intro first second same
  exact (MachineID.mk.inj same).2

/-- A line that is fetched from memory while all cores are checked. -/
def missLine (state : State) (loaders : Finset MachineID) (storer : MachineID) : Line n :=
  ⟨some ⟨state, ∅, createInvalidMachineID, fun _ => 0, false⟩,
    some ⟨state, fun _ => 0, false, loaders, ∅, storer, 0⟩⟩

/-- The check that a miss sends to all other cores. -/
def checkMsg (place : Place) (msg : RequestMsg n) : RequestMsg n :=
  fwdMsg place .checkReadWriteSet { msg.toRemoteRequest with remoteTimestamp := place.curCycle }

/-- The messages of a miss before memory answers. -/
def missRequests (place : Place) (msg : RequestMsg n) : List (Output n) :=
  [.fetch, .request (place.l1Caches.erase msg.remoteId) (checkMsg place msg)]

section

variable (evicts : place.evicts = true)

include evicts

/-- A miss fetches the line and checks all other cores. -/
theorem trigger_miss :
    (controller place (.request msg)).trigger .l1GetsHtmCheck ⟨.notPresent, [], false⟩ =
      .ok ⟨missLine .issB {msg.remoteId} createInvalidMachineID, missRequests place msg, true⟩ ∧
    (controller place (.request msg)).trigger .l1GetxHtmCheck ⟨.notPresent, [], false⟩ =
      .ok ⟨missLine .imB ∅ msg.remoteId, missRequests place msg, true⟩ := by
  constructor
  all_goals
    rw [Controller.trigger_of_find (rfl : _ = State.np) rfl]
    simp only [controller, perform, List.foldlM_cons, List.foldlM_nil, Context.assertEvicts,
      assertThat_of evicts]
    rfl

/-- The line after the data of a miss has come from memory. -/
def filledLine (memory : DataBlock n) : Line n :=
  ⟨some ⟨.issMB, ∅, createInvalidMachineID, memory, false⟩, none⟩

/-- The data of a miss goes to the requester. -/
theorem memory_miss {requester : MachineID} :
    responseL2NetworkIn place (.memoryData memory)
        ⟨missLine .issB {requester} createInvalidMachineID, sent, popped⟩ =
      .ok ⟨filledLine memory, sent ++ [.response {requester}
          (.dataExclusive (0 - (place.l1Count - 1)) memory false true)], true⟩ ∧
    responseL2NetworkIn place (.memoryData memory) ⟨missLine .imB ∅ requester, sent, popped⟩ =
      .ok ⟨filledLine memory, sent ++ [.response {requester}
          (.data createInvalidMachineID (0 - (place.l1Count - 1)) memory false true)], true⟩ := by
  constructor
  all_goals
    simp only [responseL2NetworkIn, responseEvent, pure_bind]
    rw [Controller.trigger_of_find rfl rfl]
    simp only [controller, perform, List.foldlM_cons, List.foldlM_nil, Context.sendMissData,
      Context.assertEvicts, assertThat_of evicts]
    rfl

include demand in
/-- What the L2 does after a miss. -/
theorem serve_miss (member : msg.remoteId ∈ place.l1Caches)
    (served : serve place .notPresent msg memory = .ok after) :
    ∃ response, after = ⟨filledLine memory,
        missRequests place msg ++ [.response {msg.remoteId} response], true⟩ ∧
      missed response = true ∧
      ServedBy msg.type (place.l1Caches.erase msg.remoteId).card response true := by
  have count : (0 : Int) - (place.l1Count - 1) =
      -((place.l1Caches.erase msg.remoteId).card : Int) := by
    have positive := Finset.card_pos.mpr ⟨_, member⟩
    rw [Finset.card_erase_of_mem member, card_l1Caches]
    rw [card_l1Caches] at positive
    omega
  simp only [serve, l1RequestL2NetworkIn, run_eq_ok] at served
  obtain ⟨ctx, ⟨-, event, chosen, ran⟩, served⟩ := served
  have checked : event = .l1GetsHtmCheck ∧ msg.type = .gets ∨
      event = .l1GetxHtmCheck ∧ (msg.type = .getx ∨ msg.type = .upgrade) := by
    rcases demand with type | type | type
    all_goals
      simp [type, l1CacheRequestTypeToEvent, fromOwner, missNeedsCheck, evicts, Line.isSharer,
        Line.isExclusive, Line.notPresent] at chosen
      simp [type, ← chosen]
  rcases checked with ⟨rfl, load⟩ | ⟨rfl, store⟩
  · rw [(trigger_miss evicts).1] at ran
    obtain rfl := Except.ok.inj ran
    rw [if_pos (.inl rfl), (memory_miss evicts).1, count] at served
    exact ⟨_, (Except.ok.inj served).symm, rfl, .missedLoad load⟩
  · rw [(trigger_miss evicts).2] at ran
    obtain rfl := Except.ok.inj ran
    rw [if_pos (.inr rfl), (memory_miss evicts).2, count] at served
    exact ⟨_, (Except.ok.inj served).symm, rfl, .store store (by decide)⟩

end

include demand in
/-- A request that is served from `SS`, from `MMT` or after a miss. -/
theorem serve_service (home : Home place line) (member : msg.remoteId ∈ place.l1Caches)
    (served : serve place line msg memory = .ok after) :
    Service msg after.sent after.line.getState := by
  rcases home with ⟨entry, rfl, state | state⟩ | ⟨rfl, evicts⟩
  · exact serve_ss demand state served
  · exact serve_mmt demand state served
  · obtain ⟨response, rfl, -, byMiss⟩ := serve_miss demand evicts member served
    exact service_asking (.inr (.inr rfl)) (Finset.notMem_erase _ _) byMiss

end L2Cache

namespace L1Cache

variable {σ : Type} [XactMgr σ] {n : Nat}

/-- The state in which a requester waits: a load may have seen an invalidation, and an upgrade may
have lost its copy. -/
def awaits : CoherenceRequestType → List State
  | .gets => [.is, .isI]
  | .getx => [.im]
  | .upgrade => [.sm, .im]
  | _ => []

/-- The L1 waits for the answers to its request. -/
structure Waiting (line : Line n) (type : CoherenceRequestType) (state : State) : Prop where
  listed : state ∈ awaits type
  line : ∃ entry tbe flags, line = .waiting entry tbe flags state 0 .empty ∧ tbe.l2Miss = false

/-- The L1 caches answer once each. -/
structure AnsweredBy (caches : Finset MachineID) (answers : List (ResponseMsg n)) : Prop where
  each : ∀ msg ∈ answers, IsAnswer msg
  once : (answers.map answerer).Nodup
  all : (answers.map answerer).toFinset = caches

private theorem AnsweredBy.length_eq {caches : Finset MachineID} {answers : List (ResponseMsg n)}
    (answered : AnsweredBy caches answers) : answers.length = caches.card := by
  rw [← answered.all, List.toFinset_card_of_nodup answered.once, List.length_map]

/-- When the messages of a request can be collected in the order of their arrival: the answers in
`early` before the message of the L2, those in `late` after it. -/
def Collectable (state : State) (response : ResponseMsg n) (blocks : Bool)
    (early late : List (ResponseMsg n)) : Prop :=
  match response, state with
  | .data _ _ _ _ _, .im => True
  | .data _ _ _ _ _, .sm => False
  | .data _ _ _ _ _, state =>
    (late = [] ∨ early = [] ∧ state = .is) ∧ (early ++ late = [] → blocks = false)
  | .dataExclusive _ _ _ _, state => late.length ≤ 1 ∧ (state = .isI → early = [] → late = [])
  | _, _ => True

private theorem collectable_load {state : State} {sender : MachineID} {count : Int}
    {block : DataBlock n} {dirty l2Miss blocks : Bool} {early late : List (ResponseMsg n)}
    (listed : state ∈ [State.is, .isI]) :
    Collectable state (.data sender count block dirty l2Miss) blocks early late ↔
      (late = [] ∨ early = [] ∧ state = .is) ∧ (early ++ late = [] → blocks = false) := by
  fin_cases listed <;> rfl

/-- The answers that belong to one message of the L2 are collected exactly if they arrive in an
order for which the states of the requester have transitions, and the nacks among them pass the
assertions. -/
theorem settled_iff_of_servedBy {place : Place} {mgr : σ} {type : CoherenceRequestType}
    {caches : Finset MachineID} {response : ResponseMsg n} {blocks : Bool} {line : Line n}
    {state : State} {early late : List (ResponseMsg n)}
    (served : L2Cache.ServedBy type caches.card response blocks) (waiting : Waiting line type state)
    (answered : AnsweredBy caches (early ++ late)) :
    Settled place mgr line (early ++ response :: late) (decide (nacksOf (early ++ late) ≠ []))
        blocks ↔
      Collectable state response blocks early late ∧
        Reportable place mgr (missed response) (early ++ late) := by
  obtain ⟨entry, tbe, flags, rfl, clean⟩ := waiting.line
  have listed := waiting.listed
  have earlyAnswers (msg) (member : msg ∈ early) : IsAnswer msg :=
    answered.each msg (List.mem_append_left _ member)
  have lateAnswers (msg) (member : msg ∈ late) : IsAnswer msg :=
    answered.each msg (List.mem_append_right _ member)
  have count : -(caches.card : Int) = -(early.length + late.length) := by
    rw [← answered.length_eq, List.length_append]
    omega
  have alone (nobody : caches.card = 0) : early = [] ∧ late = [] := by
    rw [← answered.length_eq] at nobody
    simpa using nobody
  cases served with
  | shared load nobody =>
    obtain ⟨rfl, rfl⟩ := alone nobody
    rw [load] at listed
    refine (settled_load_data earlyAnswers lateAnswers clean (by decide) listed).trans
      (and_congr_left' ?_)
    exact (collectable_load listed).symm
  | checkedLoad load =>
    rw [load] at listed
    rw [count]
    refine (settled_load_data earlyAnswers lateAnswers clean (by decide) listed).trans
      (and_congr_left' ?_)
    exact (collectable_load listed).symm
  | missedLoad load =>
    rw [load] at listed
    rw [count]
    exact settled_load_exclusive earlyAnswers lateAnswers clean listed
  | owner demand nobody =>
    obtain ⟨rfl, rfl⟩ := alone nobody
    have known : state ∈ [State.is, .isI, .im] := by
      rcases demand with rfl | rfl
      all_goals
        revert listed
        cases state <;> decide
    exact iff_of_true (settled_exclusive_only known) ⟨by simp [Collectable], reportable_nil⟩
  | store demand source =>
    rw [count]
    have known : state = .im ∨ state = .sm := by
      rcases demand with rfl | rfl
      all_goals
        revert listed
        cases state <;> decide
    rcases known with rfl | rfl
    · exact (settled_store_data earlyAnswers lateAnswers clean source).trans
        (iff_of_eq (true_and _)).symm
    · exact iff_of_false (not_settled_upgrade_data earlyAnswers source) (fun both => both.1)
  | upgrade demand =>
    rw [demand] at listed
    rw [count]
    exact (settled_upgrade_ack earlyAnswers lateAnswers clean listed).trans
      (iff_of_eq (true_and _)).symm

/-- The requester collects the answers to a request exactly if they arrive in an order for which its
states have transitions, and the nacks among them pass the assertions. -/
theorem settled_iff_collectable (place : Place) (mgr : σ) {home : L2Cache.Place}
    {directory : L2Cache.Line n} {msg : RequestMsg n} {memory : DataBlock n}
    {after : L2Cache.Context n} (source : L2Cache.Home home directory)
    (member : msg.remoteId ∈ home.l1Caches)
    (demand : msg.type = .gets ∨ msg.type = .getx ∨ msg.type = .upgrade)
    (served : L2Cache.serve home directory msg memory = .ok after) :
    ∃ response, L2Cache.responsesTo msg.remoteId after.sent = [response] ∧
      msg.remoteId ∉ L2Cache.asked after.sent ∧
      response.ackCount = -((L2Cache.asked after.sent).card : Int) ∧
      ∀ {line : Line n} {state : State} {early late : List (ResponseMsg n)},
        Waiting line msg.type state → AnsweredBy (L2Cache.asked after.sent) (early ++ late) →
        (Settled place mgr line (early ++ response :: late)
            (decide (nacksOf (early ++ late) ≠ [])) (decide (after.line.getState ≠ .ss)) ↔
          Collectable state response (decide (after.line.getState ≠ .ss)) early late ∧
            Reportable place mgr (missed response) (early ++ late)) := by
  obtain ⟨response, sent, apart, served⟩ := L2Cache.serve_service demand source member served
  refine ⟨response, sent, apart, served.ackCount_eq, fun waiting answered => ?_⟩
  exact settled_iff_of_servedBy served waiting answered

/-! ## A load that misses in the L2 -/

/-- LogTM on three cores. -/
def threeCoreBank : L2Cache.Place := ⟨Core.logTM, 3, 0, 0⟩

/-- The L1 of the first core. -/
def firstL1 : Place := ⟨⟨.l1Cache, 0⟩, 0⟩

/-- A load of the first core outside of transactions. -/
def plainLoad : RequestMsg 1 :=
  { addr := 0, remoteId := ⟨.l1Cache, 0⟩, remoteTimestamp := 0, remoteTrans := .nonTrans
    remotePriority := 0, remoteSwPriority := false, type := .gets, data := none }

/-- The manager of a core that has run no transaction. -/
def idleMgr : TransactionInterfaceManager Core.logTM 1 := .init Core.logTM 1 0 Core.pageLog

/-- The line while the load waits. -/
def loadLine : Line 1 :=
  .waiting ⟨.is, fun _ => 0, false⟩ ⟨.is, fun _ => 0, false, 0, .empty, false⟩ {} .is 0 .empty

private theorem plainLoad_waits :
    messageBufferFromL0In firstL1 (.gets plainLoad.toRemoteRequest) ⟨idleMgr, .invalid, [], false⟩ =
      .ok ⟨idleMgr, loadLine, [.request plainLoad], true⟩ := rfl

private theorem serve_plainLoad : L2Cache.serve threeCoreBank .notPresent plainLoad (fun _ => 0) =
      .ok ⟨L2Cache.filledLine fun _ => 0, L2Cache.missRequests threeCoreBank plainLoad ++
          [.response {⟨.l1Cache, 0⟩} (.dataExclusive (-2) (fun _ => 0) false true)], true⟩ := rfl

/-- One L1 cache acknowledges the load, the other nacks it, and the data of the miss comes last. -/
theorem settled_iff_collectable_dataLast :
    ∃ after response, L2Cache.serve threeCoreBank .notPresent plainLoad (fun _ => 0) = .ok after ∧
      response.ackCount = -((L2Cache.asked after.sent).card : Int) ∧
      Settled firstL1 idleMgr loadLine [.ack ⟨.l1Cache, 1⟩ 1, .nack 1 (nackFrom 2 3), response]
        true true := by
  obtain ⟨response, sent, -, count, settled⟩ := settled_iff_collectable firstL1 idleMgr
    (.inr ⟨rfl, rfl⟩) (by decide) (.inl rfl) serve_plainLoad
  refine ⟨_, response, serve_plainLoad, count, ?_⟩
  have waiting : Waiting loadLine plainLoad.type .is := ⟨by decide, _, _, _, rfl, rfl⟩
  have answered : AnsweredBy (n := 1) {⟨.l1Cache, 1⟩, ⟨.l1Cache, 2⟩}
      ([.ack ⟨.l1Cache, 1⟩ 1, .nack 1 (nackFrom 2 3)] ++ []) := by
    refine ⟨?_, by decide, by decide⟩
    rintro msg (_ | ⟨_, _ | ⟨_, ⟨⟩⟩⟩)
    · exact .ack _
    · exact .nack _
  obtain rfl : _ = response := List.singleton_inj.mp sent
  exact (settled waiting answered).mpr ⟨⟨by decide, by decide⟩,
    NackTbe.collect_ok_iff.mp ⟨_, rfl⟩, fun _ _ => ⟨by decide, fun _ _ => ⟨false, rfl⟩⟩⟩

/-- The exclusive data of a miss arrives before the answers of two other L1 caches: the first of the
answers meets no transition. -/
theorem exclusiveData_before_acks_invalid :
    ∃ after counted, L2Cache.serve threeCoreBank .notPresent plainLoad (fun _ => 0) = .ok after ∧
      L2Cache.asked after.sent = {⟨.l1Cache, 1⟩, ⟨.l1Cache, 2⟩} ∧
      L2Cache.responsesTo ⟨.l1Cache, 0⟩ after.sent = [.dataExclusive (-2) (fun _ => 0) false true] ∧
      messageBufferFromL0In firstL1 (.gets plainLoad.toRemoteRequest)
          ⟨idleMgr, .invalid, [], false⟩ =
        .ok ⟨idleMgr, loadLine, [.request plainLoad], true⟩ ∧
      responseNetworkIn firstL1 (.dataExclusive (-2) (fun _ => 0) false true)
          ⟨idleMgr, loadLine, [], false⟩ = .ok counted ∧
      ∀ sender, responseNetworkIn firstL1 (.ack sender 1) counted =
        panicWith "Invalid transition" :=
  ⟨_, _, serve_plainLoad, by decide, rfl, plainLoad_waits, rfl, fun _ => rfl⟩

end L1Cache

end Gem5.Ruby
