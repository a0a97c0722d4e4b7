import Gem5.Mem.Ruby.Htm.Configurations
import Gem5.Mem.Ruby.Protocol.L1Cache

/-!
# The nack that the L1 cache makes of all nacks

`setNack` folds the nacks of one request into the TBE as they arrive and
`n_nack_to_l0` sends the result to the L0.  What the result should be does not
depend on the order of arrival: the least priority, data only if every nack has
data, the power bit of any nacker, and the eldest nacker in the order of
`isRemoteOlder`, which compares timestamps and breaks ties by the processor.  The
fold compares timestamps alone, so of several nackers with the least timestamp it
names the one whose nack came first.
-/

namespace Gem5.Ruby

open Foundation

variable {n : Nat}

/-- A nack as it arrives at the L1 cache. -/
structure NackMsg (n : Nat) extends Nack n where
  nackerIsWriter : Bool

/-- The fields of the TBE that nacks set: those of the nack that is passed on, and the sets
`Nackers` and `NackersWriters` of LogTM. -/
structure NackTbe (n : Nat) where
  nack : Option (Nack n)
  nackers : Finset MachineID
  nackersWriters : Finset MachineID

/-- The TBE before the first nack. -/
def NackTbe.empty : NackTbe n := ⟨none, ∅, ∅⟩

/-- `setNack` with the assertion on nacks with data and the sets of nackers. -/
def NackTbe.setNack (params : HTMParams) (tbe : NackTbe n) (msg : NackMsg n) :
    Checked (NackTbe n) := do
  assertThat (tbe.nack.isNone = true → msg.data.isSome = true → params.allowEarlyValueFwd = true)
    "xact_mgr.config_allowEarlyValueFwd()"
  let nack ← Ruby.setNack tbe.nack msg.toNack
  assertThat (msg.nackerIsWriter = true → tbe.nackersWriters = ∅) "tbe.NackersWriters.count() == 0"
  return { nack := nack
           nackers := insert msg.sender tbe.nackers
           nackersWriters :=
             if msg.nackerIsWriter then insert msg.sender tbe.nackersWriters
             else tbe.nackersWriters }

/-- The nacks of a request arrive one after the other. -/
def NackTbe.collect (params : HTMParams) (tbe : NackTbe n) (msgs : List (NackMsg n)) :
    Checked (NackTbe n) :=
  msgs.foldlM (NackTbe.setNack params) tbe

/-- `n_nack_to_l0`. -/
def nNackToL0 (params : HTMParams) (tbe : NackTbe n) : Checked (Nack n) :=
  match tbe.nack with
  | none => .error (.assertion "machineIDIsValid(tbe.eldestNacker)")
  | some nack => do
    assertThat (nack.data.isSome = true → params.allowEarlyValueFwd = true)
      "xact_mgr.config_allowEarlyValueFwd()"
    return nack

/-- The nack of a request whose nacks arrive in the given order. -/
def aggregateNacks (params : HTMParams) (arrival : List (NackMsg n)) : Checked (Nack n) := do
  let tbe ← NackTbe.empty.collect params arrival
  nNackToL0 params tbe

/-! ## What the fold computes -/

/-- The nack made of the nacks `msgs`, of which `first` arrived first. -/
abbrev Gathered (first : NackMsg n) (msgs : List (NackMsg n)) (nack : Nack n) : Prop :=
  Collected NackMsg.toNack first msgs nack

/-- Two nacks that the assertions allow together. -/
def Compatible (msg other : NackMsg n) : Prop :=
  ¬ (msg.swPriority = true ∧ other.swPriority = true) ∧
    ¬ (msg.nackerIsWriter = true ∧ other.nackerIsWriter = true)

/-- A further nack passes the assertions after the nacks `msgs`, of which `first` arrived first. -/
structure Fits (first : NackMsg n) (msgs : List (NackMsg n)) (msg : NackMsg n) : Prop where
  sender : msg.sender.type = .l1Cache
  trans : first.trans = .trans → msg.trans = .trans
  compatible : ∀ sent ∈ msgs, Compatible sent msg

/-- The nacks of a request pass all assertions in the order of their arrival. -/
structure Accepted (params : HTMParams) (msgs : List (NackMsg n)) : Prop where
  senders : ∀ msg ∈ msgs, msg.sender.type = .l1Cache
  trans : ∀ first ∈ msgs.head?, first.trans = .trans → ∀ msg ∈ msgs, msg.trans = .trans
  compatible : msgs.Pairwise Compatible
  forwards : ∀ first ∈ msgs.head?, first.data.isSome = true → params.allowEarlyValueFwd = true

/-- The TBE after the nacks `msgs`, of which `first` arrived first. -/
structure NackTbe.Holds (tbe : NackTbe n) (first : NackMsg n) (msgs : List (NackMsg n)) : Prop where
  gathered : ∃ nack, tbe.nack = some nack ∧ Gathered first msgs nack
  writers : tbe.nackersWriters = ∅ ↔ ∀ msg ∈ msgs, msg.nackerIsWriter = false
  single : tbe.nackersWriters.card ≤ 1

variable {params : HTMParams} {tbe next : NackTbe n} {first msg : NackMsg n} {nack : Nack n}
  {msgs rest : List (NackMsg n)}

/-- The TBE after one more nack. -/
private def NackTbe.after (tbe : NackTbe n) (nack : Nack n) (msg : NackMsg n) : NackTbe n where
  nack := some (nack.merged msg.toNack)
  nackers := insert msg.sender tbe.nackers
  nackersWriters :=
    if msg.nackerIsWriter then insert msg.sender tbe.nackersWriters else tbe.nackersWriters

private theorem NackTbe.setNack_eq_ok (isNack : tbe.nack = some nack) :
    tbe.setNack params msg = .ok next ↔ (msg.sender.type = .l1Cache ∧
        (msg.swPriority = true → nack.swPriority = false) ∧
        (nack.trans = .trans → msg.trans = .trans)) ∧
      (msg.nackerIsWriter = true → tbe.nackersWriters = ∅) ∧ tbe.after nack msg = next := by
  have bits : (msg.trans ≠ nack.trans → nack.trans = .trans → msg.trans ≠ .nonTrans) ↔
      (nack.trans = .trans → msg.trans = .trans) := by
    cases msg.trans <;> cases nack.trans <;> decide
  simp only [NackTbe.setNack, isNack, Option.isNone_some, Ruby.setNack, run_eq_ok, true_and, bits,
    Bool.false_eq_true, false_implies]
  constructor
  · rintro ⟨_, ⟨sender, power, trans, rfl⟩, alone, same⟩
    exact ⟨⟨sender, power, trans⟩, alone, same⟩
  · rintro ⟨⟨sender, power, trans⟩, alone, same⟩
    exact ⟨_, ⟨sender, power, trans, rfl⟩, alone, same⟩

namespace NackTbe.Holds

variable (holds : tbe.Holds first msgs)

include holds

/-- A further nack is accepted exactly when it fits. -/
theorem setNack_iff : (∃ next, tbe.setNack params msg = .ok next) ↔ Fits first msgs msg := by
  obtain ⟨nack, isNack, gathered⟩ := holds.gathered
  have power := gathered.power
  simp only [NackTbe.setNack_eq_ok isNack, exists_and_left, exists_eq', and_true, gathered.trans,
    holds.writers]
  constructor
  · rintro ⟨⟨sender, alone, trans⟩, writer⟩
    exact ⟨sender, trans, fun sent listed => ⟨by grind, by grind⟩⟩
  · rintro ⟨sender, trans, compatible⟩
    have power : ∀ sent ∈ msgs, ¬ (sent.swPriority = true ∧ msg.swPriority = true) :=
      fun sent listed => (compatible sent listed).1
    have writer : ∀ sent ∈ msgs, ¬ (sent.nackerIsWriter = true ∧ msg.nackerIsWriter = true) :=
      fun sent listed => (compatible sent listed).2
    exact ⟨⟨sender, by grind, trans⟩, by grind⟩

/-- A nack that is accepted is folded in. -/
theorem setNack (set : tbe.setNack params msg = .ok next) : next.Holds first (msgs ++ [msg]) := by
  obtain ⟨nack, isNack, gathered⟩ := holds.gathered
  obtain ⟨-, alone, rfl⟩ := (NackTbe.setNack_eq_ok isNack).mp set
  have before := holds.writers
  cases writes : msg.nackerIsWriter with
  | false =>
    refine ⟨⟨_, rfl, gathered.merged msg⟩, ?_, by simpa [NackTbe.after, writes] using holds.single⟩
    simp only [NackTbe.after, writes, List.mem_append, List.mem_singleton]
    grind
  | true =>
    refine ⟨⟨_, rfl, gathered.merged msg⟩, ?_, ?_⟩ <;> simp [NackTbe.after, writes, alone writes]

/-- All nacks are accepted exactly when they are compatible with each other and with the
transaction bit of the first. -/
theorem collect_iff (before : msgs.Pairwise Compatible) :
    (∃ next, tbe.collect params rest = .ok next) ↔ (msgs ++ rest).Pairwise Compatible ∧
      ∀ msg ∈ rest, msg.sender.type = .l1Cache ∧ (first.trans = .trans → msg.trans = .trans) := by
  induction rest generalizing tbe msgs with
  | nil => simp [NackTbe.collect, before, pure, Except.pure]
  | cons msg rest ih =>
    have accepted := @setNack_iff _ params _ _ msg _ holds
    have append : msgs ++ msg :: rest = (msgs ++ [msg]) ++ rest := by simp
    simp only [NackTbe.collect, List.foldlM_cons, bind_eq_ok]
    constructor
    · rintro ⟨last, middle, set, folded⟩
      obtain ⟨sender, trans, compatible⟩ := accepted.mp ⟨middle, set⟩
      have extended : (msgs ++ [msg]).Pairwise Compatible := by
        rw [List.pairwise_append]
        exact ⟨before, List.pairwise_singleton _ _, by simpa using compatible⟩
      obtain ⟨pairwise, later⟩ := (ih (holds.setNack set) extended).mp ⟨last, folded⟩
      rw [append]
      exact ⟨pairwise, List.forall_mem_cons.mpr ⟨⟨sender, trans⟩, later⟩⟩
    · rintro ⟨pairwise, fits⟩
      obtain ⟨⟨sender, trans⟩, later⟩ := List.forall_mem_cons.mp fits
      rw [append] at pairwise
      have extended := (List.pairwise_append.mp pairwise).1
      have compatible : ∀ sent ∈ msgs, Compatible sent msg := fun sent listed =>
        (List.pairwise_append.mp extended).2.2 sent listed msg (by simp)
      obtain ⟨middle, set⟩ := accepted.mpr ⟨sender, trans, compatible⟩
      obtain ⟨last, folded⟩ := (ih (holds.setNack set) extended).mpr ⟨pairwise, later⟩
      exact ⟨last, middle, set, folded⟩

/-- What the TBE holds after further nacks. -/
theorem collect (collected : tbe.collect params rest = .ok next) :
    next.Holds first (msgs ++ rest) := by
  induction rest generalizing tbe msgs with
  | nil =>
    obtain rfl := pure_eq_ok.mp collected
    simpa using holds
  | cons msg rest ih =>
    simp only [NackTbe.collect, List.foldlM_cons, bind_eq_ok] at collected
    obtain ⟨middle, set, folded⟩ := collected
    simpa using ih (holds.setNack set) folded

end NackTbe.Holds

/-- The TBE after the first nack. -/
private def NackTbe.start (first : NackMsg n) : NackTbe n where
  nack := some first.toNack
  nackers := insert first.sender ∅
  nackersWriters := if first.nackerIsWriter then insert first.sender ∅ else ∅

private theorem NackTbe.start_holds (first : NackMsg n) :
    (NackTbe.start first).Holds first [first] := by
  refine ⟨⟨_, rfl, .first _⟩, ?_, ?_⟩ <;>
    cases writes : first.nackerIsWriter <;> simp [NackTbe.start, writes]

private theorem NackTbe.setNack_empty : NackTbe.empty.setNack params first = .ok next ↔
    (first.data.isSome = true → params.allowEarlyValueFwd = true) ∧
      first.sender.type = .l1Cache ∧ NackTbe.start first = next := by
  simp only [NackTbe.setNack, NackTbe.empty, Ruby.setNack, run_eq_ok, Option.isNone_none,
    forall_const, implies_true, true_and]
  constructor
  · rintro ⟨allowed, _, ⟨sender, rfl⟩, rfl⟩
    exact ⟨allowed, sender, rfl⟩
  · rintro ⟨allowed, sender, rfl⟩
    exact ⟨allowed, _, ⟨sender, rfl⟩, rfl⟩

/-- What the TBE holds after all nacks of a request. -/
theorem NackTbe.holds_of_collect
    (collected : NackTbe.empty.collect params (first :: rest) = .ok tbe) :
    tbe.Holds first (first :: rest) := by
  simp only [NackTbe.collect, List.foldlM_cons, bind_eq_ok, NackTbe.setNack_empty] at collected
  obtain ⟨_, ⟨-, -, rfl⟩, folded⟩ := collected
  exact (NackTbe.start_holds first).collect folded

/-- The TBE has a nack once one has arrived. -/
theorem NackTbe.isSome_of_collect (collected : NackTbe.empty.collect params msgs = .ok tbe) :
    tbe.nack.isSome = true ↔ msgs ≠ [] := by
  cases msgs with
  | nil =>
    obtain rfl := pure_eq_ok.mp collected
    simp [NackTbe.empty]
  | cons first rest =>
    obtain ⟨nack, isNack, -⟩ := (NackTbe.holds_of_collect collected).gathered
    simp [isNack]

/-- When an order of arrival passes the assertions of `setNack`. -/
theorem NackTbe.collect_ok_iff :
    (∃ tbe, NackTbe.empty.collect params msgs = .ok tbe) ↔ Accepted params msgs := by
  cases msgs with
  | nil => exact iff_of_true ⟨_, rfl⟩ ⟨by simp, by simp, .nil, by simp⟩
  | cons first rest =>
    have collected := @NackTbe.Holds.collect_iff _ params _ _ _ rest (NackTbe.start_holds first)
      (List.pairwise_singleton _ _)
    simp only [NackTbe.collect, List.foldlM_cons, bind_eq_ok, NackTbe.setNack_empty]
    constructor
    · rintro ⟨tbe, _, ⟨allowed, sender, rfl⟩, folded⟩
      obtain ⟨compatible, fits⟩ := collected.mp ⟨tbe, folded⟩
      refine ⟨List.forall_mem_cons.mpr ⟨sender, fun msg listed => (fits msg listed).1⟩, ?_,
        compatible, by simpa using allowed⟩
      rintro _ ⟨⟩ trans
      exact List.forall_mem_cons.mpr ⟨trans, fun msg listed => (fits msg listed).2 trans⟩
    · intro accepted
      have others := List.forall_mem_cons.mp accepted.senders
      obtain ⟨tbe, folded⟩ := collected.mpr ⟨accepted.compatible, fun msg listed =>
        ⟨others.2 msg listed, fun trans =>
          accepted.trans first rfl trans msg (List.mem_cons_of_mem _ listed)⟩⟩
      exact ⟨tbe, _, ⟨accepted.forwards first rfl, others.1, rfl⟩, folded⟩

/-- The nack that goes to the L0 is the one gathered; the data that is passed on came with the first
nack. -/
theorem NackTbe.nNackToL0_of_collect
    (collected : NackTbe.empty.collect params (first :: rest) = .ok tbe) :
    ∃ nack, nNackToL0 params tbe = .ok nack ∧ Gathered first (first :: rest) nack := by
  obtain ⟨nack, isNack, gathered⟩ := (NackTbe.holds_of_collect collected).gathered
  have forwards : nack.data.isSome = true → params.allowEarlyValueFwd = true := fun present =>
    (NackTbe.collect_ok_iff.mp ⟨tbe, collected⟩).forwards first rfl
      (gathered.data (gathered.data_all present) ▸ present)
  refine ⟨nack, ?_, gathered⟩
  simp only [nNackToL0, isNack]
  rw [assertThat_of forwards]
  rfl

/-! ## One request -/

/-- The nacks that answer one request: from the L1 caches of different processors, for one
block. -/
structure AnswersRequest (msgs : List (NackMsg n)) : Prop where
  nonempty : msgs ≠ []
  senders : ∀ msg ∈ msgs, msg.sender.type = .l1Cache
  distinct : (msgs.map fun msg => msg.sender.num).Nodup
  addr : ∀ msg ∈ msgs, ∀ other ∈ msgs, msg.addr = other.addr

/-- The nacker is older in the order of `isRemoteOlder`. -/
def Nack.Older (nack other : Nack n) : Prop :=
  nack.timestamp < other.timestamp ∨
    nack.timestamp = other.timestamp ∧ nack.sender.num < other.sender.num

/-- What one nack should say about all of them. -/
structure Summarises (msgs : List (NackMsg n)) (nack : Nack n) : Prop where
  least : ∀ msg ∈ msgs, nack.priority ≤ msg.priority
  among : ∃ msg ∈ msgs, nack.priority = msg.priority
  data : nack.data.isSome = true ↔ ∀ msg ∈ msgs, msg.data.isSome = true
  power : nack.swPriority = true ↔ ∃ msg ∈ msgs, msg.swPriority = true
  eldest : ∃ msg ∈ msgs, nack.sender = msg.sender ∧ nack.timestamp = msg.timestamp ∧
    ∀ other ∈ msgs, other.sender ≠ msg.sender → msg.toNack.Older other.toNack
  younger : ∀ {params : HTMParams} (receiver : TransactionInterfaceManager params n)
    (timestamp : Cycles), (∀ msg ∈ msgs, receiver.version ≠ msg.sender.num) →
    (receiver.isRemoteOlder timestamp nack.timestamp nack.sender = .ok true ↔
      ∃ msg ∈ msgs, receiver.isRemoteOlder timestamp msg.timestamp msg.sender = .ok true)

/-- The nacks of a request aggregate: every order of arrival gives the same nack, and it summarises
them. -/
def Aggregates (params : HTMParams) (msgs : List (NackMsg n)) : Prop :=
  ∃ nack, Summarises msgs nack ∧
    ∀ arrival, arrival.Perm msgs → aggregateNacks params arrival = .ok nack

/-- Nacks whose order of arrival cannot matter. -/
structure Unambiguous (params : HTMParams) (msgs : List (NackMsg n)) : Prop where
  eldest : ∃ msg ∈ msgs, ∀ other ∈ msgs, other.sender ≠ msg.sender → msg.timestamp < other.timestamp
  compatible : msgs.Pairwise Compatible
  trans : ∀ msg ∈ msgs, ∀ other ∈ msgs, msg.trans = other.trans
  forwards : ∀ msg ∈ msgs, msg.data.isSome = true → params.allowEarlyValueFwd = true
  data : (∀ msg ∈ msgs, msg.data.isSome = true) → ∀ msg ∈ msgs, ∀ other ∈ msgs,
    msg.data = other.data

/-- When an order of arrival passes all assertions. -/
theorem aggregateNacks_ok_iff : (∃ nack, aggregateNacks params (first :: rest) = .ok nack) ↔
    Accepted params (first :: rest) := by
  rw [← NackTbe.collect_ok_iff]
  simp only [aggregateNacks, bind_eq_ok]
  constructor
  · rintro ⟨_, tbe, collected, -⟩
    exact ⟨tbe, collected⟩
  · rintro ⟨tbe, collected⟩
    obtain ⟨nack, sent, -⟩ := NackTbe.nNackToL0_of_collect collected
    exact ⟨nack, tbe, collected, sent⟩

private theorem gathered_of_aggregateNacks
    (aggregated : aggregateNacks params (first :: rest) = .ok nack) :
    Gathered first (first :: rest) nack := by
  simp only [aggregateNacks, bind_eq_ok] at aggregated
  obtain ⟨tbe, collected, sent⟩ := aggregated
  obtain ⟨_, sent', gathered⟩ := NackTbe.nNackToL0_of_collect collected
  exact Except.ok.inj (sent.symm.trans sent') ▸ gathered

variable {arrival : List (NackMsg n)}

private theorem AnswersRequest.perm (answers : AnswersRequest msgs) (perm : arrival.Perm msgs) :
    AnswersRequest arrival where
  nonempty := fun empty => answers.nonempty (List.perm_nil.mp (empty ▸ perm.symm))
  senders msg listed := answers.senders msg (perm.subset listed)
  distinct := (perm.map _).nodup_iff.mpr answers.distinct
  addr msg listed other listed' :=
    answers.addr msg (perm.subset listed) other (perm.subset listed')

private theorem Unambiguous.perm (unambiguous : Unambiguous params msgs)
    (perm : arrival.Perm msgs) :
    Unambiguous params arrival where
  eldest := by
    obtain ⟨msg, listed, older⟩ := unambiguous.eldest
    exact ⟨msg, perm.symm.subset listed, fun other listed' => older other (perm.subset listed')⟩
  compatible := (perm.pairwise_iff fun compatible =>
    ⟨fun both => compatible.1 both.symm, fun both => compatible.2 both.symm⟩).mpr
      unambiguous.compatible
  trans msg listed other listed' :=
    unambiguous.trans msg (perm.subset listed) other (perm.subset listed')
  forwards msg listed := unambiguous.forwards msg (perm.subset listed)
  data all msg listed other listed' :=
    unambiguous.data (fun sent member => all sent (perm.symm.subset member))
      msg (perm.subset listed) other (perm.subset listed')

private theorem AnswersRequest.eq_of_sender (answers : AnswersRequest msgs) {msg other : NackMsg n}
    (listed : msg ∈ msgs) (listed' : other ∈ msgs) (same : msg.sender.num = other.sender.num) :
    msg = other :=
  List.inj_on_of_nodup_map answers.distinct listed listed' same

private theorem Unambiguous.aggregateNacks (unambiguous : Unambiguous params msgs)
    (answers : AnswersRequest msgs) : ∃ nack, aggregateNacks params msgs = .ok nack := by
  cases msgs with
  | nil => exact absurd rfl answers.nonempty
  | cons first rest =>
    refine aggregateNacks_ok_iff.mpr ⟨answers.senders, ?_, unambiguous.compatible, ?_⟩
    · rintro _ ⟨⟩ isTrans msg listed
      rw [unambiguous.trans msg listed first (by simp), isTrans]
    · rintro _ ⟨⟩
      exact unambiguous.forwards first (by simp)

/-- The nacker that is named is the one with the least timestamp. -/
private theorem Gathered.eldest_eq (gathered : Gathered first msgs nack)
    (answers : AnswersRequest msgs) {eldest : NackMsg n} (listed : eldest ∈ msgs)
    (older : ∀ other ∈ msgs, other.sender ≠ eldest.sender → eldest.timestamp < other.timestamp) :
    nack.sender = eldest.sender ∧ nack.timestamp = eldest.timestamp := by
  obtain ⟨msg, member, sender, timestamp, -⟩ := gathered.eldest
  obtain rfl : msg = eldest := by
    by_contra different
    have unlike : msg.sender ≠ eldest.sender := fun same =>
      different (answers.eq_of_sender member listed (congrArg MachineID.num same))
    have before := older msg member unlike
    have bound := gathered.oldest eldest listed
    rw [timestamp] at bound
    exact Nat.lt_irrefl _ (Nat.lt_of_lt_of_le before bound)
  exact ⟨sender, timestamp⟩

/-- Unambiguous nacks leave one result, whichever arrived first. -/
private theorem Gathered.unique {other : Nack n} {first' : NackMsg n}
    (unambiguous : Unambiguous params msgs) (answers : AnswersRequest msgs)
    (gathered : Gathered first msgs nack) (gathered' : Gathered first' msgs other)
    (listed : first ∈ msgs) (listed' : first' ∈ msgs) : nack = other := by
  obtain ⟨eldest, member, older⟩ := unambiguous.eldest
  obtain ⟨sender, timestamp⟩ := gathered.eldest_eq answers member older
  obtain ⟨sender', timestamp'⟩ := gathered'.eldest_eq answers member older
  have addr : nack.addr = other.addr := by
    rw [gathered.addr, gathered'.addr, answers.addr first listed first' listed']
  have trans : nack.trans = other.trans := by
    rw [gathered.trans, gathered'.trans, unambiguous.trans first listed first' listed']
  have priority : nack.priority = other.priority := by
    obtain ⟨msg, isMsg, same⟩ := gathered.among
    obtain ⟨msg', isMsg', same'⟩ := gathered'.among
    have bound := gathered.least msg' isMsg'
    have bound' := gathered'.least msg isMsg
    rw [← same'] at bound
    rw [← same] at bound'
    exact Int32.le_antisymm bound bound'
  have power : nack.swPriority = other.swPriority :=
    Bool.eq_iff_iff.mpr (gathered.power.trans gathered'.power.symm)
  have data : nack.data = other.data := by
    by_cases all : ∀ msg ∈ msgs, msg.data.isSome = true
    · rw [gathered.data all, gathered'.data all, unambiguous.data all first listed first' listed']
    · obtain ⟨msg, isMsg, missing⟩ : ∃ msg ∈ msgs, msg.data = none := by
        simpa using all
      rw [gathered.noData msg isMsg missing, gathered'.noData msg isMsg missing]
  cases nack
  cases other
  simp_all

private theorem Gathered.perm (gathered : Gathered first arrival nack) (perm : arrival.Perm msgs) :
    Gathered first msgs nack where
  addr := gathered.addr
  trans := gathered.trans
  least msg listed := gathered.least msg (perm.mem_iff.mpr listed)
  among := by simpa only [perm.mem_iff] using gathered.among
  data all := gathered.data fun msg listed => all msg (perm.mem_iff.mp listed)
  noData msg listed := gathered.noData msg (perm.mem_iff.mpr listed)
  power := by simpa only [perm.mem_iff] using gathered.power
  oldest msg listed := gathered.oldest msg (perm.mem_iff.mpr listed)
  eldest := by simpa only [perm.mem_iff] using gathered.eldest

private theorem isRemoteOlder_eq_true {receiver : TransactionInterfaceManager params n}
    {timestamp remote : Cycles} {sender : MachineID} (other : receiver.version ≠ sender.num) :
    receiver.isRemoteOlder timestamp remote sender = .ok true ↔
      remote < timestamp ∨ remote = timestamp ∧ sender.num < receiver.version := by
  unfold TransactionInterfaceManager.isRemoteOlder
  split
  · next same =>
    rw [assertThat_of other, ok_bind, pure_eq_ok]
    simp [same]
  · next different =>
    rw [pure_eq_ok]
    simp [Ne.symm different]

/-- What is gathered from nacks with a single oldest one summarises them. -/
private theorem Gathered.summarises (gathered : Gathered first msgs nack)
    (unambiguous : Unambiguous params msgs) (answers : AnswersRequest msgs)
    (listed : first ∈ msgs) : Summarises msgs nack := by
  obtain ⟨eldest, member, older⟩ := unambiguous.eldest
  obtain ⟨sender, timestamp⟩ := gathered.eldest_eq answers member older
  refine ⟨gathered.least, gathered.among, ?_, gathered.power, ?_, ?_⟩
  · constructor
    · exact gathered.data_all
    · intro all
      rw [gathered.data all]
      exact all first listed
  · exact ⟨eldest, member, sender, timestamp, fun other isOther unlike =>
      .inl (older other isOther unlike)⟩
  · intro params receiver local' others
    rw [sender, timestamp, isRemoteOlder_eq_true (others eldest member)]
    constructor
    · intro younger
      exact ⟨eldest, member, (isRemoteOlder_eq_true (others eldest member)).mpr younger⟩
    · rintro ⟨msg, isMsg, younger⟩
      rw [isRemoteOlder_eq_true (others msg isMsg)] at younger
      by_cases same : msg.sender = eldest.sender
      · obtain rfl := answers.eq_of_sender isMsg member (congrArg MachineID.num same)
        exact younger
      · have before := older msg isMsg same
        grind

private theorem exists_arrival_first (listed : msg ∈ msgs) : ∃ rest, (msg :: rest).Perm msgs := by
  obtain ⟨before, after, rfl⟩ := List.append_of_mem listed
  exact ⟨before ++ after, List.perm_middle.symm⟩

/-- The nack named by the summary is the only eldest one: a tie would go to the nack that arrives
first. -/
theorem Aggregates.eldest (answers : AnswersRequest msgs) (aggregates : Aggregates params msgs) :
    ∃ msg ∈ msgs, ∀ other ∈ msgs, other.sender ≠ msg.sender → msg.timestamp < other.timestamp := by
  obtain ⟨nack, summary, aggregated⟩ := aggregates
  obtain ⟨eldest, member, sender, -, older⟩ := summary.eldest
  refine ⟨eldest, member, fun other listed unlike => ?_⟩
  refine (older other listed unlike).resolve_right fun tie => ?_
  obtain ⟨rest, perm⟩ := exists_arrival_first listed
  have least : ∀ msg ∈ other :: rest, other.timestamp ≤ msg.timestamp := by
    intro msg isMsg
    by_cases same : msg.sender = eldest.sender
    · obtain rfl := answers.eq_of_sender (perm.subset isMsg) member (congrArg MachineID.num same)
      exact Nat.le_of_eq tie.1.symm
    · have before := older msg (perm.subset isMsg) same
      unfold Nack.Older at before
      grind
  obtain ⟨msg, isMsg, named, -, rfl | before⟩ :=
    (gathered_of_aggregateNacks (aggregated _ perm)).eldest
  · exact unlike (named.symm.trans sender)
  · exact absurd (Nat.lt_of_lt_of_le before (least msg isMsg)) (Nat.lt_irrefl _)

/-- Nacks that aggregate are unambiguous. -/
theorem Aggregates.unambiguous (answers : AnswersRequest msgs)
    (aggregates : Aggregates params msgs) : Unambiguous params msgs := by
  have untied := aggregates.eldest answers
  obtain ⟨nack, -, aggregated⟩ := aggregates
  -- What holds of the nack that arrives first holds of every nack.
  have accepted : ∀ {first rest}, (first :: rest).Perm msgs →
      Gathered first (first :: rest) nack ∧ Accepted params (first :: rest) := fun perm =>
    ⟨gathered_of_aggregateNacks (aggregated _ perm),
      aggregateNacks_ok_iff.mp ⟨nack, aggregated _ perm⟩⟩
  refine ⟨untied, ?_, ?_, ?_, ?_⟩
  · cases msgs with
    | nil => exact List.Pairwise.nil
    | cons first rest => exact (accepted (List.Perm.refl _)).2.compatible
  · intro msg listed other listed'
    obtain ⟨rest, perm⟩ := exists_arrival_first listed
    obtain ⟨rest', perm'⟩ := exists_arrival_first listed'
    rw [← (accepted perm).1.trans, ← (accepted perm').1.trans]
  · intro msg listed
    obtain ⟨rest, perm⟩ := exists_arrival_first listed
    exact (accepted perm).2.forwards msg rfl
  · intro all msg listed other listed'
    obtain ⟨rest, perm⟩ := exists_arrival_first listed
    obtain ⟨rest', perm'⟩ := exists_arrival_first listed'
    rw [← (accepted perm).1.data fun sent member => all sent (perm.subset member),
      ← (accepted perm').1.data fun sent member => all sent (perm'.subset member)]

/-- Unambiguous nacks aggregate. -/
theorem Unambiguous.aggregates (answers : AnswersRequest msgs)
    (unambiguous : Unambiguous params msgs) : Aggregates params msgs := by
  obtain ⟨nack, aggregated⟩ := unambiguous.aggregateNacks answers
  cases msgs with
  | nil => exact absurd rfl answers.nonempty
  | cons first rest =>
    have gathered := gathered_of_aggregateNacks aggregated
    refine ⟨nack, gathered.summarises unambiguous answers (by simp), fun arrival perm => ?_⟩
    obtain ⟨other, aggregated'⟩ := (unambiguous.perm perm).aggregateNacks (answers.perm perm)
    cases arrival with
    | nil => exact absurd rfl (answers.perm perm).nonempty
    | cons first' rest' =>
      have gathered' := gathered_of_aggregateNacks aggregated'
      have same := gathered.unique unambiguous answers (gathered'.perm perm) (by simp)
        (perm.subset (by simp))
      exact same ▸ aggregated'

/-- The nacks of one request aggregate, in every order of arrival to one summary of them all,
exactly when they are unambiguous. -/
theorem aggregates_iff_unambiguous (params : HTMParams) (msgs : List (NackMsg n))
    (answers : AnswersRequest msgs) : Aggregates params msgs ↔ Unambiguous params msgs :=
  ⟨Aggregates.unambiguous answers, Unambiguous.aggregates answers⟩

/-- A nack of a transaction of the given processor, without data. -/
def nackFrom (proc : Nat) (timestamp : Cycles) : NackMsg 1 where
  addr := 0
  sender := ⟨.l1Cache, proc⟩
  timestamp := timestamp
  trans := .trans
  priority := 0
  swPriority := false
  data := none
  nackerIsWriter := false

private theorem answersRequest_pair (timestamp other : Cycles) :
    AnswersRequest [nackFrom 5 timestamp, nackFrom 1 other] where
  nonempty := by simp
  senders := by simp [nackFrom]
  distinct := by simp [nackFrom]
  addr := by simp [nackFrom]

/-- Two nackers with different timestamps aggregate. -/
theorem aggregates_distinct_timestamps : Aggregates cdaBase [nackFrom 5 12, nackFrom 1 10] := by
  refine (aggregates_iff_unambiguous _ _ (answersRequest_pair 12 10)).mpr ?_
  refine ⟨⟨nackFrom 1 10, by simp, ?_⟩, ?_, ?_, ?_, ?_⟩ <;> simp [nackFrom, Compatible]

/-- Two nackers with one timestamp.  Processor 1 is the older one, but the nack that came first is
passed on; a requester on processor 3 with the same timestamp then takes itself for older than the
nacker although it is younger than one of them. -/
theorem aggregateNacks_names_first_arrival : AnswersRequest [nackFrom 5 10, nackFrom 1 10] ∧
    (nackFrom 1 10).toNack.Older (nackFrom 5 10).toNack ∧
    aggregateNacks cdaBase [nackFrom 5 10, nackFrom 1 10] = .ok (nackFrom 5 10).toNack ∧
    aggregateNacks cdaBase [nackFrom 1 10, nackFrom 5 10] = .ok (nackFrom 1 10).toNack ∧
    (TransactionInterfaceManager.init cdaBase 1 3 ∅).isRemoteOlder 10 10 ⟨.l1Cache, 5⟩ = .ok false ∧
    (TransactionInterfaceManager.init cdaBase 1 3 ∅).isRemoteOlder 10 10 ⟨.l1Cache, 1⟩ = .ok true :=
  ⟨answersRequest_pair 10 10, .inr ⟨rfl, by decide⟩, rfl, rfl, rfl, rfl⟩

end Gem5.Ruby
