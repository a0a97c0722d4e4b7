import Gem5.Mem.Cache.ReplacementPolicies.TreePlru
import Gem5.Mem.Ruby.Htm.CoreSystem

/-!
# The victim of a full cache set

`CacheMemory::cacheProbe` collects the ways of a full set that may be replaced: first
without the blocks of the running transaction and, if that leaves none, with them.  LogTM
never gives up a block that is still being logged.  The replacement data of the ways is
not modelled: a policy is any function from the candidates to the place of the victim among
them, which need not be inside the list.
-/

namespace Gem5.Ruby.Structures

open Foundation

/-- `AccessPermission`. -/
inductive AccessPermission where
  | readOnly
  | readWrite
  | maybeStale
  | backingStore
  | backingStoreBusy
  | invalid
  | notPresent
  | busy
  deriving DecidableEq, Repr

/-- `AbstractCacheEntry`; `way` is what `setPosition` stored. -/
structure AbstractCacheEntry where
  address : Addr
  permission : AccessPermission
  way : Nat
  htmLogPending : Bool

/-- What the constructor of `CacheMemory` takes from its parameters. -/
structure CacheParams where
  blockSize : Nat
  startIndexBit : Nat
  numSetBits : Nat
  assoc : Nat
  htmAwareReplacements : Bool
  htmAllowedReadSetEvictions : Bool

/-- `addressToCacheSet`; the second assertion is the one of `bitSelect`. -/
def CacheParams.addressToCacheSet (params : CacheParams) (address : Addr) : Checked Nat := do
  assertThat (address = makeLineAddress params.blockSize address)
    "address == makeLineAddress(address)"
  assertThat (params.startIndexBit + params.numSetBits ≥ params.startIndexBit + 1) "big >= small"
  return address / 2 ^ params.startIndexBit % 2 ^ params.numSetBits

/-- A replacement policy: the place at which its `getVictim` reads the vector of candidates. -/
abbrev ReplacementPolicy := List AbstractCacheEntry → Checked Nat

namespace ReplacementPolicy

/-- `ReplacementPolicy::Base::getVictim`; the vector is not checked for its end. -/
def getVictim (policy : ReplacementPolicy) (candidates : List AbstractCacheEntry) :
    Checked AbstractCacheEntry := do
  match candidates[← policy candidates]? with
  | some victim => return victim
  | none => .error (.undefined "candidates[]")

/-- The policy stays inside the list. -/
def Picks (policy : ReplacementPolicy) : Prop :=
  ∀ candidates, candidates ≠ [] → ∃ place < candidates.length, policy candidates = .ok place

end ReplacementPolicy

/-- The ways of `CacheMemory`: an entry knows its position. -/
structure CacheMemory where
  cache : Nat → Nat → Option AbstractCacheEntry
  positioned : ∀ {set way entry}, cache set way = some entry → entry.way = way

namespace CacheMemory

variable {xact : HTMParams} {n : Nat} (params : CacheParams)
  (mgr : TransactionInterfaceManager xact n) (memory : CacheMemory)

/-- `cacheAvail`. -/
def cacheAvail (address : Addr) : Checked Bool := do
  let cacheSet ← params.addressToCacheSet address
  return (List.range params.assoc).any fun way => match memory.cache cacheSet way with
    | some entry => entry.address = address || entry.permission = .notPresent
    | none => true

/-- LogTM waits until the block is logged. -/
def logPending (xact : HTMParams) (entry : AbstractCacheEntry) : Bool :=
  !xact.lazyVm && entry.htmLogPending

/-- Whether the loop of `cacheProbe` takes the block of a way; `aware` tells that its local
`xact_mgr` is not null. -/
def isCandidate (aware : Bool) (entry : AbstractCacheEntry) : Checked Bool :=
  if logPending xact entry then return false
  else if params.htmAwareReplacements && aware then
    if mgr.checkWriteSignature entry.address then return false
    else if params.htmAllowedReadSetEvictions then return true
    else return !(← mgr.checkReadSignature entry.address)
  else return true

/-- The candidates of one round, from a list of ways. -/
def candidates (aware : Bool) (cacheSet : Nat) (ways : List Nat) :
    Checked (List AbstractCacheEntry) :=
  ways.filterMapM fun way => match memory.cache cacheSet way with
    | none => panicWith "m_cache[cacheSet][i] is null"
    | some entry => do return if ← isCandidate params mgr aware entry then some entry else none

/-- The loop of `cacheProbe`, for at most so many rounds. -/
def probeRounds (cacheSet : Nat) : Nat → Bool → Checked (Option (List AbstractCacheEntry))
  | 0, _ => return none
  | rounds + 1, aware => do
    let candidates ← memory.candidates params mgr aware cacheSet (List.range params.assoc)
    if candidates.isEmpty then probeRounds cacheSet rounds false else return some candidates

/-- `cacheProbe` with a transaction manager, for at most so many rounds. -/
def cacheProbe (policy : ReplacementPolicy) (rounds : Nat) (address : Addr) :
    Checked (Option Addr) := do
  assertThat ((← memory.cacheAvail params address) = false) "!cacheAvail(address)"
  let cacheSet ← params.addressToCacheSet address
  match ← memory.probeRounds params mgr cacheSet rounds true with
  | none => return none
  | some candidates =>
    match memory.cache cacheSet (← ReplacementPolicy.getVictim policy candidates).way with
    | none => panicWith "m_cache[cacheSet][way] is null"
    | some entry => return some entry.address

variable {params mgr memory} {cacheSet : Nat}

/-- What a round collects if the ways hold entries and the queries pass their assertions. -/
theorem candidates_eq {aware : Bool} {test : AbstractCacheEntry → Bool} {ways : List Nat}
    (held : ∀ way ∈ ways, ∃ entry, memory.cache cacheSet way = some entry ∧
      isCandidate params mgr aware entry = .ok (test entry)) :
    memory.candidates params mgr aware cacheSet ways =
      .ok ((ways.filterMap (memory.cache cacheSet)).filter test) := by
  induction ways with
  | nil => rfl
  | cons way ways ih =>
    obtain ⟨entry, found, tested⟩ := held way List.mem_cons_self
    have rest := ih fun way later => held way (List.mem_cons_of_mem _ later)
    unfold candidates at rest ⊢
    rw [List.filterMapM_cons, rest, List.filterMap_cons, found]
    cases passes : test entry <;> simp [tested, passes]

/-- The block is in the read set or the write set. -/
def Transactional (mgr : TransactionInterfaceManager xact n) (entry : AbstractCacheEntry) : Prop :=
  mgr.checkWriteSignature entry.address = true ∨
    mgr.checkReadSignature entry.address = .ok true

/-- A way of the set that may be given up. -/
def Loose (params : CacheParams) (xact : HTMParams) (memory : CacheMemory) (cacheSet : Nat)
    (entry : AbstractCacheEntry) : Prop :=
  (∃ way < params.assoc, memory.cache cacheSet way = some entry) ∧ logPending xact entry = false

/-- The configuration keeps the block as long as there is another one. -/
def Guarded (params : CacheParams) (mgr : TransactionInterfaceManager xact n)
    (entry : AbstractCacheEntry) : Prop :=
  params.htmAwareReplacements = true ∧ (mgr.checkWriteSignature entry.address = true ∨
    (params.htmAllowedReadSetEvictions = false ∧ mgr.checkReadSignature entry.address = .ok true))

/-- After some rounds there is a victim, which is not pending and is in the read or the write set
only if all ways that are not pending are. -/
def Conservative (params : CacheParams) (mgr : TransactionInterfaceManager xact n)
    (memory : CacheMemory) (cacheSet : Nat) (address : Addr) (policy : ReplacementPolicy) : Prop :=
  ∃ bound, ∀ rounds ≥ bound, ∃ victim, Loose params xact memory cacheSet victim ∧
    memory.cacheProbe params mgr policy rounds address = .ok (some victim.address) ∧
    (Transactional mgr victim → ∀ entry, Loose params xact memory cacheSet entry →
      Transactional mgr entry)

/-- The policy that takes a given way if it can. -/
def preferring (way : Nat) : ReplacementPolicy := fun candidates =>
  .ok ((candidates.findIdx? (·.way = way)).getD 0)

private theorem preferring_picks {way : Nat} : (preferring way).Picks := by
  intro candidates some_
  refine ⟨_, ?_, rfl⟩
  cases found : candidates.findIdx? (·.way = way) with
  | none => exact List.length_pos_iff.mpr some_
  | some place => exact (List.findIdx?_eq_some_iff_getElem.mp found).1

private theorem preferring_chooses {candidates : List AbstractCacheEntry}
    {entry : AbstractCacheEntry}
    (listed : entry ∈ candidates) : ∃ victim,
      candidates[(candidates.findIdx? (·.way = entry.way)).getD 0]? = some victim ∧
        victim.way = entry.way := by
  cases found : candidates.findIdx? (·.way = entry.way) with
  | none => simpa using List.findIdx?_eq_none_iff.mp found entry listed
  | some place =>
    obtain ⟨inside, isWay, -⟩ := List.findIdx?_eq_some_iff_getElem.mp found
    exact ⟨_, List.getElem?_eq_getElem inside, by simpa using isWay⟩

section Probe

variable {address : Addr} {reads : Addr → Bool}

/-- What the test of a round comes to. -/
def passes (params : CacheParams) (mgr : TransactionInterfaceManager xact n) (reads : Addr → Bool)
    (aware : Bool) (entry : AbstractCacheEntry) : Bool :=
  !logPending xact entry && !(aware && params.htmAwareReplacements &&
    (mgr.checkWriteSignature entry.address ||
      (!params.htmAllowedReadSetEvictions && reads entry.address)))

/-- The candidates of a round. -/
def round (params : CacheParams) (mgr : TransactionInterfaceManager xact n) (memory : CacheMemory)
    (cacheSet : Nat) (reads : Addr → Bool) (aware : Bool) : List AbstractCacheEntry :=
  ((List.range params.assoc).filterMap (memory.cache cacheSet)).filter
    (passes params mgr reads aware)

private theorem mem_round {aware : Bool} {entry : AbstractCacheEntry} :
    entry ∈ round params mgr memory cacheSet reads aware ↔
      (∃ way < params.assoc, memory.cache cacheSet way = some entry) ∧
        passes params mgr reads aware entry = true := by
  simp [round]

/-- The second round takes every way that is not pending. -/
theorem mem_round_false {entry : AbstractCacheEntry} :
    entry ∈ round params mgr memory cacheSet reads false ↔
      Loose params xact memory cacheSet entry := by
  simp [mem_round, Loose, passes]

variable (queried : ∀ addr, mgr.checkReadSignature addr = .ok (reads addr))
include queried

/-- The first round leaves out what the configuration guards. -/
theorem mem_round_true {entry : AbstractCacheEntry} :
    entry ∈ round params mgr memory cacheSet reads true ↔
      Loose params xact memory cacheSet entry ∧ ¬ Guarded params mgr entry := by
  simp only [mem_round, Loose, passes, Guarded, queried, Except.ok.injEq]
  cases logPending xact entry <;> cases params.htmAwareReplacements <;>
    cases mgr.checkWriteSignature entry.address <;> cases params.htmAllowedReadSetEvictions <;>
    cases reads entry.address <;> simp

variable (full : memory.cacheAvail params address = .ok false)
  (indexed : params.addressToCacheSet address = .ok cacheSet)
include full indexed

private theorem candidates_round (aware : Bool) :
    memory.candidates params mgr aware cacheSet (List.range params.assoc) =
      .ok (round params mgr memory cacheSet reads aware) := by
  simp only [cacheAvail, indexed, ok_bind, pure_eq_ok, List.any_eq_false, List.mem_range] at full
  refine candidates_eq fun way inside => ?_
  have taken := full way (List.mem_range.mp inside)
  cases found : memory.cache cacheSet way with
  | none => simp [found] at taken
  | some entry =>
    refine ⟨entry, rfl, ?_⟩
    simp only [isCandidate, queried, ok_bind, passes]
    cases logPending xact entry <;> cases params.htmAwareReplacements <;> cases aware <;>
      cases mgr.checkWriteSignature entry.address <;> cases params.htmAllowedReadSetEvictions <;>
        rfl

/-- The loop ends with the first round that has a candidate. -/
theorem probeRounds_eq {rounds : Nat} {aware : Bool}
    (some_ : round params mgr memory cacheSet reads aware ≠ []) :
    memory.probeRounds params mgr cacheSet (rounds + 1) aware =
      .ok (some (round params mgr memory cacheSet reads aware)) := by
  simp [probeRounds, candidates_round queried full indexed, some_]

/-- Without a loose way there is no end. -/
theorem probeRounds_endless (none_ : ¬ ∃ entry, Loose params xact memory cacheSet entry)
    (rounds : Nat) (aware : Bool) :
    memory.probeRounds params mgr cacheSet rounds aware = .ok none := by
  have empty (aware : Bool) : round params mgr memory cacheSet reads aware = [] := by
    refine List.eq_nil_iff_forall_not_mem.mpr fun entry listed => none_ ⟨entry, ?_⟩
    cases aware with
    | true => exact ((mem_round_true queried).mp listed).1
    | false => exact mem_round_false.mp listed
  induction rounds generalizing aware with
  | zero => rfl
  | succ rounds ih => simp [probeRounds, candidates_round queried full indexed, empty, ih]

/-- The round whose candidates the policy gets. -/
theorem exists_round (some_ : ∃ entry, Loose params xact memory cacheSet entry) :
    ∃ aware, round params mgr memory cacheSet reads aware ≠ [] ∧
      (aware = false → ∀ entry, Loose params xact memory cacheSet entry →
        Guarded params mgr entry) ∧
      ∀ rounds, memory.probeRounds params mgr cacheSet (rounds + 2) true =
        .ok (some (round params mgr memory cacheSet reads aware)) := by
  by_cases empty : round params mgr memory cacheSet reads true = []
  · obtain ⟨entry, loose⟩ := some_
    have second : round params mgr memory cacheSet reads false ≠ [] :=
      List.ne_nil_of_mem (mem_round_false.mpr loose)
    refine ⟨false, second, fun _ entry loose => ?_, fun rounds => ?_⟩
    · by_contra free
      have listed := (mem_round_true queried).mpr ⟨loose, free⟩
      rw [empty] at listed
      cases listed
    · rw [probeRounds, candidates_round queried full indexed, ok_bind, empty]
      exact probeRounds_eq queried full indexed second
  · exact ⟨true, empty, by simp, fun rounds => probeRounds_eq queried full indexed empty⟩

omit queried in
/-- The probe returns the address of the candidate at the place the policy computes. -/
theorem cacheProbe_eq {policy : ReplacementPolicy} {rounds place : Nat} {aware : Bool}
    {victim : AbstractCacheEntry}
    (ran : memory.probeRounds params mgr cacheSet rounds true =
      .ok (some (round params mgr memory cacheSet reads aware)))
    (placed : policy (round params mgr memory cacheSet reads aware) = .ok place)
    (chosen : (round params mgr memory cacheSet reads aware)[place]? = some victim) :
    memory.cacheProbe params mgr policy rounds address = .ok (some victim.address) := by
  obtain ⟨way, -, found⟩ := (mem_round.mp (List.mem_of_getElem? chosen)).1
  simp only [cacheProbe, full, ok_bind, indexed, ran, ReplacementPolicy.getVictim, placed, chosen]
  simp [memory.positioned found, found, assertThat]

/-- A policy that finds a victim finds one that is not pending. -/
theorem exists_loose {policy : ReplacementPolicy}
    (conservative : memory.Conservative params mgr cacheSet address policy) :
    ∃ entry, Loose params xact memory cacheSet entry := by
  by_contra none_
  obtain ⟨bound, found⟩ := conservative
  obtain ⟨victim, -, probed, -⟩ := found bound le_rfl
  simp [cacheProbe, full, indexed, assertThat,
    probeRounds_endless queried full indexed none_] at probed

/-- The policy that prefers the way of an unguarded block gives the block up. -/
theorem cacheProbe_preferring {entry : AbstractCacheEntry} {rounds : Nat}
    (loose : Loose params xact memory cacheSet entry) (free : ¬ Guarded params mgr entry) :
    memory.cacheProbe params mgr (preferring entry.way) (rounds + 1) address =
      .ok (some entry.address) := by
  have listed := (mem_round_true queried).mpr ⟨loose, free⟩
  obtain ⟨victim, chosen, isWay⟩ := preferring_chooses listed
  have ran := @probeRounds_eq _ _ _ _ _ _ _ _ queried full indexed rounds true
    (List.ne_nil_of_mem listed)
  rw [cacheProbe_eq full indexed ran rfl chosen]
  obtain ⟨⟨way, -, here⟩, -⟩ := loose
  obtain ⟨⟨way', -, here'⟩, -⟩ := mem_round.mp (List.mem_of_getElem? chosen)
  rw [← memory.positioned here', isWay, memory.positioned here, here] at here'
  rw [Option.some.inj here']

/-- Where unguarded transactional blocks stand beside no others, every victim is as it should be. -/
theorem conservative_of_guarded {policy : ReplacementPolicy}
    (some_ : ∃ entry, Loose params xact memory cacheSet entry)
    (guarded : ∀ entry other, Loose params xact memory cacheSet entry →
      Loose params xact memory cacheSet other → Transactional mgr entry →
      ¬ Transactional mgr other → Guarded params mgr entry) (picks : policy.Picks) :
    memory.Conservative params mgr cacheSet address policy := by
  obtain ⟨aware, nonempty, all, ran⟩ := exists_round queried full indexed some_
  obtain ⟨place, inside, placed⟩ := picks _ nonempty
  obtain ⟨victim, chosen⟩ : ∃ victim,
      (round params mgr memory cacheSet reads aware)[place]? = some victim :=
    ⟨_, List.getElem?_eq_getElem inside⟩
  have listed := List.mem_of_getElem? chosen
  refine ⟨2, fun rounds two => ⟨victim, ?_, ?_, fun isMarked other loose => ?_⟩⟩
  · cases aware with
    | true => exact ((mem_round_true queried).mp listed).1
    | false => exact mem_round_false.mp listed
  · obtain ⟨rounds, rfl⟩ := Nat.exists_eq_add_of_le' two
    exact cacheProbe_eq full indexed (ran rounds) placed chosen
  · by_contra unmarked
    cases aware with
    | true =>
      obtain ⟨loose', free⟩ := (mem_round_true queried).mp listed
      exact free (guarded _ _ loose' loose isMarked unmarked)
    | false => exact unmarked ((all rfl other loose).2.imp_right And.right)

end Probe

/-- Every policy that stays inside the list of candidates finds a victim in a full set as it should,
exactly if some way is not pending and no way with a transactional block that the configuration
does not guard stands beside one without: with HTM-aware replacements and without evictions from
the read set all transactional blocks are guarded. -/
theorem cacheProbe_conservative_iff {address : Addr}
    (queried : ∀ addr, ∃ answer, mgr.checkReadSignature addr = .ok answer)
    (full : memory.cacheAvail params address = .ok false)
    (indexed : params.addressToCacheSet address = .ok cacheSet) :
    (∀ policy : ReplacementPolicy, policy.Picks →
      memory.Conservative params mgr cacheSet address policy) ↔
    (∃ entry, Loose params xact memory cacheSet entry) ∧
      ∀ entry other, Loose params xact memory cacheSet entry →
        Loose params xact memory cacheSet other → Transactional mgr entry →
        ¬ Transactional mgr other → Guarded params mgr entry := by
  choose reads queried using queried
  constructor
  · intro conservative
    have some_ := exists_loose queried full indexed
      (conservative _ fun _ some_ => ⟨0, List.length_pos_iff.mpr some_, rfl⟩)
    refine ⟨some_, fun entry other loose loose' isMarked unmarked => ?_⟩
    by_contra free
    -- a policy that prefers the way of the unguarded block gives it up
    obtain ⟨bound, found⟩ := conservative (preferring entry.way) preferring_picks
    obtain ⟨victim, -, probed, only⟩ := found (bound + 1) (Nat.le_succ bound)
    rw [cacheProbe_preferring queried full indexed loose free] at probed
    have same : entry.address = victim.address := Option.some.inj (Except.ok.inj probed)
    refine unmarked (only ?_ other loose')
    rwa [Transactional, ← same]
  · rintro ⟨some_, guarded⟩ policy picks
    exact conservative_of_guarded queried full indexed some_ guarded picks

/-- The manager of a LogTM system outside of transactions. -/
def logTmManager : TransactionInterfaceManager Core.logTM 64 :=
  (Core.start Core.logTM 64 0 Core.pageLog).mgr

/-- The same with the block at 128 in the write set. -/
def logTmWriter : TransactionInterfaceManager Core.logTM 64 :=
  { logTmManager with
    isolation := { logTmManager.isolation with
      writeSet := logTmManager.isolation.writeSet.insert 128 } }

/-- Two sets of so many ways, with blocks of 64 bytes and HTM-aware replacements. -/
def awareParams (assoc : Nat) : CacheParams := ⟨64, 6, 1, assoc, true, false⟩

/-- A cache whose first set holds the blocks at these addresses, some of them pending. -/
def ofWays (blocks : List (Addr × Bool)) : CacheMemory where
  cache set way := if set = 0 then
      blocks[way]?.map fun block => ⟨block.1, .readWrite, way, block.2⟩ else none
  positioned found := by
    split at found
    · obtain ⟨block, -, rfl⟩ := Option.map_eq_some_iff.mp found
      rfl
    · simp at found

/-- Of a pending block, one in the write set and a third one, every policy takes the third. -/
theorem cacheProbe_conservative_iff_threeWays :
    (ofWays [(0, true), (128, false), (256, false)]).cacheAvail (awareParams 3) 512 = .ok false ∧
    ∀ policy : ReplacementPolicy, policy.Picks →
      (ofWays [(0, true), (128, false), (256, false)]).Conservative (awareParams 3) logTmWriter 0
        512 policy := by
  have queried (addr : Addr) : logTmWriter.checkReadSignature addr = .ok false := by
    simp [logTmWriter, logTmManager, TransactionInterfaceManager.checkReadSignature,
      TransactionIsolationManager.isInReadSetPerfectFilter, Core.start,
      TransactionInterfaceManager.init, TransactionIsolationManager.init]
  refine ⟨rfl, (cacheProbe_conservative_iff (fun addr => ⟨_, queried addr⟩) rfl rfl).mpr
    ⟨⟨_, ⟨2, by decide, rfl⟩, rfl⟩, fun entry _ _ _ isMarked _ => ⟨rfl, ?_⟩⟩⟩
  exact isMarked.imp_right fun read => ⟨rfl, read⟩

/-- If the only block of a full set is being logged, the loop never ends.  And `TreePLRU` does not
stay inside the list: its tree tells the way, and the list has lost the pending one. -/
theorem cacheProbe_diverges : (ofWays [(0, true)]).cacheAvail (awareParams 1) 128 = .ok false ∧
    (∀ (policy : ReplacementPolicy) (rounds : Nat),
      (ofWays [(0, true)]).cacheProbe (awareParams 1) logTmManager policy rounds 128 = .ok none) ∧
    (ofWays [(0, true), (128, false)]).cacheProbe (awareParams 2) logTmManager
      (fun _ => Gem5.ReplacementPolicy.PLRUTree.getVictim ⟨1, fun _ => true⟩ 2) 2 256 =
      .error (.undefined "candidates[]") := by
  have full : (ofWays [(0, true)]).cacheAvail (awareParams 1) 128 = .ok false := rfl
  refine ⟨full, fun policy rounds => ?_, rfl⟩
  have endless : ∀ aware, (ofWays [(0, true)]).probeRounds (awareParams 1) logTmManager 0 rounds
      aware = .ok none := by
    induction rounds with
    | zero => exact fun _ => rfl
    | succ rounds ih =>
      intro aware
      cases aware <;> exact ih false
  simp only [cacheProbe, full, show (awareParams 1).addressToCacheSet 128 = .ok 0 from rfl, ok_bind,
    endless]
  rfl

end CacheMemory

end Gem5.Ruby.Structures
