import Gem5.Foundation.FailStop

/-!
# HTM configuration

The parameters of the `HTM` object, the policy names of `HtmPolicyStrings`, and
the parsing of those names.  Parameters that only select statistics, debugging
facilities, latencies or replacement preferences are left out.
-/

namespace Gem5

open Foundation

/-- Hardware transaction priorities are C `int`s. -/
abbrev Priority := Int32

/-- `INITIAL_PRIO_VALUE`: the priority a producer takes at its first forwarding. -/
def initialPrioValue : Priority := 0

/-- `NC_PRIO_VALUE`: the priority of a transaction outside every producer-consumer chain. -/
def ncPrioValue : Priority := Int32.minValue

/-- The policy names of `HtmPolicyStrings`. -/
inductive HtmPolicy where
  | requesterWins
  | requesterLoses
  | powerTm
  | woperTm
  | powerTmConsumerWins
  | woperTmConsumerWins
  | committerWins
  | requesterStalls
  | requesterStallsPicBase
  | requesterStallsCdaBase
  | requesterStallsCdaBaseNtx
  | requesterStallsCdaHybrid
  | requesterStallsCdaHybridNtx
  deriving DecidableEq, Repr

/-- The string a policy is selected with. -/
def HtmPolicy.name : HtmPolicy → String
  | .requesterWins => "requester_wins"
  | .requesterLoses => "requester_loses"
  | .powerTm => "requester_wins_power"
  | .woperTm => "requester_loses_power"
  | .powerTmConsumerWins => "requester_wins_power_consumer"
  | .woperTmConsumerWins => "requester_loses_power_consumer"
  | .committerWins => "committer_wins"
  | .requesterStalls => "requester_stalls"
  | .requesterStallsPicBase => "requester_stalls_pic_base"
  | .requesterStallsCdaBase => "requester_stalls_cda_base"
  | .requesterStallsCdaBaseNtx => "requester_stalls_cda_base_ntx"
  | .requesterStallsCdaHybrid => "requester_stalls_cda_hybrid"
  | .requesterStallsCdaHybridNtx => "requester_stalls_cda_hybrid_ntx"

/-- `HTM::ResolutionPolicy`. -/
inductive ResolutionPolicy where
  | requesterWins
  | requesterLoses
  | requesterStalls
  | undefined
  deriving DecidableEq, Repr

/-- `HTM::getResolutionPolicy`: the class of a policy is decided by the start of its name. -/
def HtmPolicy.getResolutionPolicy (policy : HtmPolicy) : ResolutionPolicy :=
  if policy.name.startsWith "requester_wins" then .requesterWins
  else if policy.name.startsWith "requester_loses" then .requesterLoses
  else if policy.name.startsWith "requester_stalls" then .requesterStalls
  else .undefined

/-- The class of every policy name, read off its first words. -/
theorem HtmPolicy.getResolutionPolicy_eq (policy : HtmPolicy) :
    policy.getResolutionPolicy = match policy with
      | .requesterWins | .powerTm | .powerTmConsumerWins => .requesterWins
      | .requesterLoses | .woperTm | .woperTmConsumerWins => .requesterLoses
      | .committerWins => .undefined
      | .requesterStalls | .requesterStallsPicBase | .requesterStallsCdaBase
      | .requesterStallsCdaBaseNtx | .requesterStallsCdaHybrid
      | .requesterStallsCdaHybridNtx => .requesterStalls := by
  cases policy <;> decide +kernel

/-- `HTM::HtmFwdMechanism`. -/
inductive HtmFwdMechanism where
  | noFwd
  | naive
  | simple
  | w1D1
  | wnD1
  | w1Dn
  | wnDm
  | wxDx
  deriving DecidableEq, Repr

/-- `HTM::HtmHwPrioMechanism`. -/
inductive HtmHwPrioMechanism where
  | noPrio
  | numeric
  deriving DecidableEq, Repr

/-- `HTM::HtmFwdCycleSolveStrategy`. -/
inductive HtmFwdCycleSolveStrategy where
  | noStrategy
  | abort
  | retry
  deriving DecidableEq, Repr

/-- `HTM::HtmAllowedDataFwd`. -/
inductive HtmAllowedDataFwd where
  | allData
  | onlyWritten
  | noWriteInFlight
  deriving DecidableEq, Repr

/-- The commit arbitration of lazy conflict detection. -/
inductive LazyArbitration where
  | magic
  | token
  deriving DecidableEq, Repr

/-- `HTMStats::AbortCause`. -/
inductive AbortCause where
  | conflict
  | l0Capacity
  | l1Capacity
  | l2Capacity
  | pageFault
  | syscall
  | interrupt
  | explicit
  | fallbackLock
  | explicitFallbackLock
  | wrongL0
  | conflictStale
  | specValidation
  | specDepthOverflow
  | specMaxCapacityOverflow
  | specWriteInFlight
  | specReadConflict
  | illegalData
  | undefined
  | conflictPower
  deriving DecidableEq, Repr

/-- The parameters of the `HTM` object that the modelled code reads, with the default values of
`HTM.py`.  The proof fields are the checks the constructors of the transaction managers make on
them, so a configuration the simulator refuses cannot be built; the defaults alone are one of
those. -/
structure HTMParams where
  lazyVm : Bool := false
  eagerCd : Bool := false
  conflictResolution : HtmPolicy := .requesterWins
  lazyArbitration : LazyArbitration := .magic
  lazyCommitWidth : Nat := 4
  allowReadSetL0CacheEvictions : Bool := false
  allowReadSetL1CacheEvictions : Bool := false
  allowReadSetL2CacheEvictions : Bool := false
  allowWriteSetL0CacheEvictions : Bool := false
  allowWriteSetL1CacheEvictions : Bool := false
  allowWriteSetL2CacheEvictions : Bool := false
  preciseReadSetTracking : Bool := false
  l0DowngradeOnL1Gets : Bool := false
  maxConsumedBlocks : Nat := 4
  removeFalseSharingForward : Bool := false
  fwdMechanism : HtmFwdMechanism := .noFwd
  prioMechanism : HtmHwPrioMechanism := .noPrio
  fwdCycleSolveStrategy : HtmFwdCycleSolveStrategy := .noStrategy
  allowedDataFwd : HtmAllowedDataFwd := .allData
  ncNotProducer : Bool := false
  nValFwd : Nat := 40
  maxPrioDiff : Int := 1
  maxConsumers : Nat := 1
  noProduceOnRetry : Bool := false
  fallbackLockPAddr : Nat := 0
  /-- `assert(m_default_policy != HTM::ResolutionPolicy::Undefined)` -/
  policyDefined : conflictResolution.getResolutionPolicy ≠ .undefined := by decide +kernel
  /-- Eager versioning requires eager conflict detection. -/
  eagerOfLog : lazyVm = false → eagerCd = true := by decide
  /-- No write-set eviction from a private cache is possible under lazy versioning. -/
  noWriteSetEvictions : lazyVm = true →
    allowWriteSetL0CacheEvictions = false ∧ allowWriteSetL1CacheEvictions = false ∧
      allowWriteSetL2CacheEvictions = false := by decide
  /-- LogTM assumes that write-set evictions are possible. -/
  writeSetEvictions : lazyVm = false →
    allowWriteSetL0CacheEvictions = true ∧ allowWriteSetL1CacheEvictions = true ∧
      allowWriteSetL2CacheEvictions = true := by decide
  /-- Read-set evictions from L1 require them from L0. -/
  readSetL0OfL1 : allowReadSetL1CacheEvictions = true →
    allowReadSetL0CacheEvictions = true := by decide

namespace HTMParams

variable (params : HTMParams)

/-- `config_allowEarlyValueFwd`. -/
def allowEarlyValueFwd : Bool :=
  params.fwdMechanism ≠ .noFwd

/-- `TransactionConflictManager::isRequesterStallsPolicy`. -/
def isRequesterStallsPolicy : Bool :=
  params.conflictResolution.getResolutionPolicy = .requesterStalls

/-- `TransactionConflictManager::isReqLosesPolicy`. -/
def isReqLosesPolicy : Bool :=
  params.conflictResolution.getResolutionPolicy = .requesterLoses

/-- `TransactionConflictManager::isReqWinsPolicy`. -/
def isReqWinsPolicy : Bool :=
  params.conflictResolution.getResolutionPolicy = .requesterWins

/-- `TransactionConflictManager::isPowerTMPolicy`. -/
def isPowerTMPolicy : Bool :=
  params.conflictResolution = .powerTm || params.conflictResolution = .woperTm

/-- `TransactionConflictManager::isProducerPolicy`. -/
def isProducerPolicy : Bool :=
  params.isPowerTMPolicy || params.isReqLosesPolicy || params.isRequesterStallsPolicy

/-- `m_policy_nack_non_transactional`, as the constructor of the conflict manager sets it:
`m_policy.find("_cda") == 0` asks whether the name starts with `_cda`. -/
def policyNackNonTransactional : Bool :=
  params.conflictResolution.name.startsWith "_cda" &&
    params.conflictResolution.name.startsWith "_ntx"

/-- No policy name starts with `_cda`, so non-transactional requests are never nacked for
this reason. -/
@[simp] theorem policyNackNonTransactional_eq_false :
    params.policyNackNonTransactional = false := by
  unfold policyNackNonTransactional
  cases params.conflictResolution <;> decide +kernel

end HTMParams

/-- The run-time state of the `HTM` object: the processors waiting for the commit token,
oldest request first.  The first one owns the token. -/
structure HTM where
  commitTokenRequestList : List Nat
  deriving DecidableEq, Repr

namespace HTM

variable (htm : HTM) (procNo : Nat)

/-- `HTM::requestCommitToken`. -/
def requestCommitToken : Checked HTM := do
  assertThat (∀ other ∈ htm.commitTokenRequestList, other ≠ procNo)
    "m_commitTokenRequestList[i] != proc_no"
  return { commitTokenRequestList := htm.commitTokenRequestList ++ [procNo] }

/-- `HTM::releaseCommitToken`. -/
def releaseCommitToken : Checked HTM := do
  assertThat (htm.commitTokenRequestList.length > 0) "m_commitTokenRequestList.size() > 0"
  assertThat (htm.commitTokenRequestList.head? = some procNo)
    "proc_no == m_commitTokenRequestList[0]"
  return { commitTokenRequestList := htm.commitTokenRequestList.tail }

/-- `HTM::getTokenOwner`, with `none` for the source's `-1`. -/
def getTokenOwner : Option Nat :=
  htm.commitTokenRequestList.head?

/-- `HTM::removeCommitTokenRequest`: the owner releases the token, anyone else leaves the list. -/
def removeCommitTokenRequest : Checked HTM :=
  if htm.getTokenOwner = some procNo then htm.releaseCommitToken procNo
  else do
    assertThat (procNo ∈ htm.commitTokenRequestList) "found"
    return { commitTokenRequestList := htm.commitTokenRequestList.erase procNo }

variable {htm procNo}

/-- A new requester goes to the end of the list. -/
theorem requestCommitToken_of (absent : procNo ∉ htm.commitTokenRequestList) :
    htm.requestCommitToken procNo = .ok ⟨htm.commitTokenRequestList ++ [procNo]⟩ := by
  have fresh : ∀ other ∈ htm.commitTokenRequestList, other ≠ procNo := by
    intro other present same
    exact absent (same ▸ present)
  simp [requestCommitToken, assertThat_of fresh, pure, Except.pure]

/-- The owner leaves the front of the list. -/
theorem releaseCommitToken_of {rest : List Nat}
    (owner : htm.commitTokenRequestList = procNo :: rest) :
    htm.releaseCommitToken procNo = .ok ⟨rest⟩ := by
  simp [releaseCommitToken, owner, assertThat, pure, Except.pure]

/-- Whether or not it owns the token, a waiting processor leaves the list. -/
theorem removeCommitTokenRequest_of (present : procNo ∈ htm.commitTokenRequestList) :
    htm.removeCommitTokenRequest procNo = .ok ⟨htm.commitTokenRequestList.erase procNo⟩ := by
  unfold removeCommitTokenRequest getTokenOwner
  split
  · next owner =>
    obtain ⟨rest, list⟩ := List.head?_eq_some_iff.mp owner
    rw [releaseCommitToken_of list, list]
    simp
  · simp [assertThat_of present, pure, Except.pure]

end HTM

/-! The causes of failed transactions.  The precise cause goes to the memory system; the thread sees
the cause that `getIsaVisibleHtmFailureCause` makes of it. -/

/-- `HtmFailureFaultCause`. -/
inductive HtmFailureFaultCause where
  | invalid
  | explicit
  | nest
  | size
  | exception
  | memory
  | other
  | disabled
  | interrupt
  | lsq
  | sizeRset
  | sizeWset
  | sizeL1Priv
  | sizeLlc
  | sizeWrongCache
  | explicitFallbackLock
  | memoryFallbackLock
  | memoryStaleData
  | memoryFalseSharing
  | memoryPower
  | specIllegal
  | specValidation
  | specMaxCapacity
  | specDepth
  | specWriteInFlight
  | specReadConflict
  deriving DecidableEq, Repr

/-- `getIsaVisibleHtmFailureCause`: a cancel because of the fallback lock is shown as a memory
conflict. -/
def getIsaVisibleHtmFailureCause : HtmFailureFaultCause → Checked HtmFailureFaultCause
  | .explicit => return .explicit
  | .nest => return .nest
  | .size => return .size
  | .exception => return .exception
  | .memory => return .memory
  | .other => return .other
  | .disabled => return .disabled
  | .interrupt => return .other
  | .lsq | .explicitFallbackLock | .memoryFallbackLock | .memoryStaleData | .memoryFalseSharing
  | .memoryPower | .specValidation | .specDepth | .specMaxCapacity | .specWriteInFlight
  | .specReadConflict | .specIllegal => return .memory
  | .sizeRset | .sizeWset | .sizeL1Priv | .sizeLlc => return .size
  | .sizeWrongCache => return .other
  | .invalid => panicWith "Unexpected HtmFailureFault cause"

end Gem5
