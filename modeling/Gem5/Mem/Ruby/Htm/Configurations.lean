import Gem5.Mem.Htm

/-!
# The configurations of the concrete runs
-/

namespace Gem5.Ruby

/-- Requester-stalls over lazy versioning in the cache. -/
def Core.requesterStalls : HTMParams :=
  { lazyVm := true, eagerCd := true, conflictResolution := .requesterStalls }

/-- LogTM with the plain timestamp policy. -/
def Core.logTM : HTMParams :=
  { eagerCd := true, conflictResolution := .requesterStalls, allowWriteSetL0CacheEvictions := true
    allowWriteSetL1CacheEvictions := true, allowWriteSetL2CacheEvictions := true }

/-- Forwarding with numeric priorities over requester-loses and lazy versioning in the cache. -/
def chats : HTMParams :=
  { lazyVm := true, eagerCd := true, conflictResolution := .requesterLoses, fwdMechanism := .wnDm
    prioMechanism := .numeric, fwdCycleSolveStrategy := .abort }

/-- Chains of two, to any of eight consumers. -/
def ForwardingMachine.depthTwo : HTMParams :=
  { lazyVm := true, eagerCd := true, conflictResolution := .requesterLoses, fwdMechanism := .wxDx
    prioMechanism := .numeric, fwdCycleSolveStrategy := .abort, maxPrioDiff := 2
    maxConsumers := 8 }

/-- Forwarding along chains of depth one, to one consumer. -/
def ForwardingMachine.pairwise : HTMParams :=
  { lazyVm := true, eagerCd := true, conflictResolution := .requesterLoses, fwdMechanism := .w1D1
    prioMechanism := .numeric, fwdCycleSolveStrategy := .abort }

/-- CDA hybrid over lazy versioning in the cache. -/
def Core.cdaHybrid : HTMParams :=
  { lazyVm := true, eagerCd := true, conflictResolution := .requesterStallsCdaHybrid }

/-- The lazy-lazy configuration with the default values. -/
def LazyCommitEvent.lazyLazy : HTMParams :=
  { lazyVm := true, eagerCd := false }

/-- Requester-stalls with deadlock avoidance by timestamps over lazy versioning. -/
def cdaBase : HTMParams :=
  { lazyVm := true, eagerCd := true, conflictResolution := .requesterStallsCdaBase }

/-- The same policy in the variant that should nack requests from outside every transaction. -/
def cdaBaseNtx : HTMParams :=
  { lazyVm := true, eagerCd := true, conflictResolution := .requesterStallsCdaBaseNtx }

/-- LogTM whose read sets may leave the private caches. -/
def MissCheck.logTMReadSets : HTMParams :=
  { Core.logTM with
    allowReadSetL0CacheEvictions := true, allowReadSetL1CacheEvictions := true
    readSetL0OfL1 := fun _ => rfl }

/-- Requester-loses with power transactions, forwarding and numeric priorities. -/
def Core.powerForwarding : HTMParams :=
  { lazyVm := true, eagerCd := true, conflictResolution := .woperTm, fwdMechanism := .wnDm
    prioMechanism := .numeric, fwdCycleSolveStrategy := .abort, ncNotProducer := true }

/-- Lazy versioning and lazy conflict detection. -/
def Machine.lazyLazy : HTMParams := { lazyVm := true }

/-- Requester-loses with forwarding, numeric priorities and removal of false sharing. -/
def Consumer.falseSharing : HTMParams :=
  { lazyVm := true, eagerCd := true, conflictResolution := .requesterLoses, fwdMechanism := .wnDm
    prioMechanism := .numeric, fwdCycleSolveStrategy := .abort, removeFalseSharingForward := true }

/-- Requester-wins over lazy versioning in the cache. -/
def CheckedCores.requesterWins : HTMParams :=
  { lazyVm := true, eagerCd := true, conflictResolution := .requesterWins }

/-- Requester-loses with forwarding and numeric priorities. -/
def SequencedCore.forwardingParams : HTMParams :=
  { lazyVm := true, eagerCd := true, conflictResolution := .requesterLoses, fwdMechanism := .wnDm
    prioMechanism := .numeric, fwdCycleSolveStrategy := .abort }

end Gem5.Ruby
