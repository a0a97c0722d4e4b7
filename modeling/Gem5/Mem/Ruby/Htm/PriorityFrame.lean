import Gem5.Mem.Ruby.Htm.CoreSystem
import Gem5.Mem.Ruby.Htm.ForwardedData

/-!
# What moves the priority of a transaction

The priority of a transaction moves when it forwards a block and when it consumes one,
and under the PiC policy with every nack.  `RankKept` says that a call does neither of
the first two: nothing is forwarded, no block enters the buffer, and the priority stays
under the other policies.  The two calls that do are specified exactly.
-/

namespace Gem5.Ruby

open Foundation TransactionInterfaceManager

namespace TransactionInterfaceManager

variable {params : HTMParams} {n : Nat} {mgr next : TransactionInterfaceManager params n}

/-- A forwarding transaction starts its commit only with eager conflict detection. -/
def Unready (mgr : TransactionInterfaceManager params n) : Prop :=
  params.eagerCd = false → mgr.atCommit = false

/-- A call does not make a forwarding transaction ready. -/
theorem Unready.of_call (frame : CallFrame mgr next) (unready : mgr.Unready) : next.Unready :=
  fun lazyCd => (congrArg Control.atCommit frame.control).trans (unready lazyCd)

/-- What an event of the core alone does to its rank: within one transaction the priority stays,
no block enters the buffer, and a transaction that still holds blocks has the priority it had. -/
structure LocalStep (mgr next : TransactionInterfaceManager params n) : Prop where
  uid : mgr.currentHtmUid ≤ next.currentHtmUid
  within : next.transactionLevel ≠ 0 → next.currentHtmUid = mgr.currentHtmUid →
    mgr.transactionLevel ≠ 0 ∧ next.hwTransPrio = mgr.hwTransPrio
  held : ∀ addr, next.buffer.contains addr = true → mgr.buffer.contains addr = true
  consumer : next.isConsumer = true → next.hwTransPrio = mgr.hwTransPrio
  unready : mgr.Unready → next.Unready

/-- A call that keeps the rank is local. -/
theorem LocalStep.of_call (plain : params.conflictResolution ≠ .requesterStallsPicBase)
    (frame : CallFrame mgr next) (kept : RankKept mgr next) : LocalStep mgr next where
  uid := (congrArg Control.currentHtmUid frame.control).ge
  within running _ := ⟨frame.transactionLevel ▸ running, kept.prio plain⟩
  held := kept.held
  consumer _ := kept.prio plain
  unready := .of_call frame

/-- The transaction of the manager ends: what it still holds, it holds with its priority. -/
theorem LocalStep.of_ended (level : next.transactionLevel = 0)
    (uid : next.currentHtmUid = mgr.currentHtmUid)
    (held : ∀ addr, next.buffer.contains addr = true → mgr.buffer.contains addr = true)
    (consumer : next.isConsumer = true → next.hwTransPrio = mgr.hwTransPrio)
    (unready : mgr.Unready → next.Unready) : LocalStep mgr next :=
  ⟨uid.ge, fun running => absurd level running, held, consumer, unready⟩

end TransactionInterfaceManager

namespace Core

variable {params : HTMParams} {n : Nat} {core next : Core params n} {event : CoreEvent n}
variable {mgr : TransactionInterfaceManager params n}

section

variable (forwarding : params.allowEarlyValueFwd = true)

include forwarding

private theorem commit_local {after : HTM}
    (unready : core.mgr.Unready) (ready : core.mgr.canCommitTransaction = true)
    (done : core.mgr.commitTransaction core.htm = .ok (mgr, after)) :
    LocalStep core.mgr { mgr with stalled := false } := by
  have eager : params.eagerCd = true := by
    by_contra lazyCd
    have lazyCd : params.eagerCd = false := by simpa using lazyCd
    have lazy : params.lazyVm = true := by
      by_contra log
      simp [params.eagerOfLog (by simpa using log)] at lazyCd
    simp [commitTransaction, commitVersioning, lazy, lazyCd, unready lazyCd] at done
  obtain ⟨-, unflagged, _, _, _, after, _, _, rfl, -, -, -, reset, -⟩ := commitTransaction_ok done
  have drained : core.mgr.buffer.isEmpty = true := by
    simpa [canCommitTransaction, eager, forwarding, unflagged] using ready
  have empty : after.recvDataForwardedFromProducer.isEmpty = true := by
    rw [reset]
    split
    · rfl
    · exact drained
  refine .of_ended rfl rfl (fun addr found => ?_) (fun consumer => ?_) fun _ lazyCd => ?_
  · rw [buffer, Std.ExtTreeMap.isEmpty_iff.mp empty] at found
    simp at found
  · simp [isConsumer, empty] at consumer
  · simp [eager] at lazyCd

/-- An abort of lazy versioning: with eager conflict detection the buffer is emptied, otherwise it
is left with the priority. -/
theorem abort_local {after : HTM} (lazy : params.lazyVm = true) (sound : core.mgr.Sound)
    (done : core.mgr.abortTransaction core.htm = .ok (mgr, after)) :
    LocalStep core.mgr { mgr with stalled := false } := by
  obtain ⟨_, _, _, _, after, prio, rfl, -, lazyCd, reset⟩ := abortTransaction_lazy lazy done
  have unrolled : core.mgr.unrollingLogFlag = false := by
    by_contra unrolls
    have eagerVm := (sound.unrolling (by simpa using unrolls)).2.1
    simp [lazy] at eagerVm
  cases eager : params.eagerCd with
  | true =>
    obtain ⟨-, rfl⟩ := reset eager
    refine .of_ended (by simp [unrolled]) rfl (fun addr found => ?_) (fun consumer => ?_) fun _ _ =>
      rfl
    · simp [buffer, forwarding, resetForwarding, ValueForwarding.init] at found
    · simp [isConsumer, forwarding, resetForwarding, ValueForwarding.init] at consumer
  | false =>
    obtain ⟨-, -, rfl, rfl⟩ := lazyCd eager
    exact .of_ended (by simp [unrolled]) rfl (fun _ => id) (fun _ => rfl) fun _ _ => rfl

/-- The life cycle is local. -/
theorem lifeCycle_local (sound : core.mgr.Sound)
    (unready : core.mgr.Unready) (cycle : LifeCycle core event mgr) : LocalStep core.mgr mgr := by
  cases cycle with
  | start begun =>
    obtain ⟨-, -, -, -, fresh, -, _, _, rfl, -⟩ := beginTransaction_ok begun
    exact ⟨fresh.le, fun _ same => absurd same fresh.ne', fun _ => id, fun _ => rfl, id⟩
  | commit _ _ ready done => exact commit_local forwarding unready ready done
  | initiate _ _ done =>
    simp only [initiateCommitTransaction, forwarding, ↓reduceIte, run_eq_ok, Prod.mk.injEq] at done
    obtain ⟨eager, rfl, -⟩ := done
    refine ⟨Nat.le_refl _, fun running _ => ⟨running, rfl⟩, fun _ => id, fun _ => rfl,
      fun _ lazyCd => ?_⟩
    simp [eager] at lazyCd
  | abort running done =>
    cases lazy : params.lazyVm with
    | true => exact abort_local forwarding lazy sound done
    | false =>
      have level := (TransactionInterfaceManager.abortTransaction_ok done).1
      have inside : core.mgr.transactionLevel ≠ 0 := by simp [level]
      rcases abortTransaction_log lazy done with rfl | rfl
      · exact ⟨Nat.le_refl _, fun _ _ => ⟨inside, rfl⟩, fun _ => id, fun _ => rfl, id⟩
      · exact ⟨Nat.le_refl _, fun _ _ => ⟨inside, rfl⟩, fun _ => id, fun _ => rfl, id⟩
  | unrolled done =>
    simp only [endLogUnroll, run_eq_ok] at done
    obtain ⟨-, -, -, -, rfl⟩ := done
    exact .of_ended rfl rfl (fun _ => id) (fun _ => rfl) id

end

end Core

end Gem5.Ruby
