import Gem5.Mem.Htm

/-!
# The abort status of x86

`HTMCheckpoint::restore` encodes the cause of a failed transaction in the register that
`xbegin` returns: bit 0 is set for `xabort`, bit 1 if a retry may succeed, bit 2 for a
conflict, bit 3 for an overflow, bit 6 if speculation is disabled, bit 7 if a log has to
be unrolled, and bit 8 if the conflict was with a power transaction.  Bits 24 to 31 hold
the code of `xabort`, bits 32 to 63 the size of the log.
-/

namespace Gem5.X86

open Foundation

/-- `mask(nbits)`. -/
def mask (nbits : Nat) : BitVec 64 :=
  if 64 ≤ nbits then BitVec.allOnes 64 else (1#64 <<< nbits) - 1#64

/-- `insertBits`: `val` with the bits from `last` up to `first` replaced. -/
def insertBits (val : BitVec 64) (first last : Nat) (bitVal : BitVec 64) : BitVec 64 :=
  let bmask := mask (first - last + 1) <<< last
  (val &&& ~~~ bmask) ||| ((bitVal <<< last) &&& bmask)

private theorem getLsbD_mask {nbits : Nat} (i : Nat) :
    (mask nbits).getLsbD i = decide (i < 64 ∧ i < nbits) := by
  unfold mask
  split
  · next wide =>
    simp only [BitVec.getLsbD_allOnes, decide_eq_decide]
    omega
  · next narrow =>
    have power : ((1#64 <<< nbits) - 1#64).toNat = 2 ^ nbits - 1 := by
      have small : 2 ^ nbits < 2 ^ 64 := Nat.pow_lt_pow_right (by omega) (by omega)
      have positive := Nat.two_pow_pos nbits
      simp only [BitVec.toNat_sub, BitVec.toNat_shiftLeft, BitVec.toNat_ofNat, Nat.shiftLeft_eq,
        Nat.one_mod, Nat.one_mul]
      omega
    rw [← BitVec.testBit_toNat, power, Nat.testBit_two_pow_sub_one, decide_eq_decide]
    omega

/-- Inserted bits are read where they were put, the others are left. -/
theorem getLsbD_insertBits {val bitVal : BitVec 64} {first last : Nat} (i : Nat)
    (bounds : last ≤ first) (inside : i < 64) : (insertBits val first last bitVal).getLsbD i =
      if last ≤ i ∧ i ≤ first then bitVal.getLsbD (i - last) else val.getLsbD i := by
  simp only [insertBits, BitVec.getLsbD_or, BitVec.getLsbD_and, BitVec.getLsbD_not,
    BitVec.getLsbD_shiftLeft, getLsbD_mask]
  by_cases below : i < last
  · simp [below, inside, show ¬ (last ≤ i ∧ i ≤ first) by omega]
  · by_cases above : first < i
    · simp [below, inside, show ¬ (i - last < first - last + 1) by omega,
        show ¬ (last ≤ i ∧ i ≤ first) by omega]
    · have within : last ≤ i ∧ i ≤ first := by omega
      simp [below, inside, within, show i - last < first - last + 1 by omega,
        show i - last < 64 by omega]

/-- What `restore` asks the thread context about the failed transaction. -/
structure FailureContext where
  abortReason : BitVec 16
  memoryPower : Bool
  forceHtmDisabled : Bool
  forceHtmRetryStatusBit : Bool
  htmUndoLogSize : BitVec 32
  deriving DecidableEq, Repr

/-- Whether the retry bit is set, and the bits that tell the cause. -/
def causeBits (context : FailureContext) : HtmFailureFaultCause → Checked (Bool × BitVec 64)
  | .explicit =>
    return (false, insertBits (insertBits 0 31 24 (context.abortReason.setWidth 64)) 0 0 1)
  | .memory =>
    let code := insertBits 0 2 2 1
    return (true, if context.memoryPower then insertBits code 8 8 1 else code)
  | .size => return (false, insertBits 0 3 3 1)
  | .exception => return (false, 0)
  | .other => return (true, 0)
  | .disabled => do
    assertThat (context.forceHtmDisabled = true) "tc->forceHtmDisabled()"
    return (context.forceHtmRetryStatusBit, insertBits 0 6 6 1)
  | _ => panicWith "Unknown HTM failure reason"

/-- The status that `HTMCheckpoint::restore` leaves in the register. -/
def restore (context : FailureContext) (cause : HtmFailureFaultCause) : Checked (BitVec 64) := do
  let (retry, code) ← causeBits context cause
  let code := if retry then insertBits code 1 1 1 else code
  if 0 < context.htmUndoLogSize.toNat then
    return insertBits (insertBits code 7 7 1) 63 32 (context.htmUndoLogSize.setWidth 64)
  else return code

/-- `GenericHtmFailureFault::invoke`: the status of the cause the instruction set shows. -/
def abortStatus (context : FailureContext) (cause : HtmFailureFaultCause) :
    Checked (BitVec 64) := do
  let visible ← getIsaVisibleHtmFailureCause cause
  restore context visible

variable {context : FailureContext} {visible : HtmFailureFaultCause}

/-- The log size never stops the restore. -/
theorem restore_of_causeBits {bits : Bool × BitVec 64}
    (coded : causeBits context visible = .ok bits) :
    ∃ status, restore context visible = .ok status := by
  simp only [restore, coded, ok_bind]
  split <;> exact ⟨_, rfl⟩

/-- A bit test in C. -/
theorem and_bit_ne_zero {status : BitVec 64} {bit : Nat} (inside : bit < 64) :
    status &&& (1#64 <<< bit) ≠ 0#64 ↔ status.getLsbD bit = true := by
  constructor
  · intro tested
    by_contra clear
    refine tested (BitVec.eq_of_getLsbD_eq fun i _ => ?_)
    by_cases same : i = bit
    · simp [same, clear]
    · simp only [BitVec.getLsbD_and, BitVec.getLsbD_shiftLeft, BitVec.getLsbD_one,
        BitVec.getLsbD_zero, Bool.and_eq_false_iff]
      right
      simp
      omega
  · intro set zero
    have read := congrArg (·.getLsbD bit) zero
    simp only [BitVec.getLsbD_and, set, BitVec.getLsbD_shiftLeft, inside] at read
    simp at read

/-- What the bits of a status say. -/
structure StatusOf (context : FailureContext) (visible : HtmFailureFaultCause)
    (status : BitVec 64) : Prop where
  explicit : status.getLsbD 0 = decide (visible = .explicit)
  retry : status.getLsbD 1 = true ↔ visible = .memory ∨ visible = .other ∨
    (visible = .disabled ∧ context.forceHtmRetryStatusBit = true)
  conflict : status.getLsbD 2 = decide (visible = .memory)
  disabled : status.getLsbD 6 = decide (visible = .disabled)
  power : status.getLsbD 8 = (decide (visible = .memory) && context.memoryPower)
  code : visible = .explicit → ∀ i < 8, status.getLsbD (24 + i) = context.abortReason.getLsbD i

private theorem StatusOf.of_causeBits {retry : Bool} {code : BitVec 64}
    (coded : causeBits context visible = .ok (retry, code)) :
    StatusOf context visible (if retry then insertBits code 1 1 1 else code) := by
  cases visible
  all_goals simp only [causeBits, run_eq_ok, Prod.mk.injEq, panicWith_ne_ok] at coded
  case disabled =>
    obtain ⟨-, rfl, rfl⟩ := coded
    cases retries : context.forceHtmRetryStatusBit
    all_goals
      refine ⟨?_, ?_, ?_, ?_, ?_, by simp⟩
      all_goals simp (disch := omega) only [getLsbD_insertBits, ↓reduceIte, Bool.false_eq_true]
      all_goals simp [retries]
  case memory =>
    obtain ⟨rfl, rfl⟩ := coded
    cases power : context.memoryPower
    all_goals
      refine ⟨?_, ?_, ?_, ?_, ?_, by simp⟩
      all_goals simp (disch := omega) only [getLsbD_insertBits, ↓reduceIte, Bool.false_eq_true]
      all_goals simp [power]
  case explicit =>
    obtain ⟨rfl, rfl⟩ := coded
    refine ⟨?_, ?_, ?_, ?_, ?_, fun _ i small => ?_⟩
    all_goals simp (disch := omega) only [getLsbD_insertBits, ↓reduceIte, Bool.false_eq_true]
    case refine_6 => simp [show 24 + i ≤ 31 by omega, show i < 64 by omega]
    all_goals simp
  all_goals
    obtain ⟨rfl, rfl⟩ := coded
    refine ⟨?_, ?_, ?_, ?_, ?_, by simp⟩
    all_goals simp (disch := omega) only [getLsbD_insertBits, ↓reduceIte, Bool.false_eq_true]
    all_goals simp

/-- The undo log takes bit 7 and the upper half of the status. -/
theorem StatusOf.of_restore {status : BitVec 64} (restored : restore context visible = .ok status) :
    StatusOf context visible status := by
  simp only [restore, bind_eq_ok] at restored
  obtain ⟨⟨retry, code⟩, coded, restored⟩ := restored
  have bits := StatusOf.of_causeBits coded
  dsimp only at restored
  split at restored
  · obtain rfl := pure_eq_ok.mp restored
    have kept : ∀ i < 32, i ≠ 7 → (insertBits (insertBits (if retry then insertBits code 1 1 1
        else code) 7 7 1) 63 32 (context.htmUndoLogSize.setWidth 64)).getLsbD i =
          (if retry then insertBits code 1 1 1 else code).getLsbD i := by
      intro i low other
      rw [getLsbD_insertBits i (by omega) (by omega), getLsbD_insertBits i (by omega) (by omega),
        if_neg (by omega), if_neg (by omega)]
    refine ⟨?_, ?_, ?_, ?_, ?_, fun shown i small => ?_⟩
    · rw [kept 0 (by omega) (by omega)]
      exact bits.explicit
    · rw [kept 1 (by omega) (by omega)]
      exact bits.retry
    · rw [kept 2 (by omega) (by omega)]
      exact bits.conflict
    · rw [kept 6 (by omega) (by omega)]
      exact bits.disabled
    · rw [kept 8 (by omega) (by omega)]
      exact bits.power
    · rw [kept (24 + i) (by omega) (by omega)]
      exact bits.code shown i small
  · exact pure_eq_ok.mp restored ▸ bits

end Gem5.X86
