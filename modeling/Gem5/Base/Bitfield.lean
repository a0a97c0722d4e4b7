import Gem5.Foundation.BitStream
import Mathlib.Data.Finset.Card

/-!
# Bit fields

The functions of `base/bitfield.hh` on 64-bit words.  Positions are `unsigned`, 32 bits
wide, so the width of a field is computed modulo `2 ^ 32`.  An assertion on the
arguments is a hypothesis of the function.
-/

namespace Gem5

/-- `uint64_t`. -/
abbrev Word := BitVec 64

/-- `unsigned`. -/
abbrev Unsigned := BitVec 32

/-- `mask(nbits)`. -/
def mask (nbits : Unsigned) : Word :=
  if nbits.toNat ≥ 64 then BitVec.allOnes 64 else 1#64 <<< nbits.toNat - 1#64

/-- `mbits`. -/
def mbits (val : Word) (first last : Unsigned) : Word :=
  val &&& (mask (first + 1#32) &&& ~~~mask last)

/-- `insertBits`. -/
def insertBits (val : Word) (first last : Unsigned) (bitVal : Word) (_ : last ≤ first) : Word :=
  let bmask := mbits (BitVec.allOnes 64) first last
  val &&& ~~~bmask ||| bitVal <<< last.toNat &&& bmask

/-- `insertBits` of a single bit. -/
def insertBit (val : Word) (bit : Unsigned) (bitVal : Word) : Word :=
  insertBits val bit bit bitVal (BitVec.le_refl bit)

/-- `popCount`. -/
def popCount (val : Word) : Nat :=
  ((Finset.range 64).filter fun k => val.getLsbD k = true).card

/-- `ctz64`. -/
def ctz64 (value : Word) : Nat :=
  ((List.range 64).find? value.getLsbD).getD 64

/-- The mask has the `nbits` lowest bits. -/
theorem toNat_mask {nbits : Unsigned} (narrow : nbits.toNat < 64) :
    (mask nbits).toNat = 2 ^ nbits.toNat - 1 := by
  have small : 2 ^ nbits.toNat < 2 ^ 64 := Nat.pow_lt_pow_right (by decide) narrow
  have positive : 0 < 2 ^ nbits.toNat := Nat.two_pow_pos _
  have shifted : (1#64 <<< nbits.toNat).toNat = 2 ^ nbits.toNat := by
    rw [BitVec.toNat_shiftLeft, Nat.shiftLeft_eq, BitVec.toNat_ofNat,
      Nat.one_mod_two_pow (by decide), Nat.one_mul, Nat.mod_eq_of_lt small]
  rw [mask, if_neg (Nat.not_le.mpr narrow), BitVec.toNat_sub_of_le, shifted]
  · rfl
  · rw [BitVec.le_def, shifted]
    exact positive

@[simp] private theorem getLsbD_mask (nbits : Unsigned) (k : Nat) :
    (mask nbits).getLsbD k = (decide (k < 64) && decide (k < nbits.toNat)) := by
  by_cases narrow : nbits.toNat < 64
  · rw [← BitVec.testBit_toNat, toNat_mask narrow, Nat.testBit_two_pow_sub_one]
    by_cases low : k < nbits.toNat <;> simp [low]
    omega
  · rw [mask, if_pos (Nat.not_lt.mp narrow), BitVec.getLsbD_allOnes]
    by_cases inside : k < 64 <;> simp [inside]
    omega

/-- The bits of a result: those of `bitVal` in the field, those of `val` outside it. -/
theorem getLsbD_insertBits {val bitVal : Word} {first last : Unsigned} (ordered : last ≤ first)
    {k : Nat} (inside : k < 64) : (insertBits val first last bitVal ordered).getLsbD k =
      if last.toNat ≤ k ∧ k < (first + 1#32).toNat then bitVal.getLsbD (k - last.toNat)
      else val.getLsbD k := by
  simp only [insertBits, mbits, BitVec.getLsbD_or, BitVec.getLsbD_and, BitVec.getLsbD_not,
    BitVec.getLsbD_shiftLeft, BitVec.getLsbD_allOnes, getLsbD_mask, inside, decide_true,
    Bool.true_and]
  generalize (first + 1#32).toNat = width
  by_cases low : last.toNat ≤ k <;> by_cases high : k < width <;>
    simp [low, high, Nat.not_lt.mpr, Nat.not_le.mp]

/-- Only zero has no set bit. -/
theorem ctz64_lt_iff {value : Word} : ctz64 value < 64 ↔ value ≠ 0 := by
  constructor
  · rintro low rfl
    exact absurd low (by decide +kernel)
  · intro nonzero
    unfold ctz64
    cases found : (List.range 64).find? value.getLsbD with
    | none =>
      refine absurd (BitVec.eq_of_getLsbD_eq fun k inside => ?_) nonzero
      simpa using List.find?_eq_none.mp found k (List.mem_range.mpr inside)
    | some bit => exact List.mem_range.mp (List.mem_of_find?_eq_some found)

/-- The least significant set bit. -/
theorem getLsbD_ctz64 {value : Word} (low : ctz64 value < 64) :
    value.getLsbD (ctz64 value) = true ∧ ∀ k < ctz64 value, value.getLsbD k = false := by
  unfold ctz64 at low ⊢
  cases found : (List.range 64).find? value.getLsbD with
  | none => simp [found] at low
  | some bit =>
    obtain ⟨set, -, clear⟩ := List.find?_range_eq_some.mp found
    exact ⟨set, fun k below => by simpa using clear k below⟩

end Gem5
