import Mathlib.Data.Nat.Bitwise
import Mathlib.Data.List.Sort

/-!
# Dropping bits of a word

A word is looked at as the stream of its bits, least significant first.  Dropping the
bit at a position moves the bits above it down by one.  Several positions are dropped
one after the other, from the lowest on, so that each position is seen shifted by the
number of those dropped before it.  Two words give the same result exactly when they
agree at all other positions, and the order of words that first differ at such a
position is the order of the results.
-/

namespace Foundation

/-- The bits without the one at position `p`. -/
def dropBit (p : Nat) (f : Nat → Bool) : Nat → Bool :=
  fun k => f (if k < p then k else k + 1)

/-- The bits without those at the given positions, counted before anything is dropped; `i` of the
lower ones have been dropped already. -/
def dropBits : Nat → List Nat → (Nat → Bool) → Nat → Bool
  | _, [], f => f
  | i, p :: ps, f => dropBits (i + 1) ps (dropBit (p - i) f)

variable {f : Nat → Bool}

/-- Lower bits stay. -/
theorem dropBit_of_lt {p k : Nat} (below : k < p) : dropBit p f k = f k := by
  simp [dropBit, below]

/-- Higher bits move down. -/
theorem dropBit_of_le {p k : Nat} (above : p ≤ k) : dropBit p f k = f (k + 1) := by
  simp [dropBit, Nat.not_lt.mpr above]

/-- Of two positions the higher one may be dropped first, where it has not been shifted yet. -/
theorem dropBit_comm {p q : Nat} (below : p < q) (f : Nat → Bool) :
    dropBit (q - 1) (dropBit p f) = dropBit p (dropBit q f) := by
  funext k
  by_cases low : k < p
  · rw [dropBit_of_lt (by omega), dropBit_of_lt low, dropBit_of_lt low, dropBit_of_lt (by omega)]
  by_cases middle : k < q - 1
  · rw [dropBit_of_lt middle, dropBit_of_le (by omega), dropBit_of_le (by omega),
      dropBit_of_lt (by omega)]
  · rw [dropBit_of_le (by omega), dropBit_of_le (by omega), dropBit_of_le (by omega),
      dropBit_of_le (by omega)]

variable {ps : List Nat}

/-- The lowest position may be dropped last. -/
theorem dropBits_cons {p i : Nat} (start : i ≤ p) (sorted : (p :: ps).Pairwise (· < ·))
    (f : Nat → Bool) : dropBits i (p :: ps) f = dropBit (p - i) (dropBits i ps f) := by
  induction ps generalizing i p f with
  | nil => rfl
  | cons q qs ih =>
    have below : p < q := List.rel_of_pairwise_cons sorted List.mem_cons_self
    have rest : ((p + 1) :: qs).Pairwise (· < ·) := by
      refine List.pairwise_cons.mpr ⟨fun r listed => ?_, sorted.tail.tail⟩
      have := List.rel_of_pairwise_cons sorted.tail listed
      omega
    calc dropBits i (p :: q :: qs) f
        = dropBits (i + 2) qs (dropBit (q - i - 1) (dropBit (p - i) f)) := rfl
      _ = dropBits (i + 2) qs (dropBit (p - i) (dropBit (q - i) f)) := by
        rw [dropBit_comm (by omega)]
      _ = dropBits (i + 1) ((p + 1) :: qs) (dropBit (q - i) f) := by
        rw [dropBits, Nat.add_sub_add_right]
      _ = dropBit (p - i) (dropBits i (q :: qs) f) := by
        rw [ih (Nat.add_le_add_right start 1) rest, Nat.add_sub_add_right, dropBits]

/-- The later positions of a sorted list are above the first. -/
theorem succ_le_of_sorted {p i : Nat} (sorted : (p :: ps).Pairwise (· < ·)) (first : i ≤ p) :
    ∀ q ∈ ps, i + 1 ≤ q :=
  fun _ listed => Nat.lt_of_le_of_lt first (List.rel_of_pairwise_cons sorted listed)

/-- Two streams agree after dropping exactly when they agree at the positions kept. -/
theorem dropBits_eq_iff {i : Nat} (sorted : ps.Pairwise (· < ·)) (start : ∀ p ∈ ps, i ≤ p)
    {g : Nat → Bool} : dropBits i ps f = dropBits i ps g ↔ ∀ k, k + i ∉ ps → f k = g k := by
  induction ps generalizing i f g with
  | nil => simp [dropBits, funext_iff]
  | cons p ps ih =>
    have first : i ≤ p := start p List.mem_cons_self
    rw [dropBits, dropBits, ih sorted.tail (succ_le_of_sorted sorted first)]
    constructor
    · intro agree k other
      simp only [List.mem_cons, not_or] at other
      by_cases below : k < p - i
      · have kept := agree k (fun listed => by
          have := List.rel_of_pairwise_cons sorted listed
          omega)
        rwa [dropBit_of_lt below, dropBit_of_lt below] at kept
      · obtain ⟨j, rfl⟩ : ∃ j, k = j + 1 := ⟨k - 1, by omega⟩
        have kept := agree j (by rw [← Nat.add_assoc, Nat.add_right_comm]; exact other.2)
        rwa [dropBit_of_le (by omega), dropBit_of_le (by omega)] at kept
    · intro agree k other
      by_cases below : k < p - i
      · rw [dropBit_of_lt below, dropBit_of_lt below]
        refine agree k ?_
        simp only [List.mem_cons, not_or]
        refine ⟨by omega, fun listed => ?_⟩
        have := List.rel_of_pairwise_cons sorted listed
        omega
      · rw [dropBit_of_le (by omega), dropBit_of_le (by omega)]
        refine agree (k + 1) ?_
        simp only [List.mem_cons, not_or]
        exact ⟨by omega, by rwa [Nat.add_right_comm, Nat.add_assoc]⟩

/-- Positions from `bound` on are shifted by the number of dropped bits. -/
theorem dropBits_high {i bound k : Nat} (sorted : ps.Pairwise (· < ·)) (start : ∀ p ∈ ps, i ≤ p)
    (low : ∀ p ∈ ps, p < bound) (high : bound ≤ k + i + ps.length) (f : Nat → Bool) :
    dropBits i ps f k = f (k + ps.length) := by
  induction ps generalizing i f with
  | nil => rfl
  | cons p ps ih =>
    rw [dropBits, ih sorted.tail (succ_le_of_sorted sorted (start p List.mem_cons_self))
      (fun q listed => low q (List.mem_cons_of_mem _ listed))
      (by simp only [List.length_cons] at high; omega)]
    have first := low p List.mem_cons_self
    rw [List.length_cons] at high
    exact dropBit_of_le (by omega)

/-- Every remaining bit comes from at most as many positions higher as bits were dropped. -/
theorem exists_dropBits_index (ps : List Nat) (i k : Nat) :
    ∃ j, j ≤ k + ps.length ∧ ∀ f, dropBits i ps f k = f j := by
  induction ps generalizing i with
  | nil => exact ⟨k, Nat.le_refl _, fun _ => rfl⟩
  | cons p ps ih =>
    obtain ⟨j, bound, same⟩ := ih (i + 1)
    refine ⟨if j < p - i then j else j + 1, ?_, fun f => ?_⟩
    · rw [List.length_cons]
      split <;> omega
    · rw [dropBits, same]
      rfl

/-! ## Order -/

/-- The most significant position at which two streams differ, where the second one has a bit. -/
structure Exceeds (k : Nat) (f g : Nat → Bool) : Prop where
  clear : f k = false
  set : g k = true
  above : ∀ j, k < j → f j = g j

/-- Dropping another position keeps the order. -/
theorem Exceeds.dropBit {p k : Nat} {g : Nat → Bool} (exceeds : Exceeds k f g) (other : k ≠ p) :
    Exceeds (if k < p then k else k - 1) (dropBit p f) (dropBit p g) := by
  split
  · next below =>
    refine ⟨by rw [dropBit_of_lt below, exceeds.clear], by rw [dropBit_of_lt below, exceeds.set],
      fun j higher => ?_⟩
    unfold Foundation.dropBit
    exact exceeds.above _ (by split <;> omega)
  · next notBelow =>
    have back : k - 1 + 1 = k := by omega
    refine ⟨?_, ?_, fun j higher => ?_⟩
    · rw [dropBit_of_le (by omega), back, exceeds.clear]
    · rw [dropBit_of_le (by omega), back, exceeds.set]
    · rw [dropBit_of_le (by omega), dropBit_of_le (by omega), exceeds.above _ (by omega)]

/-- The order of two streams that first differ at a position that is kept. -/
theorem Exceeds.dropBits {i k : Nat} {g : Nat → Bool} (sorted : ps.Pairwise (· < ·))
    (start : ∀ p ∈ ps, i ≤ p) (exceeds : Exceeds k f g) (kept : k + i ∉ ps) :
    ∃ j, Exceeds j (dropBits i ps f) (dropBits i ps g) := by
  induction ps generalizing i k f g with
  | nil => exact ⟨k, exceeds⟩
  | cons p ps ih =>
    have first : i ≤ p := start p List.mem_cons_self
    simp only [List.mem_cons, not_or] at kept
    refine ih sorted.tail (succ_le_of_sorted sorted first) (exceeds.dropBit (p := p - i) (by omega))
      ?_
    split
    · next below =>
      intro listed
      have := List.rel_of_pairwise_cons sorted listed
      omega
    · next notBelow =>
      rw [show k - 1 + (i + 1) = k + i by omega]
      exact kept.2

/-- Exceeding bit streams are ordered numbers. -/
theorem Exceeds.toNat_lt {w k : Nat} {a b : BitVec w} (exceeds : Exceeds k a.getLsbD b.getLsbD) :
    a < b := by
  rw [BitVec.lt_def]
  refine Nat.lt_of_testBit k ?_ ?_ fun j higher => ?_
  · rw [BitVec.testBit_toNat, exceeds.clear]
  · rw [BitVec.testBit_toNat, exceeds.set]
  · rw [BitVec.testBit_toNat, BitVec.testBit_toNat, exceeds.above j higher]

/-- Ordered numbers differ at a most significant bit. -/
theorem exists_exceeds {w : Nat} {a b : BitVec w} (less : a < b) :
    ∃ k, Exceeds k a.getLsbD b.getLsbD := by
  have differ : a.toNat ^^^ b.toNat ≠ 0 := by
    rw [ne_eq, Nat.xor_eq_zero_iff]
    exact Nat.ne_of_lt (BitVec.lt_def.mp less)
  obtain ⟨k, here, above⟩ := Nat.exists_most_significant_bit differ
  have agree : ∀ j, k < j → a.getLsbD j = b.getLsbD j := fun j higher => by
    have := above j higher
    simpa [Nat.testBit_xor, BitVec.testBit_toNat] using this
  rw [Nat.testBit_xor, BitVec.testBit_toNat, BitVec.testBit_toNat] at here
  cases bit : a.getLsbD k with
  | false => exact ⟨k, bit, by simpa [bit] using here, agree⟩
  | true =>
    have back : Exceeds k b.getLsbD a.getLsbD :=
      ⟨by simpa [bit] using here, bit, fun j higher => (agree j higher).symm⟩
    exact absurd less (BitVec.not_lt.mpr (BitVec.le_of_lt back.toNat_lt))

end Foundation
