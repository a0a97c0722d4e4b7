import Mathlib.Order.Interval.Finset.Nat

/-!
# Counting marks in dyadic blocks

The block `q` of level `l` holds the positions from `q * 2 ^ l` to `(q + 1) * 2 ^ l`; it
is the union of the blocks `2 * q` and `2 * q + 1` of the level below.  A tree of partial
sums keeps how many positions of each block are marked, and the marks to the right of a
position within its block grow with the level by the sibling blocks on the right.
-/

namespace Foundation

/-- How many positions from `lo` to `hi` are marked. -/
def countIn (marks : Nat → Bool) (lo hi : Nat) : Nat :=
  ((Finset.Ico lo hi).filter (fun j => marks j = true)).card

section

variable {marks marks' : Nat → Bool} {lo mid hi k l q : Nat}

/-- The count depends on the marks of the interval only. -/
theorem countIn_congr (same : ∀ j, lo ≤ j → j < hi → marks j = marks' j) :
    countIn marks lo hi = countIn marks' lo hi := by
  unfold countIn
  congr 1
  apply Finset.filter_congr
  intro j member
  obtain ⟨least, below⟩ := Finset.mem_Ico.mp member
  rw [same j least below]

/-- Adjacent intervals add up. -/
theorem countIn_add (left : lo ≤ mid) (right : mid ≤ hi) :
    countIn marks lo hi = countIn marks lo mid + countIn marks mid hi := by
  unfold countIn
  rw [← Finset.Ico_union_Ico_eq_Ico left right, Finset.filter_union, Finset.card_union_of_disjoint]
  exact Finset.disjoint_filter_filter (Finset.Ico_disjoint_Ico_consecutive lo mid hi)

/-- No interval has more marks than positions. -/
theorem countIn_le : countIn marks lo hi ≤ hi - lo := by
  calc countIn marks lo hi ≤ (Finset.Ico lo hi).card := Finset.card_filter_le _ _
    _ = hi - lo := Nat.card_Ico lo hi

/-- An unmarked interval counts nothing. -/
theorem countIn_eq_zero (none : ∀ j, lo ≤ j → j < hi → marks j = false) :
    countIn marks lo hi = 0 := by
  unfold countIn
  rw [Finset.card_eq_zero, Finset.filter_eq_empty_iff]
  intro j member
  obtain ⟨least, below⟩ := Finset.mem_Ico.mp member
  simp [none j least below]

/-- An empty interval counts nothing. -/
@[simp] theorem countIn_self : countIn marks lo lo = 0 := by
  simp [countIn]

/-- An interval of one position. -/
theorem countIn_succ : countIn marks k (k + 1) = if marks k then 1 else 0 := by
  unfold countIn
  rw [Nat.Ico_succ_singleton, Finset.filter_singleton]
  split <;> simp_all

/-- The position lies in the block. -/
def InBlock (l q j : Nat) : Prop :=
  j / 2 ^ l = q

/-- The bounds of a block. -/
theorem inBlock_iff {j : Nat} : InBlock l q j ↔ q * 2 ^ l ≤ j ∧ j < (q + 1) * 2 ^ l := by
  unfold InBlock
  rw [Nat.div_eq_iff (Nat.two_pow_pos l)]
  have := Nat.two_pow_pos l
  rw [Nat.add_mul]
  omega

/-- A block is half of one block of the next level. -/
theorem div_two_pow_succ (j l : Nat) : j / 2 ^ (l + 1) = j / 2 ^ l / 2 := by
  rw [Nat.pow_succ, Nat.div_div_eq_div_mul]

/-- The halves of a block are blocks of the level below. -/
theorem InBlock.half {j : Nat} (left : InBlock l (2 * q) j ∨ InBlock l (2 * q + 1) j) :
    InBlock (l + 1) q j := by
  unfold InBlock at *
  rw [div_two_pow_succ]
  omega

/-- How many positions of a block are marked. -/
def blockCount (marks : Nat → Bool) (l q : Nat) : Nat :=
  countIn marks (q * 2 ^ l) ((q + 1) * 2 ^ l)

/-- The count depends on the marks of the block only. -/
theorem blockCount_congr (same : ∀ j, InBlock l q j → marks j = marks' j) :
    blockCount marks l q = blockCount marks' l q :=
  countIn_congr fun j least below => same j (inBlock_iff.mpr ⟨least, below⟩)

/-- An unmarked block counts nothing. -/
theorem blockCount_eq_zero (none : ∀ j, InBlock l q j → marks j = false) :
    blockCount marks l q = 0 :=
  countIn_eq_zero fun j least below => none j (inBlock_iff.mpr ⟨least, below⟩)

/-- No block has more marks than positions. -/
theorem blockCount_le : blockCount marks l q ≤ 2 ^ l := by
  have bound : countIn marks (q * 2 ^ l) ((q + 1) * 2 ^ l) ≤ _ := countIn_le
  rw [Nat.add_mul] at bound
  unfold blockCount
  rw [Nat.add_mul]
  omega

/-- A block of level zero is one position. -/
@[simp] theorem blockCount_zero : blockCount marks 0 k = if marks k then 1 else 0 := by
  simp [blockCount, countIn_succ]

/-- A block is its two halves. -/
theorem blockCount_succ :
    blockCount marks (l + 1) q = blockCount marks l (2 * q) + blockCount marks l (2 * q + 1) := by
  unfold blockCount
  have start : q * 2 ^ (l + 1) = 2 * q * 2 ^ l := by rw [Nat.pow_succ]; grind
  have stop : (q + 1) * 2 ^ (l + 1) = (2 * q + 1 + 1) * 2 ^ l := by rw [Nat.pow_succ]; grind
  rw [start, stop]
  apply countIn_add
  · exact Nat.mul_le_mul_right _ (by omega)
  · exact Nat.mul_le_mul_right _ (by omega)

/-- How many positions to the right of `k`, in its block of level `l`, are marked. -/
def rightOf (marks : Nat → Bool) (l k : Nat) : Nat :=
  countIn marks (k + 1) ((k / 2 ^ l + 1) * 2 ^ l)

/-- Nothing is to the right in a block of one position. -/
@[simp] theorem rightOf_zero : rightOf marks 0 k = 0 := by
  simp [rightOf]

/-- The count does not depend on the mark at the position itself. -/
theorem rightOf_congr (same : ∀ j, j ≠ k → marks j = marks' j) :
    rightOf marks l k = rightOf marks' l k :=
  countIn_congr fun j least _ => same j (by omega)

/-- One level up a left block gains the sibling on its right. -/
theorem rightOf_succ_left (left : k / 2 ^ l % 2 = 0) :
    rightOf marks (l + 1) k = rightOf marks l k + blockCount marks l (k / 2 ^ l + 1) := by
  have inside := inBlock_iff.mp (show InBlock l (k / 2 ^ l) k from rfl)
  unfold rightOf blockCount
  rw [div_two_pow_succ]
  have stop : (k / 2 ^ l / 2 + 1) * 2 ^ (l + 1) = (k / 2 ^ l + 1 + 1) * 2 ^ l := by
    rw [Nat.pow_succ, Nat.mul_comm (2 ^ l) 2, ← Nat.mul_assoc]
    congr 1
    omega
  rw [stop]
  apply countIn_add
  · omega
  · exact Nat.mul_le_mul_right _ (by omega)

/-- One level up a right block gains nothing. -/
theorem rightOf_succ_right (right : k / 2 ^ l % 2 = 1) :
    rightOf marks (l + 1) k = rightOf marks l k := by
  unfold rightOf
  rw [div_two_pow_succ]
  congr 1
  rw [Nat.pow_succ, Nat.mul_comm (2 ^ l) 2, ← Nat.mul_assoc]
  congr 1
  omega

end

end Foundation
