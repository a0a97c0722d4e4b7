import Gem5.Foundation.FailStop
import Mathlib.Data.Finset.Card
import Mathlib.Data.Nat.Bitwise

/-!
# The tree-PLRU replacement policy

`mem/cache/replacement_policies/tree_plru_rp.{hh,cc}`.  The inner nodes of a binary tree are
the bits of an array, each pointing to the subtree of the next victim.  With the numbers one
above the array indices the parent of `m` is `m / 2` and its children are `2 * m` and
`2 * m + 1`, so the path to a leaf is given by the bits of its number.

`parentIndex` passes through `std::floor`, which is a function of floating-point numbers.
-/

namespace Gem5.ReplacementPolicy

open Foundation

/-- An integer converted to `double` and back: 53 significant bits, ties to even. -/
def viaDouble (value : Nat) : Nat :=
  if value < 2 ^ 53 then value
  else
    let unit := 2 ^ (value.log2 - 52)
    let quotient := value / unit
    let rest := value % unit
    if 2 * rest < unit ∨ 2 * rest = unit ∧ quotient % 2 = 0 then quotient * unit
    else (quotient + 1) * unit

/-- `parentIndex`. -/
def parentIndex (index : Nat) : Nat := viaDouble ((index - 1) / 2)

/-- `leftSubtreeIndex`. -/
def leftSubtreeIndex (index : Nat) : Nat := 2 * index + 1

/-- `rightSubtreeIndex`. -/
def rightSubtreeIndex (index : Nat) : Nat := 2 * index + 2

/-- `isRightSubtree`. -/
def isRightSubtree (index : Nat) : Bool := index % 2 = 0

/-- `PLRUTree`. -/
structure PLRUTree where
  size : Nat
  bits : Nat → Bool

namespace PLRUTree

/-- The tree that `instantiateEntry` creates for `numLeaves` entries. -/
def init (numLeaves : Nat) : PLRUTree := ⟨numLeaves - 1, fun _ => false⟩

/-- An assignment to `tree->at(index)`. -/
def set (tree : PLRUTree) (index : Nat) (value : Bool) : Checked PLRUTree := do
  panicIf (index ≥ tree.size) "std::out_of_range"
  return { tree with bits := Function.update tree.bits index value }

/-- The loops of `invalidate` and `touch`, for at most so many rounds. -/
def mark (value : Bool → Bool) : Nat → Nat → PLRUTree → Checked PLRUTree
  | 0, _, _ => panicWith "no end of the loop"
  | rounds + 1, index, tree => do
    let right := isRightSubtree index
    let index := parentIndex index
    let tree ← tree.set index (value right)
    if index ≠ 0 then mark value rounds index tree else return tree

/-- `invalidate` of the entry with an index. -/
def invalidate (tree : PLRUTree) (index : Nat) : Checked PLRUTree := mark id 64 index tree

/-- `touch`. -/
def touch (tree : PLRUTree) (index : Nat) : Checked PLRUTree := mark (!·) 64 index tree

/-- `reset`. -/
def reset (tree : PLRUTree) (index : Nat) : Checked PLRUTree := tree.touch index

/-- The loop of `getVictim`, for at most so many rounds. -/
def descend (tree : PLRUTree) : Nat → Nat → Checked Nat
  | 0, _ => panicWith "no end of the loop"
  | rounds + 1, index =>
    if index < tree.size then
      tree.descend rounds
        (if tree.bits index then rightSubtreeIndex index else leftSubtreeIndex index)
    else return index

/-- `getVictim`: the place of the victim among the candidates. -/
def getVictim (tree : PLRUTree) (numLeaves : Nat) : Checked Nat := do
  let index ← tree.descend 65 0
  return index - (numLeaves - 1)

/-! ## One loop -/

variable {tree next : PLRUTree} {k m x : Nat}

/-- The node `j + 1` levels above the leaf `m` points to the leaf. -/
def Points (tree : PLRUTree) (m j : Nat) : Prop := tree.bits (m / 2 ^ (j + 1) - 1) = m.testBit j

instance decidablePoints (tree : PLRUTree) (m : Nat) : DecidablePred (tree.Points m) :=
  fun _ => inferInstanceAs (Decidable (_ = _))

/-- The nodes above a leaf are assigned, from the direction in which the leaf lies. -/
structure Marked (value : Bool → Bool) (k m : Nat) (tree next : PLRUTree) : Prop where
  size : next.size = tree.size
  path : ∀ j < k, next.bits (m / 2 ^ (j + 1) - 1) = value (m.testBit j)
  other : ∀ index, (∀ j < k, index ≠ m / 2 ^ (j + 1) - 1) → next.bits index = tree.bits index

private theorem parentIndex_eq {index : Nat} (small : index < 2 ^ 54) :
    parentIndex index = (index - 1) / 2 := by
  rw [parentIndex, viaDouble, if_pos (by omega)]

/-- One round assigns the parent and goes on from there. -/
theorem mark_succ {value : Bool → Bool} {rounds : Nat} (above : 2 ≤ m) (exact : m < 2 ^ 54)
    (inside : m / 2 - 1 < tree.size) : mark value (rounds + 1) (m - 1) tree =
      let tree := { tree with bits := Function.update tree.bits (m / 2 - 1) (value (m.testBit 0)) }
      if m / 2 - 1 ≠ 0 then mark value rounds (m / 2 - 1) tree else .ok tree := by
  have parent : parentIndex (m - 1) = m / 2 - 1 := by
    rw [parentIndex_eq (by omega)]
    omega
  have right : isRightSubtree (m - 1) = m.testBit 0 := by
    rw [isRightSubtree, Nat.testBit_zero]
    exact decide_eq_decide.mpr (by omega)
  have allowed : panicIf (m / 2 - 1 ≥ tree.size) "std::out_of_range" = .ok () :=
    panicIf_eq_ok.mpr (Nat.not_le.mpr inside)
  simp only [mark, parent, right, set, allowed, ok_bind, pure_bind]
  rfl

/-- The induction is on the depth of the leaf: the first round assigns its parent, the others the
nodes above the parent. -/
theorem mark_ok {value : Bool → Bool} {rounds : Nat} (low : 2 ^ (k + 1) ≤ m)
    (high : m < 2 ^ (k + 2)) (exact : m < 2 ^ 54) (inside : m / 2 - 1 < tree.size)
    (enough : k < rounds) :
    ∃ next, mark value rounds (m - 1) tree = .ok next ∧ Marked value (k + 1) m tree next := by
  induction k generalizing m tree rounds with
  | zero =>
    obtain ⟨rounds, rfl⟩ : ∃ fewer, rounds = fewer + 1 := ⟨rounds - 1, by omega⟩
    rw [mark_succ (by omega) exact inside]
    dsimp only
    rw [if_neg (by omega)]
    refine ⟨_, rfl, rfl, fun j below => ?_, fun index off => ?_⟩
    · obtain rfl : j = 0 := by omega
      simp
    · exact Function.update_of_ne (by simpa using off 0 (by omega)) _ _
  | succ k ih =>
    obtain ⟨rounds, rfl⟩ : ∃ fewer, rounds = fewer + 1 := ⟨rounds - 1, by omega⟩
    have positive := Nat.two_pow_pos k
    rw [Nat.pow_succ, Nat.pow_succ] at low high
    have halved : ∀ j, m / 2 / 2 ^ (j + 1) = m / 2 ^ (j + 1 + 1) := fun j => by
      rw [Nat.div_div_eq_div_mul, ← Nat.pow_succ']
    have smaller : ∀ j, m / 2 / 2 ^ (j + 1) < m / 2 := fun j =>
      Nat.div_lt_self (by omega) (Nat.one_lt_two_pow (by omega))
    rw [mark_succ (by omega) exact inside]
    dsimp only
    rw [if_pos (by omega)]
    obtain ⟨next, marked, size, path, other⟩ := @ih
      { tree with bits := Function.update tree.bits (m / 2 - 1) (value (m.testBit 0)) } (m / 2)
        rounds
      (by omega) (by rw [Nat.pow_succ]; omega) (by omega) (by dsimp only; omega) (by omega)
    refine ⟨next, marked, size, fun j below => ?_, fun index off => ?_⟩
    · cases j with
      | zero =>
        rw [other _ fun j _ => ?_]
        · simp
        · have := smaller j
          omega
      | succ j =>
        rw [← halved, path j (by omega), Nat.testBit_succ]
    · rw [other index fun j below => halved j ▸ off (j + 1) (by omega)]
      exact Function.update_of_ne (by simpa using off 0 (by omega)) _ _

/-- From a node at height `e` the victim is the leaf below it that all nodes on its path point
to. -/
theorem descend_ok {d e rounds : Nat} (low : 2 ^ d ≤ m) (high : m < 2 ^ (d + 1))
    (sized : tree.size + 1 = 2 ^ (d + e)) (enough : e < rounds) :
    ∃ victim, tree.descend rounds (m - 1) = .ok (victim - 1) ∧ victim / 2 ^ e = m ∧
      ∀ x, x / 2 ^ e = m → (victim = x ↔ ∀ j < e, tree.Points x j) := by
  obtain ⟨rounds, rfl⟩ : ∃ fewer, rounds = fewer + 1 := ⟨rounds - 1, by omega⟩
  induction e generalizing m d rounds with
  | zero =>
    refine ⟨m, ?_, by simp, fun x below => ?_⟩
    · rw [descend, if_neg (by simp only [Nat.add_zero] at sized; omega)]
      rfl
    · simpa using below.symm
  | succ e ih =>
    have inside : m - 1 < tree.size := by
      have wider : 2 ^ (d + 1) ≤ 2 ^ (d + (e + 1)) := Nat.pow_le_pow_right (by decide) (by omega)
      have positive := Nat.two_pow_pos d
      omega
    obtain ⟨rounds, rfl⟩ : ∃ fewer, rounds = fewer + 1 := ⟨rounds - 1, by omega⟩
    have child :
        (if tree.bits (m - 1) then rightSubtreeIndex (m - 1) else leftSubtreeIndex (m - 1)) =
        2 * m + (tree.bits (m - 1)).toNat - 1 := by
      have positive := Nat.two_pow_pos d
      cases tree.bits (m - 1) <;> simp [rightSubtreeIndex, leftSubtreeIndex] <;> omega
    have bit := Bool.toNat_lt (tree.bits (m - 1))
    rw [Nat.pow_succ] at high
    obtain ⟨victim, found, above, exact⟩ := @ih (2 * m + (tree.bits (m - 1)).toNat) (d + 1)
      (by rw [Nat.pow_succ]; omega) (by rw [Nat.pow_succ, Nat.pow_succ]; omega)
      (by rw [sized]; congr 1; omega) rounds (by omega)
    refine ⟨victim, ?_, ?_, fun x below => ?_⟩
    · rw [descend, if_pos inside, child, found]
    · rw [Nat.pow_succ, ← Nat.div_div_eq_div_mul, above]
      omega
    · have half : x / 2 ^ e / 2 = m := by rwa [Nat.div_div_eq_div_mul, ← Nat.pow_succ]
      have last : tree.Points x e ↔ x / 2 ^ e = 2 * m + (tree.bits (m - 1)).toNat := by
        rw [Points, below, Nat.testBit_eq_decide_div_mod_eq]
        cases tree.bits (m - 1) <;> simp <;> omega
      rw [Nat.forall_lt_succ_right, last]
      by_cases here : x / 2 ^ e = 2 * m + (tree.bits (m - 1)).toNat
      · rw [and_iff_left here, exact x here]
      · refine iff_of_false ?_ fun points => here points.2
        rintro rfl
        exact here above

/-! ## A history -/

/-- A leaf of the tree with `2 ^ k` leaves. -/
def IsLeaf (k m : Nat) : Prop := 2 ^ k ≤ m ∧ m < 2 ^ (k + 1)

private theorem IsLeaf.div {j : Nat} (leaf : IsLeaf k m) (below : j < k) :
    (m / 2 ^ (j + 1)).log2 = k - (j + 1) ∧ 1 ≤ m / 2 ^ (j + 1) := by
  have positive := Nat.two_pow_pos (j + 1)
  have lower : 2 ^ (k - (j + 1)) ≤ m / 2 ^ (j + 1) := by
    rw [Nat.le_div_iff_mul_le positive, ← Nat.pow_add, Nat.sub_add_cancel below]
    exact leaf.1
  have upper : m / 2 ^ (j + 1) < 2 ^ (k - (j + 1) + 1) := by
    rw [Nat.div_lt_iff_lt_mul positive, ← Nat.pow_add]
    exact leaf.2.trans_eq (congrArg _ (by omega))
  have some_node := Nat.two_pow_pos (k - (j + 1))
  exact ⟨(Nat.log2_eq_iff (by omega)).mpr ⟨lower, upper⟩, by omega⟩

/-- The levels at which the path to a leaf points to it. -/
def towards (tree : PLRUTree) (k m : Nat) : Finset Nat :=
  (Finset.range k).filter (tree.Points m)

private theorem towards_marked (marked : Marked (!·) k m tree next) : next.towards k m = ∅ := by
  refine Finset.filter_eq_empty_iff.mpr fun j below => ?_
  rw [Points, marked.path j (Finset.mem_range.mp below)]
  simp

/-- Touching another leaf turns at most the node where the paths part. -/
theorem card_towards_marked (leaf : IsLeaf k x) (other : IsLeaf k m)
    (marked : Marked (!·) k m tree next) :
    (next.towards k x).card ≤ (tree.towards k x).card + 1 := by
  let parting := (Finset.range k).filter fun j =>
    x / 2 ^ (j + 1) = m / 2 ^ (j + 1) ∧ x.testBit j ≠ m.testBit j
  have single : parting.card ≤ 1 := by
    refine Finset.card_le_one.mpr fun i hi j hj => ?_
    obtain ⟨-, same, bit⟩ := Finset.mem_filter.mp hi
    obtain ⟨-, same', bit'⟩ := Finset.mem_filter.mp hj
    -- Below a common node the paths agree in all higher bits.
    have agree : ∀ {p q : Nat}, x / 2 ^ (p + 1) = m / 2 ^ (p + 1) → p < q →
        x.testBit q = m.testBit q := by
      intro p q common below
      have bits := congrArg (·.testBit (q - (p + 1))) common
      simpa only [Nat.testBit_div_two_pow, Nat.sub_add_cancel below] using bits
    rcases Nat.lt_trichotomy i j with less | equal | more
    · exact absurd (agree same less) bit'
    · exact equal
    · exact absurd (agree same' more) bit
  have covered : next.towards k x ⊆ tree.towards k x ∪ parting := by
    intro j listed
    obtain ⟨below, points⟩ := Finset.mem_filter.mp listed
    have inside := Finset.mem_range.mp below
    rw [Points] at points
    by_cases common : x / 2 ^ (j + 1) = m / 2 ^ (j + 1)
    · rw [common, marked.path j inside] at points
      refine Finset.mem_union_right _ (Finset.mem_filter.mpr ⟨below, common, ?_⟩)
      rw [← points]
      simp
    · refine Finset.mem_union_left _ (Finset.mem_filter.mpr ⟨below, ?_⟩)
      rwa [marked.other _ fun i inside' same => common ?_] at points
      obtain ⟨level, node⟩ := leaf.div inside
      obtain ⟨level', node'⟩ := other.div inside'
      have equal : x / 2 ^ (j + 1) = m / 2 ^ (i + 1) := by omega
      rw [equal, level'] at level
      obtain rfl : i = j := by omega
      exact equal
  have union := (Finset.card_le_card covered).trans (Finset.card_union_le _ _)
  omega

end PLRUTree

/-- The calls on an entry. -/
inductive Access where
  | touch
  | reset
  | invalidate
  deriving DecidableEq

open PLRUTree

/-- A call on the entry at a leaf, whose index `instantiateEntry` has chosen. -/
def perform (k : Nat) (tree : PLRUTree) (call : Access × Fin (2 ^ k)) : Checked PLRUTree :=
  let index := call.2.val + 2 ^ k - 1
  match call.1 with
  | .touch => tree.touch index
  | .reset => tree.reset index
  | .invalidate => tree.invalidate index

/-- The calls of a history on one tree. -/
def run (k : Nat) (history : List (Access × Fin (2 ^ k))) : Checked PLRUTree :=
  history.foldlM (perform k) (init (2 ^ k))

/-- What a call assigns on the path to its leaf. -/
def Access.value : Access → Bool → Bool
  | .touch | .reset => (!·)
  | .invalidate => id

section

variable {k : Nat} {tree : PLRUTree}

private theorem isLeaf (x : Fin (2 ^ k)) : IsLeaf k (x + 2 ^ k) := by
  have bound := x.isLt
  exact ⟨by omega, by omega⟩

private theorem perform_ok (positive : 1 ≤ k) (exact : k ≤ 53) (sized : tree.size + 1 = 2 ^ k)
    (call : Access × Fin (2 ^ k)) : ∃ next, perform k tree call = .ok next ∧
      next.size + 1 = 2 ^ k ∧ Marked call.1.value k (call.2 + 2 ^ k) tree next := by
  obtain ⟨k, rfl⟩ : ∃ less, k = less + 1 := ⟨k - 1, by omega⟩
  obtain ⟨kind, x⟩ := call
  obtain ⟨low, high⟩ := isLeaf x
  have room : 2 ^ (k + 1 + 1) ≤ 2 ^ 54 := Nat.pow_le_pow_right (by decide) (by omega)
  obtain ⟨next, marked, result⟩ := @mark_ok tree k (x + 2 ^ (k + 1)) kind.value 64 low high
    (by omega) (by omega) (by omega)
  refine ⟨next, ?_, by rw [result.size, sized], result⟩
  cases kind <;> exact marked

private theorem run_ok (positive : 1 ≤ k) (exact : k ≤ 53) (history : List (Access × Fin (2 ^ k)))
    (sized : tree.size + 1 = 2 ^ k) :
    ∃ next, history.foldlM (perform k) tree = .ok next ∧ next.size + 1 = 2 ^ k := by
  induction history generalizing tree with
  | nil => exact ⟨tree, rfl, sized⟩
  | cons call rest ih =>
    obtain ⟨middle, first, sized, -⟩ := perform_ok positive exact sized call
    obtain ⟨next, others, last⟩ := ih sized
    exact ⟨next, by rw [List.foldlM_cons, first, ok_bind, others], last⟩

private theorem getVictim_ok (exact : k ≤ 53) (sized : tree.size + 1 = 2 ^ k) :
    ∃ victim : Fin (2 ^ k), tree.getVictim (2 ^ k) = .ok victim ∧
      ∀ x : Fin (2 ^ k), victim = x ↔ ∀ j < k, tree.Points (x + 2 ^ k) j := by
  obtain ⟨leaf, found, above, exact⟩ := @descend_ok tree 1 0 k 65 (by simp) (by simp)
    (by simpa using sized) (by omega)
  have range : IsLeaf k leaf := by
    have bounds := (Nat.div_eq_iff (Nat.two_pow_pos k)).mp above
    exact ⟨by omega, by omega⟩
  have root : ∀ x : Fin (2 ^ k), (x.val + 2 ^ k) / 2 ^ k = 1 := fun x => by
    rw [Nat.add_div_right _ (Nat.two_pow_pos k), Nat.div_eq_of_lt x.isLt]
  obtain ⟨low, high⟩ := range
  rw [Nat.pow_succ] at high
  refine ⟨⟨leaf - 2 ^ k, by omega⟩, ?_, fun x => ?_⟩
  · have positive := Nat.two_pow_pos k
    simp only [getVictim, found, ok_bind]
    exact congrArg Except.ok (by omega)
  · rw [← exact _ (root x), Fin.ext_iff]
    dsimp only
    omega

/-- Touches of other leaves turn one node each towards the leaf. -/
theorem card_towards_run (positive : 1 ≤ k) (exact : k ≤ 53) {x : Fin (2 ^ k)}
    {others : List (Access × Fin (2 ^ k))} {next : PLRUTree} (sized : tree.size + 1 = 2 ^ k)
    (touches : ∀ call ∈ others, call.1 ≠ .invalidate)
    (ran : others.foldlM (perform k) tree = .ok next) :
    (next.towards k (x + 2 ^ k)).card ≤ (tree.towards k (x + 2 ^ k)).card + others.length := by
  induction others generalizing tree with
  | nil =>
    obtain rfl := Except.ok.inj ran
    simp
  | cons call rest ih =>
    obtain ⟨middle, first, sized, marked⟩ := perform_ok positive exact sized call
    have kind := touches call (by simp)
    have touched : call.1.value = (!·) := by
      cases same : call.1 <;> simp_all [Access.value]
    rw [List.foldlM_cons, first, ok_bind] at ran
    have later := ih sized (fun call listed => touches call (by simp [listed])) ran
    have now := card_towards_marked (isLeaf x) (isLeaf call.2) (touched ▸ marked)
    rw [List.length_cons]
    omega

end

/-- After any history the victim is a leaf; it is the leaf that was invalidated last, and not one
that was touched or reset with fewer than `k` touches of others since. -/
theorem victim_guarantees {k : Nat} (positive : 1 ≤ k) (exact : k ≤ 53)
    (history : List (Access × Fin (2 ^ k))) :
    (∃ tree, run k history = .ok tree ∧ ∃ victim : Fin (2 ^ k),
      tree.getVictim (2 ^ k) = .ok victim) ∧
    (∀ x : Fin (2 ^ k), ∃ tree, run k (history ++ [(.invalidate, x)]) = .ok tree ∧
      tree.getVictim (2 ^ k) = .ok x.val) ∧
    ∀ kind ≠ Access.invalidate, ∀ (x : Fin (2 ^ k)) (others : List (Access × Fin (2 ^ k))),
      others.length < k → (∀ call ∈ others, call.1 ≠ .invalidate ∧ call.2 ≠ x) →
      ∃ tree, ∃ victim : Fin (2 ^ k), run k (history ++ (kind, x) :: others) = .ok tree ∧
        tree.getVictim (2 ^ k) = .ok victim.val ∧ victim ≠ x := by
  have size : (init (2 ^ k)).size + 1 = 2 ^ k := Nat.sub_add_cancel (Nat.two_pow_pos k)
  obtain ⟨tree, ran, sized⟩ := run_ok positive exact history size
  refine ⟨⟨tree, ran, ?_⟩, fun x => ?_, fun kind touches x others few apart => ?_⟩
  · obtain ⟨victim, found, -⟩ := getVictim_ok exact sized
    exact ⟨victim, found⟩
  · obtain ⟨next, called, sized', marked⟩ := perform_ok positive exact sized (.invalidate, x)
    obtain ⟨victim, found, unique⟩ := getVictim_ok exact sized'
    obtain rfl := (unique x).mpr fun j below => marked.path j below
    refine ⟨next, ?_, found⟩
    rw [run, List.foldlM_append, show history.foldlM _ _ = _ from ran, ok_bind]
    simpa using called
  · obtain ⟨middle, called, sized', marked⟩ := perform_ok positive exact sized (kind, x)
    obtain ⟨next, later, sized''⟩ := run_ok positive exact others sized'
    obtain ⟨victim, found, unique⟩ := getVictim_ok exact sized''
    refine ⟨next, victim, ?_, found, fun same => ?_⟩
    · rw [run, List.foldlM_append, show history.foldlM _ _ = _ from ran, ok_bind,
        List.foldlM_cons, called, ok_bind, later]
    · have all : next.towards k (x + 2 ^ k) = Finset.range k :=
        Finset.filter_true_of_mem fun j below =>
          (unique x).mp same j (Finset.mem_range.mp below)
      have touched : kind.value = (!·) := by cases kind <;> simp_all [Access.value]
      have bound := card_towards_run (x := x) positive exact sized'
        (fun call listed => (apart call listed).1) later
      rw [all, towards_marked (touched ▸ marked), Finset.card_range] at bound
      rw [Finset.card_empty] at bound
      omega

/-- With four leaves, a leaf that was touched is no victim after one touch of its neighbour. -/
theorem victim_guarantees_four : ∃ tree, ∃ victim : Fin (2 ^ 2),
    run 2 [(.touch, 0), (.touch, 1)] = .ok tree ∧ tree.getVictim (2 ^ 2) = .ok victim.val ∧
      victim ≠ 0 :=
  (victim_guarantees (k := 2) (by decide) (by decide) []).2.2 .touch (by decide) 0 [(.touch, 1)]
    (by decide) (by decide)

/-- The parent of leaf 5 of `2 ^ 54` has the index `2 ^ 53 + 1`, which no `double` represents: the
calls assign another path, and the victim is not the leaf that was invalidated. The parameter
`num_leaves` is an `int`, so no simulated tree is that large. -/
theorem invalidate_rounds_parent : ∃ tree, run 54 [(.invalidate, ⟨5, by decide⟩)] = .ok tree ∧
    ∃ victim, tree.getVictim (2 ^ 54) = .ok victim ∧ victim ≠ 5 := by
  decide +kernel

end Gem5.ReplacementPolicy
