import Gem5.Mem.StackDistTree

/-!
# Adding and removing leaves

The whole tree is sound for the leaves it holds, and stays so when the tree grows by a
layer, when a leaf is added and when a leaf is removed.  The distance that comes back is
the number of leaves on the right of the leaf that was looked up.
-/

namespace Gem5.StackDistCalc

open Foundation

/-- Every layer above the leaves is sound, and there are no more layers than needed. -/
structure TreeSound (live gone : Nat → Bool) (m : Nat) (calculator : StackDistCalc) : Prop where
  layers : 2 ≤ calculator.layers
  room : m ≤ 2 ^ calculator.getTreeDepth
  tight : calculator.getTreeDepth = 1 ∨ 2 ^ (calculator.getTreeDepth - 1) < m
  layer : ∀ l < calculator.getTreeDepth, LayerSound live gone calculator.getTreeDepth m calculator l

section

variable {live gone live' gone' : Nat → Bool} {m n k : Nat} {calculator : StackDistCalc}

private theorem TreeSound.depth_pos (sound : TreeSound live gone m calculator) :
    0 < calculator.getTreeDepth := by
  have := sound.layers
  unfold getTreeDepth
  omega

private theorem TreeSound.depth_le (sound : TreeSound live gone m calculator) (few : m ≤ 2 ^ 31) :
    calculator.getTreeDepth ≤ 31 := by
  rcases sound.tight with one | tight
  · omega
  · have := (Nat.pow_lt_pow_iff_right (by omega)).mp (lt_of_lt_of_le tight few)
    omega

private theorem isPowerOf2_iff : isPowerOf2 n = true ↔ ∃ e, n = 2 ^ e := by
  unfold isPowerOf2
  by_cases zero : n = 0
  · subst zero
    simp only [bne_self_eq_false, Bool.false_and, Bool.false_eq_true, false_iff, not_exists]
    intro e same
    exact absurd (Nat.two_pow_pos e) (by omega)
  · rw [Bool.and_eq_true, beq_iff_eq, bne_iff_ne, Nat.and_sub_one_eq_zero_iff_isPowerOfTwo zero]
    exact ⟨fun h => h.2, fun h => ⟨zero, h⟩⟩

/-- With a new layer above, the old root gets its parent. -/
theorem NodeSound.raise {depth l q : Nat} {node : Node}
    (sound : NodeSound live gone depth l q node) (inner : l + 1 ≠ depth) (below : l < depth) :
    NodeSound live gone (depth + 1) l q node :=
  { sound with parent := by rw [sound.parent, if_neg inner, if_neg (by omega)] }

/-- The calculators differ in the tree only. -/
structure SameRest (before after : StackDistCalc) : Prop where
  index : after.index = before.index
  aiMap : after.aiMap = before.aiMap
  stack : after.stack = before.stack
  verifyStack : after.verifyStack = before.verifyStack

/-- The calculators differ in the inner nodes of the tree only. -/
structure SameLeaves (before after : StackDistCalc) : Prop extends SameRest before after where
  leaves : after.tree 0 = before.tree 0

/-- `addRoot` when the tree is full: the new layer has room for the next leaf. -/
theorem addRoot_ok {d : Nat} (depth : calculator.getTreeDepth = d + 1)
    (sound : TreeSound live gone (2 ^ (d + 1)) calculator)
    (none : ∀ j, 2 ^ (d + 1) ≤ j → live j = false) :
    ∃ raised, calculator.addRoot = .ok raised ∧ SameLeaves calculator raised ∧
      raised.layers = calculator.layers + 1 ∧
      (∀ l < d + 1, LayerSound live gone (d + 2) (2 ^ (d + 1)) raised l) ∧
      LayerSound live gone (d + 2) (2 ^ (d + 1) + 1) raised (d + 1) := by
  have layers := sound.layer
  rw [depth] at layers
  obtain ⟨old, entry, describes⟩ := (layers d (Nat.lt_succ_self d)).node 0 (.inr ⟨rfl, rfl⟩)
  unfold addRoot
  simp only [depth]
  rw [deref_of entry, ok_bind]
  refine ⟨_, rfl, ⟨⟨rfl, rfl, rfl, rfl⟩, ?_⟩, rfl, fun l below => ?_, ?_⟩
  · funext i
    simp [setEntry]
  · refine ⟨fun q needed => ?_, ?_⟩
    · have started : q * 2 ^ (l + 1) < 2 ^ (d + 1) ∧ ¬AllGone gone (l + 1) q := by
        rcases needed with started | ⟨top, -⟩
        · exact started
        · omega
      by_cases root : l = d
      · -- the old root is the only node of its layer
        subst root
        have first : q = 0 := by
          by_contra other
          have := Nat.le_mul_of_pos_left (2 ^ (l + 1)) (Nat.pos_of_ne_zero other)
          omega
        subst first
        refine ⟨_, setEntry_same, describes.sumLeft, describes.sumRight, describes.discardLeft,
          describes.discardRight, describes.nodeIndex, ?_, describes.isLeftNode⟩
        rw [if_neg (by omega)]
      · obtain ⟨node, at_, nodeSound⟩ := (layers l below).node q (.inl started)
        refine ⟨node, ?_, nodeSound.raise (by omega) below⟩
        exact (setEntry_other (.inl (by omega))).trans
          ((setEntry_other (.inl (by omega))).trans at_)
    · exact (if_neg (by omega)).trans (layers l below).nextIndex
  · refine ⟨fun q needed => ?_, ?_⟩
    · have first : q = 0 := by
        rcases needed with ⟨started, -⟩ | ⟨-, zero⟩
        · by_contra other
          have blocks := Nat.le_mul_of_pos_left (2 ^ (d + 1 + 1)) (Nat.pos_of_ne_zero other)
          have : 1 < 2 ^ (d + 1) := Nat.one_lt_two_pow (by omega)
          omega
        · exact zero
      subst first
      refine ⟨_, (setEntry_other (.inl (by omega))).trans setEntry_same, ?_, ?_, ?_, by simp, rfl,
        by simp, rfl⟩
      · simp only [describes.sumLeft, describes.sumRight]
        rw [Nat.mul_zero, blockCount_succ, Nat.mul_zero, Nat.add_comm]
      · refine (blockCount_eq_zero fun j inside => none j ?_).symm
        simpa using (inBlock_iff.mp inside).1
      · intro flag
        simp only [Bool.and_eq_true] at flag
        exact .halves (describes.discardLeft flag.1) (describes.discardRight flag.2)
    · refine (if_pos rfl).trans ?_
      rw [Nat.add_sub_cancel, Nat.div_eq_of_lt (Nat.pow_lt_pow_right (by omega) (by omega))]

/-- A full tree has as many leaves as its depth says. -/
theorem TreeSound.full {d : Nat} (sound : TreeSound live gone n calculator)
    (depth : calculator.getTreeDepth = d + 1) (even : n % 2 = 0)
    (power : isPowerOf2 n = true) : n = 2 ^ (d + 1) := by
  have room := sound.room
  have tight := sound.tight
  rw [depth] at room tight
  obtain ⟨e, rfl⟩ := isPowerOf2_iff.mp power
  have upper := (Nat.pow_le_pow_iff_right (by omega)).mp room
  have positive : e ≠ 0 := by
    rintro rfl
    omega
  congr 1
  rcases tight with one | tight
  · omega
  · have lower := (Nat.pow_lt_pow_iff_right (by omega)).mp tight
    omega

/-- OP1 of `updateTree`: the tree is full. -/
theorem updateTree_full {d : Nat} (depth : calculator.getTreeDepth = d + 1)
    (sound : TreeSound live gone (2 ^ (d + 1)) calculator)
    (isIndex : calculator.index = 2 ^ (d + 1))
    (none : ∀ j, 2 ^ (d + 1) ≤ j → live j = false) (fresh : gone (2 ^ (d + 1)) = false) :
    ∃ grown, calculator.updateTree = .ok grown ∧ SameLeaves calculator grown ∧
      TreeSound live gone (2 ^ (d + 1) + 1) grown := by
  obtain ⟨raised, isRaised, same, layers, lower, top⟩ := addRoot_ok depth sound none
  have depth' : raised.getTreeDepth = d + 2 := by
    have := sound.layers
    unfold getTreeDepth at depth ⊢
    omega
  have due : ∀ l < d + 1, (pure true : Checked Bool) = .ok (2 ^ (d + 1) % 2 ^ (l + 1) == 0) := by
    intro l below
    rw [Nat.mod_eq_zero_of_dvd (Nat.pow_dvd_pow 2 (by omega))]
    rfl
  obtain ⟨tree, nextIndex, result, leaves, all⟩ := addINodes_ok none fresh (Nat.two_pow_pos _)
    (fun _ => pure true) (d + 1) raised (Nat.lt_succ_self _) due lower (fun l from_ upTo => by
      obtain rfl : l = d + 1 := by omega
      exact top)
  unfold updateTree
  rw [isIndex, if_pos (isPowerOf2_iff.mpr ⟨_, rfl⟩), isRaised, ok_bind, depth']
  have depth'' : ({ raised with tree := tree, nextIndex := nextIndex } :
    StackDistCalc).getTreeDepth = d + 2 := depth'
  refine ⟨_, result, ⟨⟨same.index, same.aiMap, same.stack, same.verifyStack⟩,
    leaves.trans same.leaves⟩, ?_, ?_, ?_, ?_⟩
  · have := sound.layers
    simp only [layers]
    omega
  · rw [depth'', Nat.pow_succ 2 (d + 1)]
    have := Nat.two_pow_pos (d + 1)
    omega
  · rw [depth'']
    exact .inr (Nat.lt_succ_self _)
  · rw [depth'']
    exact all

/-- OP2 of `updateTree`: there is room below the root. -/
theorem updateTree_partly {d : Nat} (depth : calculator.getTreeDepth = d + 1)
    (sound : TreeSound live gone n calculator) (isIndex : calculator.index = n)
    (power : isPowerOf2 n = false) (few : n < 2 ^ 31) (none : ∀ j, n ≤ j → live j = false)
    (fresh : gone n = false) :
    ∃ grown, calculator.updateTree = .ok grown ∧ SameLeaves calculator grown ∧
      TreeSound live gone (n + 1) grown := by
  have layers := sound.layer
  have room := sound.room
  have tight := sound.tight
  rw [depth] at layers room tight
  have partly : n < 2 ^ (d + 1) := by
    refine lt_of_le_of_ne room fun same => ?_
    rw [isPowerOf2_iff.mpr ⟨_, same⟩] at power
    cases power
  unfold updateTree
  rw [isIndex, if_neg (by simp [power]), depth, Nat.add_sub_cancel]
  by_cases zero : n = 0
  · -- the first leaf: the constructor has made its parent
    subst zero
    obtain rfl : d = 0 := by
      rcases tight with one | tight
      · omega
      · exact absurd tight (Nat.not_lt_zero _)
    refine ⟨calculator, rfl, ⟨⟨rfl, rfl, rfl, rfl⟩, rfl⟩, sound.layers, ?_, .inl depth, ?_⟩
    · rw [depth]
      decide
    · rw [depth]
      intro l below
      obtain rfl : l = 0 := by omega
      refine ⟨fun q needed => (layers 0 below).node q (.inr ⟨rfl, ?_⟩), (layers 0 below).nextIndex⟩
      rcases needed with ⟨started, -⟩ | ⟨-, isFirst⟩
      · omega
      · exact isFirst
  · have positive : 0 < n := Nat.pos_of_ne_zero zero
    have depthSmall := sound.depth_le (by omega)
    rw [depth] at depthSmall
    have due : ∀ l < d, (do
        let period ← shiftOne (l + 1)
        pure (n % period == 0) : Checked Bool) = .ok (n % 2 ^ (l + 1) == 0) := by
      intro l below
      have shift : shiftOne (l + 1) = .ok (2 ^ (l + 1)) := shiftOne_eq_ok.mpr ⟨by omega, rfl⟩
      simp only [shift, ok_bind]
      rfl
    obtain ⟨tree, nextIndex, result, leaves, all⟩ := addINodes_ok none fresh positive (fun i => do
        let period ← shiftOne i
        pure (n % period == 0)) d calculator (Nat.lt_succ_self d) due
      (fun l below => layers l (by omega))
      (fun l from_ upTo => by
        obtain rfl : l = d := by omega
        refine (layers l upTo).room positive ?_
        rw [Nat.mod_eq_of_lt partly]
        exact zero)
    have depth' : ({ calculator with tree := tree, nextIndex := nextIndex } :
      StackDistCalc).getTreeDepth = d + 1 := depth
    refine ⟨_, result, ⟨⟨rfl, rfl, rfl, rfl⟩, leaves⟩, sound.layers, ?_, ?_, ?_⟩
    · rw [depth']
      exact partly
    · rw [depth']
      exact tight.imp_right fun more => Nat.lt_succ_of_lt more
    · rw [depth']
      exact all

/-- The tree gets room for the next leaf: by `updateTree` for a left leaf, and below the
parent of the last leaf for a right one. -/
theorem makeRoom_ok (sound : TreeSound live gone n calculator) (isIndex : calculator.index = n)
    (few : n < 2 ^ 31) (none : ∀ j, n ≤ j → live j = false) (fresh : gone n = false) :
    ∃ grown, (if calculator.index % 2 = 0 then calculator.updateTree else pure calculator) =
        .ok grown ∧ SameLeaves calculator grown ∧ TreeSound live gone (n + 1) grown := by
  obtain ⟨d, depth⟩ : ∃ d, calculator.getTreeDepth = d + 1 :=
    ⟨calculator.getTreeDepth - 1, by have := sound.depth_pos; omega⟩
  rw [isIndex]
  by_cases even : n % 2 = 0
  · rw [if_pos even]
    cases power : isPowerOf2 n with
    | true =>
      obtain rfl := sound.full depth even power
      exact updateTree_full depth sound isIndex none fresh
    | false => exact updateTree_partly depth sound isIndex power few none fresh
  · rw [if_neg even]
    have notDue : ∀ l, n % 2 ^ (l + 1) ≠ 0 := by
      intro l zero
      have two : 2 ∣ n := (dvd_pow_self 2 (Nat.succ_ne_zero l)).trans (Nat.dvd_of_mod_eq_zero zero)
      omega
    refine ⟨calculator, rfl, ⟨⟨rfl, rfl, rfl, rfl⟩, rfl⟩, sound.layers, ?_, ?_, fun l below => ?_⟩
    · refine lt_of_le_of_ne sound.room fun same => notDue d ?_
      rw [same, depth]
      exact Nat.mod_self _
    · exact sound.tight.imp_right fun more => Nat.lt_succ_of_lt more
    · exact (sound.layer l below).room (by omega) (notDue l)

/-- The inner tree depends on its layers only. -/
theorem TreeSound.congr {other : StackDistCalc} (sound : TreeSound live gone m calculator)
    (tree : ∀ l, other.tree (l + 1) = calculator.tree (l + 1))
    (nextIndex : ∀ l, other.nextIndex (l + 1) = calculator.nextIndex (l + 1))
    (layers : other.layers = calculator.layers) : TreeSound live gone m other := by
  have depth : other.getTreeDepth = calculator.getTreeDepth := by
    unfold getTreeDepth
    rw [layers]
  refine ⟨layers ▸ sound.layers, depth ▸ sound.room, depth ▸ sound.tight, ?_⟩
  rw [depth]
  exact fun l below => (sound.layer l below).congr (tree l) (nextIndex l)

/-- A leaf is linked to the node above it. -/
structure LeafSound (k : Nat) (leaf : Node) : Prop where
  isLeftNode : leaf.isLeftNode = (k % 2 == 0)
  parent : leaf.parent = some ⟨1, k / 2⟩

private theorem LeafSound.parentOf {leaf : Node} (sound : LeafSound k leaf) :
    parentOf leaf = .ok ⟨1, k / 2⟩ := by
  unfold StackDistCalc.parentOf
  rw [sound.parent]

/-- `updateSumsLeavesToRoot` for a leaf that comes or goes. -/
theorem updateSumsLeavesToRoot_ok {leaf : Node} (isNewLeaf : Bool)
    (sound : TreeSound live gone m calculator) (few : m ≤ 2 ^ 31)
    (moves : Moves live gone live' gone' k) (fresh : gone k = false) (below : k < m)
    (isLive : live' k = isNewLeaf) (isGone : isNewLeaf = false → gone' k = true)
    (entry : calculator.tree 0 k = some leaf) (linked : LeafSound k leaf) :
    ∃ updated, calculator.updateSumsLeavesToRoot ⟨0, k⟩ isNewLeaf =
        .ok (updated, if isNewLeaf then infinity else rightOf live' calculator.getTreeDepth k) ∧
      SameRest calculator updated ∧
      updated.tree 0 = (fun j => if j = k then
        some { leaf with sumLeft := if isNewLeaf then 1 else 0 } else calculator.tree 0 j) ∧
      updated.getTreeDepth = calculator.getTreeDepth ∧ TreeSound live' gone' m updated := by
  set changed := calculator.setEntry 0 k
    (some { leaf with sumLeft := if isNewLeaf then 1 else 0 }) with isChanged
  have sum : (if isNewLeaf then 1 else 0) = blockCount live' 0 (k / 2 ^ 0) := by
    simp [isLive]
  have side : leaf.isLeftNode = (k / 2 ^ 0 % 2 == 0) := by
    rw [linked.isLeftNode, Nat.pow_zero, Nat.div_one]
  have start : (0 : Nat) = rightOf live' 0 k := rightOf_zero.symm
  obtain ⟨tree, result, leaves, all⟩ := updateSum_ok moves fresh below changed.layers 0 changed
    (!isNewLeaf) sound.depth_pos (by unfold getTreeDepth; simp [isChanged, setEntry])
    (fun _ => sound.depth_le few) (by simp)
    (fun i _ upTo => (sound.layer i upTo).congr (setEntry_layer (by omega)) rfl)
    (fun flag j inside => by
      have same : j = k := by
        unfold InBlock at inside
        simpa using inside
      rw [same]
      exact isGone (by simpa using flag))
  rw [← sum, ← side, ← start, Nat.zero_add, Nat.pow_one] at result
  refine ⟨{ changed with tree := tree }, ?_, ⟨rfl, rfl, rfl, rfl⟩, ?_, rfl, sound.layers,
    sound.room, sound.tight, all⟩
  · unfold updateSumsLeavesToRoot
    rw [deref_of entry, ok_bind, linked.parentOf]
    simp only [ok_bind]
    rw [result]
    rfl
  · rw [show ({ changed with tree := tree } : StackDistCalc).tree 0 = changed.tree 0 from leaves]
    funext j
    simp [isChanged, setEntry]

end

/-- The leaf of this number is in the tree. -/
def isLive (calculator : StackDistCalc) (j : Nat) : Bool :=
  (calculator.tree 0 j).isSome

/-- The leaf of this number has been removed. -/
def isGone (calculator : StackDistCalc) (j : Nat) : Bool :=
  j < calculator.index && !calculator.isLive j

/-- The tree is sound for the leaves it holds. -/
structure LeavesSound (calculator : StackDistCalc) : Prop where
  tree : TreeSound calculator.isLive calculator.isGone calculator.index calculator
  leaf : ∀ k leaf, calculator.tree 0 k = some leaf → k < calculator.index ∧ LeafSound k leaf

/-- The empty tree is sound. -/
theorem start_leavesSound (verifyStack : Bool) : LeavesSound (start verifyStack) where
  tree := by
    refine ⟨le_rfl, Nat.zero_le _, .inl rfl, fun l below => ?_⟩
    obtain rfl : l = 0 := Nat.lt_one_iff.mp below
    refine ⟨fun q needed => ?_, by simp [start]⟩
    obtain rfl : q = 0 := by
      rcases needed with ⟨started, -⟩ | ⟨-, zero⟩
      · exact absurd started (Nat.not_lt_zero _)
      · exact zero
    refine ⟨{}, rfl, ?_, ?_, by simp, by simp, rfl, rfl, rfl⟩
    · exact (blockCount_eq_zero fun j _ => by simp [isLive, start]).symm
    · exact (blockCount_eq_zero fun j _ => by simp [isLive, start]).symm
  leaf := by simp [start]

namespace LeavesSound

variable {k : Nat} {calculator : StackDistCalc} {leaf : Node}

private theorem isLive_of_le (sound : LeavesSound calculator) {j : Nat}
    (below : calculator.index ≤ j) :
    calculator.isLive j = false := by
  unfold isLive
  cases entry : calculator.tree 0 j with
  | none => rfl
  | some leaf =>
    have := (sound.leaf j leaf entry).1
    omega

/-- A leaf of the tree is not gone. -/
theorem isGone_of_entry (entry : calculator.tree 0 k = some leaf) :
    calculator.isGone k = false := by
  simp [isGone, isLive, entry]

variable (sound : LeavesSound calculator)

include sound

/-- The leaves on the right of a leaf within the whole tree. -/
theorem rightOf_eq (entry : calculator.tree 0 k = some leaf) :
    rightOf calculator.isLive calculator.getTreeDepth k =
      countIn calculator.isLive (k + 1) calculator.index := by
  have below := (sound.leaf k leaf entry).1
  have room := sound.tree.room
  unfold rightOf
  rw [Nat.div_eq_of_lt (lt_of_lt_of_le below room), Nat.zero_add, Nat.one_mul,
    countIn_add below room, countIn_eq_zero fun j least _ => sound.isLive_of_le least, Nat.add_zero]

/-- A removed leaf leaves a sound tree, and the leaves on its right are its distance. -/
theorem removeLeaf_ok (few : calculator.index ≤ 2 ^ 31) (entry : calculator.tree 0 k = some leaf) :
    ∃ removed, calculator.removeLeaf k =
        .ok (removed, countIn calculator.isLive (k + 1) calculator.index, leaf.isMarked) ∧
      SameRest calculator removed ∧
      removed.tree 0 = (fun j => if j = k then none else calculator.tree 0 j) ∧
      LeavesSound removed := by
  obtain ⟨below, linked⟩ := sound.leaf k leaf entry
  have moves : Moves calculator.isLive calculator.isGone
      (fun j => if j = k then false else calculator.isLive j)
      (fun j => if j = k then true else calculator.isGone j) k :=
    ⟨fun j other => if_neg other, fun j other => if_neg other, fun _ => if_pos rfl⟩
  obtain ⟨updated, walked, rest, leaves, depth, tree⟩ := updateSumsLeavesToRoot_ok false
    sound.tree few moves (isGone_of_entry entry) below (if_pos rfl) (fun _ => if_pos rfl) entry
    linked
  have entry' : updated.tree 0 k = some { leaf with sumLeft := 0 } := by
    rw [leaves]
    simp
  have dist : rightOf (fun j => if j = k then false else calculator.isLive j)
      calculator.getTreeDepth k = countIn calculator.isLive (k + 1) calculator.index := by
    rw [← sound.rightOf_eq entry]
    exact rightOf_congr fun j other => if_neg other
  set removed := updated.setEntry 0 k none with isRemoved
  have leaves' : removed.tree 0 = fun j => if j = k then none else calculator.tree 0 j := by
    funext j
    by_cases same : j = k
    · simp [isRemoved, same]
    · rw [isRemoved, setEntry_other (.inr same), leaves]
      simp [same]
  have index : removed.index = calculator.index := rest.index
  refine ⟨removed, ?_, ⟨index, rest.aiMap, rest.stack, rest.verifyStack⟩, leaves', ?_, ?_⟩
  · unfold removeLeaf
    rw [walked, ok_bind]
    simp only [Bool.false_eq_true, if_false, dist]
    rw [deref_of entry', ok_bind]
    rfl
  · have nowLive : removed.isLive = fun j => if j = k then false else calculator.isLive j := by
      funext j
      unfold isLive
      rw [leaves']
      by_cases same : j = k <;> simp [same]
    have nowGone : removed.isGone = fun j => if j = k then true else calculator.isGone j := by
      funext j
      unfold isGone
      rw [nowLive, index]
      by_cases same : j = k <;> simp [same, below]
    rw [nowLive, nowGone, index]
    exact tree.congr (fun l => setEntry_layer (by omega)) (fun _ => rfl) rfl
  · intro j other at_
    rw [index]
    rw [leaves'] at at_
    by_cases same : j = k
    · simp [same] at at_
    · simp only [same, if_false] at at_
      exact sound.leaf j other at_

/-- A new leaf is linked into a sound tree. -/
theorem addLeaf_ok (few : calculator.index < 2 ^ 31) :
    ∃ added leaf, calculator.addLeaf = .ok added ∧ SameRest calculator added ∧
      added.tree 0 = (fun j => if j = calculator.index then some leaf else calculator.tree 0 j) ∧
      leaf.isMarked = false ∧ added.sanityCheckTree ⟨0, calculator.index⟩ = .ok () ∧
      LeavesSound { added with index := added.index + 1 } := by
  set n := calculator.index with isIndex
  have fresh : calculator.isGone n = false := by simp [isGone, isIndex]
  obtain ⟨grown, isGrown, same, tree⟩ := makeRoom_ok sound.tree isIndex.symm few
    (fun j least => sound.isLive_of_le least) fresh
  obtain ⟨parent, above, -⟩ := (tree.layer 0 tree.depth_pos).above fresh (Nat.lt_succ_self n)
  have last : grown.nextIndex 1 - 1 = n / 2 := by
    have := (tree.layer 0 tree.depth_pos).nextIndex
    simp only [Nat.zero_add, Nat.pow_one, Nat.add_sub_cancel] at this
    omega
  have grownIndex : grown.index = n := same.index
  set leaf : Node :=
    { nodeIndex := n, isLeftNode := n % 2 == 0, parent := some ⟨1, n / 2⟩ } with isLeaf
  set linked : StackDistCalc := { grown.setEntry 0 n (some leaf) with
    nextIndex := fun l => if l = 0 then grown.nextIndex 0 + 1 else grown.nextIndex l } with isLinked
  have moves : Moves calculator.isLive calculator.isGone
      (fun j => if j = n then true else calculator.isLive j) calculator.isGone n :=
    ⟨fun j other => if_neg other, fun _ _ => rfl, id⟩
  have tree' : TreeSound calculator.isLive calculator.isGone (n + 1) linked := by
    refine tree.congr (fun l => ?_) (fun l => ?_) rfl
    · funext i
      simp [isLinked, setEntry]
    · simp [isLinked]
  have entry : linked.tree 0 n = some leaf := setEntry_same
  obtain ⟨added, walked, rest, leaves, -, sums⟩ := updateSumsLeavesToRoot_ok true tree'
    (by omega) moves fresh (Nat.lt_succ_self n) (if_pos rfl) (by simp) entry ⟨rfl, rfl⟩
  have leaves' : added.tree 0 =
      fun j => if j = n then some { leaf with sumLeft := 1 } else calculator.tree 0 j := by
    rw [leaves]
    funext j
    by_cases isNew : j = n
    · simp [isNew]
    · simp only [isNew, if_false]
      rw [← same.leaves]
      exact setEntry_other (.inr isNew)
  have index' : added.index = n := rest.index.trans grownIndex
  have nowLive : ({ added with index := added.index + 1 } : StackDistCalc).isLive =
      fun j => if j = n then true else calculator.isLive j := by
    funext j
    unfold isLive
    simp only [leaves']
    by_cases isNew : j = n <;> simp [isNew]
  have nowGone : ({ added with index := added.index + 1 } : StackDistCalc).isGone =
      calculator.isGone := by
    funext j
    unfold isGone
    rw [nowLive, index', ← isIndex]
    by_cases isNew : j = n
    · simp [isNew]
    · have : (j < n + 1) = (j < n) := by
        rw [eq_iff_iff]
        omega
      simp [isNew, this]
  refine ⟨added, { leaf with sumLeft := 1 }, ?_, ?_, leaves', rfl, ?_, ?_, ?_⟩
  · unfold addLeaf nodeAt
    simp only []
    rw [isGrown, ok_bind, last,
      deref_of (show grown.tree 1 (n / 2) = some parent by simpa using above), ok_bind]
    simp only [pure_bind, grownIndex]
    rw [← isLeaf, ← isLinked, show linked.index = n from grownIndex, walked]
    rfl
  · exact ⟨rest.index.trans same.index, rest.aiMap.trans same.aiMap, rest.stack.trans same.stack,
      rest.verifyStack.trans same.verifyStack⟩
  · have here : added.tree 0 n = some { leaf with sumLeft := 1 } := by
      rw [leaves']
      simp
    unfold sanityCheckTree
    rw [deref_of here, ok_bind, LeafSound.parentOf ⟨rfl, rfl⟩, ok_bind]
    have := sums.depth_pos
    simpa using walkToRoot_ok fresh (Nat.lt_succ_self n) (added.getTreeDepth - 1) 0 (by omega)
      fun i _ upTo => sums.layer i upTo
  · rw [nowLive, nowGone, index']
    exact sums.congr (fun _ => rfl) (fun _ => rfl) rfl
  · intro j other at_
    simp only [leaves'] at at_
    rw [index']
    by_cases isNew : j = n
    · subst isNew
      simp only [if_true, Option.some.injEq] at at_
      subst at_
      exact ⟨Nat.lt_succ_self _, rfl, rfl⟩
    · simp only [isNew, if_false] at at_
      obtain ⟨below, isLinked⟩ := sound.leaf j other at_
      exact ⟨Nat.lt_succ_of_lt below, isLinked⟩

/-- Marking a leaf changes nothing else, and gives the leaves on its right. -/
theorem markLeaf_ok (entry : calculator.tree 0 k = some leaf) (mark : Bool) :
    ∃ marked, calculator.markLeaf k mark =
        .ok (marked, countIn calculator.isLive (k + 1) calculator.index, leaf.isMarked) ∧
      SameRest calculator marked ∧
      marked.tree 0 = (fun j => if j = k then some { leaf with isMarked := mark }
        else calculator.tree 0 j) ∧
      LeavesSound marked := by
  obtain ⟨below, linked⟩ := sound.leaf k leaf entry
  set marked := calculator.setEntry 0 k (some { leaf with isMarked := mark }) with isMarked
  have leaves : marked.tree 0 = fun j => if j = k then some { leaf with isMarked := mark }
      else calculator.tree 0 j := by
    funext j
    simp [isMarked, setEntry]
  have sameLive : marked.isLive = calculator.isLive := by
    funext j
    unfold isLive
    rw [leaves]
    by_cases same : j = k <;> simp [same, entry]
  have sameGone : marked.isGone = calculator.isGone := by
    funext j
    unfold isGone
    rw [sameLive]
    rfl
  have tree : TreeSound calculator.isLive calculator.isGone calculator.index marked :=
    sound.tree.congr (fun l => setEntry_layer (by omega)) (fun _ => rfl) rfl
  have walk := getSum_ok (isGone_of_entry entry) below marked.layers 0 tree.depth_pos
    (by unfold getTreeDepth; omega) fun i _ upTo => tree.layer i upTo
  have linked' : LeafSound k { leaf with isMarked := mark } := ⟨linked.isLeftNode, linked.parent⟩
  refine ⟨marked, ?_, ⟨rfl, rfl, rfl, rfl⟩, leaves, ?_, ?_⟩
  · unfold markLeaf getSumsLeavesToRoot
    rw [deref_of entry, ok_bind]
    simp only []
    rw [← isMarked, deref_of (show marked.tree 0 k = _ from setEntry_same), ok_bind,
      linked'.parentOf, ok_bind]
    simp only [linked.isLeftNode]
    simp only [Nat.zero_add, Nat.pow_one, Nat.pow_zero, Nat.div_one, rightOf_zero] at walk
    rw [walk, ok_bind, show marked.getTreeDepth = calculator.getTreeDepth from rfl,
      sound.rightOf_eq entry]
    rfl
  · rw [sameLive, sameGone]
    exact tree
  · intro j other at_
    rw [leaves] at at_
    by_cases same : j = k
    · subst same
      simp only [if_true, Option.some.injEq] at at_
      subst at_
      exact ⟨below, linked'⟩
    · simp only [same, if_false] at at_
      exact sound.leaf j other at_

end LeavesSound

end Gem5.StackDistCalc
