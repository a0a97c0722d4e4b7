import Gem5.Foundation.DyadicCount
import Gem5.Mem.StackDistCalc

/-!
# The tree of partial sums

A node of a layer stands for a block of leaves and holds how many leaves of each half of
the block are live.  A layer is sound if it has such a node for every block that has been
started and still has a leaf to come or a live one; a block all of whose leaves have come
and gone needs no node.  The walks to the root read the sum of the leaves on the right and
carry the change of one leaf through the layers.
-/

namespace Gem5.StackDistCalc

open Foundation

/-- Every leaf of the block has come and gone. -/
def AllGone (gone : Nat → Bool) (l q : Nat) : Prop :=
  ∀ j, InBlock l q j → gone j = true

/-- The node `q` of the layer `l + 1` describes its block. -/
structure NodeSound (live gone : Nat → Bool) (depth l q : Nat) (node : Node) : Prop where
  sumLeft : node.sumLeft = blockCount live l (2 * q)
  sumRight : node.sumRight = blockCount live l (2 * q + 1)
  discardLeft : node.discardLeft = true → AllGone gone l (2 * q)
  discardRight : node.discardRight = true → AllGone gone l (2 * q + 1)
  nodeIndex : node.nodeIndex = q
  parent : node.parent = if l + 1 = depth then none else some ⟨l + 2, q / 2⟩
  isLeftNode : node.isLeftNode = (q % 2 == 0)

/-- The layer `l + 1` of a tree that has room for `m` leaves. -/
structure LayerSound (live gone : Nat → Bool) (depth m : Nat) (calculator : StackDistCalc)
    (l : Nat) : Prop where
  node : ∀ q, (q * 2 ^ (l + 1) < m ∧ ¬AllGone gone (l + 1) q) ∨ (l + 1 = depth ∧ q = 0) →
    ∃ node, calculator.tree (l + 1) q = some node ∧ NodeSound live gone depth l q node
  nextIndex : calculator.nextIndex (l + 1) = (m - 1) / 2 ^ (l + 1) + 1

/-- One leaf changes, and a leaf that has gone does not come back. -/
structure Moves (live gone live' gone' : Nat → Bool) (k : Nat) : Prop where
  sameLive : ∀ j, j ≠ k → live' j = live j
  sameGone : ∀ j, j ≠ k → gone' j = gone j
  keeps : gone k = true → gone' k = true

section

variable {live gone live' gone' : Nat → Bool} {depth m k l q : Nat}
  {calculator : StackDistCalc} {node : Node}

/-- A shift succeeds below 31. -/
@[simp] theorem shiftOne_eq_ok {i result : Nat} :
    shiftOne i = .ok result ↔ i < 31 ∧ 2 ^ i = result := by
  simp [shiftOne]

/-- A node of the tree is dereferenced. -/
theorem deref_of {ptr : NodePtr} (entry : calculator.tree ptr.layer ptr.nodeIndex = some node) :
    calculator.deref ptr = .ok node := by
  unfold deref
  rw [entry]

variable {entry : Option Node}

/-- The entry that was set. -/
@[simp] theorem setEntry_same {layer i : Nat} :
    (calculator.setEntry layer i entry).tree layer i = entry := by
  simp [setEntry]

/-- The other entries stay. -/
theorem setEntry_other {layer i layer' i' : Nat} (other : layer' ≠ layer ∨ i' ≠ i) :
    (calculator.setEntry layer i entry).tree layer' i' = calculator.tree layer' i' := by
  unfold setEntry
  exact if_neg fun both => other.elim (fun no => no both.1) (fun no => no both.2)

/-- The other layers stay. -/
theorem setEntry_layer {layer i layer' : Nat} (other : layer' ≠ layer) :
    (calculator.setEntry layer i entry).tree layer' = calculator.tree layer' :=
  funext fun _ => setEntry_other (.inl other)

private theorem AllGone.moves (moves : Moves live gone live' gone' k) (all : AllGone gone l q) :
    AllGone gone' l q := by
  intro j inside
  by_cases same : j = k
  · subst same
    exact moves.keeps (all j inside)
  · rw [moves.sameGone j same]
    exact all j inside

private theorem Moves.refl (live gone : Nat → Bool) (k : Nat) : Moves live gone live gone k :=
  ⟨fun _ _ => rfl, fun _ _ => rfl, id⟩

/-- A block is gone when its halves are. -/
theorem AllGone.halves (left : AllGone gone l (2 * q)) (right : AllGone gone l (2 * q + 1)) :
    AllGone gone (l + 1) q := by
  intro j inside
  have half : j / 2 ^ l / 2 = q := (div_two_pow_succ j l).symm.trans inside
  by_cases even : j / 2 ^ l % 2 = 0
  · exact left j (show j / 2 ^ l = 2 * q by omega)
  · exact right j (show j / 2 ^ l = 2 * q + 1 by omega)

/-- A block without the leaf keeps its count. -/
theorem Moves.blockCount_eq (moves : Moves live gone live' gone' k) (outside : ¬InBlock l q k) :
    blockCount live l q = blockCount live' l q := by
  refine blockCount_congr fun j inside => (moves.sameLive j ?_).symm
  rintro rfl
  exact outside inside

/-- A block without the leaf keeps its node. -/
theorem NodeSound.other (moves : Moves live gone live' gone' k)
    (sound : NodeSound live gone depth l q node) (outside : ¬InBlock (l + 1) q k) :
    NodeSound live' gone' depth l q node :=
  { sound with
    sumLeft := sound.sumLeft.trans (moves.blockCount_eq fun half => outside (.half (.inl half)))
    sumRight := sound.sumRight.trans (moves.blockCount_eq fun half => outside (.half (.inr half)))
    discardLeft := fun flag => (sound.discardLeft flag).moves moves
    discardRight := fun flag => (sound.discardRight flag).moves moves }

/-- The node above the leaf takes the change of the half the walk comes from. -/
theorem NodeSound.updated (moves : Moves live gone live' gone' k)
    (sound : NodeSound live gone depth l (k / 2 ^ (l + 1)) node) {discard : Bool}
    (discarded : discard = true → AllGone gone' l (k / 2 ^ l)) :
    NodeSound live' gone' depth l (k / 2 ^ (l + 1))
      (node.updated (k / 2 ^ l % 2 == 0) (blockCount live' l (k / 2 ^ l)) discard) := by
  have other : ∀ i, i ≠ k / 2 ^ l → blockCount live l i = blockCount live' l i :=
    fun i away => moves.blockCount_eq fun inside => away inside.symm
  have up := div_two_pow_succ k l
  by_cases left : k / 2 ^ l % 2 = 0
  · have here : k / 2 ^ l = 2 * (k / 2 ^ (l + 1)) := by omega
    have away : 2 * (k / 2 ^ (l + 1)) + 1 ≠ k / 2 ^ l := by omega
    refine ⟨?_, ?_, fun flag => ?_, fun flag => ?_, sound.nodeIndex, sound.parent, sound.isLeftNode⟩
    · simp [Node.updated, left, ← here]
    · simp [Node.updated, left, sound.sumRight, other _ away]
    · simp only [Node.updated, left, beq_self_eq_true, Bool.and_true, Bool.or_eq_true,
        Bool.and_eq_true] at flag
      rcases flag with before | ⟨now, -⟩
      · exact (sound.discardLeft before).moves moves
      · rw [← here]
        exact discarded now
    · simp only [Node.updated, left, beq_self_eq_true, Bool.not_true, Bool.and_false,
        Bool.or_false] at flag
      exact (sound.discardRight flag).moves moves
  · have here : k / 2 ^ l = 2 * (k / 2 ^ (l + 1)) + 1 := by omega
    have away : 2 * (k / 2 ^ (l + 1)) ≠ k / 2 ^ l := by omega
    have odd : (k / 2 ^ l % 2 == 0) = false := by simpa using left
    refine ⟨?_, ?_, fun flag => ?_, fun flag => ?_, sound.nodeIndex, sound.parent, sound.isLeftNode⟩
    · simp [Node.updated, odd, sound.sumLeft, other _ away]
    · simp [Node.updated, odd, ← here]
    · simp only [Node.updated, odd, Bool.and_false, Bool.or_false] at flag
      exact (sound.discardLeft flag).moves moves
    · simp only [Node.updated, odd, Bool.not_false, Bool.and_true, Bool.or_eq_true,
        Bool.and_eq_true] at flag
      rcases flag with before | ⟨now, -⟩
      · exact (sound.discardRight before).moves moves
      · rw [← here]
        exact discarded now

section

variable (sound : LayerSound live gone depth m calculator l)

include sound

/-- A layer depends on its own entries only. -/
theorem LayerSound.congr {other : StackDistCalc}
    (tree : other.tree (l + 1) = calculator.tree (l + 1))
    (nextIndex : other.nextIndex (l + 1) = calculator.nextIndex (l + 1)) :
    LayerSound live gone depth m other l where
  node := by rw [tree]; exact sound.node
  nextIndex := nextIndex.trans sound.nextIndex

/-- The node above a leaf that has not gone is there. -/
theorem LayerSound.above (fresh : gone k = false) (below : k < m) :
    ∃ node, calculator.tree (l + 1) (k / 2 ^ (l + 1)) = some node ∧
      NodeSound live gone depth l (k / 2 ^ (l + 1)) node := by
  apply sound.node
  refine .inl ⟨lt_of_le_of_lt (Nat.div_mul_le_self k _) below, fun all => ?_⟩
  have := all k rfl
  simp [fresh] at this

/-- Replacing the node above the leaf carries a layer over; it may be deleted if its
leaves have all gone and it is not the root. -/
theorem LayerSound.set (moves : Moves live gone live' gone' k)
    (kept : ∀ node, entry = some node → NodeSound live' gone' depth l (k / 2 ^ (l + 1)) node)
    (deleted : entry = none → AllGone gone' (l + 1) (k / 2 ^ (l + 1)) ∧ l + 1 ≠ depth) :
    LayerSound live' gone' depth m
      (calculator.setEntry (l + 1) (k / 2 ^ (l + 1)) entry) l where
  node := by
    intro q needed
    by_cases here : q = k / 2 ^ (l + 1)
    · subst here
      rw [setEntry_same]
      cases entry with
      | some node => exact ⟨node, rfl, kept node rfl⟩
      | none =>
        obtain ⟨all, notRoot⟩ := deleted rfl
        rcases needed with ⟨-, notAll⟩ | ⟨root, -⟩
        · exact absurd all notAll
        · exact absurd root notRoot
    · rw [setEntry_other (.inr here)]
      have outside : ¬InBlock (l + 1) q k := fun inside => here inside.symm
      obtain ⟨node, at_, describes⟩ := sound.node q (needed.imp_left fun ⟨started, notAll⟩ =>
        ⟨started, fun all => notAll (all.moves moves)⟩)
      exact ⟨node, at_, describes.other moves outside⟩
  nextIndex := sound.nextIndex

end

private theorem checkSums_ok (sound : NodeSound live gone depth l q node)
    (small : calculator.verifyStack = true → l < 31) :
    calculator.checkSums (l + 1) node = .ok () := by
  unfold checkSums
  split
  · rename_i verify
    have leftFits : ¬2 ^ l < node.sumLeft := by
      rw [sound.sumLeft]
      exact Nat.not_lt.mpr blockCount_le
    have rightFits : ¬2 ^ l < node.sumRight := by
      rw [sound.sumRight]
      exact Nat.not_lt.mpr blockCount_le
    simp only [bind_eq_ok, shiftOne_eq_ok, panicIf_eq_ok, Nat.add_sub_cancel]
    exact ⟨_, ⟨small verify, rfl⟩, (), leftFits, rightFits⟩
  · rfl

/-- What the walk adds at one layer is the sibling on the right. -/
theorem NodeSound.rightOf_succ (moves : Moves live gone live' gone' k)
    (sound : NodeSound live gone depth l (k / 2 ^ (l + 1)) node) :
    (if k / 2 ^ l % 2 == 0 then rightOf live' l k + node.sumRight else rightOf live' l k) =
      rightOf live' (l + 1) k := by
  have up := div_two_pow_succ k l
  by_cases left : k / 2 ^ l % 2 = 0
  · have sibling : 2 * (k / 2 ^ (l + 1)) + 1 = k / 2 ^ l + 1 := by omega
    simp only [left, beq_self_eq_true, if_true, rightOf_succ_left left]
    rw [sound.sumRight, sibling,
      moves.blockCount_eq fun inside => absurd inside (Nat.ne_of_lt (Nat.lt_succ_self _))]
  · have odd : k / 2 ^ l % 2 = 1 := by omega
    simp [odd, rightOf_succ_right odd]

/-- `updateSum` from the layer `l + 1` on: the layers above take over the change of the
leaf, and the leaves on its right are added up. -/
theorem updateSum_ok (moves : Moves live gone live' gone' k) (fresh : gone k = false)
    (below : k < m) (fuel : Nat) : ∀ (l : Nat) (calculator : StackDistCalc) (discard : Bool),
      l < depth → depth ≤ l + fuel → (calculator.verifyStack = true → depth ≤ 31) →
      (∀ i < l, LayerSound live' gone' depth m calculator i) →
      (∀ i, l ≤ i → i < depth → LayerSound live gone depth m calculator i) →
      (discard = true → AllGone gone' l (k / 2 ^ l)) →
      ∃ tree, updateSum fuel calculator ⟨l + 1, k / 2 ^ (l + 1)⟩ (k / 2 ^ l % 2 == 0)
          (blockCount live' l (k / 2 ^ l)) l (rightOf live' l k) discard =
            .ok ({ calculator with tree := tree }, rightOf live' depth k) ∧
        tree 0 = calculator.tree 0 ∧
        ∀ i < depth, LayerSound live' gone' depth m { calculator with tree := tree } i := by
  induction fuel with
  | zero =>
    intro l calculator discard inside enough
    omega
  | succ fuel ih =>
    intro l calculator discard inside enough small done todo discarded
    obtain ⟨node, entry, describes⟩ := (todo l le_rfl inside).above fresh below
    have updatedSound := describes.updated moves discarded
    unfold updateSum
    rw [deref_of entry, ok_bind, checkSums_ok describes fun verify => by
      have := small verify; omega, ok_bind]
    simp only []
    rw [describes.rightOf_succ moves, describes.nodeIndex, describes.parent]
    generalize settled : node.updated (k / 2 ^ l % 2 == 0) (blockCount live' l (k / 2 ^ l))
      discard = updated at updatedSound ⊢
    rw [updatedSound.sumLeft, updatedSound.sumRight, ← blockCount_succ, describes.isLeftNode]
    by_cases root : l + 1 = depth
    · -- the root is kept and ends the walk
      subst root
      simp only [if_true, Option.isSome_none, Bool.and_false, Bool.false_and, Bool.false_eq_true,
        if_false]
      have next : LayerSound live' gone' (l + 1) m
          (calculator.setEntry (l + 1) (k / 2 ^ (l + 1)) (some updated)) l :=
        (todo l le_rfl inside).set moves (fun _ same => by cases same; exact updatedSound)
          (by simp)
      refine ⟨(calculator.setEntry (l + 1) (k / 2 ^ (l + 1)) (some updated)).tree, rfl,
        setEntry_layer (by omega), fun i isLayer => ?_⟩
      rcases Nat.lt_succ_iff_lt_or_eq.mp isLayer with lower | rfl
      · exact (done i lower).congr (setEntry_layer (by omega)) rfl
      · exact next
    · simp only [if_neg root, Option.isSome_some, Bool.and_true]
      set discard' := updated.discardLeft && updated.discardRight && discard &&
        blockCount live' l (k / 2 ^ l) == 0 with isDiscard
      have allGone : discard' = true → AllGone gone' (l + 1) (k / 2 ^ (l + 1)) := by
        intro flag
        simp only [isDiscard, Bool.and_eq_true] at flag
        exact .halves (updatedSound.discardLeft flag.1.1.1) (updatedSound.discardRight flag.1.1.2)
      set next := calculator.setEntry (l + 1) (k / 2 ^ (l + 1))
        (if discard' = true then none else some updated) with isNext
      have layer : LayerSound live' gone' depth m next l := by
        refine (todo l le_rfl inside).set moves ?_ ?_
        · intro kept same
          split at same <;> cases same
          exact updatedSound
        · intro gone
          split at gone
          · exact ⟨allGone ‹_›, root⟩
          · cases gone
      have up : k / 2 ^ (l + 1) / 2 = k / 2 ^ (l + 1 + 1) := (div_two_pow_succ k (l + 1)).symm
      rw [up]
      obtain ⟨tree, result, leaves, sound⟩ := ih (l + 1) next discard' (by omega) (by omega) small
        (by
          intro i lower
          rcases Nat.lt_succ_iff_lt_or_eq.mp lower with lower | rfl
          · exact (done i lower).congr (setEntry_layer (by omega)) rfl
          · exact layer)
        (fun i from_ upTo => (todo i (by omega) upTo).congr (setEntry_layer (by omega)) rfl)
        allGone
      refine ⟨tree, result, leaves.trans (setEntry_layer (by omega)), sound⟩

/-- `getSum` from the layer `l + 1` on adds up the leaves on the right. -/
theorem getSum_ok (fresh : gone k = false) (below : k < m) (fuel : Nat) :
    ∀ l, l < depth → depth ≤ l + fuel →
      (∀ i, l ≤ i → i < depth → LayerSound live gone depth m calculator i) →
      calculator.getSum fuel ⟨l + 1, k / 2 ^ (l + 1)⟩ (k / 2 ^ l % 2 == 0) (rightOf live l k) =
        .ok (rightOf live depth k) := by
  induction fuel with
  | zero =>
    intro l inside enough
    omega
  | succ fuel ih =>
    intro l inside enough layers
    obtain ⟨node, entry, describes⟩ := (layers l le_rfl inside).above fresh below
    unfold getSum
    rw [deref_of entry, ok_bind]
    simp only []
    rw [describes.rightOf_succ (Moves.refl live gone k), describes.parent]
    by_cases root : l + 1 = depth
    · subst root
      rw [if_pos rfl]
      rfl
    · rw [if_neg root, describes.isLeftNode]
      have up : k / 2 ^ (l + 1) / 2 = k / 2 ^ (l + 1 + 1) := (div_two_pow_succ k (l + 1)).symm
      simp only [up]
      exact ih (l + 1) (by omega) (by omega) fun i from_ => layers i (by omega)

/-- The parents of a leaf lead to the root. -/
theorem walkToRoot_ok (fresh : gone k = false) (below : k < m) (steps : Nat) :
    ∀ l, l + 1 + steps = depth →
      (∀ i, l ≤ i → i < depth → LayerSound live gone depth m calculator i) →
      calculator.walkToRoot steps ⟨l + 1, k / 2 ^ (l + 1)⟩ = .ok () := by
  induction steps with
  | zero =>
    intro l top layers
    obtain ⟨node, entry, describes⟩ := (layers l le_rfl (by omega)).above fresh below
    unfold walkToRoot
    rw [deref_of entry, ok_bind, panicIf_eq_ok, describes.parent, if_pos (by omega)]
    simp
  | succ steps ih =>
    intro l top layers
    obtain ⟨node, entry, describes⟩ := (layers l le_rfl (by omega)).above fresh below
    have parent : parentOf node = .ok ⟨l + 2, k / 2 ^ (l + 2)⟩ := by
      unfold parentOf
      rw [describes.parent, if_neg (by omega), div_two_pow_succ k (l + 1)]
    unfold walkToRoot
    rw [deref_of entry, ok_bind, parent, ok_bind]
    exact ih (l + 1) (by omega) fun i from_ => layers i (by omega)

variable {n : Nat}

/-- A layer that gets no node for the next leaf has room for it. -/
theorem LayerSound.room (sound : LayerSound live gone depth n calculator l) (positive : 0 < n)
    (inside : n % 2 ^ (l + 1) ≠ 0) : LayerSound live gone depth (n + 1) calculator l where
  node := by
    intro q needed
    refine sound.node q (needed.imp_left fun ⟨started, notAll⟩ => ⟨?_, notAll⟩)
    refine lt_of_le_of_ne (Nat.lt_succ_iff.mp started) fun same => inside ?_
    rw [← same]
    exact Nat.mul_mod_left q _
  nextIndex := by
    rw [sound.nextIndex, Nat.add_sub_cancel]
    obtain ⟨p, rfl⟩ : ∃ p, n = p + 1 := ⟨n - 1, by omega⟩
    rw [Nat.add_sub_cancel, Nat.succ_div_of_not_dvd fun divides => inside (Nat.mod_eq_zero_of_dvd
      divides)]

private theorem nextIndex_eq (positive : 0 < n) (divides : n % 2 ^ l = 0) :
    (n - 1) / 2 ^ l + 1 = n / 2 ^ l := by
  obtain ⟨p, rfl⟩ : ∃ p, n = p + 1 := ⟨n - 1, by omega⟩
  rw [Nat.add_sub_cancel, Nat.succ_div_of_dvd (Nat.dvd_of_mod_eq_zero divides)]

variable (none : ∀ j, n ≤ j → live j = false)

include none

/-- A new node stands for a block without leaves. -/
theorem NodeSound.fresh (divides : n % 2 ^ (l + 1) = 0) (inner : l + 1 < depth) :
    NodeSound live gone depth l (n / 2 ^ (l + 1))
      { isLeftNode := n / 2 ^ (l + 1) % 2 == 0
        parent := some ⟨l + 2, n / 2 ^ (l + 2)⟩
        nodeIndex := n / 2 ^ (l + 1) } := by
  have start : n / 2 ^ (l + 1) * 2 ^ (l + 1) = n :=
    Nat.div_mul_cancel (Nat.dvd_of_mod_eq_zero divides)
  have later : ∀ j, InBlock (l + 1) (n / 2 ^ (l + 1)) j → live j = false := by
    intro j inside
    apply none
    have := (inBlock_iff.mp inside).1
    omega
  refine ⟨?_, ?_, by simp, by simp, rfl, ?_, rfl⟩
  · exact (blockCount_eq_zero fun j inside => later j (.half (.inl inside))).symm
  · exact (blockCount_eq_zero fun j inside => later j (.half (.inr inside))).symm
  · rw [if_neg (by omega), div_two_pow_succ n (l + 1)]

/-- `addINode` gives a layer below a layer with room for the next leaf room for it. -/
theorem addINode_ok (fresh : gone n = false)
    (positive : 0 < n) (divides : n % 2 ^ (l + 1) = 0) (inner : l + 1 < depth)
    (here : LayerSound live gone depth n calculator l)
    (above : LayerSound live gone depth (n + 1) calculator (l + 1)) :
    ∃ tree nextIndex, calculator.addINode (l + 1) =
        .ok { calculator with tree := tree, nextIndex := nextIndex } ∧
      (∀ i, i ≠ l + 1 → tree i = calculator.tree i ∧ nextIndex i = calculator.nextIndex i) ∧
      LayerSound live gone depth (n + 1)
        { calculator with tree := tree, nextIndex := nextIndex } l := by
  obtain ⟨parent, entry, -⟩ := above.above fresh (Nat.lt_succ_self n)
  have last : calculator.nextIndex (l + 1 + 1) - 1 = n / 2 ^ (l + 2) := by
    rw [above.nextIndex, Nat.add_sub_cancel, Nat.add_sub_cancel]
  have next : calculator.nextIndex (l + 1) = n / 2 ^ (l + 1) :=
    here.nextIndex.trans (nextIndex_eq positive divides)
  unfold addINode nodeAt
  rw [last, next, deref_of entry, ok_bind]
  refine ⟨_, _, rfl, fun i other => ⟨setEntry_layer other, if_neg other⟩, ?_, ?_⟩
  · intro q needed
    by_cases new : q = n / 2 ^ (l + 1)
    · subst new
      exact ⟨_, setEntry_same, .fresh none divides inner⟩
    · obtain ⟨node, at_, describes⟩ := here.node q <| needed.imp_left fun ⟨started, notAll⟩ => by
        refine ⟨lt_of_le_of_ne (Nat.lt_succ_iff.mp started) fun same => new ?_, notAll⟩
        rw [← same, Nat.mul_div_cancel _ (Nat.two_pow_pos _)]
      exact ⟨node, (setEntry_other (.inr new)).trans at_, describes⟩
  · simp

/-- The loops of `updateTree`: every layer gets room for the next leaf. -/
theorem addINodes_ok (fresh : gone n = false)
    (positive : 0 < n) (due : Nat → Checked Bool) (i : Nat) :
    ∀ calculator : StackDistCalc, i < depth → (∀ l < i, due (l + 1) = .ok (n % 2 ^ (l + 1) == 0)) →
      (∀ l < i, LayerSound live gone depth n calculator l) →
      (∀ l, i ≤ l → l < depth → LayerSound live gone depth (n + 1) calculator l) →
      ∃ tree nextIndex, addINodes due i calculator =
          .ok { calculator with tree := tree, nextIndex := nextIndex } ∧
        tree 0 = calculator.tree 0 ∧
        ∀ l < depth, LayerSound live gone depth (n + 1)
          { calculator with tree := tree, nextIndex := nextIndex } l := by
  induction i with
  | zero =>
    intro calculator _ _ _ done
    exact ⟨calculator.tree, calculator.nextIndex, rfl, rfl, fun l => done l (Nat.zero_le l)⟩
  | succ i ih =>
    intro calculator inner isDue todo done
    unfold addINodes
    rw [isDue i (Nat.lt_succ_self i), ok_bind]
    by_cases divides : n % 2 ^ (i + 1) = 0
    · simp only [divides, beq_self_eq_true, if_true]
      obtain ⟨tree, nextIndex, added, others, layer⟩ := addINode_ok none fresh positive divides
        inner (todo i (Nat.lt_succ_self i)) (done (i + 1) le_rfl inner)
      rw [added, ok_bind]
      obtain ⟨tree', nextIndex', result, leaves, sound⟩ := ih
        { calculator with tree := tree, nextIndex := nextIndex } (by omega)
        (fun l below => isDue l (by omega))
        (fun l below => (todo l (by omega)).congr (others (l + 1) (by omega)).1
          (others (l + 1) (by omega)).2)
        (fun l from_ upTo => by
          by_cases same : l = i
          · subst same
            exact layer
          · exact (done l (by omega) upTo).congr (others (l + 1) (by omega)).1
              (others (l + 1) (by omega)).2)
      exact ⟨tree', nextIndex', result, leaves.trans (others 0 (by omega)).1, sound⟩
    · have notDue : (n % 2 ^ (i + 1) == 0) = false := by simpa using divides
      simp only [notDue, Bool.false_eq_true, if_false]
      refine ih calculator (by omega) (fun l below => isDue l (by omega))
        (fun l below => todo l (by omega)) fun l from_ upTo => ?_
      by_cases same : l = i
      · subst same
        exact (todo l (Nat.lt_succ_self l)).room positive divides
      · exact done l (by omega) upTo

end

end Gem5.StackDistCalc
