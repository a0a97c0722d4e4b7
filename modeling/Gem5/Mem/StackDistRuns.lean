import Gem5.Mem.StackDistHistory
import Gem5.Mem.StackDistLeaves

/-!
# The calculator computes the stack distances of its history

The tree of the calculator returns the expected distances and marks after every history
of calls.  So does the naive stack it can be checked against, as long as no address is
removed: `calcStackDistAndUpdate` does not take a removed address off that stack.
-/

namespace Gem5.StackDistCalc

open Foundation

/-- The calculator after some calls: `aiMap` names the leaf of every address on the stack,
the leaves are in the order of the last accesses, and the naive stack, if it is kept, holds
the same addresses. -/
structure Tracks (verifyStack : Bool) (past : List Call) (calculator : StackDistCalc) : Prop where
  leaves : LeavesSound calculator
  verifies : calculator.verifyStack = verifyStack
  index : calculator.index = accesses past
  isOn : ∀ a, (calculator.aiMap a).isSome = onStack a past
  leaf : ∀ a k, calculator.aiMap a = some k →
    ∃ leaf, calculator.tree 0 k = some leaf ∧ leaf.isMarked = markOf a past
  owner : ∀ k, calculator.isLive k = true → ∃ a, calculator.aiMap a = some k
  inj : ∀ a b k, calculator.aiMap a = some k → calculator.aiMap b = some k → a = b
  order : ∀ a k, calculator.aiMap a = some k →
    ∀ b, b ∈ addedSince a past ↔ ∃ j, k < j ∧ calculator.aiMap b = some j
  stack : verifyStack = true → calculator.stack = lruStack past

/-- The entry of an address has been replaced, and its old leaf is no longer in the tree. -/
structure Cleared (calculator : StackDistCalc) (rAddress : Addr) (entry : Option Nat)
    (cleared : StackDistCalc) : Prop where
  leaves : LeavesSound cleared
  index : cleared.index = calculator.index
  stack : cleared.stack = calculator.stack
  verifyStack : cleared.verifyStack = calculator.verifyStack
  aiMap : cleared.aiMap = fun a => if a = rAddress then entry else calculator.aiMap a
  kept : ∀ a k, a ≠ rAddress → calculator.aiMap a = some k → cleared.tree 0 k = calculator.tree 0 k
  owner : ∀ k, cleared.isLive k = true → ∃ a, a ≠ rAddress ∧ calculator.aiMap a = some k

private theorem start_tracks (verifyStack : Bool) : Tracks verifyStack [] (start verifyStack) where
  leaves := start_leavesSound verifyStack
  verifies := rfl
  index := rfl
  isOn := fun _ => rfl
  leaf := by simp [start]
  owner := by simp [isLive, start]
  inj := by simp [start]
  order := by simp [start]
  stack := fun _ => rfl

namespace Tracks

variable {verifyStack : Bool} {past : List Call} {calculator : StackDistCalc}
  {rAddress : Addr} {k : Nat}

variable (tracks : Tracks verifyStack past calculator)

include tracks

section

variable (entry : calculator.aiMap rAddress = some k)

include entry

private theorem index_lt : k < calculator.index := by
  obtain ⟨leaf, at_, -⟩ := tracks.leaf rAddress k entry
  exact (tracks.leaves.leaf k leaf at_).1

/-- The leaves on the right belong to the addresses added since. -/
theorem countIn_eq :
    countIn calculator.isLive (k + 1) calculator.index = (addedSince rAddress past).card := by
  have image : (addedSince rAddress past).image (fun b => (calculator.aiMap b).getD 0) =
      (Finset.Ico (k + 1) calculator.index).filter (fun j => calculator.isLive j = true) := by
    ext j
    simp only [Finset.mem_image, Finset.mem_filter, Finset.mem_Ico]
    constructor
    · rintro ⟨b, member, rfl⟩
      obtain ⟨j, right, at_⟩ := (tracks.order rAddress k entry b).mp member
      obtain ⟨leaf, present, -⟩ := tracks.leaf b j at_
      simp only [at_, Option.getD_some]
      exact ⟨⟨right, tracks.index_lt at_⟩, by simp [isLive, present]⟩
    · rintro ⟨⟨right, -⟩, present⟩
      obtain ⟨b, at_⟩ := tracks.owner j present
      exact ⟨b, (tracks.order rAddress k entry b).mpr ⟨j, right, at_⟩, by simp [at_]⟩
  unfold countIn
  rw [← image]
  apply Finset.card_image_of_injOn
  intro b member b' member' same
  obtain ⟨j, -, at_⟩ := (tracks.order rAddress k entry b).mp member
  obtain ⟨j', -, at_'⟩ := (tracks.order rAddress k entry b').mp member'
  simp only [at_, at_', Option.getD_some] at same
  subst same
  exact tracks.inj b b' j at_ at_'

private theorem expected_of_entry :
    expected past rAddress = ((addedSince rAddress past).card, markOf rAddress past) := by
  have isOn := tracks.isOn rAddress
  rw [entry] at isOn
  unfold expected
  rw [← isOn]
  rfl

end

private theorem expected_of_none
    (entry : calculator.aiMap rAddress = none) : expected past rAddress = (infinity, false) := by
  have isOn := tracks.isOn rAddress
  rw [entry] at isOn
  unfold expected
  rw [← isOn]
  rfl

/-- The lookup of `calcStackDistAndUpdate` returns what is expected and clears the entry. -/
theorem lookup_ok (rAddress : Addr) (entry : Option Nat) (few : calculator.index ≤ 2 ^ 31) :
    ∃ cleared, calculator.lookup rAddress entry = .ok (cleared, expected past rAddress) ∧
      Cleared calculator rAddress entry cleared := by
  have sound : LeavesSound (calculator.setIndex rAddress entry) :=
    ⟨tracks.leaves.tree.congr (fun _ => rfl) (fun _ => rfl) rfl, tracks.leaves.leaf⟩
  unfold lookup
  cases old : calculator.aiMap rAddress with
  | some rIndex =>
    obtain ⟨leaf, at_, marked⟩ := tracks.leaf rAddress rIndex old
    obtain ⟨removed, result, rest, leaves, sound'⟩ := sound.removeLeaf_ok few at_
    refine ⟨removed, ?_, sound', rest.index, rest.stack, rest.verifyStack, rest.aiMap, ?_, ?_⟩
    · simp only []
      rw [result, tracks.expected_of_entry old, marked]
      exact congrArg (fun dist => Except.ok (removed, dist, markOf rAddress past))
        (tracks.countIn_eq old)
    · intro a k away at_a
      have other : k ≠ rIndex := by
        rintro rfl
        exact away (tracks.inj a rAddress k at_a old)
      rw [leaves]
      simp [other, setIndex]
    · intro k present
      have other : k ≠ rIndex := by
        rintro rfl
        simp [isLive, leaves] at present
      simp only [isLive, leaves, other, if_false] at present
      obtain ⟨a, at_a⟩ := tracks.owner k present
      refine ⟨a, ?_, at_a⟩
      rintro rfl
      rw [old] at at_a
      exact other (Option.some.inj at_a).symm
  | none =>
    refine ⟨calculator.setIndex rAddress entry, ?_, sound, rfl, rfl, rfl, rfl, fun _ _ _ _ => rfl,
      ?_⟩
    · simp only []
      rw [tracks.expected_of_none old]
      rfl
    · intro k present
      obtain ⟨a, at_a⟩ := tracks.owner k present
      refine ⟨a, ?_, at_a⟩
      rintro rfl
      rw [old] at at_a
      cases at_a

/-- Without a new node the address is off the stack. -/
theorem removed {cleared : StackDistCalc} (isCleared : Cleared calculator rAddress none cleared)
    (permitted : verifyStack = true → onStack rAddress past = false) :
    Tracks verifyStack (.calcStackDistAndUpdate rAddress false :: past) cleared := by
  have other : ∀ a k, cleared.aiMap a = some k → a ≠ rAddress ∧ calculator.aiMap a = some k := by
    intro a k entry
    rw [isCleared.aiMap] at entry
    by_cases same : a = rAddress
    · simp [same] at entry
    · simp only [same, if_false] at entry
      exact ⟨same, entry⟩
  have away : ∀ a, a ≠ rAddress → cleared.aiMap a = calculator.aiMap a := by
    intro a away
    rw [isCleared.aiMap]
    simp [away]
  refine ⟨isCleared.leaves, isCleared.verifyStack.trans tracks.verifies,
    isCleared.index.trans tracks.index, fun a => ?_, fun a k entry => ?_, fun k present => ?_,
    fun a b k first second => ?_, fun a k entry b => ?_, fun verify => ?_⟩
  · by_cases same : a = rAddress
    · simp [isCleared.aiMap, onStack, same]
    · simp [away a same, onStack, Ne.symm same, tracks.isOn a]
  · obtain ⟨notThis, entry⟩ := other a k entry
    obtain ⟨leaf, at_, marked⟩ := tracks.leaf a k entry
    refine ⟨leaf, (isCleared.kept a k notThis entry).trans at_, ?_⟩
    simp [markOf, Ne.symm notThis, marked]
  · obtain ⟨a, notThis, entry⟩ := isCleared.owner k present
    exact ⟨a, (away a notThis).trans entry⟩
  · exact tracks.inj a b k (other a k first).2 (other b k second).2
  · obtain ⟨notThis, entry⟩ := other a k entry
    have before := tracks.order a k entry b
    simp only [addedSince, Ne.symm notThis, Bool.false_eq_true, if_false, Finset.mem_erase, before]
    by_cases isThis : b = rAddress
    · simp [isCleared.aiMap, isThis]
    · simp [away b isThis, isThis]
  · have absent : rAddress ∉ lruStack past := by
      rw [mem_lruStack, permitted verify]
      simp
    rw [isCleared.stack, tracks.stack verify]
    simp [lruStack, List.erase_of_not_mem absent]

/-- With a new node the address is at the top of the stack. -/
theorem added {cleared next : StackDistCalc}
    (isCleared : Cleared calculator rAddress (some calculator.index) cleared) {leaf : Node}
    (leaves : LeavesSound next) (index : next.index = calculator.index + 1)
    (verifies : next.verifyStack = calculator.verifyStack) (aiMap : next.aiMap = cleared.aiMap)
    (tree : next.tree 0 = fun j => if j = calculator.index then some leaf else cleared.tree 0 j)
    (unmarked : leaf.isMarked = false)
    (stack : verifyStack = true → next.stack = rAddress :: calculator.stack.erase rAddress) :
    Tracks verifyStack (.calcStackDistAndUpdate rAddress true :: past) next := by
  have this : next.aiMap rAddress = some calculator.index := by
    rw [aiMap, isCleared.aiMap]
    simp
  have away : ∀ a, a ≠ rAddress → next.aiMap a = calculator.aiMap a := by
    intro a away
    rw [aiMap, isCleared.aiMap]
    simp [away]
  have older : ∀ a k, a ≠ rAddress → next.aiMap a = some k → k < calculator.index := by
    intro a k notThis entry
    rw [away a notThis] at entry
    exact tracks.index_lt entry
  refine ⟨leaves, verifies.trans tracks.verifies, ?_, fun a => ?_, fun a k entry => ?_,
    fun k present => ?_, fun a b k first second => ?_, fun a k entry b => ?_, fun verify => ?_⟩
  · rw [index, tracks.index]
    rfl
  · by_cases same : a = rAddress
    · simp [same, this, onStack]
    · simp [away a same, onStack, Ne.symm same, tracks.isOn a]
  · by_cases same : a = rAddress
    · subst same
      rw [this, Option.some.injEq] at entry
      subst entry
      exact ⟨leaf, by simp [tree], by simp [markOf, unmarked]⟩
    · have below := older a k same entry
      rw [away a same] at entry
      obtain ⟨old, at_, marked⟩ := tracks.leaf a k entry
      refine ⟨old, ?_, by simp [markOf, Ne.symm same, marked]⟩
      rw [tree]
      simp only [Nat.ne_of_lt below, if_false]
      exact (isCleared.kept a k same entry).trans at_
  · by_cases isNew : k = calculator.index
    · exact ⟨rAddress, isNew ▸ this⟩
    · have present' : cleared.isLive k = true := by
        simpa [isLive, tree, isNew] using present
      obtain ⟨a, notThis, entry⟩ := isCleared.owner k present'
      exact ⟨a, (away a notThis).trans entry⟩
  · by_cases isFirst : a = rAddress
    · by_cases isSecond : b = rAddress
      · exact isFirst.trans isSecond.symm
      · have below := older b k isSecond second
        rw [isFirst, this, Option.some.injEq] at first
        omega
    · have below := older a k isFirst first
      by_cases isSecond : b = rAddress
      · rw [isSecond, this, Option.some.injEq] at second
        omega
      · rw [away a isFirst] at first
        rw [away b isSecond] at second
        exact tracks.inj a b k first second
  · by_cases same : a = rAddress
    · subst same
      rw [this, Option.some.injEq] at entry
      subst entry
      simp only [addedSince, if_true, Finset.notMem_empty, false_iff, not_exists, not_and]
      intro j right at_
      by_cases isThis : b = a
      · rw [isThis, this, Option.some.injEq] at at_
        omega
      · have := older b j isThis at_
        omega
    · have below := older a k same entry
      rw [away a same] at entry
      simp only [addedSince, Ne.symm same, if_false, if_true, Finset.mem_insert,
        tracks.order a k entry b]
      by_cases isThis : b = rAddress
      · simp [isThis, this, below]
      · simp [isThis, away b isThis]
  · rw [stack verify, tracks.stack verify]
    rfl

private theorem verify_ok {next : StackDistCalc}
    (verifies : next.verifyStack = calculator.verifyStack) (stack : next.stack = calculator.stack)
    (rAddress : Addr) (updateStack : Bool) :
    ∃ verified, next.verify rAddress updateStack (expected past rAddress).1 = .ok verified ∧
      verified = { next with stack := verified.stack } ∧
      (updateStack = false → verified = next) ∧
      (verifyStack = true → updateStack = true →
        verified.stack = rAddress :: calculator.stack.erase rAddress) := by
  have sameFlag : next.verifyStack = verifyStack := verifies.trans tracks.verifies
  unfold verify
  by_cases isOn : verifyStack = true
  · have dist : naiveDist next.stack rAddress = (expected past rAddress).1 := by
      rw [stack, tracks.stack isOn, naiveDist_lruStack]
    rw [if_pos (sameFlag.trans isOn)]
    refine ⟨(next.verifyStackDist rAddress updateStack).1, ?_, rfl, ?_, ?_⟩
    · simp [verifyStackDist, dist, panicIf]
    · rintro rfl
      rfl
    · rintro - rfl
      simp [verifyStackDist, stack]
  · rw [if_neg (sameFlag ▸ isOn)]
    exact ⟨next, rfl, rfl, fun _ => rfl, fun on => absurd on isOn⟩

/-- One call of `calcStackDistAndUpdate`. -/
theorem calcStackDistAndUpdate_ok
    (rAddress : Addr) (addNewNode : Bool) (few : calculator.index < 2 ^ 31)
    (permitted : verifyStack = true → addNewNode = false → onStack rAddress past = false) :
    ∃ next, calculator.calcStackDistAndUpdate rAddress addNewNode =
        .ok (next, expected past rAddress) ∧
      Tracks verifyStack (.calcStackDistAndUpdate rAddress addNewNode :: past) next := by
  obtain ⟨cleared, looked, isCleared⟩ := tracks.lookup_ok rAddress
    (if addNewNode then some calculator.index else none) (Nat.le_of_lt few)
  unfold calcStackDistAndUpdate
  simp only []
  rw [looked, ok_bind]
  cases addNewNode with
  | false => exact ⟨cleared, rfl, tracks.removed isCleared fun verify => permitted verify rfl⟩
  | true =>
    obtain ⟨added, leaf, isAdded, rest, leaves, unmarked, sane, sound⟩ :=
      isCleared.leaves.addLeaf_ok (isCleared.index ▸ few)
    obtain ⟨verified, isVerified, others, -, stack⟩ := tracks.verify_ok
      (rest.verifyStack.trans isCleared.verifyStack) (rest.stack.trans isCleared.stack) rAddress
      true
    have checked : ∃ checked, added.checkAdded rAddress (expected past rAddress).1 = .ok checked ∧
        checked = { added with stack := checked.stack } ∧
        (verifyStack = true → checked.stack = rAddress :: calculator.stack.erase rAddress) := by
      have sameFlag : added.verifyStack = verifyStack :=
        (rest.verifyStack.trans isCleared.verifyStack).trans tracks.verifies
      unfold checkAdded
      by_cases isOn : verifyStack = true
      · have sane' : added.sanityCheckTree ⟨0, added.index⟩ = .ok () := rest.index ▸ sane
        rw [if_pos (sameFlag.trans isOn), sane']
        exact ⟨verified, isVerified, others, fun _ => stack isOn rfl⟩
      · rw [if_neg (sameFlag ▸ isOn)]
        exact ⟨added, rfl, rfl, fun on => absurd on isOn⟩
    obtain ⟨checked, isChecked, others, stack⟩ := checked
    refine ⟨{ checked with index := checked.index + 1 }, ?_, ?_⟩
    · simp only [if_true]
      rw [isAdded, ok_bind, isChecked]
      rfl
    · rw [others]
      refine tracks.added isCleared ?_ ?_ (rest.verifyStack.trans isCleared.verifyStack)
        rest.aiMap ?_ unmarked stack
      · exact ⟨sound.tree.congr (fun _ => rfl) (fun _ => rfl) rfl, sound.leaf⟩
      · exact congrArg (· + 1) (rest.index.trans isCleared.index)
      · rw [← isCleared.index]
        exact leaves

/-- One call of `calcStackDist`. -/
theorem calcStackDist_ok (rAddress : Addr) (mark : Bool) :
    ∃ next, calculator.calcStackDist rAddress mark = .ok (next, expected past rAddress) ∧
      Tracks verifyStack (.calcStackDist rAddress mark :: past) next := by
  unfold calcStackDist
  cases entry : calculator.aiMap rAddress with
  | none =>
    obtain ⟨verified, isVerified, -, same, -⟩ := tracks.verify_ok rfl rfl rAddress false
    have isExpected := tracks.expected_of_none entry
    refine ⟨calculator, ?_, ?_⟩
    · rw [isExpected] at isVerified ⊢
      simp only [pure_bind]
      rw [isVerified, same rfl]
      rfl
    · refine ⟨tracks.leaves, tracks.verifies, tracks.index, tracks.isOn, fun a k at_ => ?_,
        tracks.owner, tracks.inj, tracks.order, tracks.stack⟩
      have notThis : rAddress ≠ a := by
        rintro rfl
        rw [entry] at at_
        cases at_
      simpa [markOf, notThis] using tracks.leaf a k at_
  | some k =>
    obtain ⟨leaf, at_, marked⟩ := tracks.leaf rAddress k entry
    obtain ⟨next, isNext, rest, leaves, sound⟩ := tracks.leaves.markLeaf_ok at_ mark
    obtain ⟨verified, isVerified, -, same, -⟩ :=
      tracks.verify_ok rest.verifyStack rest.stack rAddress false
    have isExpected := tracks.expected_of_entry entry
    refine ⟨next, ?_, ?_⟩
    · rw [isExpected] at isVerified ⊢
      simp only []
      rw [isNext, ok_bind, tracks.countIn_eq entry, marked]
      simp only []
      rw [isVerified, same rfl]
      rfl
    · refine ⟨sound, rest.verifyStack.trans tracks.verifies, rest.index.trans tracks.index,
        ?_, fun a j at_a => ?_, fun j present => ?_, ?_, ?_,
        fun verify => rest.stack.trans (tracks.stack verify)⟩
      · rw [rest.aiMap]
        exact tracks.isOn
      · rw [rest.aiMap] at at_a
        by_cases isThis : rAddress = a
        · subst isThis
          rw [entry, Option.some.injEq] at at_a
          subst at_a
          exact ⟨{ leaf with isMarked := mark }, by simp [leaves], by simp [markOf]⟩
        · have other : j ≠ k := by
            rintro rfl
            exact isThis (tracks.inj rAddress a j entry at_a)
          simpa [leaves, other, markOf, isThis] using tracks.leaf a j at_a
      · rw [rest.aiMap]
        apply tracks.owner
        by_cases isThis : j = k
        · simp [isThis, isLive, at_]
        · simpa [isLive, leaves, isThis] using present
      · rw [rest.aiMap]
        exact tracks.inj
      · rw [rest.aiMap]
        exact tracks.order

/-- Every node above a leaf that is on the stack is there. -/
theorem above (entry : calculator.aiMap rAddress = some k) {layer : Nat}
    (inside : layer ≤ calculator.getTreeDepth) :
    (calculator.tree layer (k / 2 ^ layer)).isSome = true := by
  obtain ⟨leaf, at_, -⟩ := tracks.leaf rAddress k entry
  cases layer with
  | zero => simp [at_]
  | succ l =>
    obtain ⟨node, at_, -⟩ := (tracks.leaves.tree.layer l inside).above
      (LeavesSound.isGone_of_entry at_) (tracks.index_lt entry)
    simp [at_]

end Tracks

section

variable {verifyStack : Bool} {past : List Call} {call : Call}

private theorem accesses_le (call : Call) (past : List Call) :
    accesses past ≤ accesses (call :: past) := by
  cases call with
  | calcStackDistAndUpdate rAddress addNewNode => cases addNewNode <;> simp [accesses]
  | calcStackDist => exact le_rfl

private theorem Permitted.before (permitted : Permitted verifyStack (call :: past)) :
    Permitted verifyStack past := by
  cases call with
  | calcStackDistAndUpdate => exact permitted.1
  | calcStackDist => exact permitted

/-- One call returns what is expected. -/
theorem Tracks.take_ok {calculator : StackDistCalc} (tracks : Tracks verifyStack past calculator)
    (few : accesses past < 2 ^ 31) (permitted : Permitted verifyStack (call :: past)) :
    ∃ next, calculator.take call = .ok (next, expected past call.rAddress) ∧
      Tracks verifyStack (call :: past) next := by
  cases call with
  | calcStackDistAndUpdate rAddress addNewNode =>
    exact tracks.calcStackDistAndUpdate_ok rAddress addNewNode (tracks.index ▸ few) permitted.2
  | calcStackDist rAddress mark => exact tracks.calcStackDist_ok rAddress mark

/-- Every history of calls runs through. -/
theorem after_tracks : ∀ past : List Call, accesses past < 2 ^ 31 → Permitted verifyStack past →
    ∃ calculator, after verifyStack past = .ok calculator ∧ Tracks verifyStack past calculator := by
  intro past
  induction past with
  | nil => exact fun _ _ => ⟨_, rfl, start_tracks verifyStack⟩
  | cons call past ih =>
    intro few permitted
    have few' : accesses past < 2 ^ 31 := lt_of_le_of_lt (accesses_le call past) few
    obtain ⟨calculator, isAfter, tracks⟩ := ih few' permitted.before
    obtain ⟨next, taken, tracks'⟩ := tracks.take_ok few' permitted
    refine ⟨next, ?_, tracks'⟩
    unfold after
    rw [isAfter, ok_bind, taken]
    rfl

private theorem answer_eq (few : accesses (call :: past) < 2 ^ 31)
    (permitted : Permitted verifyStack (call :: past)) :
    answer verifyStack past call = .ok (expected past call.rAddress) := by
  have few' : accesses past < 2 ^ 31 := lt_of_le_of_lt (accesses_le call past) few
  obtain ⟨calculator, isAfter, tracks⟩ := after_tracks past few' permitted.before
  obtain ⟨next, taken, -⟩ := tracks.take_ok few' permitted
  unfold answer
  rw [isAfter, ok_bind, taken]
  rfl

end

/-- The calculator computes stack distances: after every history of calls, of fewer than
`2 ^ 31` accesses that add a node and, with the debug checks on, without removals from the
stack,

* a call returns infinity for an address that is not on the stack, and otherwise the number
  of distinct addresses added since the last access to it and the mark of its entry;
* an earlier call of `calcStackDist` makes no difference, except to the mark of its address;
* the leaf of every address on the stack and all nodes above it are still in the tree. -/
theorem computes_stack_distances (verifyStack : Bool) (past : List Call) (call : Call)
    (few : accesses (call :: past) < 2 ^ 31) (permitted : Permitted verifyStack (call :: past)) :
    answer verifyStack past call = .ok (expected past call.rAddress) ∧
    (∀ later rAddress mark earlier, past = later ++ .calcStackDist rAddress mark :: earlier →
      ∃ result, answer verifyStack (later ++ earlier) call = .ok result ∧
        result.1 = (expected past call.rAddress).1 ∧
        (call.rAddress ≠ rAddress → result = expected past call.rAddress)) ∧
    ∃ calculator, after verifyStack past = .ok calculator ∧
      ∀ rAddress k, calculator.aiMap rAddress = some k → ∀ layer ≤ calculator.getTreeDepth,
        (calculator.tree layer (k / 2 ^ layer)).isSome = true := by
  refine ⟨answer_eq few permitted, ?_, ?_⟩
  · rintro later rAddress mark earlier rfl
    refine ⟨expected (later ++ earlier) call.rAddress, answer_eq ?_ ?_, expected_skip_fst.symm,
      fun away => (expected_skip away).symm⟩
    · rw [← List.cons_append, accesses_skip] at few
      exact few
    · rw [← List.cons_append, permitted_skip] at permitted
      exact permitted
  · have few' : accesses past < 2 ^ 31 := lt_of_le_of_lt (accesses_le call past) few
    obtain ⟨calculator, isAfter, tracks⟩ := after_tracks past few' permitted.before
    exact ⟨calculator, isAfter, fun _ _ entry _ inside => tracks.above entry inside⟩

/-- Three addresses with the debug checks on; the first has two others above it, and its
mark has been set. -/
theorem computes_stack_distances_three :
    answer true [.calcStackDist 0 true, .calcStackDistAndUpdate 128 true,
      .calcStackDistAndUpdate 64 true, .calcStackDistAndUpdate 0 true]
      (.calcStackDistAndUpdate 0 true) = .ok (2, true) := by
  have holds := (computes_stack_distances true [.calcStackDist 0 true,
    .calcStackDistAndUpdate 128 true, .calcStackDistAndUpdate 64 true,
    .calcStackDistAndUpdate 0 true] (.calcStackDistAndUpdate 0 true) (by decide)
    (by simp [Permitted])).1
  rw [holds]
  rfl

/-- A removal leaves the address on the naive stack, and the comparison with it stops the
next call although the distance found in the tree is right. -/
theorem removed_address_panics :
    (accesses [.calcStackDist 64 false, .calcStackDistAndUpdate 64 false,
      .calcStackDistAndUpdate 64 true] < 2 ^ 31) ∧
    expected [.calcStackDistAndUpdate 64 false, .calcStackDistAndUpdate 64 true] 64 =
      (infinity, false) ∧
    answer false [.calcStackDistAndUpdate 64 false, .calcStackDistAndUpdate 64 true]
      (.calcStackDist 64 false) = .ok (infinity, false) ∧
    answer true [.calcStackDistAndUpdate 64 false, .calcStackDistAndUpdate 64 true]
      (.calcStackDist 64 false) = .error (.panic "Expected stack-distance for address") :=
  ⟨by decide, rfl, rfl, rfl⟩

end Gem5.StackDistCalc
