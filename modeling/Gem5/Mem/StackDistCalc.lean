import Gem5.Base.AddrRange

/-!
# The stack distance calculator

`mem/stack_dist_calc.{hh,cc}`.  Every access adds a leaf, under the number of the access,
to the bottom layer of a binary tree of partial sums; the leaf of the previous access to
the same address is taken away.  The distance of an address is the sum of what lies to
the right of its leaf.  Layers are added at the top when the number of accesses crosses a
power of two, and a node both of whose sides have been discarded is deleted.

The maps of a layer own its nodes, and no node changes its layer or its index, so that a
pointer to a node is its place.  Following a pointer to a node that is no longer in its
layer stops the calculation.
-/

namespace Gem5

open Foundation

/-- `isPowerOf2` of `base/intmath.hh`. -/
def isPowerOf2 (n : Nat) : Bool :=
  n != 0 && n &&& (n - 1) == 0

namespace StackDistCalc

/-- A `Node*`: the layer of the node and its index there. -/
structure NodePtr where
  layer : Nat
  nodeIndex : Nat
  deriving DecidableEq, Repr

/-- `StackDistCalc::Node`, with the values its constructor gives. -/
structure Node where
  sumLeft : Nat := 0
  sumRight : Nat := 0
  discardLeft : Bool := false
  discardRight : Bool := false
  nodeIndex : Nat := 0
  parent : Option NodePtr := none
  isLeftNode : Bool := true
  isMarked : Bool := false
  deriving DecidableEq, Repr

end StackDistCalc

/-- `StackDistCalc`.  `tree` gives the entry of each layer at each index and `layers` is
`tree.size()`; the last element of the vector `stack` comes first. -/
structure StackDistCalc where
  index : Nat
  tree : Nat → Nat → Option StackDistCalc.Node
  layers : Nat
  aiMap : Addr → Option Nat
  nextIndex : Nat → Nat
  stack : List Addr
  verifyStack : Bool

namespace StackDistCalc

/-- `Infinity`. -/
def infinity : Nat :=
  2 ^ 64 - 1

/-- `1 << i` as an `int`, which is not defined from the sign bit on. -/
def shiftOne (i : Nat) : Checked Nat := do
  assertThat (i < 31) "1 << i fits an int"
  pure (2 ^ i)

/-- `getTreeDepth`. -/
def getTreeDepth (calculator : StackDistCalc) : Nat :=
  calculator.layers - 1

/-- Follow a pointer. -/
def deref (calculator : StackDistCalc) (ptr : NodePtr) : Checked Node :=
  match calculator.tree ptr.layer ptr.nodeIndex with
  | some node => .ok node
  | none => panicWith "the node has been deleted"

/-- The pointer `tree[layer][nodeIndex]`, which the callers go on to use. -/
def nodeAt (calculator : StackDistCalc) (layer nodeIndex : Nat) : Checked NodePtr := do
  let _ ← calculator.deref ⟨layer, nodeIndex⟩
  pure ⟨layer, nodeIndex⟩

/-- Set or erase one entry of the tree. -/
def setEntry (calculator : StackDistCalc) (layer nodeIndex : Nat) (entry : Option Node) :
    StackDistCalc :=
  { calculator with
    tree := fun l i => if l = layer ∧ i = nodeIndex then entry else calculator.tree l i }

/-- Give the parent of a node, which is used without a test for null. -/
def parentOf (node : Node) : Checked NodePtr :=
  match node.parent with
  | some parent => .ok parent
  | none => panicWith "null parent"

/-- What `updateSum` writes to a node. -/
def Node.updated (node : Node) (fromLeft : Bool) (sumFromBelow : Nat) (discardNode : Bool) : Node :=
  let discarded := discardNode && sumFromBelow == 0
  { node with
    sumLeft := if fromLeft then sumFromBelow else node.sumLeft
    sumRight := if fromLeft then node.sumRight else sumFromBelow
    discardLeft := node.discardLeft || (discarded && fromLeft)
    discardRight := node.discardRight || (discarded && !fromLeft) }

/-- The check of `updateSum` on the sums of a node, made only if `verifyStack` is set. -/
def checkSums (calculator : StackDistCalc) (level : Nat) (node : Node) : Checked Unit :=
  if calculator.verifyStack then do
    let leaves ← shiftOne (level - 1)
    panicIf (node.sumLeft > leaves) "Error in sum left of level"
    panicIf (node.sumRight > leaves) "Error in sum right of level"
  else
    pure ()

/-- `updateSum`; the fuel is the number of layers left above. -/
def updateSum : Nat → StackDistCalc → NodePtr → (fromLeft : Bool) →
    (sumFromBelow level stackDist : Nat) → (discardNode : Bool) → Checked (StackDistCalc × Nat)
  | 0, _, _, _, _, _, _, _ => panicWith "the walk leaves the tree"
  | fuel + 1, calculator, ptr, fromLeft, sumFromBelow, level, stackDist, discardNode => do
    let node ← calculator.deref ptr
    calculator.checkSums (level + 1) node
    let updated := node.updated fromLeft sumFromBelow discardNode
    let stackDist := if fromLeft then stackDist + node.sumRight else stackDist
    -- A root is never deleted: it has no parent.
    let discardNode := updated.discardLeft && updated.discardRight && discardNode &&
      node.parent.isSome && sumFromBelow == 0
    let calculator := calculator.setEntry (level + 1) node.nodeIndex
      (if discardNode then none else some updated)
    match node.parent with
    | some parent =>
      updateSum fuel calculator parent node.isLeftNode (updated.sumLeft + updated.sumRight)
        (level + 1) stackDist discardNode
    | none => pure (calculator, stackDist)

/-- `updateSumsLeavesToRoot`. -/
def updateSumsLeavesToRoot (calculator : StackDistCalc) (leaf : NodePtr) (isNewLeaf : Bool) :
    Checked (StackDistCalc × Nat) := do
  let node ← calculator.deref leaf
  let sum := if isNewLeaf then 1 else 0
  let calculator :=
    calculator.setEntry leaf.layer leaf.nodeIndex (some { node with sumLeft := sum })
  let parent ← parentOf node
  let (calculator, stackDist) ←
    updateSum calculator.layers calculator parent node.isLeftNode sum 0 0 (!isNewLeaf)
  pure (calculator, if isNewLeaf then infinity else stackDist)

/-- `getSum`; it does not use the sum from below. -/
def getSum (calculator : StackDistCalc) : Nat → NodePtr → (fromLeft : Bool) → (stackDist : Nat) →
    Checked Nat
  | 0, _, _, _ => panicWith "the walk leaves the tree"
  | fuel + 1, ptr, fromLeft, stackDist => do
    let node ← calculator.deref ptr
    let stackDist := if fromLeft then stackDist + node.sumRight else stackDist
    match node.parent with
    | some parent => getSum calculator fuel parent node.isLeftNode stackDist
    | none => pure stackDist

/-- `getSumsLeavesToRoot`. -/
def getSumsLeavesToRoot (calculator : StackDistCalc) (leaf : NodePtr) : Checked Nat := do
  let node ← calculator.deref leaf
  let parent ← parentOf node
  calculator.getSum calculator.layers parent node.isLeftNode 0

/-- Add the next intermediate node of a layer and link it to the last node above. -/
def addINode (calculator : StackDistCalc) (i : Nat) : Checked StackDistCalc := do
  let parent ← calculator.nodeAt (i + 1) (calculator.nextIndex (i + 1) - 1)
  let newINode : Node :=
    { isLeftNode := calculator.nextIndex i % 2 == 0
      parent := some parent
      nodeIndex := calculator.nextIndex i }
  pure { calculator.setEntry i (calculator.nextIndex i) (some newINode) with
    nextIndex := fun l => if l = i then calculator.nextIndex i + 1 else calculator.nextIndex l }

/-- The loops of `updateTree` over the layers below the root, from the top; `due` says
whether a layer gets a node. -/
def addINodes (due : Nat → Checked Bool) : Nat → StackDistCalc → Checked StackDistCalc
  | 0, calculator => pure calculator
  | i + 1, calculator => do
    let isDue ← due (i + 1)
    let added := if isDue then calculator.addINode (i + 1) else pure calculator
    let calculator ← added
    addINodes due i calculator

/-- Put a new root above the old one: the first half of OP1. -/
def addRoot (calculator : StackDistCalc) : Checked StackDistCalc := do
  let depth := calculator.getTreeDepth
  let old ← calculator.deref ⟨depth, 0⟩
  let newRootNode : Node :=
    { sumLeft := old.sumRight + old.sumLeft
      discardLeft := old.discardLeft && old.discardRight }
  let calculator := { calculator.setEntry (depth + 1) 0 (some newRootNode) with
    layers := calculator.layers + 1
    nextIndex := fun l => if l = depth + 1 then 1 else calculator.nextIndex l }
  pure (calculator.setEntry depth 0 (some { old with parent := some ⟨depth + 1, 0⟩ }))

/-- `updateTree`. -/
def updateTree (calculator : StackDistCalc) : Checked StackDistCalc :=
  if isPowerOf2 calculator.index then do
    let calculator ← calculator.addRoot
    addINodes (fun _ => pure true) (calculator.getTreeDepth - 1) calculator
  else
    addINodes (fun i => do
      let period ← shiftOne i
      pure (calculator.index % period == 0)) (calculator.getTreeDepth - 1) calculator

/-- The walk of `sanityCheckTree`: the number of steps up, then the root. -/
def walkToRoot (calculator : StackDistCalc) : Nat → NodePtr → Checked Unit
  | 0, ptr => do
    let node ← calculator.deref ptr
    panicIf (node.parent.isSome = true) "Sanity check failed for node"
  | steps + 1, ptr => do
    let node ← calculator.deref ptr
    let parent ← parentOf node
    walkToRoot calculator steps parent

/-- `sanityCheckTree`, called with level 0. -/
def sanityCheckTree (calculator : StackDistCalc) (leaf : NodePtr) : Checked Unit := do
  let node ← calculator.deref leaf
  let parent ← parentOf node
  calculator.walkToRoot (calculator.getTreeDepth - 1) parent

/-- The distance in the naive stack: how many entries lie above the address. -/
def naiveDist (stack : List Addr) (rAddress : Addr) : Nat :=
  if rAddress ∈ stack then (stack.takeWhile (· != rAddress)).length else infinity

/-- `verifyStackDist`. -/
def verifyStackDist (calculator : StackDistCalc) (rAddress : Addr) (updateStack : Bool) :
    StackDistCalc × Nat :=
  let stack := calculator.stack
  ({ calculator with stack := if updateStack then rAddress :: stack.erase rAddress else stack },
    naiveDist calculator.stack rAddress)

/-- The comparison with the naive stack, made only if `verifyStack` is set. -/
def verify (calculator : StackDistCalc) (rAddress : Addr) (updateStack : Bool) (stackDist : Nat) :
    Checked StackDistCalc :=
  if calculator.verifyStack then do
    let (calculator, verifyStackDist) := calculator.verifyStackDist rAddress updateStack
    panicIf (verifyStackDist ≠ stackDist) "Expected stack-distance for address"
    pure calculator
  else
    pure calculator

/-- Take the leaf of an earlier access away, giving the distance and the mark. -/
def removeLeaf (calculator : StackDistCalc) (rIndex : Nat) :
    Checked (StackDistCalc × Nat × Bool) := do
  let (calculator, stackDist) ← calculator.updateSumsLeavesToRoot ⟨0, rIndex⟩ false
  let leaf ← calculator.deref ⟨0, rIndex⟩
  pure (calculator.setEntry 0 rIndex none, stackDist, leaf.isMarked)

/-- Add the leaf of the current access. -/
def addLeaf (calculator : StackDistCalc) : Checked StackDistCalc := do
  let grown := if calculator.index % 2 = 0 then calculator.updateTree else pure calculator
  let calculator ← grown
  let parent ← calculator.nodeAt 1 (calculator.nextIndex 1 - 1)
  let newLeafNode : Node :=
    { nodeIndex := calculator.index
      isLeftNode := calculator.index % 2 == 0
      parent := some parent }
  let calculator := { calculator.setEntry 0 calculator.index (some newLeafNode) with
    nextIndex := fun l => if l = 0 then calculator.nextIndex 0 + 1 else calculator.nextIndex l }
  let (calculator, _) ← calculator.updateSumsLeavesToRoot ⟨0, calculator.index⟩ true
  pure calculator

/-- The debug checks after a leaf has been added, made only if `verifyStack` is set. -/
def checkAdded (calculator : StackDistCalc) (rAddress : Addr) (stackDist : Nat) :
    Checked StackDistCalc :=
  if calculator.verifyStack then do
    calculator.sanityCheckTree ⟨0, calculator.index⟩
    calculator.verify rAddress true stackDist
  else
    pure calculator

/-- Set or erase the entry of an address in `aiMap`. -/
def setIndex (calculator : StackDistCalc) (rAddress : Addr) (entry : Option Nat) : StackDistCalc :=
  { calculator with aiMap := fun a => if a = rAddress then entry else calculator.aiMap a }

/-- Look an address up, replacing its entry and taking its leaf away. -/
def lookup (calculator : StackDistCalc) (rAddress : Addr) (entry : Option Nat) :
    Checked (StackDistCalc × Nat × Bool) :=
  match calculator.aiMap rAddress with
  | some rIndex => (calculator.setIndex rAddress entry).removeLeaf rIndex
  | none => pure (calculator.setIndex rAddress entry, infinity, false)

/-- `calcStackDistAndUpdate`. -/
def calcStackDistAndUpdate (calculator : StackDistCalc) (rAddress : Addr) (addNewNode : Bool) :
    Checked (StackDistCalc × Nat × Bool) := do
  -- Without a new node an entry is erased, and nothing is entered for a new address.
  let entry := if addNewNode then some calculator.index else none
  let (calculator, stackDist, mark) ← calculator.lookup rAddress entry
  if addNewNode then do
    let calculator ← calculator.addLeaf
    let calculator ← calculator.checkAdded rAddress stackDist
    pure ({ calculator with index := calculator.index + 1 }, stackDist, mark)
  else
    pure (calculator, stackDist, mark)

/-- Read and set the mark of a leaf and give its distance. -/
def markLeaf (calculator : StackDistCalc) (rIndex : Nat) (mark : Bool) :
    Checked (StackDistCalc × Nat × Bool) := do
  let leaf ← calculator.deref ⟨0, rIndex⟩
  let calculator := calculator.setEntry 0 rIndex (some { leaf with isMarked := mark })
  let stackDist ← calculator.getSumsLeavesToRoot ⟨0, rIndex⟩
  pure (calculator, stackDist, leaf.isMarked)

/-- `calcStackDist`. -/
def calcStackDist (calculator : StackDistCalc) (rAddress : Addr) (mark : Bool) :
    Checked (StackDistCalc × Nat × Bool) := do
  let looked :=
    match calculator.aiMap rAddress with
    | some rIndex => calculator.markLeaf rIndex mark
    | none => pure (calculator, infinity, false)
  let (calculator, stackDist, mark) ← looked
  let calculator ← calculator.verify rAddress false stackDist
  pure (calculator, stackDist, mark)

/-- The constructor: an empty leaf layer below a root. -/
def start (verifyStack : Bool) : StackDistCalc where
  index := 0
  tree := fun layer nodeIndex => if layer = 1 ∧ nodeIndex = 0 then some {} else none
  layers := 2
  aiMap := fun _ => none
  nextIndex := fun layer => if layer = 1 then 1 else 0
  stack := []
  verifyStack := verifyStack

/-- A call of the interface. -/
inductive Call where
  | calcStackDistAndUpdate (rAddress : Addr) (addNewNode : Bool)
  | calcStackDist (rAddress : Addr) (mark : Bool)
  deriving DecidableEq, Repr

/-- The address of a call. -/
def Call.rAddress : Call → Addr
  | .calcStackDistAndUpdate rAddress _ => rAddress
  | .calcStackDist rAddress _ => rAddress

/-- Make a call: the calculator after it, the distance and the mark. -/
def take (calculator : StackDistCalc) : Call → Checked (StackDistCalc × Nat × Bool)
  | .calcStackDistAndUpdate rAddress addNewNode =>
    calculator.calcStackDistAndUpdate rAddress addNewNode
  | .calcStackDist rAddress mark => calculator.calcStackDist rAddress mark

/-- The calculator after some calls, the latest of which comes first. -/
def after (verifyStack : Bool) : List Call → Checked StackDistCalc
  | [] => pure (start verifyStack)
  | call :: past => do
    let calculator ← after verifyStack past
    let (calculator, _) ← calculator.take call
    pure calculator

/-- What a call returns after some others. -/
def answer (verifyStack : Bool) (past : List Call) (call : Call) : Checked (Nat × Bool) := do
  let calculator ← after verifyStack past
  let (_, result) ← calculator.take call
  pure result

end StackDistCalc

end Gem5
