import Gem5.Foundation.FailStop
import Gem5.Foundation.HeapContract
import Mathlib.Algebra.Group.Nat.Defs
import Mathlib.Data.List.Induction

/-!
# The Huffman encoder of the cache compressors

`mem/cache/compressors/encoders/huffman.{hh,cc}`.  The sampled values are merged, least
frequency first, into a tree, and the path to a value is its codeword.  The tree makes the
codewords prefix free, but the table for decoding is indexed by the number a codeword
spells, without its length.
-/

namespace Gem5.Compression

open Foundation

/-- `encoder::Code`. -/
structure Code where
  code : BitVec 64
  length : Nat
  deriving DecidableEq, Repr

namespace Code

variable {code other : Code} {path : List Bool}

/-- The code of a child: the right one has the bit 1. -/
def child (code : Code) : Bool → Code
  | true => ⟨(code.code <<< 1) + 1, code.length + 1⟩
  | false => ⟨code.code <<< 1, code.length + 1⟩

/-- The codeword of a path, in which `true` leads right. -/
def along (code : Code) (path : List Bool) : Code :=
  path.foldl child code

@[simp] private theorem length_child (bit : Bool) : (code.child bit).length = code.length + 1 := by
  cases bit <;> rfl

@[simp] private theorem along_cons (bit : Bool) :
    code.along (bit :: path) = (code.child bit).along path :=
  rfl

@[simp] private theorem length_along : (code.along path).length = code.length + path.length := by
  induction path generalizing code with
  | nil => rfl
  | cons bit path ih =>
    rw [along_cons, ih, length_child, List.length_cons]
    omega

/-- Codes that fit into their length. -/
def Fits (code : Code) : Prop := code.code.toNat < 2 ^ code.length

/-- The number of a child, as long as it fits into 64 bits. -/
theorem Fits.child (fits : code.Fits) (room : code.length + 1 ≤ 64) (bit : Bool) :
    (code.child bit).code.toNat = 2 * code.code.toNat + bit.toNat ∧ (code.child bit).Fits := by
  have bound : 2 ^ (code.length + 1) ≤ 2 ^ 64 := Nat.pow_le_pow_right (by decide) room
  unfold Fits at fits
  have shifted : (code.code <<< 1).toNat = 2 * code.code.toNat := by
    rw [BitVec.toNat_shiftLeft, Nat.shiftLeft_eq, Nat.mod_eq_of_lt (by omega)]
    omega
  have number : (code.child bit).code.toNat = 2 * code.code.toNat + bit.toNat := by
    cases bit with
    | false => exact shifted
    | true =>
      change (code.code <<< 1 + 1).toNat = _
      rw [BitVec.toNat_add, shifted, Nat.mod_eq_of_lt]
      · rfl
      · change 2 * code.code.toNat + 1 < 2 ^ 64
        omega
  refine ⟨number, ?_⟩
  have small := bit.toNat_le
  rw [Fits, number, length_child]
  omega

/-- The codewords below a node are those between the path to it and the next path. -/
theorem Fits.along (fits : code.Fits) (room : code.length + path.length ≤ 64) :
    code.code.toNat * 2 ^ path.length ≤ (code.along path).code.toNat ∧
      (code.along path).code.toNat < (code.code.toNat + 1) * 2 ^ path.length := by
  induction path generalizing code with
  | nil => simp [along]
  | cons bit path ih =>
    rw [List.length_cons] at room
    obtain ⟨number, fits'⟩ := fits.child (by omega) bit
    obtain ⟨lower, upper⟩ := ih fits' (by rw [length_child]; omega)
    have small := Nat.mul_le_mul_right (2 ^ path.length) bit.toNat_le
    rw [number, Nat.add_mul, Nat.mul_assoc] at lower
    rw [number, Nat.add_mul, Nat.add_mul, Nat.mul_assoc] at upper
    rw [along_cons, List.length_cons, Nat.pow_succ, Nat.add_mul, ← Nat.mul_assoc]
    omega

/-- Leading zeros do not change the number. -/
theorem along_replicate (zeros : Nat) :
    ((⟨0, 0⟩ : Code).along (List.replicate zeros false ++ path)).code =
      ((⟨0, 0⟩ : Code).along path).code := by
  have number : ∀ {length length' : Nat} {code : BitVec 64} {path : List Bool},
      ((⟨code, length⟩ : Code).along path).code = ((⟨code, length'⟩ : Code).along path).code := by
    intro length length' code path
    induction path generalizing length length' code with
    | nil => rfl
    | cons bit path ih => cases bit <;> exact ih
  have stays : ∀ length, (⟨0, length⟩ : Code).along (List.replicate zeros false) =
      ⟨0, length + zeros⟩ := by
    induction zeros with
    | zero => simp [along]
    | succ zeros ih =>
      intro length
      have still : (⟨0, length⟩ : Code).child false = ⟨0, length + 1⟩ := by simp [child]
      rw [List.replicate_succ, along_cons, still, ih, Nat.add_right_comm, Nat.add_assoc]
  rw [along, List.foldl_append]
  change (((⟨0, 0⟩ : Code).along (List.replicate zeros false)).along path).code = _
  rw [stays]
  exact number

/-- Paths of one length with one number are the same. -/
theorem Fits.path_eq {path' : List Bool} (fits : code.Fits)
    (room : code.length + path.length ≤ 64) (length : path'.length = path.length)
    (same : (code.along path').code = (code.along path).code) : path' = path := by
  induction path generalizing code path' with
  | nil => exact List.length_eq_zero_iff.mp length
  | cons bit path ih =>
    obtain ⟨bit', path', rfl⟩ := List.exists_cons_of_length_eq_add_one length
    rw [List.length_cons] at room length
    rw [along_cons, along_cons] at same
    have short : ∀ bit, (code.child bit).length + path.length ≤ 64 := fun bit => by
      rw [length_child]
      omega
    obtain ⟨number, fits'⟩ := fits.child (by omega) bit
    obtain ⟨number', fits''⟩ := fits.child (by omega) bit'
    -- The codewords below the two children do not overlap.
    obtain ⟨lower, upper⟩ := fits'.along (short bit)
    obtain ⟨lower', upper'⟩ := fits''.along ((Nat.succ.inj length).symm ▸ short bit')
    rw [same, Nat.succ.inj length] at lower' upper'
    have below := Nat.lt_of_mul_lt_mul_right (lower.trans_lt upper')
    have below' := Nat.lt_of_mul_lt_mul_right (lower'.trans_lt upper)
    have bits : bit'.toNat = bit.toNat := by omega
    obtain rfl : bit' = bit := by cases bit <;> cases bit' <;> simp_all
    rw [ih fits' (short bit') (Nat.succ.inj length) same]

end Code

/-- `Huffman::Node`.  A parent has both subtrees and no value of its own. -/
inductive Node where
  | leaf (value frequency : BitVec 64)
  | parent (left right : Node)
  deriving Repr

/-- `getFrequency`. -/
def Node.getFrequency : Node → BitVec 64
  | .leaf _ frequency => frequency
  | .parent left right => left.getFrequency + right.getFrequency

/-- `NodeComparator`: whether the queue serves `lhs` after `rhs`. -/
def NodeComparator (lhs rhs : Node) : Bool := rhs.getFrequency < lhs.getFrequency

private theorem isOrder_nodeComparator : IsOrder NodeComparator where
  trans a b c := by
    simp only [NodeComparator, decide_eq_false_iff_not, BitVec.not_lt]
    exact BitVec.le_trans
  total a b := by
    simp only [NodeComparator, decide_eq_false_iff_not, BitVec.not_lt]
    exact BitVec.le_total _ _

/-- The encoder. -/
structure Huffman where
  maxCodeLength : Nat
  valueToCode : BitVec 64 → Option Code
  codeToValue : BitVec 64 → Option (BitVec 64)
  trees : List Node

namespace Huffman

/-- An encoder without codes and samples. -/
def blank (maxCodeLength : Nat) : Huffman := ⟨maxCodeLength, fun _ => none, fun _ => none, []⟩

/-- The constructor. -/
def init (max_code_length : Nat) : Checked Huffman := do
  panicIf (max_code_length > 64) "Code length cannot surpass its underlying container"
  return .blank max_code_length

/-! ## The tree -/

section Queue

variable (algorithms : HeapAlgorithms NodeComparator)

/-- `trees.push`. -/
def push (trees : List Node) (node : Node) : List Node :=
  algorithms.pushHeap (trees ++ [node])

/-- `trees.top` and `trees.pop`. -/
def takeTop (trees : List Node) : Checked (Node × List Node) :=
  match trees.head? with
  | some top => return (top, (algorithms.popHeap trees).dropLast)
  | none => panicWith "top of an empty queue"

/-- `sample`. -/
def sample (encoder : Huffman) (value frequency : BitVec 64) : Huffman :=
  if frequency ≠ 0 then
    { encoder with trees := push algorithms encoder.trees (.leaf value frequency) }
  else encoder

/-- The loop of `buildTree`, for at most so many rounds. -/
def mergeTrees : Nat → List Node → Checked (List Node)
  | 0, trees => return trees
  | rounds + 1, trees =>
    if trees.length > 1 then do
      let (left, trees) ← takeTop algorithms trees
      let (right, trees) ← takeTop algorithms trees
      mergeTrees rounds (push algorithms trees (.parent left right))
    else return trees

/-- `buildTree`.  Every round leaves one tree less. -/
def buildTree (encoder : Huffman) : Checked (Node × Huffman) := do
  let trees ← mergeTrees algorithms encoder.trees.length encoder.trees
  let (root, trees) ← takeTop algorithms trees
  return (root, { encoder with trees := trees })

end Queue

/-! ## The codes -/

/-- The entries of a leaf in the two tables. -/
def enter (encoder : Huffman) (entry : BitVec 64 × Code) : Huffman :=
  { encoder with
    valueToCode := Function.update encoder.valueToCode entry.1 (some entry.2)
    codeToValue := Function.update encoder.codeToValue entry.2.code (some entry.1) }

/-- `generateCodes`. -/
def generateCodes (encoder : Huffman) (node : Node) (current_code : Code) : Huffman :=
  if current_code.length > encoder.maxCodeLength then encoder
  else match node with
    | .leaf value _ => encoder.enter (value, current_code)
    | .parent left right =>
      let right_code : Code := ⟨(current_code.code <<< 1) + 1, current_code.length + 1⟩
      let left_code : Code := ⟨current_code.code <<< 1, current_code.length + 1⟩
      (encoder.generateCodes right right_code).generateCodes left left_code

/-- `generateCodeMaps`. -/
def generateCodeMaps (algorithms : HeapAlgorithms NodeComparator) (encoder : Huffman) :
    Checked Huffman := do
  let (root, encoder) ← encoder.buildTree algorithms
  return { encoder with
    valueToCode := fun _ => none, codeToValue := fun _ => none }.generateCodes root ⟨0, 0⟩

/-- `encode`. -/
def encode (encoder : Huffman) (val : BitVec 64) : Code :=
  (encoder.valueToCode val).getD ⟨0, 65⟩

/-- `decode`. -/
def decode (encoder : Huffman) (code : BitVec 64) : Checked (BitVec 64) :=
  match encoder.codeToValue code with
  | some value => return value
  | none => .error (.assertion "it != codeToValue.end()")

/-- The calls of `sample`, one after the other. -/
def sampleAll (algorithms : HeapAlgorithms NodeComparator) (encoder : Huffman)
    (samples : List (BitVec 64 × BitVec 64)) : Huffman :=
  samples.foldl (fun encoder pair => encoder.sample algorithms pair.1 pair.2) encoder

/-- An encoder for the sampled values. -/
def ofSamples (algorithms : HeapAlgorithms NodeComparator) (max_code_length : Nat)
    (samples : List (BitVec 64 × BitVec 64)) : Checked Huffman := do
  let encoder ← init max_code_length
  (encoder.sampleAll algorithms samples).generateCodeMaps algorithms

/-! ## What the tree holds -/

/-- The values at the leaves, in the order in which `generateCodes` meets them. -/
def values : Node → List (BitVec 64)
  | .leaf value _ => [value]
  | .parent left right => values right ++ values left

section Queue

variable (algorithms : HeapAlgorithms NodeComparator) {trees : List Node}

private theorem push_spec (heap : IsHeap NodeComparator trees) (node : Node) :
    IsHeap NodeComparator (push algorithms trees node) ∧
      (push algorithms trees node).Perm (node :: trees) := by
  obtain ⟨pushed, perm⟩ := algorithms.pushHeap_spec trees node heap
  exact ⟨pushed, perm.trans (List.perm_append_singleton node trees)⟩

private theorem takeTop_ok (heap : IsHeap NodeComparator trees) (some_tree : trees ≠ []) :
    ∃ top rest, takeTop algorithms trees = .ok (top, rest) ∧ IsHeap NodeComparator rest ∧
      trees.Perm (top :: rest) := by
  obtain ⟨top, others, rfl⟩ := List.exists_cons_of_ne_nil some_tree
  obtain ⟨rest, popped, left, perm⟩ := algorithms.popHeap_spec top others heap
  refine ⟨top, rest, ?_, left, perm.symm.cons top⟩
  simp only [takeTop, List.head?_cons, popped, List.dropLast_concat]
  rfl

/-- Merging leaves one tree with the values of all of them. -/
theorem mergeTrees_ok {rounds : Nat} (heap : IsHeap NodeComparator trees) (some_tree : trees ≠ [])
    (enough : trees.length ≤ rounds + 1) : ∃ root, mergeTrees algorithms rounds trees = .ok [root] ∧
      (values root).Perm (trees.flatMap values) := by
  induction rounds generalizing trees with
  | zero =>
    obtain ⟨root, rest, rfl⟩ := List.exists_cons_of_ne_nil some_tree
    obtain rfl : rest = [] := by simpa using enough
    exact ⟨root, rfl, by simp⟩
  | succ rounds ih =>
    by_cases several : trees.length > 1
    · obtain ⟨left, trees', took, heap', perm⟩ := takeTop_ok algorithms heap some_tree
      have length := perm.length_eq
      rw [List.length_cons] at length
      have more : trees' ≠ [] := List.ne_nil_of_length_pos (by omega)
      obtain ⟨right, rest, took', heap'', perm'⟩ := takeTop_ok algorithms heap' more
      obtain ⟨pushed, pushPerm⟩ := push_spec algorithms heap'' (.parent left right)
      have length' := perm'.length_eq
      have fewer := pushPerm.length_eq
      rw [List.length_cons] at length' fewer
      obtain ⟨root, merged, same⟩ := ih pushed (List.ne_nil_of_length_pos (by omega)) (by omega)
      refine ⟨root, ?_, same.trans ?_⟩
      · simp only [mergeTrees, if_pos several, took, took', ok_bind, merged]
      · have together : (values right ++ values left ++ rest.flatMap values).Perm
            (values left ++ (values right ++ rest.flatMap values)) := by
          rw [List.append_assoc]
          exact List.perm_append_comm_assoc _ _ _
        have before : (trees.flatMap values).Perm
            (values left ++ (values right ++ rest.flatMap values)) :=
          (perm.flatMap_right values).trans ((perm'.flatMap_right values).append_left _)
        exact ((pushPerm.flatMap_right values).trans together).trans before.symm
    · obtain ⟨root, rest, rfl⟩ := List.exists_cons_of_ne_nil some_tree
      obtain rfl : rest = [] := by simpa using several
      exact ⟨root, by simp [mergeTrees, pure, Except.pure], by simp⟩

/-- The queue holds a leaf for every value that was sampled. -/
theorem sampled_spec (samples : List (BitVec 64 × BitVec 64)) (encoder : Huffman)
    (heap : IsHeap NodeComparator encoder.trees) :
    ∃ trees, encoder.sampleAll algorithms samples = { encoder with trees := trees } ∧
      IsHeap NodeComparator trees ∧ (trees.flatMap values).Perm
        (encoder.trees.flatMap values ++ (samples.filter (·.2 ≠ 0)).map Prod.fst) := by
  induction samples generalizing encoder with
  | nil => exact ⟨encoder.trees, rfl, heap, by simp⟩
  | cons pair rest ih =>
    obtain ⟨value, frequency⟩ := pair
    by_cases counted : frequency ≠ 0
    · obtain ⟨pushed, perm⟩ := push_spec algorithms heap (.leaf value frequency)
      obtain ⟨trees, sampled, heap', same⟩ :=
        ih { encoder with trees := push algorithms encoder.trees (.leaf value frequency) } pushed
      refine ⟨trees, ?_, heap', same.trans ?_⟩
      · rw [sampleAll, List.foldl_cons, sample, if_pos counted, ← sampleAll, sampled]
      · rw [List.filter_cons_of_pos (by simpa using counted), List.map_cons]
        exact ((perm.flatMap_right values).append_right _).trans List.perm_middle.symm
    · obtain ⟨trees, sampled, heap', same⟩ := ih encoder heap
      refine ⟨trees, ?_, heap', ?_⟩
      · rw [sampleAll, List.foldl_cons, sample, if_neg counted, ← sampleAll, sampled]
      · rwa [List.filter_cons_of_neg (by simpa using counted)]

end Queue

/-! ## What the tables hold -/

/-- The value of the leaf at the end of a path. -/
def leafAt : Node → List Bool → Option (BitVec 64)
  | .leaf value _, [] => some value
  | .parent _ right, true :: path => leafAt right path
  | .parent left _, false :: path => leafAt left path
  | _, _ => none

/-- The codewords below a node, in the order in which `generateCodes` enters them. -/
def codewords (maxCodeLength : Nat) (node : Node) (current_code : Code) : List (BitVec 64 × Code) :=
  if current_code.length > maxCodeLength then []
  else match node with
    | .leaf value _ => [(value, current_code)]
    | .parent left right =>
      codewords maxCodeLength right (current_code.child true) ++
        codewords maxCodeLength left (current_code.child false)

variable {maxCodeLength : Nat} {node : Node} {current_code : Code} {encoder : Huffman}
  {entries : List (BitVec 64 × Code)} {entry other : BitVec 64 × Code} {path : List Bool}

private theorem maxCodeLength_foldl_enter :
    (entries.foldl enter encoder).maxCodeLength = encoder.maxCodeLength := by
  induction entries generalizing encoder with
  | nil => rfl
  | cons entry rest ih => exact ih

/-- The recursion enters the codewords one after the other. -/
theorem generateCodes_eq : encoder.generateCodes node current_code =
      (codewords encoder.maxCodeLength node current_code).foldl enter encoder := by
  induction node generalizing encoder current_code with
  | leaf value frequency =>
    unfold generateCodes codewords
    split <;> rfl
  | parent left right ihLeft ihRight =>
    unfold generateCodes codewords
    split
    · rfl
    · dsimp only
      rw [ihRight, ihLeft, maxCodeLength_foldl_enter, List.foldl_append]
      rfl

/-- Only values of the tree get a codeword, each at most as often as it is there. -/
theorem codewords_sublist :
    ((codewords maxCodeLength node current_code).map Prod.fst).Sublist (values node) := by
  induction node generalizing current_code with
  | leaf value frequency =>
    unfold codewords
    split
    · exact List.nil_sublist _
    · exact List.Sublist.refl _
  | parent left right ihLeft ihRight =>
    unfold codewords
    split
    · exact List.nil_sublist _
    · rw [List.map_append]
      exact ihRight.append ihLeft

/-- The codewords are those of the paths to leaves that are not too long. -/
theorem mem_codewords : entry ∈ codewords maxCodeLength node current_code ↔
      ∃ path, leafAt node path = some entry.1 ∧
        current_code.length + path.length ≤ maxCodeLength ∧ entry.2 = current_code.along path := by
  induction node generalizing current_code with
  | leaf value frequency =>
    unfold codewords
    split
    · next long =>
      simp only [List.not_mem_nil, false_iff, not_exists, not_and]
      omega
    · next short =>
      rw [List.mem_singleton]
      constructor
      · rintro rfl
        exact ⟨[], rfl, by simpa using short, rfl⟩
      · rintro ⟨_ | ⟨_, _⟩, found, -, code⟩
        · exact Prod.ext (Option.some.inj found).symm code
        · simp [leafAt] at found
  | parent left right ihLeft ihRight =>
    unfold codewords
    split
    · next long =>
      simp only [List.not_mem_nil, false_iff, not_exists, not_and]
      omega
    · rw [List.mem_append, ihRight, ihLeft]
      constructor
      · rintro (⟨path, found, short, code⟩ | ⟨path, found, short, code⟩)
        · exact ⟨true :: path, found, by simp at short ⊢; omega, code⟩
        · exact ⟨false :: path, found, by simp at short ⊢; omega, code⟩
      · rintro ⟨_ | ⟨_ | _, path⟩, found, short, code⟩
        · simp [leafAt] at found
        · exact .inr ⟨path, found, by simp at short ⊢; omega, code⟩
        · exact .inl ⟨path, found, by simp at short ⊢; omega, code⟩

/-- Of two codewords that spell the same number the longer one is entered last. -/
theorem codewords_pairwise (room : maxCodeLength ≤ 64) (fits : current_code.Fits) :
    (codewords maxCodeLength node current_code).Pairwise fun earlier later =>
      later.2.code = earlier.2.code → earlier.2.length < later.2.length := by
  induction node generalizing current_code with
  | leaf value frequency =>
    unfold codewords
    split <;> simp
  | parent left right ihLeft ihRight =>
    unfold codewords
    split
    · exact .nil
    · by_cases deeper : current_code.length + 1 ≤ maxCodeLength
      · obtain ⟨one, fitsRight⟩ := fits.child (deeper.trans room) true
        obtain ⟨zero, fitsLeft⟩ := fits.child (deeper.trans room) false
        refine List.pairwise_append.mpr ⟨ihRight fitsRight, ihLeft fitsLeft, ?_⟩
        intro earlier inRight later inLeft same
        obtain ⟨path, -, short, isEarlier⟩ := mem_codewords.mp inRight
        obtain ⟨path', -, short', isLater⟩ := mem_codewords.mp inLeft
        rw [isEarlier, isLater, Code.length_along, Code.length_along, Code.length_child,
          Code.length_child]
        by_contra notLonger
        have shorter : path'.length ≤ path.length := by omega
        have lower := (fitsRight.along (short.trans room)).1
        have upper := (fitsLeft.along (short'.trans room)).2
        rw [← isEarlier, one] at lower
        rw [← isLater, zero, same] at upper
        have powers := Nat.mul_le_mul_left (2 * current_code.code.toNat + 1)
          (Nat.pow_le_pow_right (by decide : 0 < 2) shorter)
        exact absurd (upper.trans_le powers) (Nat.not_lt.mpr lower)
      · have none (node : Node) (bit : Bool) :
            codewords maxCodeLength node (current_code.child bit) = [] := by
          unfold codewords
          rw [if_pos (by rw [Code.length_child]; omega)]
        dsimp only
        rw [none, none]
        exact .nil

/-- The table of codewords holds the entries. -/
theorem valueToCode_foldl_enter (empty : ∀ value, encoder.valueToCode value = none)
    (distinct : (entries.map Prod.fst).Nodup) {value : BitVec 64} {code : Code} :
    (entries.foldl enter encoder).valueToCode value = some code ↔ (value, code) ∈ entries := by
  induction entries using List.reverseRecOn with
  | nil => simp [empty]
  | append_singleton entries last ih =>
    rw [List.map_append, List.nodup_append] at distinct
    obtain ⟨distinct, -, apart⟩ := distinct
    rw [List.foldl_concat, List.mem_append, List.mem_singleton]
    dsimp only [enter]
    by_cases same : value = last.1
    · subst same
      have absent : (last.1, code) ∉ entries := fun listed =>
        apart _ (List.mem_map_of_mem listed) _ (by simp) rfl
      simp [absent, Prod.ext_iff, eq_comm]
    · rw [Function.update_of_ne same, ih distinct]
      simp [Prod.ext_iff, same]

/-- The table of numbers holds, of the codewords with one number, the longest. -/
theorem codeToValue_foldl_enter (distinct : (entries.map Prod.fst).Nodup)
    (ordered : entries.Pairwise fun earlier later =>
      later.2.code = earlier.2.code → earlier.2.length < later.2.length)
    (listed : entry ∈ entries) :
    (entries.foldl enter encoder).codeToValue entry.2.code = some entry.1 ↔
      ∀ other ∈ entries, other.2.code = entry.2.code → other.2.length ≤ entry.2.length := by
  induction entries using List.reverseRecOn with
  | nil => simp at listed
  | append_singleton entries last ih =>
    rw [List.map_append, List.nodup_append] at distinct
    obtain ⟨distinct, -, apart⟩ := distinct
    obtain ⟨ordered, -, before⟩ := List.pairwise_append.mp ordered
    rw [List.foldl_concat]
    dsimp only [enter]
    rcases List.mem_append.mp listed with earlier | now
    · by_cases same : entry.2.code = last.2.code
      · -- the last entry has taken the place
        rw [same, Function.update_self]
        refine iff_of_false (fun isEntry => ?_) fun longest => ?_
        · exact apart _ (List.mem_map_of_mem earlier) _ (by simp) (Option.some.inj isEntry).symm
        · exact absurd (before entry earlier last (by simp) same.symm)
            (Nat.not_lt.mpr (longest last (by simp) rfl))
      · rw [Function.update_of_ne same, ih distinct ordered earlier]
        constructor
        · intro longest other member number
          rcases List.mem_append.mp member with member | member
          · exact longest other member number
          · exact absurd (List.mem_singleton.mp member ▸ number.symm) same
        · exact fun longest other member => longest other (List.mem_append_left _ member)
    · obtain rfl := List.mem_singleton.mp now
      refine iff_of_true (Function.update_self ..) fun other member number => ?_
      rcases List.mem_append.mp member with member | member
      · exact (before other member entry (by simp) number.symm).le
      · exact (List.mem_singleton.mp member ▸ le_rfl)

/-- The encoder with the codewords of a tree. -/
def tabulated (maxCodeLength : Nat) (root : Node) : Huffman :=
  (codewords maxCodeLength root ⟨0, 0⟩).foldl enter (.blank maxCodeLength)

/-- The samples are merged into one tree that holds each value once, and the tables are filled with
its codewords. -/
theorem ofSamples_eq (algorithms : HeapAlgorithms NodeComparator) (fits : maxCodeLength ≤ 64)
    {samples : List (BitVec 64 × BitVec 64)} (distinct : (samples.map Prod.fst).Nodup)
    (sampled : ∃ pair ∈ samples, pair.2 ≠ 0) :
    ∃ root rest, ((blank maxCodeLength).sampleAll algorithms samples).buildTree algorithms =
        .ok (root, rest) ∧ (values root).Nodup ∧
      ofSamples algorithms maxCodeLength samples = .ok (tabulated maxCodeLength root) := by
  have empty : IsHeap NodeComparator [] := by
    intro i parent child positive isParent
    simp at isParent
  obtain ⟨trees, folded, heap, perm⟩ := sampled_spec algorithms samples (.blank maxCodeLength) empty
  rw [blank, List.flatMap_nil, List.nil_append] at perm
  have some_tree : trees ≠ [] := by
    rintro rfl
    obtain ⟨pair, member, counted⟩ := sampled
    have := perm.mem_iff.mpr (List.mem_map_of_mem (f := Prod.fst)
      (List.mem_filter.mpr ⟨member, by simpa using counted⟩))
    simp at this
  obtain ⟨root, merged, same⟩ := mergeTrees_ok algorithms heap some_tree (Nat.le_succ trees.length)
  have alone : IsHeap NodeComparator [root] := by
    intro i parent child positive isParent isChild
    have := (List.getElem?_eq_some_iff.mp isChild).1
    simp at this
    omega
  obtain ⟨top, rest, took, -, single⟩ := takeTop_ok algorithms alone (by simp)
  obtain ⟨rfl, rfl⟩ : root = top ∧ [] = rest := by simpa using List.singleton_perm.mp single
  have once : (values root).Nodup :=
    (same.trans perm).nodup_iff.mpr (distinct.sublist ((List.filter_sublist).map Prod.fst))
  have created : init maxCodeLength = .ok (.blank maxCodeLength) := by
    simp [init, panicIf, Nat.not_lt.mpr fits, pure, Except.pure]
  have built : buildTree algorithms { blank maxCodeLength with trees := trees } =
      .ok (root, .blank maxCodeLength) := by
    simp only [buildTree, merged, ok_bind, took]
    rfl
  refine ⟨root, _, folded ▸ built, once, ?_⟩
  simp only [ofSamples, created, ok_bind, folded, generateCodeMaps, built, generateCodes_eq]
  rfl

/-- A leaf whose codeword is that of `path` with zeros before it, and not too long. -/
def Overwritten (maxCodeLength : Nat) (root : Node) (path : List Bool) : Prop :=
  ∃ zeros > 0, path.length + zeros ≤ maxCodeLength ∧
    (leafAt root (List.replicate zeros false ++ path)).isSome

/-- The values that keep a codeword are those of the leaves that are not too deep, and decoding
inverts the encoding of such a value exactly if no codeword that is kept is its own codeword with
zeros before it. -/
theorem decode_encode_iff (algorithms : HeapAlgorithms NodeComparator) (fits : maxCodeLength ≤ 64)
    {samples : List (BitVec 64 × BitVec 64)} (distinct : (samples.map Prod.fst).Nodup)
    (sampled : ∃ pair ∈ samples, pair.2 ≠ 0) :
    ∃ root rest encoder, ((blank maxCodeLength).sampleAll algorithms samples).buildTree algorithms =
        .ok (root, rest) ∧ ofSamples algorithms maxCodeLength samples = .ok encoder ∧
      (∀ value code, encoder.valueToCode value = some code ↔ ∃ path, leafAt root path = some value ∧
        path.length ≤ maxCodeLength ∧ code = (⟨0, 0⟩ : Code).along path) ∧
      ∀ value path, leafAt root path = some value → path.length ≤ maxCodeLength →
        (encoder.decode (encoder.encode value).code = .ok value ↔
          ¬ Overwritten maxCodeLength root path) := by
  obtain ⟨root, rest, built, once, made⟩ := ofSamples_eq algorithms fits distinct sampled
  have words := once.sublist (@codewords_sublist maxCodeLength root ⟨0, 0⟩)
  have kept_iff (value : BitVec 64) (code : Code) :
      (tabulated maxCodeLength root).valueToCode value = some code ↔ ∃ path,
        leafAt root path = some value ∧ path.length ≤ maxCodeLength ∧
          code = (⟨0, 0⟩ : Code).along path := by
    refine (valueToCode_foldl_enter (fun _ => rfl) words).trans ?_
    simp [mem_codewords]
  refine ⟨root, rest, _, built, made, kept_iff, fun value path found short => ?_⟩
  have encoded : (tabulated maxCodeLength root).encode value = (⟨0, 0⟩ : Code).along path := by
    rw [encode, (kept_iff _ _).mpr ⟨path, found, short, rfl⟩, Option.getD_some]
  have decoded : (tabulated maxCodeLength root).decode ((⟨0, 0⟩ : Code).along path).code =
      .ok value ↔ (tabulated maxCodeLength root).codeToValue ((⟨0, 0⟩ : Code).along path).code =
        some value := by
    unfold decode
    split <;> simp_all [pure, Except.pure]
  have zero : Code.Fits ⟨0, 0⟩ := by simp [Code.Fits]
  have listed : (value, (⟨0, 0⟩ : Code).along path) ∈ codewords maxCodeLength root ⟨0, 0⟩ :=
    mem_codewords.mpr ⟨path, found, by simpa using short, rfl⟩
  rw [encoded, decoded]
  refine (codeToValue_foldl_enter words (codewords_pairwise fits zero) listed).trans ?_
  constructor
  · rintro longest ⟨zeros, some_zero, fit, isLeaf⟩
    obtain ⟨other, found'⟩ := Option.isSome_iff_exists.mp isLeaf
    have shorter := longest (other, (⟨0, 0⟩ : Code).along (List.replicate zeros false ++ path))
      (mem_codewords.mpr ⟨_, found', by simp; omega, rfl⟩) (Code.along_replicate zeros)
    simp at shorter
    omega
  · intro free other listed number
    obtain ⟨path', found', fit, isCode⟩ := mem_codewords.mp listed
    by_contra longer
    rw [isCode, Code.length_along, Code.length_along] at longer
    have same : path' = List.replicate (path'.length - path.length) false ++ path := by
      refine (zero.path_eq ?_ ?_ ?_).symm
      · exact fit.trans fits
      · simp
        omega
      · rw [Code.along_replicate, ← isCode, number]
    refine free ⟨path'.length - path.length, by omega, by omega, ?_⟩
    rw [← same, found']
    rfl

/-- The samples of the values 10, 20 and 30 with the frequencies 1, 2 and 4. -/
def collidingSamples : List (BitVec 64 × BitVec 64) := [(10, 1), (20, 2), (30, 4)]

/-- The second value, with the codeword 01, is decoded, and the third one, with the codeword 1, is
not. -/
theorem decode_encode_iff_colliding :
    ∃ encoder, ofSamples (sortedHeap isOrder_nodeComparator) 64 collidingSamples = .ok encoder ∧
      encoder.decode (encoder.encode 20).code = .ok 20 ∧
      encoder.decode (encoder.encode 30).code ≠ .ok 30 := by
  obtain ⟨root, rest, encoder, built, made, -, decodes⟩ := decode_encode_iff
    (sortedHeap isOrder_nodeComparator) (Nat.le_refl 64)
    (by decide : (collidingSamples.map Prod.fst).Nodup) ⟨(10, 1), by decide, by decide⟩
  obtain rfl : .parent (.parent (.leaf 10 1) (.leaf 20 2)) (.leaf 30 4) = root :=
    congrArg Prod.fst (Except.ok.inj built)
  refine ⟨encoder, made, (decodes 20 [false, true] rfl (by decide)).mpr ?_,
    mt (decodes 30 [true] rfl (by decide)).mp (not_not_intro ⟨1, by decide, by decide, rfl⟩)⟩
  rintro ⟨_ | _ | zeros, some_zero, -, isLeaf⟩
  · exact absurd some_zero (Nat.lt_irrefl 0)
  · exact absurd isLeaf (by decide)
  · simp [List.replicate_succ, leafAt] at isLeaf

/-- With the frequencies 1, 2 and 4 the codeword 1 of the third value and the codeword 01 of the
second one spell the same number, and the second value takes the place of the third. -/
theorem decode_collides :
    ∃ encoder, ofSamples (sortedHeap isOrder_nodeComparator) 64 collidingSamples = .ok encoder ∧
      encoder.valueToCode 30 = some ⟨1, 1⟩ ∧ encoder.valueToCode 20 = some ⟨1, 2⟩ ∧
      encoder.decode (encoder.encode 30).code = .ok 20 :=
  ⟨_, rfl, by decide, by decide, by decide⟩

end Huffman

end Gem5.Compression
