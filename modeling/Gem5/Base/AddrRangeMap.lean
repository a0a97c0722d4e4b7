import Gem5.Base.AddrRange
import Gem5.Foundation.OrderedMap
import Gem5.Foundation.Transition

/-!
# Address maps

`AddrRangeMap` of `base/addr_range_map.hh`, without the lookup cache.  A search looks at
the first entry above the given range and then walks down from the entry before it, as
long as neighbours merge.  It is complete because stored ranges whose intervals overlap
are siblings of one interleaving, and siblings are neighbours in the order of the tree.
-/

namespace Gem5

open Foundation

/-- `AddrRangeMap<V, 0>`: the entries of the tree in its order. -/
structure AddrRangeMap (V : Type) where
  tree : List (AddrRange × V)

namespace AddrRangeMap

variable {V : Type}

/-- The loop of `find`, over the entries from `i` down to the first one. -/
def findDown (cond : AddrRange → Checked Bool) :
    List (AddrRange × V) → Checked (Option (AddrRange × V))
  | [] => return none
  | i :: rest => do
    if ← cond i.1 then return some i
    -- `next != begin() && (--next)->first.mergesWith(i->first)`
    else if rest.head?.any fun next => next.1.mergesWith i.1 then findDown cond rest
    else return none

/-- `find`; no entry stands for `end()`. -/
def find (map : AddrRangeMap V) (r : AddrRange) (cond : AddrRange → Checked Bool) :
    Checked (Option (AddrRange × V)) := do
  let (before, after) := upperBound AddrRange.lt r map.tree
  match after.head? with
  | some next => if ← cond next.1 then return some next else findDown cond before.reverse
  | none => findDown cond before.reverse

/-- `contains` of a range. -/
def containsRange (map : AddrRangeMap V) (r : AddrRange) : Checked (Option (AddrRange × V)) :=
  map.find r r.isSubset

/-- `contains` of an address. -/
def contains (map : AddrRangeMap V) (a : Addr) : Checked (Option (AddrRange × V)) :=
  map.containsRange (AddrRange.RangeSize a 1)

/-- `intersects`. -/
def intersects (map : AddrRangeMap V) (r : AddrRange) : Checked (Option (AddrRange × V)) :=
  map.find r r.intersects

/-- `insert`. -/
def insert (map : AddrRangeMap V) (r : AddrRange) (d : V) :
    Checked (AddrRangeMap V × Option (AddrRange × V)) := do
  if (← map.intersects r).isSome then return (map, none)
  let (tree, first) := insertEntry AddrRange.lt (r, d) map.tree
  return (⟨tree⟩, some first)

/-- `erase` of the entry at a position. -/
def erase (map : AddrRangeMap V) (p : Fin map.tree.length) : AddrRangeMap V :=
  ⟨map.tree.eraseIdx p⟩

end AddrRangeMap

/-! ## Ranges and their order -/

namespace AddrRange

variable {r s : AddrRange} {a : Addr}

/-- `operator<` as an order of numbers: by the start, then interleaved ranges by match value. -/
def rank (r : AddrRange) : Nat :=
  r.start.toNat * 257 + if r.interleaved then r.intlvMatch.toNat else 256

private theorem lt_ranked : RankedBy lt rank := by
  intro r s
  have matchBound := r.intlvMatch.isLt
  have matchBound' := s.intlvMatch.isLt
  unfold lt rank
  by_cases same : r.start = s.start
  · rw [if_neg (not_not_intro same), same]
    cases r.interleaved <;> cases s.interleaved <;> simp [BitVec.lt_def] <;> omega
  · have different : r.start.toNat ≠ s.start.toNat :=
      fun equal => same (BitVec.eq_of_toNat_eq equal)
    rw [if_pos same, decide_eq_true_iff, BitVec.lt_def]
    split <;> split <;> omega

/-- The ranges have an address in common. -/
def Shares (r s : AddrRange) : Prop :=
  ∃ a, r.contains a = true ∧ s.contains a = true

/-- The intervals between the ends have no address in common. -/
def Separate (r s : AddrRange) : Prop :=
  ∀ a, ¬(r.inRange a = true ∧ s.inRange a = true)

/-- Both are members of one interleaving. -/
def Siblings (r s : AddrRange) : Prop :=
  r.interleaved = true ∧ r.mergesWith s = true

/-- Ranges that may be offered to one map. -/
def Compatible (r s : AddrRange) : Prop :=
  r.Separate s ∨ (r.interleaved = false ∧ s.interleaved = false) ∨ (r.Siblings s ∧ 2 ≤ r.size)

/-- Some address is in the range. -/
def Inhabited (r : AddrRange) : Prop :=
  ∃ a, r.contains a = true

/-- The bounds test, in numbers. -/
theorem between_iff : r.inRange a = true ↔ r.start.toNat ≤ a.toNat ∧ a.toNat < r.end_.toNat := by
  simp [inRange, BitVec.le_def, BitVec.lt_def]

/-- Containment is the bounds test and the stripe test. -/
theorem contains_iff : r.contains a = true ↔ r.inRange a = true ∧ r.selects a = true := by
  simp [contains]

private theorem not_contains_max (r : AddrRange) : r.contains MaxAddr = false := by
  refine Bool.eq_false_iff.mpr fun contained => ?_
  have between := between_iff.mp (contains_iff.mp contained).1
  have last : MaxAddr.toNat = 2 ^ 64 - 1 := rfl
  omega

private theorem ne_max_of_contains (contained : r.contains a = true) : a ≠ MaxAddr := by
  rintro rfl
  simp [not_contains_max] at contained

private theorem mergesWith_iff : r.mergesWith s = true ↔
    s.start = r.start ∧ s.end_ = r.end_ ∧ s.masks = r.masks := by
  simp [mergesWith, and_assoc]

/-- Without interleaving every address is in the stripe. -/
theorem selects_of_plain (plain : r.interleaved = false) (inhabited : r.Inhabited) (a : Addr) :
    r.selects a = true := by
  obtain ⟨b, contained⟩ := inhabited
  have noMasks : r.masks = [] := by simpa [interleaved] using plain
  simpa [selects, sel, noMasks] using (contains_iff.mp contained).2

/-- An inhabited range starts before its end. -/
theorem Inhabited.start_lt_end (inhabited : r.Inhabited) : r.start.toNat < r.end_.toNat := by
  obtain ⟨a, contained⟩ := inhabited
  have between := between_iff.mp (contains_iff.mp contained).1
  omega

/-- Intervals that overlap contain the greater start. -/
theorem separate_iff (inhabited : r.Inhabited) (inhabited' : s.Inhabited) :
    r.Separate s ↔ s.end_.toNat ≤ r.start.toNat ∨ r.end_.toNat ≤ s.start.toNat := by
  have first := inhabited.start_lt_end
  have second := inhabited'.start_lt_end
  constructor
  · intro separate
    have atFirst := separate r.start
    have atSecond := separate s.start
    simp only [between_iff] at atFirst atSecond
    omega
  · rintro apart a ⟨inFirst, inSecond⟩
    rw [between_iff] at inFirst inSecond
    omega

private theorem Separate.not_shares (separate : r.Separate s) : ¬r.Shares s := by
  rintro ⟨a, inFirst, inSecond⟩
  exact separate a ⟨(contains_iff.mp inFirst).1, (contains_iff.mp inSecond).1⟩

private theorem Siblings.contains_eq (siblings : r.Siblings s)
    (same : r.intlvMatch = s.intlvMatch) :
    r.contains = s.contains := by
  obtain ⟨start, end_, masks⟩ := mergesWith_iff.mp siblings.2
  funext a
  simp only [contains, inRange, selects, start, end_, masks, same]

private theorem Siblings.shares_iff (siblings : r.Siblings s) (inhabited : r.Inhabited) :
    r.Shares s ↔ r.intlvMatch = s.intlvMatch := by
  obtain ⟨start, end_, masks⟩ := mergesWith_iff.mp siblings.2
  constructor
  · rintro ⟨a, inFirst, inSecond⟩
    simp only [contains, selects, masks, Bool.and_eq_true, decide_eq_true_iff] at inFirst inSecond
    have equal : r.intlvMatch.setWidth 32 = s.intlvMatch.setWidth 32 :=
      inFirst.2.symm.trans inSecond.2
    have value := congrArg BitVec.toNat equal
    simp only [BitVec.toNat_setWidth] at value
    exact BitVec.eq_of_toNat_eq (by omega)
  · intro same
    obtain ⟨a, contained⟩ := inhabited
    exact ⟨a, contained, siblings.contains_eq same ▸ contained⟩

/-- Two ranges that overlap but are not interleaved share the greater start. -/
theorem shares_of_plain (inhabited : r.Inhabited) (inhabited' : s.Inhabited)
    (plain : r.interleaved = false) (plain' : s.interleaved = false)
    (overlap : ¬r.Separate s) : r.Shares s := by
  unfold Separate at overlap
  push Not at overlap
  obtain ⟨a, inFirst, inSecond⟩ := overlap
  exact ⟨a, contains_iff.mpr ⟨inFirst, selects_of_plain plain inhabited a⟩,
    contains_iff.mpr ⟨inSecond, selects_of_plain plain' inhabited' a⟩⟩

/-- `intersects` decides whether compatible ranges share an address. -/
theorem intersects_eq (compatible : r.Compatible s) (inhabited : r.Inhabited)
    (inhabited' : s.Inhabited) :
    ∃ answer, r.intersects s = .ok answer ∧ (answer = true ↔ r.Shares s) := by
  have apart := separate_iff inhabited inhabited'
  unfold intersects
  by_cases separate : r.Separate s
  · have first : (r.start ≥ s.end_ || r.end_ ≤ s.start) = true := by
      simpa [BitVec.le_def] using apart.mp separate
    rw [if_pos first]
    exact ⟨false, rfl, by simp [separate.not_shares]⟩
  · have overlap : ¬(r.start ≥ s.end_ || r.end_ ≤ s.start) = true := by
      simpa [BitVec.le_def, not_or] using mt apart.mpr separate
    rw [if_neg overlap]
    rcases compatible with separate' | ⟨plain, plain'⟩ | ⟨siblings, large⟩
    · exact absurd separate' separate
    · rw [if_pos (by simp [plain, plain'])]
      exact ⟨true, rfl, by simp [shares_of_plain inhabited inhabited' plain plain' separate]⟩
    · obtain ⟨start, end_, masks⟩ := mergesWith_iff.mp siblings.2
      have notOne : ¬s.size = 1 := by
        have same : s.size = r.size := by simp [size, start, end_, masks]
        rw [same]
        rintro one
        exact absurd large (by rw [one]; decide)
      rw [if_neg (by simp [siblings.1]), if_neg notOne, if_pos siblings.2]
      exact ⟨_, rfl, by simp [siblings.shares_iff inhabited]⟩

private theorem Separate.symm (separate : r.Separate s) : s.Separate r :=
  fun a both => separate a both.symm

private theorem Siblings.symm (siblings : r.Siblings s) : s.Siblings r := by
  obtain ⟨start, end_, masks⟩ := mergesWith_iff.mp siblings.2
  exact ⟨by simpa [interleaved, masks] using siblings.1,
    mergesWith_iff.mpr ⟨start.symm, end_.symm, masks.symm⟩⟩

/-- How two ranges of one map lie to each other. -/
def Distinct (r s : AddrRange) : Prop :=
  r.Separate s ∨ (r.Siblings s ∧ r.intlvMatch ≠ s.intlvMatch)

private theorem Distinct.symm (distinct : r.Distinct s) : s.Distinct r :=
  distinct.imp Separate.symm fun ⟨siblings, different⟩ => ⟨siblings.symm, different.symm⟩

private theorem Compatible.distinct (compatible : r.Compatible s) (inhabited : r.Inhabited)
    (inhabited' : s.Inhabited) (free : ¬r.Shares s) : r.Distinct s := by
  by_cases separate : r.Separate s
  · exact .inl separate
  · rcases compatible with separate' | ⟨plain, plain'⟩ | ⟨siblings, -⟩
    · exact absurd separate' separate
    · exact absurd (shares_of_plain inhabited inhabited' plain plain' separate) free
    · exact .inr ⟨siblings, mt (siblings.shares_iff inhabited).mpr free⟩

private theorem Distinct.not_shares (distinct : r.Distinct s) (inhabited : r.Inhabited) :
    ¬r.Shares s := by
  rcases distinct with separate | ⟨siblings, different⟩
  · exact separate.not_shares
  · exact mt (siblings.shares_iff inhabited).mp different

private theorem start_le_of_rank_le (le : r.rank ≤ s.rank) : r.start.toNat ≤ s.start.toNat := by
  have matchBound := s.intlvMatch.isLt
  unfold rank at le
  split at le <;> split at le <;> omega

private theorem Distinct.rank_ne (distinct : r.Distinct s) (inhabited : r.Inhabited)
    (inhabited' : s.Inhabited) : r.rank ≠ s.rank := by
  intro same
  have atMost := start_le_of_rank_le same.le
  have atLeast := start_le_of_rank_le same.ge
  rcases distinct with separate | ⟨siblings, different⟩
  · have first := inhabited.start_lt_end
    have second := inhabited'.start_lt_end
    have apart := (separate_iff inhabited inhabited').mp separate
    omega
  · have equal : r.intlvMatch.toNat = s.intlvMatch.toNat := by
      unfold rank at same
      rw [if_pos siblings.1, if_pos siblings.symm.1] at same
      omega
    exact different (BitVec.eq_of_toNat_eq equal)

/-! ## Single addresses -/

private theorem rank_le_rangeSize (below : r.start.toNat ≤ a.toNat) :
    r.rank ≤ (RangeSize a 1).rank := by
  have matchBound := r.intlvMatch.isLt
  have plain : (RangeSize a 1).interleaved = false := rfl
  unfold rank
  rw [plain]
  change _ ≤ a.toNat * 257 + 256
  split <;> omega

private theorem start_le_of_rank_le_rangeSize (le : r.rank ≤ (RangeSize a 1).rank) :
    r.start.toNat ≤ a.toNat :=
  start_le_of_rank_le le

/-- `lowest_bit` of `granularity`. -/
def lowestBit (r : AddrRange) : Nat :=
  ctz64 (r.combinedMask.signExtend 64)

/-- The lowest mask bit is one of the 64. -/
theorem lowestBit_lt (nonzero : r.combinedMask ≠ 0) : r.lowestBit < 64 := by
  refine ctz64_lt_iff.mpr fun extended => nonzero (BitVec.eq_of_getLsbD_eq fun k inside => ?_)
  have bit := congrArg (fun word => word.getLsbD k) extended
  have within : k < 64 := by omega
  simpa only [BitVec.getLsbD_signExtend, inside, within, if_true, decide_true, Bool.true_and,
    BitVec.ofNat_eq_ofNat, BitVec.getLsbD_zero] using bit

/-- The granularity is lost when no mask has a bit that fits in an `int`. -/
theorem granularity_eq (interleaved : r.interleaved = true) :
    (r.combinedMask = 0 → ∀ value, r.granularity ≠ .ok value) ∧
      (r.combinedMask ≠ 0 → ∃ value, r.granularity = .ok value ∧
        value.toNat = 2 ^ r.lowestBit) := by
  unfold granularity
  rw [if_pos interleaved]
  constructor
  · intro zero value ran
    simp only [zero, run_eq_ok] at ran
    exact absurd ran.1 (by decide +kernel)
  · intro nonzero
    have low := lowestBit_lt nonzero
    refine ⟨1#64 <<< r.lowestBit, bind_eq_ok.mpr ⟨(), assertThat_of low, rfl⟩, ?_⟩
    rw [BitVec.toNat_shiftLeft, Nat.shiftLeft_eq, BitVec.toNat_ofNat,
      Nat.one_mod_two_pow (by decide), Nat.one_mul]
    exact Nat.mod_eq_of_lt (Nat.pow_lt_pow_right (by decide) low)

/-- A single address as a range is a part of an interleaved range that contains it. -/
theorem isSubset_interleaved (interleaved : r.interleaved = true) :
    (r.contains a = false → (RangeSize a 1).isSubset r = .ok false) ∧
      (r.contains a = true → r.combinedMask ≠ 0 → (RangeSize a 1).isSubset r = .ok true) ∧
      (r.contains a = true → r.combinedMask = 0 →
        ∀ answer, (RangeSize a 1).isSubset r ≠ .ok answer) := by
  have last : (RangeSize a 1).end_ - 1 = a := BitVec.add_sub_cancel a 1
  have plain : (RangeSize a 1).interleaved = false := rfl
  have one : (RangeSize a 1).size = 1#64 := by
    change (a + 1#64 - a) >>> 0 = 1#64
    rw [BitVec.ushiftRight_zero, BitVec.add_comm, BitVec.add_sub_cancel]
  unfold isSubset
  rw [last, plain, one, if_neg (by decide), if_pos interleaved]
  change (_ → (if (r.contains a && r.contains a) = true then _ else _) = _) ∧
    (_ → _ → (if (r.contains a && r.contains a) = true then _ else _) = _) ∧
    (_ → _ → ∀ _, (if (r.contains a && r.contains a) = true then _ else _) ≠ _)
  obtain ⟨lost, kept⟩ := granularity_eq interleaved
  refine ⟨fun outside => by simp [outside], fun inside nonzero => ?_, fun inside zero answer => ?_⟩
  · obtain ⟨value, granularity, size⟩ := kept nonzero
    have positive : 1#64 ≤ value := BitVec.le_def.mpr (size ▸ Nat.two_pow_pos _)
    simp [inside, granularity, positive]
  · intro ran
    simp only [inside, Bool.and_self, if_true, bind_eq_ok] at ran
    obtain ⟨value, granularity, -⟩ := ran
    exact lost zero value granularity

private theorem isSubset_plain (plain : r.interleaved = false) (inhabited : r.Inhabited)
    (notMax : a ≠ MaxAddr) : (RangeSize a 1).isSubset r = .ok (r.contains a) := by
  have plain' : (RangeSize a 1).interleaved = false := rfl
  have next : (a + 1#64).toNat = a.toNat + 1 := by
    have below : a.toNat ≠ 2 ^ 64 - 1 := fun last => notMax (BitVec.eq_of_toNat_eq last)
    have bound := a.isLt
    rw [BitVec.toNat_add, BitVec.toNat_ofNat]
    omega
  have inside : (decide (a ≥ r.start) && decide (a + 1#64 ≤ r.end_)) = r.contains a := by
    rw [Bool.eq_iff_iff, contains_iff, between_iff, Bool.and_eq_true, decide_eq_true_eq,
      decide_eq_true_eq, ge_iff_le, BitVec.le_def, BitVec.le_def, next]
    have selected := selects_of_plain plain inhabited a
    exact ⟨fun h => ⟨⟨h.1, by omega⟩, selected⟩, fun h => ⟨h.1.1, by omega⟩⟩
  unfold isSubset
  rw [if_neg (ne_true_of_eq_false plain'), if_neg (ne_true_of_eq_false plain)]
  exact congrArg Except.ok inside

/-- The end of the range after the last address is zero, and the check of the ends passes. -/
theorem isSubset_plain_max (plain : r.interleaved = false) :
    (RangeSize MaxAddr 1).isSubset r = .ok true := by
  have plain' : (RangeSize MaxAddr 1).interleaved = false := rfl
  have ends : (decide (MaxAddr ≥ r.start) && decide ((0 : Addr) ≤ r.end_)) = true := by
    have bound := r.start.isLt
    simp [BitVec.le_def, MaxAddr]
    omega
  unfold isSubset
  rw [if_neg (ne_true_of_eq_false plain'), if_neg (ne_true_of_eq_false plain)]
  exact congrArg Except.ok ends

end AddrRange

/-! ## Searching -/

namespace AddrRangeMap

open AddrRange

variable {V : Type} {map : AddrRangeMap V} {cond : AddrRange → Checked Bool}
  {entry other : AddrRange × V} {entries : List (AddrRange × V)} {r : AddrRange} {a : Addr}

private theorem findDown_none (all : ∀ entry ∈ entries, cond entry.1 = .ok false) :
    findDown cond entries = .ok none := by
  induction entries with
  | nil => rfl
  | cons i rest ih =>
    rw [findDown, all i (by simp), ok_bind, if_neg (by decide),
      ih fun entry listed => all entry (by simp [listed])]
    split <;> rfl

/-- The walk passes the siblings of an entry. -/
theorem findDown_append {above below : List (AddrRange × V)}
    (passed : ∀ i ∈ above, cond i.1 = .ok false ∧ i.1.mergesWith entry.1 = true) :
    findDown cond (above ++ entry :: below) = findDown cond (entry :: below) := by
  induction above with
  | nil => rfl
  | cons i above ih =>
    obtain ⟨no, merges⟩ := passed i (by simp)
    have rest : ∀ j ∈ above, cond j.1 = .ok false ∧ j.1.mergesWith entry.1 = true :=
      fun j listed => passed j (by simp [listed])
    have next : ((above ++ entry :: below).head?.any fun next => next.1.mergesWith i.1) = true := by
      rw [mergesWith_iff] at merges
      cases above with
      | nil => simp [mergesWith, merges]
      | cons j above =>
        have merges' := mergesWith_iff.mp (rest j (by simp)).2
        simp [mergesWith, ← merges.1, ← merges.2.1, ← merges.2.2, merges']
    rw [List.cons_append, findDown, no, ok_bind, if_neg (by decide), if_pos next, ih rest]

/-- The walk does not leave an interleaving. -/
theorem findDown_interleaved {i : AddrRange × V}
    (all : ∀ entry ∈ i :: entries, entry.1.interleaved = true → cond entry.1 = .ok false)
    (interleaved : i.1.interleaved = true) : findDown cond (i :: entries) = .ok none := by
  induction entries generalizing i with
  | nil =>
    rw [findDown, all i (by simp) interleaved]
    rfl
  | cons next rest ih =>
    rw [findDown, all i (by simp) interleaved, ok_bind, if_neg (by decide)]
    split
    · next merges =>
      have merges' : next.1.mergesWith i.1 = true := by simpa using merges
      have masks := (mergesWith_iff.mp merges').2.2
      have sibling : next.1.interleaved = true := by
        rwa [AddrRange.interleaved, ← masks]
      exact ih (fun entry listed => all entry (by simp [listed])) sibling
    · rfl

private theorem find_eq_findDown
    (next : ∀ entry ∈ (upperBound AddrRange.lt r map.tree).2, cond entry.1 = .ok false) :
    map.find r cond = findDown cond (upperBound AddrRange.lt r map.tree).1.reverse := by
  unfold find
  cases listed : (upperBound AddrRange.lt r map.tree).2.head? with
  | none => simp only [listed]
  | some first =>
    have no := next first (List.mem_of_mem_head? (by simp [listed]))
    simp only [listed, no, ok_bind]
    rfl

private theorem find_none (all : ∀ entry ∈ map.tree, cond entry.1 = .ok false) :
    map.find r cond = .ok none := by
  rw [find_eq_findDown fun entry after => all entry (mem_of_mem_after after)]
  exact findDown_none fun entry before => all entry (mem_of_mem_before (List.mem_reverse.mp before))

/-- The entries are in order, and overlapping ranges are siblings. -/
structure Ordered (map : AddrRangeMap V) : Prop where
  ascending : Ascending rank map.tree
  inhabited : ∀ entry ∈ map.tree, entry.1.Inhabited
  distinct : ∀ entry ∈ map.tree, ∀ other ∈ map.tree, entry ≠ other → entry.1.Distinct other.1

namespace Ordered

variable (ordered : map.Ordered)
include ordered

/-- Stored ranges between an entry and an address that its interval reaches are its siblings. -/
theorem siblings_of_between (stored : entry ∈ map.tree) (stored' : other ∈ map.tree)
    (above : entry.1.rank < other.1.rank) (within : other.1.start.toNat < entry.1.end_.toNat) :
    entry.1.Siblings other.1 := by
  have different : entry ≠ other := by
    rintro rfl
    exact Nat.lt_irrefl _ above
  have start := start_le_of_rank_le above.le
  have inhabited := ordered.inhabited entry stored
  have inhabited' := ordered.inhabited other stored'
  rcases ordered.distinct entry stored other stored' different with separate | ⟨siblings, -⟩
  · have apart := (separate_iff inhabited inhabited').mp separate
    have nonempty := inhabited'.start_lt_end
    omega
  · exact siblings

/-- A search that only one entry can end finds it if its siblings are all that is in between. -/
theorem find_candidate (stored : entry ∈ map.tree) (le : entry.1.rank ≤ r.rank)
    (others : ∀ other ∈ map.tree, other ≠ entry → cond other.1 = .ok false)
    (between : ∀ other ∈ map.tree, entry.1.rank < other.1.rank → other.1.rank ≤ r.rank →
      entry.1.Siblings other.1) :
    map.find r cond = do
      if ← cond entry.1 then return some entry
      else return none := by
  obtain ⟨above, below, split, passed, lower⟩ :=
    exists_reverse_upperBound lt_ranked ordered.ascending stored le
  have distinctRank : ∀ other ∈ map.tree, other.1.rank ≠ entry.1.rank → cond other.1 = .ok false :=
    fun other stored' different => others other stored' fun same => different (by rw [same])
  have after : ∀ next ∈ (upperBound AddrRange.lt r map.tree).2, cond next.1 = .ok false :=
    fun next listed => by
      have greater := lt_rank_of_mem_upperBound lt_ranked ordered.ascending listed
      exact distinctRank next (mem_of_mem_after listed) (by omega)
  have siblings : ∀ i ∈ above, cond i.1 = .ok false ∧ i.1.mergesWith entry.1 = true :=
    fun i listed => by
      obtain ⟨stored', greater, bounded⟩ := passed i listed
      exact ⟨distinctRank i stored' (by omega), (between i stored' greater bounded).symm.2⟩
  have under : ∀ other ∈ below, cond other.1 = .ok false := fun other listed => by
    obtain ⟨stored', less⟩ := lower other listed
    exact distinctRank other stored' (by omega)
  rw [find_eq_findDown after, split, findDown_append siblings, findDown, findDown_none under]
  exact congrArg _ (funext fun answer => by split <;> [rfl; split <;> rfl])

private theorem not_contains_other {entry other : AddrRange × V} (stored : entry ∈ map.tree)
    (stored' : other ∈ map.tree) (different : other ≠ entry)
    (contained : entry.1.contains a = true) : other.1.contains a = false := by
  have free := (ordered.distinct other stored' entry stored different).not_shares
    (ordered.inhabited other stored')
  exact Bool.eq_false_iff.mpr fun inside => free ⟨a, inside, contained⟩

/-- Looking up an address of a stored range comes to the test of that range. -/
theorem contains_of_stored (stored : entry ∈ map.tree) (contained : entry.1.contains a = true) :
    map.contains a = do
      if ← (RangeSize a 1).isSubset entry.1 then return some entry
      else return none := by
  have between := between_iff.mp (contains_iff.mp contained).1
  have notMax := ne_max_of_contains contained
  refine ordered.find_candidate stored (rank_le_rangeSize between.1) ?_ ?_
  · intro other stored' different
    have outside := ordered.not_contains_other stored stored' different contained
    cases interleaved : other.1.interleaved with
    | true => exact (isSubset_interleaved interleaved).1 outside
    | false =>
      rw [isSubset_plain interleaved (ordered.inhabited other stored') notMax, outside]
  · intro other stored' above bounded
    have reaches := start_le_of_rank_le_rangeSize bounded
    exact ordered.siblings_of_between stored stored' above (by omega)

private theorem contains_absent (notMax : a ≠ MaxAddr)
    (absent : ∀ entry ∈ map.tree, entry.1.contains a = false) : map.contains a = .ok none := by
  refine find_none fun entry stored => ?_
  cases interleaved : entry.1.interleaved with
  | true => exact (isSubset_interleaved interleaved).1 (absent entry stored)
  | false =>
    rw [isSubset_plain interleaved (ordered.inhabited entry stored) notMax, absent entry stored]

/-- The last address is looked up in the last entry only. -/
theorem contains_max :
    map.contains MaxAddr = .ok (map.tree.getLast?.filter fun last => !last.1.interleaved) := by
  have none : (upperBound AddrRange.lt (RangeSize MaxAddr 1) map.tree).2 = [] := by
    refine List.eq_nil_iff_forall_not_mem.mpr fun entry listed => ?_
    have greater := lt_rank_of_mem_upperBound lt_ranked ordered.ascending listed
    have bounded : entry.1.rank ≤ (RangeSize MaxAddr 1).rank := by
      refine rank_le_rangeSize ?_
      have bound := entry.1.start.isLt
      have last : MaxAddr.toNat = 2 ^ 64 - 1 := rfl
      omega
    omega
  have all : (upperBound AddrRange.lt (RangeSize MaxAddr 1) map.tree).1 = map.tree := by
    have split : (upperBound AddrRange.lt (RangeSize MaxAddr 1) map.tree).1 ++ _ = map.tree :=
      upperBound_append
    rwa [none, List.append_nil] at split
  rw [contains, containsRange, find_eq_findDown (by rw [none]; rintro _ ⟨⟩), all,
    ← List.head?_reverse]
  have absent' : ∀ entry ∈ map.tree.reverse, entry.1.interleaved = true →
      (RangeSize MaxAddr 1).isSubset entry.1 = .ok false := fun entry _ interleaved =>
    (isSubset_interleaved interleaved).1 (not_contains_max entry.1)
  generalize map.tree.reverse = down at absent'
  cases down with
  | nil => rfl
  | cons last rest =>
    cases interleaved : last.1.interleaved with
    | true =>
      rw [findDown_interleaved absent' interleaved, List.head?_cons,
        Option.filter_some_neg (by simp [interleaved])]
    | false =>
      rw [findDown, isSubset_plain_max interleaved, ok_bind, if_pos rfl, List.head?_cons,
        Option.filter_some_pos (by simp [interleaved])]
      rfl

/-! ## Inserting -/

section

variable (compatible : ∀ entry ∈ map.tree, r.Compatible entry.1) (inhabited : r.Inhabited)

include compatible inhabited

private theorem intersects_none (free : ∀ entry ∈ map.tree, ¬r.Shares entry.1) :
    map.intersects r = .ok none := by
  refine find_none fun entry stored => ?_
  obtain ⟨answer, ran, iff⟩ :=
    intersects_eq (compatible entry stored) inhabited (ordered.inhabited entry stored)
  rw [ran, Bool.eq_false_iff.mpr (mt iff.mp (free entry stored))]

/-- A range that is not interleaved meets an overlapping one at the bound or right below it. -/
theorem intersects_plain (stored : entry ∈ map.tree) (plain : r.interleaved = false)
    (plain' : entry.1.interleaved = false) (overlap : ¬r.Separate entry.1) :
    ∃ found, map.intersects r = .ok (some found) := by
  have inhabited' := ordered.inhabited entry stored
  have meets := mt (separate_iff inhabited inhabited').mpr overlap
  have yes : ∀ other ∈ map.tree, ¬r.Separate other.1 → r.intersects other.1 = .ok true := by
    intro other stored' overlap'
    obtain ⟨answer, ran, iff⟩ :=
      intersects_eq (compatible other stored') inhabited (ordered.inhabited other stored')
    rcases compatible other stored' with separate | ⟨-, plain''⟩ | ⟨siblings, -⟩
    · exact absurd separate overlap'
    · rw [ran, iff.mpr (shares_of_plain inhabited (ordered.inhabited other stored') plain plain''
        overlap')]
    · exact absurd siblings.1 (by simp [plain])
  unfold AddrRangeMap.intersects find
  by_cases le : entry.1.rank ≤ r.rank
  · obtain ⟨above, below, split, passed, -⟩ :=
      exists_reverse_upperBound lt_ranked ordered.ascending stored le
    have first : above = [] := by
      refine List.eq_nil_iff_forall_not_mem.mpr fun other listed => ?_
      obtain ⟨stored', greater, bounded⟩ := passed other listed
      have start := start_le_of_rank_le bounded
      have siblings := ordered.siblings_of_between stored stored' greater (by omega)
      exact absurd siblings.1 (by simp [plain'])
    have down : findDown r.intersects (upperBound AddrRange.lt r map.tree).1.reverse =
        .ok (some entry) := by
      rw [split, first, List.nil_append, findDown, yes entry stored overlap]
      rfl
    cases listed : (upperBound AddrRange.lt r map.tree).2.head? with
    | none => exact ⟨entry, by simp only [listed, down]⟩
    | some next =>
      have stored' := mem_of_mem_after (List.mem_of_mem_head? listed)
      obtain ⟨answer, ran, -⟩ :=
        intersects_eq (compatible next stored') inhabited (ordered.inhabited next stored')
      cases answer with
      | true => exact ⟨next, by simp only [listed, ran]; rfl⟩
      | false => exact ⟨entry, by simp only [listed, ran, ok_bind, down]; rfl⟩
  · obtain ⟨next, listed, stored', above, bounded⟩ :=
      exists_head_upperBound lt_ranked ordered.ascending stored (Nat.not_le.mp le)
    have nonempty := (ordered.inhabited next stored').start_lt_end
    have start := start_le_of_rank_le above.le
    have start' := start_le_of_rank_le bounded
    have overlap' : ¬r.Separate next.1 := by
      rw [separate_iff inhabited (ordered.inhabited next stored')]
      omega
    exact ⟨next, by simp only [listed, yes next stored' overlap']; rfl⟩

private theorem intersects_some (stored : entry ∈ map.tree) (shares : r.Shares entry.1) :
    ∃ found, map.intersects r = .ok (some found) := by
  rcases compatible entry stored with separate | ⟨plain, plain'⟩ | ⟨siblings, large⟩
  · exact absurd shares separate.not_shares
  · exact ordered.intersects_plain compatible inhabited stored plain plain'
      fun separate => separate.not_shares shares
  · have same := (siblings.shares_iff inhabited).mp shares
    have rank : entry.1.rank = r.rank := by
      obtain ⟨start, -, masks⟩ := mergesWith_iff.mp siblings.2
      simp [AddrRange.rank, start, same, AddrRange.interleaved, masks]
    have others : ∀ other ∈ map.tree, other ≠ entry → r.intersects other.1 = .ok false := by
      intro other stored' different
      obtain ⟨answer, ran, iff⟩ :=
        intersects_eq (compatible other stored') inhabited (ordered.inhabited other stored')
      have free : ¬r.Shares other.1 := by
        rintro ⟨a, inside, inside'⟩
        rw [siblings.contains_eq same] at inside
        exact absurd inside' (by simp [ordered.not_contains_other stored stored' different inside])
      rw [ran, Bool.eq_false_iff.mpr (mt iff.mp free)]
    obtain ⟨answer, ran, iff⟩ :=
      intersects_eq (compatible entry stored) inhabited (ordered.inhabited entry stored)
    refine ⟨entry, ?_⟩
    rw [intersects, ordered.find_candidate stored rank.le others
      fun other _ above bounded => absurd above (by omega), ran, iff.mpr shares]
    rfl

/-- What `insert` does with a range that is compatible with all stored ones. -/
theorem insert_eq (d : V) : ((∀ entry ∈ map.tree, ¬r.Shares entry.1) →
      ∃ next : AddrRangeMap V, map.insert r d = .ok (next, some (r, d)) ∧ next.Ordered ∧
        ∀ entry, entry ∈ next.tree ↔ entry = (r, d) ∨ entry ∈ map.tree) ∧
    (∀ entry ∈ map.tree, r.Shares entry.1 → map.insert r d = .ok (map, none)) := by
  constructor
  · intro free
    have distinct : ∀ entry ∈ map.tree, r.Distinct entry.1 := fun entry stored =>
      (compatible entry stored).distinct inhabited (ordered.inhabited entry stored)
        (free entry stored)
    obtain ⟨found, members, sorted⟩ := insertEntry_spec lt_ranked (r, d)
      ordered.ascending fun present stored =>
        ((distinct present stored).rank_ne inhabited (ordered.inhabited present stored)).symm
    refine ⟨⟨(insertEntry AddrRange.lt (r, d) map.tree).1⟩, ?_, ⟨sorted, ?_, ?_⟩, members⟩
    · rw [insert, ordered.intersects_none compatible inhabited free]
      exact congrArg Except.ok (Prod.ext rfl (congrArg some found))
    · intro entry listed
      rcases (members entry).mp listed with rfl | stored
      · exact inhabited
      · exact ordered.inhabited entry stored
    · intro entry listed other listed' different
      rcases (members entry).mp listed with rfl | stored <;>
        rcases (members other).mp listed' with rfl | stored'
      · exact absurd rfl different
      · exact distinct other stored'
      · exact (distinct entry stored).symm
      · exact ordered.distinct entry stored other stored' different
  · intro entry stored shares
    obtain ⟨found, meets⟩ := ordered.intersects_some compatible inhabited stored shares
    rw [insert, meets]
    rfl

end

private theorem erase (p : Fin map.tree.length) : (map.erase p).Ordered := by
  have kept : (map.erase p).tree.Sublist map.tree := List.eraseIdx_sublist _ _
  exact ⟨ordered.ascending.sublist kept,
    fun entry stored => ordered.inhabited entry (kept.subset stored),
    fun entry stored other stored' =>
      ordered.distinct entry (kept.subset stored) other (kept.subset stored')⟩

end Ordered

/-! ## Runs of a map -/

/-- The calls that change a map. -/
inductive Call (V : Type) where
  | insert (r : AddrRange) (d : V)
  | erase (p : Nat)

/-- A map with the ranges that have been offered to it. -/
structure History (V : Type) where
  map : AddrRangeMap V
  offered : List AddrRange

/-- One call; only an iterator of the tree may be erased. -/
def History.take (history : History V) : Call V → Checked (History V)
  | .insert r d => do
    let (map, _) ← history.map.insert r d
    return ⟨map, r :: history.offered⟩
  | .erase p =>
    if valid : p < history.map.tree.length then
      return ⟨history.map.erase ⟨p, valid⟩, history.offered⟩
    else panicWith "erase of an invalid iterator"

/-- The offered range is not empty and is compatible with every one offered before. -/
def History.Admits (history : History V) : Call V → Prop
  | .insert r _ => r.Inhabited ∧ ∀ s ∈ history.offered, r.Compatible s
  | .erase _ => True

/-- The sequences of calls on an empty map. -/
def calls (V : Type) : TransitionSystem (History V) (Call V) :=
  (TransitionSystem.ofExcept (· = ⟨⟨[]⟩, []⟩) History.take).restrict History.Admits

/-- The stored ranges are among the offered ones. -/
structure History.Sound (history : History V) : Prop where
  ordered : history.map.Ordered
  offered : ∀ entry ∈ history.map.tree, entry.1 ∈ history.offered

private theorem sound_invariant : (calls V).Invariant History.Sound where
  initial := by
    rintro history rfl
    exact ⟨⟨.nil, by simp, by simp⟩, by simp⟩
  preserved := by
    rintro history (⟨r, d⟩ | p) next sound ⟨admits, taken⟩
    · obtain ⟨inhabited, compatible⟩ := admits
      have compatible' : ∀ entry ∈ history.map.tree, r.Compatible entry.1 :=
        fun entry stored => compatible entry.1 (sound.offered entry stored)
      obtain ⟨inserts, rejects⟩ := sound.ordered.insert_eq compatible' inhabited d
      by_cases free : ∀ entry ∈ history.map.tree, ¬r.Shares entry.1
      · obtain ⟨map, inserted, ordered, members⟩ := inserts free
        simp only [TransitionSystem.ofExcept_step, History.take, inserted, ok_bind,
          pure_eq_ok] at taken
        subst taken
        refine ⟨ordered, fun entry listed => ?_⟩
        rcases (members entry).mp listed with rfl | stored
        · simp
        · exact List.mem_cons_of_mem _ (sound.offered entry stored)
      · push Not at free
        obtain ⟨entry, stored, shares⟩ := free
        simp only [TransitionSystem.ofExcept_step, History.take, rejects entry stored shares,
          ok_bind, pure_eq_ok] at taken
        subst taken
        exact ⟨sound.ordered,
          fun entry stored => List.mem_cons_of_mem _ (sound.offered entry stored)⟩
    · simp only [TransitionSystem.ofExcept_step, History.take] at taken
      split at taken
      · next valid =>
        obtain rfl := pure_eq_ok.mp taken
        exact ⟨sound.ordered.erase _, fun entry stored =>
          sound.offered entry ((List.eraseIdx_sublist _ _).subset stored)⟩
      · exact absurd taken panicWith_ne_ok

/-- `contains(a)` answers with the stored entry that contains the address. -/
def LooksUp (map : AddrRangeMap V) (a : Addr) : Prop :=
  ∃ found, map.contains a = .ok found ∧
    ∀ entry, found = some entry ↔ entry ∈ map.tree ∧ entry.1.contains a = true

/-- The lookup does not come to a check that goes wrong: the end of the range after the last
address wraps around, and a granularity is computed in an `int`. -/
def Answerable (map : AddrRangeMap V) (a : Addr) : Prop :=
  (a = MaxAddr → ∀ last, map.tree.getLast? = some last → last.1.interleaved = true) ∧
    ∀ entry ∈ map.tree, entry.1.interleaved = true → entry.1.contains a = true →
      entry.1.combinedMask ≠ 0

private theorem Ordered.looksUp_iff (ordered : map.Ordered) (a : Addr) :
    map.LooksUp a ↔ map.Answerable a := by
  constructor
  · rintro ⟨found, ran, exact⟩
    refine ⟨?_, fun entry stored interleaved contained zero => ?_⟩
    · rintro rfl last isLast
      refine Bool.eq_true_of_not_eq_false fun plain => ?_
      rw [ordered.contains_max, isLast, Option.filter_some_pos (by simp [plain])] at ran
      cases ran
      exact absurd ((exact last).mp rfl).2 (by simp [not_contains_max])
    · rw [ordered.contains_of_stored stored contained, bind_eq_ok] at ran
      obtain ⟨answer, tested, -⟩ := ran
      exact (isSubset_interleaved interleaved).2.2 contained zero answer tested
  · rintro ⟨atMax, granular⟩
    by_cases present : ∃ entry ∈ map.tree, entry.1.contains a = true
    · obtain ⟨entry, stored, contained⟩ := present
      have tested : (RangeSize a 1).isSubset entry.1 = .ok true := by
        cases interleaved : entry.1.interleaved with
        | true =>
          exact (isSubset_interleaved interleaved).2.1 contained
            (granular entry stored interleaved contained)
        | false =>
          rw [isSubset_plain interleaved (ordered.inhabited entry stored)
            (ne_max_of_contains contained), contained]
      refine ⟨some entry, by rw [ordered.contains_of_stored stored contained, tested]; rfl,
        fun other => ?_⟩
      constructor
      · rintro ⟨⟩
        exact ⟨stored, contained⟩
      · rintro ⟨stored', contained'⟩
        by_contra different
        have outside := ordered.not_contains_other stored stored'
          (fun same => different (by rw [same])) contained
        simp [contained'] at outside
    · push Not at present
      have absent : ∀ entry ∈ map.tree, entry.1.contains a = false :=
        fun entry stored => Bool.eq_false_iff.mpr (present entry stored)
      refine ⟨none, ?_, fun entry => ⟨fun found => (Option.some_ne_none entry found.symm).elim,
        fun ⟨stored, contained⟩ => absurd contained (present entry stored)⟩⟩
      by_cases last : a = MaxAddr
      · subst last
        rw [ordered.contains_max]
        exact congrArg Except.ok (Option.filter_eq_none_iff.mpr fun last isLast => by
          simp [atMax rfl last isLast])
      · exact ordered.contains_absent last absent

/-- After any calls, `insert` succeeds exactly when no stored range shares an address with the
new one, and a lookup is exact exactly when it comes to no check that goes wrong. -/
theorem search_exact_iff {history : History V} (reachable : (calls V).Reachable history) :
    (∀ r d, history.Admits (.insert r d) →
      ((∃ next : AddrRangeMap V, history.map.insert r d = .ok (next, some (r, d)) ∧
          ∀ entry, entry ∈ next.tree ↔ entry = (r, d) ∨ entry ∈ history.map.tree) ↔
        ∀ entry ∈ history.map.tree, ¬r.Shares entry.1) ∧
      (history.map.insert r d = .ok (history.map, none) ↔
        ∃ entry ∈ history.map.tree, r.Shares entry.1)) ∧
    ∀ a, history.map.LooksUp a ↔ history.map.Answerable a := by
  have sound := sound_invariant.of_reachable reachable
  refine ⟨fun r d ⟨inhabited, compatible⟩ => ?_, sound.ordered.looksUp_iff⟩
  obtain ⟨inserts, rejects⟩ := sound.ordered.insert_eq
    (fun entry stored => compatible entry.1 (sound.offered entry stored)) inhabited d
  by_cases free : ∀ entry ∈ history.map.tree, ¬r.Shares entry.1
  · obtain ⟨next, inserted, -, members⟩ := inserts free
    refine ⟨iff_of_true ⟨next, inserted, members⟩ free, iff_of_false ?_ ?_⟩
    · rw [inserted]
      simp
    · exact fun ⟨entry, stored, shares⟩ => free entry stored shares
  · have blocked := free
    push Not at free
    obtain ⟨entry, stored, shares⟩ := free
    have rejected := rejects entry stored shares
    refine ⟨iff_of_false ?_ blocked, iff_of_true rejected ⟨entry, stored, shares⟩⟩
    rintro ⟨next, inserted, -⟩
    rw [rejected] at inserted
    simp at inserted

/-- The first page. -/
def page : AddrRange :=
  RangeSize 0 0x1000

/-- A map that holds the first page. -/
def pageHistory : History Nat :=
  ⟨⟨[(page, 7)]⟩, [page]⟩

private theorem pageHistory_reachable : (calls Nat).Reachable pageHistory := by
  have empty : (calls Nat).Reachable ⟨⟨[]⟩, []⟩ := .of_initial rfl
  have admits : History.Admits ⟨⟨[]⟩, []⟩ (.insert page 7) := ⟨⟨0, by decide⟩, by rintro s ⟨⟩⟩
  have taken : History.take ⟨⟨[]⟩, []⟩ (.insert page 7) = .ok pageHistory := rfl
  exact empty.step (TransitionSystem.restrict_step.mpr ⟨admits, taken⟩)

/-- Every other stripe of 64 bytes of the second page. -/
def stripes (odd : Bool) : AddrRange where
  start := 0x1000
  end_ := 0x2000
  masks := [0x40]
  intlvMatch := if odd then 1 else 0
  match_fits _ := by cases odd <;> decide

/-- The first page and the stripes of the second one. -/
def stripedHistory : History Nat :=
  ⟨⟨[(page, 7), (stripes false, 8), (stripes true, 9)]⟩, [stripes true, stripes false, page]⟩

private theorem stripes_separate (odd : Bool) : (stripes odd).Separate page := by
  rintro a ⟨above, below⟩
  rw [between_iff] at above below
  change 0x1000 ≤ a.toNat ∧ _ at above
  change _ ∧ a.toNat < 0x1000 at below
  omega

private theorem stripedHistory_reachable : (calls Nat).Reachable stripedHistory := by
  have even : pageHistory.Admits (.insert (stripes false) 8) := by
    refine ⟨⟨0x1000, by decide⟩, ?_⟩
    rintro s (_ | ⟨_, ⟨⟩⟩)
    exact .inl (stripes_separate false)
  have odd : History.Admits ⟨⟨[(page, 7), (stripes false, 8)]⟩, [stripes false, page]⟩
      (.insert (stripes true) 9) := by
    refine ⟨⟨0x1040, by decide⟩, ?_⟩
    rintro s (_ | ⟨_, _ | ⟨_, ⟨⟩⟩⟩)
    · exact .inr (.inr ⟨⟨by decide, by decide⟩, by decide⟩)
    · exact .inl (stripes_separate true)
  exact (pageHistory_reachable.step (TransitionSystem.restrict_step.mpr ⟨even, rfl⟩)).step
    (TransitionSystem.restrict_step.mpr ⟨odd, rfl⟩)

/-- Beside the first page, an address of an interleaved range is looked up. -/
theorem search_exact_iff_stripes :
    stripedHistory.map.Answerable 0x1048 ∧ stripedHistory.map.LooksUp 0x1048 := by
  have answerable : stripedHistory.map.Answerable 0x1048 := by
    refine ⟨fun same => absurd same (by decide), ?_⟩
    rintro entry (_ | ⟨_, _ | ⟨_, _ | ⟨_, ⟨⟩⟩⟩⟩) interleaved contained <;> revert interleaved <;>
      decide
  exact ⟨answerable, ((search_exact_iff stripedHistory_reachable).2 0x1048).mpr answerable⟩

/-- The last address is looked up in a map that holds only the first page, and the page is found. -/
theorem page_found_at_maxAddr : (calls Nat).Reachable pageHistory ∧ page.contains MaxAddr = false ∧
      pageHistory.map.contains MaxAddr = .ok (some (page, 7)) ∧
      ¬pageHistory.map.LooksUp MaxAddr := by
  have found : pageHistory.map.contains MaxAddr = .ok (some (page, 7)) := rfl
  refine ⟨pageHistory_reachable, not_contains_max page, found, ?_⟩
  rintro ⟨answer, ran, exact⟩
  cases found.symm.trans ran
  exact absurd ((exact (page, 7)).mp rfl).2 (by simp [not_contains_max])

end AddrRangeMap

end Gem5
