import Gem5.Base.Bitfield
import Gem5.Foundation.FailStop
import Mathlib.Data.List.Pairwise
import Mathlib.Data.Finset.Max

/-!
# Interleaved address ranges

`AddrRange` of `base/addr_range.hh`.  Each mask of an interleaved range selects the bits
whose parity gives one bit of the selector; an address between the ends belongs to the
range if its selector is the match value.  The bits at the least significant positions
of the masks are redundant then and are left out of the offset of the address.
-/

namespace Gem5

open Foundation

/-- `Addr`. -/
abbrev Addr := Word

/-- `MaxAddr`. -/
def MaxAddr : Addr := BitVec.allOnes 64

/-- `AddrRange`; the constructors check that the match value fits. -/
structure AddrRange where
  start : Addr
  end_ : Addr
  masks : List Addr
  intlvMatch : BitVec 8
  match_fits : masks ≠ [] → intlvMatch.toNat < 2 ^ masks.length
  deriving DecidableEq

namespace AddrRange

variable (range : AddrRange)

/-- `interleaved`. -/
def interleaved : Bool :=
  range.masks.length > 0

/-- `size`. -/
def size : Addr :=
  (range.end_ - range.start) >>> range.masks.length

/-- `valid`. -/
def valid : Bool :=
  range.start ≤ range.end_

/-- `mergesWith`. -/
def mergesWith (other : AddrRange) : Bool :=
  other.start = range.start && other.end_ = range.end_ && other.masks = range.masks

/-- Whether the address lies between the ends. -/
def inRange (a : Addr) : Bool :=
  range.start ≤ a && a < range.end_

/-- The selector: one bit of parity for each mask. -/
def sel (masks : List Addr) (a : Addr) : BitVec 32 :=
  masks.zipIdx.foldl
    (fun sel (mask, i) => sel ||| BitVec.ofNat 32 (popCount (a &&& mask) % 2) <<< i) 0#32

/-- Whether the selector of the address is the match value. -/
def selects (a : Addr) : Bool :=
  sel range.masks a = range.intlvMatch.setWidth 32

/-- `contains`. -/
def contains (a : Addr) : Bool :=
  range.inRange a && range.selects a

/-- The least significant positions of the masks, in increasing order. -/
def masksLsb : List Nat :=
  (range.masks.map ctz64).insertionSort (· ≤ ·)

/-- One iteration of `removeIntlvBits`: position `i` of the sorted list. -/
def removeIntlvBit (a : Addr) (intlvBit i : Nat) : Addr :=
  if intlvBit > 0 then
    insertBits (a >>> 1) (BitVec.ofInt 32 ((intlvBit : Int) - i - 1)) 0#32 a
      (BitVec.le_def.mpr (Nat.zero_le _))
  else a >>> 1

/-- `removeIntlvBits`. -/
def removeIntlvBits (a : Addr) : Addr :=
  if range.interleaved then
    range.masksLsb.zipIdx.foldl (fun a (intlvBit, i) => removeIntlvBit a intlvBit i) a
  else a

/-- One iteration of the first loop of `addIntlvBits`. -/
def addIntlvBit (a : Addr) (intlvBit : Nat) : Addr :=
  if intlvBit > 0 then
    insertBits (a <<< 1) (BitVec.ofInt 32 ((intlvBit : Int) - 1)) 0#32 a
      (BitVec.le_def.mpr (Nat.zero_le _))
  else a <<< 1

/-- The bits of an address in a mask but for its least significant one, which are chosen with an
`int` that is extended by its sign. -/
def masked (a mask : Addr) : Addr :=
  a &&& mask &&& (~~~(1#32 <<< ctz64 mask)).signExtend 64

/-- One iteration of the second loop: the bit is what makes the parity match. -/
def setIntlvBit (a mask : Addr) (matchBit : Bool) : Addr :=
  insertBit a (BitVec.ofNat 32 (ctz64 mask))
    ((BitVec.ofBool matchBit).setWidth 64 ^^^ BitVec.ofNat 64 (popCount (masked a mask)))

/-- `addIntlvBits`. -/
def addIntlvBits (a : Addr) : Addr :=
  if range.interleaved then
    range.masks.zipIdx.foldl
      (fun a (mask, i) => setIntlvBit a mask (range.intlvMatch.getLsbD i))
      (range.masksLsb.foldl addIntlvBit a)
  else a

/-- `getOffset`. -/
def getOffset (a : Addr) : Addr :=
  if range.inRange a then
    if range.interleaved then range.removeIntlvBits a - range.removeIntlvBits range.start
    else a - range.start
  else MaxAddr

/-- `operator<`: among ranges with one start, the interleaved ones come first. -/
def lt (r : AddrRange) : Bool :=
  if range.start ≠ r.start then range.start < r.start
  else if range.interleaved && r.interleaved then range.intlvMatch < r.intlvMatch
  else range.interleaved

/-- `intersects`. -/
def intersects (r : AddrRange) : Checked Bool :=
  if range.start ≥ r.end_ || range.end_ ≤ r.start then return false
  else if !range.interleaved && !r.interleaved then return true
  else if r.size = 1 then return range.contains r.start
  else if range.mergesWith r then return range.intlvMatch = r.intlvMatch
  else panicWith "Cannot test intersection of %s and %s"

/-- The local `combined_mask` of `granularity`, which is an `int`. -/
def combinedMask : BitVec 32 :=
  range.masks.foldl (fun combined mask => (combined.signExtend 64 ||| mask).setWidth 32) 0#32

/-- `granularity`; shifting a word by its width has no defined value. -/
def granularity : Checked Addr :=
  if range.interleaved then do
    let lowestBit := ctz64 (range.combinedMask.signExtend 64)
    assertThat (lowestBit < 64) "1ULL << lowest_bit"
    return 1#64 <<< lowestBit
  else return range.size

/-- `isSubset`. -/
def isSubset (r : AddrRange) : Checked Bool :=
  if range.interleaved then panicWith "Cannot test subset of interleaved range %s"
  else if r.interleaved then
    if r.contains range.start && r.contains (range.end_ - 1) then do
      return range.size ≤ (← r.granularity)
    else return false
  else return range.start ≥ r.start && range.end_ ≤ r.end_

/-- `RangeSize`. -/
def RangeSize (start size : Addr) : AddrRange where
  start := start
  end_ := start + size
  masks := []
  intlvMatch := 0
  match_fits absurd := (absurd rfl).elim

/-! ## Removing and adding bits -/

section Bits

variable {a : Addr}

private theorem getLsbD_removeIntlvBit {p i : Nat} (start : i ≤ p) (low : p < 31) :
    (removeIntlvBit a p i).getLsbD = dropBit (p - i) a.getLsbD := by
  have width : (BitVec.ofInt 32 ((p : Int) - i - 1) + 1#32).toNat = p - i := by
    have sum : BitVec.ofInt 32 ((p : Int) - i - 1) + 1#32 =
        BitVec.ofInt 32 ((p - i : Nat) : Int) := by
      rw [show (1#32 : BitVec 32) = BitVec.ofInt 32 1 from rfl, ← BitVec.ofInt_add]
      congr 1
      omega
    rw [sum, BitVec.ofInt_natCast, BitVec.toNat_ofNat, Nat.mod_eq_of_lt (by omega)]
  funext k
  unfold removeIntlvBit
  split
  · next positive =>
    by_cases inside : k < 64
    · rw [getLsbD_insertBits _ inside, width]
      by_cases below : k < p - i
      · rw [if_pos ⟨Nat.zero_le _, below⟩, dropBit_of_lt below]
        rfl
      · rw [if_neg fun both => below both.2, dropBit_of_le (by omega), BitVec.getLsbD_ushiftRight,
          Nat.add_comm]
    · rw [dropBit_of_le (by omega), BitVec.getLsbD_of_ge _ _ (by omega),
        BitVec.getLsbD_of_ge _ _ (by omega)]
  · next zero =>
    rw [dropBit_of_le (by omega), BitVec.getLsbD_ushiftRight, Nat.add_comm]

private theorem getLsbD_foldl_removeIntlvBit {ps : List Nat} {i : Nat}
    (sorted : ps.Pairwise (· < ·))
    (start : ∀ p ∈ ps, i ≤ p) (low : ∀ p ∈ ps, p < 31) :
    ((ps.zipIdx i).foldl (fun a (intlvBit, i) => removeIntlvBit a intlvBit i) a).getLsbD =
      dropBits i ps a.getLsbD := by
  induction ps generalizing i a with
  | nil => rfl
  | cons p ps ih =>
    have first : i ≤ p := start p List.mem_cons_self
    rw [List.zipIdx_cons, List.foldl_cons, ih sorted.tail (succ_le_of_sorted sorted first)
      (fun q listed => low q (List.mem_cons_of_mem _ listed)), dropBits,
      getLsbD_removeIntlvBit first (low p List.mem_cons_self)]

private theorem getLsbD_addIntlvBit {p k : Nat} (low : p < 31) (inside : k < 64) :
    (addIntlvBit a p).getLsbD k =
      if k < p then a.getLsbD k else !decide (k < 1) && a.getLsbD (k - 1) := by
  have shifted : (a <<< 1).getLsbD k = (!decide (k < 1) && a.getLsbD (k - 1)) := by
    rw [BitVec.getLsbD_shiftLeft]
    simp [inside]
  unfold addIntlvBit
  split
  · next positive =>
    have width : (BitVec.ofInt 32 ((p : Int) - 1) + 1#32).toNat = p := by
      rw [show (1#32 : BitVec 32) = BitVec.ofInt 32 1 from rfl, ← BitVec.ofInt_add,
        Int.sub_add_cancel, BitVec.ofInt_natCast, BitVec.toNat_ofNat, Nat.mod_eq_of_lt (by omega)]
    rw [getLsbD_insertBits _ inside, width, shifted]
    simp
  · next zero => rw [if_neg (by omega), shifted]

/-- An added bit can be dropped again, unless the word was too large for it. -/
theorem dropBit_addIntlvBit {p : Nat} (low : p < 31) (fits : a.getLsbD 63 = false) :
    dropBit p (addIntlvBit a p).getLsbD = a.getLsbD := by
  funext k
  by_cases below : k < p
  · rw [dropBit_of_lt below, getLsbD_addIntlvBit low (by omega), if_pos below]
  · rw [dropBit_of_le (by omega)]
    by_cases inside : k + 1 < 64
    · rw [getLsbD_addIntlvBit low inside, if_neg (by omega)]
      simp
    · rw [BitVec.getLsbD_of_ge _ _ (by omega)]
      by_cases last : k = 63
      · rw [last, fits]
      · rw [BitVec.getLsbD_of_ge _ _ (by omega)]

private theorem dropBits_foldl_addIntlvBit {ps : List Nat} (sorted : ps.Pairwise (· < ·))
    (low : ∀ p ∈ ps, p < 31) (fits : ∀ k, 64 ≤ k + ps.length → a.getLsbD k = false) :
    dropBits 0 ps (ps.foldl addIntlvBit a).getLsbD = a.getLsbD := by
  induction ps generalizing a with
  | nil => rfl
  | cons p ps ih =>
    have first : p < 31 := low p List.mem_cons_self
    rw [List.length_cons] at fits
    have fitsNext : ∀ k, 64 ≤ k + ps.length → (addIntlvBit a p).getLsbD k = false := by
      intro k high
      by_cases inside : k < 64
      · rw [getLsbD_addIntlvBit first inside]
        split
        · exact fits k (by omega)
        · by_cases zero : k < 1
          · simp [zero]
          · rw [fits (k - 1) (by omega), Bool.and_false]
      · exact BitVec.getLsbD_of_ge _ _ (by omega)
    rw [List.foldl_cons, dropBits_cons (Nat.zero_le p) sorted,
      ih sorted.tail (fun q listed => low q (List.mem_cons_of_mem _ listed)) fitsNext]
    exact dropBit_addIntlvBit first (fits 63 (by omega))

end Bits

/-! ## Parity -/

section Parity

/-- The parity of the set bits. -/
def parity (val : Word) : Bool :=
  popCount val % 2 = 1

private theorem popCount_of_clear {val rest : Word} {l : Nat} (inside : l < 64)
    (clear : rest.getLsbD l = false) (same : ∀ k, k ≠ l → rest.getLsbD k = val.getLsbD k) :
    popCount val = popCount rest + (val.getLsbD l).toNat := by
  unfold popCount
  cases bit : val.getLsbD l with
  | false =>
    rw [Bool.toNat_false, Nat.add_zero]
    refine congrArg Finset.card (Finset.ext fun k => ?_)
    by_cases here : k = l
    · simp [here, bit, clear]
    · simp [same k here]
  | true =>
    have split : (Finset.range 64).filter (fun k => val.getLsbD k = true) =
        insert l ((Finset.range 64).filter fun k => rest.getLsbD k = true) := by
      ext k
      by_cases here : k = l
      · simp [here, bit, inside]
      · simp [here, same k here]
    rw [split, Finset.card_insert_of_notMem (by simp [clear])]
    rfl

/-- One bit changes the parity. -/
theorem parity_of_clear {val rest : Word} {l : Nat} (inside : l < 64)
    (clear : rest.getLsbD l = false) (same : ∀ k, k ≠ l → rest.getLsbD k = val.getLsbD k) :
    parity val = (val.getLsbD l ^^ parity rest) := by
  unfold parity
  rw [popCount_of_clear inside clear same]
  cases val.getLsbD l with
  | false => simp
  | true =>
    rcases Nat.mod_two_eq_zero_or_one (popCount rest) with even | odd
    · simp [Nat.add_mod, even]
    · simp [Nat.add_mod, odd]

private theorem getLsbD_parity {val : Word} {i k : Nat} (few : i < 32) :
    (BitVec.ofNat 32 (popCount val % 2) <<< i).getLsbD k = (decide (k = i) && parity val) := by
  rw [BitVec.getLsbD_shiftLeft, BitVec.getLsbD_ofNat]
  rcases Nat.lt_trichotomy k i with below | rfl | above
  · simp [below, Nat.ne_of_lt below]
  · rcases Nat.mod_two_eq_zero_or_one (popCount val) with even | odd
    · simp [parity, even]
    · simp [parity, odd, few]
  · obtain ⟨j, rfl⟩ : ∃ j, k = i + (j + 1) := ⟨k - i - 1, by omega⟩
    rcases Nat.mod_two_eq_zero_or_one (popCount val) with even | odd
    · simp [parity, even]
    · simp [odd, Nat.testBit_succ]

variable {a : Addr}

/-- The bits of the selector. -/
theorem getLsbD_foldl_sel {masks : List Addr} {i k : Nat} {acc : BitVec 32}
    (few : i + masks.length ≤ 32) : ((masks.zipIdx i).foldl (fun sel (mask, i) =>
        sel ||| BitVec.ofNat 32 (popCount (a &&& mask) % 2) <<< i) acc).getLsbD k =
      (acc.getLsbD k || decide (i ≤ k) && masks[k - i]?.any fun mask => parity (a &&& mask)) := by
  induction masks generalizing i acc with
  | nil => simp
  | cons mask masks ih =>
    rw [List.length_cons] at few
    rw [List.zipIdx_cons, List.foldl_cons, ih (by omega), BitVec.getLsbD_or,
      getLsbD_parity (by omega)]
    rcases Nat.lt_trichotomy k i with below | rfl | above
    · simp [below, Nat.not_le.mpr, Nat.ne_of_lt below, Nat.not_le.mpr (Nat.lt_succ_of_lt below)]
    · simp
    · obtain ⟨j, rfl⟩ : ∃ j, k = i + 1 + j := ⟨k - (i + 1), by omega⟩
      simp [show i + 1 + j - i = j + 1 by omega, show i + 1 + j ≠ i by omega,
        show i ≤ i + 1 + j by omega]

variable {range : AddrRange}

/-- The parities of the masks are the bits of the match value. -/
theorem selects_iff (few : range.masks.length ≤ 8) (interleaved : range.masks ≠ []) :
    range.selects a = true ↔ ∀ mask i, range.masks[i]? = some mask →
      parity (a &&& mask) = range.intlvMatch.getLsbD i := by
  have bits : ∀ k, (sel range.masks a).getLsbD k =
      range.masks[k]?.any fun mask => parity (a &&& mask) := fun k => by
    rw [sel, getLsbD_foldl_sel (by omega)]
    simp
  unfold selects
  rw [decide_eq_true_iff]
  constructor
  · intro same mask i found
    have bit := bits i
    rw [same, found, Option.any_some] at bit
    rw [← bit, BitVec.getLsbD_setWidth]
    have := (List.getElem?_eq_some_iff.mp found).1
    simp [show i < 32 by omega]
  · intro agree
    refine BitVec.eq_of_getLsbD_eq fun k inside => ?_
    rw [bits, BitVec.getLsbD_setWidth]
    cases found : range.masks[k]? with
    | some mask => simp [agree mask k found, inside]
    | none =>
      have high : range.masks.length ≤ k := List.getElem?_eq_none_iff.mp found
      have small : range.intlvMatch.toNat < 2 ^ k :=
        Nat.lt_of_lt_of_le (range.match_fits interleaved) (Nat.pow_le_pow_right (by decide) high)
      rw [← BitVec.testBit_toNat, Nat.testBit_lt_two_pow small]
      simp

private theorem getLsbD_masked {mask : Addr} (low : ctz64 mask < 31) (k : Nat) :
    (masked a mask).getLsbD k = (a.getLsbD k && mask.getLsbD k && decide (k ≠ ctz64 mask)) := by
  have bit : ∀ j, (~~~(1#32 <<< ctz64 mask)).getLsbD j =
      (decide (j < 32) && decide (j ≠ ctz64 mask)) := fun j => by
    rw [BitVec.getLsbD_not, BitVec.getLsbD_shiftLeft]
    rcases Nat.lt_trichotomy j (ctz64 mask) with below | rfl | above
    · simp [below, Nat.ne_of_lt below]
    · simp [show ctz64 mask < 32 by omega]
    · obtain ⟨i, rfl⟩ : ∃ i, j = ctz64 mask + (i + 1) := ⟨j - ctz64 mask - 1, by omega⟩
      simp
  rw [masked, BitVec.getLsbD_and, BitVec.getLsbD_and, BitVec.getLsbD_signExtend,
    BitVec.msb_eq_getLsbD_last, bit, bit]
  by_cases inside : k < 64
  · by_cases low32 : k < 32
    · simp [inside, low32]
    · simp [inside, low32, show (31 : Nat) ≠ ctz64 mask by omega, show k ≠ ctz64 mask by omega]
  · simp [BitVec.getLsbD_of_ge a k (by omega)]

/-- The parity without the least significant bit of the mask. -/
theorem parity_and {mask : Addr} (low : ctz64 mask < 31) :
    parity (a &&& mask) = (a.getLsbD (ctz64 mask) ^^ parity (masked a mask)) := by
  have set : mask.getLsbD (ctz64 mask) = true := (getLsbD_ctz64 (by omega)).1
  have split := @parity_of_clear (a &&& mask) (masked a mask) (ctz64 mask) (by omega)
    (by simp [getLsbD_masked low]) (fun k other => by
      rw [getLsbD_masked low, BitVec.getLsbD_and]
      simp [other])
  rw [split, BitVec.getLsbD_and, set, Bool.and_true]

/-- One bit is set to what makes the parity match. -/
theorem getLsbD_setIntlvBit {mask : Addr} {bit : Bool} (low : ctz64 mask < 31) {k : Nat} :
    (setIntlvBit a mask bit).getLsbD k = if k = ctz64 mask then
      (bit ^^ parity (masked a mask)) else a.getLsbD k := by
  have here : (BitVec.ofNat 32 (ctz64 mask)).toNat = ctz64 mask := by
    rw [BitVec.toNat_ofNat, Nat.mod_eq_of_lt (by omega)]
  have next : (BitVec.ofNat 32 (ctz64 mask) + 1#32).toNat = ctz64 mask + 1 := by
    rw [BitVec.toNat_add, here, BitVec.toNat_ofNat, Nat.mod_eq_of_lt (by omega)]
  by_cases inside : k < 64
  · rw [setIntlvBit, insertBit, getLsbD_insertBits _ inside, here, next]
    by_cases same : k = ctz64 mask
    · rw [if_pos ⟨by omega, by omega⟩, if_pos same, same, Nat.sub_self, BitVec.getLsbD_xor,
        BitVec.getLsbD_ofNat]
      simp [parity, Nat.testBit_zero]
    · rw [if_neg (by omega), if_neg same]
  · rw [if_neg (by omega), BitVec.getLsbD_of_ge _ _ (by omega), BitVec.getLsbD_of_ge _ _ (by omega)]

/-- Afterwards the parity is the bit of the match value. -/
theorem parity_setIntlvBit {mask : Addr} {bit : Bool} (low : ctz64 mask < 31) :
    parity (setIntlvBit a mask bit &&& mask) = bit := by
  have same : masked (setIntlvBit a mask bit) mask = masked a mask := by
    refine BitVec.eq_of_getLsbD_eq fun k _ => ?_
    rw [getLsbD_masked low, getLsbD_masked low, getLsbD_setIntlvBit low]
    by_cases here : k = ctz64 mask <;> simp [here]
  rw [parity_and low, same, getLsbD_setIntlvBit low, if_pos rfl]
  simp

/-- The second loop of `addIntlvBits` sets the least significant positions of the masks so that all
parities match: none of them is in another mask. -/
theorem foldl_setIntlvBit {masks : List Addr} {i : Nat} {bits : Nat → Bool}
    (low : ∀ mask ∈ masks, ctz64 mask < 31) (own : masks.Pairwise fun mask other =>
      mask.getLsbD (ctz64 other) = false ∧ other.getLsbD (ctz64 mask) = false) {result : Addr}
    (looped : (masks.zipIdx i).foldl (fun a (mask, i) => setIntlvBit a mask (bits i)) a = result) :
    (∀ k, (∀ mask ∈ masks, k ≠ ctz64 mask) → result.getLsbD k = a.getLsbD k) ∧
      ∀ mask j, masks[j]? = some mask → parity (result &&& mask) = bits (i + j) := by
  induction masks generalizing i a with
  | nil => exact ⟨fun k _ => looped ▸ rfl, fun mask j found => by simp at found⟩
  | cons first masks ih =>
    have firstLow := low first List.mem_cons_self
    obtain ⟨kept, parities⟩ := ih (fun mask member => low mask (List.mem_cons_of_mem _ member))
      own.tail looped
    refine ⟨fun k other => ?_, fun mask j found => ?_⟩
    · rw [kept k fun mask member => other mask (List.mem_cons_of_mem _ member),
        getLsbD_setIntlvBit firstLow, if_neg (other first List.mem_cons_self)]
    · cases j with
      | zero =>
        obtain rfl : first = mask := by simpa using found
        have same : result &&& first = setIntlvBit a first (bits i) &&& first := by
          refine BitVec.eq_of_getLsbD_eq fun k _ => ?_
          rw [BitVec.getLsbD_and, BitVec.getLsbD_and]
          by_cases changed : ∃ mask ∈ masks, k = ctz64 mask
          · obtain ⟨mask, member, rfl⟩ := changed
            rw [(List.rel_of_pairwise_cons own member).1, Bool.and_false, Bool.and_false]
          · rw [kept k fun mask member same => changed ⟨mask, member, same⟩]
        rw [same, parity_setIntlvBit firstLow, Nat.add_zero]
      | succ j =>
        rw [parities mask j (by simpa using found), Nat.add_assoc, Nat.add_comm 1]

end Parity

/-! ## Well-formed interleavings -/

section

variable {range : AddrRange}

private theorem mem_masksLsb {p : Nat} :
    p ∈ range.masksLsb ↔ ∃ mask ∈ range.masks, ctz64 mask = p := by
  rw [masksLsb, List.mem_insertionSort, List.mem_map]

private theorem length_masksLsb : range.masksLsb.length = range.masks.length := by
  rw [masksLsb, List.length_insertionSort, List.length_map]

end

/-- The masks and the ends of an interleaved range: the least significant bits of the masks are
distinct, each is in its own mask only, and the ends are multiples of twice the largest one. -/
structure Interleaves (range : AddrRange) : Prop where
  interleaved : range.masks ≠ []
  few : range.masks.length ≤ 8
  low : ∀ mask ∈ range.masks, ctz64 mask < 31
  distinct : (range.masks.map ctz64).Nodup
  own : range.masks.Pairwise fun mask other =>
    mask.getLsbD (ctz64 other) = false ∧ other.getLsbD (ctz64 mask) = false
  start : ∀ mask ∈ range.masks, 2 ^ (ctz64 mask + 1) ∣ range.start.toNat
  end_ : ∀ mask ∈ range.masks, 2 ^ (ctz64 mask + 1) ∣ range.end_.toNat

namespace Interleaves

variable {range : AddrRange} (interleaves : range.Interleaves)
include interleaves

private theorem isInterleaved : range.interleaved = true := by
  simpa [AddrRange.interleaved, List.length_pos_iff] using interleaves.interleaved

private theorem masksLsb_low : ∀ p ∈ range.masksLsb, p < 31 := by
  intro p listed
  obtain ⟨mask, member, rfl⟩ := mem_masksLsb.mp listed
  exact interleaves.low mask member

private theorem masksLsb_sorted : range.masksLsb.Pairwise (· < ·) := by
  have sorted : range.masksLsb.Pairwise (· ≤ ·) := List.pairwise_insertionSort _ _
  have nodup : range.masksLsb.Nodup :=
    (List.perm_insertionSort _ _).nodup_iff.mpr interleaves.distinct
  exact (sorted.and nodup).imp fun both => Nat.lt_of_le_of_ne both.1 both.2

private theorem getLsbD_removeIntlvBits (a : Addr) :
    (range.removeIntlvBits a).getLsbD = dropBits 0 range.masksLsb a.getLsbD := by
  rw [removeIntlvBits, if_pos interleaves.isInterleaved]
  exact getLsbD_foldl_removeIntlvBit interleaves.masksLsb_sorted (fun _ _ => Nat.zero_le _)
    interleaves.masksLsb_low

variable {a : Addr}

/-- Two addresses have the same remaining bits exactly when they agree elsewhere. -/
theorem removeIntlvBits_eq_iff {b : Addr} : range.removeIntlvBits a = range.removeIntlvBits b ↔
    ∀ k, k ∉ range.masksLsb → a.getLsbD k = b.getLsbD k := by
  have byBits : range.removeIntlvBits a = range.removeIntlvBits b ↔
      (range.removeIntlvBits a).getLsbD = (range.removeIntlvBits b).getLsbD :=
    ⟨fun same => same ▸ rfl, fun same => BitVec.eq_of_getLsbD_eq fun k _ => congrFun same k⟩
  rw [byBits, interleaves.getLsbD_removeIntlvBits, interleaves.getLsbD_removeIntlvBits,
    dropBits_eq_iff interleaves.masksLsb_sorted (fun _ _ => Nat.zero_le _)]
  rfl

/-- No mask has the least significant bit of another one. -/
theorem clear_of_mem {mask : Addr} {p : Nat} (member : mask ∈ range.masks)
    (listed : p ∈ range.masksLsb) (other : p ≠ ctz64 mask) : mask.getLsbD p = false := by
  obtain ⟨owner, owned, rfl⟩ := mem_masksLsb.mp listed
  have symmetric : Std.Symm fun mask other : Addr =>
      mask.getLsbD (ctz64 other) = false ∧ other.getLsbD (ctz64 mask) = false :=
    ⟨fun _ _ => And.symm⟩
  exact (interleaves.own.forall member owned fun same => other (same ▸ rfl)).1

/-- Addresses of the range that differ only at the removed positions are equal. -/
theorem eq_of_selects {b : Addr} (selects : range.selects a = true)
    (selects' : range.selects b = true)
    (agree : ∀ k, k ∉ range.masksLsb → a.getLsbD k = b.getLsbD k) : a = b := by
  rw [selects_iff interleaves.few interleaves.interleaved] at selects selects'
  refine BitVec.eq_of_getLsbD_eq fun k inside => ?_
  by_cases removed : k ∈ range.masksLsb
  · obtain ⟨mask, member, rfl⟩ := mem_masksLsb.mp removed
    obtain ⟨i, found⟩ := List.mem_iff_getElem?.mp member
    have low := interleaves.low mask member
    have same : masked a mask = masked b mask := by
      refine BitVec.eq_of_getLsbD_eq fun k _ => ?_
      rw [getLsbD_masked low, getLsbD_masked low]
      by_cases listed : k ∈ range.masksLsb
      · by_cases here : k = ctz64 mask
        · simp [here]
        · simp [interleaves.clear_of_mem member listed here]
      · rw [agree k listed]
    have parities := (selects mask i found).trans (selects' mask i found).symm
    rw [parity_and low, parity_and low, same] at parities
    exact Bool.xor_left_inj.mp parities
  · exact agree k removed

private theorem selects_addIntlvBits (x : Addr) : range.selects (range.addIntlvBits x) = true ∧
    ∀ k, k ∉ range.masksLsb → (range.addIntlvBits x).getLsbD k =
      (range.masksLsb.foldl addIntlvBit x).getLsbD k := by
  have looped : range.addIntlvBits x = _ := if_pos interleaves.isInterleaved
  obtain ⟨kept, parities⟩ := foldl_setIntlvBit interleaves.low interleaves.own looped.symm
  refine ⟨(selects_iff interleaves.few interleaves.interleaved).mpr fun mask i found => ?_,
    fun k other => kept k fun mask member same =>
      other (mem_masksLsb.mpr ⟨mask, member, same.symm⟩)⟩
  rw [parities mask i found, Nat.zero_add]

private theorem pow_split : 2 ^ 64 = 2 ^ (64 - range.masks.length) * 2 ^ range.masks.length := by
  have few := interleaves.few
  rw [← Nat.pow_add, Nat.sub_add_cancel (by omega)]

/-- The bits of a word that leaves room for the added ones. -/
theorem clear_of_fits {x : Addr} (fits : x.toNat * 2 ^ range.masks.length < 2 ^ 64) :
    ∀ k, 64 ≤ k + range.masksLsb.length → x.getLsbD k = false := by
  intro k high
  rw [length_masksLsb] at high
  rw [interleaves.pow_split] at fits
  have small : x.toNat < 2 ^ (64 - range.masks.length) := Nat.lt_of_mul_lt_mul_right fits
  rw [← BitVec.testBit_toNat]
  exact Nat.testBit_lt_two_pow
    (Nat.lt_of_lt_of_le small (Nat.pow_le_pow_right (by decide) (by omega)))

/-- Removing the added bits gives back the word. -/
theorem removeIntlvBits_addIntlvBits {x : Addr} (fits : x.toNat * 2 ^ range.masks.length < 2 ^ 64) :
    range.removeIntlvBits (range.addIntlvBits x) = x := by
  have same := interleaves.removeIntlvBits_eq_iff.mpr (interleaves.selects_addIntlvBits x).2
  rw [same]
  refine BitVec.eq_of_getLsbD_eq fun k _ => ?_
  rw [interleaves.getLsbD_removeIntlvBits, dropBits_foldl_addIntlvBit interleaves.masksLsb_sorted
    interleaves.masksLsb_low (interleaves.clear_of_fits fits)]

/-- The bits above the removed ones move down. -/
theorem getLsbD_removeIntlvBits_high {bound k : Nat} (low : ∀ p ∈ range.masksLsb, p < bound)
    (high : bound ≤ k + range.masks.length) (a : Addr) :
    (range.removeIntlvBits a).getLsbD k = a.getLsbD (k + range.masks.length) := by
  rw [interleaves.getLsbD_removeIntlvBits, ← length_masksLsb]
  exact dropBits_high interleaves.masksLsb_sorted (fun _ _ => Nat.zero_le _) low
    (by rw [length_masksLsb]; omega) _

/-- What remains of an address leaves room for the removed bits. -/
theorem removeIntlvBits_fits (a : Addr) :
    (range.removeIntlvBits a).toNat * 2 ^ range.masks.length < 2 ^ 64 := by
  have small : (range.removeIntlvBits a).toNat < 2 ^ (64 - range.masks.length) := by
    refine Nat.lt_pow_two_of_testBit _ fun k high => ?_
    rw [BitVec.testBit_toNat, interleaves.getLsbD_removeIntlvBits_high interleaves.masksLsb_low
      (by have := interleaves.few; omega)]
    exact BitVec.getLsbD_of_ge _ _ (by omega)
  rw [interleaves.pow_split]
  exact Nat.mul_lt_mul_of_pos_right small (Nat.two_pow_pos _)

/-- Adding the removed bits gives back an address of the range. -/
theorem addIntlvBits_removeIntlvBits (selects : range.selects a = true) :
    range.addIntlvBits (range.removeIntlvBits a) = a := by
  refine interleaves.eq_of_selects (interleaves.selects_addIntlvBits _).1 selects ?_
  exact interleaves.removeIntlvBits_eq_iff.mp
    (interleaves.removeIntlvBits_addIntlvBits (interleaves.removeIntlvBits_fits a))

/-! ### Order and extent -/

/-- The most significant difference of two addresses of the range is not at a removed position. -/
theorem removeIntlvBits_lt {b : Addr} (selects : range.selects a = true)
    (selects' : range.selects b = true) (less : a < b) :
    range.removeIntlvBits a < range.removeIntlvBits b := by
  obtain ⟨k, exceeds⟩ := exists_exceeds less
  have kept : k ∉ range.masksLsb := by
    intro removed
    obtain ⟨mask, member, rfl⟩ := mem_masksLsb.mp removed
    obtain ⟨i, found⟩ := List.mem_iff_getElem?.mp member
    have low := interleaves.low mask member
    have clear : ∀ k < ctz64 mask, mask.getLsbD k = false := (getLsbD_ctz64 (by omega)).2
    rw [selects_iff interleaves.few interleaves.interleaved] at selects selects'
    have parities := (selects mask i found).trans (selects' mask i found).symm
    -- below the least significant bit the mask is zero, above it the addresses agree
    have same : masked a mask = masked b mask := by
      refine BitVec.eq_of_getLsbD_eq fun k _ => ?_
      rw [getLsbD_masked low, getLsbD_masked low]
      rcases Nat.lt_trichotomy k (ctz64 mask) with below | rfl | above
      · simp [clear k below]
      · simp
      · rw [exceeds.above k above]
    rw [parity_and low, parity_and low, same, exceeds.clear, exceeds.set] at parities
    simp at parities
  obtain ⟨j, exceeds⟩ := exceeds.dropBits interleaves.masksLsb_sorted (fun _ _ => Nat.zero_le _)
    (by simpa using kept)
  rw [← interleaves.getLsbD_removeIntlvBits, ← interleaves.getLsbD_removeIntlvBits] at exceeds
  exact exceeds.toNat_lt

/-- The granule of the interleaving: the ends are multiples of it, and the removed positions lie
below it. -/
theorem exists_granule : ∃ bound, (∀ p ∈ range.masksLsb, p < bound) ∧
    2 ^ bound ∣ range.start.toNat ∧ 2 ^ bound ∣ range.end_.toNat := by
  obtain ⟨mask, member, largest⟩ := range.masks.toFinset.exists_max_image ctz64
    ((List.toFinset_nonempty_iff _).mpr interleaves.interleaved)
  have member := List.mem_toFinset.mp member
  refine ⟨ctz64 mask + 1, fun p listed => ?_, interleaves.start mask member,
    interleaves.end_ mask member⟩
  obtain ⟨other, owned, rfl⟩ := mem_masksLsb.mp listed
  exact Nat.lt_succ_of_le (largest other (List.mem_toFinset.mpr owned))

section Granule

variable {bound : Nat} (low : ∀ p ∈ range.masksLsb, p < bound)
include low

private theorem length_le_granule : range.masks.length ≤ bound := by
  have nodup : range.masksLsb.Nodup := interleaves.masksLsb_sorted.imp Nat.ne_of_lt
  have subset : range.masksLsb ⊆ List.range bound :=
    fun p listed => List.mem_range.mpr (low p listed)
  simpa [length_masksLsb] using (nodup.subperm subset).length_le

/-- Above the granule nothing is removed. -/
theorem removeIntlvBits_div (a : Addr) :
    (range.removeIntlvBits a).toNat / 2 ^ (bound - range.masks.length) = a.toNat / 2 ^ bound := by
  have short := interleaves.length_le_granule low
  refine Nat.eq_of_testBit_eq fun k => ?_
  rw [Nat.testBit_div_two_pow, Nat.testBit_div_two_pow, BitVec.testBit_toNat, BitVec.testBit_toNat,
    interleaves.getLsbD_removeIntlvBits_high low (by omega)]
  congr 1
  omega

/-- Of a multiple of the granule only zeros are removed. -/
theorem removeIntlvBits_of_dvd {a : Addr} (aligned : 2 ^ bound ∣ a.toNat) :
    (range.removeIntlvBits a).toNat = a.toNat / 2 ^ bound * 2 ^ (bound - range.masks.length) := by
  have short := interleaves.length_le_granule low
  have divides : (range.removeIntlvBits a).toNat % 2 ^ (bound - range.masks.length) = 0 := by
    refine Nat.eq_of_testBit_eq fun k => ?_
    rw [Nat.testBit_mod_two_pow, Nat.zero_testBit, BitVec.testBit_toNat,
      interleaves.getLsbD_removeIntlvBits]
    obtain ⟨j, near, same⟩ := exists_dropBits_index range.masksLsb 0 k
    rw [length_masksLsb] at near
    by_cases inside : k < bound - range.masks.length
    · have clear : a.getLsbD j = false := by
        obtain ⟨c, product⟩ := aligned
        rw [← BitVec.testBit_toNat, product, Nat.testBit_two_pow_mul]
        simp [show ¬bound ≤ j by omega]
      rw [same, clear, Bool.and_false]
    · simp [inside]
  rw [← interleaves.removeIntlvBits_div low, Nat.div_mul_cancel (Nat.dvd_of_mod_eq_zero divides)]

/-- The order with a multiple of the granule is that of the remaining bits. -/
theorem removeIntlvBits_le_iff {a b : Addr} (aligned : 2 ^ bound ∣ a.toNat) :
    range.removeIntlvBits a ≤ range.removeIntlvBits b ↔ a ≤ b := by
  rw [BitVec.le_def, BitVec.le_def, interleaves.removeIntlvBits_of_dvd low aligned,
    ← Nat.le_div_iff_mul_le (Nat.two_pow_pos _), interleaves.removeIntlvBits_div low,
    Nat.le_div_iff_mul_le (Nat.two_pow_pos _), Nat.div_mul_cancel aligned]

variable (start : 2 ^ bound ∣ range.start.toNat) (end_ : 2 ^ bound ∣ range.end_.toNat)

include start end_

/-- An address lies between the ends exactly when its remaining bits do. -/
theorem inRange_iff (a : Addr) : range.inRange a = true ↔
      range.removeIntlvBits range.start ≤ range.removeIntlvBits a ∧
        range.removeIntlvBits a < range.removeIntlvBits range.end_ := by
  rw [interleaves.removeIntlvBits_le_iff low start, ← BitVec.not_le,
    interleaves.removeIntlvBits_le_iff low end_, BitVec.not_le]
  simp [inRange]

/-- The size is the extent of the remaining bits. -/
theorem size_eq (valid : range.start ≤ range.end_) : range.size =
      range.removeIntlvBits range.end_ - range.removeIntlvBits range.start := by
  have short := interleaves.length_le_granule low
  have ordered : range.removeIntlvBits range.start ≤ range.removeIntlvBits range.end_ :=
    (interleaves.removeIntlvBits_le_iff low start).mpr valid
  have whole : 2 ^ bound = 2 ^ (bound - range.masks.length) * 2 ^ range.masks.length := by
    rw [← Nat.pow_add, Nat.sub_add_cancel short]
  refine BitVec.eq_of_toNat_eq ?_
  rw [size, BitVec.toNat_ushiftRight, BitVec.toNat_sub_of_le valid, BitVec.toNat_sub_of_le ordered,
    Nat.shiftRight_eq_div_pow, interleaves.removeIntlvBits_of_dvd low start,
    interleaves.removeIntlvBits_of_dvd low end_, ← Nat.sub_mul]
  obtain ⟨s, startEq⟩ := start
  obtain ⟨e, endEq⟩ := end_
  rw [startEq, endEq, Nat.mul_div_cancel_left _ (Nat.two_pow_pos _),
    Nat.mul_div_cancel_left _ (Nat.two_pow_pos _), ← Nat.mul_sub, whole, Nat.mul_right_comm,
    Nat.mul_div_cancel _ (Nat.two_pow_pos _), Nat.mul_comm]

end Granule

/-- The offset of an address of the range. -/
theorem getOffset_eq (inside : range.inRange a = true) :
    range.getOffset a = range.removeIntlvBits a - range.removeIntlvBits range.start := by
  rw [getOffset, if_pos inside, if_pos interleaves.isInterleaved]

/-- The offsets grow with the addresses. -/
theorem getOffset_strictMono {b : Addr} (contained : range.contains a = true)
    (contained' : range.contains b = true) (less : a < b) :
    range.getOffset a < range.getOffset b := by
  obtain ⟨bound, low, start, end_⟩ := interleaves.exists_granule
  simp only [contains, Bool.and_eq_true] at contained contained'
  have first := ((interleaves.inRange_iff low start end_ a).mp contained.1).1
  have second := ((interleaves.inRange_iff low start end_ b).mp contained'.1).1
  have grows := interleaves.removeIntlvBits_lt contained.2 contained'.2 less
  rw [interleaves.getOffset_eq contained.1, interleaves.getOffset_eq contained'.1, BitVec.lt_def,
    BitVec.toNat_sub_of_le first, BitVec.toNat_sub_of_le second]
  rw [BitVec.le_def] at first
  rw [BitVec.lt_def] at grows
  omega

/-- The offsets are the numbers below the size. -/
theorem getOffset_bijOn (valid : range.start ≤ range.end_) :
    Set.BijOn range.getOffset {a | range.contains a = true} {offset | offset < range.size} := by
  obtain ⟨bound, low, start, end_⟩ := interleaves.exists_granule
  have ordered : range.removeIntlvBits range.start ≤ range.removeIntlvBits range.end_ :=
    (interleaves.removeIntlvBits_le_iff low start).mpr valid
  have extent : range.size.toNat = (range.removeIntlvBits range.end_).toNat -
      (range.removeIntlvBits range.start).toNat := by
    rw [interleaves.size_eq low start end_ valid, BitVec.toNat_sub_of_le ordered]
  rw [BitVec.le_def] at ordered
  refine ⟨fun a contained => ?_, fun a contained b contained' same => ?_, fun offset small => ?_⟩
  · simp only [Set.mem_ofPred_eq, contains, Bool.and_eq_true] at contained
    obtain ⟨atLeast, below⟩ := (interleaves.inRange_iff low start end_ a).mp contained.1
    rw [Set.mem_ofPred_eq, interleaves.getOffset_eq contained.1, BitVec.lt_def,
      BitVec.toNat_sub_of_le atLeast, extent]
    rw [BitVec.le_def] at atLeast
    rw [BitVec.lt_def] at below
    omega
  · by_contra other
    rcases Nat.lt_or_gt_of_ne fun equal => other (BitVec.eq_of_toNat_eq equal) with less | greater
    · exact BitVec.ne_of_lt (interleaves.getOffset_strictMono contained contained' less) same
    · exact BitVec.ne_of_lt (interleaves.getOffset_strictMono contained' contained greater)
        same.symm
  · rw [Set.mem_ofPred_eq, BitVec.lt_def, extent] at small
    have sum : (range.removeIntlvBits range.start + offset).toNat =
        (range.removeIntlvBits range.start).toNat + offset.toNat := by
      rw [BitVec.toNat_add, Nat.mod_eq_of_lt]
      have := (range.removeIntlvBits range.end_).isLt
      omega
    have fits : (range.removeIntlvBits range.start + offset).toNat * 2 ^ range.masks.length <
        2 ^ 64 := by
      refine Nat.lt_of_le_of_lt (Nat.mul_le_mul_right _ ?_)
        (interleaves.removeIntlvBits_fits range.end_)
      omega
    have back := interleaves.removeIntlvBits_addIntlvBits fits
    have inside : range.inRange (range.addIntlvBits (range.removeIntlvBits range.start + offset)) =
        true := by
      rw [interleaves.inRange_iff low start end_, back, BitVec.le_def, BitVec.lt_def, sum]
      omega
    refine ⟨range.addIntlvBits (range.removeIntlvBits range.start + offset), ?_, ?_⟩
    · simp [contains, inside, (interleaves.selects_addIntlvBits _).1]
    · rw [interleaves.getOffset_eq inside, back, BitVec.add_comm, BitVec.add_sub_cancel]

/-- The selector of an address fits the masks. -/
theorem sel_lt (a : Addr) : (sel range.masks a).toNat < 2 ^ range.masks.length := by
  have few := interleaves.few
  refine Nat.lt_pow_two_of_testBit _ fun k high => ?_
  rw [BitVec.testBit_toNat, sel, getLsbD_foldl_sel (by omega), List.getElem?_eq_none (by omega)]
  simp

/-- Every address between the ends is in one of the ranges that merge with this one. -/
theorem existsUnique_sibling (inside : range.inRange a = true) :
    ∃! sibling : AddrRange, range.mergesWith sibling = true ∧ sibling.contains a = true := by
  have small := interleaves.sel_lt a
  have byte : 2 ^ range.masks.length ≤ 2 ^ 8 := Nat.pow_le_pow_right (by decide) interleaves.few
  have value : ((sel range.masks a).setWidth 8).toNat = (sel range.masks a).toNat := by
    rw [BitVec.toNat_setWidth, Nat.mod_eq_of_lt (by omega)]
  refine ⟨{ range with
    intlvMatch := (sel range.masks a).setWidth 8
    match_fits := fun _ => value ▸ small }, ⟨by simp [mergesWith], ?_⟩, ?_⟩
  · have back : ((sel range.masks a).setWidth 8).setWidth 32 = sel range.masks a := by
      refine BitVec.eq_of_toNat_eq ?_
      rw [BitVec.toNat_setWidth, value, Nat.mod_eq_of_lt (BitVec.isLt _)]
    simpa [contains, inRange, selects, back] using inside
  · rintro ⟨start, end_, masks, intlvMatch, fits⟩ ⟨merges, contained⟩
    simp only [mergesWith, Bool.and_eq_true, decide_eq_true_eq] at merges
    obtain ⟨⟨rfl, rfl⟩, rfl⟩ := merges
    simp only [contains, selects, Bool.and_eq_true, decide_eq_true_eq] at contained
    have same : intlvMatch = (sel range.masks a).setWidth 8 := by
      rw [contained.2, BitVec.setWidth_setWidth_of_le _ (by decide), BitVec.setWidth_eq]
    subst same
    rfl

end Interleaves

/-- An interleaved range translates its addresses one to one, in order, to the numbers below its
size; removing and adding the interleaving bits are inverse to each other; and the ranges that
merge share out the addresses between their ends. -/
theorem translates_bijectively (range : AddrRange) (interleaves : range.Interleaves)
    (valid : range.valid = true) :
    (∀ a b, range.contains a = true → range.contains b = true → a < b →
      range.getOffset a < range.getOffset b) ∧
    Set.BijOn range.getOffset {a | range.contains a = true} {offset | offset < range.size} ∧
    (∀ a, range.selects a = true → range.addIntlvBits (range.removeIntlvBits a) = a) ∧
    (∀ x : Addr, x.toNat * 2 ^ range.masks.length < 2 ^ 64 →
      range.removeIntlvBits (range.addIntlvBits x) = x) ∧
    (∀ a, range.inRange a = true →
      ∃! sibling : AddrRange, range.mergesWith sibling = true ∧ sibling.contains a = true) ∧
    ∀ sibling : AddrRange, range.mergesWith sibling = true →
      ∀ a, sibling.contains a = true → range.inRange a = true := by
  refine ⟨fun a b => interleaves.getOffset_strictMono,
    interleaves.getOffset_bijOn (by simpa [AddrRange.valid] using valid),
    fun a => interleaves.addIntlvBits_removeIntlvBits,
    fun x => interleaves.removeIntlvBits_addIntlvBits,
    fun a => interleaves.existsUnique_sibling, fun sibling merges a contained => ?_⟩
  simp only [mergesWith, Bool.and_eq_true, decide_eq_true_eq] at merges
  simp only [contains, inRange, Bool.and_eq_true] at contained ⊢
  rw [merges.1.1, merges.1.2] at contained
  exact contained.1

/-- Two of four stripes of 64 bytes, hashed with higher bits. -/
def hashed : AddrRange where
  start := 0x1000
  end_ := 0x3000
  masks := [0x8040, 0x10080]
  intlvMatch := 2
  match_fits _ := by decide

private theorem hashed_interleaves : hashed.Interleaves where
  interleaved := by decide
  few := by decide
  low := by rintro mask (_ | ⟨_, _ | ⟨_, ⟨⟩⟩⟩) <;> decide +kernel
  distinct := by decide +kernel
  own := by decide +kernel
  start := by rintro mask (_ | ⟨_, _ | ⟨_, ⟨⟩⟩⟩) <;> decide +kernel
  end_ := by rintro mask (_ | ⟨_, _ | ⟨_, ⟨⟩⟩⟩) <;> decide +kernel

/-- The hashed range has the hypotheses, and its offsets are exactly those below its size. -/
theorem translates_bijectively_hashed :
    Set.BijOn hashed.getOffset {a | hashed.contains a = true} {offset | offset < hashed.size} :=
  (translates_bijectively hashed hashed_interleaves (by decide)).2.1

/-- The ends are exchanged. -/
def exchanged : AddrRange where
  start := 2
  end_ := 0
  masks := [1]
  intlvMatch := 0
  match_fits _ := by decide

private theorem exchanged_interleaves : exchanged.Interleaves where
  interleaved := by decide
  few := by decide
  low := by rintro mask (_ | ⟨_, ⟨⟩⟩); decide +kernel
  distinct := by decide +kernel
  own := by decide +kernel
  start := by rintro mask (_ | ⟨_, ⟨⟩⟩); decide +kernel
  end_ := by rintro mask (_ | ⟨_, ⟨⟩⟩); decide +kernel

/-- A range whose ends are exchanged contains no address, but its size is not zero. -/
theorem exchanged_not_bijective :
    exchanged.Interleaves ∧ exchanged.valid = false ∧ (∀ a, exchanged.contains a = false) ∧
      (0 : Addr) < exchanged.size ∧
      ¬Set.BijOn exchanged.getOffset {a | exchanged.contains a = true}
        {offset | offset < exchanged.size} := by
  have empty : ∀ a, exchanged.contains a = false := fun a => by
    simp [contains, inRange, exchanged]
  have positive : (0 : Addr) < exchanged.size := by decide +kernel
  refine ⟨exchanged_interleaves, by decide, empty, positive, fun bijective => ?_⟩
  obtain ⟨a, contained, -⟩ := bijective.surjOn (show (0 : Addr) ∈ _ from positive)
  exact absurd contained (by simp [empty])

end AddrRange

end Gem5
