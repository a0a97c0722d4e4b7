import Gem5.Base.Bitfield
import Gem5.Foundation.FailStop

/-!
# Dictionary compressors, and those of base and delta

`mem/cache/compressors/dictionary_compressor_impl.hh` and `base_delta_impl.hh`.  A dictionary
compressor turns the chunks of a line into patterns, one after the other, and adds to its
dictionary as it goes.  For base and delta the dictionary is the bases: zero, and every word that
is no delta away from a base before it.
-/

namespace Gem5.Compression

open Foundation

/-- `DictionaryCompressor::CompData`. -/
structure CompData (Pattern : Type) where
  entries : List Pattern
  sizeBits : Nat

/-- `DictionaryCompressor` of `w`-bit entries, by what its subclasses define.  The dictionary is
the list of its valid entries. -/
structure DictionaryCompressor (w : Nat) (Pattern : Type) where
  getPattern (bytes dict_bytes : BitVec w) (match_location : Int) : Pattern
  getSizeBits : Pattern → Nat
  shouldAllocate : Pattern → Bool
  resetDictionary : Checked (List (BitVec w))
  addToDictionary (dictionary : List (BitVec w)) (data : BitVec w) : Checked (List (BitVec w))

namespace DictionaryCompressor

variable {w : Nat} {Pattern : Type} (compressor : DictionaryCompressor w Pattern)

/-- The search of `compressValue`, from the entry of index `i` on. -/
def search (bytes : BitVec w) : Nat → List (BitVec w) → Pattern → Pattern
  | _, [], pattern => pattern
  | i, entry :: dictionary, pattern =>
    let temp_pattern := compressor.getPattern bytes entry i
    search bytes (i + 1) dictionary
      (if compressor.getSizeBits temp_pattern < compressor.getSizeBits pattern then temp_pattern
       else pattern)

/-- `compressValue`. -/
def compressValue (dictionary : List (BitVec w)) (data : BitVec w) :
    Checked (Pattern × List (BitVec w)) := do
  let pattern := compressor.search data 0 dictionary (compressor.getPattern data 0 (-1))
  let dictionary ← if compressor.shouldAllocate pattern then
    compressor.addToDictionary dictionary data else pure dictionary
  return (pattern, dictionary)

/-- `addEntry`. -/
def addEntry (comp_data : CompData Pattern) (pattern : Pattern) : CompData Pattern :=
  ⟨comp_data.entries ++ [pattern], comp_data.sizeBits + compressor.getSizeBits pattern⟩

/-- The loop of `compress`.  A chunk is cut to the type of an entry. -/
def compressChunks (comp_data : CompData Pattern) (dictionary : List (BitVec w)) :
    List (BitVec 64) → Checked (CompData Pattern × List (BitVec w))
  | [] => return (comp_data, dictionary)
  | value :: chunks => do
    let (pattern, dictionary) ← compressor.compressValue dictionary (value.setWidth w)
    compressChunks (compressor.addEntry comp_data pattern) dictionary chunks

/-- `compress`, with the dictionary it leaves. -/
def compress (chunks : List (BitVec 64)) : Checked (CompData Pattern × List (BitVec w)) := do
  compressor.compressChunks ⟨[], 0⟩ (← compressor.resetDictionary) chunks

end DictionaryCompressor

/-- The types of a base. -/
inductive BaseType where
  | uint16_t
  | uint32_t
  | uint64_t

/-- `sizeof`. -/
def BaseType.sizeof : BaseType → Nat
  | .uint16_t => 2
  | .uint32_t => 4
  | .uint64_t => 8

/-- `BaseDelta`.  A delta is narrower than a base, and a block is not empty. -/
structure BaseDelta where
  baseType : BaseType
  deltaSizeBits : Nat
  narrow : deltaSizeBits < 8 * baseType.sizeof
  blkSize : Nat
  positive : 0 < blkSize

namespace BaseDelta

/-- `DEFAULT_MAX_NUM_BASES`. -/
def DEFAULT_MAX_NUM_BASES : Nat := 2

/-- `PatternNumber`. -/
inductive PatternNumber where
  | X
  | M
  deriving DecidableEq

/-- `Pattern`, by its number and the location of the match. -/
structure Pattern where
  number : PatternNumber
  matchLocation : Int

variable (c : BaseDelta)

/-- The bits of a base. -/
abbrev bits : Nat := 8 * c.baseType.sizeof

/-- `dictionary_size`: the size of a cache line, as `block_size`. -/
def dictionarySize : Nat := c.blkSize

/-- `DeltaPattern::isValidDelta`. -/
def isValidDelta {w : Nat} (bytes base_bytes : BitVec w) : Bool :=
  let limit : Int :=
    if c.deltaSizeBits ≠ 0 then (mask (.ofNat 32 (c.deltaSizeBits - 1))).toNat else 0
  let delta := (bytes - base_bytes).toInt
  delta ≥ -limit && delta ≤ limit

/-- `getPattern`, by the factory of the two patterns. -/
def getPattern (bytes dict_bytes : BitVec c.bits) (match_location : Int) : Pattern :=
  if match_location ≥ 0 && c.isValidDelta bytes dict_bytes then ⟨.M, match_location⟩
  else ⟨.X, match_location⟩

/-- `getSizeBits`: the bits that were not matched and the length. -/
def getSizeBits (pattern : Pattern) : Nat :=
  match pattern.number with
  | .X => c.bits + (DEFAULT_MAX_NUM_BASES.log2 + c.deltaSizeBits)
  | .M => c.deltaSizeBits + DEFAULT_MAX_NUM_BASES.log2

/-- `addToDictionary`. -/
def addToDictionary (dictionary : List (BitVec c.bits)) (data : BitVec c.bits) :
    Checked (List (BitVec c.bits)) := do
  assertThat (dictionary.length < c.dictionarySize) "numEntries < dictionarySize"
  return dictionary ++ [data]

/-- The compressor as a dictionary compressor, whose dictionary starts with the zero base. -/
def toDictionaryCompressor : DictionaryCompressor c.bits Pattern where
  getPattern := c.getPattern
  getSizeBits := c.getSizeBits
  shouldAllocate pattern := pattern.number = .X
  resetDictionary := c.addToDictionary [] 0
  addToDictionary := c.addToDictionary

/-- The bases that are left, fewer than none if there are too many. -/
def diff (dictionary : List (BitVec c.bits)) : Int := DEFAULT_MAX_NUM_BASES - dictionary.length

/-- The size of the result: a whole block if there are too many bases, and otherwise as if all were
used. -/
def correctSize (comp_data : CompData Pattern) (diff : Int) : CompData Pattern :=
  if diff < 0 then { comp_data with sizeBits := c.blkSize * 8 }
  else if diff > 0 then
    { comp_data with sizeBits := comp_data.sizeBits + c.bits * diff.toNat }
  else comp_data

/-- `compress`, with the dictionary it leaves. -/
def compress (chunks : List (BitVec 64)) :
    Checked (CompData Pattern × List (BitVec c.bits)) := do
  let (comp_data, dictionary) ← c.toDictionaryCompressor.compress chunks
  return (c.correctSize comp_data (c.diff dictionary), dictionary)

/-! ## What is compressible -/

/-- A word is a delta away from a base: their difference, wrapped and signed, is at most
`2 ^ (D - 1) - 1` in absolute value. -/
def Near {w : Nat} (value base : BitVec w) : Prop :=
  (value - base).toInt.natAbs ≤ 2 ^ (c.deltaSizeBits - 1) - 1

instance decidableNear {w : Nat} {value base : BitVec w} : Decidable (c.Near value base) :=
  inferInstanceAs (Decidable (_ ≤ _))

variable {c} {w : Nat} {value base : BitVec w} {dictionary : List (BitVec c.bits)}

private theorem isValidDelta_iff : c.isValidDelta value base ↔ c.Near value base := by
  have wide : c.deltaSizeBits < 8 * 8 :=
    Nat.lt_of_lt_of_le c.narrow (Nat.mul_le_mul_left 8 (by cases c.baseType <;> decide))
  have index : (BitVec.ofNat 32 (c.deltaSizeBits - 1)).toNat = c.deltaSizeBits - 1 := by
    rw [BitVec.toNat_ofNat]
    omega
  have limit : (mask (.ofNat 32 (c.deltaSizeBits - 1))).toNat = 2 ^ (c.deltaSizeBits - 1) - 1 := by
    rw [toNat_mask (by omega), index]
  simp only [isValidDelta, Near, limit, ge_iff_le, Bool.and_eq_true, decide_eq_true_eq]
  split
  · omega
  · rw [show c.deltaSizeBits = 0 by omega]
    omega

/-- A word is its own base. -/
theorem near_self : c.Near value value := by
  simp [Near]

/-- A match is shorter than no match. -/
theorem getSizeBits_lt {shorter longer : Pattern} :
    c.getSizeBits shorter < c.getSizeBits longer ↔ shorter.number = .M ∧ longer.number = .X := by
  have positive : 0 < c.bits := Nat.zero_lt_of_lt c.narrow
  cases first : shorter.number <;> cases second : longer.number <;>
    simp only [getSizeBits, first, second] <;> simp <;> omega

private theorem number_getPattern {bytes dict_bytes : BitVec c.bits} {match_location : Int} :
    (c.getPattern bytes dict_bytes match_location).number =
      if 0 ≤ match_location ∧ c.Near bytes dict_bytes then .M else .X := by
  simp only [getPattern, ← isValidDelta_iff, Bool.and_eq_true, decide_eq_true_eq, ge_iff_le]
  split <;> rfl

/-- The search finds a match exactly if there is one. -/
theorem number_search {bytes : BitVec c.bits} {i : Nat} {pattern : Pattern} :
    (c.toDictionaryCompressor.search bytes i dictionary pattern).number =
      if pattern.number = .M ∨ ∃ base ∈ dictionary, c.Near bytes base then .M else .X := by
  induction dictionary generalizing i pattern with
  | nil => cases number : pattern.number <;> simp [DictionaryCompressor.search, number]
  | cons entry dictionary ih =>
    rw [DictionaryCompressor.search, ih]
    simp only [toDictionaryCompressor, getSizeBits_lt]
    by_cases near : c.Near bytes entry <;> cases number : pattern.number <;>
      simp [near, number, number_getPattern]

/-- The bases after a word. -/
def grow (dictionary : List (BitVec c.bits)) (data : BitVec c.bits) : List (BitVec c.bits) :=
  if ∃ base ∈ dictionary, c.Near data base then dictionary else dictionary ++ [data]

private theorem length_grow {data : BitVec c.bits} :
    (grow dictionary data).length ≤ dictionary.length + 1 := by
  unfold grow
  split <;> simp

/-- One word takes the bits of a delta, and those of a base if it becomes one. -/
theorem compressValue_ok {data : BitVec c.bits} (room : dictionary.length < c.dictionarySize) :
    ∃ pattern, c.toDictionaryCompressor.compressValue dictionary data =
        .ok (pattern, grow dictionary data) ∧
      c.getSizeBits pattern + c.bits * dictionary.length =
        1 + c.deltaSizeBits + c.bits * (grow dictionary data).length := by
  have number : (c.toDictionaryCompressor.search data 0 dictionary
      (c.toDictionaryCompressor.getPattern data 0 (-1))).number =
        if ∃ base ∈ dictionary, c.Near data base then .M else .X := by
    rw [number_search, show (c.toDictionaryCompressor.getPattern data 0 (-1)).number = .X from
      number_getPattern]
    simp
  rw [DictionaryCompressor.compressValue]
  generalize c.toDictionaryCompressor.search data 0 dictionary
    (c.toDictionaryCompressor.getPattern data 0 (-1)) = pattern at number ⊢
  refine ⟨pattern, ?_⟩
  have bits : DEFAULT_MAX_NUM_BASES.log2 = 1 := by decide
  by_cases near : ∃ base ∈ dictionary, c.Near data base
  · rw [if_pos near] at number
    simp only [toDictionaryCompressor, number, grow, if_pos near, getSizeBits, bits]
    exact ⟨rfl, by omega⟩
  · rw [if_neg near] at number
    simp only [toDictionaryCompressor, number, grow, if_neg near, getSizeBits, bits,
      addToDictionary, assertThat_of room, List.length_append, List.length_singleton, Nat.mul_add]
    exact ⟨rfl, by omega⟩

variable {comp_data : CompData Pattern} {chunks : List (BitVec 64)}
  {words : List (BitVec c.bits)}

/-- A line takes the bits of its deltas and of the bases it adds. -/
theorem compressChunks_ok (room : dictionary.length + chunks.length ≤ c.dictionarySize) :
    ∃ result, c.toDictionaryCompressor.compressChunks comp_data dictionary chunks =
        .ok (result, (chunks.map (·.setWidth c.bits)).foldl grow dictionary) ∧
      result.sizeBits + c.bits * dictionary.length = comp_data.sizeBits +
        chunks.length * (1 + c.deltaSizeBits) +
        c.bits * ((chunks.map (·.setWidth c.bits)).foldl grow dictionary).length := by
  induction chunks generalizing comp_data dictionary with
  | nil => exact ⟨comp_data, rfl, by simp⟩
  | cons value chunks ih =>
    rw [List.length_cons] at room
    obtain ⟨pattern, compressed, size⟩ :=
      @compressValue_ok c dictionary (value.setWidth c.bits) (by omega)
    have grown : (grow dictionary (value.setWidth c.bits)).length ≤ dictionary.length + 1 :=
      length_grow
    obtain ⟨result, ran, total⟩ :=
      @ih (grow dictionary (value.setWidth c.bits))
        (c.toDictionaryCompressor.addEntry comp_data pattern) (by omega)
    refine ⟨result, ?_, ?_⟩
    · rw [DictionaryCompressor.compressChunks, compressed, ok_bind]
      exact ran
    · simp only [DictionaryCompressor.addEntry, toDictionaryCompressor] at total
      simp only [List.length_cons, Nat.add_mul, List.map_cons, List.foldl_cons]
      omega

private theorem length_le_foldl_grow :
    dictionary.length ≤ (words.foldl grow dictionary).length := by
  induction words generalizing dictionary with
  | nil => exact le_rfl
  | cons word words ih =>
    refine le_trans ?_ ih
    unfold grow
    split <;> simp

/-- No base is added exactly if all words are near the bases there are. -/
theorem length_foldl_grow : (words.foldl grow dictionary).length ≤ dictionary.length ↔
    ∀ word ∈ words, ∃ base ∈ dictionary, c.Near word base := by
  induction words generalizing dictionary with
  | nil => simp
  | cons word words ih =>
    rw [List.foldl_cons, List.forall_mem_cons]
    by_cases near : ∃ base ∈ dictionary, c.Near word base
    · rw [grow, if_pos near, ih, and_iff_right near]
    · have longer := @length_le_foldl_grow c (dictionary ++ [word]) words
      rw [List.length_append, List.length_singleton] at longer
      rw [grow, if_neg near]
      exact iff_of_false (by omega) fun all => near all.1

/-- Zero and the first word that is not near it are the only bases exactly if they reach all
words. -/
theorem two_bases : (words.foldl grow [0#_]).length ≤ 2 ↔ ∀ word ∈ words, c.Near word 0#_ ∨
    ∃ base ∈ words.find? (¬ c.Near · 0#_), c.Near word base := by
  induction words with
  | nil => simp
  | cons word words ih =>
    rw [List.foldl_cons]
    by_cases near : c.Near word 0#_
    · have kept : grow [0#_] word = [0#_] := by simp [grow, near]
      rw [kept, ih]
      simp [near]
    · have added : grow [0#_] word = [0#_, word] := by simp [grow, near]
      rw [added]
      refine (@length_foldl_grow c [0#_, word] words).trans ?_
      simp [near, near_self]

/-- The correction adds the base that is not used, if there is one. -/
theorem sizeBits_correctSize {deltas : Nat} (started : 1 ≤ dictionary.length)
    (size : comp_data.sizeBits + c.bits = deltas + c.bits * dictionary.length) :
    (c.correctSize comp_data (c.diff dictionary)).sizeBits =
      if 0 ≤ c.diff dictionary then c.bits + deltas else c.blkSize * 8 := by
  rw [correctSize, diff, DEFAULT_MAX_NUM_BASES]
  obtain one | two | many : dictionary.length = 1 ∨ dictionary.length = 2 ∨
    2 < dictionary.length := by
    omega
  · rw [one] at size ⊢
    simp
    omega
  · rw [two] at size ⊢
    simp
    omega
  · rw [if_pos (by omega), if_neg (by omega)]

/-- A line compresses exactly if every word is near zero or near the first word that is not; it then
takes the bits of one base and a delta a word, and a whole block otherwise. -/
theorem compress_exact (whole : chunks.length * c.baseType.sizeof = c.blkSize) :
    ∃ comp_data dictionary, c.compress chunks = .ok (comp_data, dictionary) ∧
      (0 ≤ c.diff dictionary ↔ ∀ word ∈ chunks.map (·.setWidth c.bits), c.Near word 0#_ ∨
        ∃ base ∈ (chunks.map (·.setWidth c.bits)).find? (¬ c.Near · 0#_), c.Near word base) ∧
      comp_data.sizeBits = if 0 ≤ c.diff dictionary then
        8 * c.baseType.sizeof + chunks.length * (1 + c.deltaSizeBits) else c.blkSize * 8 := by
  have positive := c.positive
  have room : chunks.length + 1 ≤ c.blkSize := by
    have doubled := Nat.mul_le_mul_left chunks.length
      (show 2 ≤ c.baseType.sizeof by cases c.baseType <;> decide)
    omega
  have reset : c.toDictionaryCompressor.resetDictionary = .ok [0#_] := by
    simp [toDictionaryCompressor, addToDictionary, dictionarySize, positive]
  obtain ⟨result, ran, total⟩ := @compressChunks_ok c [0#_] ⟨[], 0⟩ chunks (by
    rw [List.length_singleton, dictionarySize]
    omega)
  have started := @length_le_foldl_grow c [0#_] (chunks.map (·.setWidth c.bits))
  rw [List.length_singleton] at total started
  refine ⟨_, _, ?_, ?_, sizeBits_correctSize started (by simpa using total)⟩
  · rw [compress, DictionaryCompressor.compress, reset, ok_bind, ran]
    rfl
  · rw [← two_bases, diff, DEFAULT_MAX_NUM_BASES]
    omega

/-- `Base32Delta8`, for blocks of four words. -/
def Base32Delta8 : BaseDelta := ⟨.uint32_t, 8, by decide, 16, by decide⟩

/-- Words around a base far from zero, and a small one, take a base of 32 bits and four deltas. -/
theorem compress_exact_mixed : ∃ comp_data dictionary,
    Base32Delta8.compress [0x1000, 3, 0x1010, 0xFF0] = .ok (comp_data, dictionary) ∧
      0 ≤ Base32Delta8.diff dictionary ∧ comp_data.sizeBits = 68 := by
  obtain ⟨comp_data, dictionary, ran, fits, size⟩ :=
    @compress_exact Base32Delta8 [0x1000, 3, 0x1010, 0xFF0] rfl
  have near : 0 ≤ Base32Delta8.diff dictionary := by
    refine fits.mpr fun word listed => ?_
    simp only [List.map_cons, List.map_nil, List.mem_cons, List.not_mem_nil, or_false] at listed
    rcases listed with rfl | rfl | rfl | rfl
    · exact .inr ⟨0x1000, rfl, by decide⟩
    · exact .inl (by decide)
    · exact .inr ⟨0x1000, rfl, by decide⟩
    · exact .inr ⟨0x1000, rfl, by decide⟩
  exact ⟨comp_data, dictionary, ran, near, size.trans (if_pos near)⟩

end BaseDelta

end Gem5.Compression
