import Mathlib.Data.BitVec

/-!
# Byte-addressed memory

A memory gives every address of `w` bits a byte.  A region is given by its first
address and its length; an address belongs to it when its distance from the first
address is below the length, so that a region may wrap around the end of the
address space.  Multi-byte words are stored with the little end first.
-/

namespace Foundation

/-- A byte for each address of `w` bits. -/
abbrev ByteMemory (w : Nat) := BitVec w → UInt8

namespace ByteMemory

variable {w : Nat}

/-! ## Regions -/

/-- The address is one of the `length` addresses from `base` on. -/
def InRegion (base : BitVec w) (length : Nat) (addr : BitVec w) : Prop :=
  (addr - base).toNat < length

instance {base : BitVec w} {length : Nat} : DecidablePred (InRegion base length) :=
  fun _ => inferInstanceAs (Decidable (_ < _))

/-- No address belongs to both regions. -/
def Apart (base : BitVec w) (length : Nat) (other : BitVec w) (otherLength : Nat) : Prop :=
  ∀ addr, InRegion base length addr → ¬ InRegion other otherLength addr

/-- Being apart is symmetric. -/
theorem Apart.symm {base other : BitVec w} {length otherLength : Nat}
    (apart : Apart base length other otherLength) : Apart other otherLength base length :=
  fun addr inside outside => apart addr outside inside

/-- Shorter regions stay apart. -/
theorem Apart.mono {base other : BitVec w} {length otherLength shorter otherShorter : Nat}
    (apart : Apart base length other otherLength) (le : shorter ≤ length)
    (otherLe : otherShorter ≤ otherLength) : Apart base shorter other otherShorter :=
  fun addr inside outside =>
    apart addr (Nat.lt_of_lt_of_le inside le) (Nat.lt_of_lt_of_le outside otherLe)

/-- The distance of an offset address is its offset. -/
theorem toNat_add_sub (base : BitVec w) {i : Nat} (bound : i < 2 ^ w) :
    (base + BitVec.ofNat w i - base).toNat = i := by
  rw [BitVec.add_comm, BitVec.add_sub_cancel, BitVec.toNat_ofNat, Nat.mod_eq_of_lt bound]

/-- Offsets below the length are in the region. -/
theorem inRegion_add (base : BitVec w) {length i : Nat} (fits : length ≤ 2 ^ w)
    (inside : i < length) : InRegion base length (base + BitVec.ofNat w i) := by
  unfold InRegion
  rwa [toNat_add_sub base (by omega)]

/-- An address is its distance from the base. -/
theorem add_distance (base addr : BitVec w) : base + BitVec.ofNat w (addr - base).toNat = addr := by
  rw [BitVec.ofNat_toNat, BitVec.setWidth_eq, BitVec.add_comm, BitVec.sub_add_cancel]

/-- The distance from an inner address of a region. -/
theorem toNat_sub_add (base addr : BitVec w) {skip : Nat} (bound : skip < 2 ^ w) :
    (addr - (base + BitVec.ofNat w skip)).toNat =
      if skip ≤ (addr - base).toNat then (addr - base).toNat - skip
      else (addr - base).toNat + 2 ^ w - skip := by
  have below := (addr - base).isLt
  rw [← BitVec.sub_sub, BitVec.toNat_sub, BitVec.toNat_ofNat, Nat.mod_eq_of_lt bound]
  split
  · next le =>
    rw [show 2 ^ w - skip + (addr - base).toNat = (addr - base).toNat - skip + 2 ^ w by omega,
      Nat.add_mod_right, Nat.mod_eq_of_lt (by omega)]
  · rw [Nat.mod_eq_of_lt (by omega)]
    omega

/-- An inner region is the addresses at a range of distances. -/
theorem inRegion_add_iff {base addr : BitVec w} {skip length : Nat} (fits : skip + length ≤ 2 ^ w)
    (positive : 0 < length) : InRegion (base + BitVec.ofNat w skip) length addr ↔
      skip ≤ (addr - base).toNat ∧ (addr - base).toNat < skip + length := by
  unfold InRegion
  rw [toNat_sub_add base addr (by omega)]
  split <;> omega

/-! ## Reads and writes -/

/-- The bytes from `base` on. -/
def read (mem : ByteMemory w) (base : BitVec w) (i : Nat) : UInt8 :=
  mem (base + BitVec.ofNat w i)

/-- The memory with a region overwritten. -/
def write (mem : ByteMemory w) (base : BitVec w) (length : Nat) (bytes : Nat → UInt8) :
    ByteMemory w :=
  fun addr => if InRegion base length addr then bytes (addr - base).toNat else mem addr

/-- The region holds the given bytes. -/
def Holds (mem : ByteMemory w) (base : BitVec w) (length : Nat) (bytes : Nat → UInt8) : Prop :=
  ∀ i < length, mem.read base i = bytes i

variable {mem : ByteMemory w} {base other : BitVec w} {length otherLength : Nat}
  {bytes otherBytes : Nat → UInt8}

/-- A write gives its bytes to its region. -/
theorem write_inside {addr : BitVec w} (inside : InRegion base length addr) :
    mem.write base length bytes addr = bytes (addr - base).toNat :=
  if_pos inside

/-- A write leaves every other byte. -/
theorem write_outside {addr : BitVec w} (outside : ¬ InRegion base length addr) :
    mem.write base length bytes addr = mem addr :=
  if_neg outside

/-- Only the overwritten bytes matter. -/
theorem write_congr (same : ∀ i < length, bytes i = otherBytes i) :
    mem.write base length bytes = mem.write base length otherBytes := by
  funext addr
  by_cases inside : InRegion base length addr
  · rw [write_inside inside, write_inside inside, same _ inside]
  · rw [write_outside inside, write_outside inside]

/-- A write elsewhere does not change what is read. -/
theorem read_write_apart (fits : length ≤ 2 ^ w) (apart : Apart base length other otherLength)
    {i : Nat} (inside : i < length) :
    (mem.write other otherLength otherBytes).read base i = mem.read base i :=
  write_outside (apart _ (inRegion_add base fits inside))

/-- A write elsewhere keeps the bytes a region holds. -/
theorem Holds.write_apart (fits : length ≤ 2 ^ w) (holds : mem.Holds base length bytes)
    (apart : Apart base length other otherLength) :
    (mem.write other otherLength otherBytes).Holds base length bytes :=
  fun i inside => (read_write_apart fits apart inside).trans (holds i inside)

/-- A written region holds the bytes written. -/
theorem holds_write (fits : length ≤ 2 ^ w) :
    (mem.write base length bytes).Holds base length bytes := by
  intro i inside
  rw [read, write_inside (inRegion_add base fits inside), toNat_add_sub base (by omega)]

/-- A region written in two parts. -/
theorem write_append {first second : Nat} (fits : first + second ≤ 2 ^ w) (positive : 0 < second) :
    (mem.write base first bytes).write (base + BitVec.ofNat w first) second
        (fun i => bytes (first + i)) =
      mem.write base (first + second) bytes := by
  funext addr
  have part := @inRegion_add_iff _ base addr first second fits positive
  by_cases inSecond : InRegion (base + BitVec.ofNat w first) second addr
  · have range := part.mp inSecond
    rw [write_inside inSecond, write_inside range.2, toNat_sub_add base addr (by omega),
      if_pos range.1]
    congr 1
    omega
  · rw [write_outside inSecond]
    have range := mt part.mpr inSecond
    by_cases inFirst : InRegion base first addr
    · rw [write_inside inFirst, write_inside (Nat.lt_add_right second inFirst)]
    · rw [write_outside inFirst, write_outside]
      unfold InRegion at inFirst ⊢
      omega

/-! ## Words -/

/-- The `k`-th byte of a word. -/
def byteOf {m : Nat} (value : BitVec m) (k : Nat) : UInt8 :=
  UInt8.ofBitVec (value.extractLsb' (8 * k) 8)

/-- The word of the given bytes. -/
def ofBytes (bytes : Nat → UInt8) : (n : Nat) → BitVec (8 * n)
  | 0 => 0#0
  | n + 1 => ofBytes (fun i => bytes (i + 1)) n ++ (bytes 0).toBitVec

/-- The bits of a value put together from bytes. -/
theorem getLsbD_ofBytes (bytes : Nat → UInt8) (n i : Nat) : (ofBytes bytes n).getLsbD i =
      (decide (i < 8 * n) && (bytes (i / 8)).toBitVec.getLsbD (i % 8)) := by
  induction n generalizing bytes i with
  | zero => simp [ofBytes]
  | succ n ih =>
    simp only [ofBytes]
    rw [BitVec.getLsbD_append]
    split
    · next low => simp [Nat.div_eq_of_lt low, Nat.mod_eq_of_lt low, show i < 8 * (n + 1) by omega]
    · next high =>
      have shift : i - 8 < 8 * n ↔ i < 8 * (n + 1) := by omega
      have quotient : (i - 8) / 8 + 1 = i / 8 := by omega
      have remainder : (i - 8) % 8 = i % 8 := by omega
      rw [ih, quotient, remainder, decide_eq_decide.mpr shift]

/-- A word is made of its bytes. -/
theorem ofBytes_byteOf {n : Nat} (value : BitVec (8 * n)) : ofBytes (byteOf value) n = value := by
  apply BitVec.eq_of_getLsbD_eq
  intro i bound
  have split : 8 * (i / 8) + i % 8 = i := by omega
  have bit : i % 8 < 8 := by omega
  rw [getLsbD_ofBytes, byteOf, UInt8.toBitVec_ofBitVec, BitVec.getLsbD_extractLsb', split]
  simp [bound, bit]

/-- The bytes of a value make it up again. -/
theorem ofBytes_eq {n : Nat} {value : BitVec (8 * n)} {bytes : Nat → UInt8}
    (same : ∀ i < n, bytes i = byteOf value i) : ofBytes bytes n = value := by
  rw [← ofBytes_byteOf value]
  apply BitVec.eq_of_getLsbD_eq
  intro i bound
  rw [getLsbD_ofBytes, getLsbD_ofBytes, same (i / 8) (by omega)]

/-- The bytes of a word are those it was made of. -/
theorem byteOf_ofBytes (bytes : Nat → UInt8) {n k : Nat} (bound : k < n) :
    byteOf (ofBytes bytes n) k = bytes k := by
  rw [← UInt8.toBitVec_inj]
  apply BitVec.eq_of_getLsbD_eq
  intro i low
  have quotient : (8 * k + i) / 8 = k := by omega
  have remainder : (8 * k + i) % 8 = i := by omega
  have inside : 8 * k + i < 8 * n := by omega
  rw [byteOf, UInt8.toBitVec_ofBitVec, BitVec.getLsbD_extractLsb', getLsbD_ofBytes, quotient,
    remainder]
  simp [low, inside]

/-- The word of `n` bytes at an address. -/
def load (mem : ByteMemory w) (addr : BitVec w) (n : Nat) : BitVec (8 * n) :=
  ofBytes (mem.read addr) n

/-- The memory with a word of `n` bytes stored at an address. -/
def store {n : Nat} (mem : ByteMemory w) (addr : BitVec w) (value : BitVec (8 * n)) :
    ByteMemory w :=
  mem.write addr n (byteOf value)

/-- A region that holds the bytes of a word is read as that word. -/
theorem load_of_holds {n : Nat} {addr : BitVec w} {value : BitVec (8 * n)}
    (holds : mem.Holds addr n (byteOf value)) : mem.load addr n = value :=
  ofBytes_eq holds

/-- Copying a word copies its bytes. -/
theorem store_load (mem : ByteMemory w) (target source : BitVec w) (n : Nat) :
    mem.store target (mem.load source n) = mem.write target n (mem.read source) :=
  write_congr fun _ inside => byteOf_ofBytes _ inside

/-- Copy `count` words of `n` bytes, one after the other. -/
def copyWords (mem : ByteMemory w) (target source : BitVec w) (n count : Nat) : ByteMemory w :=
  (List.range count).foldl (fun mem k =>
    mem.store (target + BitVec.ofNat w (n * k)) (mem.load (source + BitVec.ofNat w (n * k)) n)) mem

private theorem read_add (mem : ByteMemory w) (base : BitVec w) (skip i : Nat) :
    mem.read (base + BitVec.ofNat w skip) i = mem.read base (skip + i) := by
  rw [read, read, BitVec.add_assoc, ← BitVec.ofNat_add]

/-- Copying between regions that are apart copies the whole region. -/
theorem copyWords_eq_write {target source : BitVec w} {n count : Nat} (positive : 0 < n)
    (fits : n * count ≤ 2 ^ w) (apart : Apart source (n * count) target (n * count)) :
    mem.copyWords target source n count = mem.write target (n * count) (mem.read source) := by
  induction count with
  | zero =>
    funext addr
    simp [copyWords, write, InRegion]
  | succ count ih =>
    have total : n * (count + 1) = n * count + n := Nat.mul_succ n count
    have prior := ih (by omega) (apart.mono (by omega) (by omega))
    unfold copyWords at prior ⊢
    rw [List.range_succ, List.foldl_append, prior, List.foldl_cons, List.foldl_nil, store_load,
      total, ← write_append (by omega) positive]
    -- The words copied before do not change the source.
    refine write_congr fun i inside => ?_
    rw [read_add, read_write_apart fits (apart.mono le_rfl (by omega)) (by omega)]

end ByteMemory

end Foundation
