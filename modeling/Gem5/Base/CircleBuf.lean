import Gem5.Foundation.FailStop
import Gem5.Foundation.Transition
import Mathlib.Algebra.Group.Nat.Defs

/-!
# Circular buffers

`CircleBuf` keeps the newest elements that were written.  Its start only grows, as a
`size_t`; positions are taken modulo the size when the buffer is accessed.  A copy that
reaches the end of the buffer goes on at its beginning.
-/

namespace Gem5

open Foundation

/-- The elements by position; positions from `maxSize` on are not used. -/
structure CircleBuf (α : Type) where
  buffer : Nat → α
  start : Nat := 0
  used : Nat := 0
  maxSize : Nat

/-- The calls of a buffer. -/
inductive CircleCall (α : Type) where
  | write (data : List α)
  | peek (offset len : Nat)
  | read (len : Nat)
  | flush

namespace CircleBuf

variable {α : Type}

/-- `std::copy_n` to the buffer. -/
def copyIn (buffer : Nat → α) (nextIt : Nat) (data : List α) (position : Nat) : α :=
  if nextIt ≤ position then data[position - nextIt]?.getD (buffer position) else buffer position

/-- `std::copy_n` from the buffer. -/
def copyOut (buffer : Nat → α) (nextIt len : Nat) : List α :=
  (List.range len).map fun i => buffer (nextIt + i)

variable (buf : CircleBuf α)

/-- `flush`. -/
def flush : CircleBuf α :=
  { buf with start := 0, used := 0 }

/-- `peek`. -/
def peek (offset len : Nat) : Checked (List α) := do
  panicIf ((offset + len) % 2 ^ 64 > buf.used) "Trying to read past end of circular buffer."
  if len = 0 then return []
  let nextIt := (buf.start + offset) % 2 ^ 64 % buf.maxSize
  let toEnd := buf.maxSize - nextIt
  if toEnd < len then
    return copyOut buf.buffer nextIt toEnd ++ copyOut buf.buffer 0 (len - toEnd)
  return copyOut buf.buffer nextIt len

/-- `read`. -/
def read (len : Nat) : Checked (CircleBuf α × List α) := do
  let out ← buf.peek 0 len
  return ({ buf with used := buf.used - len, start := (buf.start + len) % 2 ^ 64 }, out)

/-- The end of `write`, for data that fits into the buffer. -/
def overwrite (data : List α) : CircleBuf α :=
  let overflow := buf.used + data.length - buf.maxSize
  let nextIt := (buf.start + buf.used) % 2 ^ 64 % buf.maxSize
  let toEnd := buf.maxSize - nextIt
  { buf with
    buffer := if toEnd < data.length then
        copyIn (copyIn buf.buffer nextIt (data.take toEnd)) 0 (data.drop toEnd)
      else copyIn buf.buffer nextIt data
    used := buf.used + data.length - overflow
    start := (buf.start + overflow) % 2 ^ 64 }

/-- `write`. -/
def write (data : List α) : CircleBuf α :=
  if data.length = 0 then buf
  else if buf.maxSize < data.length then
    buf.flush.overwrite (data.drop (data.length - buf.maxSize))
  else buf.overwrite data

/-- One call and what it copies out. -/
def step : CircleCall α → Checked (CircleBuf α × List α)
  | .write data => return (buf.write data, [])
  | .peek offset len => return (buf, ← buf.peek offset len)
  | .read len => buf.read len
  | .flush => return (buf.flush, [])

/-- The elements in the buffer, the oldest one first. -/
def contents : List α :=
  (List.range buf.used).map fun i => buf.buffer ((buf.start + i) % buf.maxSize)

end CircleBuf

/-- What a call does to the newest elements, and what it gives. -/
def CircleCall.newest {α : Type} (capacity : Nat) (elements : List α) :
    CircleCall α → List α × List α
  | .write data =>
    ((elements ++ data).drop ((elements ++ data).length - capacity), [])
  | .peek offset len => (elements, (elements.drop offset).take len)
  | .read len => (elements.drop len, elements.take len)
  | .flush => ([], [])

namespace CircleBuf

variable {α : Type} {buf next : CircleBuf α} {elements : List α}

/-- A slice that is inside the contents. -/
def Inside (buf : CircleBuf α) : CircleCall α → Prop
  | .write _ | .flush => True
  | .peek offset len => offset + len ≤ buf.used
  | .read len => len ≤ buf.used

/-- The start does not wrap around in a call, or without effect on the positions. -/
def NoWrap (buf : CircleBuf α) : Prop :=
  buf.maxSize ∣ 2 ^ 64 ∨ buf.start + buf.maxSize < 2 ^ 64

/-- The buffer holds these elements. -/
structure Holds (buf : CircleBuf α) (elements : List α) : Prop where
  positive : 0 < buf.maxSize
  bounded : buf.used ≤ buf.maxSize ∧ buf.maxSize < 2 ^ 63
  length : elements.length = buf.used
  element : ∀ i < buf.used, elements[i]? = some (buf.buffer ((buf.start + i) % buf.maxSize))

private theorem Holds.contents (holds : buf.Holds elements) : buf.contents = elements := by
  refine List.ext_getElem? fun i => ?_
  by_cases inside : i < buf.used
  · rw [holds.element i inside, CircleBuf.contents]
    simp [inside]
  · rw [List.getElem?_eq_none (by simp [CircleBuf.contents]; omega),
      List.getElem?_eq_none (by rw [holds.length]; omega)]

/-- A position after the first one, in the buffer. -/
theorem wrapped {start size k : Nat} (inside : start < size) (near : k ≤ size) :
    (start + k) % size = if start + k < size then start + k else start + k - size := by
  split
  · exact Nat.mod_eq_of_lt ‹_›
  · rw [Nat.mod_eq_sub_mod (by omega), Nat.mod_eq_of_lt (by omega)]

/-- The buffer after data was copied to it from a position on. -/
theorem copied_position {buffer : Nat → α} {position size k : Nat} {data : List α}
    (first : position < size) (fits : data.length ≤ size) (inside : k < size) :
    (if size - position < data.length then
      copyIn (copyIn buffer position (data.take (size - position))) 0 (data.drop (size - position))
      else copyIn buffer position data) ((position + k) % size) =
        data[k]?.getD (buffer ((position + k) % size)) := by
  rw [wrapped first (by omega)]
  split
  · next wraps =>
    simp only [copyIn, Nat.zero_le, if_true, Nat.sub_zero, List.getElem?_drop]
    split
    · -- before the end of the buffer, where the second copy does not reach
      rw [if_pos (by omega), List.getElem?_eq_none (by omega), Option.getD_none,
        Nat.add_sub_cancel_left, List.getElem?_take_of_lt (by omega)]
    · rw [if_neg (by omega), show size - position + (position + k - size) = k by omega]
  · simp only [copyIn]
    split
    · rw [if_pos (by omega), Nat.add_sub_cancel_left]
    · rw [if_neg (by omega), List.getElem?_eq_none (by omega), Option.getD_none]

section

variable (holds : buf.Holds elements) (noWrap : buf.NoWrap)

include noWrap

private theorem position_eq {k : Nat} (near : k ≤ buf.maxSize) :
    (buf.start + k) % 2 ^ 64 % buf.maxSize = (buf.start + k) % buf.maxSize := by
  rcases noWrap with divides | small
  · exact Nat.mod_mod_of_dvd _ divides
  · rw [Nat.mod_eq_of_lt (show buf.start + k < 2 ^ 64 by omega)]

private theorem position_add {k : Nat} (near : k ≤ buf.maxSize) (i : Nat) :
    ((buf.start + k) % 2 ^ 64 + i) % buf.maxSize = (buf.start + (k + i)) % buf.maxSize := by
  rw [← Nat.mod_add_mod, position_eq noWrap near, Nat.mod_add_mod, Nat.add_assoc]

include holds

/-- A slice of the contents is copied out, also where it wraps around. -/
theorem Holds.peek {offset len : Nat} (inside : offset + len ≤ buf.used) :
    buf.peek offset len = .ok ((elements.drop offset).take len) := by
  obtain ⟨bounded, small⟩ := holds.bounded
  have length := holds.length
  have fits : ¬(offset + len) % 2 ^ 64 > buf.used := by omega
  simp only [CircleBuf.peek, panicIf, if_neg fits, ok_bind, position_eq noWrap
    (show offset ≤ buf.maxSize by omega)]
  have first := Nat.mod_lt (buf.start + offset) holds.positive
  have element : ∀ i < len, ((elements.drop offset).take len)[i]? =
      some (buf.buffer (((buf.start + offset) % buf.maxSize + i) % buf.maxSize)) := by
    intro i below
    rw [List.getElem?_take_of_lt below, List.getElem?_drop, holds.element _ (by omega),
      Nat.mod_add_mod, Nat.add_assoc]
  generalize (buf.start + offset) % buf.maxSize = position at first element ⊢
  split
  · simp_all [pure, Except.pure]
  have copied : ∀ out : List α, out.length = len → (∀ i < len, out[i]? =
      some (buf.buffer ((position + i) % buf.maxSize))) →
      out = (elements.drop offset).take len := by
    intro out same copies
    refine List.ext_getElem? fun i => ?_
    by_cases below : i < len
    · rw [copies i below, element i below]
    · rw [List.getElem?_eq_none (by omega), List.getElem?_eq_none (by simp; omega)]
  split
  · refine congrArg Except.ok (copied _ (by simp [copyOut]; omega) fun i below => ?_)
    rw [List.getElem?_append, wrapped first (by omega)]
    simp only [copyOut, List.length_map, List.length_range]
    split
    · rw [if_pos (by omega)]
      simp [*]
    · rw [if_neg (by omega), List.getElem?_map, List.getElem?_range (by omega)]
      simp only [Option.map_some, Nat.zero_add]
      congr 2
      omega
  · refine congrArg Except.ok (copied _ (by simp [copyOut]) fun i below => ?_)
    rw [Nat.mod_eq_of_lt (by omega)]
    simp [copyOut, below]

/-- Data that fits is copied behind the contents, over the oldest ones if needed. -/
theorem Holds.overwrite {data : List α} (fits : data.length ≤ buf.maxSize) :
    (buf.overwrite data).Holds
      ((elements ++ data).drop ((elements ++ data).length - buf.maxSize)) := by
  obtain ⟨bounded, small⟩ := holds.bounded
  have length := holds.length
  have copied : ∀ k < buf.maxSize, (buf.overwrite data).buffer ((buf.start + buf.used + k) %
      buf.maxSize) = data[k]?.getD (buf.buffer ((buf.start + buf.used + k) % buf.maxSize)) := by
    intro k inside
    rw [← Nat.mod_add_mod]
    simp only [CircleBuf.overwrite, position_eq noWrap bounded]
    exact copied_position (Nat.mod_lt _ holds.positive) fits inside
  refine ⟨holds.positive, ⟨?_, small⟩, ?_, fun i below => ?_⟩
  · simp only [CircleBuf.overwrite]
    omega
  · simp only [CircleBuf.overwrite, List.length_drop, List.length_append]
    omega
  · simp only [CircleBuf.overwrite] at below
    change _ = some ((buf.overwrite data).buffer (((buf.overwrite data).start + i) % buf.maxSize))
    rw [List.getElem?_drop, List.length_append, length]
    rw [show (buf.overwrite data).start =
      (buf.start + (buf.used + data.length - buf.maxSize)) % 2 ^ 64 from rfl,
      position_add noWrap (by omega)]
    generalize isPlace : buf.used + data.length - buf.maxSize + i = place
    by_cases old : place < buf.used
    · -- the places of the data and those of the kept contents go once around the buffer
      have around : (buf.start + buf.used + (buf.maxSize + place - buf.used)) % buf.maxSize =
          (buf.start + place) % buf.maxSize := by
        rw [show buf.start + buf.used + (buf.maxSize + place - buf.used) =
          buf.start + place + buf.maxSize by omega, Nat.add_mod_right]
      have kept := copied (buf.maxSize + place - buf.used) (by omega)
      rw [around, List.getElem?_eq_none (by omega), Option.getD_none] at kept
      rw [List.getElem?_append_left (by omega), holds.element place old, kept]
    · have new := copied (place - buf.used) (by omega)
      rw [show buf.start + buf.used + (place - buf.used) = buf.start + place by omega,
        List.getElem?_eq_getElem (by omega), Option.getD_some] at new
      rw [List.getElem?_append_right (by omega), length, new, List.getElem?_eq_getElem]

end

private theorem Holds.flush (holds : buf.Holds elements) : buf.flush.Holds [] :=
  ⟨holds.positive, ⟨Nat.zero_le _, holds.bounded.2⟩, rfl, by simp [CircleBuf.flush]⟩

/-- A call inside the contents keeps the newest elements. -/
theorem Holds.step (holds : buf.Holds elements) {call : CircleCall α} (inside : buf.Inside call)
    (noWrap : buf.NoWrap) :
    ∃ next, buf.step call = .ok (next, (call.newest buf.maxSize elements).2) ∧
      next.Holds (call.newest buf.maxSize elements).1 ∧ next.maxSize = buf.maxSize := by
  have length := holds.length
  obtain ⟨bounded, small⟩ := holds.bounded
  cases call with
  | flush => exact ⟨_, rfl, holds.flush, rfl⟩
  | peek offset len =>
    refine ⟨buf, ?_, holds, rfl⟩
    simp only [CircleBuf.step, holds.peek noWrap inside, ok_bind]
    rfl
  | read len =>
    have peeked := holds.peek noWrap (show 0 + len ≤ buf.used from (Nat.zero_add len).symm ▸ inside)
    refine ⟨{ buf with used := buf.used - len, start := (buf.start + len) % 2 ^ 64 },
      by simp only [CircleBuf.step, read, peeked, ok_bind]; rfl,
      ⟨holds.positive, ⟨by dsimp only; omega, small⟩, by simp [CircleCall.newest, length],
        fun i below => ?_⟩, rfl⟩
    dsimp only at below
    dsimp only [CircleCall.newest]
    rw [List.getElem?_drop, holds.element (len + i) (by omega),
      position_add noWrap (Nat.le_trans inside bounded)]
  | write data =>
    refine ⟨buf.write data, rfl, ?_, ?_⟩
    · simp only [write, CircleCall.newest]
      split
      · next empty =>
        rw [List.length_eq_zero_iff.mp empty, List.append_nil,
          show elements.length - buf.maxSize = 0 by omega]
        exact holds
      split
      · next long =>
        -- only the end of the data is written, to an empty buffer
        have written := holds.flush.overwrite (.inr (show 0 + buf.maxSize < 2 ^ 64 by omega))
          (show (data.drop (data.length - buf.maxSize)).length ≤ buf.maxSize by simp; omega)
        rw [List.nil_append, List.length_drop, show data.length - (data.length - buf.maxSize) -
          buf.flush.maxSize = 0 by simp only [CircleBuf.flush]; omega, List.drop_zero] at written
        rwa [List.length_append, show elements.length + data.length - buf.maxSize =
          elements.length + (data.length - buf.maxSize) by omega, List.drop_length_add_append]
      · next fits => exact holds.overwrite noWrap (Nat.not_lt.mp fits)
    · simp only [write]
      split
      · rfl
      · split <;> rfl

/-- A buffer beside the elements that it should hold. -/
def system (α : Type) (capacity : Nat) :
    TransitionSystem (CircleBuf α × List α) (CircleCall α) where
  Initial state := ∃ buffer, state = (⟨buffer, 0, 0, capacity⟩, [])
  Step state call next := state.1.Inside call ∧ ∃ out, state.1.step call = .ok (next.1, out) ∧
    next.2 = (call.newest capacity state.2).1

/-- As long as the start of the buffer does not wrap around, the buffer holds the newest elements,
and every call gives what it should. -/
theorem newest_kept {capacity : Nat} (positive : 0 < capacity) (small : capacity < 2 ^ 63)
    (reachable : ((system α capacity).restrict fun state _ => state.1.NoWrap).Reachable
      (buf, elements)) : buf.contents = elements ∧ ∀ call, buf.Inside call → buf.NoWrap →
      ∃ next, buf.step call = .ok (next, (call.newest capacity elements).2) ∧
        next.contents = (call.newest capacity elements).1 := by
  have invariant : ((system α capacity).restrict fun state _ => state.1.NoWrap).Invariant
      fun state => state.1.Holds state.2 ∧ state.1.maxSize = capacity := by
    refine ⟨?_, ?_⟩
    · rintro _ ⟨buffer, rfl⟩
      exact ⟨⟨positive, ⟨Nat.zero_le _, small⟩, rfl, by simp⟩, rfl⟩
    · rintro state call next ⟨holds, rfl⟩ ⟨noWrap, inside, out, stepped, newest⟩
      obtain ⟨after, ran, kept, same⟩ := holds.step inside noWrap
      rw [stepped, Except.ok.injEq, Prod.mk.injEq] at ran
      rw [newest, ran.1]
      exact ⟨kept, same⟩
  obtain ⟨holds, rfl⟩ := invariant.of_reachable reachable
  refine ⟨holds.contents, fun call inside noWrap => ?_⟩
  obtain ⟨next, ran, kept, -⟩ := holds.step inside noWrap
  exact ⟨next, ran, kept.contents⟩

/-- After three pushes a buffer of two slots holds the last two. -/
theorem newest_kept_three : ∃ buf : CircleBuf Nat,
    ((system Nat 2).restrict fun state _ => state.1.NoWrap).Reachable (buf, [2, 3]) ∧
      buf.contents = [2, 3] := by
  have start : ((system Nat 2).restrict fun state _ => state.1.NoWrap).Reachable
      (⟨fun _ => 0, 0, 0, 2⟩, []) := .of_initial ⟨fun _ => 0, rfl⟩
  have reachable := start.step (show TransitionSystem.Step _ _ (.write [1, 2, 3]) (_, [2, 3]) from
    ⟨.inr (by decide), trivial, [], rfl, rfl⟩)
  exact ⟨_, reachable, (newest_kept (by decide) (by decide) reachable).1⟩

/-- A buffer of zeros. -/
def zeros (start used : Nat) : CircleBuf Nat :=
  ⟨fun _ => 0, start % 2 ^ 64, used, 3⟩

/-- A zero is written and read. -/
theorem reachable_zeros (n : Nat) : (system Nat 3).Reachable (zeros n 0, []) := by
  induction n with
  | zero => exact .of_initial ⟨fun _ => 0, rfl⟩
  | succ n ih =>
    have copied : ∀ position, copyIn (fun _ => 0) position [0] = fun _ => 0 := by
      intro position
      funext p
      simp only [copyIn, List.getElem?_singleton]
      split
      · split <;> rfl
      · rfl
    have written : (zeros n 0).write [0] = zeros n 1 := by
      have inside : ¬3 - n % 2 ^ 64 % 3 < 1 := by omega
      rw [write, if_neg (by simp), if_neg (by simp [zeros])]
      simp only [overwrite, zeros, List.length_singleton, Nat.add_zero, Nat.mod_mod, if_neg inside,
        copied, Nat.zero_add, Nat.reduceSub]
    obtain ⟨out, peeked⟩ : ∃ out, (zeros n 1).peek 0 1 = .ok out := by
      have fits : ¬(0 + 1) % 2 ^ 64 > (zeros n 1).used := by simp [zeros]
      simp only [peek, panicIf, if_neg fits, ok_bind]
      repeat' split
      all_goals exact ⟨_, rfl⟩
    have ran : (zeros n 1).read 1 = .ok (zeros (n + 1) 0, out) := by
      rw [CircleBuf.read, peeked]
      simp only [ok_bind, zeros, Nat.mod_add_mod]
      rfl
    have full : (system Nat 3).Reachable (zeros n 1, [0]) :=
      ih.step (show (system Nat 3).Step _ (.write [0]) _ from ⟨trivial, [], by
        rw [CircleBuf.step, written]; rfl, rfl⟩)
    exact full.step (show (system Nat 3).Step _ (.read 1) _ from ⟨Nat.le_refl 1, out, ran, rfl⟩)

/-- After `2 ^ 64 - 1` rounds, two elements are written and one is read; the start wraps around. -/
theorem newest_lost :
    ∃ buf, (system Nat 3).Reachable (buf, [2]) ∧ buf.contents = [1] := by
  have full := (reachable_zeros (2 ^ 64 - 1)).step
    (show (system Nat 3).Step _ (.write [1, 2]) (_, [1, 2]) from ⟨trivial, [], rfl, rfl⟩)
  exact ⟨_, full.step (show (system Nat 3).Step _ (.read 1) (_, [2]) from
    ⟨show 1 ≤ 2 by decide, [1], rfl, rfl⟩), rfl⟩

end CircleBuf

end Gem5
