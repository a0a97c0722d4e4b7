import Mathlib.Logic.Function.Basic

/-!
# Overlays

A family of values of which some positions have been overwritten.  The overwritten
positions are a partial family, the patch; the overlay shows the patch where there
is one and the base elsewhere.  A transaction with atomic commit is a memory and a
patch: reads see the overlay, and the commit makes the overlay the memory.
-/

namespace Foundation

variable {ι α : Type*}

/-- The base with the patch on top. -/
def overlay (base : ι → α) (patch : ι → Option α) : ι → α :=
  fun i => (patch i).getD (base i)

/-- The patch with the positions of `region` overwritten. -/
def patchOn (region : ι → Prop) [DecidablePred region] (values : ι → α) (patch : ι → Option α) :
    ι → Option α :=
  fun i => if region i then some (values i) else patch i

/-- Overwriting the overlay is overwriting the patch. -/
theorem overlay_patchOn (base : ι → α) (region : ι → Prop) [DecidablePred region]
    (values : ι → α) (patch : ι → Option α) : overlay base (patchOn region values patch) =
      fun i => if region i then values i else overlay base patch i := by
  funext i
  by_cases inside : region i <;> simp [overlay, patchOn, inside]

/-- A new base seen through a mask that covers the patch, on whose positions the old and the new
base agree, is overlaid by the same patch. -/
theorem overlay_of_mask {base other : ι → α} {patch : ι → Option α} {mask : ι → Bool}
    (covered : ∀ i, (patch i).isSome = true → mask i = true)
    (agree : ∀ i, mask i = true → base i = other i) :
    (fun i => if mask i then overlay base patch i else other i) = overlay other patch := by
  funext i
  cases patched : patch i with
  | some value => simp [overlay, patched, covered i (by simp [patched])]
  | none =>
    cases masked : mask i with
    | false => simp [overlay, patched]
    | true => simpa [overlay, patched] using agree i masked

/-- A memory and the writes that have not taken effect. -/
structure Buffered (ι α : Type*) where
  memory : ι → α
  writes : ι → Option α

namespace Buffered

/-- No writes yet. -/
def start (memory : ι → α) : Buffered ι α := ⟨memory, fun _ => none⟩

/-- What reads return. -/
def load (state : Buffered ι α) : ι → α := overlay state.memory state.writes

/-- Write the positions of a region. -/
def write (state : Buffered ι α) (region : ι → Prop) [DecidablePred region] (values : ι → α) :
    Buffered ι α :=
  { state with writes := patchOn region values state.writes }

/-- All writes take effect at once. -/
def commit (state : Buffered ι α) : Buffered ι α := start state.load

/-- A position that was not written is read from the memory. -/
theorem load_of_none {state : Buffered ι α} {i : ι} (unwritten : state.writes i = none) :
    state.load i = state.memory i := by
  simp [load, overlay, unwritten]

end Buffered

end Foundation
