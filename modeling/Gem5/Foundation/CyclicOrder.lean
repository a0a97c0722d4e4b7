import Mathlib.Data.Set.Basic
import Std.Data.ExtTreeMap

/-!
# Walking around the keys of an ordered map

`CyclicNext held key next` says that a walk over `held` in increasing order that starts
again from the least element comes to `next` after `key`, whether or not `key` itself is
still held.  The first key above, or else the least one, is that element.
-/

namespace Foundation

section Map

open Std

universe u v

variable {α : Type u} {β : Type v} {cmp : α → α → Ordering} [TransCmp cmp]

private theorem getKeyGT?_eq_find?_inner (map : DTreeMap α (fun _ => β) cmp) (key : α) :
    map.getKeyGT? key = map.keys.find? fun other => (cmp other key).isGT := by
  let ordered : Ord α := ⟨cmp⟩
  have transitive : TransOrd α := inferInstanceAs (TransCmp cmp)
  change DTreeMap.Internal.Impl.getKeyGT? key map.inner = map.inner.keys.find? _
  rw [DTreeMap.Internal.Impl.getKeyGT?_eq_getEntryGT?,
    DTreeMap.Internal.Impl.getEntryGT?_eq_find? map.wf.ordered,
    DTreeMap.Internal.Impl.keys_eq_keys, Std.Internal.List.keys_eq_map, List.find?_map]
  rfl

/-- The first key above is found by scanning the keys in order. -/
theorem getKeyGT?_eq_find?_keys (map : ExtTreeMap α β cmp) (key : α) :
    map.getKeyGT? key = map.keys.find? fun other => (cmp other key).isGT := by
  obtain ⟨inner⟩ := map
  induction inner using ExtDTreeMap.inductionOn with
  | mk inner => exact getKeyGT?_eq_find?_inner inner key

end Map

variable {α : Type*} [LinearOrder α]

/-- `next` comes after `key` in a cyclic walk over the held elements in increasing order. -/
def CyclicNext (held : Set α) (key next : α) : Prop :=
  next ∈ held ∧ ((key < next ∧ ∀ other ∈ held, key < other → next ≤ other) ∨
    ((∀ other ∈ held, other ≤ key) ∧ ∀ other ∈ held, next ≤ other))

variable {β : Type*} {map : Std.ExtTreeMap α β compare} {key next : α}

private theorem isGT_compare_iff {other : α} : (compare other key).isGT = true ↔ key < other := by
  rw [Ordering.isGT_iff_eq_gt, compare_gt_iff_gt]

/-- The first key above comes next. -/
theorem CyclicNext.of_getKeyGT? (found : map.getKeyGT? key = some next) :
    CyclicNext {other | other ∈ map} key next := by
  rw [getKeyGT?_eq_find?_keys, List.find?_eq_some_iff_append] at found
  obtain ⟨above, before, after, keys, notAbove⟩ := found
  have ordered := map.ordered_keys
  rw [keys, List.pairwise_append, List.pairwise_cons] at ordered
  rw [isGT_compare_iff] at above
  refine ⟨Std.ExtTreeMap.mem_keys.mp (by simp [keys]), .inl ⟨above, ?_⟩⟩
  intro other held larger
  have listed : other ∈ before ++ next :: after := keys ▸ Std.ExtTreeMap.mem_keys.mpr held
  rcases List.mem_append.mp listed with early | late
  · have small := notAbove other early
    rw [Bool.not_eq_true', ← Bool.not_eq_true, isGT_compare_iff] at small
    exact absurd larger small
  · rcases List.mem_cons.mp late with rfl | behind
    · exact le_refl _
    · exact le_of_lt (compare_lt_iff_lt.mp (ordered.2.1.1 other behind))

/-- Without a key above, the least key comes next. -/
theorem CyclicNext.of_head? (none_above : map.getKeyGT? key = none)
    (found : map.keys.head? = some next) : CyclicNext {other | other ∈ map} key next := by
  rw [getKeyGT?_eq_find?_keys, List.find?_eq_none] at none_above
  obtain ⟨rest, keys⟩ := List.head?_eq_some_iff.mp found
  have ordered := map.ordered_keys
  rw [keys, List.pairwise_cons] at ordered
  refine ⟨Std.ExtTreeMap.mem_keys.mp (by simp [keys]), .inr ⟨?_, ?_⟩⟩
  · intro other held
    have small := none_above other (Std.ExtTreeMap.mem_keys.mpr held)
    rw [isGT_compare_iff] at small
    exact not_lt.mp small
  · intro other held
    have listed : other ∈ next :: rest := keys ▸ Std.ExtTreeMap.mem_keys.mpr held
    rcases List.mem_cons.mp listed with rfl | behind
    · exact le_refl _
    · exact le_of_lt (compare_lt_iff_lt.mp (ordered.1 other behind))

end Foundation
