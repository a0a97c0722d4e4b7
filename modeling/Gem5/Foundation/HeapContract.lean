import Mathlib.Data.List.Sort

/-!
# The contract of the heap algorithms of a standard library

`push_heap` and `pop_heap` on a vector, known by what the standard says of them.  The
first element of a heap precedes every other one.
-/

namespace Foundation

variable {α : Type}

/-- No element comes after one of its two children. -/
def IsHeap (after : α → α → Bool) (heap : List α) : Prop :=
  ∀ i parent child, 0 < i → heap[(i - 1) / 2]? = some parent → heap[i]? = some child →
    after parent child = false

/-- What `push_heap` and `pop_heap` do: the one lets the last element join the heap before it,
the other moves the first element to the end. -/
structure HeapAlgorithms (after : α → α → Bool) where
  pushHeap : List α → List α
  popHeap : List α → List α
  pushHeap_spec : ∀ heap last, IsHeap after heap →
    IsHeap after (pushHeap (heap ++ [last])) ∧ (pushHeap (heap ++ [last])).Perm (heap ++ [last])
  popHeap_spec : ∀ first rest, IsHeap after (first :: rest) →
    ∃ heap, popHeap (first :: rest) = heap ++ [first] ∧ IsHeap after heap ∧ heap.Perm rest

/-- The comparison is that of a linear preorder. -/
structure IsOrder (after : α → α → Bool) : Prop where
  trans : ∀ a b c, after a b = false → after b c = false → after a c = false
  total : ∀ a b, after a b = false ∨ after b a = false

variable {after : α → α → Bool} (order : IsOrder after)
include order

/-- The first element of a heap comes after no other one. -/
theorem IsHeap.first_le {first : α} {rest : List α} (heap : IsHeap after (first :: rest)) :
    ∀ other ∈ first :: rest, after first other = false := by
  have reflexive : after first first = false := (order.total first first).elim id id
  -- Along the parents, an index goes down to the first one.
  have below : ∀ (i : Nat) (other : α), (first :: rest)[i]? = some other →
      after first other = false := by
    intro i
    induction i using Nat.strongRecOn with
    | ind i ih =>
      intro other isOther
      rcases Nat.eq_zero_or_pos i with rfl | positive
      · cases isOther
        exact reflexive
      · have inside : i < (first :: rest).length := (List.getElem?_eq_some_iff.mp isOther).1
        have parentInside : (i - 1) / 2 < (first :: rest).length := by omega
        have isParent := List.getElem?_eq_getElem parentInside
        exact order.trans _ _ _ (ih _ (by omega) _ isParent) (heap i _ _ positive isParent isOther)
  intro other member
  obtain ⟨i, isOther⟩ := List.mem_iff_getElem?.mp member
  exact below i other isOther

omit order in
/-- A sorted list is a heap. -/
theorem isHeap_of_pairwise {heap : List α}
    (sorted : heap.Pairwise fun a b => after a b = false) : IsHeap after heap := by
  intro i parent child positive isParent isChild
  obtain ⟨inside, rfl⟩ := List.getElem?_eq_some_iff.mp isParent
  obtain ⟨inside', rfl⟩ := List.getElem?_eq_some_iff.mp isChild
  exact List.pairwise_iff_getElem.mp sorted _ _ inside inside' (by omega)

/-- Sorting meets the contract. -/
def sortedHeap : HeapAlgorithms after where
  pushHeap heap := heap.insertionSort fun a b => after a b = false
  popHeap
    | [] => []
    | first :: rest => rest.insertionSort (fun a b => after a b = false) ++ [first]
  pushHeap_spec heap last _ := by
    have : Std.Total fun a b => after a b = false := ⟨order.total⟩
    have : IsTrans α fun a b => after a b = false := ⟨order.trans⟩
    exact ⟨isHeap_of_pairwise (List.pairwise_insertionSort _ _), List.perm_insertionSort _ _⟩
  popHeap_spec first rest _ := by
    have : Std.Total fun a b => after a b = false := ⟨order.total⟩
    have : IsTrans α fun a b => after a b = false := ⟨order.trans⟩
    exact ⟨_, rfl, isHeap_of_pairwise (List.pairwise_insertionSort _ _),
      List.perm_insertionSort _ _⟩

end Foundation
