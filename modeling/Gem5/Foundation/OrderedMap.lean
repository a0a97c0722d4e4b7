import Mathlib.Data.List.Pairwise
import Mathlib.Data.List.TakeWhile

/-!
# Maps ordered by a comparison

A map keeps its entries as a list in increasing order of the keys.  The comparison is a
program's own; it is a strict weak order, given by a rank of the keys.
-/

namespace Foundation

variable {Key Value : Type}

/-- The entries before the first one with a greater key, and the entries from it on. -/
def upperBound (lt : Key → Key → Bool) (key : Key) (entries : List (Key × Value)) :
    List (Key × Value) × List (Key × Value) :=
  (entries.takeWhile fun entry => !lt key entry.1, entries.dropWhile fun entry => !lt key entry.1)

/-- Insert an entry unless an equivalent key is present; also the entry that is then there. -/
def insertEntry (lt : Key → Key → Bool) (entry : Key × Value) :
    List (Key × Value) → List (Key × Value) × (Key × Value)
  | [] => ([entry], entry)
  | first :: rest =>
    if lt entry.1 first.1 then (entry :: first :: rest, entry)
    else if lt first.1 entry.1 then
      let (rest, found) := insertEntry lt entry rest
      (first :: rest, found)
    else (first :: rest, first)

/-- The comparison of keys is the comparison of their ranks. -/
def RankedBy (lt : Key → Key → Bool) (rank : Key → Nat) : Prop :=
  ∀ first second, lt first second = true ↔ rank first < rank second

/-- The entries are in increasing order. -/
def Ascending (rank : Key → Nat) (entries : List (Key × Value)) : Prop :=
  entries.Pairwise fun first second => rank first.1 < rank second.1

section

variable {lt : Key → Key → Bool} {rank : Key → Nat} (ranked : RankedBy lt rank)
  {entries : List (Key × Value)} {key : Key} {entry other : Key × Value}

/-- The two parts make up the map. -/
@[simp] theorem upperBound_append :
    (upperBound lt key entries).1 ++ (upperBound lt key entries).2 = entries :=
  List.takeWhile_append_dropWhile

/-- The part before is in the map. -/
theorem mem_of_mem_before (before : entry ∈ (upperBound lt key entries).1) : entry ∈ entries :=
  (List.takeWhile_sublist _).subset before

/-- The part after is in the map. -/
theorem mem_of_mem_after (after : entry ∈ (upperBound lt key entries).2) : entry ∈ entries :=
  (List.dropWhile_sublist _).subset after

include ranked

/-- Not before means no smaller rank. -/
theorem RankedBy.not_lt {first second : Key} :
    lt first second = false ↔ rank second ≤ rank first := by
  rw [← Bool.not_eq_true, ranked, Nat.not_lt]

/-- What is before the bound has no greater rank than the key. -/
theorem rank_le_of_mem_upperBound (before : entry ∈ (upperBound lt key entries).1) :
    rank entry.1 ≤ rank key := by
  have passed := List.mem_takeWhile_imp before
  exact ranked.not_lt.mp (by simpa using passed)

section

variable (ascending : Ascending rank entries)

include ascending

/-- What is after the bound has a greater rank than the key. -/
theorem lt_rank_of_mem_upperBound
    (after : entry ∈ (upperBound lt key entries).2) : rank key < rank entry.1 := by
  cases listed : entries.dropWhile fun entry => !lt key entry.1 with
  | nil =>
    rw [upperBound, listed] at after
    cases after
  | cons first rest =>
    have stopped : lt key first.1 = true := by
      have head := List.head?_dropWhile_not (fun entry : Key × Value => !lt key entry.1) entries
      simpa [listed] using head
    have suffix : Ascending rank (first :: rest) :=
      listed ▸ ascending.sublist (List.dropWhile_sublist _)
    rw [upperBound, listed] at after
    have greater := (ranked _ _).mp stopped
    rcases List.mem_cons.mp after with rfl | later
    · exact greater
    · exact greater.trans (List.rel_of_pairwise_cons suffix later)

/-- An entry stands before the bound exactly when its key is not greater. -/
theorem mem_upperBound_iff (stored : entry ∈ entries) :
    entry ∈ (upperBound lt key entries).1 ↔ rank entry.1 ≤ rank key := by
  refine ⟨rank_le_of_mem_upperBound ranked, fun le => ?_⟩
  have either : entry ∈ (upperBound lt key entries).1 ++ (upperBound lt key entries).2 := by
    rwa [upperBound_append]
  refine (List.mem_append.mp either).resolve_right fun after => ?_
  exact absurd (lt_rank_of_mem_upperBound ranked ascending after) (by omega)

/-- The bound is the least entry with a greater key. -/
theorem exists_head_upperBound (stored : entry ∈ entries) (greater : rank key < rank entry.1) :
    ∃ next, (upperBound lt key entries).2.head? = some next ∧ next ∈ entries ∧
      rank key < rank next.1 ∧ rank next.1 ≤ rank entry.1 := by
  have after : entry ∈ (upperBound lt key entries).2 := by
    have either : entry ∈ (upperBound lt key entries).1 ++ (upperBound lt key entries).2 := by
      rwa [upperBound_append]
    refine (List.mem_append.mp either).resolve_left fun before => ?_
    exact absurd (rank_le_of_mem_upperBound ranked before) (by omega)
  have sorted : Ascending rank (upperBound lt key entries).2 :=
    ascending.sublist (List.dropWhile_sublist _)
  cases listed : (upperBound lt key entries).2 with
  | nil => simp [listed] at after
  | cons next rest =>
    have first : next ∈ (upperBound lt key entries).2 := by simp [listed]
    refine ⟨next, rfl, mem_of_mem_after first, lt_rank_of_mem_upperBound ranked ascending first, ?_⟩
    rw [listed] at after sorted
    rcases List.mem_cons.mp after with rfl | later
    · exact le_rfl
    · exact (List.rel_of_pairwise_cons sorted later).le

/-- Going down from the bound, the entries met before a given one have keys above it. -/
theorem exists_reverse_upperBound (stored : entry ∈ entries) (le : rank entry.1 ≤ rank key) :
    ∃ above below, (upperBound lt key entries).1.reverse = above ++ entry :: below ∧
      (∀ other ∈ above, other ∈ entries ∧ rank entry.1 < rank other.1 ∧ rank other.1 ≤ rank key) ∧
      ∀ other ∈ below, other ∈ entries ∧ rank other.1 < rank entry.1 := by
  have before := (mem_upperBound_iff ranked ascending stored).mpr le
  obtain ⟨below, above, split⟩ := List.append_of_mem before
  have sorted : Ascending rank (below ++ entry :: above) :=
    split ▸ ascending.sublist (List.takeWhile_sublist _)
  obtain ⟨-, tail, across⟩ := List.pairwise_append.mp sorted
  have member : ∀ other, other ∈ below ∨ other ∈ above → other ∈ (upperBound lt key entries).1 := by
    rintro other listed
    rw [split, List.mem_append, List.mem_cons]
    exact listed.imp_right .inr
  refine ⟨above.reverse, below.reverse, by simp [split], fun other listed => ?_,
    fun other listed => ?_⟩
  · have before := member other (.inr (List.mem_reverse.mp listed))
    exact ⟨mem_of_mem_before before, List.rel_of_pairwise_cons tail (List.mem_reverse.mp listed),
      rank_le_of_mem_upperBound ranked before⟩
  · have before := member other (.inl (List.mem_reverse.mp listed))
    exact ⟨mem_of_mem_before before, across other (List.mem_reverse.mp listed) entry (by simp)⟩

end

/-- Where no equivalent key is present, the entry is inserted in order. -/
theorem insertEntry_spec (entry : Key × Value) (ascending : Ascending rank entries)
    (fresh : ∀ present ∈ entries, rank present.1 ≠ rank entry.1) :
    (insertEntry lt entry entries).2 = entry ∧
      (∀ other, other ∈ (insertEntry lt entry entries).1 ↔ other = entry ∨ other ∈ entries) ∧
      Ascending rank (insertEntry lt entry entries).1 := by
  induction entries with
  | nil => simp [insertEntry, Ascending]
  | cons first rest ih =>
    obtain ⟨least, tail⟩ := List.pairwise_cons.mp ascending
    have different := fresh first (by simp)
    by_cases less : rank entry.1 < rank first.1
    · rw [insertEntry, if_pos ((ranked _ _).mpr less)]
      refine ⟨rfl, fun other => by simp, List.pairwise_cons.mpr ⟨fun other listed => ?_, ascending⟩⟩
      rcases List.mem_cons.mp listed with rfl | later
      · exact less
      · exact less.trans (least other later)
    · have greater : rank first.1 < rank entry.1 := by omega
      rw [insertEntry, if_neg (by rwa [ranked]), if_pos ((ranked _ _).mpr greater)]
      obtain ⟨found, members, sorted⟩ :=
        ih tail fun present listed => fresh present (by simp [listed])
      refine ⟨found, fun other => ?_, List.pairwise_cons.mpr ⟨fun other listed => ?_, sorted⟩⟩
      · rw [List.mem_cons, members, List.mem_cons, or_left_comm]
      · rcases (members other).mp listed with rfl | later
        · exact greater
        · exact least other later

end

end Foundation
