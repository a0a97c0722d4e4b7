import Gem5.Mem.StackDistCalc

/-!
# Stack distances of a history of calls

What the calculator is for, told from the calls alone: which addresses are on the stack,
which distinct ones have been added since the last access to an address, and the mark of
its entry.  The same distance is the depth in the stack that keeps the addresses in the
order of their last access.
-/

namespace Gem5.StackDistCalc

/-- The last access to the address added it. -/
def onStack (rAddress : Addr) : List Call → Bool
  | [] => false
  | .calcStackDistAndUpdate other addNewNode :: past =>
    if other = rAddress then addNewNode else onStack rAddress past
  | .calcStackDist _ _ :: past => onStack rAddress past

/-- The distinct addresses that have been added since the last access to this one, without
those that have been taken off the stack again. -/
def addedSince (rAddress : Addr) : List Call → Finset Addr
  | [] => ∅
  | .calcStackDistAndUpdate other addNewNode :: past =>
    if other = rAddress then ∅
    else if addNewNode then insert other (addedSince rAddress past)
    else (addedSince rAddress past).erase other
  | .calcStackDist _ _ :: past => addedSince rAddress past

/-- The last mark set since the last access to the address. -/
def markOf (rAddress : Addr) : List Call → Bool
  | [] => false
  | .calcStackDistAndUpdate other _ :: past =>
    if other = rAddress then false else markOf rAddress past
  | .calcStackDist other mark :: past => if other = rAddress then mark else markOf rAddress past

/-- The distance and the mark a call should return. -/
def expected (past : List Call) (rAddress : Addr) : Nat × Bool :=
  if onStack rAddress past then ((addedSince rAddress past).card, markOf rAddress past)
  else (infinity, false)

/-- The addresses on the stack, the last accessed one first. -/
def lruStack : List Call → List Addr
  | [] => []
  | .calcStackDistAndUpdate rAddress addNewNode :: past =>
    if addNewNode then rAddress :: (lruStack past).erase rAddress
    else (lruStack past).erase rAddress
  | .calcStackDist _ _ :: past => lruStack past

/-- How many leaves the calls add. -/
def accesses : List Call → Nat
  | [] => 0
  | .calcStackDistAndUpdate _ addNewNode :: past =>
    if addNewNode then accesses past + 1 else accesses past
  | .calcStackDist _ _ :: past => accesses past

/-- With the debug checks on, no address is taken off the stack. -/
def Permitted (verifyStack : Bool) : List Call → Prop
  | [] => True
  | .calcStackDistAndUpdate rAddress addNewNode :: past => Permitted verifyStack past ∧
    (verifyStack = true → addNewNode = false → onStack rAddress past = false)
  | .calcStackDist _ _ :: past => Permitted verifyStack past

section

variable {rAddress other : Addr} {past : List Call}

private theorem lruStack_nodup (past : List Call) : (lruStack past).Nodup := by
  induction past with
  | nil => exact List.nodup_nil
  | cons call past ih =>
    cases call with
    | calcStackDistAndUpdate address addNewNode =>
      cases addNewNode with
      | true => exact List.nodup_cons.mpr ⟨ih.not_mem_erase, ih.erase address⟩
      | false => exact ih.erase address
    | calcStackDist => exact ih

/-- The stack holds the addresses on it. -/
theorem mem_lruStack (rAddress : Addr) (past : List Call) :
    rAddress ∈ lruStack past ↔ onStack rAddress past = true := by
  induction past with
  | nil => simp [lruStack, onStack]
  | cons call past ih =>
    cases call with
    | calcStackDistAndUpdate address addNewNode =>
      have member := (lruStack_nodup past).mem_erase_iff (a := rAddress) (b := address)
      by_cases same : address = rAddress
      · subst same
        cases addNewNode <;> simp [lruStack, onStack, member]
      · have away : rAddress ≠ address := fun isSame => same isSame.symm
        cases addNewNode <;> simp [lruStack, onStack, member, same, away, ih]
    | calcStackDist => exact ih

private theorem takeWhile_erase (away : other ≠ rAddress) (stack : List Addr) :
    (stack.erase other).takeWhile (· != rAddress) =
      (stack.takeWhile (· != rAddress)).erase other := by
  induction stack with
  | nil => rfl
  | cons top rest ih =>
    by_cases isOther : top = other
    · subst isOther
      simp [away]
    · by_cases isThis : top = rAddress
      · subst isThis
        simp [isOther]
      · simp [isOther, isThis, ih]

/-- The addresses above an address on the stack are those added since. -/
theorem toFinset_above (isOn : onStack rAddress past = true) :
    ((lruStack past).takeWhile (· != rAddress)).toFinset = addedSince rAddress past := by
  induction past with
  | nil => simp [onStack] at isOn
  | cons call past ih =>
    cases call with
    | calcStackDist => exact ih isOn
    | calcStackDistAndUpdate address addNewNode =>
      by_cases same : address = rAddress
      · subst same
        simp only [onStack, if_true] at isOn
        simp [lruStack, addedSince, isOn]
      · simp only [onStack, same, if_false] at isOn
        have nodup : ((lruStack past).takeWhile (· != rAddress)).Nodup :=
          (List.takeWhile_sublist _).nodup (lruStack_nodup past)
        have erased : (((lruStack past).erase address).takeWhile (· != rAddress)).toFinset =
            (addedSince rAddress past).erase address := by
          rw [takeWhile_erase same, ← ih isOn]
          ext b
          simp [nodup.mem_erase_iff]
        cases addNewNode with
        | true =>
          simp only [lruStack, addedSince, same, if_true, if_false]
          rw [List.takeWhile_cons_of_pos (by simpa using same), List.toFinset_cons, erased]
          ext b
          by_cases isNew : b = address <;> simp [isNew]
        | false =>
          simp only [lruStack, addedSince, same, Bool.false_eq_true, if_false]
          exact erased

/-- The naive stack gives the expected distance. -/
theorem naiveDist_lruStack (rAddress : Addr) (past : List Call) :
    naiveDist (lruStack past) rAddress = (expected past rAddress).1 := by
  unfold naiveDist expected
  simp only [mem_lruStack]
  split
  · rename_i isOn
    have nodup : ((lruStack past).takeWhile (· != rAddress)).Nodup :=
      (List.takeWhile_sublist _).nodup (lruStack_nodup past)
    rw [← toFinset_above isOn, List.toFinset_card_of_nodup nodup]
  · rfl

/-! A call of `calcStackDist` among the earlier ones changes nothing but a mark. -/

variable {verifyStack mark : Bool} {later earlier : List Call}

private theorem onStack_skip : onStack other (later ++ .calcStackDist rAddress mark :: earlier) =
    onStack other (later ++ earlier) := by
  induction later with
  | nil => rfl
  | cons call later ih => cases call <;> simp [onStack, ih]

private theorem addedSince_skip :
    addedSince other (later ++ .calcStackDist rAddress mark :: earlier) =
    addedSince other (later ++ earlier) := by
  induction later with
  | nil => rfl
  | cons call later ih => cases call <;> simp [addedSince, ih]

private theorem markOf_skip (away : other ≠ rAddress) :
    markOf other (later ++ .calcStackDist rAddress mark :: earlier) =
      markOf other (later ++ earlier) := by
  induction later with
  | nil => simp [markOf, Ne.symm away]
  | cons call later ih => cases call <;> simp [markOf, ih]

/-- A query is no access. -/
theorem accesses_skip : accesses (later ++ .calcStackDist rAddress mark :: earlier) =
    accesses (later ++ earlier) := by
  induction later with
  | nil => rfl
  | cons call later ih => cases call <;> simp [accesses, ih]

/-- A query changes no permission. -/
theorem permitted_skip : Permitted verifyStack (later ++ .calcStackDist rAddress mark :: earlier) ↔
    Permitted verifyStack (later ++ earlier) := by
  induction later with
  | nil => rfl
  | cons call later ih => cases call <;> simp [Permitted, ih, onStack_skip]

/-- A query changes no expected distance. -/
theorem expected_skip_fst : (expected (later ++ .calcStackDist rAddress mark :: earlier) other).1 =
      (expected (later ++ earlier) other).1 := by
  unfold expected
  rw [onStack_skip, addedSince_skip]
  split <;> rfl

/-- A query marks no other address. -/
theorem expected_skip (away : other ≠ rAddress) :
    expected (later ++ .calcStackDist rAddress mark :: earlier) other =
      expected (later ++ earlier) other := by
  unfold expected
  rw [onStack_skip, addedSince_skip, markOf_skip away]

end

end Gem5.StackDistCalc
