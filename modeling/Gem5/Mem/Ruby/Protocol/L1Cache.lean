import Gem5.Mem.Ruby.Protocol.L0Cache

/-!
# The nacks of one request in the L1 cache

Every holder of a block answers a request for it.  The L1 cache of the requester
collects the nacks in the TBE of the request and passes one on to its L0: the sender
and the timestamp of the oldest nacker, the least priority, and the data only if every
nack came with data.
-/

namespace Gem5.Ruby

open Foundation

variable {n : Nat}

/-- The nack fields of the TBE after one more nack. -/
def Nack.merged (tbe nack : Nack n) : Nack n :=
  { tbe with
    sender := if nack.timestamp < tbe.timestamp then nack.sender else tbe.sender
    timestamp := if nack.timestamp < tbe.timestamp then nack.timestamp else tbe.timestamp
    priority := if nack.priority < tbe.priority then nack.priority else tbe.priority
    swPriority := tbe.swPriority || nack.swPriority
    data := if nack.data.isSome then tbe.data else none }

/-- `setNack`: the nack fields of the TBE are those of the nack it passes on. -/
def setNack (tbe : Option (Nack n)) (nack : Nack n) : Checked (Option (Nack n)) := do
  assertThat (nack.sender.type = .l1Cache) "machineIDToMachineType(nacker) == MachineType:L1Cache"
  match tbe with
  | none => return some nack
  | some tbe => do
    assertThat (nack.swPriority = true → tbe.swPriority = false) "tbe.swNackerPriority == false"
    assertThat (nack.trans ≠ tbe.trans → tbe.trans = .trans → nack.trans ≠ .nonTrans)
      "trans != TransactionBit:NonTrans"
    return some (tbe.merged nack)

/-- The nack that reaches the L0 once all answers have arrived. -/
def collectNacks (nacks : List (Nack n)) : Checked (Option (Nack n)) :=
  nacks.foldlM setNack none

variable {α : Type} {nackOf : α → Nack n}

/-- What the collected nack tells about the nacks of some messages, of which `first` came first. -/
structure Collected (nackOf : α → Nack n) (first : α) (msgs : List α) (nack : Nack n) : Prop where
  addr : nack.addr = (nackOf first).addr
  trans : nack.trans = (nackOf first).trans
  least : ∀ msg ∈ msgs, nack.priority ≤ (nackOf msg).priority
  among : ∃ msg ∈ msgs, nack.priority = (nackOf msg).priority
  data : (∀ msg ∈ msgs, (nackOf msg).data.isSome = true) → nack.data = (nackOf first).data
  noData : ∀ msg ∈ msgs, (nackOf msg).data = none → nack.data = none
  power : nack.swPriority = true ↔ ∃ msg ∈ msgs, (nackOf msg).swPriority = true
  oldest : ∀ msg ∈ msgs, nack.timestamp ≤ (nackOf msg).timestamp
  eldest : ∃ msg ∈ msgs, nack.sender = (nackOf msg).sender ∧
    nack.timestamp = (nackOf msg).timestamp ∧
    (msg = first ∨ (nackOf msg).timestamp < (nackOf first).timestamp)

namespace Collected

/-- One nack is passed on as it is. -/
theorem first (msg : α) : Collected nackOf msg [msg] (nackOf msg) where
  addr := rfl
  trans := rfl
  least := by simp
  among := ⟨msg, by simp⟩
  data _ := rfl
  noData := by simp
  power := by simp
  oldest := by simp
  eldest := ⟨msg, by simp⟩

variable {first : α} {msgs : List α} {tbe : Nack n} (collected : Collected nackOf first msgs tbe)

include collected

/-- One more nack. -/
theorem merged (msg : α) :
    Collected nackOf first (msgs ++ [msg]) (tbe.merged (nackOf msg)) where
  addr := collected.addr
  trans := collected.trans
  least sent listed := by
    rcases List.mem_append.mp listed with earlier | now
    · have bound := collected.least sent earlier
      simp only [Nack.merged]
      split <;> grind
    · obtain rfl := List.mem_singleton.mp now
      simp only [Nack.merged]
      split <;> grind
  among := by
    obtain ⟨sent, listed, same⟩ := collected.among
    simp only [Nack.merged]
    split
    · exact ⟨msg, by simp, rfl⟩
    · exact ⟨sent, List.mem_append_left _ listed, same⟩
  data all := by
    simp only [Nack.merged, all msg (by simp), if_true]
    exact collected.data fun sent listed => all sent (List.mem_append_left _ listed)
  noData sent listed missing := by
    rcases List.mem_append.mp listed with earlier | now
    · simp [Nack.merged, collected.noData sent earlier missing]
    · obtain rfl := List.mem_singleton.mp now
      simp [Nack.merged, missing]
  power := by
    simp only [Nack.merged, Bool.or_eq_true, collected.power, List.mem_append, List.mem_singleton]
    grind
  oldest sent listed := by
    rcases List.mem_append.mp listed with earlier | now
    · have bound := collected.oldest sent earlier
      simp only [Nack.merged]
      split <;> grind
    · obtain rfl := List.mem_singleton.mp now
      simp only [Nack.merged]
      split <;> grind
  eldest := by
    obtain ⟨sent, listed, sender, timestamp, arrival⟩ := collected.eldest
    simp only [Nack.merged]
    split
    · refine ⟨msg, by simp, rfl, rfl, .inr ?_⟩
      rcases arrival with rfl | before <;> grind
    · exact ⟨sent, List.mem_append_left _ listed, sender, timestamp, arrival⟩

/-- Data is passed on only if every nack has data. -/
theorem data_all (present : tbe.data.isSome = true) (msg : α) (listed : msg ∈ msgs) :
    (nackOf msg).data.isSome = true := by
  by_contra missing
  rw [collected.noData msg listed (by simpa using missing)] at present
  simp at present

end Collected

private theorem foldlM_setNack {first : α} {msgs : List α} {after : Option (Nack n)} :
    ∀ {before : List α} {tbe : Nack n}, Collected nackOf first before tbe →
      (msgs.map nackOf).foldlM setNack (some tbe) = .ok after →
      ∃ next, after = some next ∧ Collected nackOf first (before ++ msgs) next := by
  induction msgs with
  | nil =>
    intro before tbe collected folded
    exact ⟨tbe, (pure_eq_ok.mp folded).symm, by simpa using collected⟩
  | cons msg rest ih =>
    intro before tbe collected folded
    rw [List.map_cons, List.foldlM_cons, bind_eq_ok] at folded
    obtain ⟨middle, set, folded⟩ := folded
    simp only [setNack, run_eq_ok] at set
    obtain ⟨-, -, -, rfl⟩ := set
    simpa using ih (collected.merged msg) folded

/-- The collected nack of at least one nack. -/
theorem collectNacks_some {msgs : List α} {nack : Nack n}
    (collected : collectNacks (msgs.map nackOf) = .ok (some nack)) :
    ∃ first, Collected nackOf first msgs nack := by
  cases msgs with
  | nil => simp [collectNacks, pure, Except.pure] at collected
  | cons first rest =>
    rw [collectNacks, List.map_cons, List.foldlM_cons, bind_eq_ok] at collected
    obtain ⟨middle, set, folded⟩ := collected
    simp only [setNack, run_eq_ok] at set
    obtain ⟨-, rfl⟩ := set
    obtain ⟨next, same, holds⟩ := foldlM_setNack (.first first) folded
    exact ⟨first, Option.some.inj same ▸ holds⟩

variable {nacks : List (Nack n)}

/-- Nacks of ordinary transactions pass the assertions of `setNack`. -/
structure Nack.Ordinary (nack : Nack n) : Prop where
  source : nack.sender.type = .l1Cache
  trans : nack.trans = .trans
  swPriority : nack.swPriority = false

private theorem setNack_ordinary {tbe nack : Nack n} (first : tbe.Ordinary) (now : nack.Ordinary) :
    ∃ next, setNack (some tbe) nack = .ok (some next) ∧ next.Ordinary := by
  have inside : nack.trans ≠ .nonTrans := by simp [now.trans]
  simp only [setNack, assertThat_of now.source, assertThat_of fun _ => first.swPriority,
    assertThat_of fun _ _ => inside, ok_bind]
  refine ⟨_, rfl, ?_, first.trans, by simp [Nack.merged, first.swPriority, now.swPriority]⟩
  simp only [Nack.merged]
  split
  · exact now.source
  · exact first.source

private theorem foldlM_setNack_total :
    ∀ {tbe : Nack n}, tbe.Ordinary → (∀ nack ∈ nacks, nack.Ordinary) →
      ∃ next, nacks.foldlM setNack (some tbe) = .ok (some next) := by
  induction nacks with
  | nil => exact fun {tbe} _ _ => ⟨tbe, rfl⟩
  | cons nack rest ih =>
    intro tbe first ordinary
    obtain ⟨next, set, still⟩ := setNack_ordinary first (ordinary nack List.mem_cons_self)
    rw [List.foldlM_cons, set]
    exact ih still fun nack listed => ordinary nack (List.mem_cons_of_mem _ listed)

/-- The nacks of ordinary transactions are collected. -/
theorem collectNacks_total (some_nack : nacks ≠ []) (ordinary : ∀ nack ∈ nacks, nack.Ordinary) :
    ∃ nack, collectNacks nacks = .ok (some nack) := by
  cases nacks with
  | nil => exact absurd rfl some_nack
  | cons first rest =>
    have now := ordinary first List.mem_cons_self
    obtain ⟨next, folded⟩ := foldlM_setNack_total now fun nack listed =>
      ordinary nack (List.mem_cons_of_mem _ listed)
    refine ⟨next, ?_⟩
    rw [collectNacks, List.foldlM_cons, setNack, assertThat_of now.source]
    exact folded

end Gem5.Ruby
