import Gem5.Foundation.Transition
import Gem5.Mem.Ruby.Htm.LazyTransactionCommitArbiter

/-!
# Commit-token arbitration of any number of processors

The token-policy arbiters of all processors share the request list of one `HTM`
object.  The system below interleaves their calls arbitrarily and keeps, beside
the state of the code, a history that numbers the token requests and records
which of them were granted or withdrawn; nothing in the code reads it.
-/

namespace Gem5.Ruby

open Foundation

/-- Token requests by number: how many were made, the last one of each processor, the granted
ones in the order of the grants, and those given up before a grant. -/
structure TokenHistory where
  requests : Nat
  ticket : Nat → Nat
  granted : List Nat
  withdrawn : List Nat

namespace TokenHistory

/-- Number a new request of the processor. -/
def request (history : TokenHistory) (proc : Nat) : TokenHistory :=
  { history with
    requests := history.requests + 1
    ticket := Function.update history.ticket proc history.requests }

/-- Record a grant to the processor. -/
def grant (history : TokenHistory) (proc : Nat) : TokenHistory :=
  { history with granted := history.granted ++ [history.ticket proc] }

/-- Record that the processor gave up before a grant. -/
def withdraw (history : TokenHistory) (proc : Nat) : TokenHistory :=
  { history with withdrawn := history.withdrawn ++ [history.ticket proc] }

/-- What the flags of the processor's arbiter before and after a call say about the token. -/
def observe (history : TokenHistory) (proc : Nat) (before after : LazyTransactionCommitArbiter) :
    TokenHistory :=
  let idleBefore := !before.validating && !before.validated
  let history :=
    if idleBefore && (after.validating || after.validated) then history.request proc else history
  if !before.validated && after.validated then history.grant proc
  else if before.validating && !after.validating then history.withdraw proc
  else history

/-- The requests that were not withdrawn, in order. -/
def kept (history : TokenHistory) : List Nat :=
  (List.range history.requests).filter (· ∉ history.withdrawn)

variable {history : TokenHistory} {proc : Nat}

private theorem kept_request (bounded : ∀ ticket ∈ history.withdrawn, ticket < history.requests) :
    (history.request proc).kept = history.kept ++ [history.requests] := by
  have fresh : history.requests ∉ history.withdrawn :=
    fun present => lt_irrefl _ (bounded _ present)
  simp only [kept, request, List.range_succ, List.filter_append]
  congr 1
  simp [fresh]

private theorem kept_withdraw :
    (history.withdraw proc).kept = history.kept.filter (· ≠ history.ticket proc) := by
  simp only [kept, withdraw, List.filter_filter]
  apply List.filter_congr
  intro ticket _
  simp [Bool.and_comm]

private theorem kept_nodup : history.kept.Nodup :=
  List.Nodup.filter _ List.nodup_range

end TokenHistory

/-- The arbiters of all processors, the shared request list, and the history. -/
structure TokenArbitration where
  arbiter : Nat → LazyTransactionCommitArbiter
  htm : HTM
  history : TokenHistory

/-- The calls a processor makes to its arbiter. -/
inductive ArbiterCall where
  | beginTransaction
  | initiateValidateTransaction
  | commitTransaction
  | restartTransaction
  deriving DecidableEq, Repr

namespace TokenArbitration

open LazyTransactionCommitArbiter

/-- No processor has started. -/
def init : TokenArbitration where
  arbiter _ := .idle
  htm := ⟨[]⟩
  history := ⟨0, fun _ => 0, [], []⟩

/-- The processors that have asked for the token and not got it, oldest first. -/
def waiting (s : TokenArbitration) : List Nat :=
  s.htm.commitTokenRequestList.filter fun proc => (s.arbiter proc).validating

/-- Store the outcome of a call of `proc` and extend the history. -/
def update (s : TokenArbitration) (proc : Nat) (arbiter : LazyTransactionCommitArbiter)
    (htm : HTM) : TokenArbitration where
  arbiter := Function.update s.arbiter proc arbiter
  htm := htm
  history := s.history.observe proc (s.arbiter proc) arbiter

/-- The call itself, on the caller's flags and the shared list. -/
def call (s : TokenArbitration) (proc : Nat) : ArbiterCall →
    Checked (LazyTransactionCommitArbiter × HTM)
  | .beginTransaction => do
    (s.arbiter proc).beginTransaction
    return (s.arbiter proc, s.htm)
  | .initiateValidateTransaction =>
    (s.arbiter proc).initiateValidateTransaction .token proc s.htm (.ok false)
  | .commitTransaction => (s.arbiter proc).commitTransaction .token proc s.htm
  | .restartTransaction => (s.arbiter proc).restartTransaction .token proc s.htm

/-- One call by one processor. -/
def step (s : TokenArbitration) (event : Nat × ArbiterCall) : Checked TokenArbitration := do
  let (arbiter, htm) ← s.call event.1 event.2
  return s.update event.1 arbiter htm

/-- Any interleaving of the arbiters' calls. -/
def system : TransitionSystem TokenArbitration (Nat × ArbiterCall) :=
  .ofExcept (· = init) step

/-- Everything one call of `proc` can do to the flags and the list. -/
inductive Outcome (s : TokenArbitration) (proc : Nat) : TokenArbitration → Prop where
  | unchanged : Outcome s proc (s.update proc (s.arbiter proc) s.htm)
  | wait (idle : s.arbiter proc = .idle) (absent : proc ∉ s.htm.commitTokenRequestList)
      (taken : s.htm.commitTokenRequestList ≠ []) :
      Outcome s proc
        (s.update proc ⟨true, false⟩ ⟨s.htm.commitTokenRequestList ++ [proc]⟩)
  | grantAtOnce (idle : s.arbiter proc = .idle) (free : s.htm.commitTokenRequestList = []) :
      Outcome s proc (s.update proc ⟨false, true⟩ ⟨[proc]⟩)
  | grant (validating : s.arbiter proc = ⟨true, false⟩)
      {rest : List Nat} (first : s.htm.commitTokenRequestList = proc :: rest) :
      Outcome s proc (s.update proc ⟨false, true⟩ s.htm)
  | release (validated : s.arbiter proc = ⟨false, true⟩)
      {rest : List Nat} (first : s.htm.commitTokenRequestList = proc :: rest) :
      Outcome s proc (s.update proc .idle ⟨rest⟩)
  | withdraw (validating : (s.arbiter proc).validating = true)
      (present : proc ∈ s.htm.commitTokenRequestList) :
      Outcome s proc (s.update proc .idle ⟨s.htm.commitTokenRequestList.erase proc⟩)

section Outcomes

variable {s : TokenArbitration} {proc : Nat} {result : LazyTransactionCommitArbiter × HTM}

private theorem outcome_of_validate
    (called : s.call proc .initiateValidateTransaction = .ok result) :
    Outcome s proc (s.update proc result.1 result.2) := by
  obtain ⟨validating, validated, flags⟩ : ∃ validating validated,
      s.arbiter proc = ⟨validating, validated⟩ := ⟨_, _, rfl⟩
  simp only [call, initiateValidateTransaction, flags, run_eq_ok] at called
  obtain ⟨rfl, called⟩ := called
  cases validating with
  | true =>
    simp only [↓reduceIte, run_eq_ok, exists_eq_left'] at called
    subst called
    by_cases owner : s.htm.getTokenOwner = some proc
    · obtain ⟨rest, first⟩ := List.head?_eq_some_iff.mp owner
      simpa [owner] using Outcome.grant flags first
    · simpa [owner, flags] using (Outcome.unchanged : Outcome s proc _)
  | false =>
    simp only [Bool.false_eq_true, ↓reduceIte, HTM.requestCommitToken, run_eq_ok] at called
    obtain ⟨htm, ⟨fresh, rfl⟩, rfl⟩ := called
    have absent : proc ∉ s.htm.commitTokenRequestList := fun present => fresh proc present rfl
    cases list : s.htm.commitTokenRequestList with
    | nil => simpa [HTM.getTokenOwner] using Outcome.grantAtOnce flags list
    | cons owner rest =>
      have other : owner ≠ proc := by
        rintro rfl
        simp [list] at absent
      have waits := Outcome.wait flags absent (by simp [list])
      simpa [HTM.getTokenOwner, other, list] using waits

private theorem outcome_of_release {htm : HTM} (validated : (s.arbiter proc).validated = true)
    (notValidating : (s.arbiter proc).validating = false)
    (released : s.htm.releaseCommitToken proc = .ok htm) :
    Outcome s proc (s.update proc .idle htm) := by
  simp only [HTM.releaseCommitToken, run_eq_ok] at released
  obtain ⟨-, owner, rfl⟩ := released
  obtain ⟨rest, first⟩ := List.head?_eq_some_iff.mp owner
  have flags : s.arbiter proc = ⟨false, true⟩ := by
    cases flags : s.arbiter proc
    simp_all
  simpa [first] using Outcome.release flags first

private theorem outcome_of_commit (called : s.call proc .commitTransaction = .ok result) :
    Outcome s proc (s.update proc result.1 result.2) := by
  simp only [call, commitTransaction, run_eq_ok] at called
  obtain ⟨validated, notValidating, htm, released, rfl⟩ := called
  exact outcome_of_release validated notValidating released

private theorem outcome_of_restart (called : s.call proc .restartTransaction = .ok result) :
    Outcome s proc (s.update proc result.1 result.2) := by
  simp only [call, restartTransaction] at called
  split at called
  · next validating =>
    simp only [run_eq_ok] at called
    obtain ⟨htm, removed, rfl⟩ := called
    by_cases present : proc ∈ s.htm.commitTokenRequestList
    · rw [HTM.removeCommitTokenRequest_of present, Except.ok.injEq] at removed
      subst removed
      exact Outcome.withdraw validating present
    · have notOwner : s.htm.getTokenOwner ≠ some proc :=
        fun owner => present (List.mem_of_mem_head? owner)
      simp [HTM.removeCommitTokenRequest, notOwner, present] at removed
  · next notValidating =>
    split at called
    · next validated =>
      simp only [run_eq_ok] at called
      obtain ⟨htm, released, rfl⟩ := called
      exact outcome_of_release validated (by simpa using notValidating) released
    · next notValidated =>
      simp only [run_eq_ok, exists_eq_left'] at called
      subst called
      have flags : s.arbiter proc = .idle := by
        cases flags : s.arbiter proc
        simp_all [LazyTransactionCommitArbiter.idle]
      simpa [flags] using (Outcome.unchanged : Outcome s proc _)

/-- A successful call has one of the outcomes. -/
theorem outcome_of_step {event : Nat × ArbiterCall} {next : TokenArbitration}
    (stepped : s.step event = .ok next) : Outcome s event.1 next := by
  obtain ⟨proc, kind⟩ := event
  simp only [step, run_eq_ok] at stepped
  obtain ⟨result, called, rfl⟩ := stepped
  cases kind with
  | beginTransaction =>
    simp only [call, run_eq_ok] at called
    obtain ⟨-, -, rfl⟩ := called
    exact Outcome.unchanged
  | initiateValidateTransaction => exact outcome_of_validate called
  | commitTransaction => exact outcome_of_commit called
  | restartTransaction => exact outcome_of_restart called

end Outcomes

/-- The list holds the processors with a flag set, each once, the validated one first; the
requests that were not withdrawn are the granted ones followed by the waiting ones. -/
structure Inv (s : TokenArbitration) : Prop where
  nodup : s.htm.commitTokenRequestList.Nodup
  mem_iff : ∀ proc, proc ∈ s.htm.commitTokenRequestList ↔
    (s.arbiter proc).validating = true ∨ (s.arbiter proc).validated = true
  exclusive : ∀ proc, (s.arbiter proc).validating = true → (s.arbiter proc).validated = false
  first_of_validated : ∀ proc, (s.arbiter proc).validated = true →
    s.htm.commitTokenRequestList.head? = some proc
  withdrawn_lt : ∀ ticket ∈ s.history.withdrawn, ticket < s.history.requests
  tickets : s.history.kept = s.history.granted ++ s.waiting.map s.history.ticket

namespace Inv

variable {s : TokenArbitration} {proc : Nat}

private theorem initial : Inv init := by
  constructor <;> simp [init, waiting, TokenHistory.kept]

private theorem filter_update_of_notMem {list : List Nat} (absent : proc ∉ list)
    (arbiter : LazyTransactionCommitArbiter) :
    list.filter (fun other => (Function.update s.arbiter proc arbiter other).validating) =
      list.filter (fun other => (s.arbiter other).validating) := by
  apply List.filter_congr
  intro other present
  have different : other ≠ proc := fun same => absent (same ▸ present)
  simp [different]

private theorem map_update_of_notMem {list : List Nat} {ticket : Nat → Nat} {number : Nat}
    (absent : proc ∉ list) : list.map (Function.update ticket proc number) = list.map ticket := by
  apply List.map_congr_left
  intro other present
  have different : other ≠ proc := fun same => absent (same ▸ present)
  simp [different]

private theorem update_self (s : TokenArbitration) (proc : Nat) :
    s.update proc (s.arbiter proc) s.htm = s := by
  obtain ⟨arbiter, htm, history⟩ := s
  cases flags : arbiter proc with
  | mk validating validated =>
    cases validating <;> cases validated <;> simp [update, TokenHistory.observe, flags]

variable (inv : Inv s)

include inv

/-- A call sets the flags of its caller only.  The list keeps the other processors, and one of them
that has validated stays first. -/
private theorem of_update {arbiter : LazyTransactionCommitArbiter} {htm : HTM} {h : TokenHistory}
    (observed : s.history.observe proc (s.arbiter proc) arbiter = h)
    (nodup : htm.commitTokenRequestList.Nodup)
    (own : proc ∈ htm.commitTokenRequestList ↔ arbiter.validating = true ∨ arbiter.validated = true)
    (exclusive : arbiter.validating = true → arbiter.validated = false)
    (ownFirst : arbiter.validated = true → htm.commitTokenRequestList.head? = some proc)
    (others : ∀ other, other ≠ proc →
      (other ∈ htm.commitTokenRequestList ↔ other ∈ s.htm.commitTokenRequestList))
    (first : ∀ other, other ≠ proc → s.htm.commitTokenRequestList.head? = some other →
      (s.arbiter other).validated = true → htm.commitTokenRequestList.head? = some other)
    (withdrawn : ∀ ticket ∈ h.withdrawn, ticket < h.requests)
    (tickets : h.kept = h.granted ++ (s.update proc arbiter htm).waiting.map h.ticket) :
    Inv (s.update proc arbiter htm) := by
  subst observed
  refine ⟨nodup, fun other => ?_, fun other => ?_, fun other validated => ?_, withdrawn, tickets⟩
  · by_cases same : other = proc
    · simpa [update, same] using own
    · simpa [update, same] using (others other same).trans (inv.mem_iff other)
  · by_cases same : other = proc
    · simpa [update, same] using exclusive
    · simpa [update, same] using inv.exclusive other
  · by_cases same : other = proc
    · simp only [update, same, Function.update_self] at validated ⊢
      exact ownFirst validated
    · simp only [update, Function.update_of_ne same] at validated
      exact first other same (inv.first_of_validated other validated) validated

private theorem wait (idle : s.arbiter proc = .idle)
    (absent : proc ∉ s.htm.commitTokenRequestList) :
    Inv (s.update proc ⟨true, false⟩ ⟨s.htm.commitTokenRequestList ++ [proc]⟩) := by
  have waits : (s.update proc ⟨true, false⟩ ⟨s.htm.commitTokenRequestList ++ [proc]⟩).waiting =
      s.waiting ++ [proc] := by
    simp [waiting, update, filter_update_of_notMem absent]
  refine inv.of_update (h := s.history.request proc) ?_ ?_ (by simp) (by simp) (by simp)
    (fun other different => by simp [different]) (fun other _ first _ => by simp [first]) ?_ ?_
  · simp [TokenHistory.observe, idle]
  · simp only [List.nodup_append, inv.nodup, true_and]
    simpa using fun other present (same : other = proc) => absent (same ▸ present)
  · exact fun ticket withdrawn => Nat.lt_succ_of_lt (inv.withdrawn_lt ticket withdrawn)
  · have notWaiting : proc ∉ s.waiting := fun present => absent (List.mem_of_mem_filter present)
    rw [waits, TokenHistory.kept_request inv.withdrawn_lt, inv.tickets]
    simp [TokenHistory.request, map_update_of_notMem notWaiting]

private theorem grantAtOnce (idle : s.arbiter proc = .idle)
    (free : s.htm.commitTokenRequestList = []) : Inv (s.update proc ⟨false, true⟩ ⟨[proc]⟩) := by
  refine inv.of_update (h := (s.history.request proc).grant proc) ?_ (by simp) (by simp)
    (by simp) (by simp) (fun other different => by simp [free, different])
    (fun other _ first => by simp [free] at first) ?_ ?_
  · simp [TokenHistory.observe, idle]
  · exact fun ticket withdrawn => Nat.lt_succ_of_lt (inv.withdrawn_lt ticket withdrawn)
  · have noneWaits : s.waiting = [] := by simp [waiting, free]
    change (s.history.request proc).kept = _
    rw [TokenHistory.kept_request inv.withdrawn_lt, inv.tickets, noneWaits]
    simp [waiting, update, TokenHistory.grant, TokenHistory.request]

private theorem grant (validating : s.arbiter proc = ⟨true, false⟩)
    {rest : List Nat} (first : s.htm.commitTokenRequestList = proc :: rest) :
    Inv (s.update proc ⟨false, true⟩ s.htm) := by
  have absent : proc ∉ rest := by
    have := inv.nodup
    simp_all
  refine inv.of_update (h := s.history.grant proc) ?_ inv.nodup (by simp [first]) (by simp)
    (by simp [first]) (fun _ _ => Iff.rfl) (fun _ _ first _ => first) inv.withdrawn_lt ?_
  · simp [TokenHistory.observe, validating]
  · change s.history.kept = _
    rw [inv.tickets]
    simp [waiting, update, first, validating, filter_update_of_notMem absent, TokenHistory.grant]

private theorem release (validated : s.arbiter proc = ⟨false, true⟩)
    {rest : List Nat} (first : s.htm.commitTokenRequestList = proc :: rest) :
    Inv (s.update proc .idle ⟨rest⟩) := by
  have unique : proc ∉ rest ∧ rest.Nodup := by
    have := inv.nodup
    simp_all
  refine inv.of_update (h := s.history) ?_ unique.2
    (by simp [unique.1]) (fun _ => rfl)
    (by simp)
    (fun other different => by simp [first, different]) ?_ inv.withdrawn_lt ?_
  · simp [TokenHistory.observe, validated]
  · intro other different isFirst
    simp [first, different.symm] at isFirst
  · rw [inv.tickets]
    simp [waiting, update, first, validated, filter_update_of_notMem unique.1]

private theorem withdraw (validating : (s.arbiter proc).validating = true)
    (present : proc ∈ s.htm.commitTokenRequestList) :
    Inv (s.update proc .idle ⟨s.htm.commitTokenRequestList.erase proc⟩) := by
  have notValidated := inv.exclusive proc validating
  have waits : (s.update proc .idle ⟨s.htm.commitTokenRequestList.erase proc⟩).waiting =
      s.waiting.filter (· ≠ proc) := by
    simp only [waiting, update, inv.nodup.erase_eq_filter, List.filter_filter]
    apply List.filter_congr
    intro other _
    by_cases same : other = proc
    · simp [same]
    · simp [same]
  have isWaiting : proc ∈ s.waiting := by simp [waiting, present, validating]
  -- The numbers of the kept requests differ, so the caller's number is neither granted nor
  -- the number of another waiting processor.
  have distinct : (s.history.granted ++ s.waiting.map s.history.ticket).Nodup :=
    inv.tickets ▸ TokenHistory.kept_nodup
  have notGranted : ∀ ticket ∈ s.history.granted, ticket ≠ s.history.ticket proc := by
    intro ticket granted same
    exact (List.nodup_append.mp distinct).2.2 ticket granted _ (List.mem_map_of_mem isWaiting) same
  have injective := List.inj_on_of_nodup_map (List.nodup_append.mp distinct).2.1
  refine inv.of_update (h := s.history.withdraw proc) ?_ (inv.nodup.erase proc)
    (by simp [inv.nodup.mem_erase_iff]) (fun _ => rfl)
    (by simp)
    (fun other different => List.mem_erase_of_ne different) ?_ ?_ ?_
  · simp [TokenHistory.observe, validating, notValidated]
  · intro other different first _
    obtain ⟨rest, list⟩ := List.head?_eq_some_iff.mp first
    simp [list, List.erase_cons_tail, different]
  · intro ticket withdrawn
    rcases List.mem_append.mp withdrawn with before | now
    · exact inv.withdrawn_lt ticket before
    · have kept : s.history.ticket proc ∈ s.history.kept := by
        rw [inv.tickets]
        exact List.mem_append_right _ (List.mem_map_of_mem isWaiting)
      have : s.history.ticket proc < s.history.requests :=
        List.mem_range.mp (List.mem_of_mem_filter kept)
      simpa [List.mem_singleton.mp now, TokenHistory.withdraw] using this
  · rw [waits, TokenHistory.kept_withdraw, inv.tickets, List.filter_append]
    congr 1
    · exact List.filter_eq_self.mpr fun ticket granted => by simpa using notGranted ticket granted
    · rw [List.filter_map]
      congr 1
      apply List.filter_congr
      intro other otherWaits
      have : s.history.ticket other = s.history.ticket proc ↔ other = proc :=
        ⟨fun same => injective otherWaits isWaiting same, fun same => same ▸ rfl⟩
      simp [this]

/-- Every call keeps the invariant. -/
theorem preserved {next : TokenArbitration} (outcome : Outcome s proc next) : Inv next := by
  cases outcome with
  | unchanged => rwa [update_self]
  | wait idle absent _ => exact inv.wait idle absent
  | grantAtOnce idle free => exact inv.grantAtOnce idle free
  | grant validating first => exact inv.grant validating first
  | release validated first => exact inv.release validated first
  | withdraw validating present => exact inv.withdraw validating present

end Inv

/-- The invariant of the system. -/
theorem invariant : system.Invariant Inv where
  initial := by
    rintro _ rfl
    exact Inv.initial
  preserved inv transition := inv.preserved (outcome_of_step transition)

/-- A call its caller may make: transactions begin and commit with the flags the arbiter
asserts, and validation is not asked for again once it has succeeded. -/
def Admits (s : TokenArbitration) (proc : Nat) : ArbiterCall → Prop
  | .beginTransaction => s.arbiter proc = .idle
  | .initiateValidateTransaction => (s.arbiter proc).validated = false
  | .commitTransaction => (s.arbiter proc).validated = true
  | .restartTransaction => True

/-- Under the invariant no admitted call stops at an assertion. -/
theorem Inv.call_ok {s : TokenArbitration} {proc : Nat} {kind : ArbiterCall} (inv : Inv s)
    (admitted : s.Admits proc kind) : ∃ result, s.call proc kind = .ok result := by
  have listed := inv.mem_iff proc
  cases kind with
  | beginTransaction =>
    have flags : s.arbiter proc = .idle := admitted
    simp [call, beginTransaction, flags, assertThat, pure, Except.pure]
  | initiateValidateTransaction =>
    have notValidated : (s.arbiter proc).validated = false := admitted
    cases validating : (s.arbiter proc).validating with
    | true =>
      simp [call, initiateValidateTransaction, notValidated, validating, assertThat, pure,
        Except.pure]
    | false =>
      have absent : proc ∉ s.htm.commitTokenRequestList := by
        simp [listed, validating, notValidated]
      simp [call, initiateValidateTransaction, notValidated, validating,
        HTM.requestCommitToken_of absent, assertThat, pure, Except.pure]
  | commitTransaction =>
    have validated : (s.arbiter proc).validated = true := admitted
    have notValidating : (s.arbiter proc).validating = false := by
      cases validating : (s.arbiter proc).validating with
      | true => simp [inv.exclusive proc validating] at validated
      | false => rfl
    obtain ⟨rest, first⟩ := List.head?_eq_some_iff.mp (inv.first_of_validated proc validated)
    simp [call, commitTransaction, validated, notValidating,
      HTM.releaseCommitToken_of first, assertThat, pure, Except.pure]
  | restartTransaction =>
    cases validating : (s.arbiter proc).validating with
    | true =>
      have present : proc ∈ s.htm.commitTokenRequestList := by simp [listed, validating]
      simp [call, restartTransaction, validating,
        HTM.removeCommitTokenRequest_of present, pure, Except.pure]
    | false =>
      cases validated : (s.arbiter proc).validated with
      | true =>
        obtain ⟨rest, first⟩ := List.head?_eq_some_iff.mp (inv.first_of_validated proc validated)
        simp [call, restartTransaction, validating, validated,
          HTM.releaseCommitToken_of first, pure, Except.pure]
      | false =>
        simp [call, restartTransaction, validating, validated, pure, Except.pure]

/-- Commit-token mutual exclusion over every interleaving: the list holds exactly the
processors that validate or have validated, each once, a validated one first, so at most one
is validated; grants come in the order of the requests and pass over withdrawn ones only; and
no admitted call fails an assertion of the list or of the arbiter. -/
theorem commitToken_mutualExclusion {s : TokenArbitration} (reachable : system.Reachable s) :
    s.htm.commitTokenRequestList.Nodup ∧
    (∀ proc, proc ∈ s.htm.commitTokenRequestList ↔
      (s.arbiter proc).validating = true ∨ (s.arbiter proc).validated = true) ∧
    (∀ proc, (s.arbiter proc).validated = true → s.htm.commitTokenRequestList.head? = some proc) ∧
    (∀ first second, (s.arbiter first).validated = true → (s.arbiter second).validated = true →
      first = second) ∧
    s.history.granted.Pairwise (· < ·) ∧
    (∀ newer ∈ s.history.granted, ∀ older < newer, older ∉ s.history.withdrawn →
      older ∈ s.history.granted) ∧
    (∀ proc kind, s.Admits proc kind → ∃ next, s.step (proc, kind) = .ok next) := by
  have inv : Inv s := invariant.of_reachable reachable
  have sorted : s.history.kept.Pairwise (· < ·) := List.Pairwise.filter _ List.pairwise_lt_range
  refine ⟨inv.nodup, inv.mem_iff, inv.first_of_validated, ?_, ?_, ?_, ?_⟩
  · intro first second validatedFirst validatedSecond
    have := inv.first_of_validated first validatedFirst
    have := inv.first_of_validated second validatedSecond
    simp_all
  · rw [inv.tickets, List.pairwise_append] at sorted
    exact sorted.1
  · intro newer granted older order stays
    rw [inv.tickets, List.pairwise_append] at sorted
    have newerKept : newer ∈ s.history.kept := by
      rw [inv.tickets]
      exact List.mem_append_left _ granted
    have newerMade : newer < s.history.requests :=
      List.mem_range.mp (List.mem_of_mem_filter newerKept)
    have olderKept : older ∈ s.history.kept := by
      simp only [TokenHistory.kept, List.mem_filter, List.mem_range]
      exact ⟨by omega, by simpa using stays⟩
    rw [inv.tickets] at olderKept
    rcases List.mem_append.mp olderKept with isGranted | waits
    · exact isGranted
    · have := sorted.2.2 newer granted older waits
      omega
  · intro proc kind admitted
    obtain ⟨result, called⟩ := inv.call_ok admitted
    exact ⟨_, by simp only [step, called, ok_bind]; rfl⟩

/-- Processor 1 asks while processor 0 holds the token, processor 2 gives up behind it, and
processor 1 is granted the token once processor 0 commits. -/
theorem commitToken_mutualExclusion_handover : ∃ s, system.Reachable s ∧
    s.htm.commitTokenRequestList = [1] ∧ s.history.granted = [0, 1] ∧
    s.history.withdrawn = [2] ∧ s.htm.commitTokenRequestList.Nodup := by
  have run : ∃ s, [(0, .initiateValidateTransaction), (1, .initiateValidateTransaction),
      (2, .initiateValidateTransaction), (2, .restartTransaction), (0, .commitTransaction),
      (1, ArbiterCall.initiateValidateTransaction)].foldlM step init = .ok s ∧
      s.htm.commitTokenRequestList = [1] ∧ s.history.granted = [0, 1] ∧
      s.history.withdrawn = [2] := ⟨_, rfl, rfl, rfl, rfl⟩
  obtain ⟨s, steps, list, granted, withdrawn⟩ := run
  have reachable : system.Reachable s :=
    (TransitionSystem.Reachable.of_initial rfl).steps (.of_foldlM steps)
  exact ⟨s, reachable, list, granted, withdrawn, (commitToken_mutualExclusion reachable).1⟩

end TokenArbitration

end Gem5.Ruby
