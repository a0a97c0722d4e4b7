import Gem5.Mem.Ruby.Common

/-!
# The request table of `Sequencer`

The sequencer keeps the requests that the cache has not answered yet.  Requests for one
line wait behind each other; the answer to the first one completes those behind it up
to one that has to be issued on its own.  The table is one list: the requests of a line
are those with its address, oldest first.  Load-linked and store-conditional requests,
the deadlock check and statistics are left out.
-/

namespace Gem5.Ruby

open Foundation

/-- `RequestStatus`. -/
inductive RequestStatus where
  | ready
  | issued
  | bufferFull
  | aliased
  | aliasedNotIssued
  deriving DecidableEq, Repr

/-- `SequencerRequest`, with what is read of its packet: the line, the transaction it belongs to,
and whether it validates forwarded data. -/
structure SequencerRequest where
  line : Addr
  type : RubyRequestType
  uid : Option Nat
  validation : Bool := false
  suppressed : Bool := false
  deriving DecidableEq, Repr

/-- `canCoalesceRequest`: a request waits only behind requests of its own transaction, or outside
transactions behind other such requests. -/
def SequencerRequest.canCoalesceRequest (pkt last : SequencerRequest) : Bool :=
  match pkt.uid, last.uid with
  | some uid, some lastUid => lastUid = uid
  | none, none => true
  | _, _ => false

private theorem SequencerRequest.canCoalesceRequest_eq_true {pkt last : SequencerRequest} :
    pkt.canCoalesceRequest last = true ↔ last.uid = pkt.uid := by
  unfold canCoalesceRequest
  cases pkt.uid <;> cases last.uid <;> simp

/-- The validations of forwarded data made by one transaction. -/
def SequencerRequest.validates (uid : Nat) (request : SequencerRequest) : Bool :=
  request.validation && request.uid = some uid

/-- The sequencer of a core.  `blocked` are the lines the controller blocks between the read and
the write of a locked access, `reservedMshrs` the entries LogTM keeps free for its log. -/
structure Sequencer where
  requestTable : List SequencerRequest
  blocked : Std.ExtTreeSet Addr
  outstandingTransLockedRMWAccesses : Std.ExtTreeSet Addr
  maxOutstandingRequests : Nat
  reservedMshrs : Nat
  /-- Requests for one line belong together. -/
  coalesced : ∀ first ∈ requestTable, ∀ second ∈ requestTable,
    first.line = second.line → first.uid = second.uid

namespace Sequencer

variable (sequencer : Sequencer)

/-- A sequencer without requests. -/
def init (maxOutstandingRequests : Nat) : Sequencer :=
  ⟨[], ∅, ∅, maxOutstandingRequests, 0, by simp⟩

/-- The requests of a line, oldest first. -/
def requests (line : Addr) : List SequencerRequest :=
  sequencer.requestTable.filter (·.line = line)

/-- The request of a line that the cache works on, `seq_req_list.front()`. -/
def front (line : Addr) : Option SequencerRequest :=
  sequencer.requestTable.find? (·.line = line)

/-- `getPacketFromRequestTable`, for all lines: the transactions of the first packets. -/
def packetUids : Std.ExtTreeMap Addr Nat :=
  sequencer.requestTable.foldl (fun uids request =>
    match request.uid with
    | some uid => uids.insertIfNew request.line uid
    | none => uids) ∅

/-- The lines that a transaction validates with an inserted request. -/
def validations (uid : Nat) : List Addr :=
  (sequencer.requestTable.filter (·.validates uid)).map (·.line)

/-- `canMakeRequest`. -/
def canMakeRequest : Bool :=
  sequencer.requestTable.length + sequencer.reservedMshrs < sequencer.maxOutstandingRequests

/-- The requests of a line agree with the last one on their transaction. -/
theorem uid_of_getLast {line : Addr} {last : SequencerRequest}
    (found : (sequencer.requests line).getLast? = some last) :
    ∀ request ∈ sequencer.requestTable, request.line = line → request.uid = last.uid := by
  intro request listed same
  have member := List.mem_of_getLast? found
  simp only [requests, List.mem_filter, decide_eq_true_eq] at member
  exact sequencer.coalesced request listed last member.1 (same.trans member.2.symm)

/-- A request is appended behind requests it can be coalesced with. -/
def append (pkt : SequencerRequest)
    (alike : ∀ request ∈ sequencer.requestTable, request.line = pkt.line →
      request.uid = pkt.uid) : Sequencer :=
  { sequencer with
    requestTable := sequencer.requestTable ++ [pkt]
    coalesced := by
      intro first firstListed second secondListed same
      simp only [List.mem_append, List.mem_singleton] at firstListed secondListed
      rcases firstListed with before | rfl
      · rcases secondListed with other | rfl
        · exact sequencer.coalesced first before second other same
        · exact alike first before same
      · rcases secondListed with other | rfl
        · exact (alike second other same.symm).symm
        · rfl }

/-- `insertRequest`. -/
def insertRequest (pkt : SequencerRequest) : RequestStatus × Sequencer :=
  match found : (sequencer.requests pkt.line).getLast? with
  | some last =>
    if coalesces : pkt.canCoalesceRequest last = true then
      (.aliased, sequencer.append pkt fun request listed same =>
        (sequencer.uid_of_getLast found request listed same).trans
          (SequencerRequest.canCoalesceRequest_eq_true.mp coalesces))
    else (.aliasedNotIssued, sequencer)
  | none =>
    (.ready, sequencer.append pkt fun request listed same => by
      simp only [requests, List.getLast?_eq_none_iff, List.filter_eq_nil_iff,
        decide_eq_true_eq] at found
      exact absurd same (found request listed))

/-- `makeRequest`: a request for a line that a locked access has blocked is reported as aliased
without being inserted, one inserted behind another request is reported as issued. -/
def makeRequest (pkt : SequencerRequest) : RequestStatus × Sequencer :=
  if !sequencer.canMakeRequest then (.bufferFull, sequencer)
  else if sequencer.blocked.contains pkt.line && pkt.type ≠ .lockedRmwWrite then
    (.aliased, sequencer)
  else match sequencer.insertRequest pkt with
    | (.aliasedNotIssued, sequencer) => (.aliasedNotIssued, sequencer)
    | (_, sequencer) => (.issued, sequencer)

/-- The loop of the callbacks over the requests of a line.  The first one is always completed; the
loop ends at an aliased request that `stops` it, which is issued to the cache. -/
def complete (stops : SequencerRequest → Bool) (line : Addr) :
    Bool → List SequencerRequest → List SequencerRequest
  | _, [] => []
  | rubyRequest, request :: rest =>
    if request.line = line then
      if !rubyRequest && stops request then request :: rest
      else complete stops line false rest
    else request :: complete stops line rubyRequest rest

private theorem complete_sublist {stops : SequencerRequest → Bool} {line : Addr} :
    ∀ {rubyRequest : Bool} {table : List SequencerRequest},
      (complete stops line rubyRequest table).Sublist table
  | _, [] => .slnil
  | rubyRequest, request :: rest => by
    unfold complete
    repeat' split
    · exact .refl _
    · exact .cons _ complete_sublist
    · exact .cons_cons _ complete_sublist

/-- The requests that are completed together. -/
def completed (stops : SequencerRequest → Bool) (line : Addr) : List SequencerRequest :=
  match sequencer.requests line with
  | [] => []
  | first :: rest => first :: rest.takeWhile fun request => !stops request

/-- The completed requests leave the table. -/
def release (stops : SequencerRequest → Bool) (line : Addr) : Sequencer :=
  { sequencer with
    requestTable := complete stops line true sequencer.requestTable
    coalesced := fun first firstListed second secondListed =>
      sequencer.coalesced first (complete_sublist.subset firstListed) second
        (complete_sublist.subset secondListed) }

/-- A locked read blocks its line until the locked write; one that failed does not. -/
def lock (failed : Bool) (blocked : Std.ExtTreeSet Addr) (request : SequencerRequest) :
    Std.ExtTreeSet Addr :=
  match request.type with
  | .lockedRmwRead => if failed then blocked.erase request.line else blocked.insert request.line
  | .lockedRmwWrite => blocked.erase request.line
  | .ld | .ifetch | .st | .rmwRead => blocked

/-- `readCallback`. -/
def readCallback (line : Addr) : Checked Sequencer :=
  match sequencer.front line with
  | none => .error (.assertion "m_RequestTable.find(address) != m_RequestTable.end()")
  | some first => do
    assertThat (first.type.isLoad = true) "seq_req.m_type == RubyRequestType_LD"
    return sequencer.release (fun request => !request.type.isLoad || request.validation) line

/-- `Sequencer::writeCallback`; `failed` tells the callback of a nacked request. -/
def writeCallback (line : Addr) (failed : Bool) : Checked Sequencer :=
  match sequencer.front line with
  | none => .error (.assertion "m_RequestTable.find(address) != m_RequestTable.end()")
  | some first => do
    assertThat (first.type.isLoad = false) "seq_req.m_type != RubyRequestType_LD"
    let stops := fun request : SequencerRequest => request.validation
    return { sequencer.release stops line with
      blocked := (sequencer.completed stops line).foldl (lock failed) sequencer.blocked }

/-- The request that `TransactionalSequencer::writeCallback` looks at: the first one, or on a
consumed block a locked read aliased with it. -/
def trackedRequest (line : Addr) (spec : Bool) : Option SequencerRequest :=
  let requests := sequencer.requests line
  if spec then (requests.find? (·.type = .lockedRmwRead)).or requests.head? else requests.head?

/-- Locked accesses of the transaction are followed, to unblock their line if it aborts. -/
def trackLocked (request : SequencerRequest) : Checked Sequencer :=
  if request.uid.isSome then
    match request.type with
    | .lockedRmwRead => do
      assertThat (sequencer.outstandingTransLockedRMWAccesses.contains request.line = false)
        "outstandingTransLockedRMWAccesses[address] == 0"
      return { sequencer with outstandingTransLockedRMWAccesses :=
        sequencer.outstandingTransLockedRMWAccesses.insert request.line }
    | .lockedRmwWrite => do
      assertThat (sequencer.outstandingTransLockedRMWAccesses.contains request.line = true)
        "outstandingTransLockedRMWAccesses[address] == 1"
      return { sequencer with outstandingTransLockedRMWAccesses :=
        sequencer.outstandingTransLockedRMWAccesses.erase request.line }
    | .ld | .ifetch | .st | .rmwRead => return sequencer
  else return sequencer

/-- `TransactionalSequencer::writeCallback`; `spec` tells a line with a consumed block, on which a
load is completed as such. -/
def specWriteCallback (line : Addr) (spec : Bool) : Checked Sequencer :=
  match sequencer.front line, sequencer.trackedRequest line spec with
  | some first, some tracked =>
    if spec && first.type.isLoad then sequencer.readCallback line
    else do
      let next ← sequencer.writeCallback line false
      next.trackLocked tracked
  | _, _ => .error (.assertion "m_RequestTable.find(address) != m_RequestTable.end()")

/-- `suppressOutstandingRequests` and the unblocking of an aborted transaction's locked line. -/
def abortTransaction : Sequencer :=
  { sequencer with
    requestTable := sequencer.requestTable.map fun request =>
      { request with suppressed := request.suppressed || request.uid.isSome }
    blocked := sequencer.outstandingTransLockedRMWAccesses.toList.foldl (·.erase ·)
      sequencer.blocked
    outstandingTransLockedRMWAccesses := ∅
    coalesced := by
      simp only [List.mem_map]
      rintro _ ⟨first, firstListed, rfl⟩ _ ⟨second, secondListed, rfl⟩
      exact sequencer.coalesced first firstListed second secondListed }

section Requests

variable {sequencer} {next : Sequencer} {pkt : SequencerRequest} {status : RequestStatus}

private theorem insertRequest_cases (inserted : sequencer.insertRequest pkt = (status, next)) :
    (status = .aliasedNotIssued ∧ next = sequencer) ∨
      (status ≠ .aliasedNotIssued ∧ next.requestTable = sequencer.requestTable ++ [pkt]) := by
  unfold insertRequest at inserted
  split at inserted
  · split at inserted
    · obtain ⟨rfl, rfl⟩ := Prod.mk.inj inserted
      exact .inr ⟨by simp, rfl⟩
    · obtain ⟨rfl, rfl⟩ := Prod.mk.inj inserted
      exact .inl ⟨rfl, rfl⟩
  · obtain ⟨rfl, rfl⟩ := Prod.mk.inj inserted
    exact .inr ⟨by simp, rfl⟩

/-- A request is issued exactly when it enters the table; it is reported as aliased only for a
blocked line. -/
theorem makeRequest_cases (made : sequencer.makeRequest pkt = (status, next)) :
    (status = .issued ∧ next.requestTable = sequencer.requestTable ++ [pkt]) ∨
      (status ≠ .issued ∧ next = sequencer ∧
        (status = .aliased → sequencer.blocked.contains pkt.line = true)) := by
  unfold makeRequest at made
  split at made
  · obtain ⟨rfl, rfl⟩ := Prod.mk.inj made
    exact .inr ⟨by simp, rfl, by simp⟩
  split at made
  · next blocked =>
    obtain ⟨rfl, rfl⟩ := Prod.mk.inj made
    exact .inr ⟨by simp, rfl, fun _ => (Bool.and_eq_true_iff.mp blocked).1⟩
  split at made
  · next inserted =>
    obtain ⟨rfl, rfl⟩ := Prod.mk.inj made
    rcases insertRequest_cases inserted with ⟨-, rfl⟩ | ⟨other, -⟩
    · exact .inr ⟨by simp, rfl, by simp⟩
    · exact absurd rfl other
  · next accepted inserted =>
    obtain ⟨rfl, rfl⟩ := Prod.mk.inj made
    rcases insertRequest_cases inserted with ⟨refused, -⟩ | ⟨-, appended⟩
    · exact absurd refused accepted
    · exact .inl ⟨rfl, appended⟩

private theorem foldl_packetUids {line : Addr} {uid : Nat} {table : List SequencerRequest} :
    ∀ {uids : Std.ExtTreeMap Addr Nat}, (table.foldl (fun uids request => match request.uid with
        | some uid => uids.insertIfNew request.line uid
        | none => uids) uids)[line]? = some uid →
      uids[line]? = some uid ∨ ∃ request ∈ table, request.line = line ∧ request.uid = some uid := by
  induction table with
  | nil => exact fun found => .inl found
  | cons request rest ih =>
    intro uids found
    rw [List.foldl_cons] at found
    rcases ih found with before | ⟨other, listed, same⟩
    · split at before
      · next own packet =>
        rw [Std.ExtTreeMap.getElem?_insertIfNew] at before
        split at before
        · next first =>
          obtain rfl := Option.some.inj before
          exact .inr ⟨request, List.mem_cons_self, compare_eq_iff_eq.mp first.1, packet⟩
        · exact .inl before
      · exact .inl before
    · exact .inr ⟨other, List.mem_cons_of_mem _ listed, same⟩

/-- The transaction found in the request table is that of every request for the line. -/
theorem uid_of_packetUids {line : Addr} {uid : Nat}
    (found : sequencer.packetUids[line]? = some uid) :
    ∀ request ∈ sequencer.requestTable, request.line = line → request.uid = some uid := by
  intro request listed same
  rcases foldl_packetUids found with nothing | ⟨first, firstListed, firstLine, packet⟩
  · simp at nothing
  · rw [← packet]
    exact sequencer.coalesced request listed first firstListed (same.trans firstLine.symm)

end Requests

section Completion

variable {stops chosen : SequencerRequest → Bool} {line : Addr} {table : List SequencerRequest}

variable (stopped : ∀ request, chosen request = true → stops request = true)

include stopped

private theorem filter_complete_false :
    (complete stops line false table).filter chosen = table.filter chosen := by
  induction table with
  | nil => rfl
  | cons request rest ih =>
    unfold complete
    split
    · cases ends : stops request with
      | true => simp
      | false =>
        have passed : chosen request = false := by
          by_contra hit
          simp [stopped request (by simpa using hit)] at ends
        simp [passed, ih]
    · rw [List.filter_cons, List.filter_cons, ih]

/-- Requests that end the loop are only completed at the front. -/
theorem filter_complete_of_other
    (other : ∀ first ∈ table.find? (·.line = line), chosen first = false) :
    (complete stops line true table).filter chosen = table.filter chosen := by
  induction table with
  | nil => rfl
  | cons request rest ih =>
    unfold complete
    split
    · next same =>
      have passed : chosen request = false := other request (by simp [same])
      simp [passed, filter_complete_false stopped]
    · next apart =>
      have behind : ∀ first ∈ rest.find? (·.line = line), chosen first = false := by
        simpa [List.find?_cons, apart] using other
      rw [List.filter_cons, List.filter_cons, ih behind]

private theorem filter_complete_of_front {first : SequencerRequest}
    (found : table.find? (·.line = line) = some first) (hit : chosen first = true) :
    (complete stops line true table).filter chosen =
      (table.filter chosen).eraseP (·.line = line) := by
  induction table with
  | nil => simp at found
  | cons request rest ih =>
    unfold complete
    split
    · next same =>
      obtain rfl : request = first := by simpa [List.find?_cons, same] using found
      simp [hit, same, filter_complete_false stopped]
    · next apart =>
      have behind : rest.find? (·.line = line) = some first := by
        simpa [List.find?_cons, apart] using found
      rw [List.filter_cons, List.filter_cons, ih behind]
      split
      · simp [apart]
      · rfl

end Completion

/-- A callback completes requests for a line; a validation is completed only at the front. -/
def Completes (sequencer next : Sequencer) (line : Addr) : Prop :=
  ∃ stops : SequencerRequest → Bool, (∀ request, request.validation = true → stops request = true) ∧
      next.requestTable = complete stops line true sequencer.requestTable

namespace Completes

variable {sequencer} {next : Sequencer} {line : Addr}

/-- A load's callback completes its line. -/
theorem of_readCallback (called : sequencer.readCallback line = .ok next) :
    Completes sequencer next line := by
  unfold readCallback at called
  split at called
  · simp at called
  · simp only [run_eq_ok] at called
    obtain ⟨-, rfl⟩ := called
    exact ⟨_, fun _ validation => by simp [validation], rfl⟩

/-- A store's callback completes its line. -/
theorem of_writeCallback {failed : Bool} (called : sequencer.writeCallback line failed = .ok next) :
    Completes sequencer next line := by
  unfold writeCallback at called
  split at called
  · simp at called
  · simp only [run_eq_ok] at called
    obtain ⟨-, rfl⟩ := called
    exact ⟨_, fun _ validation => validation, rfl⟩

/-- A speculative store's callback completes its line. -/
theorem of_specWriteCallback {spec : Bool}
    (called : sequencer.specWriteCallback line spec = .ok next) :
    Completes sequencer next line := by
  unfold specWriteCallback at called
  split at called
  · split at called
    · exact of_readCallback called
    · simp only [bind_eq_ok] at called
      obtain ⟨middle, written, tracked⟩ := called
      have same : next.requestTable = middle.requestTable := by
        unfold trackLocked at tracked
        repeat' split at tracked
        all_goals simp only [run_eq_ok] at tracked
        all_goals grind
      obtain ⟨stops, stopped, completed⟩ := of_writeCallback written
      exact ⟨stops, stopped, same.trans completed⟩
  · simp at called

/-- A callback adds no request. -/
theorem subset (completes : Completes sequencer next line) :
    ∀ request ∈ next.requestTable, request ∈ sequencer.requestTable := by
  obtain ⟨stops, -, completed⟩ := completes
  rw [completed]
  exact fun _ listed => complete_sublist.subset listed

private theorem stopped_of_validates {stops : SequencerRequest → Bool} {uid : Nat}
    (stopped : ∀ request, request.validation = true → stops request = true) :
    ∀ request : SequencerRequest, request.validates uid = true → stops request = true :=
  fun request validates => stopped request (Bool.and_eq_true_iff.mp validates).1

/-- The validation at the front of the line is the one that is completed. -/
theorem validations_of_front (completes : Completes sequencer next line) {uid : Nat}
    {first : SequencerRequest} (found : sequencer.front line = some first)
    (validates : first.validates uid = true) {addr : Addr}
    (only : sequencer.validations uid = [addr]) : addr = line ∧ next.validations uid = [] := by
  obtain ⟨stops, stopped, completed⟩ := completes
  obtain ⟨request, single, rfl⟩ := List.map_eq_singleton_iff.mp only
  have listed : first ∈ sequencer.requestTable.filter (·.validates uid) :=
    List.mem_filter.mpr ⟨List.mem_of_find?_eq_some found, validates⟩
  obtain rfl : first = request := by simpa [single] using listed
  have own : first.line = line := by simpa using List.find?_some found
  refine ⟨own, ?_⟩
  rw [validations, completed,
    filter_complete_of_front (stopped_of_validates stopped) found validates, single]
  simp [own]

end Completes

/-- A request at the end adds its validation. -/
theorem validations_append {sequencer next : Sequencer} {pkt : SequencerRequest} {uid : Nat}
    (appended : next.requestTable = sequencer.requestTable ++ [pkt]) : next.validations uid =
      sequencer.validations uid ++ if pkt.validates uid then [pkt.line] else [] := by
  rw [validations, appended, List.filter_append, List.map_append]
  cases validates : pkt.validates uid <;> simp [validations, validates]

/-- No validation enters the table, and those of the transaction stay. -/
structure Keeps (sequencer next : Sequencer) (uid : Nat) : Prop where
  listed : ∀ request ∈ next.requestTable, request.validation = true →
    ∃ before ∈ sequencer.requestTable, before.validation = true ∧
      before.line = request.line ∧ before.uid = request.uid
  validations : next.validations uid = sequencer.validations uid

namespace Keeps

variable {sequencer} {next : Sequencer} {uid : Nat}

/-- An unchanged table keeps the validations. -/
theorem of_same (same : next.requestTable = sequencer.requestTable) : Keeps sequencer next uid where
  listed request listed validation := ⟨request, same ▸ listed, validation, rfl, rfl⟩
  validations := by rw [Sequencer.validations, same, Sequencer.validations]

/-- A request of the program keeps the validations. -/
theorem of_append {pkt : SequencerRequest} (program : pkt.validation = false)
    (appended : next.requestTable = sequencer.requestTable ++ [pkt]) :
    Keeps sequencer next uid where
  listed := by
    intro request listed validation
    rw [appended, List.mem_append, List.mem_singleton] at listed
    rcases listed with before | rfl
    · exact ⟨request, before, validation, rfl, rfl⟩
    · simp [program] at validation
  validations := by simp [validations_append appended, SequencerRequest.validates, program]

/-- Completing another line keeps the validations. -/
theorem of_completes {line : Addr} (completes : Completes sequencer next line)
    (other : ∀ first ∈ sequencer.front line, first.validates uid = false) :
    Keeps sequencer next uid where
  listed request listed validation :=
    ⟨request, completes.subset request listed, validation, rfl, rfl⟩
  validations := by
    obtain ⟨stops, stopped, completed⟩ := completes
    rw [Sequencer.validations, completed,
      filter_complete_of_other (Completes.stopped_of_validates stopped) other]
    rfl

/-- An abort only suppresses requests. -/
theorem of_abortTransaction : Keeps sequencer sequencer.abortTransaction uid where
  listed := by
    intro request listed validation
    obtain ⟨before, present, rfl⟩ := List.mem_map.mp listed
    exact ⟨before, present, validation, rfl, rfl⟩
  validations := by
    simp only [Sequencer.validations, abortTransaction, List.filter_map, List.map_map]
    rfl

end Keeps

end Sequencer

end Gem5.Ruby
