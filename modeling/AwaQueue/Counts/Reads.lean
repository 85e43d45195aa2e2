import AwaQueue.Counts.Lives
import Mathlib.Data.Prod.Lex

/-! `load_job` over the tables of the counts, and what these tables leave out for it.

Every ready row of a job is a candidate, also one that was claimed, cancelled, moved or deleted,
until its slot of the queue ring is pruned; a key decides. The calls are those of the counts, with
the ring position that each of them read, maybe long before. Columns that no call here looks at are
any at the read. -/

namespace AwaQueue.Counts
open Function (update)
open Library

/-- What the receipt, the lease and the completion of an attempt keep of its claim. -/
structure Source where
  runLease : Nat
  key : ReadyTombstone
  /-- The effective priority. -/
  priority : Nat
  /-- The receipt is an item of `lease_claim_batches`, not a row of `lease_claims`. -/
  compact : Bool
deriving DecidableEq

/-- An item of `receipt_completion_batches` without a tombstone. -/
structure Completion where
  runLease : Nat
  key : ReadyTombstone
deriving DecidableEq

structure LookState where
  counts : CountState
  sources : Nat → List Source
  completions : Nat → List Completion

structure LookOp where
  call : CountOp
  /-- Where the call puts its ready rows, or the position that it prunes. -/
  ring : RingRef
  /-- Of a claim: the effective priority and the form of the receipt. -/
  priority : Nat
  compact : Bool

def JobRows.holds (r : JobRows) (a : Nat) : Bool :=
  (r.unclosed.any fun c => c.runLease = a) || r.leases.any fun lease => lease.runLease = a

namespace LookState
variable (s : LookState)

/-- `queue_prune_has_pending_ready_tx`. -/
def pending (ring : RingRef) : Bool :=
  (List.range s.counts.jobs).any fun j => (s.counts.rows j).ready.any fun row =>
    decide (row.key.ref = ring) && decide (s.counts.cursor row.key.lane ≤ row.key.laneSeq)

/-- `queue_prune_has_active_leases_tx` and `queue_prune_has_unclosed_claim_refs_tx`. -/
def prunable (ring : RingRef) : Bool :=
  (List.range s.counts.jobs).all fun j => (s.sources j).all fun a =>
    decide (a.key.ref ≠ ring) || !(s.counts.rows j).holds a.runLease

def gate (op : LookOp) : Bool :=
  match op.call with
  | .prune slot _ => decide (op.ring.slot = slot) && !s.pending op.ring && s.prunable op.ring
  | _ => true

/-- The gates of a prune look at one generation of its slot, the prune takes all of them. -/
def countsAfter (slots : Nat) (op : LookOp) : Option CountState :=
  match op.call with
  | .prune slot lost =>
    some { s.counts with ring := op.ring, rows := fun j => (s.counts.rows j).prune slot (lost j) }
  | call => countStep slots call { s.counts with ring := op.ring }

def sourcesAfter (op : LookOp) : Nat → List Source :=
  match op.call with
  | .claim j row _ =>
    update s.sources j (s.sources j ++ [⟨row.runLease + 1, row.key, op.priority, op.compact⟩])
  | _ => s.sources

def completionsAfter (op : LookOp) : Nat → List Completion :=
  match op.call with
  | .finish j a .compacted =>
    update s.completions j
      (s.completions j ++ ((s.sources j).filter fun c => c.runLease = a).map fun c => ⟨a, c.key⟩)
  | .delete j none joined =>
    -- a tombstone of the completion, if no table before it has the job
    if (s.counts.rows j).deferred = [] ∧ ((s.counts.rows j).leases = [] ∨ joined = false) ∧
        (s.counts.rows j).done = [] then update s.completions j []
    else s.completions
  | .prune slot _ => fun j => (s.completions j).filter fun c => c.key.ref.slot ≠ slot
  | _ => s.completions

end LookState

def lookStep (slots : Nat) (op : LookOp) (s : LookState) : Option LookState :=
  if s.gate op = true then
    (s.countsAfter slots op).map fun counts => ⟨counts, s.sourcesAfter op, s.completionsAfter op⟩
  else none

def LookState.initial : LookState := ⟨.initial, fun _ => [], fun _ => []⟩

def lookMachine (slots : Nat) : Machine LookState LookOp where
  init s := s = .initial
  step := lookStep slots

/-- A call at the first position of the ring. -/
def lookCall (call : CountOp) : LookOp := ⟨call, ⟨0, 0⟩, 1, true⟩

/-- The calls find waiting rows unclaimed, as for the counts, and a prune finds no row of another
generation in its slot. -/
def keepsReads (op : LookOp) (s : LookState) : Bool :=
  keepsCounts op.call s.counts && match op.call with
    | .prune slot _ =>
      (List.range s.counts.jobs).all fun j => (s.counts.rows j).ready.all fun row =>
        decide (row.key.ref.slot ≠ slot) || decide (row.key.ref = op.ring)
    | _ => true

def KeepsReads (op : LookOp) (s : LookState) : Prop := keepsReads op s = true

instance (op : LookOp) (s : LookState) : Decidable (KeepsReads op s) :=
  inferInstanceAs (Decidable (_ = true))

/-- A `JobRow` among the candidates of `load_job`. -/
structure Candidate where
  state : JobState
  queue : Nat
  priority : Nat
  attempt : Nat
  runLease : Nat
  runAt : Nat
  heartbeatAt : Option Nat := none
  deadlineAt : Option Nat := none
  attemptedAt : Option Nat
  finalizedAt : Option Nat
deriving DecidableEq

def Candidate.transitionTimestamp (row : Candidate) : Nat :=
  (row.finalizedAt <|> row.heartbeatAt <|> row.deadlineAt <|> row.attemptedAt).getD row.runAt

def stateRank : JobState → Nat
  | .running | .waitingExternal => 4
  | .retryable | .scheduled => 3
  | .available => 2
  | .completed | .failed | .cancelled => 1

def Candidate.key (row : Candidate) : ℕ ×ₗ ℕ ×ₗ ℕ :=
  toLex (row.runLease, toLex (row.transitionTimestamp, stateRank row.state))

structure WaitingColumns where
  attempt : Nat
  runAt : Nat
  attemptedAt : Option Nat

structure RunningColumns where
  attempt : Nat
  heartbeatAt : Option Nat
  deadlineAt : Option Nat
  attemptedAt : Option Nat

structure CompletionColumns where
  attempt : Nat
  attemptedAt : Option Nat
  finalizedAt : Nat

/-- The columns of a row of `deferred_jobs`, `done_entries` or `dlq_entries` as it is read. -/
structure RowColumns where
  state : JobState
  queue : Nat
  priority : Nat
  attempt : Nat
  runAt : Nat
  attemptedAt : Option Nat
  finalizedAt : Option Nat

/-- The columns of the rows of one job at the read, by key or run lease. -/
structure Columns where
  ready : ReadyTombstone → WaitingColumns
  attempt : Nat → RunningColumns
  completion : Nat → CompletionColumns
  deferred : Nat → RowColumns
  done : Nat → RowColumns
  dlq : Nat → RowColumns

namespace Columns
variable (columns : Columns)

def waiting (row : WaitingRow) : Candidate where
  state := .available
  queue := row.queue
  priority := row.key.lane.priority
  attempt := (columns.ready row.key).attempt
  runLease := row.runLease
  runAt := (columns.ready row.key).runAt
  attemptedAt := (columns.ready row.key).attemptedAt
  finalizedAt := none

def running (state : JobState) (source : Source) (ready : WaitingRow) : Candidate where
  state
  queue := ready.queue
  priority := source.priority
  attempt := (columns.attempt source.runLease).attempt
  runLease := source.runLease
  runAt := (columns.ready ready.key).runAt
  heartbeatAt := (columns.attempt source.runLease).heartbeatAt
  deadlineAt := (columns.attempt source.runLease).deadlineAt
  attemptedAt := (columns.attempt source.runLease).attemptedAt
  finalizedAt := none

def completed (c : Completion) (ready : WaitingRow) : Candidate where
  state := .completed
  queue := c.key.lane.queue
  priority := c.key.lane.priority
  attempt := (columns.completion c.runLease).attempt
  runLease := c.runLease
  runAt := (columns.ready ready.key).runAt
  attemptedAt := (columns.completion c.runLease).attemptedAt
  finalizedAt := some (columns.completion c.runLease).finalizedAt

end Columns

def RowColumns.candidate (row : RowColumns) (runLease : Nat) : Candidate where
  state := row.state
  queue := row.queue
  priority := row.priority
  attempt := row.attempt
  runLease
  runAt := row.runAt
  attemptedAt := row.attemptedAt
  finalizedAt := row.finalizedAt

/-- The rows of the job outside `ready_entries` that need no other row. -/
def Columns.ended (columns : Columns) (r : JobRows) : List Candidate :=
  (r.done.map fun a => (columns.done a).candidate a) ++
    (r.deferred.map fun a => (columns.deferred a).candidate a) ++
      r.dlq.map fun a => (columns.dlq a).candidate a

/-- The join of a lease or a row of `lease_claims`: by the whole key, at the effective priority. -/
def Source.joins (source : Source) (ready : WaitingRow) : Bool :=
  ready.key = { source.key with lane := { source.key.lane with priority := source.priority } }

/-- The join of an item of `lease_claim_batches`, which is on the job and not on the priority. -/
def Source.joinsItem (source : Source) (ready : WaitingRow) : Bool :=
  ready.key.ref = source.key.ref && ready.queue = source.key.lane.queue &&
    ready.key.lane.enqueueShard = source.key.lane.enqueueShard &&
      ready.key.laneSeq = source.key.laneSeq

def LeaseRow.state (lease : LeaseRow) : JobState :=
  if lease.waiting then .waitingExternal else .running

namespace LookState
variable (s : LookState) (columns : Columns) (j : Nat)

/-- `ready_entries`. -/
def ready : List WaitingRow := (List.range s.counts.jobs).flatMap fun i => (s.counts.rows i).ready

def attemptSources (a : Nat) : List Source := (s.sources j).filter fun source => source.runLease = a

def leaseCandidates : List Candidate :=
  (s.counts.rows j).leases.flatMap fun lease => (s.attemptSources j lease.runLease).flatMap fun a =>
    (s.ready.filter a.joins).map (columns.running lease.state a)

def claimCandidates : List Candidate :=
  (s.counts.rows j).openClaims.flatMap fun c => (s.attemptSources j c.runLease).flatMap fun a =>
    (if a.compact then (s.counts.rows j).ready.filter a.joinsItem else s.ready.filter a.joins).map
      (columns.running .running a)

/-- The second half of the `terminal_jobs` view. -/
def completionCandidates : List Candidate :=
  (s.completions j).flatMap fun c =>
    ((s.counts.rows j).ready.filter fun ready => ready.key = c.key).map (columns.completed c)

def candidates : List Candidate :=
  (s.counts.rows j).ready.map columns.waiting ++ columns.ended (s.counts.rows j) ++
    s.leaseCandidates columns j ++ s.claimCandidates columns j ++ s.completionCandidates columns j

/-- What `load_job` may return. The statements leave the order of equal rows open, so that any of
the greatest may come last. -/
def Loads : Option Candidate → Prop
  | none => s.candidates columns j = []
  | some row => row ∈ s.candidates columns j ∧ ∀ other ∈ s.candidates columns j, other.key ≤ row.key

end LookState

/-- What a job is shown as: the priority counts while it waits. -/
structure JobView where
  state : JobState
  queue : Nat
  attempt : Nat
  runLease : Nat
  priority : Option Nat
deriving DecidableEq

def Candidate.view (row : Candidate) : JobView where
  state := row.state
  queue := row.queue
  attempt := row.attempt
  runLease := row.runLease
  priority := if row.state ∈ [.scheduled, .available, .retryable] then some row.priority else none

/-- The job as the rows that stand for it have it: its claimable row, its open attempt, its deferred
or terminal row. -/
def LookState.represent (s : LookState) (columns : Columns) (j : Nat) : List JobView :=
  let r := s.counts.rows j
  (r.unspent.map columns.waiting ++ columns.ended r).map Candidate.view ++
    (r.leases.map fun lease =>
      ⟨lease.state, lease.queue, (columns.attempt lease.runLease).attempt, lease.runLease, none⟩) ++
    (r.openClaims.map fun c =>
      ⟨.running, c.queue, (columns.attempt c.runLease).attempt, c.runLease, none⟩) ++
    (s.completions j).map fun c =>
      ⟨.completed, c.key.lane.queue, (columns.completion c.runLease).attempt, c.runLease, none⟩

end AwaQueue.Counts
