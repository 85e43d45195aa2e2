import AwaQueue.Counters.Tables
import AwaQueue.Terminal.Payload
import AwaQueue.Terminal.Rows

/-! The oldest slot of the queue ring is pruned, with every column of the rows that are carried
over, counted or truncated.

A step is one transaction. The books, which only the counters' own transactions change besides, are
any between two steps; what those transactions do to them is `Counters.Tables`. A prune takes more
slots here than in the source: the gate on waiting rows is left out. -/

namespace AwaQueue.Prune
open Library
open Payload (PayloadValue terminalStoragePayload readBack)

/-- The columns of a row of `ready_entries` beside its key and `run_at`. -/
structure ReadyColumns extends JobRecord Nat String (Option (PayloadValue String)) where
  attemptedAt : Option Nat
deriving DecidableEq

abbrev ReadyEntry := ReadyRow ReadyColumns

/-- `DoneJobRow`: a terminal row with every column, as readers get it and writers give it. -/
structure DoneJobRow extends CountedRow, KeptColumns where
  attempt : Nat
  runLease : Nat
  attemptedAt : Option Nat
  payload : PayloadValue String
deriving DecidableEq

structure DoneRow extends CountedRow where
  attempt : Nat
  runLease : Nat
  args : Option String
  maxAttempts : Option Nat
  runAt : Option Nat
  attemptedAt : Option Nat
  createdAt : Option Nat
  uniqueKey : Option String
  uniqueStates : Option String
  payload : Option (PayloadValue String)
  /-- The ready row from which an attempt was settled; no statement reads it. -/
  source : Option ReadyEntry
deriving DecidableEq

def readyKept (row : ReadyEntry) : KeptColumns :=
  ⟨row.job.args, row.job.maxAttempts, row.runAt, row.job.createdAt, row.job.uniqueKey,
    row.job.uniqueStates⟩

def DoneJobRow.kept (row : DoneJobRow) : KeptColumns := row.toKeptColumns

def DoneJobRow.entry (row : DoneJobRow) (keepReadyBacking : Bool)
    (readyPayload : Option (PayloadValue String)) (source : Option ReadyEntry) : DoneRow :=
  let readyBacked := keepReadyBacking && decide (0 ≤ row.laneSeq)
  { toCountedRow := row.toCountedRow
    attempt := row.attempt
    runLease := row.runLease
    args := if readyBacked then none else some row.args
    maxAttempts := if readyBacked then none else some row.maxAttempts
    runAt := if readyBacked then none else some row.runAt
    attemptedAt := row.attemptedAt
    createdAt := if readyBacked then none else some row.createdAt
    uniqueKey := if readyBacked then none else row.uniqueKey
    uniqueStates := if readyBacked then none else row.uniqueStates
    payload := terminalStoragePayload row.payload readyPayload
    source }

def doneRowProjection (done : DoneRow) (ready : Option ReadyEntry) : DoneJobRow where
  toCountedRow := done.toCountedRow
  attempt := done.attempt
  runLease := done.runLease
  args := (done.args.or (ready.map (·.job.args))).getD emptyObject
  maxAttempts := (done.maxAttempts.or (ready.map (·.job.maxAttempts))).getD 25
  runAt := (done.runAt.or (ready.map (·.runAt))).getD done.finalizedAt
  attemptedAt := done.attemptedAt.or (ready.bind (·.job.attemptedAt))
  createdAt := (done.createdAt.or (ready.map (·.job.createdAt))).getD done.finalizedAt
  uniqueKey := done.uniqueKey.or (ready.bind (·.job.uniqueKey))
  uniqueStates := done.uniqueStates.or (ready.bind (·.job.uniqueStates))
  payload := readBack done.payload (ready.bind (·.job.payload))

def DoneJobRow.carried (row : DoneJobRow) (current : RingRef) (source : Option ReadyEntry) :
    DoneRow where
  toCountedRow := { row.toCountedRow with ref := current }
  attempt := row.attempt
  runLease := row.runLease
  args := some row.args
  maxAttempts := some row.maxAttempts
  runAt := some row.runAt
  attemptedAt := row.attemptedAt
  createdAt := some row.createdAt
  uniqueKey := row.uniqueKey
  uniqueStates := row.uniqueStates
  payload := some row.payload
  source

structure Running where
  row : ReadyEntry
  priority : Nat
  attemptedAt : Option Nat
deriving DecidableEq

structure Books where
  authority : RingAuthority
  deltas : List (DeltaKey × Int)
  counts : List (CountKey × Int)
  completions : List CompletedItem
  tombstones : List CompletedItem
  rollupDeltas : List (RollupKey × (Int × Int))
  rollups : List (RollupKey × (Int × Int))

structure PruneState where
  generation : Nat
  now : Nat
  ready : List ReadyEntry
  running : List Running
  done : List DoneRow
  nextSeq : Lane → Nat
  books : Books

namespace PruneState
variable (s : PruneState)

def counters : CounterState where
  generation := s.generation
  authority := s.books.authority
  stamped := []
  now := s.now
  done := s.done.map DoneRow.toCountedRow
  deltas := s.books.deltas
  counts := s.books.counts
  completions := s.books.completions
  tombstones := s.books.tombstones
  rollupDeltas := s.books.rollupDeltas
  rollups := s.books.rollups

def readyAt (ref : RingRef) (lane : Lane) (laneSeq : Int) : Option ReadyEntry :=
  s.ready.find? fun row => row.ref = ref && row.lane = lane && (row.laneSeq : Int) = laneSeq

def read (d : DoneRow) : DoneJobRow := doneRowProjection d (s.readyAt d.ref d.lane d.laneSeq)

def hydrate (a : Running) : Option ReadyEntry :=
  (s.ready.filter fun row => row.ref = a.row.ref && row.lane.queue = a.row.lane.queue &&
    row.lane.enqueueShard = a.row.lane.enqueueShard && row.laneSeq = a.row.laneSeq &&
      row.job.jobId = a.row.job.jobId).getLast?

def insertDoneRow (row : DoneJobRow) (keepReadyBacking : Bool) (source : Option ReadyEntry) :
    Option PruneState :=
  let readyPayload := (s.readyAt row.ref row.lane row.laneSeq).map fun ready =>
    ready.job.payload.getD .emptyObject
  if ∀ old ∈ s.done, old.primaryKey ≠ row.primaryKey then
    some { s with done := s.done ++ [row.entry keepReadyBacking readyPayload source] }
  else none

/-- `into_done_row` of an attempt: in memory the row has the columns of `row`, and `lane` is that of
the claim or of the lease. -/
def doneRow (a : Running) (row : ReadyEntry) (lane : Lane) (state : JobState)
    (payload : PayloadValue String) (finalizedAt : Nat) : DoneJobRow where
  ref := a.row.ref
  lane
  laneSeq := a.row.laneSeq
  jobId := a.row.job.jobId
  kind := row.job.kind
  state
  finalizedAt
  attempt := a.row.job.attempt + 1
  runLease := a.row.job.runLease + 1
  args := row.job.args
  maxAttempts := a.row.job.maxAttempts
  runAt := row.runAt
  attemptedAt := a.attemptedAt
  createdAt := row.job.createdAt
  uniqueKey := row.job.uniqueKey
  uniqueStates := row.job.uniqueStates
  payload

def complete (a : Running) (payload : PayloadValue String) (finalizedAt : Nat) :
    Option PruneState :=
  if a ∈ s.running then
    { s with running := s.running.erase a }.insertDoneRow
      (doneRow a a.row a.row.lane .completed payload finalizedAt) true none
  else none

def settle (a : Running) (state : JobState) (payload : PayloadValue String) (finalizedAt : Nat) :
    Option PruneState :=
  if a ∈ s.running then
    (s.hydrate a).bind fun row =>
      { s with running := s.running.erase a }.insertDoneRow
        (doneRow a row { a.row.lane with priority := a.priority } state payload finalizedAt) true
          (some row)
  else none

def cancelReady (row : ReadyEntry) (finalizedAt : Nat) : Option PruneState :=
  if row ∈ s.ready then
    s.insertDoneRow
      { ref := row.ref, lane := row.lane, laneSeq := row.laneSeq, jobId := row.job.jobId,
        kind := row.job.kind, state := .cancelled
        finalizedAt, attempt := row.job.attempt, runLease := row.job.runLease, args := row.job.args
        maxAttempts := row.job.maxAttempts, runAt := row.runAt, attemptedAt := row.job.attemptedAt,
          createdAt := row.job.createdAt
        uniqueKey := row.job.uniqueKey, uniqueStates := row.job.uniqueStates, payload :=
          row.job.payload.getD .emptyObject } false none
  else none

def carriedRows (slotCount slot failedRetention : Nat) : List DoneRow :=
  (s.done.filter fun d => d.ref.slot = slot &&
      s.counters.retained failedRetention d.toCountedRow).map fun d =>
    (s.read d).carried (s.counters.cursor slotCount) d.source

def pruneSlot (slotCount slot failedRetention : Nat) : PruneState :=
  { s with
    ready := s.ready.filter fun row => row.ref.slot ≠ slot
    done := (s.done ++ s.carriedRows slotCount slot failedRetention).filter fun d =>
      d.ref.slot ≠ slot
    books :=
      { s.books with
        deltas := (s.books.deltas ++ s.counters.carriedDeltas slotCount slot failedRetention).filter
          fun entry => entry.1.ref.slot ≠ slot
        counts := s.books.counts.filter fun row => row.1.slot ≠ slot
        completions := s.books.completions.filter fun item => item.ref.slot ≠ slot
        tombstones := s.books.tombstones.filter fun tomb => tomb.ref.slot ≠ slot
        rollupDeltas := s.books.rollupDeltas ++ netted
          (s.counters.prunedCounts slot failedRetention) } }

/-- `prune_oldest`, with its gates on leases and open receipts. A primary key that is taken aborts
it. -/
def pruneOldest (slotCount failedRetention : Nat) : Option PruneState :=
  (s.counters.oldestInitializedRingSlot slotCount).bind fun slot =>
    if (∀ a ∈ s.running, some a.row.ref ≠ (s.counters.ringSlotGeneration slotCount slot).map
        (RingRef.mk slot)) ∧ ((s.done ++ s.carriedRows slotCount slot failedRetention).map fun d =>
          d.primaryKey).Nodup then
      some (s.pruneSlot slotCount slot failedRetention)
    else none

def rotate (slotCount : Nat) : Option PruneState :=
  if ∀ row ∈ s.ready, row.ref.slot ≠ (s.generation + 1) % slotCount then
    (s.counters.rotate slotCount).map fun counters => { s with generation := counters.generation }
  else none

end PruneState

inductive PruneOp where
  /-- New jobs, promotions, retries and re-queued attempts. -/
  | enqueue (lane : Lane) (ref : RingRef) (runAt : Nat) (job : ReadyColumns)
  | claim (row : ReadyEntry) (priority : Nat) (attemptedAt : Option Nat)
  | complete (a : Running) (payload : PayloadValue String) (finalizedAt : Nat)
  | settle (a : Running) (state : JobState) (payload : PayloadValue String) (finalizedAt : Nat)
  | leave (a : Running)
  | cancelReady (row : ReadyEntry) (finalizedAt : Nat)
  /-- A terminal row of a job outside the lanes, at the number `-job_id`. -/
  | insertSynthetic (row : DoneJobRow)
  /-- Retry, discard, deletion or a move to the DLQ. -/
  | remove (d : DoneRow)
  /-- The transactions of the counters, and compact completions. -/
  | rebook (books : Books)
  | tick (seconds : Nat)
  | rotate
  | prune (failedRetention : Nat)

open PruneState in
def pruneStep (slotCount : Nat) (op : PruneOp) (s : PruneState) : Option PruneState :=
  match op with
  | .enqueue lane ref runAt job =>
    some { s with
      ready := s.ready ++ [⟨lane, s.nextSeq lane, ref, runAt, job⟩]
      nextSeq := Function.update s.nextSeq lane (s.nextSeq lane + 1) }
  | .claim row priority attemptedAt =>
    if row ∈ s.ready ∧ priority ≤ row.lane.priority then
      some { s with running := s.running ++ [⟨row, priority, attemptedAt⟩] }
    else none
  | .complete a payload finalizedAt => s.complete a payload finalizedAt
  | .settle a state payload finalizedAt => s.settle a state payload finalizedAt
  | .leave a => some { s with running := s.running.erase a }
  | .cancelReady row finalizedAt => s.cancelReady row finalizedAt
  | .insertSynthetic row => if row.laneSeq < 0 then s.insertDoneRow row false none else none
  | .remove d => some { s with done := s.done.erase d }
  | .rebook books => some { s with books }
  | .tick seconds => some { s with now := s.now + seconds }
  | .rotate => s.rotate slotCount
  | .prune failedRetention => s.pruneOldest slotCount failedRetention

def pruneMachine (slotCount : Nat) : Machine PruneState PruneOp where
  init s := ∃ books, s = ⟨0, 0, [], [], [], fun _ => 1, books⟩
  step := pruneStep slotCount

def keepsLane : PruneOp → PruneState → Bool
  | .settle a _ _ _, s => (s.hydrate a).all fun row => a.priority = row.lane.priority
  | _, _ => true

def KeepsLane (op : PruneOp) (s : PruneState) : Prop := keepsLane op s = true

instance (op : PruneOp) (s : PruneState) : Decidable (KeepsLane op s) :=
  inferInstanceAs (Decidable (_ = true))

end AwaQueue.Prune
