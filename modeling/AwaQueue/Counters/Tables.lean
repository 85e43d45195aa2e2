import AwaQueue.Ring.Protocol
import AwaQueue.Attempt.Tables
import AwaQueue.Library.Account
import Mathlib.Algebra.Group.Prod

/-! The counting of terminal jobs. Live terminal rows are counted by `queue_terminal_live_counts`
plus the append-only `queue_terminal_count_deltas`, pruned ones by `queue_terminal_rollups` plus
`queue_terminal_rollup_deltas`; compact completions are counted where they are. Maintenance moves
counts between these tables. Every operation is one transaction.

A terminal row keeps the ring position that its transaction, or the producer of its ready row, has
read from the cursor. Nothing holds the cursor there until the row is inserted. -/

namespace AwaQueue
open Library

structure CountedRow where
  ref : RingRef
  lane : Lane
  laneSeq : Int
  jobId : Nat
  kind : Nat
  state : JobState
  finalizedAt : Nat
deriving DecidableEq

def CountedRow.primaryKey (row : CountedRow) : Nat × Lane × Int :=
  (row.ref.slot, row.lane, row.laneSeq)

def terminalCounterBucket (jobId : Nat) : Nat := jobId % 256

/-- The key of `queue_terminal_live_counts`. -/
structure CountKey where
  slot : Nat
  lane : Lane
  bucket : Nat
deriving DecidableEq

/-- The columns of `queue_terminal_count_deltas` beside `terminal_delta`. -/
structure DeltaKey where
  ref : RingRef
  lane : Lane
  bucket : Nat
deriving DecidableEq

def DeltaKey.countKey (key : DeltaKey) : CountKey := ⟨key.ref.slot, key.lane, key.bucket⟩

def CountKey.perLane (key : CountKey) : CountKey := { key with bucket := 0 }

def CountedRow.deltaKey (row : CountedRow) : DeltaKey :=
  ⟨row.ref, row.lane, terminalCounterBucket row.jobId⟩

/-- A completed attempt in a row of `receipt_completion_batches`, or its row in
`receipt_completion_tombstones`. -/
structure CompletedItem where
  ref : RingRef
  lane : Lane
  attempt : Attempt
  finalizedAt : Nat
deriving DecidableEq

/-- `(queue, priority)`, the key of the rollups; their amounts are `(completed, failed)`. -/
abbrev RollupKey := Nat × Nat

def Lane.rollupKey (lane : Lane) : RollupKey := (lane.queue, lane.priority)

structure CounterState where
  /-- The generation of the queue ring; its slot is the generation modulo the slot count. -/
  generation : Nat
  authority : RingAuthority
  stamped : List RingRef
  now : Nat
  done : List CountedRow
  deltas : List (DeltaKey × Int)
  counts : List (CountKey × Int)
  completions : List CompletedItem
  tombstones : List CompletedItem
  rollupDeltas : List (RollupKey × (Int × Int))
  rollups : List (RollupKey × (Int × Int))

namespace CounterState
variable (s : CounterState)

def cursor (slotCount : Nat) : RingRef := ⟨s.generation % slotCount, s.generation⟩

def ringSlotGeneration (slotCount slot : Nat) : Option Nat :=
  (AwaQueue.ringSlotGeneration (s.cursor slotCount).slot s.generation slotCount slot).map Int.toNat

def oldestInitializedRingSlot (slotCount : Nat) : Option Nat :=
  ((s.cursor slotCount).oldest slotCount).map RingRef.slot

def tombstoned (item : CompletedItem) : Bool :=
  s.tombstones.any fun tomb => tomb.ref = item.ref && tomb.attempt = item.attempt

/-- The bucket that a delta is written under: its own until the authority flip, and 0 after it. -/
def deltaBucket (key : DeltaKey) : DeltaKey :=
  { key with bucket := if s.authority = .ledger then 0 else key.bucket }

def appendTerminalCountDeltas (grouped : List (DeltaKey × Int)) : CounterState :=
  { s with deltas := s.deltas ++ netted ((netted grouped).map fun entry =>
    (s.deltaBucket entry.1, entry.2)) }

def insertDoneRows (rows : List CountedRow) : Option CounterState :=
  if (∀ row ∈ rows, row.ref ∈ s.stamped) ∧ ((s.done ++ rows).map CountedRow.primaryKey).Nodup then
    some { s.appendTerminalCountDeltas (rows.map fun row => (row.deltaKey, 1)) with done :=
      s.done ++ rows }
  else none

/-- A batch of compact completions. An attempt completes once, so it is in one batch at most. -/
def insertCompletions (items : List CompletedItem) : Option CounterState :=
  if (∀ item ∈ items, item.ref ∈ s.stamped) ∧
      ((s.completions ++ items).map CompletedItem.attempt).Nodup then
    some { s with completions := s.completions ++ items }
  else none

def decrementLiveTerminalCounters (rows : List CountedRow) : CounterState :=
  s.appendTerminalCountDeltas (rows.map fun row => (row.deltaKey, -1))

/-- The rows that `DELETE ... WHERE (job_id, finalized_at) IN (... ORDER BY finalized_at DESC LIMIT
1)` removes. -/
def latestRows (jobId : Nat) (states : List JobState) : List CountedRow :=
  match (s.done.filter fun row => row.jobId = jobId && row.state ∈ states).argmax
    CountedRow.finalizedAt with
  | none => []
  | some latest =>
    s.done.filter fun row => row.jobId = jobId && row.finalizedAt = latest.finalizedAt

def removeLatest (jobId : Nat) (states : List JobState) : CounterState :=
  let removed := s.latestRows jobId states
  { s.decrementLiveTerminalCounters (removed.take 1) with done := s.done.filter fun row =>
    row ∉ removed }

def removeFailed (kind queue : Option Nat) : CounterState :=
  let removed := s.done.filter fun row =>
    row.state = .failed && (kind.all fun k => row.kind = k) && queue.all fun q => row.lane.queue = q
  { s.decrementLiveTerminalCounters removed with done := s.done.filter fun row => row ∉ removed }

def completionOf (jobId : Nat) : Option CompletedItem :=
  (s.completions.filter fun item => item.attempt.jobId = jobId && !s.tombstoned item).argmax
    CompletedItem.finalizedAt

/-- The terminal branches of `delete_job_compat`. The tombstones have the key `(ready_slot, job_id,
run_lease)`. -/
def deleteJob (jobId : Nat) : CounterState :=
  match s.done.find? fun row => row.jobId = jobId with
  | some row =>
    { s with done := s.done.filter (fun row => row.jobId ≠ jobId), deltas := s.deltas ++
      [(row.deltaKey, -1)] }
  | none =>
    match s.completionOf jobId with
    | none => s
    | some item =>
      if s.tombstones.any fun tomb => tomb.ref.slot = item.ref.slot && tomb.attempt =
        item.attempt then s
      else { s with tombstones := s.tombstones ++ [item] }

def foldBuckets (grouped : List (CountKey × Int)) : List (CountKey × Int) :=
  creditRows (fun count delta => max 0 (count + delta)) s.counts grouped ++
    (unbooked s.counts grouped).filter fun entry => 0 < entry.2

def foldLanes (grouped : List (CountKey × Int)) : List (CountKey × Int) :=
  (s.counts.filter fun row => row.1.perLane ∉ grouped.map Prod.fst) ++
    (grouped.map fun entry => (entry.1, entry.2 + balance s.counts fun key => key.perLane =
      entry.1)).filter fun entry => entry.2 ≠ 0

def foldDeltas (pending : List (DeltaKey × Int)) : List (CountKey × Int) :=
  match s.authority with
  | .columns => s.foldBuckets (netted (pending.map fun entry => (entry.1.countKey, entry.2)))
  | .ledger => s.foldLanes (netted (pending.map fun entry => (entry.1.countKey.perLane, entry.2)))

/-- `rollup_terminal_count_delta_slot`: the deltas of the sealed generation are folded, and the
segment is truncated. -/
def rollupTerminalCountDeltaSlot (slotCount slot : Nat) : Option CounterState :=
  if slot = s.generation % slotCount then none
  else (s.ringSlotGeneration slotCount slot).map fun generation =>
    let pending := s.deltas.filter fun entry => entry.1.ref = ⟨slot, generation⟩
    if pending = [] then s
    else
      { s with
        counts := s.foldDeltas pending
        deltas := s.deltas.filter fun entry => entry.1.ref.slot ≠ slot }

def rebuildTerminalCounters : CounterState :=
  { s with
    deltas := []
    counts := regroup (s.done.map fun row =>
      let key := row.deltaKey.countKey
      (if s.authority = .ledger then key.perLane else key, 1)) }

def clampedSum (old delta : Int × Int) : Int × Int :=
  (max 0 (old.1 + delta.1), max 0 (old.2 + delta.2))

def groupedRollupDeltas : List (RollupKey × (Int × Int)) :=
  regroup (s.rollupDeltas.filter fun entry => entry.2 ≠ 0)

def foldTerminalRollupDeltas : CounterState :=
  { s with
    rollupDeltas := []
    rollups := creditRows clampedSum s.rollups s.groupedRollupDeltas ++
      unbooked s.rollups s.groupedRollupDeltas }

def retained (failedRetention : Nat) (row : CountedRow) : Bool :=
  row.state = .failed && 0 < failedRetention && s.now ≤ row.finalizedAt + failedRetention

def prunedCounts (slot failedRetention : Nat) : List (RollupKey × (Int × Int)) :=
  (((s.done.filter fun row => row.ref.slot = slot && !s.retained failedRetention row).map fun row =>
      (row.lane.rollupKey, if row.state = .failed then (0, 1) else (1, 0))) ++
    (s.completions.filter fun item => item.ref.slot = slot && !s.tombstoned item).map fun item =>
      (item.lane.rollupKey, (1, 0)))

def carriedRows (slotCount slot failedRetention : Nat) : List CountedRow :=
  (s.done.filter fun row => row.ref.slot = slot && s.retained failedRetention row).map fun row =>
    { row with ref := s.cursor slotCount }

def carriedDeltas (slotCount slot failedRetention : Nat) : List (DeltaKey × Int) :=
  regroup ((s.carriedRows slotCount slot failedRetention).map fun row => (row.deltaKey, 1))

/-- The writes of `prune_oldest`: the carry, then the truncations, then the pruned counts. -/
def pruneSlot (slotCount slot failedRetention : Nat) : CounterState :=
  { s with
    done := (s.done ++ s.carriedRows slotCount slot failedRetention).filter fun row =>
      row.ref.slot ≠ slot
    deltas := (s.deltas ++ s.carriedDeltas slotCount slot failedRetention).filter fun entry =>
      entry.1.ref.slot ≠ slot
    counts := s.counts.filter fun row => row.1.slot ≠ slot
    completions := s.completions.filter fun item => item.ref.slot ≠ slot
    tombstones := s.tombstones.filter fun tomb => tomb.ref.slot ≠ slot
    rollupDeltas := s.rollupDeltas ++ netted (s.prunedCounts slot failedRetention) }

/-- `prune_oldest` past its gates. A primary key that is taken aborts it. -/
def pruneOldest (slotCount failedRetention : Nat) : Option CounterState :=
  (s.oldestInitializedRingSlot slotCount).bind fun slot =>
    if ((s.done ++ s.carriedRows slotCount slot failedRetention).map
        CountedRow.primaryKey).Nodup then
      some (s.pruneSlot slotCount slot failedRetention)
    else none

def rotate (slotCount : Nat) : Option CounterState :=
  let next := (s.generation + 1) % slotCount
  if (∀ row ∈ s.done, row.ref.slot ≠ next) ∧ (∀ entry ∈ s.deltas, entry.1.ref.slot ≠ next) ∧
      (∀ item ∈ s.completions, item.ref.slot ≠ next) ∧
        ∀ tomb ∈ s.tombstones, tomb.ref.slot ≠ next then
    some { s with generation := s.generation + 1 }
  else none

def terminalTotal (queues : List Nat) : Int :=
  -- `queue_lanes.pruned_completed_count`, the other side of the `GREATEST`, is 0 since installation
  let folded := s.rollups.map fun row => (row.1, (max 0 row.2.1, row.2.2))
  let pruned := balance folded (fun key => key.1 ∈ queues) + balance s.rollupDeltas fun key =>
    key.1 ∈ queues
  let live := max 0 ((balance s.counts fun key => key.lane.queue ∈ queues) +
    (balance s.deltas fun key => key.lane.queue ∈ queues) +
    (s.completions.countP fun item => item.lane.queue ∈ queues) -
    (s.tombstones.countP fun tomb => tomb.lane.queue ∈ queues))
  pruned.1 + pruned.2 + live

end CounterState

inductive CounterOp where
  | stamp
  | tick (seconds : Nat)
  | insertDoneRows (rows : List CountedRow)
  | insertCompletions (items : List CompletedItem)
  | retryJob (jobId : Nat)
  | moveFailedToDlq (jobId : Nat)
  | removeFailed (kind queue : Option Nat)
  | deleteJob (jobId : Nat)
  | rollup (slot : Nat)
  | rebuild
  | fold
  | prune (failedRetention : Nat)
  | rotate
  | flipAuthority

def counterStep (slotCount : Nat) (op : CounterOp) (s : CounterState) : Option CounterState :=
  match op with
  | .stamp => some { s with stamped := s.cursor slotCount :: s.stamped }
  | .tick seconds => some { s with now := s.now + seconds }
  | .insertDoneRows rows => s.insertDoneRows rows
  | .insertCompletions items => s.insertCompletions items
  | .retryJob jobId => some (s.removeLatest jobId [.failed, .cancelled])
  | .moveFailedToDlq jobId => some (s.removeLatest jobId [.failed])
  | .removeFailed kind queue => some (s.removeFailed kind queue)
  | .deleteJob jobId => some (s.deleteJob jobId)
  | .rollup slot => s.rollupTerminalCountDeltaSlot slotCount slot
  | .rebuild => some s.rebuildTerminalCounters
  | .fold => some s.foldTerminalRollupDeltas
  | .prune failedRetention => s.pruneOldest slotCount failedRetention
  | .rotate => s.rotate slotCount
  | .flipAuthority => some { s with authority := .ledger }

def CounterState.initial (authority : RingAuthority) : CounterState :=
  ⟨0, authority, [], 0, [], [], [], [], [], [], []⟩

def counterMachine (slotCount : Nat) : Machine CounterState CounterOp :=
  ⟨fun s => ∃ authority, s = .initial authority, counterStep slotCount⟩

end AwaQueue
