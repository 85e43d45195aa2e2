import AwaQueue.Lane.Tables
import AwaQueue.Library.Machine
import AwaQueue.Library.Tally
import Mathlib.Logic.Function.Basic

/-! The two live counts of `queue_counts_exact` over the tables they read, and the calls that change
those tables.

The rows of each table are kept by the job they are about. A step is the transaction of a call,
except that the claim cursor of a lane moves in steps of its own: the advance after a claim may run
late, often or never, and a claim call repairs a cursor that stands before spent rows. -/

namespace AwaQueue.Counts
open Function (update)
open Library

structure WaitingRow where
  key : ReadyTombstone
  runLease : Nat
deriving DecidableEq

def WaitingRow.queue (row : WaitingRow) : Nat := row.key.lane.queue

structure Claim where
  runLease : Nat
  queue : Nat
deriving DecidableEq

structure LeaseRow where
  runLease : Nat
  queue : Nat
  waiting : Bool
deriving DecidableEq

/-- The rows of one job. Claims, closures, done, deferred and DLQ rows are known by their run lease.
-/
structure JobRows where
  ready : List WaitingRow := []
  tombstones : List ReadyTombstone := []
  /-- What the ranges of `ready_claim_attempt_batches` cover. -/
  attempts : List ReadyTombstone := []
  claims : List Claim := []
  closures : List Nat := []
  leases : List LeaseRow := []
  done : List Nat := []
  deferred : List Nat := []
  dlq : List Nat := []
deriving DecidableEq

inductive Outcome where
  /-- An item of `receipt_completion_batches`, which no count of live jobs reads. -/
  | compacted
  | done
  | deferred
  | dlq
  /-- `retry_external`, and `retry_job` of a job that waits for a callback. -/
  | ready (lane : Lane)
deriving DecidableEq

namespace JobRows
variable (r : JobRows)

def spent (row : WaitingRow) : Bool := decide (row.key ∈ r.tombstones) ||
    decide (row.key ∈ r.attempts)

def live (cursor : Lane → Nat) (row : WaitingRow) : Bool :=
  decide (cursor row.key.lane ≤ row.key.laneSeq) && decide (row.key ∉ r.tombstones)

def openClaims : List Claim :=
  r.claims.filter fun c => decide (c.runLease ∉ r.closures) &&
    decide (c.runLease ∉ r.leases.map LeaseRow.runLease) &&
    decide (c.runLease ∉ r.done) && decide (c.runLease ∉ r.deferred) && decide (c.runLease ∉ r.dlq)

def available (cursor : Lane → Nat) (queues : List Nat) : Nat :=
  r.ready.countP fun row => decide (row.queue ∈ queues) && r.live cursor row

def running (queues : List Nat) : Nat :=
  (r.leases.countP fun lease => decide (lease.queue ∈ queues) && !lease.waiting) +
    r.openClaims.countP fun c => decide (c.queue ∈ queues)

def insertReady (key : ReadyTombstone) (runLease : Nat) : JobRows :=
  { r with ready := r.ready ++ [⟨key, runLease⟩] }

def tombstone (row : WaitingRow) : JobRows := { r with tombstones := r.tombstones ++ [row.key] }

/-- `claim_ready_runtime` for one row; a store without receipts writes the lease itself. -/
def claim (row : WaitingRow) (receipts : Bool) : JobRows :=
  if receipts then { r with attempts := r.attempts ++ [row.key], claims := r.claims ++
    [⟨row.runLease + 1, row.queue⟩] }
  else { r with attempts := r.attempts ++ [row.key], leases := r.leases ++
    [⟨row.runLease + 1, row.queue, false⟩] }

def materialize (c : Claim) : JobRows :=
  { r with leases := r.leases ++ [⟨c.runLease, c.queue, false⟩] }

def setWaiting (a : Nat) (waiting : Bool) : JobRows :=
  { r with leases := r.leases.map fun lease => if lease.runLease = a then { lease with waiting }
    else lease }

def endAttempt (a : Nat) : JobRows :=
  { r with
    closures := r.closures ++ (r.claims.filter fun c => c.runLease = a).map Claim.runLease
    leases := r.leases.filter fun lease => lease.runLease ≠ a }

def isOpen (a : Nat) : Bool :=
  (r.openClaims.any fun c => c.runLease = a) || r.leases.any fun lease => lease.runLease = a

/-- The rest of `delete_job_compat` after it found no waiting row. The join that reports deleted
leases may find no ready row; then it goes on. -/
def deleteRest (joined : Bool) : JobRows :=
  if r.deferred ≠ [] then { r with deferred := [] }
  else if r.leases ≠ [] ∧ joined = true then { r with leases := [] }
  else if r.done ≠ [] then { r with leases := [], done := [] }
  else { r with leases := [], dlq := [] }

def prune (slot : Nat) (lost : Bool) : JobRows :=
  { r with
    ready := r.ready.filter fun row => row.key.ref.slot ≠ slot
    tombstones := r.tombstones.filter fun key => key.ref.slot ≠ slot
    attempts := r.attempts.filter fun key => key.ref.slot ≠ slot
    done := if lost then [] else r.done }

def pruneClaims (gone : List Nat) : JobRows :=
  { r with
    claims := r.claims.filter fun c => c.runLease ∉ gone
    closures := r.closures.filter fun a => a ∉ gone }

end JobRows

inductive Stage where
  | waiting (row : WaitingRow)
  | running (runLease queue : Nat)
  | parked (runLease queue : Nat)
  | away
deriving DecidableEq

def Stage.isWaiting (queues : List Nat) : Stage → Bool
  | .waiting row => row.queue ∈ queues
  | _ => false

def Stage.isRunning (queues : List Nat) : Stage → Bool
  | .running _ queue => queue ∈ queues
  | _ => false

/-- The tables by job, the sequences of the lanes and the position of the ring; and where each job
is, which no call reads. -/
structure CountState where
  rows : Nat → JobRows
  jobs : Nat
  cursor : Lane → Nat
  nextSeq : Lane → Nat
  ring : RingRef
  stage : Nat → Stage

namespace CountState
variable (s : CountState)

/-- `queue_counts_exact`: the column `available`, over the physical queues of a logical one. -/
def available (queues : List Nat) : Nat :=
  ((List.range s.jobs).map fun j => (s.rows j).available s.cursor queues).sum

def running (queues : List Nat) : Nat :=
  ((List.range s.jobs).map fun j => (s.rows j).running queues).sum

def claimable (queues : List Nat) : Nat := (List.range s.jobs).countP fun j =>
    (s.stage j).isWaiting queues

def openRunning (queues : List Nat) : Nat := (List.range s.jobs).countP fun j =>
    (s.stage j).isRunning queues

/-- The ready rows with a committed claim that the cursor of their lane has not passed. -/
def trailing (queues : List Nat) : Nat :=
  ((List.range s.jobs).map fun j => (s.rows j).ready.countP fun row =>
    decide (row.queue ∈ queues) && (s.rows j).live s.cursor row &&
      decide (row.key ∈ (s.rows j).attempts)).sum

def setJob (j : Nat) (r : JobRows) (stage : Stage) : CountState :=
  { s with rows := update s.rows j r, stage := update s.stage j stage }

def newKey (lane : Lane) : ReadyTombstone := ⟨lane, s.nextSeq lane, s.ring⟩

def enqueueJob (j : Nat) (r : JobRows) (lane : Lane) (runLease : Nat) : CountState :=
  { s.setJob j (r.insertReady (s.newKey lane) runLease) (.waiting ⟨s.newKey lane, runLease⟩) with
    nextSeq := update s.nextSeq lane (s.nextSeq lane + 1) }

def moveCursor (lane : Lane) (next : Nat) : CountState :=
  { s with cursor := update s.cursor lane (max next (s.cursor lane)) }

def spentBelow (lane : Lane) (bound : Nat) : Bool :=
  (List.range s.jobs).all fun j => (s.rows j).ready.all fun row =>
    (s.rows j).spent row || !(decide (row.key.lane = lane) && decide (row.key.laneSeq < bound))

def finish (j a : Nat) : Outcome → CountState
  | .compacted => s.setJob j ((s.rows j).endAttempt a) .away
  | .done => s.setJob j { (s.rows j).endAttempt a with done := (s.rows j).done ++ [a] } .away
  | .deferred =>
    s.setJob j { (s.rows j).endAttempt a with deferred := (s.rows j).deferred ++ [a] } .away
  | .dlq => s.setJob j { (s.rows j).endAttempt a with dlq := (s.rows j).dlq ++ [a] } .away
  | .ready lane => s.enqueueJob j ((s.rows j).endAttempt a) lane a

def deleteJob (j : Nat) (row : Option WaitingRow) (joined : Bool) : CountState :=
  match row with
  | some row => s.setJob j ((s.rows j).tombstone row) .away
  | none => s.setJob j ((s.rows j).deleteRest joined)
      (if (s.rows j).deferred = [] ∧ (s.rows j).leases = [] ∧ (s.rows j).done = [] ∧
        (s.rows j).dlq = [] then s.stage j else .away)

end CountState

inductive CountOp where
  | enqueue (lane : Lane)
  | schedule
  | promote (j runLease : Nat) (lane : Lane)
  | claim (j : Nat) (row : WaitingRow) (receipts : Bool)
  /-- `advance_claim_cursors` or `replay_claim_cursor_advance`, past a row with claim evidence. -/
  | advance (j : Nat) (key : ReadyTombstone)
  /-- A claim call, or the conditional advance of a cancel, moves the cursor over a spent row or a
  gap. -/
  | skip (lane : Lane)
  | materialize (j : Nat) (c : Claim)
  /-- `enter_callback_wait_in_tx` and `resume_external`. -/
  | setWaiting (j : Nat) (lease : LeaseRow) (waiting : Bool)
  /-- Completion, failure, retry, snooze, cancel, rescue or callback resolution of a running
  attempt. -/
  | finish (j a : Nat) (outcome : Outcome)
  | cancelWaiting (j : Nat) (row : WaitingRow)
  | cancelDeferred (j runLease : Nat)
  /-- `set_priority`, `move_queue` and `age_waiting_priorities` of a waiting row. -/
  | move (j : Nat) (row : WaitingRow) (lane : Lane)
  | delete (j : Nat) (row : Option WaitingRow) (joined : Bool)
  | retry (j runLease : Nat) (lane : Lane)
  | moveFailedToDlq (j runLease : Nat)
  | retryFromDlq (j runLease : Nat) (lane : Option Lane)
  /-- `purge_dlq` and `discard_failed`. -/
  | discard (j : Nat)
  | rotate
  /-- `prune_oldest`; the jobs that lose their done row. -/
  | prune (slot : Nat) (lost : Nat → Bool)
  | pruneClaims (j : Nat) (gone : List Nat)

def countStep (slots : Nat) (op : CountOp) (s : CountState) : Option CountState :=
  match op with
  | .enqueue lane => some { s.enqueueJob s.jobs {} lane 0 with jobs := s.jobs + 1 }
  | .schedule => some { s.setJob s.jobs { deferred := [0] } .away with jobs := s.jobs + 1 }
  | .promote j a lane =>
    if a ∈ (s.rows j).deferred then
      some (s.enqueueJob j { s.rows j with deferred := (s.rows j).deferred.erase a } lane a)
    else none
  | .claim j row receipts =>
    if row ∈ (s.rows j).ready ∧ (s.rows j).spent row = false ∧
        s.cursor row.key.lane ≤ row.key.laneSeq ∧
        s.spentBelow row.key.lane row.key.laneSeq = true then
      some (s.setJob j ((s.rows j).claim row receipts) (.running (row.runLease + 1) row.queue))
    else none
  | .advance j key =>
    if key ∈ (s.rows j).attempts then some (s.moveCursor key.lane (key.laneSeq + 1)) else none
  | .skip lane =>
    if s.cursor lane < s.nextSeq lane ∧ s.spentBelow lane (s.cursor lane + 1) = true then
      some (s.moveCursor lane (s.cursor lane + 1))
    else none
  | .materialize j c =>
    if c ∈ (s.rows j).openClaims then some (s.setJob j ((s.rows j).materialize c)
      (.running c.runLease c.queue)) else none
  | .setWaiting j lease waiting =>
    if lease ∈ (s.rows j).leases then
      some (s.setJob j ((s.rows j).setWaiting lease.runLease waiting)
        (if waiting then .parked lease.runLease lease.queue
          else .running lease.runLease lease.queue))
    else none
  | .finish j a outcome => if (s.rows j).isOpen a = true then some (s.finish j a outcome) else none
  | .cancelWaiting j row =>
    if row ∈ (s.rows j).ready ∧ (s.rows j).live s.cursor row = true then
      some (s.setJob j { (s.rows j).tombstone row with done := (s.rows j).done ++ [row.runLease] }
        .away)
    else none
  | .cancelDeferred j a =>
    if a ∈ (s.rows j).deferred then
      some (s.setJob j { s.rows j with deferred := (s.rows j).deferred.erase a, done :=
        (s.rows j).done ++ [a] } .away)
    else none
  | .move j row lane =>
    if row ∈ (s.rows j).ready ∧ (s.rows j).live s.cursor row = true then
      some (s.enqueueJob j ((s.rows j).tombstone row) lane row.runLease)
    else none
  | .delete j row joined =>
    if ∀ found ∈ row, found ∈ (s.rows j).ready ∧ (s.rows j).live s.cursor found = true then
      some (s.deleteJob j row joined) else none
  | .retry j a lane =>
    if a ∈ (s.rows j).done then some (s.enqueueJob j { s.rows j with done := (s.rows j).done.erase a
      } lane a) else none
  | .moveFailedToDlq j a =>
    if a ∈ (s.rows j).done then
      some (s.setJob j { s.rows j with done := (s.rows j).done.erase a, dlq := (s.rows j).dlq ++
        [a] } .away)
    else none
  | .retryFromDlq j a lane =>
    if a ∈ (s.rows j).dlq then
      let removed := { s.rows j with dlq := (s.rows j).dlq.erase a }
      match lane with
      | some lane => some (s.enqueueJob j removed lane a)
      | none => some (s.setJob j { removed with deferred := removed.deferred ++ [a] } .away)
    else none
  | .discard j => some (s.setJob j { s.rows j with done := [], dlq := [] } (s.stage j))
  | .rotate => some { s with ring := ⟨(s.ring.slot + 1) % slots, s.ring.generation + 1⟩ }
  | .prune slot lost =>
    -- the other gates, on leases and claims that refer to the slot, only keep more
    if (List.range s.jobs).all fun j => (s.rows j).ready.all fun row =>
        decide (row.key.ref.slot ≠ slot) || decide (row.key.laneSeq < s.cursor row.key.lane) then
      some { s with rows := fun j => (s.rows j).prune slot (lost j) }
    else none
  | .pruneClaims j gone =>
    if ∀ c ∈ (s.rows j).claims, c.runLease ∈ gone → c.runLease ∈ (s.rows j).closures then
      some (s.setJob j ((s.rows j).pruneClaims gone) (s.stage j))
    else none

def CountState.initial : CountState where
  rows := fun _ => {}
  jobs := 0
  cursor := fun _ => 1
  nextSeq := fun _ => 1
  ring := ⟨0, 0⟩
  stage := fun _ => .away

def countMachine (slots : Nat) : Machine CountState CountOp where
  init s := s = .initial
  step := countStep slots

def keepsCounts : CountOp → CountState → Bool
  | .cancelWaiting j row, s => row.key ∉ (s.rows j).attempts
  | .move j row _, s => row.key ∉ (s.rows j).attempts
  | .delete j (some row) _, s => row.key ∉ (s.rows j).attempts
  | .delete j none _, s => (s.rows j).leases.all fun lease =>
      (s.rows j).claims.all fun c => c.runLease ≠ lease.runLease ||
        decide (c.runLease ∈ (s.rows j).closures)
  | _, _ => true

def KeepsCounts (op : CountOp) (s : CountState) : Prop := keepsCounts op s = true

instance (op : CountOp) (s : CountState) : Decidable (KeepsCounts op s) :=
  inferInstanceAs (Decidable (_ = true))

end AwaQueue.Counts
