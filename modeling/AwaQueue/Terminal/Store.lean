import AwaQueue.Terminal.Rows
import AwaQueue.Unique.Claims
import AwaQueue.Library.Machine
import Mathlib.Logic.Function.Basic

/-! The store of ready, claim, lease and terminal rows, one transaction a step.

`leaseClaimReceipts` is the configured mode: a claim writes a receipt, which may later be
materialized into a lease, or it writes the lease at once. -/

namespace AwaQueue
open Library

structure RowStore where
  ready : List ReadyEntry
  tombstones : List ReadyTombstone
  /-- The claims that neither closure ledger holds. -/
  receipts : List Receipt
  leases : List LeaseEntry
  done : List DoneEntry
  /-- The rows of `done_entries` with a negative `lane_seq`. -/
  synthetic : List SyntheticRow
  completions : List CompletionEntry
  dlq : List DlqJobRow
  /-- `(job_id, run_lease)` of the `deferred_jobs` rows. -/
  deferred : List Attempt
  uniqueClaims : List UniqueClaim
  nextSeq : Lane → Nat
  nextReceipt : Nat
  leaseSlot : Nat
  /-- What the committed claims handed out, with the row they took; no statement reads it. -/
  claimed : List (ReadyEntry × ClaimedRuntimeJob)

def ReadyRow.unique (row : ReadyEntry) : UniqueColumns := ⟨row.job.uniqueKey, row.job.uniqueStates⟩

def DoneJobRow.sync (row : DoneJobRow) : UniqueSync :=
  ⟨row.attempt.jobId, ⟨row.uniqueKey, row.uniqueStates⟩, row.state.jobState⟩

def JobState.keepReadyBacking : JobState → Bool
  | .running | .waitingExternal => true
  | _ => false

namespace RowStore
variable (s : RowStore)

def evidence (a : Attempt) : Bool :=
  (s.done.any fun d => d.attempt = a) || (s.synthetic.any fun row => row.attempt = a) ||
    decide (a ∈ s.deferred) || s.dlq.any fun row => row.attempt = a

def leased (a : Attempt) : Bool := s.leases.any fun lease => lease.attempt = a

def syncUnique (jobId : Nat) (columns : UniqueColumns) (old new : Option JobState) :
    Option RowStore :=
  (syncUniqueClaim s.uniqueClaims jobId columns old new).map fun uniqueClaims =>
    { s with uniqueClaims }

def insertDoneEntry (row : DoneJobRow) (keepReadyBacking : Bool) (source : Option ReadyEntry) :
    Option RowStore :=
  if s.done.all fun d => d.key.primaryKey ≠ row.key.primaryKey then
    some { s with done := s.done ++ [row.entry keepReadyBacking source] }
  else none

def insertDoneRow (row : DoneJobRow) (old : JobState) (source : Option ReadyEntry) :
    Option RowStore :=
  (s.syncUnique row.sync.jobId row.sync.columns (some old) (some row.sync.new)).bind fun s =>
    s.insertDoneEntry row old.keepReadyBacking source

/-- `insert_done_rows_tx` for attempts that ran, each with the ready row it claimed. -/
def insertDoneRows (rows : List (DoneJobRow × ReadyEntry)) : Option RowStore :=
  (syncUniqueClaims s.uniqueClaims (some .running) (rows.map fun row => row.1.sync)).bind
      fun uniqueClaims =>
    rows.foldlM (fun (s : RowStore) row => s.insertDoneEntry row.1 true (some row.2))
      { s with uniqueClaims }

def doneReadyJoin (d : DoneEntry) : Option ReadyEntry := s.ready.find? fun row => row.key = d.key

def readDone (d : DoneEntry) : DoneJobRow := doneRowProjection d (s.doneReadyJoin d)

def readCompletion (c : CompletionEntry) : Option DoneJobRow :=
  (s.ready.find? fun row => row.key = c.key && row.job.jobId = c.attempt.jobId).map
    (completionProjection c)

def terminalJobs : List DoneJobRow := s.done.map s.readDone ++
    s.completions.filterMap s.readCompletion

/-- The ready row `hydrate_deleted_leases_tx` finds; its key has no priority. -/
def hydrate (c : AttemptColumns) : Option LeaseTransitionRow :=
  (s.ready.filter fun row => row.ref = c.ref && row.lane.queue = c.lane.queue &&
    row.lane.enqueueShard = c.lane.enqueueShard && row.laneSeq = c.laneSeq &&
    row.job.jobId = c.attempt.jobId).getLast?.map fun ready => ⟨c, ready⟩

end RowStore

def Receipt.isOf (c : Receipt) (x : ClaimedRuntimeJob) : Bool :=
  c.claimSlot = x.claim.claimSlot && c.attempt = x.job.attempt && some c.receiptId =
    x.claim.receiptId && c.batch = x.claim.batch

/-- The receipt of a claimed job that the fast path may close: a batch item is probed in the
closure ledgers only. -/
def RowStore.fastClaimRef (s : RowStore) (x : ClaimedRuntimeJob) : Option Receipt :=
  s.receipts.find? fun c => c.isOf x && (c.batch.isSome || !s.evidence c.attempt) &&
    !s.leased c.attempt

def RowStore.slowClaimRef (s : RowStore) (x : ClaimedRuntimeJob) : Option Receipt :=
  s.receipts.find? fun c => c.isOf x && !s.evidence c.attempt && !s.leased c.attempt

def ClaimedRuntimeJob.completion (x : ClaimedRuntimeJob) (finalizedAt : Nat) (source : ReadyEntry) :
    CompletionEntry where
  ref := x.claim.ref
  lane := { x.claim.lane with queue := x.job.queue }
  laneSeq := x.claim.laneSeq
  attempt := x.job.attempt
  number := x.job.number
  finalizedAt
  source

def claimRefs (find : ClaimedRuntimeJob → Option Receipt) (batch : List ClaimedRuntimeJob) :
    List (ClaimedRuntimeJob × Receipt) :=
  batch.filterMap fun x => (find x).map fun c => (x, c)

def RowStore.closeReceipts (s : RowStore) (receiptIds : List Nat) : RowStore :=
  { s with receipts := s.receipts.filter fun c => c.receiptId ∉ receiptIds }

def RowStore.closeReceiptPairs (s : RowStore) (attempts : List Attempt) : RowStore :=
  { s with receipts := s.receipts.filter fun c => c.attempt ∉ attempts }

def RowStore.deleteLeases (s : RowStore) (found : LeaseEntry → Bool) : RowStore :=
  { s with leases := s.leases.filter fun lease => !found lease }.closeReceiptPairs
    ((s.leases.filter found).map fun lease : LeaseEntry => lease.attempt)

def completeReceiptRuntimeBatchFast (s : RowStore) (batch : List ClaimedRuntimeJob)
    (finalizedAt : Nat) : RowStore × List Attempt :=
  let refs := claimRefs s.fastClaimRef batch
  ({ s.closeReceipts (refs.map (·.2.receiptId)) with
      completions := s.completions ++ refs.map fun ref =>
        ref.1.completion finalizedAt ref.2.source },
    refs.map (·.1.job.attempt))

def knownLeases (batch : List ClaimedRuntimeJob) (deleted : List LeaseEntry) :
    List (ClaimedRuntimeJob × LeaseEntry) :=
  deleted.filterMap fun lease =>
    (batch.filter fun x => x.job.attempt = lease.attempt).getLast?.map fun x => (x, lease)

/-- Delete the leases that match a claimed job of `rest`, close their receipts and write a done row
for each that the batch knows. -/
def completeLeases (s : RowStore) (found : LeaseEntry → ClaimedRuntimeJob → Bool)
    (rest batch : List ClaimedRuntimeJob) (finalizedAt : Nat) : Option (RowStore × List Attempt) :=
  let known := knownLeases batch (s.leases.filter fun lease => rest.any (found lease))
  ((s.deleteLeases fun lease => rest.any (found lease)).insertDoneRows
    (known.map fun job => (job.1.intoDoneRow finalizedAt, job.2.source))).map
    fun s => (s, known.map fun job => job.1.job.attempt)

def LeaseEntry.materializedFor (lease : LeaseEntry) (x : ClaimedRuntimeJob) : Bool :=
  lease.ref = x.claim.ref && lease.attempt = x.job.attempt && lease.lane = x.claim.lane &&
    lease.laneSeq = x.claim.laneSeq

def LeaseEntry.leasedFor (lease : LeaseEntry) (x : ClaimedRuntimeJob) : Bool :=
  lease.leaseSlot = x.claim.leaseSlot && lease.lane = x.claim.lane && lease.laneSeq =
    x.claim.laneSeq && lease.attempt.runLease = x.job.attempt.runLease

def completeRuntimeBatchSlow (leaseClaimReceipts : Bool) (s : RowStore)
    (batch : List ClaimedRuntimeJob) (finalizedAt : Nat) : Option (RowStore × List Attempt) :=
  if leaseClaimReceipts then
    let refs := claimRefs s.slowClaimRef (batch.filter (·.claim.leaseClaimReceipt))
    let updated := refs.map (·.1.job.attempt)
    ((s.closeReceipts (refs.map (·.2.receiptId))).insertDoneRows
      (refs.map fun ref => (ref.1.intoDoneRow finalizedAt, ref.2.source))).bind fun s =>
      let rest := batch.filter (fun x => !x.claim.leaseClaimReceipt) ++
        batch.filter fun x => x.claim.leaseClaimReceipt && decide (x.job.attempt ∉ updated)
      (completeLeases s LeaseEntry.materializedFor rest batch finalizedAt).map fun result =>
        (result.1, updated ++ result.2)
  else completeLeases s LeaseEntry.leasedFor batch batch finalizedAt

def completeRuntimeBatch (leaseClaimReceipts : Bool) (s : RowStore) (batch : List ClaimedRuntimeJob)
    (finalizedAt : Nat) : RowStore × Option (List Attempt) :=
  let slow (s : RowStore) (batch : List ClaimedRuntimeJob) (updated : List Attempt) :
      RowStore × Option (List Attempt) :=
    match completeRuntimeBatchSlow leaseClaimReceipts s batch finalizedAt with
    | none => (s, none)
    | some (s', more) => (s', some (updated ++ more))
  if leaseClaimReceipts && batch.all receiptFastCompleteCandidate then
    let (fast, updated) := completeReceiptRuntimeBatchFast s batch finalizedAt
    let missed := batch.filter fun x => x.job.attempt ∉ updated
    if updated.length = batch.length ∨ missed = [] then (fast, some updated)
      else slow fast missed updated
  else slow s batch []

def LeaseEntry.enteredAs (lease : LeaseEntry) (claim : ClaimedEntry) : Bool :=
  lease.leaseSlot = claim.leaseSlot && lease.lane = claim.lane && lease.laneSeq = claim.laneSeq

def completeClaimedBatch (s : RowStore) (batch : List ClaimedEntry) (finalizedAt : Nat) :
    RowStore × Option (List Attempt) :=
  let deleted := s.leases.filter fun lease => batch.any lease.enteredAs
  match (deleted.mapM fun lease => s.hydrate lease.toAttemptColumns).bind fun moved =>
      (s.deleteLeases fun lease => batch.any lease.enteredAs).insertDoneRows
        (moved.map fun row => (row.intoDoneRow .completed finalizedAt, row.columns.source)) with
  | none => (s, none)
  | some s' => (s', some (deleted.map fun lease => lease.attempt))

/-- `close_open_receipt_claim_tx`, then the deletion of the lease: the columns of the attempt and
the store without it. -/
def takeRunningAttempt (leaseClaimReceipts : Bool) (s : RowStore) (a : Attempt) :
    Option (AttemptColumns × RowStore) :=
  match s.receipts.find? fun c => leaseClaimReceipts && c.attempt = a && !s.evidence a &&
    !s.leased a with
  | some c => some (c.toAttemptColumns, s.closeReceiptPairs [a])
  | none => (s.leases.find? fun lease => lease.attempt = a).map fun lease =>
      (lease.toAttemptColumns, s.deleteLeases fun lease => lease.attempt = a)

inductive Disposition where
  | terminal (state : TerminalState)
  | dlq
  | deferred (state : JobState)
  | ready
deriving DecidableEq

def Disposition.newState : Disposition → JobState
  | .terminal state => state.jobState
  | .dlq => .failed
  | .deferred state => state
  | .ready => .available

/-- The state of a lease: a handler may be waiting for a callback. -/
def leaseState (waiting : Bool) : JobState := if waiting then .waitingExternal else .running

/-- Failure, running cancel, rescue and callbacks: take the attempt, hydrate it and write its
successor. A re-queued ready row is a later `enqueue`. -/
def settleAttempt (leaseClaimReceipts : Bool) (s : RowStore) (a : Attempt) (waiting : Bool)
    (disposition : Disposition) (finalizedAt : Nat) : Option RowStore := do
  let (columns, taken) ← takeRunningAttempt leaseClaimReceipts s a
  let moved ← s.hydrate columns
  let synced ← taken.syncUnique a.jobId moved.ready.unique (some (leaseState waiting))
    (some disposition.newState)
  match disposition with
  | .terminal state =>
    synced.insertDoneEntry (moved.intoDoneRow state finalizedAt) true (some columns.source)
  | .dlq => some { synced with dlq := synced.dlq ++ [moved.intoDlqRow] }
  | .deferred _ => some { synced with deferred := synced.deferred ++ [a] }
  | .ready => some synced

/-- The receipt branch of `try_cancel_running_attempt_tx`. It looks the ready row up by job, ring
position, queue and `lane_seq`. -/
def cancelReceipt (s : RowStore) (a : Attempt) (finalizedAt : Nat) : Option RowStore := do
  let c ← s.receipts.find? fun c => c.attempt = a && !s.evidence a && !s.leased a
  let ready ← s.ready.find? fun row => row.job.jobId = a.jobId && row.ref = c.ref &&
    row.lane.queue = c.lane.queue && row.laneSeq = c.laneSeq
  let done ← s.insertDoneRow (c.cancelledRow ready finalizedAt) .running (some c.source)
  pure (done.closeReceipts [c.receiptId])

def RowStore.enqueue (s : RowStore) (lane : Lane) (ref : RingRef) (runAt : Nat) (job : JobColumns) :
    RowStore :=
  { s with
    ready := s.ready ++ [⟨lane, s.nextSeq lane, ref, runAt, job⟩]
    nextSeq := Function.update s.nextSeq lane (s.nextSeq lane + 1) }

def claimedJob (leaseClaimReceipts : Bool) (s : RowStore) (row : ReadyEntry)
    (priority claimSlot : Nat) (batch : Option (Nat × Nat)) : ClaimedRuntimeJob where
  claim :=
    { lane := row.lane, laneSeq := row.laneSeq, ref := row.ref, leaseSlot := s.leaseSlot
      claimSlot := if leaseClaimReceipts then claimSlot else 0
      receiptId := if leaseClaimReceipts then some s.nextReceipt else none
      batch := if leaseClaimReceipts then batch else none
      leaseClaimReceipt := leaseClaimReceipts }
  job := row.jobRow priority
  uniqueStates := row.job.uniqueStates

def RowStore.insertLease (s : RowStore) (columns : AttemptColumns) : Option RowStore :=
  if s.leases.all fun lease => (lease.leaseSlot, lease.lane, lease.laneSeq) ≠ (s.leaseSlot,
    columns.lane, columns.laneSeq)
  then some { s with leases := s.leases ++ [{ columns with leaseSlot := s.leaseSlot }] } else none

/-- A claim of one ready row with an effective priority. A row is claimed once and starts an
attempt that no claim has handed out. -/
def RowStore.claim (leaseClaimReceipts : Bool) (s : RowStore) (row : ReadyEntry)
    (priority claimSlot : Nat)
    (batch : Option (Nat × Nat)) : Option RowStore :=
  let x := claimedJob leaseClaimReceipts s row priority claimSlot batch
  let logged := { s with claimed := s.claimed ++ [(row, x)] }
  if row ∈ s.ready ∧ row.key ∉ s.tombstones ∧ 1 ≤ priority ∧ priority ≤ row.lane.priority ∧
      (s.claimed.all fun old => old.1.key ≠ row.key ∧ old.2.job.attempt ≠ row.nextAttempt) then
    if leaseClaimReceipts then
      some { logged with
        receipts := s.receipts ++ [{ row.columns priority with
          claimSlot, receiptId := s.nextReceipt, batch }]
        nextReceipt := s.nextReceipt + 1 }
    else logged.insertLease (row.columns priority)
  else none

def RowStore.materialize (s : RowStore) (a : Attempt) : Option RowStore :=
  match s.receipts.find? fun c => c.attempt = a && !s.evidence a && !s.leased a with
  | some c => s.insertLease c.toAttemptColumns
  | none => none

def RowStore.cancelReady (s : RowStore) (row : ReadyEntry) (finalizedAt : Nat) : Option RowStore :=
  if row ∈ s.ready ∧ row.key ∉ s.tombstones then
    { s with tombstones := s.tombstones ++ [row.key] }.insertDoneRow (row.cancelledRow finalizedAt)
      .available none
  else none

def RowStore.cancelDeferred (s : RowStore) (a : Attempt) (ref : RingRef) (queue priority : Nat)
    (old : JobState) (unique : UniqueColumns) : Option RowStore :=
  let row : SyntheticRow := ⟨ref, queue, priority, a⟩
  (s.syncUnique a.jobId unique (some old) (some .cancelled)).bind fun s =>
    if a ∈ s.deferred ∧ ∀ old ∈ s.synthetic, old.primaryKey ≠ row.primaryKey then
      some { s with deferred := s.deferred.erase a, synthetic := s.synthetic ++ [row] }
    else none

def RowStore.retryDone (s : RowStore) (d : DoneEntry) (shard : Nat) (ref : RingRef) (runAt : Nat)
    (payload : RuntimePayload) : Option RowStore :=
  if d ∈ s.done ∧ d.state ≠ .completed then
    some ({ s with done := s.done.erase d }.enqueue { d.lane with enqueueShard := shard } ref runAt
      ((s.readDone d).retryColumns payload))
  else none

def RowStore.moveFailedToDlq (s : RowStore) (d : DoneEntry) : Option RowStore :=
  if d ∈ s.done ∧ d.state = .failed then
    some { s with done := s.done.erase d, dlq := s.dlq ++ [(s.readDone d).intoDlqRow d.source] }
  else none

def RowStore.retryFromDlq (s : RowStore) (row : DlqJobRow) (lane : Lane) (ref : RingRef)
    (runAt : Nat) (payload : RuntimePayload) : Option RowStore :=
  if row ∈ s.dlq then some ({ s with dlq := s.dlq.erase row }.enqueue lane ref runAt
    (row.retryColumns payload))
  else none

def RowStore.carried (s : RowStore) (current : RingRef) (d : DoneEntry) : DoneEntry :=
  { (s.readDone d).entry false d.source with ref := current }

/-- `prune_oldest` of one slot, whose gates looked at one generation of it. -/
def RowStore.prune (s : RowStore) (slot generation : Nat) (current : RingRef)
    (kept : DoneEntry → Bool) : Option RowStore :=
  let moved : List DoneEntry :=
    (s.done.filter fun d => d.ref.slot = slot && d.state = .failed && kept d).map
      (s.carried current)
  let rest : List DoneEntry := s.done.filter fun d => d.ref.slot ≠ slot
  if current.slot ≠ slot ∧ (s.leases.all fun lease => lease.ref ≠ ⟨slot, generation⟩) ∧
      (s.receipts.all fun c => c.ref ≠ ⟨slot, generation⟩) ∧
      ((rest ++ moved).map fun d => d.key.primaryKey).Nodup then
    some { s with
      ready := s.ready.filter fun row => row.ref.slot ≠ slot
      tombstones := s.tombstones.filter fun key => key.ref.slot ≠ slot
      done := rest ++ moved
      synthetic := s.synthetic.filter fun row => row.ref.slot ≠ slot
      completions := s.completions.filter fun c => c.ref.slot ≠ slot }
  else none

inductive RowOp where
  /-- New jobs, promotion, moves and re-queued attempts. -/
  | enqueue (lane : Lane) (ref : RingRef) (runAt : Nat) (job : JobColumns)
  | claim (row : ReadyEntry) (priority claimSlot : Nat) (batch : Option (Nat × Nat))
  | materialize (a : Attempt)
  | completeRuntimeBatch (batch : List ClaimedRuntimeJob) (finalizedAt : Nat)
  | completeClaimedBatch (batch : List ClaimedEntry) (finalizedAt : Nat)
  | settle (a : Attempt) (waiting : Bool) (disposition : Disposition) (finalizedAt : Nat)
  | cancelReceipt (a : Attempt) (finalizedAt : Nat)
  | cancelReady (row : ReadyEntry) (finalizedAt : Nat)
  | retryDone (d : DoneEntry) (shard : Nat) (ref : RingRef) (runAt : Nat) (payload : RuntimePayload)
  | moveFailedToDlq (d : DoneEntry)
  | retryFromDlq (row : DlqJobRow) (lane : Lane) (ref : RingRef) (runAt : Nat)
    (payload : RuntimePayload)
  | cancelDeferred (a : Attempt) (ref : RingRef) (queue priority : Nat) (old : JobState)
    (unique : UniqueColumns)
  | removeDeferred (a : Attempt)
  | removeSynthetic (row : SyntheticRow)
  | discardDone (d : DoneEntry)
  | prune (slot generation : Nat) (current : RingRef) (kept : DoneEntry → Bool)
  | rotateLeases (slot : Nat)
  /-- The unique claims of the rows that the other operations insert, take or delete. -/
  | syncUnique (jobId : Nat) (columns : UniqueColumns) (old new : Option JobState)

/-- One transaction. A completion is called with what claims have handed out, each attempt once. -/
def rowStep (leaseClaimReceipts : Bool) (op : RowOp) (s : RowStore) : Option RowStore :=
  match op with
  | .enqueue lane ref runAt job => some (s.enqueue lane ref runAt job)
  | .claim row priority claimSlot batch => s.claim leaseClaimReceipts row priority claimSlot batch
  | .materialize a => if leaseClaimReceipts then s.materialize a else none
  | .completeRuntimeBatch batch finalizedAt =>
    if (∀ x ∈ batch, x ∈ s.claimed.map Prod.snd) ∧ (batch.map (·.job.attempt)).Nodup then
      some (completeRuntimeBatch leaseClaimReceipts s batch finalizedAt).1
    else none
  | .completeClaimedBatch batch finalizedAt =>
    if ∀ claim ∈ batch, claim ∈ s.claimed.map (·.2.claim) then
      some (completeClaimedBatch s batch finalizedAt).1
    else none
  | .settle a waiting disposition finalizedAt =>
    settleAttempt leaseClaimReceipts s a waiting disposition finalizedAt
  | .cancelReceipt a finalizedAt =>
    if leaseClaimReceipts then cancelReceipt s a finalizedAt else none
  | .cancelReady row finalizedAt => s.cancelReady row finalizedAt
  | .retryDone d shard ref runAt payload => s.retryDone d shard ref runAt payload
  | .moveFailedToDlq d => s.moveFailedToDlq d
  | .retryFromDlq row lane ref runAt payload => s.retryFromDlq row lane ref runAt payload
  | .cancelDeferred a ref queue priority old unique =>
    s.cancelDeferred a ref queue priority old unique
  | .removeSynthetic row => some { s with synthetic := s.synthetic.erase row }
  | .removeDeferred a => some { s with deferred := s.deferred.erase a }
  | .discardDone d => some { s with done := s.done.erase d }
  | .prune slot generation current kept => s.prune slot generation current kept
  | .rotateLeases slot => some { s with leaseSlot := slot }
  | .syncUnique jobId columns old new => s.syncUnique jobId columns old new

def RowStore.initial : RowStore where
  ready := []
  tombstones := []
  receipts := []
  leases := []
  done := []
  synthetic := []
  completions := []
  dlq := []
  deferred := []
  uniqueClaims := []
  nextSeq := fun _ => 1
  nextReceipt := 0
  leaseSlot := 0
  claimed := []

def rowMachine (leaseClaimReceipts : Bool) : Machine RowStore RowOp :=
  ⟨fun s => s = RowStore.initial, rowStep leaseClaimReceipts⟩

end AwaQueue
