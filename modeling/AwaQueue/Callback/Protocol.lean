import AwaQueue.Terminal.Rows
import AwaQueue.Unique.Claims

/-! Callbacks and heartbeats of a running attempt.

An attempt is claimed by receipt. `register_callback` gives it a row of `leases`; from then on the
row carries its callback and its state, and `attempt_state` its heartbeat, its progress and the
result of a callback.

Every call that writes the lease of an attempt is a transaction of two steps. `begin` is its
statement on `leases`: it finds the rows and locks them, or waits for the transaction that has
locked one. `commit` is all the rest, on rows that belong to the same attempts. The advisory lock
of an attempt, which `register_callback` and the receipt closers take first, is the lock of its
lease row here: while a receipt has no lease only a registration can hold it, and while there is one
the receipt closers do not touch it.

The clock is a counter, and a callback id a number that no registration has used before. The queue
ring keeps the ready rows of open attempts and is left out. -/

namespace AwaQueue
open Function (update)
open Library

structure ClaimReceipt extends AttemptColumns where
  claimedAt : Nat
  deadlineAt : Option Nat
deriving DecidableEq

structure LiveLease extends AttemptColumns where
  state : JobState
  heartbeatAt : Option Nat
  deadlineAt : Option Nat
  callbackId : Option Nat
  callbackTimeoutAt : Option Nat
deriving DecidableEq

namespace LiveLease
variable (lease : LiveLease)

def withCallback (callbackId timeoutAt : Nat) : LiveLease :=
  { lease with callbackId := some callbackId, callbackTimeoutAt := some timeoutAt }

def withoutCallback : LiveLease := { lease with callbackId := none, callbackTimeoutAt := none }

def parked : LiveLease := { lease with state := .waitingExternal, heartbeatAt := none, deadlineAt :=
    none }

def extended (timeoutAt : Nat) : LiveLease := { lease with callbackTimeoutAt := some timeoutAt }

def resumed (at_ : Nat) : LiveLease :=
  { lease with
    state := .running, callbackId := none, callbackTimeoutAt := none, heartbeatAt := some at_ }

/-- `callback_id = $1 AND state IN ('waiting_external', 'running') AND ($2 IS NULL OR run_lease =
$2)`. -/
def answers (callbackId : Nat) (runLease : Option Nat) : Bool :=
  lease.callbackId = some callbackId && (lease.state = .waitingExternal ||
    lease.state = .running) && runLease.all fun r => lease.attempt.runLease = r

end LiveLease

structure CallbackConfig where
  filter : Option String := none
  onComplete : Option String := none
  onFail : Option String := none
  transform : Option String := none
deriving DecidableEq

def CallbackConfig.isEmpty (config : CallbackConfig) : Bool :=
  config.filter.isNone && config.onComplete.isNone && config.onFail.isNone &&
    config.transform.isNone

structure AttemptScratch where
  heartbeatAt : Option Nat := none
  progress : Option String := none
  config : CallbackConfig := {}
  callbackResult : Option String := none
deriving DecidableEq

structure DeferredEntry where
  queue : Nat
  priority : Nat
  state : JobState
  runAt : Nat
  job : JobColumns
deriving DecidableEq

def JobRecord.unique {Kind Args Stored : Type} (job : JobRecord Kind Args Stored) : UniqueColumns :=
  ⟨job.uniqueKey, job.uniqueStates⟩

def AttemptColumns.readyKey (c : AttemptColumns) : ReadyTombstone := ⟨c.lane, c.laneSeq, c.ref⟩

structure LanePlace where
  enqueueShard : Nat
  laneSeq : Nat
  ref : RingRef
deriving DecidableEq

inductive Settlement where
  | done (state : TerminalState)
  | dlq
  | deferred (state : JobState) (runAt : Nat)
  | ready (place : LanePlace)
deriving DecidableEq

def Settlement.state : Settlement → JobState
  | .done state => state.jobState
  | .dlq => .failed
  | .deferred state _ => state
  | .ready _ => .available

/-- The queues with a DLQ, and the time that `backoff_at_tx` returns. -/
structure RescuePolicy where
  dlqQueues : List Nat
  runAt : Nat
deriving DecidableEq

def RescuePolicy.settle (policy : RescuePolicy) (c : AttemptColumns) : Settlement :=
  if c.maxAttempts ≤ c.number then if c.lane.queue ∈ policy.dlqQueues then .dlq else .done .failed
  else .deferred .retryable policy.runAt

namespace AttemptScratch

def withoutConfig (row : Option AttemptScratch) : Option AttemptScratch :=
  row.bind fun row =>
    if row.progress.isNone && row.callbackResult.isNone then none
      else some { row with config := {} }

def withConfig (config : CallbackConfig) (row : Option AttemptScratch) : Option AttemptScratch :=
  some { row.getD {} with config := config }

def resumed (payload : String) (row : Option AttemptScratch) : Option AttemptScratch :=
  some { row.getD {} with config := {}, callbackResult := some payload }

def resultTaken (row : Option AttemptScratch) : Option AttemptScratch :=
  row.bind fun row =>
    if row.progress.isNone && row.config.isEmpty then none
      else some { row with callbackResult := none }

def beaten (now : Nat) (row : Option AttemptScratch) : Option AttemptScratch :=
  some { row.getD {} with heartbeatAt := some now }

def progressed (progress : String) (row : Option AttemptScratch) : Option AttemptScratch :=
  some { row.getD {} with progress := some progress }

end AttemptScratch

inductive LeaseCall where
  /-- With an empty `config` this is `register_callback`, else `register_callback_with_config`. -/
  | registerCallback (a : Attempt) (timeout : Nat) (config : CallbackConfig)
  | cancelCallback (a : Attempt)
  | enterCallbackWait (a : Attempt) (callbackId : Nat)
  | heartbeatCallback (callbackId timeout : Nat)
  | resumeExternal (callbackId : Nat) (runLease : Option Nat) (payload : String)
  | completeExternal (callbackId : Nat) (runLease : Option Nat)
  | failExternal (callbackId : Nat) (runLease : Option Nat)
  | retryExternal (callbackId : Nat) (runLease : Option Nat) (place : LanePlace)
  | retryJob (jobId : Nat) (place : LanePlace)
  | cancelRunning (a : Attempt)
  /-- The lease part of `take_running_attempt_tx`, with what its caller makes of the attempt. -/
  | takeRunningAttempt (a : Attempt) (settlement : Settlement)
  /-- The lease part of `complete_runtime_batch`: the attempts with the lane of their claim. -/
  | completeRuntimeBatch (batch : List (Attempt × ReadyTombstone))
  | rescueExpiredCallbacks (limit : List Attempt) (policy : RescuePolicy)
  | rescueExpiredDeadlines (limit : List Attempt) (policy : RescuePolicy)
  /-- The lease part of `rescue_stale_heartbeats`, which took its cutoff when it began. -/
  | rescueStaleHeartbeats (begun : Nat) (limit : List Attempt) (policy : RescuePolicy)
deriving DecidableEq

structure LeaseTx where
  call : LeaseCall
  startedAt : Nat
  rows : List LiveLease
deriving DecidableEq

inductive ReceiptCloser where
  /-- The compact path writes no row of `done_entries`. -/
  | completeRuntimeBatch (compact : Bool)
  | takeRunningAttempt (settlement : Settlement)
  | cancelRunning
  | rescueExpiredDeadlines (policy : RescuePolicy)
  /-- The receipt part of `rescue_stale_heartbeats`. -/
  | rescueStaleHeartbeats (begun : Nat) (policy : RescuePolicy)
deriving DecidableEq

/-- A row of `done_entries` with its primary key, or a compact completion, which has none. -/
structure TerminalRecord where
  attempt : Attempt
  state : TerminalState
  key : Option (Nat × Lane × Nat)
deriving DecidableEq

structure CallbackState where
  now : Nat
  nextJob : Nat
  nextCallback : Nat
  ready : List ReadyEntry
  unclaimed : List ReadyEntry
  deferred : List DeferredEntry
  claims : List ClaimReceipt
  closures : List Attempt
  leases : List LiveLease
  done : List TerminalRecord
  dlq : List Attempt
  scratch : Attempt → Option AttemptScratch
  uniqueClaims : List UniqueClaim
  lock : Attempt → Option TxId
  tx : TxId → Option LeaseTx
  /-- The committed registrations; no statement reads it. -/
  registered : List (Nat × Attempt)
  /-- The ids that a later registration or a cancel replaced; no statement reads it. -/
  retired : List Nat
  /-- The ids that were resolved, with the attempt; no statement reads it. -/
  resolved : List (Nat × Attempt)
  /-- The time of the claim or of the last recorded heartbeat; no statement reads it. -/
  lastBeat : Attempt → Nat
  /-- The attempts that stale-heartbeat rescues took; no statement reads it. -/
  staleRescued : List Attempt

namespace CallbackState
variable (s : CallbackState)

def isOpen (a : Attempt) : Bool := a ∉ s.closures && s.claims.any fun c => c.attempt = a

def leased (a : Attempt) : Bool := s.leases.any fun lease => lease.attempt = a

def scratchBeat (a : Attempt) : Option Nat := (s.scratch a).bind AttemptScratch.heartbeatAt

def setScratch (a : Attempt) (row : Option AttemptScratch) : CallbackState :=
  { s with scratch := update s.scratch a row }

def materialized (a : Attempt) : List LiveLease :=
  if s.leased a then []
  else (s.claims.filter fun c => c.attempt = a && c.attempt ∉ s.closures).map fun c =>
    ⟨c.toAttemptColumns, .running, some s.now, c.deadlineAt, none, none⟩

/-- `COALESCE(attempt.heartbeat_at, <fallback>) < cutoff`, where the transaction that asks began at
`begun`. -/
def stale (staleness begun : Nat) (a : Attempt) (fallback : Option Nat) : Bool :=
  ((s.scratchBeat a).or fallback).any fun heartbeat => heartbeat + staleness < begun

def insertReady (place : LanePlace) (queue priority runAt : Nat) (job : JobColumns) :
    Option CallbackState :=
  let row : ReadyEntry := ⟨⟨queue, priority, place.enqueueShard⟩, place.laneSeq,
    place.ref, runAt, job⟩
  if row.key ∉ s.ready.map ReadyRow.key then
    some { s with ready := s.ready ++ [row], unclaimed := s.unclaimed ++ [row] }
  else none

/-- The join of `hydrate_deleted_leases_tx`, which leaves out the priority. -/
def hydrate (c : AttemptColumns) : Option ReadyEntry :=
  s.ready.find? fun row => row.ref = c.ref ∧ row.lane.queue = c.lane.queue ∧
    row.lane.enqueueShard = c.lane.enqueueShard ∧ row.laneSeq = c.laneSeq ∧
      row.job.jobId = c.attempt.jobId

/-- Insert the successor. A done row goes to the given lane; `none` on a primary key conflict. -/
def place (c : AttemptColumns) (lane : Option Lane) (job : JobColumns) : Settlement →
    Option CallbackState
  | .done state =>
    let key := lane.map fun lane => (c.ref.slot, lane, c.laneSeq)
    if key = none ∨ key ∉ s.done.map TerminalRecord.key then
      some { s with done := s.done ++ [⟨c.attempt, state, key⟩] }
    else none
  | .dlq => some { s with dlq := s.dlq ++ [c.attempt] }
  | .deferred state runAt =>
    some { s with deferred := s.deferred ++ [⟨c.lane.queue, c.lane.priority, state, runAt,
      { job with attempt := c.number, runLease := c.attempt.runLease, maxAttempts :=
        c.maxAttempts }⟩] }
  | .ready place =>
    s.insertReady place c.lane.queue c.lane.priority s.now
      { job with attempt := 0, runLease := c.attempt.runLease, maxAttempts := c.maxAttempts }

/-- Write the successor of an ended attempt. A rescue that meets a conflict cancels the job, as
`cancel_rescued_duplicate_tx` does; any other call fails. -/
def settle (c : AttemptColumns) (lane : Option Lane) (old : JobState) (rescue : Bool)
    (settlement : Settlement) : Option CallbackState :=
  (s.hydrate c).bind fun ready =>
    let sync (new : JobState) := syncUniqueClaim s.uniqueClaims c.attempt.jobId ready.job.unique
      (some old) (some new)
    match (sync settlement.state).bind fun table =>
        { s with uniqueClaims := table }.place c lane ready.job settlement with
    | some s' => some s'
    | none =>
      if rescue then
        { s with uniqueClaims := (sync .cancelled).getD s.uniqueClaims }.place c lane ready.job
          (.done .cancelled)
      else none

def finishAttempt (c : AttemptColumns) (lane : Option Lane) (old : JobState) (rescue : Bool)
    (settlement : Settlement) : Option CallbackState :=
  { s with
    leases := s.leases.filter fun lease => lease.attempt ≠ c.attempt
    scratch := update s.scratch c.attempt none
    closures := s.closures ++ [c.attempt] }.settle c lane old rescue settlement

def replaceLeases (rows : List LiveLease) (f : LiveLease → LiveLease) : CallbackState :=
  { s with leases :=
      (s.leases.filter fun lease => lease.attempt ∉ rows.map (fun row => row.attempt)) ++
        rows.map f }

def release (t : TxId) : CallbackState :=
  { s with
    lock := fun a => (s.lock a).filter fun holder => holder ≠ t
    tx := update s.tx t none }

end CallbackState

namespace LeaseCall
variable (staleness : Nat) (s : CallbackState)

def finds (lease : LiveLease) : LeaseCall → Bool
  | .registerCallback a _ _ | .takeRunningAttempt a _ => lease.attempt = a && lease.state = .running
  | .cancelCallback a => lease.attempt = a && lease.state = .running && lease.callbackId.isSome
  | .enterCallbackWait a callbackId =>
    lease.attempt = a && lease.state = .running && lease.callbackId = some callbackId
  | .heartbeatCallback callbackId _ =>
    lease.callbackId = some callbackId && lease.state = .waitingExternal
  | .resumeExternal callbackId runLease _ | .completeExternal callbackId runLease
  | .failExternal callbackId runLease => lease.answers callbackId runLease
  | .retryExternal callbackId runLease _ =>
    lease.callbackId = some callbackId && lease.state = .waitingExternal &&
      runLease.all fun r => lease.attempt.runLease = r
  | .retryJob jobId _ => lease.attempt.jobId = jobId && lease.state = .waitingExternal
  | .cancelRunning a =>
    lease.attempt = a && (lease.state = .running || lease.state = .waitingExternal)
  | .completeRuntimeBatch batch => decide ((lease.attempt, lease.readyKey) ∈ batch)
  | .rescueExpiredCallbacks limit _ =>
    lease.state = .waitingExternal && (lease.callbackTimeoutAt.any fun at_ => at_ < s.now) &&
      lease.attempt ∈ limit
  | .rescueExpiredDeadlines limit _ =>
    lease.state = .running && (lease.deadlineAt.any fun at_ => at_ < s.now) && lease.attempt ∈ limit
  | .rescueStaleHeartbeats begun limit _ =>
    lease.state = .running && begun ≤ s.now &&
      s.stale staleness begun lease.attempt lease.heartbeatAt && lease.attempt ∈ limit

/-- The rows that the statement takes. The rescues skip locked rows; those of deadlines and
callbacks select job ids and delete every lease of these jobs. -/
def rows (call : LeaseCall) : List LiveLease :=
  let free (lease : LiveLease) : Bool := (s.lock lease.attempt).isNone
  match call with
  | .registerCallback a _ _ =>
    (s.leases ++ s.materialized a).filter fun lease => call.finds staleness s lease
  | .rescueExpiredCallbacks _ _ | .rescueExpiredDeadlines _ _ =>
    let jobs := (s.leases.filter fun lease => call.finds staleness s lease && free lease).map
      fun l => l.attempt.jobId
    s.leases.filter fun lease => lease.attempt.jobId ∈ jobs
  | .rescueStaleHeartbeats _ _ _ =>
    s.leases.filter fun lease => call.finds staleness s lease && free lease
  | _ => s.leases.filter fun lease => call.finds staleness s lease

def settlement (lease : LiveLease) : LeaseCall → Option (Settlement × Bool)
  | .completeExternal _ _ | .completeRuntimeBatch _ => some (.done .completed, false)
  | .failExternal _ _ => some (.done .failed, false)
  | .retryExternal _ _ place | .retryJob _ place => some (.ready place, false)
  | .cancelRunning _ => some (.done .cancelled, false)
  | .takeRunningAttempt _ settlement => some (settlement, false)
  | .rescueExpiredCallbacks _ policy | .rescueExpiredDeadlines _ policy
  | .rescueStaleHeartbeats _ _ policy =>
    some (policy.settle lease.toAttemptColumns, true)
  | .registerCallback _ _ _ | .cancelCallback _ | .enterCallbackWait _ _ | .heartbeatCallback _ _
  | .resumeExternal _ _ _ => none

def resolves : LeaseCall → Option Nat
  | .resumeExternal callbackId _ _ | .completeExternal callbackId _ | .failExternal callbackId _
  | .retryExternal callbackId _ _ => some callbackId
  | _ => none

def isStaleRescue : LeaseCall → Bool
  | .rescueStaleHeartbeats _ _ _ => true
  | _ => false

def registers : LeaseCall → Bool
  | .registerCallback _ _ _ => true
  | _ => false

end LeaseCall

structure LeaseJobRow where
  lease : LiveLease
  ready : ReadyEntry
  attempt : Option AttemptScratch
deriving DecidableEq

namespace CallbackState
variable (s : CallbackState)

/-- `leases JOIN ready_entries LEFT JOIN attempt_state`, by the whole key of the ready row. -/
def leaseJobRow (lease : LiveLease) : Option LeaseJobRow :=
  (s.ready.find? fun row => row.key = lease.readyKey).map fun row =>
    ⟨lease, row, s.scratch lease.attempt⟩

def loadActiveLease (a : Attempt) : Option LeaseJobRow :=
  ((s.leases.filter fun lease => lease.attempt = a).filterMap s.leaseJobRow).head?

def callbackJob (callbackId : Nat) (runLease : Option Nat) : Option LeaseJobRow :=
  (orderBy (fun row => row.lease.attempt.runLease)
    ((s.leases.filter fun lease => lease.answers callbackId runLease).filterMap
      s.leaseJobRow)).getLast?

end CallbackState

def finishRows (call : LeaseCall) (rows : List LiveLease) (s : CallbackState) :
    Option CallbackState :=
  rows.foldlM (fun s lease => (call.settlement lease).bind fun (settlement, rescue) =>
    s.finishAttempt lease.toAttemptColumns (some lease.lane) lease.state rescue settlement) s

def finishCall (s : CallbackState) (x : LeaseTx) : Option CallbackState :=
  let resolved (callbackId : Nat) := x.rows.map fun lease => (callbackId, lease.attempt)
  match x.call with
  | .registerCallback a timeout config =>
    some ({ s.replaceLeases x.rows fun lease => lease.withCallback s.nextCallback
      (x.startedAt + timeout) with
      nextCallback := s.nextCallback + 1
      registered := s.registered ++ [(s.nextCallback, a)]
      retired := s.retired ++ x.rows.filterMap LiveLease.callbackId }.setScratch a
        (if config.isEmpty then AttemptScratch.withoutConfig (s.scratch a)
        else AttemptScratch.withConfig config (s.scratch a)))
  | .cancelCallback a =>
    some ({ s.replaceLeases x.rows LiveLease.withoutCallback with
      retired := s.retired ++ x.rows.filterMap LiveLease.callbackId }.setScratch a
        (AttemptScratch.withoutConfig (s.scratch a)))
  | .enterCallbackWait _ _ => some (s.replaceLeases x.rows LiveLease.parked)
  | .heartbeatCallback _ timeout =>
    some (s.replaceLeases x.rows fun lease => lease.extended (x.startedAt + timeout))
  | .resumeExternal callbackId _ payload =>
    x.rows.head?.bind fun first =>
      let resumed := { s.replaceLeases x.rows fun lease => lease.resumed x.startedAt with
        resolved := s.resolved ++ resolved callbackId }.setScratch first.attempt
          (AttemptScratch.resumed payload (s.scratch first.attempt))
      -- a row that cannot be read back is `CallbackNotFound`, and the transaction is rolled back
      if (resumed.loadActiveLease first.attempt).isSome then some resumed else none
  | call =>
    (finishRows call x.rows s).map fun s => { s with
      resolved := s.resolved ++ (call.resolves.map resolved).getD []
      staleRescued := s.staleRescued ++ if call.isStaleRescue then
        x.rows.map (fun lease => lease.attempt) else [] }

namespace ReceiptCloser

def settlement (c : ClaimReceipt) : ReceiptCloser → Settlement × Bool
  | .completeRuntimeBatch _ => (.done .completed, false)
  | .takeRunningAttempt settlement => (settlement, false)
  | .cancelRunning => (.done .cancelled, false)
  | .rescueExpiredDeadlines policy | .rescueStaleHeartbeats _ policy =>
    (policy.settle c.toAttemptColumns, true)

/-- The lane of the done row: a completion has that of the claimed entry, a cancel the shard of the
ready row that it finds by job, ring position, queue and `lane_seq`. -/
def doneLane (s : CallbackState) (c : ClaimReceipt) : ReceiptCloser → Option Lane
  | .completeRuntimeBatch compact => if compact then none else some c.source.lane
  | .cancelRunning =>
    let found := s.ready.find? fun row => row.job.jobId = c.attempt.jobId && row.ref = c.ref &&
      row.lane.queue = c.lane.queue && row.laneSeq = c.laneSeq
    some { c.lane with enqueueShard := (found.map fun row =>
      row.lane.enqueueShard).getD c.lane.enqueueShard }
  | .takeRunningAttempt _ | .rescueExpiredDeadlines _ | .rescueStaleHeartbeats _ _ => some c.lane

def finds (staleness : Nat) (s : CallbackState) (c : ClaimReceipt) : ReceiptCloser → Bool
  | .completeRuntimeBatch _ | .takeRunningAttempt _ | .cancelRunning => true
  | .rescueExpiredDeadlines _ =>
    (c.deadlineAt.any fun at_ => at_ < s.now) && (s.lock c.attempt).isNone
  | .rescueStaleHeartbeats begun _ =>
    begun ≤ s.now && s.stale staleness begun c.attempt (some c.claimedAt) &&
      (s.lock c.attempt).isNone

def claims (staleness : Nat) (s : CallbackState) (attempts : List Attempt)
    (closer : ReceiptCloser) : List ClaimReceipt :=
  s.claims.filter fun c => c.attempt ∈ attempts && c.attempt ∉ s.closures && !s.leased c.attempt &&
    closer.finds staleness s c

def isStaleRescue : ReceiptCloser → Bool
  | .rescueStaleHeartbeats _ _ => true
  | _ => false

end ReceiptCloser

inductive CallbackOp where
  | tick
  | enqueue (place : LanePlace) (queue priority : Nat) (job : JobColumns)
  | promote (entry : DeferredEntry) (place : LanePlace)
  /-- `priority` is the effective one. -/
  | claim (row : ReadyEntry) (priority : Nat) (deadlineAt : Option Nat)
  | heartbeat (attempts : List Attempt)
  | heartbeatProgress (a : Attempt) (progress : String)
  | flushProgress (a : Attempt) (progress : String)
  | takeCallbackResult (a : Attempt)
  | begin (t : TxId) (call : LeaseCall)
  | commit (t : TxId)
  | abort (t : TxId)
  | closeReceipts (closer : ReceiptCloser) (attempts : List Attempt)
  /-- What retries, discards, prunes and cancels of waiting jobs leave in `done_entries`. -/
  | replaceDone (done : List TerminalRecord)
deriving DecidableEq

namespace CallbackState
variable (s : CallbackState)

def registering (a : Attempt) : Bool := (s.lock a).any fun t => (s.tx t).any fun x =>
    x.call.registers

def beat (attempts : List Attempt) : CallbackState :=
  { s with
    scratch := fun a => if a ∈ attempts ∧ s.isOpen a then AttemptScratch.beaten s.now (s.scratch a)
      else s.scratch a
    lastBeat := fun a => if a ∈ attempts ∧ s.isOpen a then s.now else s.lastBeat a }

def progress (a : Attempt) (value : String) : CallbackState :=
  s.setScratch a (if s.isOpen a then AttemptScratch.progressed value (s.scratch a) else s.scratch a)

end CallbackState

/-- `begin`: the first statement of the call. A call that finds no row returns at once. -/
def beginCall (staleness : Nat) (s : CallbackState) (t : TxId) (call : LeaseCall) :
    Option CallbackState :=
  let rows := call.rows staleness s
  if rows = [] then some s
  else if rows.all fun lease => (s.lock lease.attempt).isNone then
    some { s with
      lock := fun a => if a ∈ rows.map (fun lease => lease.attempt) then some t else s.lock a
      tx := update s.tx t (some ⟨call, s.now, rows⟩) }
  else none

/-- A receipt closer keeps the advisory locks from before the statement that decides until it
commits. -/
def closeReceipts (staleness : Nat) (s : CallbackState) (closer : ReceiptCloser)
    (attempts : List Attempt) : Option CallbackState :=
  let claims := closer.claims staleness s attempts
  if claims.all fun c => (s.lock c.attempt).isNone then
    (claims.foldlM (fun (s : CallbackState) c => s.finishAttempt c.toAttemptColumns
      (closer.doneLane s c) .running
      (closer.settlement c).2 (closer.settlement c).1) s).map fun s => { s with
        staleRescued := s.staleRescued ++ if closer.isStaleRescue then
          claims.map (fun c => c.attempt) else [] }
  else none

def callbackStep (staleness : Nat) (op : CallbackOp) (s : CallbackState) : Option CallbackState :=
  match op with
  | .tick => some { s with now := s.now + 1 }
  | .enqueue place queue priority job =>
    let job := { job with jobId := s.nextJob, attempt := 0, runLease := 0 }
    (syncUniqueClaim s.uniqueClaims s.nextJob job.unique none (some .available)).bind fun table =>
      { s with nextJob := s.nextJob + 1, uniqueClaims := table }.insertReady place queue
        priority s.now job
  | .promote entry place =>
    if entry ∈ s.deferred ∧ entry.runAt ≤ s.now then
      (syncUniqueClaim s.uniqueClaims entry.job.jobId entry.job.unique (some entry.state)
        (some .available)).bind
        fun table => { s with deferred := s.deferred.erase entry, uniqueClaims :=
          table }.insertReady place
          entry.queue entry.priority s.now entry.job
    else none
  | .claim row priority deadlineAt =>
    if s.unclaimed.contains row ∧ 1 ≤ priority ∧ priority ≤ row.lane.priority then
      (syncUniqueClaim s.uniqueClaims row.job.jobId row.job.unique (some .available)
        (some .running)).map
        fun table => { s with
          uniqueClaims := table
          unclaimed := s.unclaimed.erase row
          claims := s.claims ++ [⟨row.columns priority, s.now, deadlineAt⟩]
          lastBeat := update s.lastBeat row.nextAttempt s.now }
    else none
  | .heartbeat attempts =>
    if attempts.all fun a => !s.registering a then some (s.beat attempts) else none
  | .heartbeatProgress a progress =>
    if s.registering a then none else some ((s.beat [a]).progress a progress)
  | .flushProgress a progress =>
    if s.registering a then none
    else
      let beaten := s.setScratch a (if s.isOpen a then AttemptScratch.beaten s.now (s.scratch a)
        else s.scratch a)
      some (beaten.progress a progress)
  | .takeCallbackResult a => some (s.setScratch a (AttemptScratch.resultTaken (s.scratch a)))
  | .begin t call => if (s.tx t).isNone then beginCall staleness s t call else none
  | .commit t => (s.tx t).bind fun x => (finishCall s x).map fun s => s.release t
  | .abort t => if (s.tx t).isSome then some (s.release t) else none
  | .closeReceipts closer attempts => closeReceipts staleness s closer attempts
  | .replaceDone done => some { s with done }

def CallbackState.initial : CallbackState where
  now := 0
  nextJob := 0
  nextCallback := 0
  ready := []
  unclaimed := []
  deferred := []
  claims := []
  closures := []
  leases := []
  done := []
  dlq := []
  scratch := fun _ => none
  uniqueClaims := []
  lock := fun _ => none
  tx := fun _ => none
  registered := []
  retired := []
  resolved := []
  lastBeat := fun _ => 0
  staleRescued := []

def callbackMachine (staleness : Nat) : Machine CallbackState CallbackOp :=
  ⟨fun s => s = CallbackState.initial, callbackStep staleness⟩

end AwaQueue
