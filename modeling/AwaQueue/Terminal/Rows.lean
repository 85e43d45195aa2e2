import AwaQueue.Attempt.Tables

/-! The rows of one attempt, from the ready row it claims to the terminal row it leaves, and the
conversions between them.

A claim gives an attempt two priorities: that of its lane, which is part of the ready key, and an
effective one, which aging has lowered. -/

namespace AwaQueue

/-- `metadata` (its keys), `tags` and `errors` of a payload. -/
structure RuntimePayload where
  metadata : List String := []
  tags : List String := []
  errors : List String := []
deriving DecidableEq

abbrev JobColumns := JobRecord String String RuntimePayload

abbrev ReadyEntry := ReadyRow JobColumns

/-- The columns that a terminal row with a ready row leaves out. -/
structure KeptColumns where
  args : String
  maxAttempts : Nat
  runAt : Nat
  createdAt : Nat
  uniqueKey : Option String
  uniqueStates : Option String
deriving DecidableEq

structure HydratedColumns extends KeptColumns where
  kind : String
deriving DecidableEq

def ReadyRow.hydrated (row : ReadyEntry) : HydratedColumns where
  kind := row.job.kind
  args := row.job.args
  maxAttempts := row.job.maxAttempts
  runAt := row.runAt
  createdAt := row.job.createdAt
  uniqueKey := row.job.uniqueKey
  uniqueStates := row.job.uniqueStates

/-- The columns that a receipt claim and a lease share (`DeletedLeaseRow`). The priority of
`lane` is the effective one. -/
structure AttemptColumns where
  ref : RingRef
  lane : Lane
  laneSeq : Nat
  attempt : Attempt
  number : Nat
  maxAttempts : Nat
  /-- The ready row that was claimed; no statement reads it. -/
  source : ReadyEntry
deriving DecidableEq

/-- An item of `lease_claim_batches`, or a row of `lease_claims` when it has no batch. -/
structure Receipt extends AttemptColumns where
  claimSlot : Nat
  receiptId : Nat
  batch : Option (Nat × Nat)
deriving DecidableEq

structure LeaseEntry extends AttemptColumns where
  leaseSlot : Nat
deriving DecidableEq

structure ClaimedEntry where
  /-- `queue`, `priority` (that of the lane) and `enqueue_shard`. -/
  lane : Lane
  laneSeq : Nat
  ref : RingRef
  leaseSlot : Nat
  claimSlot : Nat
  receiptId : Option Nat
  /-- `claim_batch_id` and `claim_batch_index`. -/
  batch : Option (Nat × Nat)
  leaseClaimReceipt : Bool
deriving DecidableEq

structure JobRow where
  attempt : Attempt
  kind : String
  queue : Nat
  args : String
  /-- The effective priority. -/
  priority : Nat
  number : Nat
  maxAttempts : Nat
  runAt : Nat
  createdAt : Nat
  uniqueKey : Option String
  payload : RuntimePayload
deriving DecidableEq

structure ClaimedRuntimeJob where
  claim : ClaimedEntry
  job : JobRow
  uniqueStates : Option String
deriving DecidableEq

/-- `RuntimePayload` as `into_job_row` leaves it: an aged job records the priority of its lane. -/
def RuntimePayload.aged (payload : RuntimePayload) (effective lane : Nat) : RuntimePayload :=
  if effective < lane ∧ "_awa_original_priority" ∉ payload.metadata then
    { payload with metadata := payload.metadata ++ ["_awa_original_priority"] }
  else payload

def ReadyRow.nextAttempt (row : ReadyEntry) : Attempt := ⟨row.job.jobId, row.job.runLease + 1⟩

def ReadyRow.columns (row : ReadyEntry) (priority : Nat) : AttemptColumns where
  ref := row.ref
  lane := { row.lane with priority }
  laneSeq := row.laneSeq
  attempt := row.nextAttempt
  number := row.job.attempt + 1
  maxAttempts := row.job.maxAttempts
  source := row

def ReadyRow.jobRow (row : ReadyEntry) (priority : Nat) : JobRow where
  attempt := row.nextAttempt
  kind := row.job.kind
  queue := row.lane.queue
  args := row.job.args
  priority
  number := row.job.attempt + 1
  maxAttempts := row.job.maxAttempts
  runAt := row.runAt
  createdAt := row.job.createdAt
  uniqueKey := row.job.uniqueKey
  payload := row.job.payload.aged priority row.lane.priority

def isCompactReceiptCompletionMetadata (metadata : List String) : Bool :=
  metadata.all fun key => key = "_awa_original_priority" || key = "_awa_original_queue"

def receiptFastCompleteCandidate (x : ClaimedRuntimeJob) : Bool :=
  x.claim.leaseClaimReceipt && x.claim.receiptId.isSome && x.job.uniqueKey.isNone &&
    isCompactReceiptCompletionMetadata x.job.payload.metadata && x.job.payload.tags.isEmpty &&
    x.job.payload.errors.isEmpty

inductive TerminalState where
  | completed
  | failed
  | cancelled
deriving DecidableEq

def TerminalState.jobState : TerminalState → JobState
  | .completed => .completed
  | .failed => .failed
  | .cancelled => .cancelled

structure DoneJobRow extends HydratedColumns where
  ref : RingRef
  lane : Lane
  laneSeq : Nat
  attempt : Attempt
  state : TerminalState
  number : Nat
  finalizedAt : Nat
deriving DecidableEq

def DoneJobRow.hydrated (row : DoneJobRow) : HydratedColumns := row.toHydratedColumns

structure DoneEntry where
  ref : RingRef
  lane : Lane
  laneSeq : Nat
  attempt : Attempt
  kind : String
  args : Option String
  state : TerminalState
  number : Nat
  maxAttempts : Option Nat
  runAt : Option Nat
  finalizedAt : Nat
  createdAt : Option Nat
  uniqueKey : Option String
  uniqueStates : Option String
  /-- The ready row of the attempt that wrote it; no statement reads it. -/
  source : Option ReadyEntry
deriving DecidableEq

structure CompletionEntry where
  ref : RingRef
  lane : Lane
  laneSeq : Nat
  attempt : Attempt
  number : Nat
  finalizedAt : Nat
  /-- The ready row of the attempt that wrote it; no statement reads it. -/
  source : ReadyEntry
deriving DecidableEq

structure DlqJobRow where
  attempt : Attempt
  kind : String
  queue : Nat
  args : String
  priority : Nat
  number : Nat
  maxAttempts : Nat
  runAt : Nat
  createdAt : Nat
  uniqueKey : Option String
  uniqueStates : Option String
  /-- The ready row of the attempt it comes from; no statement reads it. -/
  source : Option ReadyEntry
deriving DecidableEq

/-- A done row of a job that was cancelled outside the ready lanes: a deferred row, or a successor
whose unique key was taken. It stands on shard 0 at the number `-job_id`. -/
structure SyntheticRow where
  ref : RingRef
  queue : Nat
  priority : Nat
  attempt : Attempt
deriving DecidableEq

def SyntheticRow.primaryKey (row : SyntheticRow) : Nat × Lane × Int :=
  (row.ref.slot, ⟨row.queue, row.priority, 0⟩, -row.attempt.jobId)

def DoneEntry.key (row : DoneEntry) : ReadyTombstone := ⟨row.lane, row.laneSeq, row.ref⟩

def CompletionEntry.key (row : CompletionEntry) : ReadyTombstone := ⟨row.lane, row.laneSeq, row.ref⟩

/-- `PRIMARY KEY (ready_slot, queue, priority, enqueue_shard, lane_seq)`. -/
def ReadyTombstone.primaryKey (key : ReadyTombstone) : Nat × Lane × Nat :=
  (key.ref.slot, key.lane, key.laneSeq)

def DoneJobRow.key (row : DoneJobRow) : ReadyTombstone := ⟨row.lane, row.laneSeq, row.ref⟩

/-- What `insert_done_rows_tx` stores. A row that keeps its ready backing leaves out the columns
of its ready row. -/
def DoneJobRow.entry (row : DoneJobRow) (keepReadyBacking : Bool) (source : Option ReadyEntry) :
    DoneEntry where
  ref := row.ref
  lane := row.lane
  laneSeq := row.laneSeq
  attempt := row.attempt
  kind := row.kind
  args := if keepReadyBacking then none else some row.args
  state := row.state
  number := row.number
  maxAttempts := if keepReadyBacking then none else some row.maxAttempts
  runAt := if keepReadyBacking then none else some row.runAt
  finalizedAt := row.finalizedAt
  createdAt := if keepReadyBacking then none else some row.createdAt
  uniqueKey := if keepReadyBacking then none else row.uniqueKey
  uniqueStates := if keepReadyBacking then none else row.uniqueStates
  source

def emptyObject : String := "\x7b\x7d"

def doneRowProjection (done : DoneEntry) (ready : Option ReadyEntry) : DoneJobRow where
  ref := done.ref
  lane := done.lane
  laneSeq := done.laneSeq
  attempt := done.attempt
  kind := done.kind
  args := (done.args <|> ready.map (·.job.args)).getD emptyObject
  state := done.state
  number := done.number
  maxAttempts := (done.maxAttempts <|> ready.map (·.job.maxAttempts)).getD 25
  runAt := (done.runAt <|> ready.map (·.runAt)).getD done.finalizedAt
  finalizedAt := done.finalizedAt
  createdAt := (done.createdAt <|> ready.map (·.job.createdAt)).getD done.finalizedAt
  uniqueKey := done.uniqueKey <|> ready.bind (·.job.uniqueKey)
  uniqueStates := done.uniqueStates <|> ready.bind (·.job.uniqueStates)

/-- The second half of the `terminal_jobs` view. -/
def completionProjection (completion : CompletionEntry) (ready : ReadyEntry) : DoneJobRow where
  ref := completion.ref
  lane := completion.lane
  laneSeq := completion.laneSeq
  attempt := completion.attempt
  kind := ready.job.kind
  args := ready.job.args
  state := .completed
  number := completion.number
  maxAttempts := ready.job.maxAttempts
  runAt := ready.runAt
  finalizedAt := completion.finalizedAt
  createdAt := ready.job.createdAt
  uniqueKey := ready.job.uniqueKey
  uniqueStates := ready.job.uniqueStates

def ClaimedRuntimeJob.intoDoneRow (x : ClaimedRuntimeJob) (finalizedAt : Nat) : DoneJobRow where
  ref := x.claim.ref
  lane := { x.claim.lane with queue := x.job.queue }
  laneSeq := x.claim.laneSeq
  attempt := x.job.attempt
  kind := x.job.kind
  args := x.job.args
  state := .completed
  number := x.job.number
  maxAttempts := x.job.maxAttempts
  runAt := x.job.runAt
  finalizedAt
  createdAt := x.job.createdAt
  uniqueKey := x.job.uniqueKey
  uniqueStates := x.uniqueStates

/-- A deleted lease or closed receipt with the ready columns that `hydrate_deleted_leases_tx`
found for it. -/
structure LeaseTransitionRow where
  columns : AttemptColumns
  ready : ReadyEntry

def LeaseTransitionRow.intoDoneRow (row : LeaseTransitionRow) (state : TerminalState)
    (finalizedAt : Nat) : DoneJobRow where
  ref := row.columns.ref
  lane := { row.columns.lane with queue := row.ready.lane.queue }
  laneSeq := row.columns.laneSeq
  attempt := row.columns.attempt
  kind := row.ready.job.kind
  args := row.ready.job.args
  state
  number := row.columns.number
  maxAttempts := row.columns.maxAttempts
  runAt := row.ready.runAt
  finalizedAt
  createdAt := row.ready.job.createdAt
  uniqueKey := row.ready.job.uniqueKey
  uniqueStates := row.ready.job.uniqueStates

def LeaseTransitionRow.intoDlqRow (row : LeaseTransitionRow) : DlqJobRow where
  attempt := row.columns.attempt
  kind := row.ready.job.kind
  queue := row.ready.lane.queue
  args := row.ready.job.args
  priority := row.columns.lane.priority
  number := row.columns.number
  maxAttempts := row.columns.maxAttempts
  runAt := row.ready.runAt
  createdAt := row.ready.job.createdAt
  uniqueKey := row.ready.job.uniqueKey
  uniqueStates := row.ready.job.uniqueStates
  source := some row.columns.source

/-- The done row of the receipt branch of `try_cancel_running_attempt_tx`: the priority of the
receipt, the shard of the ready row. -/
def Receipt.cancelledRow (c : Receipt) (ready : ReadyEntry) (finalizedAt : Nat) : DoneJobRow where
  ref := c.ref
  lane := { c.lane with enqueueShard := ready.lane.enqueueShard }
  laneSeq := c.laneSeq
  attempt := c.attempt
  kind := ready.job.kind
  args := ready.job.args
  state := .cancelled
  number := c.number
  maxAttempts := c.maxAttempts
  runAt := ready.runAt
  finalizedAt
  createdAt := ready.job.createdAt
  uniqueKey := ready.job.uniqueKey
  uniqueStates := ready.job.uniqueStates

def ReadyRow.cancelledRow (row : ReadyEntry) (finalizedAt : Nat) : DoneJobRow where
  ref := row.ref
  lane := row.lane
  laneSeq := row.laneSeq
  attempt := ⟨row.job.jobId, row.job.runLease⟩
  kind := row.job.kind
  args := row.job.args
  state := .cancelled
  number := row.job.attempt
  maxAttempts := row.job.maxAttempts
  runAt := row.runAt
  finalizedAt
  createdAt := row.job.createdAt
  uniqueKey := row.job.uniqueKey
  uniqueStates := row.job.uniqueStates

def DoneJobRow.retryColumns (row : DoneJobRow) (payload : RuntimePayload) : JobColumns where
  jobId := row.attempt.jobId
  kind := row.kind
  args := row.args
  attempt := 0
  runLease := row.attempt.runLease
  maxAttempts := row.maxAttempts
  createdAt := row.createdAt
  uniqueKey := row.uniqueKey
  uniqueStates := row.uniqueStates
  payload

def DoneJobRow.intoDlqRow (row : DoneJobRow) (source : Option ReadyEntry) : DlqJobRow where
  attempt := row.attempt
  kind := row.kind
  queue := row.lane.queue
  args := row.args
  priority := row.lane.priority
  number := row.number
  maxAttempts := row.maxAttempts
  runAt := row.runAt
  createdAt := row.createdAt
  uniqueKey := row.uniqueKey
  uniqueStates := row.uniqueStates
  source

def DlqJobRow.retryColumns (row : DlqJobRow) (payload : RuntimePayload) : JobColumns where
  jobId := row.attempt.jobId
  kind := row.kind
  args := row.args
  attempt := 0
  runLease := row.attempt.runLease
  maxAttempts := row.maxAttempts
  createdAt := row.createdAt
  uniqueKey := row.uniqueKey
  uniqueStates := row.uniqueStates
  payload

end AwaQueue
