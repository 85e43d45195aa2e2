import AwaQueue.Lane.Tables
import AwaQueue.Library.Tally
import Mathlib.Data.List.Dedup

/-! The tables that hold a running attempt and what becomes of it: receipt claims and their
closures, leases, `attempt_state`, the successor rows and the sweep cursors.

`lease_claim_batches` and `lease_claim_closure_batches` are kept unnested, one entry for each
array element: `claimed_count` and `closed_count` are the numbers of entries. -/

namespace AwaQueue

/-- One try at a job: `(job_id, run_lease)`. -/
structure Attempt where
  jobId : Nat
  runLease : Nat
deriving DecidableEq

/-- A row of `lease_claims` (`batchId = none`) or a member of a compact claim batch. -/
structure ReceiptClaim where
  attempt : Attempt
  receiptId : Nat
  claimSlot : Nat
  batchId : Option Nat
  ref : RingRef
  claimedAt : Nat
  deadlineAt : Option Nat
deriving DecidableEq

/-- A row of `lease_claim_closures`; the fields are its primary key. -/
structure ReceiptClosure where
  claimSlot : Nat
  attempt : Attempt
deriving DecidableEq

/-- One receipt of a `lease_claim_closure_batches` row. -/
structure ClosedReceipt where
  claimSlot : Nat
  ref : RingRef
  receiptId : Nat
deriving DecidableEq

structure LeaseRow where
  attempt : Attempt
  ref : RingRef
deriving DecidableEq

structure AttemptStateRow where
  attempt : Attempt
  heartbeatAt : Option Nat
deriving DecidableEq

inductive Successor where
  | done
  | completion
  | deferred
  | dlq
  | ready
deriving DecidableEq

def Successor.isEvidence : Successor → Bool
  | .done | .deferred | .dlq => true
  | .completion | .ready => false

structure SuccessorRow where
  attempt : Attempt
  kind : Successor
deriving DecidableEq

inductive RescueKind where
  /-- `rescue_stale_receipt_claims_for_slot_tx`. -/
  | heartbeat
  /-- `rescue_expired_receipt_deadlines_for_slot_tx`. -/
  | deadline
  /-- `rescue_expired_batch_deadlines_for_slot_tx`. -/
  | batchDeadline
deriving DecidableEq

/-- A sweep cursor of `claim_ring_slots`; the batch sweep leaves `runLease` at zero. -/
structure ScanKey where
  time : Nat
  id : Nat
  runLease : Nat
deriving DecidableEq

def ScanKey.le (a b : ScanKey) : Bool :=
  a.time < b.time || (a.time = b.time && (a.id < b.id || (a.id = b.id && a.runLease ≤ b.runLease)))

structure AttemptTables where
  claims : List ReceiptClaim
  closures : List ReceiptClosure
  closedReceipts : List ClosedReceipt
  leases : List LeaseRow
  attemptState : List AttemptStateRow
  successors : List SuccessorRow
  cursors : RescueKind → Nat → ScanKey

namespace ReceiptClaim
variable (c : ReceiptClaim)

def closure : ReceiptClosure := ⟨c.claimSlot, c.attempt⟩

def closed : ClosedReceipt := ⟨c.claimSlot, c.ref, c.receiptId⟩

def lease : LeaseRow := ⟨c.attempt, c.ref⟩

def isCompact : Bool := c.batchId.isSome

end ReceiptClaim

namespace AttemptTables
variable (T : AttemptTables)

def ledgerClosed (c : ReceiptClaim) : Bool :=
  decide (c.closure ∈ T.closures) || T.closedReceipts.any fun e => e.receiptId = c.receiptId

def successorEvidence (a : Attempt) : Bool :=
  T.successors.any fun row => row.attempt = a && row.kind.isEvidence

def closedEvidence (c : ReceiptClaim) : Bool := T.ledgerClosed c || T.successorEvidence c.attempt

def leaseManaged (a : Attempt) : Bool := T.leases.any fun lease => lease.attempt = a

def closeCount (c : ReceiptClaim) : Nat :=
  T.closures.count c.closure + T.closedReceipts.countP fun e => e.receiptId = c.receiptId

/-- `claim_prune_has_open_claims_tx` found the two totals equal. -/
def claimGate (slot : Nat) : Bool :=
  T.claims.countP (fun c => c.claimSlot = slot) =
    T.closures.countP (fun k => k.claimSlot = slot) + T.closedReceipts.countP
      (fun e => e.claimSlot = slot)

def explicitCount (ref : RingRef) : Nat :=
  ((T.claims.filter fun c => c.ref = ref && !c.isCompact).map fun c =>
    T.closures.count c.closure).sum

def claimRefsGate (ref : RingRef) : Bool :=
  T.claims.countP (fun c => c.ref = ref) =
    T.explicitCount ref + T.closedReceipts.countP (fun e => e.ref = ref)

end AttemptTables

/-- The shapes of the statements that close an open receipt. The fast path probes compact claims in
the closure ledgers only and closes every claim into a closure batch; a cancel leaves the
`attempt_state` of the attempt behind. -/
inductive CloseForm where
  | fast
  | slow
  | cancel
deriving DecidableEq

/-- The attempt a caller wants to close, with the receipt of its `ClaimedEntry` if it has one. -/
structure CloseTarget where
  attempt : Attempt
  receiptId : Option Nat
deriving DecidableEq

def CloseTarget.matches (target : CloseTarget) (c : ReceiptClaim) : Bool :=
  c.attempt = target.attempt && target.receiptId.all fun id => c.receiptId = id

def CloseForm.closedProbe (form : CloseForm) (T : AttemptTables) (c : ReceiptClaim) : Bool :=
  match form with
  | .fast => if c.isCompact then T.ledgerClosed c else T.closedEvidence c
  | .slow | .cancel => T.closedEvidence c

def CloseForm.explicit (form : CloseForm) (c : ReceiptClaim) : Bool := form ≠ .fast && !c.isCompact

/-- The claims a closing statement finds open; a batch is joined target by target. -/
def openTargets (form : CloseForm) (T : AttemptTables) (targets : List CloseTarget) :
    List ReceiptClaim :=
  targets.flatMap fun target => T.claims.filter fun c =>
    target.matches c && !form.closedProbe T c && !T.leaseManaged c.attempt

def onConflictDoNothing (closures new : List ReceiptClosure) : List ReceiptClosure :=
  (new.filter fun k => k ∉ closures).dedup

/-- The claims whose receipts are closed after their leases were deleted: `checked` is
`close_receipt_pairs_tx`, which leaves out a claim with any evidence of closing; otherwise it
is `hydrate_deleted_leases_tx`, which closes a row-local claim unconditionally. -/
def unclosedPairs (checked : Bool) (T : AttemptTables) (pairs : List Attempt) : List ReceiptClaim :=
  pairs.flatMap fun a => T.claims.filter fun c =>
    c.attempt = a && if checked then !T.closedEvidence c else !c.isCompact || !T.ledgerClosed c

namespace RescueKind
variable (kind : RescueKind)

def key (c : ReceiptClaim) : ScanKey :=
  match kind with
  | .heartbeat => ⟨c.claimedAt, c.attempt.jobId, c.attempt.runLease⟩
  | .deadline => ⟨c.deadlineAt.getD 0, c.attempt.jobId, c.attempt.runLease⟩
  | .batchDeadline => ⟨c.deadlineAt.getD 0, c.batchId.getD 0, 0⟩

/-- The claims of a slot that a sweep orders; `now` is the cutoff of the heartbeat sweep. -/
def scans (slot now : Nat) (c : ReceiptClaim) : Bool :=
  c.claimSlot = slot && match kind with
    | .heartbeat => c.claimedAt < now
    | .deadline => !c.isCompact && c.deadlineAt.any (· < now)
    | .batchDeadline => c.isCompact && c.deadlineAt.any (· < now)

def due (T : AttemptTables) (now : Nat) (c : ReceiptClaim) : Bool :=
  match kind with
  | .heartbeat =>
    (((T.attemptState.find? fun row => row.attempt = c.attempt).bind
      AttemptStateRow.heartbeatAt).getD c.claimedAt) < now
  | .deadline | .batchDeadline => true

def scanLimit : Nat := 10000

def candidates (T : AttemptTables) (slot now : Nat) : List ReceiptClaim :=
  let source := T.claims.filter (kind.scans slot now)
  let keys := ((source.map kind.key).dedup).insertionSort fun a b => a.le b
  let after := (keys.filter fun k => !k.le (T.cursors kind slot)).take scanLimit
  let before := (keys.filter fun k => k.le (T.cursors kind slot)).take (scanLimit - after.length)
  (after ++ before).flatMap fun k => source.filter fun c => kind.key c = k

/-- `stale_candidates`, `expired_candidates` and `expired_members`. -/
def rescuable (T : AttemptTables) (slot now limit : Nat) : List ReceiptClaim :=
  ((kind.candidates T slot now).filter fun c =>
    !T.closedEvidence c && !T.leaseManaged c.attempt && kind.due T now c).take limit

/-- `advance_target`: the last key before the first candidate that is still open. -/
def advanceTarget (T : AttemptTables) (slot now : Nat) (rescued : List ReceiptClaim) :
    Option ScanKey :=
  let advanceable (c : ReceiptClaim) : Bool :=
    T.closedEvidence c || T.leaseManaged c.attempt || !kind.due T now c || decide (c ∈ rescued)
  let candidates := kind.candidates T slot now
  let blocked := (candidates.filter fun c => !advanceable c).map kind.key
  (candidates.takeWhile fun c => kind.key c ∉ blocked).getLast?.map kind.key

end RescueKind
end AwaQueue
