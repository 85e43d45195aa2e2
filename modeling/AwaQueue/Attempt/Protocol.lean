import AwaQueue.Attempt.Tables
import AwaQueue.Lane.Protocol

/-! The attempt protocol: every transaction that closes or materializes a running attempt, one
SQL statement a step.

Receipt closers serialize on an advisory lock of the attempt, lease closers on the row lock
that deleting the lease takes, and a materializer moves an attempt from the first regime to
the second under the advisory lock. A statement sees the committed tables with the writes of
its own transaction applied, its own deletes included. -/

namespace AwaQueue
open Library

structure AttemptWrites where
  won : List Attempt := []
  closures : List ReceiptClosure := []
  closedReceipts : List ClosedReceipt := []
  leases : List LeaseRow := []
  deletedLeases : List Attempt := []
  clearedState : List Attempt := []
  successors : List SuccessorRow := []
  cursors : List (RescueKind × Nat × ScanKey) := []

def AttemptWrites.addClosures (w : AttemptWrites) (existing : List ReceiptClosure)
    (form : CloseForm) (found : List ReceiptClaim) : AttemptWrites :=
  { w with
    closures := w.closures ++
      onConflictDoNothing existing ((found.filter form.explicit).map ReceiptClaim.closure)
    closedReceipts := w.closedReceipts ++ (found.filter fun c => !form.explicit c).map
      ReceiptClaim.closed }

def setCursor (cursors : RescueKind → Nat → ScanKey) (entry : RescueKind × Nat × ScanKey) :
    RescueKind → Nat → ScanKey := fun kind slot =>
  if (kind, slot) = (entry.1, entry.2.1) then entry.2.2 else cursors kind slot

def AttemptTables.apply (T : AttemptTables) (w : AttemptWrites) : AttemptTables where
  claims := T.claims
  closures := T.closures ++ w.closures
  closedReceipts := T.closedReceipts ++ w.closedReceipts
  leases := (T.leases.filter fun lease => lease.attempt ∉ w.deletedLeases) ++ w.leases
  attemptState := T.attemptState.filter fun row => row.attempt ∉ w.clearedState
  successors := T.successors ++ w.successors
  cursors := w.cursors.foldl setCursor T.cursors

inductive AttemptStmt where
  | lockAttempts (attempts : List Attempt)
  | closeReceipts (form : CloseForm) (targets : List CloseTarget)
  /-- First statement of a sweep: try the locks of the claims it may rescue. -/
  | scanReceipts (kind : RescueKind) (slot now : Nat)
  /-- Second statement of a sweep: decide again and close. `skipped` are the claims whose row
  another transaction had locked (`SKIP LOCKED`). -/
  | closeScanned (kind : RescueKind) (slot now : Nat) (skipped : List Attempt)
  /-- `DELETE FROM leases`; the attempts are those whose other columns match. -/
  | deleteLeases (attempts : List Attempt) (skipLocked : Bool)
  /-- `close_receipt_pairs_tx` (`checked`) or the closures of `hydrate_deleted_leases_tx`. -/
  | closeReceiptPairs (checked : Bool)
  /-- Write the successors of the attempts taken so far. `rescue` turns a second row for one
  attempt into a cancelled one, as `insert_rescued_*_or_cancel_tx` do on a unique conflict. -/
  | insertSuccessors (kinds : Attempt → Successor) (rescue : Bool)

inductive CloseOp where
  /-- One statement for each claim slot and output column of the batch. -/
  | completeReceiptRuntimeBatchFast (groups : List (List CloseTarget))
  | completeRuntimeBatchSlow (batch : List CloseTarget)
  | completeClaimedBatch (batch : List Attempt)
  /-- `take_running_attempt_tx` with what its caller makes of the attempt: `retry_after`, `snooze`,
  `cancel_running`, `fail_terminal`, `fail_to_dlq`, `fail_retryable`. -/
  | takeRunningAttempt (target : CloseTarget) (kind : Successor)
  | cancelRunningAttempt (attempts : List Attempt)
  | resolveCallback (attempt : Attempt) (kind : Successor)
  | retryWaiting (attempt : Attempt)
  | rescueStaleHeartbeats (stale : List Attempt) (cutoff : Nat) (slots : List Nat)
      (skipped : List Attempt) (kinds : Attempt → Successor)
  | rescueExpiredDeadlines (expired : List Attempt) (now : Nat) (slots : List Nat)
      (skipped : List Attempt) (kinds : Attempt → Successor)
  | rescueExpiredCallbacks (expired : List Attempt) (kinds : Attempt → Successor)

def sweep (kind : RescueKind) (now : Nat) (skipped : List Attempt) (slot : Nat) :
    List AttemptStmt :=
  [.scanReceipts kind slot now, .closeScanned kind slot now skipped]

def cancelStatements (attempt : Attempt) : List AttemptStmt :=
  [.lockAttempts [attempt], .deleteLeases [attempt] false, .closeReceiptPairs false,
    .closeReceipts .cancel [⟨attempt, none⟩], .insertSuccessors (fun _ => .done) false]

def CloseOp.script : CloseOp → List AttemptStmt
  | .completeReceiptRuntimeBatchFast groups =>
    .lockAttempts (groups.flatten.map CloseTarget.attempt) ::
      groups.map (.closeReceipts .fast) ++ [.insertSuccessors (fun _ => .completion) false]
  | .completeRuntimeBatchSlow batch =>
    [.lockAttempts (batch.map CloseTarget.attempt), .closeReceipts .slow batch,
      .insertSuccessors (fun _ => .done) false, .deleteLeases (batch.map CloseTarget.attempt) false,
      .closeReceiptPairs true, .insertSuccessors (fun _ => .done) false]
  | .completeClaimedBatch batch =>
    [.deleteLeases batch false, .lockAttempts batch, .closeReceiptPairs true,
      .closeReceiptPairs false, .insertSuccessors (fun _ => .done) false]
  | .takeRunningAttempt target kind =>
    [.lockAttempts [target.attempt], .closeReceipts .slow [target],
      .deleteLeases [target.attempt] false,
      .closeReceiptPairs false, .insertSuccessors (fun _ => kind) false]
  | .cancelRunningAttempt attempts => attempts.flatMap cancelStatements
  | .resolveCallback attempt kind =>
    [.deleteLeases [attempt] false, .lockAttempts [attempt], .closeReceiptPairs true,
      .closeReceiptPairs false, .insertSuccessors (fun _ => kind) false]
  | .retryWaiting attempt =>
    [.deleteLeases [attempt] false, .closeReceiptPairs false,
      .insertSuccessors (fun _ => .ready) false]
  | .rescueStaleHeartbeats stale cutoff slots skipped kinds =>
    .deleteLeases stale true :: slots.flatMap (sweep .heartbeat cutoff skipped) ++
      [.closeReceiptPairs false, .insertSuccessors kinds true]
  | .rescueExpiredDeadlines expired now slots skipped kinds =>
    .deleteLeases expired true ::
      slots.flatMap (fun slot => sweep .batchDeadline now skipped slot ++
        sweep .deadline now skipped slot) ++
      [.closeReceiptPairs false, .insertSuccessors kinds true]
  | .rescueExpiredCallbacks expired kinds =>
    [.deleteLeases expired true, .closeReceiptPairs false, .insertSuccessors kinds true]

def CloseOp.Distinct : CloseOp → Prop
  | .completeReceiptRuntimeBatchFast groups => (groups.flatten.map CloseTarget.attempt).Nodup
  | .completeRuntimeBatchSlow batch => (batch.map CloseTarget.attempt).Nodup
  | _ => True

instance (op : CloseOp) : Decidable op.Distinct := by
  unfold CloseOp.Distinct
  split <;> infer_instance

structure Closer where
  script : List AttemptStmt
  scanned : List Attempt := []
  rescued : Nat := 0
  unsettled : List Attempt := []
  writes : AttemptWrites := {}

inductive Materializer where
  | locking (attempts : List Attempt)
  | inserting (attempts : List Attempt)
  | inserted (leases : List LeaseRow)

inductive AttemptTx where
  | closer (closer : Closer)
  | materializer (materializer : Materializer)

structure AttemptState where
  tables : AttemptTables
  claimRing : RingRef
  nextReceipt : Nat
  /-- The advisory locks `awa.receipt.complete:<job_id>:<run_lease>`. -/
  attemptLock : Attempt → Option TxId
  leaseLock : Attempt → Option TxId
  /-- Locks that conflict with `TRUNCATE` of a claim slot's children. -/
  childLocks : List (TxId × Nat)
  tx : TxId → Option AttemptTx
  emitted : List Attempt
  /-- Every successor row written by a committed closer, in commit order; no statement reads it. -/
  settled : List SuccessorRow
  /-- The attempts whose claims were truncated; no statement reads it. -/
  pruned : List Attempt

namespace AttemptState
variable (s : AttemptState)

def setTx (t : TxId) (tx : AttemptTx) : AttemptState :=
  { s with tx := Function.update s.tx t (some tx) }

def release (t : TxId) : AttemptState :=
  { s with
    attemptLock := fun a => (s.attemptLock a).filter fun holder => holder ≠ t
    leaseLock := fun a => (s.leaseLock a).filter fun holder => holder ≠ t
    childLocks := s.childLocks.filter fun lock => lock.1 ≠ t
    tx := Function.update s.tx t none }

def lockable (t : TxId) (a : Attempt) : Bool := s.attemptLock a = none || s.attemptLock a = some t

def lockAttempts (t : TxId) (attempts : List Attempt) : AttemptState :=
  { s with attemptLock := fun a => if a ∈ attempts then some t else s.attemptLock a }

def lockChildren (t : TxId) (claims : List ReceiptClaim) : AttemptState :=
  { s with childLocks := claims.map (fun c => (t, c.claimSlot)) ++ s.childLocks }

def runLease (jobId : Nat) : Nat :=
  ((s.emitted.filter fun a => a.jobId = jobId).map Attempt.runLease).foldr max 0

end AttemptState

namespace Closer
variable (x : Closer)

def view (s : AttemptState) : AttemptTables := s.tables.apply x.writes

def remaining : Nat := 500 - x.rescued

def close (s : AttemptState) (form : CloseForm) (found : List ReceiptClaim) : Closer :=
  { x with
    unsettled := x.unsettled ++ found.map ReceiptClaim.attempt
    writes := { x.writes.addClosures (x.view s).closures form found with
      won := x.writes.won ++ found.map ReceiptClaim.attempt } }

def take (attempts : List Attempt) : Closer :=
  { x with
    scanned := []
    unsettled := x.unsettled ++ attempts
    writes := { x.writes with
      won := x.writes.won ++ attempts
      deletedLeases := x.writes.deletedLeases ++ attempts } }

def closePairs (s : AttemptState) (found : List ReceiptClaim) : Closer :=
  { x with writes := { x.writes.addClosures (x.view s).closures .slow found with
      clearedState := x.writes.won } }

/-- The leases a `DELETE` matches: those of attempts the transaction has not taken yet. -/
def matchedLeases (s : AttemptState) (attempts : List Attempt) : List Attempt :=
  ((x.view s).leases.map LeaseRow.attempt).filter fun a => a ∈ attempts && a ∉ x.writes.won

def rescuedClaims (s : AttemptState) (kind : RescueKind) (slot now : Nat) (skipped : List Attempt) :
    List ReceiptClaim :=
  (kind.rescuable (x.view s) slot now x.remaining).filter fun c =>
    c.attempt ∈ x.scanned && c.attempt ∉ skipped

end Closer

def insertSuccessor (rescue : Bool) (rows : List SuccessorRow) (row : SuccessorRow) :
    Option (List SuccessorRow) :=
  if row ∉ rows then some (rows ++ [row])
  else if rescue ∧ row.kind ≠ .done ∧ ⟨row.attempt, .done⟩ ∉ rows then
    some (rows ++ [⟨row.attempt, .done⟩])
  else none

/-- One statement of a closer; `none` when it has to wait or fails. -/
def closeStatement (s : AttemptState) (t : TxId) (x : Closer) : AttemptStmt → Option AttemptState
  | .lockAttempts attempts =>
    if attempts.all (s.lockable t) then some ((s.lockAttempts t attempts).setTx t (.closer x))
      else none
  | .closeReceipts form targets =>
    let found := openTargets form (x.view s) targets
    let closed := x.close s form found
    some ((s.lockChildren t found).setTx t (.closer { closed with
      writes := { closed.writes with
        clearedState := closed.writes.clearedState ++ if form = .cancel then []
          else found.map ReceiptClaim.attempt } }))
  | .scanReceipts kind slot now =>
    let scanned := ((kind.rescuable (x.view s) slot now x.remaining).map
      ReceiptClaim.attempt).filter (s.lockable t)
    some ((s.lockAttempts t scanned).setTx t (.closer { x with scanned }))
  | .closeScanned kind slot now skipped =>
    if x.remaining = 0 then some (s.setTx t (.closer x)) else
      let found := x.rescuedClaims s kind slot now skipped
      let closed := x.close s .slow found
      some ((s.lockChildren t found).setTx t (.closer { closed with
        scanned := []
        rescued := x.rescued + found.length
        writes := { closed.writes with
          cursors := closed.writes.cursors ++
            ((kind.advanceTarget (x.view s) slot now found).map fun key => (kind, slot, key)).toList
              } }))
  | .deleteLeases attempts skipLocked =>
    let free (a : Attempt) : Bool := s.leaseLock a = none || s.leaseLock a = some t
    let matched := x.matchedLeases s attempts
    if skipLocked || matched.all free then
      let taken := matched.filter free
      some ({ s with leaseLock := fun a => if a ∈ taken then some t else s.leaseLock a }.setTx t
        (.closer (x.take taken)))
    else none
  | .closeReceiptPairs checked =>
    let found := unclosedPairs checked (x.view s) x.writes.deletedLeases
    some ((s.lockChildren t found).setTx t (.closer (x.closePairs s found)))
  | .insertSuccessors kinds rescue =>
    (x.unsettled.foldlM (fun rows a => insertSuccessor rescue rows ⟨a, kinds a⟩)
      x.writes.successors).map
      fun rows => s.setTx t (.closer { x with unsettled := [], writes :=
        { x.writes with successors := rows } })

def materializedLeases (T : AttemptTables) (attempts : List Attempt) : List LeaseRow :=
  (attempts.flatMap fun a => T.claims.filter fun c =>
    c.attempt = a && !T.closedEvidence c && !T.leaseManaged a).map ReceiptClaim.lease

structure NewClaim where
  jobId : Nat
  claimSlot : Nat
  batchId : Option Nat
  ref : RingRef
  claimedAt : Nat
  deadlineAt : Option Nat
deriving DecidableEq

def NewClaim.receipt (claim : NewClaim) (attempt : Attempt) (receiptId : Nat) : ReceiptClaim :=
  ⟨attempt, receiptId, claim.claimSlot, claim.batchId, claim.ref, claim.claimedAt, claim.deadlineAt⟩

def AttemptState.emit (s : AttemptState) (rows : List (NewClaim × Attempt)) : AttemptState :=
  { s with
    tables := { s.tables with
      claims := s.tables.claims ++
        rows.zipIdx.map fun row => row.1.1.receipt row.1.2 (s.nextReceipt + row.2) }
    nextReceipt := s.nextReceipt + rows.length
    emitted := s.emitted ++ rows.map Prod.snd }

/-- `TRUNCATE` of the four children of a claim slot; the sweep cursors start over. -/
def AttemptTables.truncateClaims (T : AttemptTables) (slot : Nat) : AttemptTables :=
  { T with
    claims := T.claims.filter fun c => c.claimSlot ≠ slot
    closures := T.closures.filter fun k => k.claimSlot ≠ slot
    closedReceipts := T.closedReceipts.filter fun e => e.claimSlot ≠ slot
    cursors := fun kind k => if k = slot then ⟨0, 0, 0⟩ else T.cursors kind k }

def AttemptTables.claimSlotEmpty (T : AttemptTables) (slot : Nat) : Bool :=
  (T.claims.all fun c => c.claimSlot ≠ slot) && (T.closures.all fun k => k.claimSlot ≠ slot) &&
    T.closedReceipts.all fun e => e.claimSlot ≠ slot

inductive AttemptOp where
  /-- The commit of a claim; each claimed job gets the `run_lease` after the one its row carries. -/
  | claim (rows : List NewClaim)
  | beginClose (t : TxId) (op : CloseOp)
  | beginMaterialize (t : TxId) (attempts : List Attempt)
  | statement (t : TxId)
  | commit (t : TxId)
  | abort (t : TxId)
  /-- Promotion, retry, retention and the cancelling of waiting jobs change the successor rows
  of attempts that have ended, or of jobs that never ran. -/
  | rewriteSuccessors (rows : List SuccessorRow)
  | heartbeat (row : AttemptStateRow)
  | rotateClaims
  | pruneOldestClaims

def AttemptOp.transaction : AttemptOp → Option TxId
  | .beginClose t _ | .beginMaterialize t _ | .statement t | .commit t | .abort t => some t
  | _ => none

def materializeStatement (s : AttemptState) (t : TxId) : Materializer → Option AttemptState
  | .locking attempts =>
    if attempts.all (s.lockable t) then
      some ((s.lockAttempts t attempts).setTx t (.materializer (.inserting attempts)))
    else none
  | .inserting attempts =>
    some (s.setTx t (.materializer (.inserted (materializedLeases s.tables attempts))))
  | .inserted _ => none

def commitCloser (s : AttemptState) (t : TxId) (x : Closer) : AttemptState :=
  { s.release t with tables := s.tables.apply x.writes, settled := s.settled ++
    x.writes.successors }

def commitMaterializer (s : AttemptState) (t : TxId) (leases : List LeaseRow) : AttemptState :=
  { s.release t with tables := { s.tables with leases := s.tables.leases ++ leases } }

def commitAttempt (s : AttemptState) (t : TxId) : Option AttemptState :=
  match s.tx t with
  | some (.closer x) => if x.script.isEmpty then some (commitCloser s t x) else none
  | some (.materializer (.inserted leases)) => some (commitMaterializer s t leases)
  | _ => none

def pruneClaims (s : AttemptState) (slot : Nat) : AttemptState :=
  { s with
    tables := s.tables.truncateClaims slot
    pruned := s.pruned ++ (s.tables.claims.filter fun c => c.claimSlot = slot).map
      ReceiptClaim.attempt }

/-- A successor row that another operation of the store may leave behind. -/
def AttemptState.overRow (s : AttemptState) (row : SuccessorRow) : Bool :=
  row.attempt.runLease ≤ s.runLease row.attempt.jobId &&
    (decide (row.attempt ∈ s.settled.map SuccessorRow.attempt) || decide (row.attempt ∉ s.emitted))

def attemptStep (slots : Nat) (op : AttemptOp) (s : AttemptState) : Option AttemptState :=
  match op with
  | .claim rows =>
    if (rows.map NewClaim.jobId).Nodup then
      some (s.emit (rows.map fun row => (row, ⟨row.jobId, s.runLease row.jobId + 1⟩)))
    else none
  | .beginClose t op =>
    if (s.tx t).isNone ∧ op.Distinct then some (s.setTx t (.closer { script := op.script }))
      else none
  | .beginMaterialize t attempts =>
    if (s.tx t).isNone ∧ attempts.Nodup then some (s.setTx t (.materializer (.locking attempts)))
      else none
  | .statement t =>
    match s.tx t with
    | some (.closer x) =>
      match x.script with
      | stmt :: rest => closeStatement s t { x with script := rest } stmt
      | [] => none
    | some (.materializer m) => materializeStatement s t m
    | none => none
  | .commit t => commitAttempt s t
  | .abort t => if (s.tx t).isSome then some (s.release t) else none
  | .rewriteSuccessors rows =>
    if rows.all s.overRow then some { s with tables := { s.tables with successors := rows } }
      else none
  | .heartbeat row =>
    some { s with tables := { s.tables with
      attemptState := row :: s.tables.attemptState.filter fun old => old.attempt ≠ row.attempt } }
  | .rotateClaims =>
    let next := rotateRing slots s.claimRing
    if s.tables.claimSlotEmpty next.slot then some { s with claimRing := next } else none
  | .pruneOldestClaims =>
    match s.claimRing.oldest slots with
    | none => none
    | some oldest =>
      if oldest.slot ≠ s.claimRing.slot ∧ (s.childLocks.all fun lock => lock.2 ≠ oldest.slot) ∧
          s.tables.claimGate oldest.slot then some (pruneClaims s oldest.slot) else none

def AttemptState.initial : AttemptState where
  tables := ⟨[], [], [], [], [], [], fun _ _ => ⟨0, 0, 0⟩⟩
  claimRing := ⟨0, 0⟩
  nextReceipt := 0
  attemptLock := fun _ => none
  leaseLock := fun _ => none
  childLocks := []
  tx := fun _ => none
  emitted := []
  settled := []
  pruned := []

def attemptMachine (slots : Nat) : Machine AttemptState AttemptOp :=
  ⟨fun s => s = AttemptState.initial, attemptStep slots⟩

end AwaQueue
