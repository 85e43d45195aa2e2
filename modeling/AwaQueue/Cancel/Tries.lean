import AwaQueue.Attempt.Protocol
import AwaQueue.Unique.Claims
import Mathlib.Data.List.MinMax

/-! `cancel_running_attempt_tx`: the tries of one cancel of a job, among the transactions of the
attempt protocol.

A step of a try is one statement. What a try writes it writes as a transaction of the attempt
protocol, which the savepoint's rollback aborts. The closure of a receipt is written with the
statement that finds and locks the receipt; the source writes it last. Row locks on claims are not
in the protocol: the statement that asks for one is told whether it was granted. The unique claim of
the job is synced with the commit: from the statement on, its row is locked. -/

namespace AwaQueue.Cancel
open Library

/-- `CancelStep` with the `RunningAttemptCancel` of a try that is done, or an error. -/
inductive TryResult where
  /-- Through a lease in this state, or through the receipt. -/
  | cancelled (a : Attempt) (lease : Option JobState)
  | notRunning
  | left
  | again
  | busy
  | failed
deriving DecidableEq

inductive Phase where
  | idle
  | findLease
  | findReceipt
  /-- No lease and no open receipt were found. -/
  | lookAgain
  | tryLock (a : Attempt)
  | leaseNow (a : Attempt)
  | lockLease (a : Attempt)
  /-- In `cancel_materialized_lease_tx`, after the lease was deleted. -/
  | lease (a : Attempt) (state : JobState)
  | lockReceipt (a : Attempt)
  | recheck (a : Attempt)
  /-- The receipt is locked; its ready row is about to be looked up. -/
  | readyRow (a : Attempt)
  | receipt (a : Attempt)
  | returned (result : TryResult)
deriving DecidableEq

def Phase.found : Phase → Option Attempt
  | .tryLock a | .leaseNow a | .lockLease a | .lease a _ | .lockReceipt a | .recheck a | .readyRow a
  | .receipt a => some a
  | .returned (.cancelled a _) => some a
  | .idle | .findLease | .findReceipt | .lookAgain | .returned _ => none

structure CancelState where
  base : AttemptState
  uniqueClaims : List UniqueClaim
  /-- The attempts whose lease has the state `waiting_external`. -/
  waiting : List Attempt
  phase : Phase

inductive CancelOp where
  | other (op : AttemptOp)
  | setUnique (uniqueClaims : List UniqueClaim)
  | setWaiting (waiting : List Attempt)
  | begin
  | read
  | tryLock
  | lockLease
  | lockReceipt (granted : Bool)
  | readyRow (found : Bool)
  | write
  | fail
  /-- The savepoint ends, and the transaction with it when the attempt was cancelled. -/
  | finish

def CancelOp.own : CancelOp → Bool
  | .other _ | .setUnique _ | .setWaiting _ => false
  | _ => true

namespace CancelState
variable (s : CancelState) (job : Nat)

def tables : AttemptTables := s.base.tables

def enter (phase : Phase) : CancelState := { s with phase }

def give (result : TryResult) : CancelState := s.enter (.returned result)

def leaseState (a : Attempt) : JobState := if a ∈ s.waiting then .waitingExternal else .running

def leaseOf : Option Attempt :=
  ((s.tables.leases.map LeaseRow.attempt).filter fun a => a.jobId = job).argmax Attempt.runLease

/-- `open_receipt_sql`; only compact claims are looked up in `leases`. -/
def openReceipt : Option Attempt :=
  ((s.tables.claims.filter fun c => c.attempt.jobId = job && !s.tables.closedEvidence c &&
    !(c.isCompact && s.tables.leaseManaged c.attempt)).map ReceiptClaim.attempt).argmax
      Attempt.runLease

end CancelState

def attemptSteps (slots : Nat) (ops : List AttemptOp) (b : AttemptState) : Option AttemptState :=
  ops.foldlM (fun b op => attemptStep slots op b) b

def scriptEnded (b : AttemptState) (t : TxId) : Bool :=
  match b.tx t with
  | some (.closer x) => x.script.isEmpty
  | _ => false

/-- A step of transaction `t`, which cancels the running attempt of `job`; `unique` are the unique
columns of the job. -/
def cancelStep (slots : Nat) (t : TxId) (job : Nat) (unique : UniqueColumns) (op : CancelOp)
    (s : CancelState) :
    Option CancelState :=
  match op, s.phase with
  | .other op, _ =>
    if op.transaction = some t then none else (attemptStep slots op s.base).map fun base =>
      { s with base }
  | .setUnique uniqueClaims, _ => some { s with uniqueClaims }
  | .setWaiting waiting, _ => some { s with waiting }
  | .begin, .idle => if (s.base.tx t).isNone then some (s.enter .findLease) else none
  | .read, .findLease => some (s.enter ((s.leaseOf job).elim .findReceipt .tryLock))
  | .read, .findReceipt => some (s.enter ((s.openReceipt job).elim .lookAgain .tryLock))
  -- a lease that was materialized between the two reads hides the receipt from the second
  | .read, .lookAgain => some (s.give (if (s.leaseOf job).isSome then .again else .notRunning))
  | .tryLock, .tryLock a =>
    if s.base.lockable t a then
      (attemptSteps slots [.beginClose t (.cancelRunningAttempt [a]), .statement t] s.base).map
          fun base =>
        { s with base, phase := .leaseNow a }
    else some (s.give .busy)
  | .read, .leaseNow a =>
    some (s.enter (if s.tables.leaseManaged a then .lockLease a else .lockReceipt a))
  | .lockLease, .lockLease a =>
    if !s.tables.leaseManaged a then some (s.give .again)
    else if s.base.leaseLock a = none || s.base.leaseLock a = some t then
      (attemptStep slots (.statement t) s.base).map fun base =>
        { s with base, phase := .lease a (s.leaseState a) }
    else some (s.give .busy)
  | .lockReceipt granted, .lockReceipt a =>
    if !granted then some (s.give .busy)
    else
      match s.openReceipt job with
      | none => some (s.enter (.recheck a))
      | some b =>
        if b = a then
          -- under the attempt lock the statements on leases find nothing
          (attemptSteps slots [.statement t, .statement t, .statement t] s.base).map fun base =>
            { s with base, phase := .readyRow a }
        else some (s.give .again)
  | .read, .recheck a => some (s.give (if s.tables.leaseManaged a then .again else .notRunning))
  | .readyRow found, .readyRow a => some (if found then s.enter (.receipt a) else s.give .left)
  | .write, .lease a state =>
    (attemptStep slots (.statement t) s.base).map fun base =>
      { s with base, phase := if scriptEnded base t then .returned (.cancelled a (some state))
        else .lease a state }
  | .write, .receipt a =>
    (attemptStep slots (.statement t) s.base).map fun base =>
      { s with base, phase := .returned (.cancelled a none) }
  | .fail, .returned _ => none
  | .fail, .idle => none
  | .fail, _ => some (s.give .failed)
  | .finish, .returned (.cancelled _ lease) =>
    match syncUniqueClaim s.uniqueClaims job unique (some (lease.getD .running))
      (some .cancelled) with
    | some uniqueClaims =>
      (attemptStep slots (.commit t) s.base).map fun base =>
        { s with base, uniqueClaims, phase := .idle }
    -- `UniqueConflict`: the savepoint is rolled back
    | none => some { s with base := s.base.release t, phase := .idle }
  | .finish, .returned _ =>
    some { s with base := if (s.base.tx t).isSome then s.base.release t
      else s.base, phase := .idle }
  | _, _ => none

def cancelMachine (slots : Nat) (t : TxId) (job : Nat) (unique : UniqueColumns) :
    Machine CancelState CancelOp where
  init s := s = ⟨AttemptState.initial, [], [], .idle⟩
  step := cancelStep slots t job unique

structure Try where
  elapsed : Nat
  result : TryResult

def cancelBusyBudget : Nat := 5000000000

def firstBackoff : Nat := 5000000

def lastBackoff : Nat := 100000000

/-- The loop of `cancel_running_attempt_tx` over the tries it makes; `none` if it makes more than
these. -/
def cancelLoop (holdsAttemptLock : Bool) (deadline : Nat) : List Try → Nat → Nat → Option TryResult
  | [], _, _ => none
  | attempt :: rest, now, backoff =>
    let now := now + attempt.elapsed
    match attempt.result with
    | .again =>
      if deadline ≤ now then some .left else cancelLoop holdsAttemptLock deadline rest now backoff
    | .busy =>
      if deadline ≤ now || holdsAttemptLock then some .left
      else cancelLoop holdsAttemptLock deadline rest (now + backoff) (min (2 * backoff) lastBackoff)
    | result => some result

end AwaQueue.Cancel
