import AwaQueue.Lane.Tables
import AwaQueue.Library.Machine
import Mathlib.Logic.Function.Basic

/-! The lane protocol: enqueueing transactions, `claim_ready_runtime`, tombstones and
post-commit cursor advances, one SQL statement a step.

Under READ COMMITTED a statement sees the committed tables and the writes of its own
transaction. Rows, segments, tombstones and attempt batches become visible together when
their transaction commits. The two lane sequences are not transactional: a move is
immediate and is never rolled back. The protocol runs in receipts mode, where the attempt
batches are the claim evidence. -/

namespace AwaQueue
open Function (update)
open Library
variable {α : Type}

/-- A row whose `lane_seq` is reserved and whose ring position is not known yet. -/
structure StagedRow (α : Type) where
  lane : Lane
  laneSeq : Nat
  runAt : Nat
  job : α

def StagedRow.stamp (ref : RingRef) (row : StagedRow α) : ReadyRow α :=
  ⟨row.lane, row.laneSeq, ref, row.runAt, row.job⟩

/-- Where `insert_ready_rows_tx` stands: it reserves every lane, then reads the ring
cursor, then inserts the rows and last their segments. -/
inductive InsertCall (α : Type) where
  | reserving (staged : List (StagedRow α))
  | routed (staged : List (StagedRow α)) (ref : RingRef)
  | inserted (rows : List (ReadyRow α)) (ref : RingRef)

structure Writer (α : Type) where
  call : InsertCall α
  rows : List (ReadyRow α)
  segments : List ReadySegment
  tombstones : List ReadyTombstone
  advances : List ClaimCursorAdvance

def Writer.fresh : Writer α := ⟨.reserving [], [], [], [], []⟩

/-- The local variables `v_lane_*` of `claim_ready_runtime`. -/
structure ClaimVars where
  lane : Lane
  claimSeq : Nat
  nextSeq : Nat
  maxBatch : Nat
deriving DecidableEq

inductive ClaimFrame where
  | returned
  /-- The lane probe took its snapshot of the segments; it has not read the sequences yet. -/
  | probing (queue maxBatch : Nat) (segments : List ReadySegment)
  /-- The probe evaluated this lane and now asks for its row lock. -/
  | routing (vars : ClaimVars) (target : Option RingRef)
  /-- The lock is held and the probe had found no segment. -/
  | unresolved (vars : ClaimVars)
  | targeted (vars : ClaimVars) (ref : RingRef)
  | folding (vars : ClaimVars) (evidence : Nat)
  | folded (vars : ClaimVars)
  | seeking (vars : ClaimVars) (ref : RingRef)
  | skipping (vars : ClaimVars) (ref : RingRef) (head : Nat)
  /-- The cursor variable is the head row's `lane_seq`. -/
  | headed (vars : ClaimVars) (ref : RingRef)
  | untombed (vars : ClaimVars) (ref : RingRef) (limit : Nat)
  | spent (vars : ClaimVars) (ref : RingRef) (limit : Nat)
  | repairing (lane : Lane) (next : Nat)
  | claiming (vars : ClaimVars) (ref : RingRef) (limit : Nat)
deriving DecidableEq

def ClaimFrame.afterLock (vars : ClaimVars) : Option RingRef → ClaimFrame
  | none => .unresolved vars
  | some ref => .targeted vars ref

structure Claimer (α : Type) where
  queues : List Nat
  frame : ClaimFrame
  claimed : List (ClaimedBatch α)

inductive LaneTx (α : Type) where
  | writer (writer : Writer α)
  | claimer (claimer : Claimer α)

/-- The transaction-scoped lock of `reserve_enqueue_seq`. `base` is the enqueue sequence at
the moment the lock was taken; no statement reads it. -/
structure LaneLock where
  holder : TxId
  base : Nat
deriving DecidableEq

structure LaneState (α : Type) where
  tables : LaneTables α
  ring : RingRef
  nextSeq : Lane → Nat
  claimSeq : Lane → Nat
  laneLock : Lane → Option LaneLock
  claimLock : Lane → Option TxId
  /-- Table locks that conflict with `TRUNCATE` of one slot's children, or of any slot's. -/
  childLocks : List (TxId × Option Nat)
  tx : TxId → Option (LaneTx α)
  /-- Post-commit advances that were asked for; each may run never, late or many times. -/
  advances : List ClaimCursorAdvance
  /-- Every claim batch committed so far, in commit order; no statement reads it. -/
  history : List (ClaimedBatch α)

namespace LaneState
variable (s : LaneState α)

def setSequenceNext (lane : Lane) (next : Nat) : LaneState α :=
  { s with claimSeq := update s.claimSeq lane (max next (s.claimSeq lane)) }

def setTx (t : TxId) (tx : LaneTx α) : LaneState α := { s with tx := update s.tx t (some tx) }

def view (claimer : Claimer α) : LaneTables α :=
  { s.tables with attempts := s.tables.attempts ++ claimer.claimed.map ClaimedBatch.batch }

def release (t : TxId) : LaneState α :=
  { s with
    laneLock := fun lane => (s.laneLock lane).filter fun lock => lock.holder ≠ t
    claimLock := fun lane => (s.claimLock lane).filter fun holder => holder ≠ t
    childLocks := s.childLocks.filter fun lock => lock.1 ≠ t
    tx := update s.tx t none }

end LaneState

def advanceClaimCursor (advance : ClaimCursorAdvance) (s : LaneState α) : LaneState α :=
  if (∀ current ∈ advance.onlyIfCurrent, s.claimSeq advance.lane = current) ∧
      (∀ evidence ∈ advance.evidence,
        s.tables.attemptCovers advance.lane evidence.ref evidence.laneSeq = true)
  then s.setSequenceNext advance.lane advance.nextSeq else s

def stageRows (lane : Lane) (start : Nat) (jobs : List (Nat × α)) : List (StagedRow α) :=
  jobs.zipIdx.map fun entry => ⟨lane, start + entry.2, entry.1.1, entry.1.2⟩

/-- One statement of `claim_ready_runtime` after the lane probe took the row lock. -/
def claimStatement (s : LaneState α) (t : TxId) (c : Claimer α) : Option (LaneState α) :=
  let goto (frame : ClaimFrame) := some (s.setTx t (.claimer { c with frame }))
  let view := s.view c
  match c.frame with
  | .unresolved vars =>
    match LaneTables.segmentAfter view.segments vars.lane vars.claimSeq with
    | none => goto .returned
    | some segment => goto (.targeted vars segment.ref)
  | .targeted vars ref =>
    match view.evidenceNext vars.lane ref vars.claimSeq with
    | none => goto (.seeking vars ref)
    | some next => goto (.folding vars next)
  | .folding vars next =>
    some ((s.setSequenceNext vars.lane next).setTx t
      (.claimer { c with frame := .folded { vars with claimSeq := next } }))
  | .folded vars =>
    match LaneTables.segmentAfter view.segments vars.lane vars.claimSeq with
    | none => goto .returned
    | some segment => goto (.seeking vars segment.ref)
  | .seeking vars ref =>
    match view.headRow vars.lane ref vars.claimSeq with
    | none => goto .returned
    | some head =>
      if vars.claimSeq < head.laneSeq then goto (.skipping vars ref head.laneSeq)
        else goto (.headed vars ref)
  | .skipping vars ref head =>
    some ((s.setSequenceNext vars.lane head).setTx t
      (.claimer { c with frame := .headed { vars with claimSeq := head } ref }))
  | .headed vars ref =>
    let limit := min (vars.nextSeq - vars.claimSeq) vars.maxBatch
    if limit = 0 then goto .returned
    else if view.isTombstoned vars.lane ref vars.claimSeq then goto (.spent vars ref limit)
    else goto (.untombed vars ref limit)
  | .untombed vars ref limit =>
    if view.attemptCovers vars.lane ref vars.claimSeq then goto (.spent vars ref limit)
    else goto (.claiming vars ref limit)
  | .spent vars ref limit =>
    match view.spentPrefixNext vars.lane ref vars.claimSeq limit with
    | none => goto .returned
    | some next => goto (.repairing vars.lane next)
  | .repairing lane next =>
    some ((s.setSequenceNext lane next).setTx t (.claimer { c with frame := .returned }))
  | .claiming vars ref limit =>
    some (s.setTx t (.claimer { c with
      frame := .returned
      claimed := c.claimed ++ (claimReadySlot view vars.lane ref vars.claimSeq limit).toList }))
  | .returned | .probing .. | .routing .. => none

inductive LaneOp (α : Type) where
  | beginWriter (t : TxId)
  | reserve (t : TxId) (lane : Lane) (jobs : List (Nat × α))
  | currentQueueRing (t : TxId)
  | insertReadyRows (t : TxId)
  | insertReadySegments (t : TxId)
  /-- Tombstone a committed ready row; `cancel` asks for the conditional advance after commit. -/
  | tombstone (t : TxId) (row : ReadyTombstone) (cancel : Bool)
  | beginClaim (t : TxId) (queues : List Nat)
  /-- The lane probe of the next stripe takes its snapshot. -/
  | probe (t : TxId) (maxBatch : Nat)
  /-- The probe reads the sequences of a lane it may return. -/
  | route (t : TxId) (lane : Lane)
  | lockClaimHead (t : TxId)
  | notFound (t : TxId)
  | claimStatement (t : TxId)
  | commit (t : TxId)
  | abort (t : TxId)
  | advance (advance : ClaimCursorAdvance)
  /-- `replay_claim_cursor_advance` for a claimed row that a worker remembers. -/
  | replay (row : ReadyTombstone)
  | rotate
  | truncate (slot : Nat)

def commitWriter (s : LaneState α) (t : TxId) (w : Writer α) : LaneState α :=
  { s.release t with
    tables := { s.tables with
      ready := s.tables.ready ++ w.rows
      segments := s.tables.segments ++ w.segments
      tombstones := s.tables.tombstones ++ w.tombstones }
    advances := s.advances ++ normalizeClaimCursorAdvances w.advances }

def commitClaimer (s : LaneState α) (t : TxId) (c : Claimer α) : LaneState α :=
  { s.release t with
    tables := { s.tables with attempts := s.tables.attempts ++ c.claimed.map ClaimedBatch.batch }
    advances := s.advances ++ normalizeClaimCursorAdvances
      (claimCursorAdvances (c.claimed.flatMap ClaimedBatch.rows))
    history := s.history ++ c.claimed }

def truncateSlot (s : LaneState α) (slot : Nat) : LaneState α :=
  { s with tables :=
    { ready := s.tables.ready.filter fun row => row.ref.slot ≠ slot
      segments := s.tables.segments.filter fun segment => segment.ref.slot ≠ slot
      tombstones := s.tables.tombstones.filter fun tomb => tomb.ref.slot ≠ slot
      attempts := s.tables.attempts.filter fun batch => batch.ref.slot ≠ slot } }

def rotateRing (slots : Nat) (ring : RingRef) : RingRef :=
  ⟨(ring.slot + 1) % slots, ring.generation + 1⟩

def stepWriter (s : LaneState α) (t : TxId) (w : Writer α) : LaneOp α → Option (LaneState α)
  | .reserve _ lane jobs =>
    match w.call with
    | .reserving staged =>
      if jobs ≠ [] ∧ ∀ lock ∈ s.laneLock lane, lock.holder = t then
        let start := s.nextSeq lane
        some ({ s with
          nextSeq := update s.nextSeq lane (start + jobs.length)
          laneLock := update s.laneLock lane
            (some ((s.laneLock lane).getD ⟨t, start⟩)) }.setTx t
          (.writer { w with call := .reserving (staged ++ stageRows lane start jobs) }))
      else none
    | _ => none
  | .currentQueueRing _ =>
    match w.call with
    | .reserving staged => some (s.setTx t (.writer { w with call := .routed staged s.ring }))
    | _ => none
  | .insertReadyRows _ =>
    match w.call with
    | .routed staged ref =>
      some ({ s with childLocks := (t, some ref.slot) :: s.childLocks }.setTx t
        (.writer { w with call := .inserted (staged.map (StagedRow.stamp ref)) ref }))
    | _ => none
  | .insertReadySegments _ =>
    match w.call with
    | .inserted rows ref => some (s.setTx t (.writer { w with
        call := .reserving []
        rows := w.rows ++ rows
        segments := w.segments ++ readySegmentsFromRows ref rows }))
    | _ => none
  | .tombstone _ row cancel =>
    if row ∈ s.tables.ready.map ReadyRow.key then
      some ({ s with childLocks := (t, some row.ref.slot) :: s.childLocks }.setTx t
        (.writer { w with
          tombstones := w.tombstones ++ [row]
          advances := w.advances ++ if cancel then [advanceOfCancel row] else [] }))
    else none
  | .commit _ =>
    match w.call with
    | .reserving [] => some (commitWriter s t w)
    | _ => none
  | _ => none

def stepClaimer (s : LaneState α) (t : TxId) (c : Claimer α) : LaneOp α → Option (LaneState α)
  | .probe _ maxBatch =>
    match c.frame, c.queues with
    | .returned, queue :: queues =>
      some ({ s with childLocks := (t, none) :: s.childLocks }.setTx t
        (.claimer { c with queues, frame := .probing queue maxBatch s.tables.segments }))
    | _, _ => none
  | .route _ lane =>
    match c.frame with
    | .probing queue maxBatch segments =>
      if lane.queue = queue ∧ s.claimSeq lane < s.nextSeq lane then
        let vars : ClaimVars := ⟨lane, s.claimSeq lane, s.nextSeq lane, maxBatch⟩
        let target := (LaneTables.segmentAfter segments lane vars.claimSeq).map ReadySegment.ref
        some (s.setTx t (.claimer { c with frame := .routing vars target }))
      else none
    | _ => none
  | .lockClaimHead _ =>
    match c.frame with
    | .routing vars target =>
      if s.claimLock vars.lane = none then
        some ({ s with claimLock := update s.claimLock vars.lane (some t) }.setTx t
          (.claimer { c with frame := .afterLock vars target }))
      else none
    | _ => none
  | .notFound _ =>
    match c.frame with
    | .probing .. | .routing .. => some (s.setTx t (.claimer { c with frame := .returned }))
    | _ => none
  | .claimStatement _ => claimStatement s t c
  | .commit _ => if c.frame = .returned then some (commitClaimer s t c) else none
  | _ => none

def stepTx (s : LaneState α) (t : TxId) (op : LaneOp α) : Option (LaneState α) :=
  match s.tx t with
  | none => none
  | some (.writer w) => stepWriter s t w op
  | some (.claimer c) => stepClaimer s t c op

def laneStep (slots : Nat) (op : LaneOp α) (s : LaneState α) : Option (LaneState α) :=
  match op with
  | .beginWriter t => if (s.tx t).isNone then some (s.setTx t (.writer .fresh)) else none
  | .beginClaim t queues =>
    if (s.tx t).isNone ∧ queues.Nodup then some (s.setTx t (.claimer ⟨queues, .returned, []⟩))
      else none
  | .reserve t .. | .currentQueueRing t | .insertReadyRows t | .insertReadySegments t
  | .tombstone t ..
  | .probe t .. | .route t .. | .lockClaimHead t | .notFound t | .claimStatement t | .commit t =>
    stepTx s t op
  | .abort t => if (s.tx t).isSome then some (s.release t) else none
  | .advance advance =>
    if advance ∈ s.advances ∧ s.claimLock advance.lane = none then
      some (advanceClaimCursor advance s) else none
  | .replay row =>
    if s.claimLock row.lane = none then some (advanceClaimCursor (advanceOfClaim row) s) else none
  | .rotate => some { s with ring := rotateRing slots s.ring }
  | .truncate slot =>
    if s.childLocks.all fun lock => lock.2 ≠ none ∧ lock.2 ≠ some slot then
      some (truncateSlot s slot) else none

def LaneState.initial : LaneState α where
  tables := ⟨[], [], [], []⟩
  ring := ⟨0, 0⟩
  nextSeq := fun _ => 1
  claimSeq := fun _ => 1
  laneLock := fun _ => none
  claimLock := fun _ => none
  childLocks := []
  tx := fun _ => none
  advances := []
  history := []

def laneMachine (α : Type) (slots : Nat) : Machine (LaneState α) (LaneOp α) :=
  ⟨fun s => s = LaneState.initial, laneStep slots⟩

end AwaQueue
