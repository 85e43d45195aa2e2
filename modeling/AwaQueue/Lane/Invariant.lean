import AwaQueue.Lane.Protocol

/-! What every state of the lane protocol satisfies, and what a transaction may rely on
while the others move.

The argument rests on the lane lock. `floor` is the sequence number from which on rows of a
lane may still appear: every committed row lies below it and every row in flight above it.
So a statement that sees a row has seen, or will never see, every row before it. -/

namespace AwaQueue
open Library
variable {α : Type} {slots : Nat} {s s' : LaneState α} {t : TxId}

/-- No row of the lane below this number can still become visible. -/
def LaneState.floor (s : LaneState α) (lane : Lane) : Nat :=
  ((s.laneLock lane).map LaneLock.base).getD (s.nextSeq lane)

def Placed (slots : Nat) (ref : RingRef) : Prop := ref.slot = ref.generation % slots

def GenerationsOrdered (rows : List (ReadyRow α)) : Prop :=
  ∀ low ∈ rows, ∀ high ∈ rows, low.lane = high.lane → low.laneSeq ≤ high.laneSeq →
    low.ref.generation ≤ high.ref.generation

/-- Segments are nonempty ranges filled with rows of their own ring position, and every row
lies in one. -/
structure SegmentsCover (rows : List (ReadyRow α)) (segments : List ReadySegment) : Prop where
  nonempty : ∀ segment ∈ segments, segment.firstLaneSeq < segment.nextLaneSeq
  filled : ∀ segment ∈ segments, ∀ n, segment.firstLaneSeq ≤ n → n < segment.nextLaneSeq →
    ∃ row ∈ rows, row.lane = segment.lane ∧ row.laneSeq = n ∧ row.ref = segment.ref
  covered : ∀ row ∈ rows, ∃ segment ∈ segments, segment.lane = row.lane ∧ segment.ref = row.ref ∧
    segment.firstLaneSeq ≤ row.laneSeq ∧ row.laneSeq < segment.nextLaneSeq

structure RowsOk (slots : Nat) (s : LaneState α) : Prop where
  below : ∀ row ∈ s.tables.ready, row.laneSeq < s.floor row.lane
  distinct : s.tables.ready.Pairwise fun a b => a.lane = b.lane → a.laneSeq ≠ b.laneSeq
  ordered : GenerationsOrdered s.tables.ready
  current : ∀ row ∈ s.tables.ready, row.ref.generation ≤ s.ring.generation
  placed : ∀ row ∈ s.tables.ready, Placed slots row.ref
  ring : Placed slots s.ring
  cover : SegmentsCover s.tables.ready s.tables.segments
  locks : ∀ lane lock, s.laneLock lane = some lock → lock.base ≤ s.nextSeq lane

def StagedRow.slotKey (row : StagedRow α) : Lane × Nat := (row.lane, row.laneSeq)
def ReadyRow.slotKey (row : ReadyRow α) : Lane × Nat := (row.lane, row.laneSeq)

def InsertCall.keys : InsertCall α → List (Lane × Nat)
  | .reserving staged | .routed staged _ => staged.map StagedRow.slotKey
  | .inserted rows _ => rows.map ReadyRow.slotKey

def InsertCall.ref : InsertCall α → Option RingRef
  | .reserving _ => none
  | .routed _ ref | .inserted _ ref => some ref

def InsertCall.rows : InsertCall α → List (ReadyRow α)
  | .inserted rows _ => rows
  | _ => []

def Writer.reserved (w : Writer α) : List (Lane × Nat) := w.rows.map ReadyRow.slotKey ++ w.call.keys

/-- The ring position an insert call read is not older than any row it may follow. -/
structure RefOk (slots : Nat) (s : LaneState α) (w : Writer α) (ref : RingRef) : Prop where
  current : ref.generation ≤ s.ring.generation
  placed : Placed slots ref
  afterOwn : ∀ row ∈ w.rows, row.ref.generation ≤ ref.generation
  afterCommitted : ∀ key ∈ w.call.keys, ∀ old ∈ s.tables.ready, old.lane = key.1 →
    old.ref.generation ≤ ref.generation

structure WriterOk (slots : Nat) (s : LaneState α) (t : TxId) (w : Writer α) : Prop where
  held : ∀ key ∈ w.reserved, ∃ lock, s.laneLock key.1 = some lock ∧ lock.holder = t ∧
    lock.base ≤ key.2 ∧ key.2 < s.nextSeq key.1
  distinct : w.reserved.Nodup
  ordered : GenerationsOrdered w.rows
  after : ∀ row ∈ w.rows, ∀ old ∈ s.tables.ready, old.lane = row.lane →
    old.ref.generation ≤ row.ref.generation
  current : ∀ row ∈ w.rows, row.ref.generation ≤ s.ring.generation
  placed : ∀ row ∈ w.rows, Placed slots row.ref
  cover : SegmentsCover w.rows w.segments
  later : ∀ row ∈ w.rows, ∀ key ∈ w.call.keys, row.lane = key.1 → row.laneSeq < key.2
  ref : ∀ ref ∈ w.call.ref, RefOk slots s w ref
  stamped : ∀ row ∈ w.call.rows, w.call.ref = some row.ref
  tombstones : ∀ tomb ∈ w.tombstones, tomb.laneSeq < s.floor tomb.lane ∧
    ∀ row ∈ s.tables.ready, row.lane = tomb.lane → row.laneSeq = tomb.laneSeq → row.ref = tomb.ref
  advances : ∀ advance ∈ w.advances, ∃ tomb ∈ w.tombstones, advance = advanceOfCancel tomb

def LaneTables.Spent (tables : LaneTables α) (row : ReadyRow α) : Prop :=
  tables.attemptSpent row = true

def SpentBelow (s : LaneState α) (lane : Lane) (bound : Nat) : Prop :=
  ∀ row ∈ s.tables.ready, row.lane = lane → row.laneSeq < bound → s.tables.Spent row

structure ClaimedBatch.Faithful (claim : ClaimedBatch α) : Prop where
  lane : ∀ row ∈ claim.rows, row.lane = claim.batch.lane
  ref : ∀ row ∈ claim.rows, row.ref = claim.batch.ref
  ranges : claim.batch.laneRanges = claim.rows.map ReadyRow.laneSeq
  last : ∃ row ∈ claim.rows, row.laneSeq + 1 = claim.batch.nextLaneSeq
  bounds : ∀ row ∈ claim.rows,
    claim.batch.firstLaneSeq ≤ row.laneSeq ∧ row.laneSeq < claim.batch.nextLaneSeq
  sorted : (claim.rows.map ReadyRow.laneSeq).Pairwise (· < ·)

/-- An advance that is safe to run at any later time. -/
structure AdvanceOk (s : LaneState α) (advance : ClaimCursorAdvance) : Prop where
  evidence : advance.onlyIfCurrent = none →
    ∃ evidence, advance.evidence = some evidence ∧ advance.nextSeq = evidence.laneSeq + 1
  conditional : ∀ current ∈ advance.onlyIfCurrent, advance.nextSeq = current + 1 ∧
    current < s.floor advance.lane ∧
    ∀ row ∈ s.tables.ready, row.lane = advance.lane → row.laneSeq = current → s.tables.Spent row

def ClaimedBatch.Precedes (earlier later : ClaimedBatch α) : Prop :=
  earlier.batch.lane = later.batch.lane →
    ∀ low ∈ earlier.rows, ∀ high ∈ later.rows, low.laneSeq < high.laneSeq

structure ClaimsOk (s : LaneState α) : Prop where
  cursor : ∀ lane, SpentBelow s lane (s.claimSeq lane)
  cursorFloor : ∀ lane, s.claimSeq lane ≤ s.floor lane
  closed : ∀ claim ∈ s.history, ∀ row ∈ claim.rows, SpentBelow s row.lane (row.laneSeq + 1)
  below : ∀ claim ∈ s.history, ∀ row ∈ claim.rows, row.laneSeq < s.floor row.lane
  faithful : ∀ claim ∈ s.history, claim.Faithful
  recorded : ∀ batch ∈ s.tables.attempts, ∃ claim ∈ s.history, claim.batch = batch
  ordered : s.history.Pairwise ClaimedBatch.Precedes
  advances : ∀ advance ∈ s.advances, AdvanceOk s advance

def TargetOk (s : LaneState α) (lane : Lane) (claimSeq : Nat) (ref : RingRef) : Prop :=
  ∃ witness ∈ s.tables.ready, witness.lane = lane ∧ claimSeq ≤ witness.laneSeq ∧ witness.ref = ref ∧
    ∀ row ∈ s.tables.ready, row.lane = lane → claimSeq ≤ row.laneSeq →
      row.laneSeq ≤ witness.laneSeq → row.ref = ref

/-- Each row is in the probe's snapshot of the segments or after everything in it. -/
structure SnapshotOk (s : LaneState α) (segments : List ReadySegment) : Prop where
  committed : ∀ segment ∈ segments, segment ∈ s.tables.segments
  split : ∀ row ∈ s.tables.ready,
    (∃ segment ∈ segments, segment.lane = row.lane ∧ segment.ref = row.ref ∧
      segment.firstLaneSeq ≤ row.laneSeq ∧ row.laneSeq < segment.nextLaneSeq) ∨
    ∀ segment ∈ segments, segment.lane = row.lane → segment.nextLaneSeq ≤ row.laneSeq

/-- The claim head is locked, the cursor variable is not ahead of the cursor, and a committed
row of position `ref` sits at it. -/
structure AtHead (s : LaneState α) (t : TxId) (vars : ClaimVars) (ref : RingRef) : Prop where
  locked : s.claimLock vars.lane = some t
  behind : vars.claimSeq ≤ s.claimSeq vars.lane
  head : ∃ row ∈ s.tables.ready, row.lane = vars.lane ∧ row.laneSeq = vars.claimSeq ∧ row.ref = ref

def FrameOk (s : LaneState α) (t : TxId) : ClaimFrame → Prop
  | .returned => True
  | .probing _ _ segments => SnapshotOk s segments
  | .routing vars target => vars.claimSeq ≤ s.claimSeq vars.lane ∧
      ∀ ref ∈ target, TargetOk s vars.lane vars.claimSeq ref
  | .unresolved vars | .folded vars =>
      s.claimLock vars.lane = some t ∧ vars.claimSeq ≤ s.claimSeq vars.lane
  | .targeted vars ref | .seeking vars ref =>
      (s.claimLock vars.lane = some t ∧ vars.claimSeq ≤ s.claimSeq vars.lane) ∧
        TargetOk s vars.lane vars.claimSeq ref
  | .folding vars next => s.claimLock vars.lane = some t ∧ SpentBelow s vars.lane next ∧
      next ≤ s.floor vars.lane
  | .skipping vars ref head => s.claimLock vars.lane = some t ∧ SpentBelow s vars.lane head ∧
      ∃ row ∈ s.tables.ready, row.lane = vars.lane ∧ row.laneSeq = head ∧ row.ref = ref
  | .headed vars ref | .spent vars ref _ => AtHead s t vars ref
  | .untombed vars ref _ => AtHead s t vars ref ∧
      ∀ claim ∈ s.history, ∀ row ∈ claim.rows, row.lane = vars.lane → vars.claimSeq ≤ row.laneSeq →
        s.tables.attemptCovers vars.lane ref vars.claimSeq = true
  | .repairing lane next => s.claimLock lane = some t ∧ SpentBelow s lane next ∧ next ≤ s.floor lane
  | .claiming vars ref _ => AtHead s t vars ref ∧
      ∀ claim ∈ s.history, ∀ row ∈ claim.rows, row.lane = vars.lane → row.laneSeq < vars.claimSeq

def ClaimFrame.queue : ClaimFrame → Option Nat
  | .returned => none
  | .probing queue _ _ => some queue
  | .routing vars _ | .unresolved vars | .targeted vars _ | .folding vars _ | .folded vars
  | .seeking vars _ | .skipping vars _ _ | .headed vars _ | .untombed vars _ _ | .spent vars _ _
  | .claiming vars _ _ => some vars.lane.queue
  | .repairing lane _ => some lane.queue

/-- An uncommitted claim: nothing at or after its first position was ever emitted, and every
committed row up to one of its positions is spent or claimed here. -/
structure PendingClaim (s : LaneState α) (t : TxId) (claim : ClaimedBatch α) : Prop where
  faithful : claim.Faithful
  locked : s.claimLock claim.batch.lane = some t
  below : ∀ row ∈ claim.rows, row.laneSeq < s.floor row.lane
  fresh : ∀ earlier ∈ s.history, ClaimedBatch.Precedes earlier claim
  closed : ∀ row ∈ claim.rows, ∀ old ∈ s.tables.ready, old.lane = row.lane →
    old.laneSeq ≤ row.laneSeq → s.tables.Spent old ∨ old ∈ claim.rows

structure ClaimerOk (s : LaneState α) (t : TxId) (c : Claimer α) : Prop where
  frame : FrameOk s t c.frame
  pending : ∀ claim ∈ c.claimed, PendingClaim s t claim
  stripes : c.queues.Nodup
  running : ∀ queue ∈ c.frame.queue, queue ∉ c.queues
  visited : ∀ claim ∈ c.claimed, claim.batch.lane.queue ∉ c.queues ∧
    ∀ queue ∈ c.frame.queue, claim.batch.lane.queue ≠ queue
  lanes : c.claimed.Pairwise fun a b => a.batch.lane ≠ b.batch.lane
  reading : (t, none) ∈ s.childLocks ∨ (c.frame = .returned ∧ c.claimed = [])

structure LaneInv (slots : Nat) (s : LaneState α) : Prop where
  rows : RowsOk slots s
  claims : ClaimsOk s
  writers : ∀ t w, s.tx t = some (.writer w) → WriterOk slots s t w
  claimers : ∀ t c, s.tx t = some (.claimer c) → ClaimerOk s t c

end AwaQueue
