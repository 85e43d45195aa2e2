import AwaQueue.Library.Select

/-! The lane tables of queue storage and the statements that read them.
A lane is `(queue, priority, enqueue_shard)`. Its ready rows carry the ring position
`(ready_slot, ready_generation)` that was current when their transaction inserted them.
Queue names are only ever compared, so they are numbers here. -/

namespace AwaQueue
open Library

abbrev TxId := Nat

/-- `job_state`, in the order of the bits of a `unique_states` mask. -/
inductive JobState where
  | scheduled
  | available
  | running
  | completed
  | retryable
  | failed
  | cancelled
  | waitingExternal
deriving DecidableEq

def JobState.isTerminal : JobState → Bool
  | .completed | .failed | .cancelled => true
  | .scheduled | .available | .running | .retryable | .waitingExternal => false

structure Lane where
  queue : Nat
  priority : Nat
  enqueueShard : Nat
deriving DecidableEq

/-- `(ready_slot, ready_generation)`. -/
structure RingRef where
  slot : Nat
  generation : Nat
deriving DecidableEq

def oldestInitializedRingSlot (currentSlot generation slotCount : Int) : Option (Int × Int) :=
  if slotCount ≤ 1 then none else
  let initializedSlots := min (generation + 1) slotCount
  if initializedSlots ≤ 1 then none else
  let offset := initializedSlots - 1
  let oldestSlot := (currentSlot - offset) % slotCount
  let oldestGeneration := generation - offset
  if oldestGeneration < 0 then none else some (oldestSlot, oldestGeneration)

def ringSlotGeneration (currentSlot generation slotCount slot : Int) : Option Int :=
  if slotCount ≤ 0 ∨ slot < 0 ∨ slot ≥ slotCount then none else
  let offset := (currentSlot - slot) % slotCount
  let slotGeneration := generation - offset
  if slotGeneration ≥ 0 then some slotGeneration else none

def RingRef.oldest (slots : Nat) (ring : RingRef) : Option RingRef :=
  (oldestInitializedRingSlot ring.slot ring.generation slots).map fun oldest =>
    ⟨oldest.1.toNat, oldest.2.toNat⟩

/-- A difference of positions wraps around at most once. -/
theorem wrap_sub {a b n : Int} (low : 0 ≤ a) (high : a < n) (low' : 0 ≤ b) (high' : b < n) :
    (a - b) % n = if b ≤ a then a - b else a - b + n := by
  split
  · exact Int.emod_eq_of_lt (by omega) (by omega)
  · rw [← Int.add_emod_right]
    exact Int.emod_eq_of_lt (by omega) (by omega)

theorem RingRef.oldest_eq_some {slots : Nat} {ring ref : RingRef}
    (inside : 0 < slots → ring.slot < slots) (found : ring.oldest slots = some ref) :
    ∃ back, back = min ring.generation (slots - 1) ∧ 0 < back ∧
      ref.generation = ring.generation - back ∧
      ref.slot = if back ≤ ring.slot then ring.slot - back else ring.slot + slots - back := by
  obtain ⟨⟨slot, generation⟩, oldest, rfl⟩ := Option.map_eq_some_iff.1 found
  unfold oldestInitializedRingSlot at oldest
  split at oldest
  · cases oldest
  next several =>
    dsimp only at oldest
    split at oldest
    · cases oldest
    next initialized =>
      have low := inside (by omega)
      rw [wrap_sub (by omega) (by omega) (by omega) (by omega), if_neg (by omega),
        Option.some.injEq, Prod.mk.injEq] at oldest
      obtain ⟨rfl, rfl⟩ := oldest
      refine ⟨min ring.generation (slots - 1), rfl, by omega, ?_, ?_⟩
      · dsimp only
        omega
      · dsimp only
        split <;> split <;> omega

/-- A row of `ready_entries`. The claim protocol never reads the job columns `job`. -/
structure ReadyRow (α : Type) where
  lane : Lane
  laneSeq : Nat
  ref : RingRef
  runAt : Nat
  job : α
deriving DecidableEq

/-- The job in a row of `ready_entries`, with its texts and payload as a reader needs them. -/
structure JobRecord (Kind Args Stored : Type) where
  jobId : Nat
  kind : Kind
  args : Args
  attempt : Nat
  runLease : Nat
  maxAttempts : Nat
  createdAt : Nat
  uniqueKey : Option String
  uniqueStates : Option String
  payload : Stored
deriving DecidableEq

/-- A row of `ready_segments`: the lane sequence range `[firstLaneSeq, nextLaneSeq)`. -/
structure ReadySegment where
  lane : Lane
  ref : RingRef
  firstLaneSeq : Nat
  nextLaneSeq : Nat
  firstRunAt : Nat
deriving DecidableEq

structure ReadyTombstone where
  lane : Lane
  laneSeq : Nat
  ref : RingRef
deriving DecidableEq

/-- A row of `ready_claim_attempt_batches`; `laneRanges` lists the points of its multirange. -/
structure AttemptBatch where
  lane : Lane
  ref : RingRef
  firstLaneSeq : Nat
  nextLaneSeq : Nat
  laneRanges : List Nat
deriving DecidableEq

structure LaneTables (α : Type) where
  ready : List (ReadyRow α)
  segments : List ReadySegment
  tombstones : List ReadyTombstone
  attempts : List AttemptBatch

variable {α : Type}

def ReadyRow.key (row : ReadyRow α) : ReadyTombstone := ⟨row.lane, row.laneSeq, row.ref⟩

namespace LaneTables
variable (tables : LaneTables α) (lane : Lane) (ref : RingRef)

/-- The lane probe: the segment with the smallest `next_lane_seq` above the cursor. -/
def segmentAfter (segments : List ReadySegment) (lane : Lane) (claimSeq : Nat) :
    Option ReadySegment :=
  first ReadySegment.nextLaneSeq
    (segments.filter fun segment => segment.lane = lane ∧ claimSeq < segment.nextLaneSeq)

def evidenceNext (claimSeq : Nat) : Option Nat :=
  ((tables.attempts.filter fun batch =>
    batch.lane = lane ∧ batch.ref = ref ∧
      claimSeq < batch.nextLaneSeq).map AttemptBatch.nextLaneSeq).max?

def rowsFrom (claimSeq : Nat) : List (ReadyRow α) :=
  tables.ready.filter fun row => row.lane = lane ∧ row.ref = ref ∧ claimSeq ≤ row.laneSeq

def headRow (claimSeq : Nat) : Option (ReadyRow α) :=
  first ReadyRow.laneSeq (tables.rowsFrom lane ref claimSeq)

def isTombstoned (laneSeq : Nat) : Bool := tables.tombstones.contains ⟨lane, laneSeq, ref⟩

def attemptCovers (laneSeq : Nat) : Bool :=
  tables.attempts.any fun batch => batch.lane = lane ∧ batch.ref = ref ∧
    batch.firstLaneSeq ≤ laneSeq ∧ laneSeq < batch.nextLaneSeq ∧ laneSeq ∈ batch.laneRanges

def attemptSpent (row : ReadyRow α) : Bool :=
  tables.isTombstoned row.lane row.ref row.laneSeq ||
    tables.attemptCovers row.lane row.ref row.laneSeq

def window (claimSeq limit : Nat) : List (ReadyRow α) :=
  select ReadyRow.laneSeq limit (tables.rowsFrom lane ref claimSeq)

/-- `max(lane_seq) + 1` over the spent rows whose `lane_seq - row_number()` is `claimSeq - 1`. -/
def spentPrefixNext (claimSeq limit : Nat) : Option Nat :=
  let spent := (tables.window lane ref claimSeq limit).filter tables.attemptSpent
  let grouped := spent.zipIdx.filter fun entry => entry.1.laneSeq = claimSeq + entry.2
  (grouped.map fun entry => entry.1.laneSeq).max?.map (· + 1)

end LaneTables

structure ClaimedBatch (α : Type) where
  batch : AttemptBatch
  rows : List (ReadyRow α)
deriving DecidableEq

/-- `claim_ready_slot_N`: the window minus its tombstoned rows becomes one attempt batch. -/
def claimReadySlot (tables : LaneTables α) (lane : Lane) (ref : RingRef) (claimSeq limit : Nat) :
    Option (ClaimedBatch α) :=
  let rows := (tables.window lane ref claimSeq limit).filter
    fun row => !tables.isTombstoned lane ref row.laneSeq
  match (rows.map ReadyRow.laneSeq).min?, (rows.map ReadyRow.laneSeq).max? with
  | some low, some high => some ⟨⟨lane, ref, low, high + 1, rows.map ReadyRow.laneSeq⟩, rows⟩
  | _, _ => none

/-- `ready_segments_from_rows`: one segment for each run of rows of one lane with
consecutive sequence numbers and one `run_at`. -/
def readySegmentsFromRows (ref : RingRef) : List (ReadyRow α) → List ReadySegment
  | [] => []
  | row :: rows => extend row row rows
where
  extend (first last : ReadyRow α) : List (ReadyRow α) → List ReadySegment
    | [] => [⟨first.lane, ref, first.laneSeq, last.laneSeq + 1, first.runAt⟩]
    | row :: rows =>
      if last.lane ≠ row.lane ∨ last.laneSeq + 1 ≠ row.laneSeq ∨ last.runAt ≠ row.runAt then
        ⟨first.lane, ref, first.laneSeq, last.laneSeq + 1, first.runAt⟩ :: extend row row rows
      else extend first row rows

structure ClaimEvidence where
  ref : RingRef
  laneSeq : Nat
deriving DecidableEq

structure ClaimCursorAdvance where
  lane : Lane
  nextSeq : Nat
  onlyIfCurrent : Option Nat
  evidence : Option ClaimEvidence
deriving DecidableEq

def advanceOfClaim (row : ReadyTombstone) : ClaimCursorAdvance :=
  ⟨row.lane, row.laneSeq + 1, none, some ⟨row.ref, row.laneSeq⟩⟩

def claimCursorAdvances (rows : List (ReadyRow α)) : List ClaimCursorAdvance :=
  (rows.map ReadyRow.lane).dedup.filterMap fun lane =>
    ((orderBy ReadyRow.laneSeq (rows.filter fun row => row.lane = lane)).getLast?).map
      fun last => advanceOfClaim last.key

/-- The advance a cancelled ready row asks for: only when it sits exactly at the claim head. -/
def advanceOfCancel (row : ReadyTombstone) : ClaimCursorAdvance :=
  ⟨row.lane, row.laneSeq + 1, some row.laneSeq, none⟩

/-- `normalize_claim_cursor_advances`: a lane with an unconditional advance keeps the farthest
of those and nothing else; otherwise each `only_if_current` keeps its farthest target. -/
def normalizeClaimCursorAdvances (advances : List ClaimCursorAdvance) : List ClaimCursorAdvance :=
  (advances.map ClaimCursorAdvance.lane).dedup.flatMap fun lane =>
    let ofLane := advances.filter fun advance => advance.lane = lane
    match (orderBy ClaimCursorAdvance.nextSeq
      (ofLane.filter (·.onlyIfCurrent = none)).reverse).getLast? with
    | some farthest => [farthest]
    | none => (ofLane.filterMap ClaimCursorAdvance.onlyIfCurrent).dedup.filterMap fun current =>
        ((ofLane.filter (·.onlyIfCurrent = some current)).map ClaimCursorAdvance.nextSeq).max?.map
          fun nextSeq => ⟨lane, nextSeq, some current, none⟩

end AwaQueue
