import AwaQueue.Lane.Invariant

/-! What the steps of other transactions leave alone. `Rely t` says what transaction `t`
may assume of one step taken by somebody else, `ClaimRely t` what a claim call may assume;
the knowledge of a transaction is stable under it. -/

namespace AwaQueue
open Library
variable {α : Type} {slots : Nat} {s s' : LaneState α} {t : TxId} {tables tables' : LaneTables α}
  {lane : Lane} {ref : RingRef} {n : Nat} {row : ReadyRow α} {claim : ClaimedBatch α}

theorem LaneTables.isTombstoned_iff :
    tables.isTombstoned lane ref n = true ↔ ⟨lane, n, ref⟩ ∈ tables.tombstones := by
  simp [LaneTables.isTombstoned]

theorem LaneTables.attemptCovers_iff :
    tables.attemptCovers lane ref n = true ↔ ∃ batch ∈ tables.attempts, batch.lane = lane ∧
      batch.ref = ref ∧ batch.firstLaneSeq ≤ n ∧ n < batch.nextLaneSeq ∧ n ∈ batch.laneRanges := by
  simp [LaneTables.attemptCovers]

theorem LaneTables.spent_iff : tables.Spent row ↔ row.key ∈ tables.tombstones ∨
      tables.attemptCovers row.lane row.ref row.laneSeq = true := by
  simp [LaneTables.Spent, LaneTables.attemptSpent, LaneTables.isTombstoned_iff, ReadyRow.key]

structure EvidenceGrows (tables tables' : LaneTables α) : Prop where
  tombstones : tables.tombstones ⊆ tables'.tombstones
  attempts : tables.attempts ⊆ tables'.attempts

theorem EvidenceGrows.attemptCovers (grows : EvidenceGrows tables tables')
    (covered : tables.attemptCovers lane ref n = true) :
    tables'.attemptCovers lane ref n = true := by
  obtain ⟨batch, mem, covers⟩ := LaneTables.attemptCovers_iff.1 covered
  exact LaneTables.attemptCovers_iff.2 ⟨batch, grows.attempts mem, covers⟩

theorem EvidenceGrows.spent (grows : EvidenceGrows tables tables')
    (spent : tables.Spent row) : tables'.Spent row := by
  rcases LaneTables.spent_iff.1 spent with tomb | covered
  · exact LaneTables.spent_iff.2 (.inl (grows.tombstones tomb))
  · exact LaneTables.spent_iff.2 (.inr (grows.attemptCovers covered))

structure Growth (s s' : LaneState α) : Prop where
  floor : ∀ lane, s.floor lane ≤ s'.floor lane
  ring : s.ring.generation ≤ s'.ring.generation
  appear : ∀ row ∈ s'.tables.ready, row ∈ s.tables.ready ∨ s.floor row.lane ≤ row.laneSeq

theorem Growth.old_of_lt (growth : Growth s s') (mem : row ∈ s'.tables.ready)
    (below : row.laneSeq < s.floor row.lane) : row ∈ s.tables.ready := by
  rcases growth.appear row mem with old | new
  · exact old
  · omega

/-- What a step of another transaction leaves to transaction `t`. -/
structure Rely (t : TxId) (s s' : LaneState α) : Prop extends Growth s s' where
  locks : ∀ lane lock, s.laneLock lane = some lock → lock.holder = t →
    s'.laneLock lane = some lock ∧ s'.nextSeq lane = s.nextSeq lane
  heldRows : ∀ row ∈ s'.tables.ready, ∀ lock, s.laneLock row.lane = some lock → lock.holder = t →
    row ∈ s.tables.ready

theorem WriterOk.stable {w : Writer α} (ok : WriterOk slots s t w) (rely : Rely t s s') :
    WriterOk slots s' t w where
  __ := ok
  held key mem := by
    obtain ⟨lock, held, mine, low, high⟩ := ok.held key mem
    obtain ⟨kept, same⟩ := rely.locks _ lock held mine
    exact ⟨lock, kept, mine, low, by omega⟩
  after row mem old oldMember sameLane := by
    have key : row.slotKey ∈ w.reserved := List.mem_append_left _ (List.mem_map_of_mem mem)
    obtain ⟨lock, held, mine, -⟩ := ok.held _ key
    exact ok.after row mem old (rely.heldRows old oldMember lock (sameLane ▸ held) mine) sameLane
  current row mem := (ok.current row mem).trans rely.ring
  ref ref mem := {
    current := ((ok.ref ref mem).current).trans rely.ring
    placed := (ok.ref ref mem).placed
    afterOwn := (ok.ref ref mem).afterOwn
    afterCommitted := by
      intro key keyMember old oldMember sameLane
      obtain ⟨lock, held, mine, -⟩ := ok.held _ (List.mem_append_right _ keyMember)
      exact (ok.ref ref mem).afterCommitted key keyMember old
        (rely.heldRows old oldMember lock (sameLane ▸ held) mine) sameLane }
  tombstones tomb mem := by
    obtain ⟨below, matching⟩ := ok.tombstones tomb mem
    refine ⟨below.trans_le (rely.floor _), fun row rowMember sameLane sameSeq => ?_⟩
    exact matching row (rely.old_of_lt rowMember (by rw [sameLane, sameSeq]; exact below))
      sameLane sameSeq

/-- What a claim call of transaction `t` may assume of a step of another transaction. -/
structure ClaimRely (t : TxId) (s s' : LaneState α) : Prop extends Rely t s s' where
  evidence : EvidenceGrows s.tables s'.tables
  ready : s.tables.ready ⊆ s'.tables.ready
  segments : s.tables.segments ⊆ s'.tables.segments
  cursor : ∀ lane, s.claimSeq lane ≤ s'.claimSeq lane
  claimLocks : ∀ lane, s.claimLock lane = some t → s'.claimLock lane = some t
  history : ∀ claim ∈ s'.history, claim ∈ s.history ∨ s.claimLock claim.batch.lane ≠ some t
  faithful : ∀ claim ∈ s'.history, claim.Faithful
  childLocks : ∀ slot, (t, slot) ∈ s.childLocks → (t, slot) ∈ s'.childLocks

theorem SpentBelow.stable {bound : Nat} (spent : SpentBelow s lane bound)
    (growth : Growth s s') (evidence : EvidenceGrows s.tables s'.tables)
    (low : bound ≤ s.floor lane) : SpentBelow s' lane bound := by
  intro row mem sameLane below
  have old := growth.old_of_lt mem (by rw [sameLane]; omega)
  exact evidence.spent (spent row old sameLane below)

theorem TargetOk.stable {claimSeq : Nat} (rows : RowsOk slots s)
    (target : TargetOk s lane claimSeq ref) (rely : ClaimRely t s s') :
    TargetOk s' lane claimSeq ref := by
  obtain ⟨witness, mem, sameLane, after, sameRef, nearest⟩ := target
  refine ⟨witness, rely.ready mem, sameLane, after, sameRef,
    fun row rowMember rowLane rowAfter rowLe => ?_⟩
  have below := rows.below witness mem
  exact nearest row (rely.old_of_lt rowMember (by rw [rowLane, ← sameLane]; omega)) rowLane
    rowAfter rowLe

theorem RowsOk.segment_le_floor (rows : RowsOk slots s) {segment : ReadySegment}
    (mem : segment ∈ s.tables.segments) : segment.nextLaneSeq ≤ s.floor segment.lane := by
  have nonempty := rows.cover.nonempty segment mem
  obtain ⟨row, rowMember, sameLane, last, -⟩ :=
    rows.cover.filled segment mem (segment.nextLaneSeq - 1) (by omega) (by omega)
  have below := rows.below row rowMember
  rw [sameLane] at below
  omega

theorem SnapshotOk.stable {segments : List ReadySegment} (rows : RowsOk slots s)
    (snapshot : SnapshotOk s segments) (rely : ClaimRely t s s') : SnapshotOk s' segments where
  committed segment mem := rely.segments (snapshot.committed segment mem)
  split row mem := by
    rcases rely.appear row mem with old | new
    · exact snapshot.split row old
    · refine .inr fun segment segmentMember sameLane => ?_
      have bound := rows.segment_le_floor (snapshot.committed segment segmentMember)
      rw [sameLane] at bound
      omega

theorem AtHead.stable {vars : ClaimVars} (atHead : AtHead s t vars ref)
    (rely : ClaimRely t s s') : AtHead s' t vars ref where
  locked := rely.claimLocks _ atHead.locked
  behind := atHead.behind.trans (rely.cursor _)
  head := by
    obtain ⟨row, mem, rest⟩ := atHead.head
    exact ⟨row, rely.ready mem, rest⟩

/-- While `t` holds a claim head, no batch of that lane is added to the history. -/
theorem ClaimRely.old_claim (rely : ClaimRely t s s') (mem : claim ∈ s'.history)
    (rowMember : row ∈ claim.rows) (sameLane : row.lane = lane)
    (locked : s.claimLock lane = some t) : claim ∈ s.history := by
  rcases rely.history claim mem with old | other
  · exact old
  · rw [← (rely.faithful claim mem).lane row rowMember, sameLane] at other
    exact absurd locked other

theorem FrameOk.stable (rows : RowsOk slots s) {frame : ClaimFrame} (ok : FrameOk s t frame)
    (rely : ClaimRely t s s') : FrameOk s' t frame := by
  cases frame with
  | returned => trivial
  | probing queue maxBatch segments => exact SnapshotOk.stable rows ok rely
  | routing vars target =>
    exact ⟨ok.1.trans (rely.cursor _), fun ref mem => (ok.2 ref mem).stable rows rely⟩
  | unresolved vars | folded vars => exact ⟨rely.claimLocks _ ok.1, ok.2.trans (rely.cursor _)⟩
  | targeted vars ref | seeking vars ref =>
    exact ⟨⟨rely.claimLocks _ ok.1.1, ok.1.2.trans (rely.cursor _)⟩, ok.2.stable rows rely⟩
  | folding vars next =>
    exact ⟨rely.claimLocks _ ok.1, ok.2.1.stable rely.toGrowth rely.evidence ok.2.2,
      ok.2.2.trans (rely.floor _)⟩
  | skipping vars ref head =>
    obtain ⟨locked, spent, row, mem, sameLane, sameSeq, sameRef⟩ := ok
    have below := rows.below row mem
    refine ⟨rely.claimLocks _ locked, spent.stable rely.toGrowth rely.evidence ?_,
      row, rely.ready mem, sameLane, sameSeq, sameRef⟩
    rw [← sameLane]
    omega
  | headed vars ref | spent vars ref limit => exact AtHead.stable ok rely
  | untombed vars ref limit =>
    refine ⟨ok.1.stable rely, fun claim mem row rowMember sameLane after => ?_⟩
    have old := rely.old_claim mem rowMember sameLane ok.1.locked
    exact rely.evidence.attemptCovers (ok.2 claim old row rowMember sameLane after)
  | repairing lane next =>
    exact ⟨rely.claimLocks _ ok.1, ok.2.1.stable rely.toGrowth rely.evidence ok.2.2,
      ok.2.2.trans (rely.floor _)⟩
  | claiming vars ref limit =>
    refine ⟨ok.1.stable rely, fun claim mem row rowMember sameLane => ?_⟩
    have old := rely.old_claim mem rowMember sameLane ok.1.locked
    exact ok.2 claim old row rowMember sameLane

theorem PendingClaim.stable (ok : PendingClaim s t claim) (rely : ClaimRely t s s') :
    PendingClaim s' t claim where
  faithful := ok.faithful
  locked := rely.claimLocks _ ok.locked
  below row mem := (ok.below row mem).trans_le (rely.floor _)
  fresh earlier mem := by
    rcases rely.history earlier mem with old | other
    · exact ok.fresh earlier old
    · exact fun sameLane => absurd (sameLane ▸ ok.locked) other
  closed row mem old oldMember sameLane le := by
    have below := ok.below row mem
    have kept := rely.old_of_lt oldMember (by rw [sameLane]; omega)
    exact (ok.closed row mem old kept sameLane le).imp_left rely.evidence.spent

theorem ClaimerOk.stable {c : Claimer α} (rows : RowsOk slots s) (ok : ClaimerOk s t c)
    (rely : ClaimRely t s s') : ClaimerOk s' t c where
  __ := ok
  frame := ok.frame.stable rows rely
  pending claim mem := (ok.pending claim mem).stable rely
  reading := ok.reading.imp_left (rely.childLocks _)

theorem AdvanceOk.stable {advance : ClaimCursorAdvance} (ok : AdvanceOk s advance)
    (growth : Growth s s')
    (evidence : EvidenceGrows s.tables s'.tables) : AdvanceOk s' advance where
  evidence := ok.evidence
  conditional current mem := by
    obtain ⟨next, below, spent⟩ := ok.conditional current mem
    refine ⟨next, below.trans_le (growth.floor _), fun row rowMember sameLane sameSeq => ?_⟩
    exact evidence.spent (spent row (growth.old_of_lt rowMember
      (by rw [sameLane, sameSeq]; exact below))
      sameLane sameSeq)

end AwaQueue
