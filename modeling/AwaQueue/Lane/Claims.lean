import AwaQueue.Lane.Commits

/-! Every statement of `claim_ready_runtime` keeps the lane invariant: the evidence fold, the
gap skip and the spent-prefix fold move the cursor over spent rows only, and the claim itself
takes rows that no committed claim has reached. -/

namespace AwaQueue

open List Library
variable {α : Type} {slots : Nat} {s s' : LaneState α} {t : TxId} {c : Claimer α}
  {segments : List ReadySegment} {lane : Lane} {claimSeq : Nat} {segment : ReadySegment}
    {head row : ReadyRow α} {batch : AttemptBatch}
  {ref : RingRef}

theorem segmentAfter_eq_some (found : LaneTables.segmentAfter segments lane claimSeq =
    some segment) : segment ∈ segments ∧ segment.lane = lane ∧ claimSeq < segment.nextLaneSeq ∧
      ∀ other ∈ segments, other.lane = lane → claimSeq < other.nextLaneSeq →
        segment.nextLaneSeq ≤ other.nextLaneSeq := by
  obtain ⟨mem, nearest⟩ := first_eq_some found
  obtain ⟨present, sameLane, after⟩ : segment ∈ segments ∧ segment.lane = lane ∧
      claimSeq < segment.nextLaneSeq := by simpa using mem
  exact ⟨present, sameLane, after, fun other otherMember otherLane otherAfter =>
    nearest other (by simp [otherMember, otherLane, otherAfter])⟩

/-- The segment the probe picks leads to the first row at or after the cursor, even when the
snapshot it was picked from is no longer current. -/
theorem SnapshotOk.target (rows : RowsOk slots s) (snapshot : SnapshotOk s segments)
    (found : LaneTables.segmentAfter segments lane claimSeq = some segment) :
    TargetOk s lane claimSeq segment.ref := by
  obtain ⟨mem, sameLane, after, nearest⟩ := segmentAfter_eq_some found
  have committed := snapshot.committed segment mem
  have nonempty := rows.cover.nonempty segment committed
  obtain ⟨witness, witnessMember, witnessLane, witnessSeq, witnessRef⟩ :=
    rows.cover.filled segment committed (segment.nextLaneSeq - 1) (by omega) (by omega)
  refine ⟨witness, witnessMember, witnessLane.trans sameLane, by omega, witnessRef, ?_⟩
  intro row rowMember rowLane rowAfter rowLe
  rcases snapshot.split row rowMember with ⟨cover, coverMember, coverLane, coverRef, low,
    high⟩ | beyond
  · -- the segment of this row reaches the witness too, so the two share their position
    have farther := nearest cover coverMember (coverLane.trans rowLane) (by omega)
    obtain ⟨reached, reachedMember, reachedLane, reachedSeq, reachedRef⟩ := rows.cover.filled cover
      (snapshot.committed cover coverMember) witness.laneSeq (by omega) (by omega)
    have same := rows.unique reachedMember witnessMember
      (by rw [reachedLane, coverLane, rowLane, witnessLane, sameLane]) reachedSeq
    rw [← coverRef, ← reachedRef, same, witnessRef]
  · have apart := beyond segment mem (sameLane.trans rowLane.symm)
    omega

theorem RowsOk.snapshot (rows : RowsOk slots s) : SnapshotOk s s.tables.segments where
  committed _ mem := mem
  split row mem := .inl (rows.cover.covered row mem)

theorem headRow_eq_some {tables : LaneTables α}
    (found : tables.headRow lane ref claimSeq = some head) :
    (head ∈ tables.ready ∧ head.lane = lane ∧ head.ref = ref ∧ claimSeq ≤ head.laneSeq) ∧
      ∀ row ∈ tables.ready, row.lane = lane → row.ref = ref → claimSeq ≤ row.laneSeq →
        head.laneSeq ≤ row.laneSeq := by
  obtain ⟨mem, nearest⟩ := first_eq_some found
  refine ⟨by simpa [LaneTables.rowsFrom] using mem, fun row rowMember rowLane rowRef rowAfter => ?_⟩
  exact nearest row (by simp [LaneTables.rowsFrom, rowMember, rowLane, rowRef, rowAfter])

/-- No committed row lies between the cursor variable and the head row. -/
theorem TargetOk.nearest
    (target : TargetOk s lane claimSeq ref) (found : s.tables.headRow lane ref claimSeq = some head)
    (mem : row ∈ s.tables.ready) (sameLane : row.lane = lane)
    (after : claimSeq ≤ row.laneSeq) : head.laneSeq ≤ row.laneSeq := by
  obtain ⟨witness, witnessMember, witnessLane, witnessAfter, witnessRef, alike⟩ := target
  have nearest := (headRow_eq_some found).2
  rcases Nat.le_total row.laneSeq witness.laneSeq with near | far
  · exact nearest row mem sameLane (alike row mem sameLane after near) after
  · exact (nearest witness witnessMember witnessLane witnessRef witnessAfter).trans far

theorem view_attempts (mem : batch ∈ (s.view c).attempts) :
    batch ∈ s.tables.attempts ∨ ∃ claim ∈ c.claimed, claim.batch = batch := by
  simpa [LaneState.view] using mem

/-- The own uncommitted batches belong to other queues than the one being claimed. -/
theorem ClaimerOk.view_batch (ok : ClaimerOk s t c) (current : c.frame.queue = some lane.queue)
    (mem : batch ∈ (s.view c).attempts) (sameLane : batch.lane = lane) :
    batch ∈ s.tables.attempts := by
  rcases view_attempts mem with committed | ⟨claim, claimMember, rfl⟩
  · exact committed
  · have apart := (ok.visited claim claimMember).2 lane.queue current
    exact absurd (congrArg Lane.queue sameLane) apart

theorem ClaimerOk.view_covers (ok : ClaimerOk s t c) (current : c.frame.queue = some lane.queue)
    {n : Nat} :
    (s.view c).attemptCovers lane ref n = true ↔ s.tables.attemptCovers lane ref n = true := by
  simp only [LaneTables.attemptCovers_iff]
  constructor
  · rintro ⟨batch, mem, sameLane, rest⟩
    exact ⟨batch, ok.view_batch current mem sameLane, sameLane, rest⟩
  · rintro ⟨batch, mem, rest⟩
    exact ⟨batch, mem_append_left _ mem, rest⟩

theorem ClaimerOk.view_spent (ok : ClaimerOk s t c)
    (current : c.frame.queue = some row.lane.queue) :
    (s.view c).attemptSpent row = true ↔ s.tables.Spent row := by
  rw [LaneTables.spent_iff, ← ok.view_covers current]
  exact (LaneTables.spent_iff : (s.view c).Spent row ↔ _)

theorem LaneInv.frame (inv : LaneInv slots s) (running : s.tx t = some (.claimer c))
    {frame : ClaimFrame} (started : c.frame ≠ .returned) (next : FrameOk s t frame)
    (queue : ∀ queue ∈ frame.queue, queue ∈ c.frame.queue) :
    LaneInv slots (s.setTx t (.claimer { c with frame })) := by
  have ok := inv.claimers t c running
  have quiet : Quiet s (s.setTx t (.claimer { c with frame })) := ⟨rfl, rfl, rfl, rfl, rfl, rfl⟩
  have rely : ClaimRely t s (s.setTx t (.claimer { c with frame })) :=
    quiet.rely inv.claims (fun _ => Nat.le_refl _) (fun _ held => held) (fun _ mem => mem)
  refine inv.local_step _ (List.Subset.refl _) (fun _ same => by cases same) (fun c' same => ?_)
  cases same
  exact {
    frame := next.stable inv.rows rely
    pending := fun claim mem => (ok.pending claim mem).stable rely
    stripes := ok.stripes
    running := fun q mem => ok.running q (queue q mem)
    visited := fun claim mem => ⟨(ok.visited claim mem).1,
      fun q qMember => (ok.visited claim mem).2 q (queue q qMember)⟩
    lanes := ok.lanes
    reading := .inl (ok.reading.resolve_right fun idle => started idle.1) }

theorem LaneInv.move_frame (inv : LaneInv slots s) (running : s.tx t = some (.claimer c))
    {frame : ClaimFrame}
    {next : Nat} (started : c.frame ≠ .returned) (spent : SpentBelow s lane next)
    (low : next ≤ s.floor lane) (nextOk : FrameOk (s.setSequenceNext lane next) t frame)
    (queue : ∀ queue ∈ frame.queue, queue ∈ c.frame.queue) :
    LaneInv slots ((s.setSequenceNext lane next).setTx t (.claimer { c with frame })) :=
  (inv.setSequenceNext spent low).frame running started nextOk queue

theorem le_setSequenceNext (lane : Lane) (next : Nat) :
    next ≤ (s.setSequenceNext lane next).claimSeq lane := by
  simp [LaneState.setSequenceNext]

section Statements
variable {vars : ClaimVars} {ref : RingRef} {limit : Nat} {lane : Lane} {claimSeq : Nat}
  {tables : LaneTables α} {next : Nat}

theorem ClaimsOk.spent_behind (claims : ClaimsOk s) {bound : Nat}
    (behind : bound ≤ s.claimSeq lane) : SpentBelow s lane bound :=
  fun row mem sameLane below => claims.cursor lane row mem sameLane (by omega)

/-- The evidence fold jumps to the end of a committed claim of the lane. -/
theorem ClaimerOk.evidence_spent (claims : ClaimsOk s) (ok : ClaimerOk s t c)
    (current : c.frame.queue = some lane.queue)
    (found : (s.view c).evidenceNext lane ref claimSeq = some next) :
    SpentBelow s lane next ∧ next ≤ s.floor lane := by
  obtain ⟨batch, mem, rfl⟩ := mem_map.1 (max?_mem found)
  obtain ⟨present, sameLane, -⟩ :
      batch ∈ (s.view c).attempts ∧ batch.lane = lane ∧ batch.ref = ref ∧
      claimSeq < batch.nextLaneSeq := by simpa using mem
  obtain ⟨claim, claimMember, rfl⟩ := claims.recorded batch (ok.view_batch current present sameLane)
  have faithful := claims.faithful claim claimMember
  obtain ⟨last, lastMember, lastNext⟩ := faithful.last
  rw [← lastNext, ← sameLane, ← faithful.lane last lastMember]
  exact ⟨claims.closed claim claimMember last lastMember,
    claims.below claim claimMember last lastMember⟩

theorem spent_before_head {head : ReadyRow α} (claims : ClaimsOk s)
    (behind : vars.claimSeq ≤ s.claimSeq vars.lane)
    (target : TargetOk s vars.lane vars.claimSeq ref)
    (found : s.tables.headRow vars.lane ref vars.claimSeq = some head) :
    SpentBelow s vars.lane head.laneSeq := by
  intro row mem sameLane below
  rcases Nat.lt_or_ge row.laneSeq vars.claimSeq with before | after
  · exact claims.spent_behind behind row mem sameLane before
  · exact absurd (target.nearest found mem sameLane after) (by omega)

/-- Without a tombstone at the head, a later committed position implies evidence for the head. -/
theorem AtHead.untombed (claims : ClaimsOk s) (atHead : AtHead s t vars ref)
    (clear : s.tables.isTombstoned vars.lane ref vars.claimSeq = false) :
    ∀ claim ∈ s.history, ∀ row ∈ claim.rows, row.lane = vars.lane → vars.claimSeq ≤ row.laneSeq →
      s.tables.attemptCovers vars.lane ref vars.claimSeq = true := by
  intro claim mem row rowMember sameLane after
  obtain ⟨head, headMember, headLane, headSeq, headRef⟩ := atHead.head
  have spent := claims.closed claim mem row rowMember head headMember (headLane.trans sameLane.symm)
    (by omega)
  rcases LaneTables.spent_iff.1 spent with tomb | covered
  · have tombed : s.tables.isTombstoned vars.lane ref vars.claimSeq = true := by
      rw [LaneTables.isTombstoned_iff, ← headLane, ← headSeq, ← headRef]
      exact tomb
    rw [clear] at tombed
    cases tombed
  · rwa [headLane, headSeq, headRef] at covered

theorem mem_window {row : ReadyRow α} (mem : row ∈ tables.window lane ref claimSeq limit) :
    row ∈ tables.ready ∧ row.lane = lane ∧ row.ref = ref ∧ claimSeq ≤ row.laneSeq := by
  simpa [LaneTables.rowsFrom] using mem_of_mem_select mem

theorem RowsOk.window_strict (rows : RowsOk slots s) (lane : Lane) (claimSeq : Nat) :
    (s.tables.window lane ref claimSeq limit).Pairwise fun a b => a.laneSeq < b.laneSeq := by
  refine select_strict ?_
  refine (rows.distinct.filter _).imp_of_mem fun aMember bMember apart => apart ?_
  have a := (mem_filter.1 aMember).2
  have b := (mem_filter.1 bMember).2
  simp only [decide_eq_true_eq] at a b
  exact a.1.trans b.1.symm

/-- The spent-prefix fold passes a gapless run of spent rows from the cursor on. -/
theorem spentPrefix_spent (rows : RowsOk slots s) (claims : ClaimsOk s) (ok : ClaimerOk s t c)
    (current : c.frame.queue = some vars.lane.queue) (behind : vars.claimSeq ≤ s.claimSeq vars.lane)
    (found : (s.view c).spentPrefixNext vars.lane ref vars.claimSeq limit = some next) :
    SpentBelow s vars.lane next ∧ next ≤ s.floor vars.lane := by
  unfold LaneTables.spentPrefixNext at found
  set spent := ((s.view c).window vars.lane ref vars.claimSeq limit).filter (s.view c).attemptSpent
  obtain ⟨last, lastFound, rfl⟩ := Option.map_eq_some_iff.1 found
  obtain ⟨⟨row, k⟩, entryMember, rfl⟩ := mem_map.1 (max?_mem lastFound)
  obtain ⟨entry, atPosition⟩ := mem_filter.1 entryMember
  obtain ⟨bound, here⟩ := mem_zipIdx' entry
  have spentRow : ∀ other ∈ spent, other ∈ s.tables.ready ∧ other.lane = vars.lane ∧
      vars.claimSeq ≤ other.laneSeq ∧ s.tables.Spent other := by
    intro other mem
    obtain ⟨inWindow, isSpent⟩ := mem_filter.1 mem
    obtain ⟨ready, sameLane, -, after⟩ := mem_window inWindow
    exact ⟨ready, sameLane, after, (ok.view_spent (by rw [sameLane]; exact current)).1 isSpent⟩
  have strict : (spent.map ReadyRow.laneSeq).Pairwise (· < ·) :=
    pairwise_map.2 ((rows.window_strict vars.lane vars.claimSeq).filter _)
  have start : ∀ value ∈ spent.map ReadyRow.laneSeq, vars.claimSeq ≤ value := by
    intro value mem
    obtain ⟨other, otherMember, rfl⟩ := mem_map.1 mem
    exact (spentRow other otherMember).2.2.1
  have seq : row.laneSeq = vars.claimSeq + k := by simpa using atPosition
  constructor
  · intro old oldMember oldLane below
    rcases Nat.lt_or_ge old.laneSeq vars.claimSeq with before | after
    · exact claims.spent_behind behind old oldMember oldLane before
    · -- the run has a row in every position up to `row`, so one of them is `old`
      dsimp only at below
      have within : old.laneSeq - vars.claimSeq ≤ k := by omega
      have inside : old.laneSeq - vars.claimSeq < spent.length := by omega
      have position := getElem_eq_add_of_strict strict start (k := k) (by simpa using bound)
        (by rw [getElem_map, ← here]; exact seq) within
      rw [getElem_map] at position
      obtain ⟨ready, sameLane, -, isSpent⟩ := spentRow spent[old.laneSeq - vars.claimSeq]
        (getElem_mem _)
      rwa [rows.unique oldMember ready (oldLane.trans sameLane.symm) (by omega)]
  · obtain ⟨ready, sameLane, -⟩ := spentRow row (here ▸ getElem_mem _)
    rw [← sameLane]
    exact rows.below row ready

theorem claimReadySlot_eq_some {claim : ClaimedBatch α}
    (found : claimReadySlot tables lane ref claimSeq limit = some claim) :
    claim.rows = (tables.window lane ref claimSeq limit).filter
        (fun row => !tables.isTombstoned lane ref row.laneSeq) ∧
      ∃ low high, (claim.rows.map ReadyRow.laneSeq).min? = some low ∧
        (claim.rows.map ReadyRow.laneSeq).max? = some high ∧
        claim.batch = ⟨lane, ref, low, high + 1, claim.rows.map ReadyRow.laneSeq⟩ := by
  unfold claimReadySlot at found
  dsimp only at found
  split at found <;> cases found
  next low high minimum maximum => exact ⟨rfl, low, high, minimum, maximum, rfl⟩

theorem claimReadySlot_faithful {claim : ClaimedBatch α} (rows : RowsOk slots s)
    (found : claimReadySlot (s.view c) lane ref claimSeq limit = some claim) : claim.Faithful := by
  obtain ⟨rowsEq, low, high, minimum, maximum, batchEq⟩ := claimReadySlot_eq_some found
  have inWindow : ∀ row ∈ claim.rows, row.lane = lane ∧ row.ref = ref := by
    intro row mem
    rw [rowsEq] at mem
    obtain ⟨-, sameLane, sameRef, -⟩ := mem_window (mem_of_mem_filter mem)
    exact ⟨sameLane, sameRef⟩
  have bounds := min?_eq_some_iff.1 minimum
  have tops := max?_eq_some_iff.1 maximum
  refine ⟨fun row mem => ?_, fun row mem => ?_, by rw [batchEq], ?_, fun row mem => ?_, ?_⟩
  · rw [batchEq]
    exact (inWindow row mem).1
  · rw [batchEq]
    exact (inWindow row mem).2
  · obtain ⟨last, lastMember, lastSeq⟩ := mem_map.1 tops.1
    exact ⟨last, lastMember, by rw [batchEq, lastSeq]⟩
  · rw [batchEq]
    exact ⟨bounds.2 _ (mem_map_of_mem mem), Nat.lt_succ_of_le (tops.2 _ (mem_map_of_mem mem))⟩
  · rw [rowsEq]
    exact pairwise_map.2 ((rows.window_strict lane claimSeq).filter _)

/-- Between two rows of one ring position there is no row of another. -/
theorem RowsOk.ref_between (rows : RowsOk slots s) {low mid high : ReadyRow α}
    (lowMember : low ∈ s.tables.ready) (midMember : mid ∈ s.tables.ready)
    (highMember : high ∈ s.tables.ready) (lowLane : low.lane = mid.lane)
    (highLane : mid.lane = high.lane) (after : low.laneSeq ≤ mid.laneSeq)
    (before : mid.laneSeq ≤ high.laneSeq) (same : low.ref = high.ref) : mid.ref = high.ref := by
  have up := rows.ordered low lowMember mid midMember lowLane after
  have down := rows.ordered mid midMember high highMember highLane before
  have generation : mid.ref.generation = high.ref.generation := by
    rw [same] at up
    omega
  have midPlaced := rows.placed mid midMember
  have highPlaced := rows.placed high highMember
  simp only [Placed] at midPlaced highPlaced
  cases midRef : mid.ref
  cases highRef : high.ref
  simp_all

/-- The claim takes the rows from the head on: none was ever emitted, and every committed row
up to one of them is spent or taken with it. -/
theorem claimReadySlot_pending {claim : ClaimedBatch α} (rows : RowsOk slots s)
    (claims : ClaimsOk s) (atHead : AtHead s t vars ref)
    (fresh : ∀ claim ∈ s.history, ∀ row ∈ claim.rows, row.lane = vars.lane →
    row.laneSeq < vars.claimSeq)
    (found : claimReadySlot (s.view c) vars.lane ref vars.claimSeq limit = some claim) :
    PendingClaim s t claim ∧ claim.batch.lane = vars.lane := by
  have faithful := claimReadySlot_faithful rows found
  obtain ⟨rowsEq, low, high, -, -, batchEq⟩ := claimReadySlot_eq_some found
  have laneEq : claim.batch.lane = vars.lane := by rw [batchEq]
  have taken : ∀ row ∈ claim.rows, row ∈ s.tables.window vars.lane ref vars.claimSeq limit := by
    intro row mem
    rw [rowsEq] at mem
    exact mem_of_mem_filter mem
  refine ⟨⟨faithful, laneEq ▸ atHead.locked, fun row mem => ?_, ?_, ?_⟩, laneEq⟩
  · exact rows.below row (mem_window (taken row mem)).1
  · intro earlier earlierMember sameLane before beforeMember after afterMember
    have earlierLane := (claims.faithful earlier earlierMember).lane before beforeMember
    have below := fresh earlier earlierMember before beforeMember
      (by rw [earlierLane, sameLane, laneEq])
    exact below.trans_le (mem_window (taken after afterMember)).2.2.2
  · intro row mem old oldMember sameLane le
    obtain ⟨rowReady, rowLane, rowRef, rowAfter⟩ := mem_window (taken row mem)
    rcases Nat.lt_or_ge old.laneSeq vars.claimSeq with before | after
    · exact .inl (claims.spent_behind atHead.behind old oldMember (sameLane.trans rowLane) before)
    · obtain ⟨head, headMember, headLane, headSeq, headRef⟩ := atHead.head
      have oldRef : old.ref = ref := (rows.ref_between headMember oldMember rowReady
        (by rw [headLane, sameLane, rowLane]) sameLane (by omega) le
          (headRef.trans rowRef.symm)).trans rowRef
      have inRows : old ∈ s.tables.rowsFrom vars.lane ref vars.claimSeq := by
        simp [LaneTables.rowsFrom, oldMember, sameLane, rowLane, oldRef, after]
      have inWindow : old ∈ s.tables.window vars.lane ref vars.claimSeq limit := by
        rcases Nat.lt_or_eq_of_le le with below | same
        · exact mem_select_of_lt (taken row mem) inRows below
        · rw [rows.unique oldMember rowReady sameLane same]
          exact taken row mem
      cases tombed : s.tables.isTombstoned vars.lane ref old.laneSeq with
      | true =>
        refine .inl (LaneTables.spent_iff.2 (.inl ?_))
        have key : old.key = ⟨vars.lane, old.laneSeq, ref⟩ := by
          simp only [ReadyRow.key, sameLane, rowLane, oldRef]
        rw [key]
        exact LaneTables.isTombstoned_iff.1 tombed
      | false =>
        right
        rw [rowsEq]
        exact mem_filter.2 ⟨inWindow, by rw [Bool.not_eq_true']; exact tombed⟩

theorem LaneInv.claim (inv : LaneInv slots s) (running : s.tx t = some (.claimer c))
    (started : c.frame ≠ .returned) (current : c.frame.queue = some vars.lane.queue)
    (atHead : AtHead s t vars ref) (fresh : ∀ claim ∈ s.history, ∀ row ∈ claim.rows, row.lane =
    vars.lane → row.laneSeq < vars.claimSeq) : LaneInv slots (s.setTx t (.claimer { c with
      frame := .returned
      claimed := c.claimed ++ (claimReadySlot (s.view c) vars.lane ref vars.claimSeq limit).toList
        })) := by
  have ok := inv.claimers t c running
  set claimed := c.claimed ++ (claimReadySlot (s.view c) vars.lane ref vars.claimSeq limit).toList
  have quiet : Quiet s (s.setTx t (.claimer { c with frame := .returned, claimed })) :=
    ⟨rfl, rfl, rfl, rfl, rfl, rfl⟩
  have rely : ClaimRely t s (s.setTx t (.claimer { c with frame := .returned, claimed })) :=
    quiet.rely inv.claims (fun _ => Nat.le_refl _) (fun _ held => held) (fun _ mem => mem)
  have new : ∀ claim ∈ (claimReadySlot (s.view c) vars.lane ref vars.claimSeq limit).toList,
      PendingClaim s t claim ∧ claim.batch.lane = vars.lane := fun claim mem =>
    claimReadySlot_pending inv.rows inv.claims atHead fresh (by simpa using mem)
  refine inv.local_step _ (List.Subset.refl _) (fun _ same => by cases same) (fun c' same => ?_)
  cases same
  refine {
    frame := trivial, pending := fun claim mem => ?_, stripes := ok.stripes
    running := by simp [ClaimFrame.queue], visited := fun claim mem => ⟨?_,
      by simp [ClaimFrame.queue]⟩
    lanes := pairwise_append.2 ⟨ok.lanes, ?_, fun old oldMember claim mem sameLane => ?_⟩
    reading := .inl (ok.reading.resolve_right fun idle => started idle.1) }
  · rcases mem_append.1 mem with old | fresh_
    · exact (ok.pending claim old).stable rely
    · exact (new claim fresh_).1.stable rely
  · rcases mem_append.1 mem with old | fresh_
    · exact (ok.visited claim old).1
    · rw [(new claim fresh_).2]
      exact ok.running _ current
  · cases claimReadySlot (s.view c) vars.lane ref vars.claimSeq limit <;> simp
  · have apart := (ok.visited old oldMember).2 _ current
    rw [sameLane, (new claim mem).2] at apart
    exact apart rfl

end Statements

end AwaQueue
