import AwaQueue.Lane.Writers
import Mathlib.Data.List.Pairwise

/-! Tombstones, the end of a transaction, cursor advances, rotation and truncation keep
the lane invariant. -/

namespace AwaQueue

open List Library
variable {α : Type} {slots : Nat} {s s' : LaneState α} {t : TxId} {lane : Lane}
    {lock : LaneLock} {next : Nat}

theorem RowsOk.unique (rows : RowsOk slots s) {a b : ReadyRow α} (aMember : a ∈ s.tables.ready)
    (bMember : b ∈ s.tables.ready) (sameLane : a.lane = b.lane) (sameSeq : a.laneSeq = b.laneSeq) :
    a = b := by
  have symmetric : Std.Symm fun a b : ReadyRow α => a.lane = b.lane → a.laneSeq ≠ b.laneSeq :=
    ⟨fun _ _ apart same => (apart same.symm).symm⟩
  by_contra different
  exact rows.distinct.forall aMember bMember different sameLane sameSeq

theorem LaneInv.tombstone {w : Writer α} {row : ReadyTombstone} (inv : LaneInv slots s)
    (running : s.tx t = some (.writer w)) (committed : row ∈ s.tables.ready.map ReadyRow.key)
    (cancel : Bool) :
    LaneInv slots ({ s with childLocks := (t, some row.ref.slot) :: s.childLocks }.setTx t
      (.writer { w with
        tombstones := w.tombstones ++ [row]
        advances := w.advances ++ if cancel then [advanceOfCancel row] else [] })) := by
  have ok := inv.writers t w running
  refine inv.local_step _ (subset_cons_self _ _) (fun w' same => ?_) (fun _ same => by cases same)
  cases same
  refine WriterOk.quiet (s := s) ?_ ⟨rfl, rfl, rfl, rfl, rfl, rfl⟩
  obtain ⟨target, targetMember, rfl⟩ := mem_map.1 committed
  refine { ok with ref := fun ref mem => { ok.ref ref mem with }, tombstones := ?_, advances := ?_ }
  · intro tomb mem
    rcases mem_append.1 mem with old | new
    · exact ok.tombstones tomb old
    · obtain rfl := mem_singleton.1 new
      refine ⟨inv.rows.below target targetMember, fun other otherMember sameLane sameSeq => ?_⟩
      rw [inv.rows.unique otherMember targetMember sameLane sameSeq]
      rfl
  · intro advance mem
    rcases mem_append.1 mem with old | new
    · obtain ⟨tomb, tombMember, same⟩ := ok.advances advance old
      exact ⟨tomb, mem_append_left _ tombMember, same⟩
    · cases cancel with
      | false => simp at new
      | true => exact ⟨target.key, mem_append_right _ (mem_singleton_self _), by simpa using new⟩

theorem release_laneLock :
    (s.release t).laneLock lane = some lock ↔ s.laneLock lane = some lock ∧ lock.holder ≠ t := by
  simp [LaneState.release, Option.filter_eq_some_iff]

theorem release_claimLock {holder : TxId} :
    (s.release t).claimLock lane = some holder ↔ s.claimLock lane = some holder ∧ holder ≠ t := by
  simp [LaneState.release, Option.filter_eq_some_iff]

theorem release_floor_of_held (held : s.laneLock lane = some lock)
    (mine : lock.holder = t) : (s.release t).floor lane = s.nextSeq lane := by
  simp [LaneState.floor, LaneState.release, held, mine, Option.filter_some]

theorem floor_of_held (held : s.laneLock lane = some lock) : s.floor lane = lock.base := by
  simp [LaneState.floor, held]

section
variable (rows : RowsOk slots s)
include rows

theorem floor_le_release (lane : Lane) : s.floor lane ≤ (s.release t).floor lane := by
  cases held : s.laneLock lane with
  | none => simp [LaneState.floor, LaneState.release, held]
  | some lock =>
    by_cases mine : lock.holder = t
    · rw [release_floor_of_held held mine, floor_of_held held]
      exact rows.locks lane lock held
    · rw [floor_of_held held, floor_of_held (release_laneLock.2 ⟨held, mine⟩)]

theorem release_growth : Growth s (s.release t) where
  floor := floor_le_release rows
  ring := Nat.le_refl _
  appear _ mem := .inl mem

theorem release_rows : RowsOk slots (s.release t) where
  __ := rows
  below row mem := (rows.below row mem).trans_le (floor_le_release rows _)
  locks lane lock held := rows.locks lane lock (release_laneLock.1 held).1

theorem release_claims (claims : ClaimsOk s) : ClaimsOk (s.release t) where
  __ := claims
  cursorFloor lane := (claims.cursorFloor lane).trans (floor_le_release rows lane)
  below claim mem row rowMember := (claims.below claim mem row rowMember).trans_le
    (floor_le_release rows _)
  advances advance mem := (claims.advances advance mem).stable (release_growth rows)
    ⟨List.Subset.refl _, List.Subset.refl _⟩

theorem release_rely {u : TxId} (claims : ClaimsOk s) (other : u ≠ t) :
    ClaimRely u s (s.release t) where
  toGrowth := release_growth rows
  locks _ _ held mine := ⟨release_laneLock.2 ⟨held, mine ▸ other⟩, rfl⟩
  heldRows _ mem _ _ _ := mem
  evidence := ⟨List.Subset.refl _, List.Subset.refl _⟩
  ready := List.Subset.refl _
  segments := List.Subset.refl _
  cursor _ := Nat.le_refl _
  claimLocks _ held := release_claimLock.2 ⟨held, other⟩
  history _ mem := .inl mem
  faithful := claims.faithful
  childLocks slot mem := mem_filter.2 ⟨mem, by simpa using other⟩

end

theorem LaneInv.of_end (inv : LaneInv slots s) (ended : s'.tx = (s.release t).tx)
    (rely : ∀ u, u ≠ t → ClaimRely u s s') (rows : RowsOk slots s') (claims : ClaimsOk s') :
    LaneInv slots s' := by
  have gone : s'.tx t = none := by
    rw [ended]
    exact Function.update_self ..
  refine inv.of_step (t := t) (fun u other => ?_) rely rows claims
    (fun w running => by simp [gone] at running) (fun c running => by simp [gone] at running)
  rw [ended]
  exact Function.update_of_ne other _ _

theorem LaneInv.abort (inv : LaneInv slots s) : LaneInv slots (s.release t) :=
  inv.of_end (t := t) rfl (fun _ other => release_rely inv.rows inv.claims other)
    (release_rows inv.rows) (release_claims inv.rows inv.claims)

theorem normalized_ok {advances : List ClaimCursorAdvance}
    (ok : ∀ advance ∈ advances, AdvanceOk s advance)
    {advance : ClaimCursorAdvance} (mem : advance ∈ normalizeClaimCursorAdvances advances) :
    AdvanceOk s advance := by
  obtain ⟨asked, askedMember, sameLane, sameNext, sameCondition, sameEvidence⟩ :=
    mem_normalizeClaimCursorAdvances mem
  have known := ok asked askedMember
  refine ⟨fun unconditional => ?_, fun current conditional => ?_⟩
  · rw [← sameEvidence unconditional, ← sameNext]
    exact known.evidence (sameCondition.trans unconditional)
  · rw [← sameLane, ← sameNext]
    exact known.conditional current (by rw [sameCondition]; exact conditional)

section CommitWriter
variable {w : Writer α}

theorem WriterOk.key_held (ok : WriterOk slots s t w) {row : ReadyRow α} (mem : row ∈ w.rows) :
    ∃ lock, s.laneLock row.lane = some lock ∧ lock.holder = t ∧ s.floor row.lane ≤ row.laneSeq ∧
      row.laneSeq < s.nextSeq row.lane := by
  obtain ⟨lock, held, mine, low, high⟩ :=
    ok.held row.slotKey (mem_append_left _ (mem_map_of_mem mem))
  exact ⟨lock, held, mine, (floor_of_held held).trans_le low, high⟩

theorem commitWriter_floor (rows : RowsOk slots s) (lane : Lane) :
    s.floor lane ≤ (commitWriter s t w).floor lane :=
  floor_le_release rows lane

theorem commitWriter_growth (rows : RowsOk slots s) (ok : WriterOk slots s t w) :
    Growth s (commitWriter s t w) where
  floor := commitWriter_floor rows
  ring := Nat.le_refl _
  appear row mem := by
    rcases mem_append.1 mem with old | new
    · exact .inl old
    · obtain ⟨_, -, -, low, -⟩ := ok.key_held new
      exact .inr low

theorem commitWriter_evidence : EvidenceGrows s.tables (commitWriter s t w).tables :=
  ⟨subset_append_left _ _, List.Subset.refl _⟩

theorem commitWriter_rows (rows : RowsOk slots s) (ok : WriterOk slots s t w) :
    RowsOk slots (commitWriter s t w) where
  below row mem := by
    rcases mem_append.1 mem with old | new
    · exact (rows.below row old).trans_le (commitWriter_floor rows _)
    · obtain ⟨lock, held, mine, -, high⟩ := ok.key_held new
      exact high.trans_eq (release_floor_of_held held mine).symm
  distinct := by
    refine pairwise_append.2 ⟨rows.distinct, ?_, fun old oldMember new newMember sameLane => ?_⟩
    · have keys : (w.rows.map ReadyRow.slotKey).Nodup := (nodup_append.1 ok.distinct).1
      exact (pairwise_map.1 keys).imp fun apart sameLane sameSeq =>
        apart (Prod.ext sameLane sameSeq)
    · obtain ⟨_, -, -, low, -⟩ := ok.key_held newMember
      have below := rows.below old oldMember
      rw [sameLane] at below
      omega
  ordered low lowMember high highMember sameLane le := by
    rcases mem_append.1 lowMember with oldLow | newLow <;>
      rcases mem_append.1 highMember with oldHigh | newHigh
    · exact rows.ordered low oldLow high oldHigh sameLane le
    · exact ok.after high newHigh low oldLow sameLane
    · obtain ⟨_, -, -, above, -⟩ := ok.key_held newLow
      have below := rows.below high oldHigh
      rw [← sameLane] at below
      omega
    · exact ok.ordered low newLow high newHigh sameLane le
  current row mem := (mem_append.1 mem).elim (rows.current row) (ok.current row)
  placed row mem := (mem_append.1 mem).elim (rows.placed row) (ok.placed row)
  ring := rows.ring
  cover := rows.cover.append ok.cover
  locks lane lock held := rows.locks lane lock (release_laneLock.1 held).1

/-- A cancelled row is tombstoned once its transaction commits, so its advance is safe. -/
theorem commitWriter_cancel (rows : RowsOk slots s) (ok : WriterOk slots s t w)
    {tomb : ReadyTombstone}
    (mem : tomb ∈ w.tombstones) : AdvanceOk (commitWriter s t w) (advanceOfCancel tomb) where
  evidence absent := by simp [advanceOfCancel] at absent
  conditional current same := by
    obtain rfl : tomb.laneSeq = current := by simpa [advanceOfCancel] using same
    obtain ⟨below, matching⟩ := ok.tombstones tomb mem
    refine ⟨rfl, below.trans_le (commitWriter_floor rows _),
      fun row rowMember sameLane sameSeq => ?_⟩
    simp only [advanceOfCancel] at sameLane
    have old := (commitWriter_growth rows ok).old_of_lt rowMember
      (by rw [sameLane, sameSeq]; exact below)
    have key : row.key = tomb := by
      simp only [ReadyRow.key, sameLane, sameSeq, matching row old sameLane sameSeq]
    exact LaneTables.spent_iff.2 (.inl (mem_append_right _ (key ▸ mem)))

theorem commitWriter_claims (rows : RowsOk slots s) (claims : ClaimsOk s)
    (ok : WriterOk slots s t w) : ClaimsOk (commitWriter s t w) where
  __ := claims
  cursor lane := (claims.cursor lane).stable (commitWriter_growth rows ok) commitWriter_evidence
    (claims.cursorFloor lane)
  cursorFloor lane := (claims.cursorFloor lane).trans (commitWriter_floor rows lane)
  closed claim mem row rowMember := (claims.closed claim mem row rowMember).stable
    (commitWriter_growth rows ok) commitWriter_evidence (claims.below claim mem row rowMember)
  below claim mem row rowMember :=
    (claims.below claim mem row rowMember).trans_le (commitWriter_floor rows _)
  advances advance mem := by
    rcases mem_append.1 mem with old | new
    · exact (claims.advances advance old).stable (commitWriter_growth rows ok) commitWriter_evidence
    · refine normalized_ok (fun asked askedMember => ?_) new
      obtain ⟨tomb, tombMember, rfl⟩ := ok.advances asked askedMember
      exact commitWriter_cancel rows ok tombMember

theorem commitWriter_rely {u : TxId} (rows : RowsOk slots s) (claims : ClaimsOk s)
    (ok : WriterOk slots s t w) (other : u ≠ t) : ClaimRely u s (commitWriter s t w) where
  toGrowth := commitWriter_growth rows ok
  locks _ _ held mine := ⟨release_laneLock.2 ⟨held, mine ▸ other⟩, rfl⟩
  heldRows row mem lock held mine := by
    rcases mem_append.1 mem with old | new
    · exact old
    · obtain ⟨own, ownHeld, ownMine, -⟩ := ok.key_held new
      obtain rfl := Option.some.inj (ownHeld.symm.trans held)
      exact absurd (mine.symm.trans ownMine) other
  evidence := commitWriter_evidence
  ready := subset_append_left _ _
  segments := subset_append_left _ _
  cursor _ := Nat.le_refl _
  claimLocks _ held := release_claimLock.2 ⟨held, other⟩
  history _ mem := .inl mem
  faithful := claims.faithful
  childLocks slot mem := mem_filter.2 ⟨mem, by simpa using other⟩

theorem LaneInv.commitWriter (inv : LaneInv slots s) (running : s.tx t = some (.writer w)) :
    LaneInv slots (commitWriter s t w) :=
  have ok := inv.writers t w running
  inv.of_end (t := t) rfl (fun _ other => commitWriter_rely inv.rows inv.claims ok other)
    (commitWriter_rows inv.rows ok) (commitWriter_claims inv.rows inv.claims ok)

end CommitWriter

section CommitClaimer
variable {c : Claimer α} {claim : ClaimedBatch α} {row : ReadyRow α}

theorem commitClaimer_growth (rows : RowsOk slots s) : Growth s (commitClaimer s t c) where
  floor := floor_le_release rows
  ring := Nat.le_refl _
  appear _ mem := .inl mem

theorem commitClaimer_evidence : EvidenceGrows s.tables (commitClaimer s t c).tables :=
  ⟨List.Subset.refl _, subset_append_left _ _⟩

theorem ClaimedBatch.Faithful.covers {tables : LaneTables α} (faithful : claim.Faithful)
    (recorded : claim.batch ∈ tables.attempts) (mem : row ∈ claim.rows) :
    tables.attemptCovers row.lane row.ref row.laneSeq = true := by
  refine LaneTables.attemptCovers_iff.2 ⟨claim.batch, recorded, (faithful.lane row mem).symm,
    (faithful.ref row mem).symm, (faithful.bounds row mem).1, (faithful.bounds row mem).2, ?_⟩
  rw [faithful.ranges]
  exact mem_map_of_mem mem

theorem commitClaimer_closed (ok : ClaimerOk s t c) (mem : claim ∈ c.claimed)
    (rowMember : row ∈ claim.rows) :
    SpentBelow (commitClaimer s t c) row.lane (row.laneSeq + 1) := by
  intro old oldMember sameLane below
  have pending := ok.pending claim mem
  rcases pending.closed row rowMember old oldMember sameLane (Nat.le_of_lt_succ below) with
    spent | claimed
  · exact commitClaimer_evidence.spent spent
  · have recorded : claim.batch ∈ (commitClaimer s t c).tables.attempts :=
      mem_append_right _ (mem_map_of_mem mem)
    exact LaneTables.spent_iff.2 (.inr (pending.faithful.covers recorded claimed))

theorem commitClaimer_claims (rows : RowsOk slots s) (claims : ClaimsOk s) (ok : ClaimerOk s t c) :
    ClaimsOk (commitClaimer s t c) where
  cursor lane := (claims.cursor lane).stable (commitClaimer_growth rows) commitClaimer_evidence
    (claims.cursorFloor lane)
  cursorFloor lane := (claims.cursorFloor lane).trans (floor_le_release rows lane)
  closed claim mem row rowMember := by
    rcases mem_append.1 mem with old | new
    · exact (claims.closed claim old row rowMember).stable (commitClaimer_growth rows)
        commitClaimer_evidence (claims.below claim old row rowMember)
    · exact commitClaimer_closed ok new rowMember
  below claim mem row rowMember := by
    rcases mem_append.1 mem with old | new
    · exact (claims.below claim old row rowMember).trans_le (floor_le_release rows _)
    · exact ((ok.pending claim new).below row rowMember).trans_le (floor_le_release rows _)
  faithful claim mem := (mem_append.1 mem).elim (claims.faithful claim)
    (fun new => (ok.pending claim new).faithful)
  recorded batch mem := by
    rcases mem_append.1 mem with old | new
    · obtain ⟨claim, claimMember, same⟩ := claims.recorded batch old
      exact ⟨claim, mem_append_left _ claimMember, same⟩
    · obtain ⟨claim, claimMember, same⟩ := mem_map.1 new
      exact ⟨claim, mem_append_right _ claimMember, same⟩
  ordered := by
    refine pairwise_append.2 ⟨claims.ordered, ?_, fun earlier old later new => ?_⟩
    · exact ok.lanes.imp fun apart sameLane => absurd sameLane apart
    · exact (ok.pending later new).fresh earlier old
  advances advance mem := by
    rcases mem_append.1 mem with old | new
    · exact (claims.advances advance old).stable (commitClaimer_growth rows) commitClaimer_evidence
    · refine normalized_ok (fun asked askedMember => ?_) new
      obtain ⟨row, -, rfl⟩ := mem_claimCursorAdvances askedMember
      exact ⟨fun _ => ⟨_, rfl, rfl⟩, by simp [advanceOfClaim]⟩

theorem commitClaimer_rely {u : TxId} (rows : RowsOk slots s) (claims : ClaimsOk s)
    (ok : ClaimerOk s t c) (other : u ≠ t) : ClaimRely u s (commitClaimer s t c) where
  toGrowth := commitClaimer_growth rows
  locks _ _ held mine := ⟨release_laneLock.2 ⟨held, mine ▸ other⟩, rfl⟩
  heldRows _ mem _ _ _ := mem
  evidence := commitClaimer_evidence
  ready := List.Subset.refl _
  segments := List.Subset.refl _
  cursor _ := Nat.le_refl _
  claimLocks _ held := release_claimLock.2 ⟨held, other⟩
  history claim mem := by
    rcases mem_append.1 mem with old | new
    · exact .inl old
    · right
      rw [(ok.pending claim new).locked]
      simpa using other.symm
  faithful := (commitClaimer_claims rows claims ok).faithful
  childLocks slot mem := mem_filter.2 ⟨mem, by simpa using other⟩

theorem LaneInv.commitClaimer (inv : LaneInv slots s) (running : s.tx t = some (.claimer c)) :
    LaneInv slots (commitClaimer s t c) :=
  have ok := inv.claimers t c running
  have released := release_rows (t := t) inv.rows
  inv.of_end (t := t) rfl (fun _ other => commitClaimer_rely inv.rows inv.claims ok other)
    { released with } (commitClaimer_claims inv.rows inv.claims ok)

end CommitClaimer

theorem LaneInv.of_env (inv : LaneInv slots s) (same : s'.tx = s.tx) (rely : ∀ u, ClaimRely u s s')
    (rows : RowsOk slots s') (claims : ClaimsOk s') : LaneInv slots s' where
  rows := rows
  claims := claims
  writers u w running := (inv.writers u w (same ▸ running)).stable (rely u).toRely
  claimers u c running := (inv.claimers u c (same ▸ running)).stable inv.rows (rely u)

theorem claimSeq_le_setSequenceNext (lane other : Lane) (next : Nat) :
    s.claimSeq other ≤ (s.setSequenceNext lane next).claimSeq other := by
  by_cases same : other = lane
  · subst same
    simp [LaneState.setSequenceNext]
  · simp [LaneState.setSequenceNext, Function.update_of_ne same]

theorem ClaimsOk.cursor_move (claims : ClaimsOk s) (spent : SpentBelow s lane next)
    (low : next ≤ s.floor lane) (other : Lane) :
      SpentBelow s other ((s.setSequenceNext lane next).claimSeq other) ∧
      (s.setSequenceNext lane next).claimSeq other ≤ s.floor other := by
  by_cases same : other = lane
  · subst same
    simp only [LaneState.setSequenceNext, Function.update_self]
    rcases Nat.le_total next (s.claimSeq other) with behind | ahead
    · rw [Nat.max_eq_right behind]
      exact ⟨claims.cursor other, claims.cursorFloor other⟩
    · rw [Nat.max_eq_left ahead]
      exact ⟨spent, low⟩
  · simp only [LaneState.setSequenceNext, Function.update_of_ne same]
    exact ⟨claims.cursor other, claims.cursorFloor other⟩

theorem LaneInv.setSequenceNext (inv : LaneInv slots s) (spent : SpentBelow s lane next)
    (low : next ≤ s.floor lane) : LaneInv slots (s.setSequenceNext lane next) := by
  have quiet : Quiet s (s.setSequenceNext lane next) := ⟨rfl, rfl, rfl, rfl, rfl, rfl⟩
  exact inv.of_env rfl
    (fun _ => quiet.rely inv.claims (fun other => claimSeq_le_setSequenceNext lane other next)
      (fun _ held => held) (fun _ mem => mem))
    (quiet.rows inv.rows) (quiet.claims inv.claims (inv.claims.cursor_move spent low))

theorem ClaimsOk.spent_of_covered (claims : ClaimsOk s) {ref : RingRef} {n : Nat}
    (covered : s.tables.attemptCovers lane ref n = true) :
    SpentBelow s lane (n + 1) ∧ n + 1 ≤ s.floor lane := by
  obtain ⟨batch, mem, rfl, -, -, -, inRanges⟩ := LaneTables.attemptCovers_iff.1 covered
  obtain ⟨claim, claimMember, rfl⟩ := claims.recorded batch mem
  have faithful := claims.faithful claim claimMember
  rw [faithful.ranges] at inRanges
  obtain ⟨row, rowMember, rfl⟩ := mem_map.1 inRanges
  rw [← faithful.lane row rowMember]
  exact ⟨claims.closed claim claimMember row rowMember,
    claims.below claim claimMember row rowMember⟩

theorem LaneInv.advance (inv : LaneInv slots s) {advance : ClaimCursorAdvance}
    (ok : AdvanceOk s advance) : LaneInv slots (advanceClaimCursor advance s) := by
  unfold advanceClaimCursor
  split
  · next holds =>
    obtain ⟨atCurrent, covered⟩ := holds
    cases condition : advance.onlyIfCurrent with
    | none =>
      obtain ⟨evidence, given, next⟩ := ok.evidence condition
      have spent := inv.claims.spent_of_covered (covered evidence (by simp [given]))
      rw [next]
      exact inv.setSequenceNext spent.1 spent.2
    | some current =>
      obtain ⟨next, low, spent⟩ := ok.conditional current (by simp [condition])
      have here := atCurrent current (by simp [condition])
      rw [next]
      refine inv.setSequenceNext (fun row mem sameLane below => ?_) low
      rcases Nat.lt_or_ge row.laneSeq current with before | exact_
      · exact inv.claims.cursor advance.lane row mem sameLane (by omega)
      · exact spent row mem sameLane (by omega)
  · exact inv

theorem rotateRing_placed {ring : RingRef} (placed : Placed slots ring) :
    Placed slots (rotateRing slots ring) := by
  simp only [Placed, rotateRing] at placed ⊢
  rw [placed, Nat.mod_add_mod]

theorem LaneInv.rotate (inv : LaneInv slots s) :
    LaneInv slots { s with ring := rotateRing slots s.ring } := by
  refine inv.of_env rfl (fun u => ?_) ?_ ?_
  · exact {
      floor := fun _ => Nat.le_refl _, ring := Nat.le_succ _, appear := fun _ mem => .inl mem
      locks := fun _ _ held _ => ⟨held, rfl⟩, heldRows := fun _ mem _ _ _ => mem
      evidence := ⟨List.Subset.refl _, List.Subset.refl _⟩, ready := List.Subset.refl _
      segments := List.Subset.refl _, cursor := fun _ => Nat.le_refl _, claimLocks :=
        fun _ held => held
      history := fun _ mem => .inl mem, faithful := inv.claims.faithful
      childLocks := fun _ mem => mem }
  · exact { inv.rows with
      current := fun row mem => (inv.rows.current row mem).trans (Nat.le_succ _)
      ring := rotateRing_placed inv.rows.ring }
  · have same := inv.claims
    exact ⟨same.cursor, same.cursorFloor, same.closed, same.below, same.faithful, same.recorded,
      same.ordered, fun advance mem => ⟨(same.advances advance mem).evidence,
        (same.advances advance mem).conditional⟩⟩

section Truncate
variable {slot : Nat}

/-- A surviving row keeps its tombstone and its evidence: they live in the same slot. -/
theorem truncateSlot_spent {row : ReadyRow α} (kept : row.ref.slot ≠ slot)
    (spent : s.tables.Spent row) : (truncateSlot s slot).tables.Spent row := by
  rcases LaneTables.spent_iff.1 spent with tomb | covered
  · exact LaneTables.spent_iff.2 (.inl (mem_filter.2 ⟨tomb, decide_eq_true kept⟩))
  · obtain ⟨batch, mem, sameLane, sameRef, rest⟩ := LaneTables.attemptCovers_iff.1 covered
    refine LaneTables.spent_iff.2 (.inr (LaneTables.attemptCovers_iff.2 ⟨batch, ?_, sameLane,
      sameRef, rest⟩))
    exact mem_filter.2 ⟨mem, decide_eq_true (sameRef ▸ kept)⟩

theorem truncateSlot_spentBelow {lane : Lane} {bound : Nat} (spent : SpentBelow s lane bound) :
    SpentBelow (truncateSlot s slot) lane bound := by
  intro row mem sameLane below
  obtain ⟨before, kept⟩ := mem_filter.1 mem
  exact truncateSlot_spent (by simpa using kept) (spent row before sameLane below)

theorem truncateSlot_rows (rows : RowsOk slots s) : RowsOk slots (truncateSlot s slot) where
  __ := rows
  below row mem := rows.below row (mem_of_mem_filter mem)
  distinct := rows.distinct.filter _
  ordered low lowMember high highMember :=
    rows.ordered low (mem_of_mem_filter lowMember) high (mem_of_mem_filter highMember)
  current row mem := rows.current row (mem_of_mem_filter mem)
  placed row mem := rows.placed row (mem_of_mem_filter mem)
  cover := rows.cover.truncate slot

theorem truncateSlot_claims (claims : ClaimsOk s) : ClaimsOk (truncateSlot s slot) where
  __ := claims
  cursor lane := truncateSlot_spentBelow (claims.cursor lane)
  closed claim mem row rowMember := truncateSlot_spentBelow (claims.closed claim mem row rowMember)
  recorded batch mem := claims.recorded batch (mem_of_mem_filter mem)
  advances advance mem := {
    evidence := (claims.advances advance mem).evidence
    conditional := fun current condition => by
      obtain ⟨next, below, spent⟩ := (claims.advances advance mem).conditional current condition
      refine ⟨next, below, fun row rowMember sameLane sameSeq => ?_⟩
      obtain ⟨before, kept⟩ := mem_filter.1 rowMember
      exact truncateSlot_spent (by simpa using kept) (spent row before sameLane sameSeq) }

/-- `TRUNCATE` waits for every claim transaction that has read the ring children. -/
theorem LaneInv.truncate (inv : LaneInv slots s)
    (unlocked : s.childLocks.all fun lock => lock.2 ≠ none ∧ lock.2 ≠ some slot) :
    LaneInv slots (truncateSlot s slot) where
  rows := truncateSlot_rows inv.rows
  claims := truncateSlot_claims inv.claims
  writers u w running := (inv.writers u w running).stable {
    floor := fun _ => Nat.le_refl _
    ring := Nat.le_refl _
    appear := fun _ mem => .inl (mem_of_mem_filter mem)
    locks := fun _ _ held _ => ⟨held, rfl⟩
    heldRows := fun _ mem _ _ _ => mem_of_mem_filter mem }
  claimers u c running := by
    have ok := inv.claimers u c running
    rcases ok.reading with reads | ⟨returned, nothing⟩
    · have conflict := all_eq_true.1 unlocked _ reads
      simp at conflict
    · refine { ok with frame := ?_, pending := ?_ }
      · rw [returned]
        trivial
      · simp [nothing]

end Truncate

end AwaQueue
