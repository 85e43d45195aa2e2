import AwaQueue.Lane.Invariant

/-! The segments an insert call writes cover exactly the rows it inserts, and the
post-commit advances keep to what their transaction did. -/

namespace AwaQueue

open List Library
variable {α : Type} {rows : List (ReadyRow α)} {segments : List ReadySegment}
    {advance : ClaimCursorAdvance}

/-- What `extend` promises for the rows it has passed (`seen`) and those to come. -/
structure ExtendSpec (ref : RingRef) (first last : ReadyRow α) (seen rows : List (ReadyRow α))
    (segments : List ReadySegment) : Prop where
  shape : ∀ segment ∈ segments, segment.ref = ref ∧ segment.firstLaneSeq < segment.nextLaneSeq
  filled : ∀ segment ∈ segments, ∀ n, segment.firstLaneSeq ≤ n → n < segment.nextLaneSeq →
    ∃ row ∈ seen ++ rows, row.lane = segment.lane ∧ row.laneSeq = n
  covered : ∀ row ∈ rows, ∃ segment ∈ segments, segment.lane = row.lane ∧
    segment.firstLaneSeq ≤ row.laneSeq ∧ row.laneSeq < segment.nextLaneSeq
  opened : ∃ segment ∈ segments, segment.lane = first.lane ∧ segment.firstLaneSeq = first.laneSeq ∧
    last.laneSeq < segment.nextLaneSeq

theorem extend_spec (ref : RingRef) (rows : List (ReadyRow α)) (first last : ReadyRow α)
    (seen : List (ReadyRow α)) (le : first.laneSeq ≤ last.laneSeq)
    (sameLane : first.lane = last.lane) (run : ∀ n, first.laneSeq ≤ n → n ≤ last.laneSeq →
    ∃ row ∈ seen, row.lane = first.lane ∧ row.laneSeq = n) :
    ExtendSpec ref first last seen rows (readySegmentsFromRows.extend ref first last rows) := by
  induction rows generalizing first last seen with
  | nil =>
    simp only [readySegmentsFromRows.extend]
    refine ⟨by simp; omega, ?_, by simp, ⟨_, mem_singleton_self _, rfl, rfl, Nat.lt_succ_self _⟩⟩
    intro segment mem n low high
    obtain rfl := mem_singleton.1 mem
    obtain ⟨row, rowMember, rowLane, rowSeq⟩ := run n low (Nat.le_of_lt_succ high)
    exact ⟨row, by simpa using rowMember, rowLane, rowSeq⟩
  | cons row rows ih =>
    simp only [readySegmentsFromRows.extend]
    have reassoc : seen ++ row :: rows = (seen ++ [row]) ++ rows := by simp
    split
    · -- the row starts a segment of its own
      have tail := ih row row (seen ++ [row]) (Nat.le_refl _) rfl (by
        intro n low high
        exact ⟨row, by simp, rfl, by omega⟩)
      refine ⟨?_, ?_, ?_, ⟨_, mem_cons_self, rfl, rfl, Nat.lt_succ_self _⟩⟩
      · intro segment mem
        rcases mem_cons.1 mem with rfl | later
        · exact ⟨rfl, Nat.lt_succ_of_le le⟩
        · exact tail.shape segment later
      · intro segment mem n low high
        rcases mem_cons.1 mem with rfl | later
        · obtain ⟨old, oldMember, oldLane, oldSeq⟩ := run n low (Nat.le_of_lt_succ high)
          exact ⟨old, mem_append_left _ oldMember, oldLane, oldSeq⟩
        · rw [reassoc]
          exact tail.filled segment later n low high
      · intro other mem
        rcases mem_cons.1 mem with rfl | later
        · obtain ⟨segment, segmentMember, segmentLane, low, high⟩ := tail.opened
          exact ⟨segment, mem_cons_of_mem _ segmentMember, segmentLane, low.le, high⟩
        · obtain ⟨segment, segmentMember, rest⟩ := tail.covered other later
          exact ⟨segment, mem_cons_of_mem _ segmentMember, rest⟩
    · next joined =>
      obtain ⟨laneEq, seqEq, -⟩ : last.lane = row.lane ∧ last.laneSeq + 1 = row.laneSeq ∧
          last.runAt = row.runAt := by simpa [not_or] using joined
      have tail := ih first row (seen ++ [row]) (by omega) (sameLane.trans laneEq) (by
        intro n low high
        rcases Nat.lt_or_ge last.laneSeq n with above | below
        · exact ⟨row, by simp, (sameLane.trans laneEq).symm, by omega⟩
        · obtain ⟨old, oldMember, rest⟩ := run n low below
          exact ⟨old, mem_append_left _ oldMember, rest⟩)
      obtain ⟨open_, openMember, openLane, openFirst, openNext⟩ := tail.opened
      refine ⟨tail.shape, by rw [reassoc]; exact tail.filled, ?_,
        ⟨open_, openMember, openLane, openFirst, by omega⟩⟩
      intro other mem
      rcases mem_cons.1 mem with rfl | later
      · exact ⟨open_, openMember, by rw [openLane, sameLane, laneEq], by omega, openNext⟩
      · exact tail.covered other later

theorem readySegmentsFromRows_cover (ref : RingRef) (rows : List (ReadyRow α))
    (stamped : ∀ row ∈ rows, row.ref = ref) :
    SegmentsCover rows (readySegmentsFromRows ref rows) := by
  cases rows with
  | nil => exact ⟨by simp [readySegmentsFromRows], by simp [readySegmentsFromRows], by simp⟩
  | cons row rows =>
    have spec := extend_spec ref rows row row [row] (Nat.le_refl _) rfl (by
      intro n low high
      exact ⟨row, by simp, rfl, by omega⟩)
    refine ⟨fun segment mem => (spec.shape segment mem).2, ?_, ?_⟩
    · intro segment mem n low high
      obtain ⟨found, foundMember, foundLane, foundSeq⟩ := spec.filled segment mem n low high
      exact ⟨found, foundMember, foundLane, foundSeq,
        (stamped found foundMember).trans (spec.shape segment mem).1.symm⟩
    · intro other mem
      have position :
          ∃ segment ∈ readySegmentsFromRows ref (row :: rows), segment.lane = other.lane ∧
          segment.firstLaneSeq ≤ other.laneSeq ∧ other.laneSeq < segment.nextLaneSeq := by
        rcases mem_cons.1 mem with rfl | later
        · obtain ⟨segment, segmentMember, segmentLane, low, high⟩ := spec.opened
          exact ⟨segment, segmentMember, segmentLane, low.le, high⟩
        · exact spec.covered other later
      obtain ⟨segment, segmentMember, segmentLane, bounds⟩ := position
      exact ⟨segment, segmentMember, segmentLane,
        (spec.shape segment segmentMember).1.trans (stamped other mem).symm, bounds⟩

theorem SegmentsCover.append {rows' : List (ReadyRow α)} {segments' : List ReadySegment}
    (left : SegmentsCover rows segments) (right : SegmentsCover rows' segments') :
    SegmentsCover (rows ++ rows') (segments ++ segments') where
  nonempty segment mem := (mem_append.1 mem).elim (left.nonempty segment) (right.nonempty segment)
  filled segment mem n low high := by
    rcases mem_append.1 mem with old | new
    · obtain ⟨row, rowMember, rest⟩ := left.filled segment old n low high
      exact ⟨row, mem_append_left _ rowMember, rest⟩
    · obtain ⟨row, rowMember, rest⟩ := right.filled segment new n low high
      exact ⟨row, mem_append_right _ rowMember, rest⟩
  covered row mem := by
    rcases mem_append.1 mem with old | new
    · obtain ⟨segment, segmentMember, rest⟩ := left.covered row old
      exact ⟨segment, mem_append_left _ segmentMember, rest⟩
    · obtain ⟨segment, segmentMember, rest⟩ := right.covered row new
      exact ⟨segment, mem_append_right _ segmentMember, rest⟩

theorem SegmentsCover.truncate (cover : SegmentsCover rows segments) (slot : Nat) :
    SegmentsCover (rows.filter fun row => row.ref.slot ≠ slot)
      (segments.filter fun segment => segment.ref.slot ≠ slot) where
  nonempty segment mem := cover.nonempty segment (mem_of_mem_filter mem)
  filled segment mem n low high := by
    obtain ⟨segmentMember, kept⟩ := mem_filter.1 mem
    obtain ⟨row, rowMember, rowLane, rowSeq, rowRef⟩ :=
      cover.filled segment segmentMember n low high
    exact ⟨row, mem_filter.2 ⟨rowMember, by simpa [rowRef] using kept⟩, rowLane, rowSeq, rowRef⟩
  covered row mem := by
    obtain ⟨rowMember, kept⟩ := mem_filter.1 mem
    obtain ⟨segment, segmentMember, segmentLane, segmentRef, bounds⟩ := cover.covered row rowMember
    exact ⟨segment, mem_filter.2 ⟨segmentMember, by simpa [segmentRef] using kept⟩,
      segmentLane, segmentRef, bounds⟩

theorem mem_stageRows {lane : Lane} {start : Nat} {jobs : List (Nat × α)} {row : StagedRow α}
    (mem : row ∈ stageRows lane start jobs) :
    row.lane = lane ∧ start ≤ row.laneSeq ∧ row.laneSeq < start + jobs.length := by
  obtain ⟨entry, entryMember, rfl⟩ := mem_map.1 mem
  have bound := snd_lt_of_mem_zipIdx entryMember
  exact ⟨rfl, Nat.le_add_right _ _, by simpa using bound⟩

theorem stageRows_keys (lane : Lane) (start : Nat) (jobs : List (Nat × α)) :
    (stageRows lane start jobs).map StagedRow.slotKey = (range' start jobs.length).map
      (Prod.mk lane) := by
  have positions : (stageRows lane start jobs).map StagedRow.slotKey =
      ((jobs.zipIdx.map Prod.snd).map (start + ·)).map (Prod.mk lane) := by
    simp only [stageRows, map_map]
    rfl
  rw [positions, zipIdx_map_snd, map_add_range', Nat.add_zero]

theorem stageRows_nodup (lane : Lane) (start : Nat) (jobs : List (Nat × α)) :
    ((stageRows lane start jobs).map StagedRow.slotKey).Nodup := by
  rw [stageRows_keys]
  exact List.Nodup.map (Prod.mk_right_injective lane) nodup_range'

theorem mem_claimCursorAdvances
    (mem : advance ∈ claimCursorAdvances rows) :
    ∃ row ∈ rows, advance = advanceOfClaim row.key := by
  obtain ⟨lane, -, found⟩ := mem_filterMap.1 mem
  obtain ⟨last, lastFound, rfl⟩ := Option.map_eq_some_iff.1 found
  have lastMember := mem_orderBy.1 (mem_of_getLast? lastFound)
  exact ⟨last, mem_of_mem_filter lastMember, rfl⟩

/-- Normalizing keeps target and condition of an advance that was asked for; an unconditional
one keeps its evidence. -/
theorem mem_normalizeClaimCursorAdvances {advances : List ClaimCursorAdvance}
    (mem : advance ∈ normalizeClaimCursorAdvances advances) :
    ∃ asked ∈ advances, asked.lane = advance.lane ∧ asked.nextSeq = advance.nextSeq ∧
      asked.onlyIfCurrent = advance.onlyIfCurrent ∧
      (advance.onlyIfCurrent = none → asked.evidence = advance.evidence) := by
  obtain ⟨lane, -, chosen⟩ := mem_flatMap.1 mem
  dsimp only at chosen
  split at chosen
  · next farthest found =>
    obtain rfl := mem_singleton.1 chosen
    have reversed := mem_orderBy.1 (mem_of_getLast? found)
    have kept := mem_filter.1 (mem_reverse.1 reversed)
    exact ⟨advance, mem_of_mem_filter kept.1, rfl, rfl, rfl, fun _ => rfl⟩
  · obtain ⟨current, -, some_⟩ := mem_filterMap.1 chosen
    obtain ⟨nextSeq, found, rfl⟩ := Option.map_eq_some_iff.1 some_
    obtain ⟨asked, askedMember, same⟩ := mem_map.1 (max?_mem found)
    obtain ⟨ofLane, condition⟩ := mem_filter.1 askedMember
    obtain ⟨asked_, sameLane⟩ := mem_filter.1 ofLane
    exact ⟨asked, asked_, by simpa using sameLane, same, by simpa using condition, by simp⟩

end AwaQueue
