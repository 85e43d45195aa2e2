import AwaQueue.Lane.Claims

/-! The lane invariant holds in every reachable state: the claim cursor passes spent rows
only, and the positions that committed claims emit in a lane increase strictly. -/

namespace AwaQueue
open Function (update)
open Library
variable {α : Type} {slots : Nat} {s s' : LaneState α} {t : TxId} {c : Claimer α} {op : LaneOp α}

section
variable (inv : LaneInv slots s)
include inv

theorem LaneInv.claimStatement (running : s.tx t = some (.claimer c))
    (step : claimStatement s t c = some s') : LaneInv slots s' := by
  have ok := inv.claimers t c running
  have known := ok.frame
  have started : c.frame ≠ .returned := fun frame => by simp [AwaQueue.claimStatement,
    frame] at step
  have goto : ∀ {frame}, FrameOk s t frame → (∀ q ∈ frame.queue, q ∈ c.frame.queue) →
      LaneInv slots (s.setTx t (.claimer { c with frame })) := inv.frame running started
  have stop : LaneInv slots (s.setTx t (.claimer { c with frame := .returned })) :=
    goto trivial (by simp [ClaimFrame.queue])
  obtain ⟨queues, frame, claimed⟩ := c
  unfold AwaQueue.claimStatement at step
  cases frame with
  | returned | probing queue maxBatch segments | routing vars target => cases step
  | unresolved vars =>
    dsimp only at step
    split at step <;> cases step
    · exact stop
    next segment found => exact goto ⟨known, inv.rows.snapshot.target inv.rows found⟩ fun _ => id
  | targeted vars ref =>
    dsimp only at step
    split at step <;> cases step
    · exact goto known fun _ => id
    next next found => exact goto ⟨known.1.1,
      ok.evidence_spent inv.claims (by simp [ClaimFrame.queue]) found⟩ fun _ => id
  | folding vars next =>
    cases step
    exact inv.move_frame running started known.2.1 known.2.2 ⟨known.1,
      le_setSequenceNext _ _⟩ fun _ => id
  | folded vars =>
    dsimp only at step
    split at step <;> cases step
    · exact stop
    next segment found => exact goto ⟨known, inv.rows.snapshot.target inv.rows found⟩ fun _ => id
  | seeking vars ref =>
    dsimp only at step
    split at step
    · cases step
      exact stop
    next head found =>
      obtain ⟨⟨headMember, headLane, headRef, headAfter⟩, -⟩ := headRow_eq_some found
      split at step <;> cases step
      · have spent := spent_before_head inv.claims known.1.2 known.2 found
        exact goto ⟨known.1.1, spent, head, headMember, headLane, rfl, headRef⟩ fun _ => id
      next notAfter =>
        exact goto ⟨known.1.1, known.1.2, head, headMember, headLane, by omega, headRef⟩ fun _ => id
  | skipping vars ref head =>
    cases step
    obtain ⟨locked, spent, row, mem, sameLane, sameSeq, sameRef⟩ := known
    have below := inv.rows.below row mem
    rw [sameLane] at below
    exact inv.move_frame running started spent (by omega)
      ⟨locked, le_setSequenceNext _ _, row, mem, sameLane, sameSeq, sameRef⟩ fun _ => id
  | headed vars ref =>
    dsimp only at step
    split at step
    · cases step
      exact stop
    · split at step <;> cases step
      · exact goto known fun _ => id
      next clear =>
        exact goto ⟨known, AtHead.untombed inv.claims known (Bool.eq_false_iff.2 clear)⟩ fun _ => id
  | untombed vars ref limit =>
    dsimp only at step
    split at step <;> cases step
    · exact goto known.1 fun _ => id
    next uncovered =>
      refine goto ⟨known.1, fun claim mem row rowMember sameLane => ?_⟩ fun _ => id
      by_contra notBelow
      have covered := known.2 claim mem row rowMember sameLane (by omega)
      exact uncovered ((ok.view_covers (by simp [ClaimFrame.queue])).2 covered)
  | spent vars ref limit =>
    dsimp only at step
    split at step <;> cases step
    · exact stop
    next next found =>
      exact goto ⟨known.locked, spentPrefix_spent inv.rows inv.claims ok
        (by simp [ClaimFrame.queue]) known.behind found⟩ fun _ => id
  | repairing lane next =>
    cases step
    exact inv.move_frame running started known.2.1 known.2.2 trivial (by simp [ClaimFrame.queue])
  | claiming vars ref limit =>
    cases step
    exact inv.claim running started (by simp [ClaimFrame.queue]) known.1 known.2

theorem LaneInv.probe {queue : Nat} {queues : List Nat}
    (running : s.tx t = some (.claimer c)) (next : c.queues = queue :: queues) (maxBatch : Nat) :
    LaneInv slots ({ s with childLocks := (t, none) :: s.childLocks }.setTx t
      (.claimer { c with queues, frame := .probing queue maxBatch s.tables.segments })) := by
  have ok := inv.claimers t c running
  have fresh : queue ∉ queues := (List.nodup_cons.1 (next ▸ ok.stripes)).1
  set s' := { s with childLocks := (t, none) :: s.childLocks }.setTx t
    (.claimer { c with queues, frame := .probing queue maxBatch s.tables.segments })
  have quiet : Quiet s s' := ⟨rfl, rfl, rfl, rfl, rfl, rfl⟩
  have rely : ClaimRely t s s' := quiet.rely inv.claims (fun _ => Nat.le_refl _)
    (fun _ held => held) (fun _ mem => List.mem_cons_of_mem _ mem)
  refine inv.local_step _ (List.subset_cons_self _ _) (fun _ same => by cases same)
    (fun c' same => ?_)
  cases same
  exact {
    frame := SnapshotOk.stable inv.rows inv.rows.snapshot rely
    pending := fun claim mem => (ok.pending claim mem).stable rely
    stripes := (List.nodup_cons.1 (next ▸ ok.stripes)).2
    running := by simpa [ClaimFrame.queue] using fresh
    visited := fun claim mem => by
      have before := (ok.visited claim mem).1
      rw [next, List.mem_cons, not_or] at before
      exact ⟨before.2, by simpa [ClaimFrame.queue] using before.1⟩
    lanes := ok.lanes
    reading := .inl List.mem_cons_self }

theorem LaneInv.lockClaimHead {vars : ClaimVars} {target : Option RingRef}
    (running : s.tx t = some (.claimer c)) (frame : c.frame = .routing vars target)
    (free : s.claimLock vars.lane = none) :
    LaneInv slots ({ s with claimLock := update s.claimLock vars.lane (some t) }.setTx t
      (.claimer { c with frame := .afterLock vars target })) := by
  have locked : LaneInv slots { s with claimLock := update s.claimLock vars.lane (some t) } := by
    have quiet : Quiet s { s with claimLock := update s.claimLock vars.lane (some t) } :=
      ⟨rfl, rfl, rfl, rfl, rfl, rfl⟩
    refine inv.of_env rfl (fun u => quiet.rely inv.claims (fun _ => Nat.le_refl _)
      (fun lane held => ?_)
      (fun _ mem => mem)) (quiet.rows inv.rows) (quiet.sameCursor inv.claims rfl)
    have apart : lane ≠ vars.lane := fun same => by simp [same, free] at held
    simpa only [Function.update_of_ne apart] using held
  have known := (locked.claimers t c running).frame
  rw [frame] at known
  have own : update s.claimLock vars.lane (some t) vars.lane = some t := Function.update_self ..
  have next : FrameOk { s with claimLock := update s.claimLock vars.lane (some t) } t
      (.afterLock vars target) := by
    cases target with
    | none => exact ⟨own, known.1⟩
    | some ref => exact ⟨⟨own, known.1⟩, known.2 ref rfl⟩
  have queue : (ClaimFrame.afterLock vars target).queue = c.frame.queue := by
    rw [frame]
    cases target <;> rfl
  exact locked.frame running (by simp [frame]) next (fun _ mem => queue ▸ mem)

theorem LaneInv.stepWriter {w : Writer α}
    (running : s.tx t = some (.writer w)) (step : stepWriter s t w op = some s') :
    LaneInv slots s' := by
  unfold AwaQueue.stepWriter at step
  cases op with
  | reserve u lane jobs =>
    dsimp only at step
    split at step
    · next staged call =>
      split at step <;> cases step
      next free => exact inv.reserve running call free.2
    · cases step
  | currentQueueRing u =>
    dsimp only at step
    split at step <;> cases step
    next staged call => exact inv.currentQueueRing running call
  | insertReadyRows u =>
    dsimp only at step
    split at step <;> cases step
    next staged ref call => exact inv.insertReadyRows running call
  | insertReadySegments u =>
    dsimp only at step
    split at step <;> cases step
    next rows ref call => exact inv.insertReadySegments running call
  | tombstone u row cancel =>
    dsimp only at step
    split at step <;> cases step
    next committed => exact inv.tombstone running committed cancel
  | commit u =>
    dsimp only at step
    split at step <;> cases step
    exact inv.commitWriter running
  | _ => cases step

theorem LaneInv.stepClaimer
    (running : s.tx t = some (.claimer c)) (step : stepClaimer s t c op = some s') :
    LaneInv slots s' := by
  have ok := inv.claimers t c running
  unfold AwaQueue.stepClaimer at step
  cases op with
  | probe u maxBatch =>
    dsimp only at step
    split at step <;> cases step
    next queue queues _ next => exact inv.probe running next maxBatch
  | route u lane =>
    dsimp only at step
    split at step
    · next queue maxBatch segments frame =>
      split at step <;> cases step
      next found =>
        have snapshot := ok.frame
        rw [frame] at snapshot
        refine inv.frame running (by simp [frame]) ⟨Nat.le_refl _, fun ref mem => ?_⟩
          (by simp [frame, ClaimFrame.queue, found.1])
        obtain ⟨segment, picked, rfl⟩ := Option.map_eq_some_iff.1 mem
        exact SnapshotOk.target inv.rows snapshot picked
    · cases step
  | lockClaimHead u =>
    dsimp only at step
    split at step
    · next vars target frame =>
      split at step <;> cases step
      next free => exact inv.lockClaimHead running frame free
    · cases step
  | notFound u =>
    dsimp only at step
    split at step
    · next frame =>
      cases step
      exact inv.frame running (by simp [frame]) trivial (by simp [ClaimFrame.queue])
    · next frame =>
      cases step
      exact inv.frame running (by simp [frame]) trivial (by simp [ClaimFrame.queue])
    · cases step
  | claimStatement u => exact inv.claimStatement running step
  | commit u =>
    dsimp only at step
    split at step <;> cases step
    exact inv.commitClaimer running
  | _ => cases step

theorem LaneInv.stepTx (step : stepTx s t op = some s') : LaneInv slots s' := by
  unfold AwaQueue.stepTx at step
  split at step
  · cases step
  · next w running => exact inv.stepWriter running step
  · next c running => exact inv.stepClaimer running step

end

theorem LaneInv.initial : LaneInv slots (LaneState.initial : LaneState α) where
  rows := ⟨by simp [LaneState.initial], by simp [LaneState.initial], by simp [LaneState.initial,
    GenerationsOrdered],
    by simp [LaneState.initial], by simp [LaneState.initial], by simp [LaneState.initial, Placed],
    ⟨by simp [LaneState.initial], by simp [LaneState.initial], by simp [LaneState.initial]⟩,
    by simp [LaneState.initial]⟩
  claims := ⟨by simp [LaneState.initial, SpentBelow], by simp [LaneState.initial, LaneState.floor],
    by simp [LaneState.initial], by simp [LaneState.initial], by simp [LaneState.initial],
    by simp [LaneState.initial], by simp [LaneState.initial], by simp [LaneState.initial]⟩
  writers := by simp [LaneState.initial]
  claimers := by simp [LaneState.initial]

theorem LaneInv.step (inv : LaneInv slots s) (step : laneStep slots op s = some s') :
    LaneInv slots s' := by
  cases op with
  | beginWriter t =>
    simp only [laneStep] at step
    split at step <;> cases step
    exact inv.local_step _ (List.Subset.refl _) (fun w same => by cases same; exact Writer.fresh_ok)
      (fun _ same => by cases same)
  | beginClaim t queues =>
    simp only [laneStep] at step
    split at step <;> cases step
    next free =>
      refine inv.local_step _ (List.Subset.refl _) (fun _ same => by cases same) (fun c same => ?_)
      cases same
      exact ⟨trivial, by simp, free.2, by simp [ClaimFrame.queue], by simp, by simp, .inr ⟨rfl,
        rfl⟩⟩
  | abort t =>
    simp only [laneStep] at step
    split at step <;> cases step
    exact inv.abort
  | advance advance =>
    simp only [laneStep] at step
    split at step <;> cases step
    next asked => exact inv.advance (inv.claims.advances advance asked.1)
  | replay row =>
    simp only [laneStep] at step
    split at step <;> cases step
    exact inv.advance ⟨fun _ => ⟨_, rfl, rfl⟩, by simp [advanceOfClaim]⟩
  | rotate =>
    cases step
    exact inv.rotate
  | truncate slot =>
    simp only [laneStep] at step
    split at step <;> cases step
    next unlocked => exact inv.truncate unlocked
  | reserve t lane jobs | currentQueueRing t | insertReadyRows t | insertReadySegments t
  | tombstone t row cancel
  | probe t maxBatch | route t lane | lockClaimHead t | notFound t | claimStatement t | commit t =>
    exact inv.stepTx step

theorem laneInv_reachable {ok : LaneOp α → LaneState α → Prop}
    (reached : (laneMachine α slots).Reachable ok s) : LaneInv slots s :=
  reached.invariant (fun _ first => first ▸ LaneInv.initial)
    (fun _ _ _ _ inv _ step => inv.step step)

/-- In every reachable state a committed ready row that the claim cursor of its lane has
passed is tombstoned or covered by committed claim evidence. -/
theorem claim_cursor_passes_spent_rows (reached : (laneMachine α slots).Reachable Machine.Always s)
    (lane : Lane) (row : ReadyRow α) (committed : row ∈ s.tables.ready) (ofLane : row.lane = lane)
    (passed : row.laneSeq < s.claimSeq lane) :
      s.tables.isTombstoned row.lane row.ref row.laneSeq = true ∨
      s.tables.attemptCovers row.lane row.ref row.laneSeq = true := by
  have spent := (laneInv_reachable reached).claims.cursor lane row committed ofLane passed
  simpa [LaneTables.Spent, LaneTables.attemptSpent] using spent

/-- A lane, two enqueued jobs and two claims of one job each; the advance after the first claim
is lost, so that the second folds its evidence, and the advance after the second runs. -/
def sampleLane : Lane := ⟨0, 2, 0⟩

def sampleRun : List (LaneOp Nat) :=
  [.beginWriter 0, .reserve 0 sampleLane [(5, 100), (5, 101)], .currentQueueRing 0,
   .insertReadyRows 0, .insertReadySegments 0, .commit 0,
   .beginClaim 1 [0], .probe 1 1, .route 1 sampleLane, .lockClaimHead 1] ++
  List.replicate 5 (.claimStatement 1) ++
  [.commit 1, .beginClaim 2 [0], .probe 2 1, .route 2 sampleLane, .lockClaimHead 2] ++
  List.replicate 7 (.claimStatement 2) ++
  [.commit 2, .replay ⟨sampleLane, 2, ⟨0, 0⟩⟩]

theorem claim_cursor_passes_spent_rows_sample :
    ∃ s : LaneState Nat, (laneMachine Nat 2).Reachable Machine.Always s ∧ ∃ row ∈ s.tables.ready,
      row.laneSeq < s.claimSeq sampleLane ∧
        (s.tables.isTombstoned row.lane row.ref row.laneSeq = true ∨
        s.tables.attemptCovers row.lane row.ref row.laneSeq = true) := by
  obtain ⟨s, reached, hit⟩ := Machine.reachable_of_run (laneMachine Nat 2) Machine.Always sampleRun
    (fun s => s.tables.ready.any fun row => row.lane = sampleLane ∧
      row.laneSeq < s.claimSeq sampleLane)
    rfl (by decide)
  obtain ⟨row, member, ofLane, passed⟩ : ∃ row ∈ s.tables.ready, row.lane = sampleLane ∧
      row.laneSeq < s.claimSeq sampleLane := by simpa using hit
  exact ⟨s, reached, row, member, passed,
    claim_cursor_passes_spent_rows reached sampleLane row member ofLane passed⟩

/-- In every reachable state the positions emitted in one lane increase strictly along the
committed claims, so that no two committed claims share a position. -/
theorem committed_claims_increase (reached : (laneMachine α slots).Reachable Machine.Always s) :
    (s.history.Pairwise fun earlier later => ∀ low ∈ earlier.rows, ∀ high ∈ later.rows,
      low.lane = high.lane → low.laneSeq < high.laneSeq) ∧
    (∀ claim ∈ s.history, (claim.rows.map ReadyRow.key).Nodup) ∧
    s.history.Pairwise fun earlier later =>
      ∀ row ∈ earlier.rows, row.key ∉ later.rows.map ReadyRow.key := by
  have inv := (laneInv_reachable reached).claims
  have increase : s.history.Pairwise fun earlier later => ∀ low ∈ earlier.rows, ∀ high ∈ later.rows,
      low.lane = high.lane → low.laneSeq < high.laneSeq := by
    refine inv.ordered.imp_of_mem ?_
    intro _ _ earlierMember laterMember precedes low lowMember high highMember same
    have earlierLane := (inv.faithful _ earlierMember).lane low lowMember
    have laterLane := (inv.faithful _ laterMember).lane high highMember
    exact precedes (by rw [← earlierLane, same, laterLane]) low lowMember high highMember
  refine ⟨increase, fun claim member => ?_, ?_⟩
  · have sorted := List.pairwise_map.1 (inv.faithful claim member).sorted
    refine List.pairwise_map.2 (sorted.imp fun below same => ?_)
    exact absurd (congrArg ReadyTombstone.laneSeq same) (by simpa [ReadyRow.key] using below.ne)
  · refine increase.imp fun below row member again => ?_
    obtain ⟨other, otherMember, same⟩ := List.mem_map.1 again
    simp only [ReadyRow.key, ReadyTombstone.mk.injEq] at same
    have less := below row member other otherMember same.1.symm
    omega

theorem committed_claims_increase_sample :
    ∃ s : LaneState Nat, (laneMachine Nat 2).Reachable Machine.Always s ∧ s.history.length = 2 ∧
      s.history.Pairwise fun earlier later => ∀ low ∈ earlier.rows, ∀ high ∈ later.rows,
        low.lane = high.lane → low.laneSeq < high.laneSeq := by
  obtain ⟨s, reached, hit⟩ := Machine.reachable_of_run (laneMachine Nat 2) Machine.Always sampleRun
    (fun s => s.history.length = 2) rfl (by decide)
  exact ⟨s, reached, by simpa using hit, (committed_claims_increase reached).1⟩

end AwaQueue
