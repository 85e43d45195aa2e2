import AwaQueue.Lane.Safety

/-! What the steps of the lane protocol do to the rows that transactions have in hand: the jobs a
writer has reserved numbers for, and the rows a claimer has claimed. -/

namespace AwaQueue

open List
open Function (update update_of_ne update_self)
open Library
variable {α : Type} {slots : Nat} {s s' : LaneState α} {t : TxId} {op : LaneOp α} {tx : LaneTx α}
  {base : LaneState α} {w : Writer α} {c : Claimer α}

abbrev LaneEntry (α : Type) := Lane × Nat × α

def ReadyRow.entry (row : ReadyRow α) : LaneEntry α := (row.lane, row.laneSeq, row.job)
def StagedRow.entry (row : StagedRow α) : LaneEntry α := (row.lane, row.laneSeq, row.job)

def InsertCall.entries : InsertCall α → List (LaneEntry α)
  | .reserving staged | .routed staged _ => staged.map StagedRow.entry
  | .inserted rows _ => rows.map ReadyRow.entry

def Writer.entries (w : Writer α) : List (LaneEntry α) :=
  w.rows.map ReadyRow.entry ++ w.call.entries

/-- The rows in hand come from where they were before: a writer keeps its entries, and a claimer
adds committed rows. -/
structure TxKept (s s' : LaneState α) : Prop where
  writers : ∀ u w', s'.tx u = some (.writer w') → w'.entries = [] ∨ ∃ w, s.tx u = some (.writer w) ∧
    w'.entries = w.entries
  claimers : ∀ u c', s'.tx u = some (.claimer c') → ∀ claim ∈ c'.claimed,
    (∃ c, s.tx u = some (.claimer c) ∧ claim ∈ c.claimed) ∨ ∀ row ∈ claim.rows, row ∈ s.tables.ready

def LaneOp.inner : LaneOp α → Bool
  | .reserve _ _ _ | .commit _ => false
  | _ => true

inductive LaneEffect (op : LaneOp α) (s s' : LaneState α) : Prop where
  | internal (inner : op.inner = true) (nextSeq : s'.nextSeq = s.nextSeq)
      (ready : ∀ row ∈ s'.tables.ready, row ∈ s.tables.ready)
      (history : s'.history = s.history) (tx : TxKept s s')
  | reserved (t : TxId) (lane : Lane) (jobs : List (Nat × α)) (w : Writer α)
      (staged : List (StagedRow α)) (asked : op = .reserve t lane jobs)
        (running : s.tx t = some (.writer w)) (call : w.call = .reserving staged)
      (nextSeq : s'.nextSeq = update s.nextSeq lane (s.nextSeq lane + jobs.length))
        (tables : s'.tables = s.tables)
      (history : s'.history = s.history)
      (tx : s'.tx = update s.tx t
        (some (.writer { w with call := .reserving (staged ++ stageRows lane (s.nextSeq lane) jobs)
          })))
  | writerCommitted (t : TxId) (w : Writer α) (asked : op = .commit t)
      (running : s.tx t = some (.writer w)) (result : s' = commitWriter s t w)
  | claimerCommitted (t : TxId) (c : Claimer α) (asked : op = .commit t)
      (running : s.tx t = some (.claimer c)) (result : s' = commitClaimer s t c)

theorem TxKept.of_eq (same : s'.tx = s.tx) : TxKept s s' where
  writers _ w running := .inr ⟨w, same ▸ running, rfl⟩
  claimers _ c running _ mem := .inl ⟨c, same ▸ running, mem⟩

theorem TxKept.update (same : s'.tx = update s.tx t (some tx))
    (writer : ∀ w', tx = .writer w' → w'.entries = [] ∨ ∃ w, s.tx t = some (.writer w) ∧
    w'.entries = w.entries) (claimer : ∀ c', tx = .claimer c' → ∀ claim ∈ c'.claimed,
      (∃ c, s.tx t = some (.claimer c) ∧ claim ∈ c.claimed) ∨
        ∀ row ∈ claim.rows, row ∈ s.tables.ready) : TxKept s s' where
  writers u w' running := by
    rw [same] at running
    by_cases mine : u = t
    · subst mine
      rw [update_self] at running
      exact writer w' (Option.some_inj.1 running)
    · rw [update_of_ne mine] at running
      exact .inr ⟨w', running, rfl⟩
  claimers u c' running claim mem := by
    rw [same] at running
    by_cases mine : u = t
    · subst mine
      rw [update_self] at running
      exact claimer c' (Option.some_inj.1 running) claim mem
    · rw [update_of_ne mine] at running
      exact .inl ⟨c', running, mem⟩

theorem release_kept (same : s'.tx = (s.release t).tx) : TxKept s s' where
  writers u w running := by
    rw [same] at running
    by_cases mine : u = t
    · subst mine
      simp [LaneState.release] at running
    · exact .inr ⟨w, by simpa [LaneState.release, update_of_ne mine] using running, rfl⟩
  claimers u c running claim mem := by
    rw [same] at running
    by_cases mine : u = t
    · subst mine
      simp [LaneState.release] at running
    · exact .inl ⟨c, by simpa [LaneState.release, update_of_ne mine] using running, mem⟩

theorem LaneEffect.local (inner : op.inner = true) (nextSeq : base.nextSeq = s.nextSeq)
    (tables : base.tables = s.tables) (history : base.history = s.history) (same : base.tx = s.tx)
    (writer : ∀ w', tx = .writer w' → w'.entries = [] ∨ ∃ w, s.tx t = some (.writer w) ∧
    w'.entries = w.entries) (claimer : ∀ c', tx = .claimer c' → ∀ claim ∈ c'.claimed,
      (∃ c, s.tx t = some (.claimer c) ∧ claim ∈ c.claimed) ∨
    ∀ row ∈ claim.rows, row ∈ s.tables.ready) : LaneEffect op s (base.setTx t tx) := by
  refine .internal inner nextSeq ?_ history (.update ?_ writer claimer)
  · intro row mem
    exact tables ▸ mem
  · rw [← same]
    rfl

theorem LaneEffect.writer {w' : Writer α} (inner : op.inner = true)
    (nextSeq : base.nextSeq = s.nextSeq)
    (tables : base.tables = s.tables) (history : base.history = s.history) (same : base.tx = s.tx)
    (running : s.tx t = some (.writer w)) (entries : w'.entries = w.entries) :
    LaneEffect op s (base.setTx t (.writer w')) := by
  refine .local inner nextSeq tables history same ?_ ?_
  · rintro _ ⟨⟩
    exact .inr ⟨w, running, entries⟩
  · rintro _ ⟨⟩

theorem LaneEffect.claimer {c' : Claimer α} {added : List (ClaimedBatch α)}
    (inner : op.inner = true) (nextSeq : base.nextSeq = s.nextSeq) (tables : base.tables = s.tables)
    (history : base.history = s.history) (same : base.tx = s.tx)
    (running : s.tx t = some (.claimer c)) (claimed : c'.claimed = c.claimed ++ added)
    (committed : ∀ claim ∈ added, ∀ row ∈ claim.rows, row ∈ s.tables.ready) :
    LaneEffect op s (base.setTx t (.claimer c')) := by
  refine .local inner nextSeq tables history same ?_ ?_
  · rintro _ ⟨⟩
  · rintro _ ⟨⟩ claim mem
    rw [claimed] at mem
    rcases mem_append.1 mem with old | new
    · exact .inl ⟨c, running, old⟩
    · exact .inr (committed claim new)

theorem claimStatement_effect (running : s.tx t = some (.claimer c))
    (step : claimStatement s t c = some s') (inner : op.inner = true) : LaneEffect op s s' := by
  have goes : ∀ {base : LaneState α} {frame : ClaimFrame}, base.nextSeq = s.nextSeq →
      base.tables = s.tables → base.history = s.history → base.tx = s.tx →
        LaneEffect op s (base.setTx t (.claimer { c with frame })) := by
    intro base frame nextSeq tables history same
    exact .claimer inner nextSeq tables history same running (append_nil _).symm (forall_mem_nil _)
  unfold claimStatement at step
  cases frame : c.frame with
  | returned | probing queue maxBatch segments | routing vars target => simp [frame] at step
  | unresolved vars | targeted vars ref | folded vars | untombed vars ref limit
  | spent vars ref limit =>
    simp only [frame] at step
    split at step <;> cases step <;> exact goes rfl rfl rfl rfl
  | folding vars next | skipping vars ref head | repairing lane next =>
    simp only [frame] at step
    cases step
    exact goes rfl rfl rfl rfl
  | seeking vars ref | headed vars ref =>
    simp only [frame] at step
    split at step
    · cases step
      exact goes rfl rfl rfl rfl
    · split at step <;> cases step <;> exact goes rfl rfl rfl rfl
  | claiming vars ref limit =>
    simp only [frame] at step
    cases step
    refine .claimer inner rfl rfl rfl rfl running rfl ?_
    intro claim found row mem
    obtain ⟨rows, -⟩ := claimReadySlot_eq_some (Option.mem_toList.1 found)
    rw [rows] at mem
    exact (mem_filter.1 (mem_of_mem_select (mem_filter.1 mem).1)).1

theorem stepWriter_effect (running : s.tx t = some (.writer w))
    (step : stepWriter s t w op = some s') (own : ∀ u lane jobs, op = .reserve u lane jobs → u = t)
    (mine : ∀ u, op = .commit u → u = t) : LaneEffect op s s' := by
  unfold stepWriter at step
  cases op with
  | reserve u lane jobs =>
    dsimp only at step
    split at step
    · next staged call =>
      obtain ⟨-, step⟩ := Option.ite_none_right_eq_some.1 step
      cases step
      exact .reserved t lane jobs w staged (by rw [own u lane jobs rfl]) running call
        rfl rfl rfl rfl
    · cases step
  | currentQueueRing u =>
    dsimp only at step
    split at step <;> cases step
    next staged call =>
      refine .writer rfl rfl rfl rfl rfl running ?_
      rw [Writer.entries, Writer.entries, call]
      rfl
  | insertReadyRows u =>
    dsimp only at step
    split at step <;> cases step
    next staged ref call =>
      refine .writer rfl rfl rfl rfl rfl running ?_
      rw [Writer.entries, Writer.entries, call, InsertCall.entries, InsertCall.entries, map_map]
      rfl
  | insertReadySegments u =>
    dsimp only at step
    split at step <;> cases step
    next rows ref call =>
      refine .writer rfl rfl rfl rfl rfl running ?_
      rw [Writer.entries, Writer.entries, call, InsertCall.entries, InsertCall.entries,
        map_append, map_nil, append_nil]
  | tombstone u row cancel =>
    dsimp only at step
    obtain ⟨-, step⟩ := Option.ite_none_right_eq_some.1 step
    cases step
    exact .writer rfl rfl rfl rfl rfl running rfl
  | commit u =>
    dsimp only at step
    split at step <;> cases step
    exact .writerCommitted t w (by rw [mine u rfl]) running rfl
  | _ => cases step

theorem stepClaimer_effect (running : s.tx t = some (.claimer c))
    (step : stepClaimer s t c op = some s')
    (mine : ∀ u, op = .commit u → u = t) : LaneEffect op s s' := by
  have goes : ∀ {base : LaneState α} {queues : List Nat} {frame : ClaimFrame}, op.inner = true →
      base.nextSeq = s.nextSeq →
      base.tables = s.tables → base.history = s.history → base.tx = s.tx →
      LaneEffect op s (base.setTx t (.claimer { c with queues, frame })) := by
    intro base queues frame inner nextSeq tables history same
    exact .claimer inner nextSeq tables history same running (append_nil _).symm (forall_mem_nil _)
  unfold stepClaimer at step
  cases op with
  | probe u maxBatch =>
    dsimp only at step
    split at step <;> cases step
    exact goes rfl rfl rfl rfl rfl
  | route u lane | lockClaimHead u =>
    dsimp only at step
    split at step
    · obtain ⟨-, step⟩ := Option.ite_none_right_eq_some.1 step
      cases step
      exact goes rfl rfl rfl rfl rfl
    · cases step
  | notFound u =>
    dsimp only at step
    split at step
    · cases step
      exact goes rfl rfl rfl rfl rfl
    · cases step
      exact goes rfl rfl rfl rfl rfl
    · cases step
  | claimStatement u => exact claimStatement_effect running step rfl
  | commit u =>
    dsimp only at step
    split at step <;> cases step
    exact .claimerCommitted t c (by rw [mine u rfl]) running rfl
  | _ => cases step

theorem stepTx_effect (step : stepTx s t op = some s')
    (own : ∀ u lane jobs, op = .reserve u lane jobs → u = t)
    (mine : ∀ u, op = .commit u → u = t) : LaneEffect op s s' := by
  unfold stepTx at step
  split at step
  · cases step
  · next w running => exact stepWriter_effect running step own mine
  · next c running => exact stepClaimer_effect running step mine

theorem advanceClaimCursor_effect (inner : op.inner = true) (advance : ClaimCursorAdvance) :
    LaneEffect op s (advanceClaimCursor advance s) := by
  unfold advanceClaimCursor
  split
  · exact .internal inner rfl (fun _ mem => mem) rfl (.of_eq rfl)
  · exact .internal inner rfl (fun _ mem => mem) rfl (.of_eq rfl)

/-- What a step of the protocol does to the rows in hand. -/
theorem laneStep_effect (step : laneStep slots op s = some s') : LaneEffect op s s' := by
  cases op with
  | beginWriter t =>
    obtain ⟨-, rfl⟩ := guard_eq_some step
    refine .local rfl rfl rfl rfl rfl ?_ ?_
    · rintro _ ⟨⟩
      exact .inl rfl
    · rintro _ ⟨⟩
  | beginClaim t queues =>
    obtain ⟨-, rfl⟩ := guard_eq_some step
    refine .local rfl rfl rfl rfl rfl ?_ ?_
    · rintro _ ⟨⟩
    · rintro _ ⟨⟩ claim mem
      cases mem
  | abort t =>
    obtain ⟨-, rfl⟩ := guard_eq_some step
    exact .internal rfl rfl (fun _ mem => mem) rfl (release_kept rfl)
  | advance advance =>
    obtain ⟨-, rfl⟩ := guard_eq_some step
    exact advanceClaimCursor_effect rfl advance
  | replay row =>
    obtain ⟨-, rfl⟩ := guard_eq_some step
    exact advanceClaimCursor_effect rfl _
  | rotate =>
    cases step
    exact .internal rfl rfl (fun _ mem => mem) rfl (.of_eq rfl)
  | truncate slot =>
    obtain ⟨-, rfl⟩ := guard_eq_some step
    exact .internal rfl rfl (fun _ mem => (mem_filter.1 mem).1) rfl (.of_eq rfl)
  | reserve t lane jobs =>
    refine stepTx_effect step ?_ ?_
    · rintro _ _ _ ⟨⟩
      rfl
    · rintro _ ⟨⟩
  | commit t =>
    refine stepTx_effect step ?_ ?_
    · rintro _ _ _ ⟨⟩
    · rintro _ ⟨⟩
      rfl
  | currentQueueRing t | insertReadyRows t | insertReadySegments t | tombstone t row cancel
  | probe t maxBatch | route t lane
  | lockClaimHead t | notFound t | claimStatement t =>
    refine stepTx_effect step ?_ ?_
    · rintro _ _ _ ⟨⟩
    · rintro _ ⟨⟩

end AwaQueue
