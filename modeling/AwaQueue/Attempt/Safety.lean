import AwaQueue.Attempt.Gates
import Mathlib.Data.List.MinMax

/-! The attempt invariant holds in every reachable state, with what follows for the closure
ledgers and for the pruning of the claim ring. -/

namespace AwaQueue

open List Library
variable {s s' : AttemptState} {t : TxId} {a : Attempt} {slots : Nat} {op : AttemptOp}
  {locked : List Attempt} {x : Closer}

theorem disciplined_sweeps {owing : Bool} {tail : List AttemptStmt}
    (sweeps : Nat → List AttemptStmt) (one : ∀ slot rest, disciplined locked owing true rest =
    true → disciplined locked owing true (sweeps slot ++ rest) = true)
    (typed : disciplined locked owing true tail = true) (ring : List Nat) :
    disciplined locked owing true (ring.flatMap sweeps ++ tail) = true := by
  induction ring with
  | nil => exact typed
  | cons slot ring ih =>
    rw [flatMap_cons, append_assoc]
    exact one slot _ ih

theorem disciplined_cancel (attempts : List Attempt) (locked : List Attempt) :
    disciplined locked false false (attempts.flatMap cancelStatements) = true := by
  induction attempts generalizing locked with
  | nil => rfl
  | cons a attempts ih =>
    simp [cancelStatements, disciplined, ih]

theorem disciplined_fast {groups : List (List CloseTarget)} {settling : Bool}
    (known : ∀ group ∈ groups, ∀ target ∈ group, target.attempt ∈ locked)
    (distinct : ∀ group ∈ groups, (group.map CloseTarget.attempt).Nodup) :
      disciplined locked false settling (groups.map (.closeReceipts .fast) ++
        [.insertSuccessors (fun _ => .completion) false]) = true := by
  induction groups generalizing settling with
  | nil => rfl
  | cons group groups ih =>
    have later : AwaQueue.disciplined locked false true _ = true :=
      ih (fun g mem => known g (mem_cons_of_mem group mem))
      fun g mem => distinct g (mem_cons_of_mem group mem)
    simp only [map_cons, cons_append, disciplined, Bool.not_false, Bool.true_and, Bool.and_eq_true,
      all_eq_true, decide_eq_true_eq]
    exact ⟨⟨known group mem_cons_self, distinct group mem_cons_self⟩, later⟩

theorem CloseOp.disciplined (op : CloseOp) (distinct : op.Distinct) :
    disciplined [] false false op.script = true := by
  cases op with
  | completeReceiptRuntimeBatchFast groups =>
    refine disciplined_fast (fun group mem target present => ?_) (fun group mem => ?_)
    · exact mem_map_of_mem (mem_flatten.2 ⟨group, mem, present⟩)
    · exact ((sublist_flatten_of_mem mem).map _).nodup distinct
  | completeRuntimeBatchSlow batch =>
    have nodup : (batch.map CloseTarget.attempt).Nodup := distinct
    simp only [CloseOp.script, AwaQueue.disciplined, nil_append, Bool.not_false, Bool.true_and,
      Bool.and_true, Bool.and_eq_true, all_eq_true, decide_eq_true_eq]
    exact ⟨fun target mem => mem_map_of_mem mem, nodup⟩
  | completeClaimedBatch batch => rfl
  | takeRunningAttempt target kind => simp [CloseOp.script, AwaQueue.disciplined]
  | cancelRunningAttempt attempts => exact disciplined_cancel attempts []
  | resolveCallback attempt kind | retryWaiting attempt => rfl
  | rescueStaleHeartbeats stale cutoff slots skipped kinds =>
    exact disciplined_sweeps (sweep .heartbeat cutoff skipped) (fun _ _ typed => typed) rfl slots
  | rescueExpiredDeadlines expired now slots skipped kinds =>
    exact disciplined_sweeps
      (fun slot => sweep .batchDeadline now skipped slot ++ sweep .deadline now skipped slot)
      (fun _ _ typed => typed) rfl slots
  | rescueExpiredCallbacks expired kinds => rfl

theorem closerOk_begin {op : CloseOp} (distinct : op.Distinct) :
    CloserOk s t { script := op.script } where
  scanned := forall_mem_nil _
  won := forall_mem_nil _
  deleted := forall_mem_nil _
  deletedNodup := nodup_nil
  receipt := forall_mem_nil _
  closures := ⟨nodup_nil, forall_mem_nil _,
    forall_mem_nil _, fun _ _ => Nat.zero_le 1⟩
  explicit _ _ mem := absurd mem not_mem_nil
  leases := rfl
  cleared := forall_mem_nil _
  children _ _ pending := absurd pending (Nat.lt_irrefl 0)
  unsettled := forall_mem_nil _
  successors := forall_mem_nil _
  accounted := forall_mem_nil _
  order := forall_mem_nil _
  script := ⟨[], false, false, op.disciplined distinct, forall_mem_nil _,
    fun _ _ mem => absurd mem not_mem_nil, fun _ => rfl⟩

theorem AttemptInv.rewriteSuccessors {rows : List SuccessorRow} (inv : AttemptInv s)
    (ended : ∀ row ∈ rows, row.attempt ∈ s.ended ∨ row.attempt ∉ s.emitted) :
    AttemptInv { s with tables := { s.tables with successors := rows } } := by
  have unclosed (a : Attempt) (before : Unclosed s a) :
      Unclosed { s with tables := { s.tables with successors := rows } } a :=
    { before with }
  refine inv.of_env { inv.toDataOk with
      ledger := { inv.ledger with }
      live := fun a mem => unclosed a (inv.live a mem)
      evidence := ended } rfl fun u => ?_
  exact ⟨fun _ held => held, fun _ held => held, fun _ held => held, fun _ mem _ => mem,
    fun _ mem => .inl mem, fun a _ before => ⟨unclosed a before, Iff.rfl⟩⟩

theorem AttemptInv.heartbeat {rows : List AttemptStateRow} (inv : AttemptInv s) :
    AttemptInv { s with tables := { s.tables with attemptState := rows } } := by
  have unclosed (a : Attempt) (before : Unclosed s a) :
      Unclosed { s with tables := { s.tables with attemptState := rows } } a :=
    { before with }
  refine inv.of_env { inv.toDataOk with
      ledger := { inv.ledger with }
      live := fun a mem => unclosed a (inv.live a mem) } rfl fun u => ?_
  exact ⟨fun _ held => held, fun _ held => held, fun _ held => held, fun _ mem _ => mem,
    fun _ mem => .inl mem, fun a _ before => ⟨unclosed a before, Iff.rfl⟩⟩

def nextAttempts (s : AttemptState) (rows : List NewClaim) : List (NewClaim × Attempt) :=
  rows.map fun row => (row, ⟨row.jobId, s.runLease row.jobId + 1⟩)

theorem AttemptInv.step (inv : AttemptInv s) (step : attemptStep slots op s = some s')
    (fresh : ∀ rows, op = .claim rows → (rows.map NewClaim.jobId).Nodup →
    FreshRows s (nextAttempts s rows)) : AttemptInv s' := by
  cases op with
  | claim rows =>
    obtain ⟨distinct, rfl⟩ := guard_eq_some step
    exact inv.emit (fresh rows rfl distinct)
  | beginClose t op =>
    obtain ⟨⟨-, distinct⟩, rfl⟩ := guard_eq_some step
    exact inv.of_step (inv.toDataOk.congr ⟨rfl, rfl, rfl, rfl, rfl⟩) rfl (fun u _ => relySetTx u)
      (closerOk_begin distinct)
  | beginMaterialize t attempts =>
    obtain ⟨⟨-, distinct⟩, rfl⟩ := guard_eq_some step
    exact inv.of_step (inv.toDataOk.congr ⟨rfl, rfl, rfl, rfl, rfl⟩) rfl
      (fun u _ => relySetTx u) distinct
  | statement t =>
    simp only [attemptStep] at step
    split at step
    · next x running =>
      split at step
      · next stmt rest shape => exact inv.closeStatement running shape step
      · cases step
    · next m running => exact inv.materializeStatement running step
    · cases step
  | commit t =>
    simp only [attemptStep, commitAttempt] at step
    split at step
    · next x running =>
      obtain ⟨ended, rfl⟩ := guard_eq_some step
      exact inv.commitCloser running (isEmpty_iff.1 ended)
    · next leases running =>
      cases step
      exact inv.commitMaterializer running
    · cases step
  | abort t =>
    obtain ⟨-, rfl⟩ := guard_eq_some step
    exact inv.abort t
  | rewriteSuccessors rows =>
    obtain ⟨ended, rfl⟩ := guard_eq_some step
    refine inv.rewriteSuccessors fun row mem => ?_
    have allowed := all_eq_true.1 ended row mem
    simp only [AttemptState.overRow, Bool.and_eq_true, Bool.or_eq_true,
      decide_eq_true_eq] at allowed
    exact allowed.2
  | heartbeat row =>
    cases step
    exact inv.heartbeat
  | rotateClaims =>
    obtain ⟨-, rfl⟩ := guard_eq_some step
    exact inv.of_env (inv.toDataOk.congr ⟨rfl, rfl, rfl, rfl, rfl⟩) rfl fun u =>
      .of_same ⟨rfl, rfl, rfl, rfl, rfl⟩ (fun _ held => held) (fun _ held => held) fun _ held =>
        held
  | pruneOldestClaims =>
    simp only [attemptStep] at step
    split at step
    · cases step
    · obtain ⟨⟨-, unlocked, gate⟩, rfl⟩ := guard_eq_some step
      exact inv.pruneClaims gate fun lock mem => of_decide_eq_true (all_eq_true.1 unlocked lock mem)

theorem le_runLease (mem : a ∈ s.emitted) : a.runLease ≤ s.runLease a.jobId := by
  have here : a.runLease ∈ (s.emitted.filter fun b => b.jobId = a.jobId).map Attempt.runLease :=
    mem_map_of_mem (mem_filter.2 ⟨mem, decide_eq_true rfl⟩)
  exact le_max_of_le here (Nat.le_refl _)

/-- A statement of a transaction, after which it is at `tx`: no table changes, and locks are only
taken. -/
structure StatementMoves (s s' : AttemptState) (t : TxId) (tx : AttemptTx) : Prop where
  same : SameData s s'
  tx : s'.tx = Function.update s.tx t (some tx)
  locks : ∀ u a, s.attemptLock a = some u → s'.attemptLock a = some u

theorem closeStatement_moves {stmt : AttemptStmt} (step : closeStatement s t x stmt = some s') :
    ∃ y, StatementMoves s s' t (.closer y) := by
  cases stmt with
  | lockAttempts attempts =>
    obtain ⟨free, rfl⟩ := guard_eq_some step
    exact ⟨_, ⟨rfl, rfl, rfl, rfl, rfl⟩, rfl,
      fun u => (relyLockAttempts (all_eq_true.1 free) u).attemptLock⟩
  | scanReceipts kind slot now =>
    cases step
    exact ⟨_, ⟨rfl, rfl, rfl, rfl, rfl⟩, rfl,
      fun u => (relyLockAttempts (fun a mem => (mem_filter.1 mem).2) u).attemptLock⟩
  | closeScanned kind slot now skipped =>
    simp only [closeStatement] at step
    split at step <;> (cases step; exact ⟨_, ⟨rfl, rfl, rfl, rfl, rfl⟩, rfl, fun _ _ => id⟩)
  | deleteLeases attempts skipLocked =>
    obtain ⟨-, rfl⟩ := guard_eq_some step
    exact ⟨_, ⟨rfl, rfl, rfl, rfl, rfl⟩, rfl, fun _ _ => id⟩
  | insertSuccessors kinds rescue =>
    obtain ⟨rows, -, rfl⟩ := Option.map_eq_some_iff.1 step
    exact ⟨_, ⟨rfl, rfl, rfl, rfl, rfl⟩, rfl, fun _ _ => id⟩
  | closeReceipts | closeReceiptPairs =>
    cases step
    exact ⟨_, ⟨rfl, rfl, rfl, rfl, rfl⟩, rfl, fun _ _ => id⟩

theorem materializeStatement_moves {m : Materializer}
    (step : materializeStatement s t m = some s') :
    ∃ next, StatementMoves s s' t (.materializer next) := by
  cases m with
  | locking attempts =>
    obtain ⟨free, rfl⟩ := guard_eq_some step
    exact ⟨_, ⟨rfl, rfl, rfl, rfl, rfl⟩, rfl,
      fun u => (relyLockAttempts (all_eq_true.1 free) u).attemptLock⟩
  | inserting attempts =>
    cases step
    exact ⟨_, ⟨rfl, rfl, rfl, rfl, rfl⟩, rfl, fun _ _ => id⟩
  | inserted leases => cases step

theorem statement_moves (step : attemptStep slots (.statement t) s = some s') :
    ∃ tx, StatementMoves s s' t tx := by
  simp only [attemptStep] at step
  split at step
  · split at step
    · obtain ⟨y, moves⟩ := closeStatement_moves step
      exact ⟨_, moves⟩
    · cases step
  · obtain ⟨next, moves⟩ := materializeStatement_moves step
    exact ⟨_, moves⟩
  · cases step

theorem attemptStep_frame (step : attemptStep slots op s = some s')
    (other : op.transaction ≠ some t) :
    s'.tx t = s.tx t ∧ ∀ a, s.attemptLock a = some t → s'.attemptLock a = some t := by
  have apart {u : TxId} (acting : op.transaction = some u) :
    t ≠ u := fun same => other (same ▸ acting)
  have released {u : TxId} (acting : op.transaction = some u) : (s.release u).tx t = s.tx t ∧
      ∀ a, s.attemptLock a = some t → (s.release u).attemptLock a = some t :=
    ⟨Function.update_of_ne (apart acting) _ _, fun a => release_attemptLock (apart acting)⟩
  cases op with
  | beginClose u op | beginMaterialize u attempts =>
    obtain ⟨-, rfl⟩ := guard_eq_some step
    exact ⟨Function.update_of_ne (apart rfl) _ _, fun _ => id⟩
  | statement u =>
    obtain ⟨tx, moves⟩ := statement_moves step
    exact ⟨by rw [moves.tx, Function.update_of_ne (apart rfl)], moves.locks t⟩
  | commit u =>
    simp only [attemptStep, commitAttempt] at step
    split at step
    · obtain ⟨-, rfl⟩ := guard_eq_some step
      exact released rfl
    · cases step
      exact released rfl
    · cases step
  | abort u =>
    obtain ⟨-, rfl⟩ := guard_eq_some step
    exact released rfl
  | claim rows | rewriteSuccessors rows | rotateClaims =>
    obtain ⟨-, rfl⟩ := guard_eq_some step
    exact ⟨rfl, fun _ => id⟩
  | heartbeat row =>
    cases step
    exact ⟨rfl, fun _ => id⟩
  | pruneOldestClaims =>
    simp only [attemptStep] at step
    split at step
    · cases step
    · obtain ⟨-, rfl⟩ := guard_eq_some step
      exact ⟨rfl, fun _ => id⟩

inductive TableStep (s : AttemptState) : AttemptState → Prop where
  | quiet {s' : AttemptState} (same : SameData s s') : TableStep s s'
  | claim (rows : List NewClaim) (distinct : (rows.map NewClaim.jobId).Nodup) :
    TableStep s (s.emit (nextAttempts s rows))
  | closer {t : TxId} {x : Closer} (running : s.tx t = some (.closer x)) (ended : x.script = []) :
    TableStep s (commitCloser s t x)
  | materializer {t : TxId} {leases : List LeaseRow}
    (running : s.tx t = some (.materializer (.inserted leases))) :
    TableStep s (commitMaterializer s t leases)
  | successors (rows : List SuccessorRow) (ended : rows.all s.overRow = true) :
    TableStep s { s with tables := { s.tables with successors := rows } }
  | attemptState (rows : List AttemptStateRow) :
    TableStep s { s with tables := { s.tables with attemptState := rows } }
  | prune {slot : Nat} (gate : s.tables.claimGate slot = true) : TableStep s (pruneClaims s slot)

theorem tableStep (step : attemptStep slots op s = some s') : TableStep s s' := by
  cases op with
  | claim rows =>
    obtain ⟨distinct, rfl⟩ := guard_eq_some step
    exact .claim rows distinct
  | beginClose t op | beginMaterialize t attempts =>
    obtain ⟨-, rfl⟩ := guard_eq_some step
    exact .quiet ⟨rfl, rfl, rfl, rfl, rfl⟩
  | statement t =>
    obtain ⟨tx, moves⟩ := statement_moves step
    exact .quiet moves.same
  | commit t =>
    simp only [attemptStep, commitAttempt] at step
    split at step
    · next x running =>
      obtain ⟨ended, rfl⟩ := guard_eq_some step
      exact .closer running (isEmpty_iff.1 ended)
    · next leases running =>
      cases step
      exact .materializer running
    · cases step
  | abort t =>
    obtain ⟨-, rfl⟩ := guard_eq_some step
    exact .quiet ⟨rfl, rfl, rfl, rfl, rfl⟩
  | rewriteSuccessors rows =>
    obtain ⟨ended, rfl⟩ := guard_eq_some step
    exact .successors rows ended
  | heartbeat row =>
    cases step
    exact .attemptState _
  | rotateClaims =>
    obtain ⟨-, rfl⟩ := guard_eq_some step
    exact .quiet ⟨rfl, rfl, rfl, rfl, rfl⟩
  | pruneOldestClaims =>
    simp only [attemptStep] at step
    split at step
    · cases step
    · obtain ⟨⟨-, -, gate⟩, rfl⟩ := guard_eq_some step
      exact .prune gate

def LeasesReached (s : AttemptState) : Prop :=
  ∀ row ∈ s.tables.successors, row.attempt.runLease ≤ s.runLease row.attempt.jobId

theorem runLease_mono {jobId : Nat} (grows : s.emitted ⊆ s'.emitted) :
    s.runLease jobId ≤ s'.runLease jobId := by
  refine max_le_of_forall_le _ _ fun n mem => ?_
  obtain ⟨b, found, rfl⟩ := mem_map.1 mem
  obtain ⟨present, same⟩ := mem_filter.1 found
  exact of_decide_eq_true same ▸ le_runLease (grows present)

theorem LeasesReached.step (reached : LeasesReached s) (inv : AttemptInv s)
    (step : TableStep s s') : LeasesReached s' := by
  cases step with
  | quiet same =>
    intro row mem
    rw [same.tables] at mem
    exact (reached row mem).trans (runLease_mono (same.emitted ▸ List.Subset.refl _))
  | claim rows =>
    exact fun row mem => (reached row mem).trans (runLease_mono (subset_append_left _ _))
  | closer running =>
    have ok := inv.closer running
    intro row mem
    rcases mem_append.1 mem with old | new
    · exact reached row old
    · exact le_runLease (ok.won _ (ok.successors row new)).emitted
  | successors rows ended =>
    intro row mem
    have allowed := all_eq_true.1 ended row mem
    simp only [AttemptState.overRow, Bool.and_eq_true, decide_eq_true_eq] at allowed
    exact allowed.1
  | materializer | attemptState | prune => exact reached

/-- A claim hands out the next `run_lease` of each job, which nobody has seen. -/
theorem LeasesReached.fresh {rows : List NewClaim} (reached : LeasesReached s)
    (distinct : (rows.map NewClaim.jobId).Nodup) :
    FreshRows s (nextAttempts s rows) := by
  have names : (nextAttempts s rows).map Prod.snd = rows.map fun row =>
      ⟨row.jobId, s.runLease row.jobId + 1⟩ := by
    rw [nextAttempts, map_map]
    rfl
  refine { distinct := ?_, unseen := fun a mem seen => ?_, silent := fun a mem row present same =>
    ?_ }
  · rw [names]
    refine pairwise_map.2 ((pairwise_map.1 distinct).imp fun different same => different ?_)
    exact congrArg Attempt.jobId same
  · rw [names] at mem
    obtain ⟨row, -, rfl⟩ := mem_map.1 mem
    have bound := le_runLease seen
    simp only at bound
    omega
  · rw [names] at mem
    obtain ⟨claim, -, rfl⟩ := mem_map.1 mem
    have bound := reached row present
    rw [same] at bound
    simp only at bound
    omega

theorem attemptInv_initial : AttemptInv AttemptState.initial where
  ledger := ⟨nodup_nil, nodup_nil, nodup_nil, forall_mem_nil _,
    forall_mem_nil _, forall_mem_nil _⟩
  emitted := forall_mem_nil _
  numbered := forall_mem_nil _
  leases := nodup_nil
  live := forall_mem_nil _
  ended := forall_mem_nil _
  closed := forall_mem_nil _
  evidence := forall_mem_nil _
  pruned := forall_mem_nil _
  running _ _ mine := by cases mine

structure AttemptRunInv (s : AttemptState) : Prop extends AttemptInv s where
  reached : LeasesReached s

theorem attemptInv_reachable {ok : AttemptOp → AttemptState → Prop}
    (reached : (attemptMachine slots).Reachable ok s) : AttemptRunInv s := by
  refine reached.invariant (fun s first => ?_) fun op s s' _ inv _ step => ?_
  · rw [show s = AttemptState.initial from first]
    exact ⟨attemptInv_initial, forall_mem_nil _⟩
  · exact ⟨inv.toAttemptInv.step step fun rows _ distinct => inv.reached.fresh distinct,
      inv.reached.step inv.toAttemptInv (tableStep step)⟩

/-- In every reachable state the ledgers count no claim as closed twice, and a prune gate that
finds its totals equal covers closed claims only. -/
theorem receipt_closed_at_most_once (reached : (attemptMachine slots).Reachable Machine.Always s) :
    (∀ c ∈ s.tables.claims, s.tables.closeCount c ≤ 1) ∧ (∀ slot, s.tables.claimGate slot = true →
      ∀ c ∈ s.tables.claims, c.claimSlot = slot → s.tables.closeCount c = 1) ∧
    (∀ ref, s.tables.claimRefsGate ref = true → ∀ c ∈ s.tables.claims, c.ref = ref →
      s.tables.closeCount c = 1) := by
  have ledger := (attemptInv_reachable reached).ledger
  exact ⟨ledger.once, fun _ gate => ledger.closed_of_claimGate gate,
    fun _ gate => ledger.closed_of_claimRefsGate gate⟩

/-- Two jobs: the first is completed by the fast path while a rescue tick waits for its turn, the
second is materialized and then cancelled through its lease. -/
def sampleClaims : List NewClaim := [⟨7, 0, some 1, ⟨0, 0⟩, 5, none⟩,
    ⟨8, 0, none, ⟨0, 0⟩, 5, some 9⟩]

def sampleAttempts : List AttemptOp :=
  [.claim sampleClaims, .beginMaterialize 1 [⟨8, 1⟩], .statement 1, .statement 1, .commit 1,
   .beginClose 2 (.completeReceiptRuntimeBatchFast [[⟨⟨7, 1⟩, some 0⟩]]),
   .beginClose 3 (.rescueStaleHeartbeats [] 100 [0] [] fun _ => .deferred),
   .statement 2, .statement 3, .statement 2, .statement 3, .statement 2, .commit 2,
   .statement 3, .statement 3, .statement 3, .commit 3,
   .beginClose 4 (.cancelRunningAttempt [⟨8, 1⟩]), .statement 4, .statement 4, .statement 4,
     .statement 4,
   .statement 4, .commit 4]

theorem receipt_closed_at_most_once_sample :
    ∃ s : AttemptState, (attemptMachine 2).Reachable Machine.Always s ∧ s.tables.claims.length = 2 ∧
      s.tables.claimGate 0 = true ∧ ∀ c ∈ s.tables.claims, c.claimSlot = 0 →
        s.tables.closeCount c = 1 := by
  obtain ⟨s, reached, hit⟩ := Machine.reachable_of_run (attemptMachine 2) Machine.Always
    sampleAttempts
    (fun s => decide (s.tables.claims.length = 2) && s.tables.claimGate 0) rfl (by decide)
  obtain ⟨two, gate⟩ : s.tables.claims.length = 2 ∧ s.tables.claimGate 0 = true := by
    simpa using hit
  exact ⟨s, reached, two, gate, (receipt_closed_at_most_once reached).2.1 0 gate⟩

theorem AttemptInv.untaken (inv : AttemptInv s) (gone : a ∈ s.pruned)
    (running : s.tx t = some (.closer x)) : a ∉ x.writes.won :=
  fun won => ((inv.closer running).won a won).unsettled (inv.pruned a gone).1

theorem AttemptInv.settled_of_pruned (inv : AttemptInv s) (gone : a ∈ s.pruned)
    (step : TableStep s s') : s'.ended.count a = s.ended.count a ∧ a ∈ s'.pruned := by
  cases step with
  | quiet same => exact ⟨by rw [same.ended], same.pruned ▸ gone⟩
  | closer running =>
    have ok := inv.closer running
    refine ⟨?_, gone⟩
    rw [ended_commitCloser, count_append, Nat.add_eq_left, count_eq_zero]
    intro settled
    obtain ⟨row, mem, rfl⟩ := mem_map.1 settled
    exact inv.untaken gone running (ok.successors row mem)
  | prune => exact ⟨rfl, mem_append_left _ gone⟩
  | claim | materializer | successors | attemptState => exact ⟨rfl, gone⟩

/-- `prune_oldest_claims` truncates closed claims only, and what it truncated stays closed: no
later step settles the attempt again, and no claim, lease or transaction holds it. -/
theorem claim_prune_is_final (reached : (attemptMachine slots).Reachable Machine.Always s) :
    (∀ s', attemptStep slots .pruneOldestClaims s = some s' →
      ∀ c ∈ s.tables.claims, c ∉ s'.tables.claims →
      s.tables.closeCount c = 1 ∧ c.attempt ∈ s.ended ∧ c.attempt ∈ s'.pruned) ∧ ∀ a ∈ s.pruned,
      (∀ c ∈ s.tables.claims, c.attempt ≠ a) ∧ a ∉ s.tables.leased ∧
      (∀ t x, s.tx t = some (.closer x) → a ∉ x.writes.won) ∧
      (∀ t leases, s.tx t = some (.materializer (.inserted leases)) →
      a ∉ leases.map LeaseRow.attempt) ∧ ∀ op s', attemptStep slots op s = some s' →
        s'.ended.count a = s.ended.count a ∧ a ∈ s'.pruned := by
  have inv := (attemptInv_reachable reached).toAttemptInv
  refine ⟨fun s' stepped c member gone => ?_, fun a gone => ?_⟩
  · simp only [attemptStep] at stepped
    split at stepped
    · cases stepped
    · next oldest _ =>
      obtain ⟨⟨-, -, gate⟩, rfl⟩ := guard_eq_some stepped
      have inSlot : c.claimSlot = oldest.slot := by
        by_contra stays
        exact gone (mem_truncateClaims.2 ⟨member, stays⟩)
      have one := inv.ledger.closed_of_claimGate gate c member inSlot
      refine ⟨one, inv.closed c member one, List.mem_append_right _ (mem_map_of_mem ?_)⟩
      exact mem_filter.2 ⟨member, decide_eq_true inSlot⟩
  · obtain ⟨ended, absent⟩ := inv.pruned a gone
    refine ⟨absent, fun leased => (inv.live a leased).unsettled ended,
      fun t x running => inv.untaken gone running, fun t leases running inserted =>
        ?_, fun op s' stepped => inv.settled_of_pruned gone (tableStep stepped)⟩
    exact ((inv.materializer running).2 a inserted).2.2.unsettled ended

theorem claim_prune_is_final_sample :
    ∃ s : AttemptState, (attemptMachine 2).Reachable Machine.Always s ∧
      (⟨7, 1⟩ : Attempt) ∈ s.pruned ∧ (⟨7, 1⟩ : Attempt) ∉ s.tables.leased ∧
      ∀ t x, s.tx t = some (.closer x) → (⟨7, 1⟩ : Attempt) ∉ x.writes.won := by
  obtain ⟨s, reached, hit⟩ := Machine.reachable_of_run (attemptMachine 2) Machine.Always
    (sampleAttempts ++ [.rotateClaims, .beginClose 5 (.completeRuntimeBatchSlow [⟨⟨7, 1⟩, some 0⟩]),
      .statement 5, .pruneOldestClaims, .statement 5])
    (fun s => (⟨7, 1⟩ : Attempt) ∈ s.pruned) rfl (by decide)
  have gone : (⟨7, 1⟩ : Attempt) ∈ s.pruned := hit
  obtain ⟨-, free, untaken, -⟩ := (claim_prune_is_final reached).2 _ gone
  exact ⟨s, reached, gone, free, untaken⟩

end AwaQueue
