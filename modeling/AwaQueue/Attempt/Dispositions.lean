import AwaQueue.Attempt.Safety

/-! What becomes of an attempt: one successor for each closed attempt, and nothing from a
caller that lost it.

A rescue tick deletes leases and then sweeps receipts in one transaction. Its sweep looks for
a lease to leave the attempt to the lease side, and cannot see the one it has just deleted:
`SweepApart` sets such ticks aside. -/

namespace AwaQueue

open Function (update update_of_ne update_self)
open List Library
variable {s s' : AttemptState} {t u : TxId} {a : Attempt} {x : Closer} {c : ReceiptClaim}
  {slots : Nat} {op : AttemptOp} {stmt : AttemptStmt} {rest : List AttemptStmt} {form : CloseForm}
    {found : List ReceiptClaim}

/-- No receipt sweep of a rescue tick finds a claim whose lease the same tick has deleted. -/
def SweepApart (op : AttemptOp) (s : AttemptState) : Prop :=
  match op with
  | .statement t =>
    match s.tx t with
    | some (.closer x) =>
      match x.script with
      | .scanReceipts kind slot now :: _ =>
        ∀ c ∈ kind.rescuable (x.view s) slot now x.remaining, c.attempt ∉ x.writes.deletedLeases
      | _ => True
    | _ => True
  | _ => True

instance (op : AttemptOp) (s : AttemptState) : Decidable (SweepApart op s) := by
  unfold SweepApart
  repeat' split
  all_goals infer_instance

structure TakenOnce (x : Closer) : Prop where
  once : (x.unsettled ++ x.writes.successors.map SuccessorRow.attempt).Nodup
  apart : ∀ a ∈ x.scanned, a ∉ x.writes.deletedLeases

theorem WritesOk.mem_won (ok : WritesOk s t x)
    (mem : a ∈ x.unsettled ++ x.writes.successors.map SuccessorRow.attempt) : a ∈ x.writes.won := by
  rcases mem_append.1 mem with waiting | written
  · exact ok.unsettled a waiting
  · obtain ⟨row, present, rfl⟩ := mem_map.1 written
    exact ok.successors row present

theorem TakenOnce.extend {attempts : List Attempt} (once : TakenOnce x) (ok : WritesOk s t x)
    (distinct : attempts.Nodup) (new : ∀ a ∈ attempts, a ∉ x.writes.won) :
    ((x.unsettled ++ attempts) ++ x.writes.successors.map SuccessorRow.attempt).Nodup := by
  have shuffled : ((x.unsettled ++ x.writes.successors.map SuccessorRow.attempt) ++
      attempts).Nodup :=
    nodup_append.2 ⟨once.once, distinct,
      fun a old b fresh same => new b fresh (same ▸ ok.mem_won old)⟩
  rw [append_assoc] at shuffled ⊢
  exact ((perm_append_comm).append_left _).nodup_iff.1 shuffled

theorem Closable.new (able : Closable s t x form found)
    (ok : WritesOk s t x) (apart : ∀ c ∈ found, c.attempt ∉ x.writes.deletedLeases)
    (present : c ∈ found) : c.attempt ∉ x.writes.won := by
  intro won
  have one := (ok.receipt _ won (apart c present)).2.2 c (able.known present) rfl
  have none := (able.closeCount present).2
  omega

theorem Closable.takenOnce (able : Closable s t x form found)
    (once : TakenOnce x) (ok : WritesOk s t x) (ledger : LedgerOk s.tables)
    (apart : ∀ c ∈ found, c.attempt ∉ x.writes.deletedLeases) :
    TakenOnce (x.close s form found) where
  once := by
    refine once.extend ok (able.distinct.map_on fun c left d right same => ?_) fun a mem => ?_
    · exact ledger.eq_of_attempt (able.known left) (able.known right) same
    · obtain ⟨c, present, rfl⟩ := mem_map.1 mem
      exact able.new ok apart present
  apart := once.apart

theorem TakenOnce.closeStatement (once : TakenOnce x) (inv : AttemptInv s)
    (running : s.tx t = some (.closer x))
    (shape : x.script = stmt :: rest) (apart : SweepApart (.statement t) s)
    (step : closeStatement s t { x with script := rest } stmt = some s') :
    ∃ y, s'.tx = update s.tx t (some (.closer y)) ∧ TakenOnce y := by
  have ok := inv.closer running
  have view := ok.viewLedger inv.ledger
  cases stmt with
  | lockAttempts attempts =>
    obtain ⟨-, rfl⟩ := guard_eq_some step
    exact ⟨_, rfl, once.once, once.apart⟩
  | closeReceipts form targets =>
    cases step
    obtain ⟨locked, owing, settling, script⟩ := ok.script
    obtain ⟨kept, able, -⟩ := script.closable view shape
    have closed := able.takenOnce once ok.toWritesOk inv.ledger kept
    exact ⟨_, rfl, closed.once, closed.apart⟩
  | scanReceipts kind slot now =>
    cases step
    refine ⟨_, rfl, once.once, fun a mem => ?_⟩
    obtain ⟨c, found, rfl⟩ := mem_map.1 (mem_filter.1 mem).1
    simp only [SweepApart, running, shape] at apart
    exact apart c found
  | closeScanned kind slot now skipped =>
    simp only [AwaQueue.closeStatement] at step
    split at step
    · cases step
      exact ⟨_, rfl, once.once, once.apart⟩
    · cases step
      have able := ok.toWritesOk.closable_rescued view kind slot now skipped
      have closed := able.takenOnce once ok.toWritesOk inv.ledger fun c found => by
        have chosen := (mem_filter.1 found).2
        simp only [Bool.and_eq_true, decide_eq_true_eq] at chosen
        exact once.apart _ chosen.1
      exact ⟨_, rfl, closed.once, forall_mem_nil _⟩
  | deleteLeases attempts skipLocked =>
    obtain ⟨-, rfl⟩ := guard_eq_some step
    refine ⟨_, rfl, once.extend ok.toWritesOk ((ok.leased_nodup inv.toDataOk).filter _ |>.filter _)
      fun a mem => ?_, forall_mem_nil _⟩
    have matched := (mem_filter.1 (mem_filter.1 mem).1).2
    simp only [Bool.and_eq_true, decide_eq_true_eq] at matched
    exact matched.2
  | closeReceiptPairs checked =>
    cases step
    exact ⟨_, rfl, once.once, once.apart⟩
  | insertSuccessors kinds rescue =>
    obtain ⟨rows, inserted, rfl⟩ := Option.map_eq_some_iff.1 step
    obtain ⟨new, rfl, names⟩ := insertSuccessors_spec inserted
    refine ⟨_, rfl, ?_, once.apart⟩
    rw [nil_append, map_append, names]
    exact perm_append_comm.nodup_iff.1 once.once

/-- No attempt has two successors, and no running closer is about to give it a second one. -/
structure SettledOnce (s : AttemptState) : Prop where
  ended : s.ended.Nodup
  pending : ∀ t x, s.tx t = some (.closer x) → TakenOnce x

theorem SettledOnce.of_step (settled : SettledOnce s) (ended : s'.ended.Nodup)
    (running : ∀ t x, s'.tx t = some (.closer x) → s.tx t = some (.closer x) ∨ TakenOnce x) :
    SettledOnce s' where
  ended
  pending t x mine := (running t x mine).elim (settled.pending t x) id

theorem SettledOnce.of_update {tx : Option AttemptTx} (settled : SettledOnce s)
    (ended : s'.ended = s.ended) (running : s'.tx = update s.tx t tx)
    (next : ∀ x, tx = some (.closer x) → TakenOnce x) : SettledOnce s' := by
  refine settled.of_step (ended ▸ settled.ended) fun u x mine => ?_
  rw [running] at mine
  by_cases actor : u = t
  · subst actor
    rw [update_self] at mine
    exact .inr (next x mine)
  · rw [update_of_ne actor] at mine
    exact .inl mine

theorem SettledOnce.commitCloser (settled : SettledOnce s) (inv : AttemptInv s)
    (running : s.tx t = some (.closer x)) : SettledOnce (commitCloser s t x) := by
  have ok := inv.closer running
  refine settled.of_step ?_ fun u y mine => .inl ?_
  · rw [ended_commitCloser]
    have written := (nodup_append.1 (settled.pending t x running).once).2.1
    refine nodup_append.2 ⟨settled.ended, written, fun a old b new same => ?_⟩
    obtain ⟨row, mem, rfl⟩ := mem_map.1 new
    exact (ok.won _ (ok.successors row mem)).unsettled (same ▸ old)
  · have ran : update s.tx t none u = some (.closer y) := mine
    by_cases actor : u = t
    · subst actor
      rw [update_self] at ran
      cases ran
    · rwa [update_of_ne actor] at ran

theorem SettledOnce.step (settled : SettledOnce s) (inv : AttemptInv s) (apart : SweepApart op s)
    (step : attemptStep slots op s = some s') : SettledOnce s' := by
  cases op with
  | claim rows =>
    obtain ⟨-, rfl⟩ := guard_eq_some step
    exact settled.of_step settled.ended fun _ _ mine => .inl mine
  | beginClose t op =>
    obtain ⟨-, rfl⟩ := guard_eq_some step
    refine settled.of_update rfl rfl fun x first => ?_
    cases first
    exact ⟨nodup_nil, forall_mem_nil _⟩
  | beginMaterialize t attempts =>
    obtain ⟨-, rfl⟩ := guard_eq_some step
    exact settled.of_update rfl rfl fun x other => by cases other
  | statement t =>
    simp only [attemptStep] at step
    split at step
    · next x running =>
      split at step
      · next stmt rest shape =>
        obtain ⟨y, moved, once⟩ := (settled.pending t x running).closeStatement inv running
          shape apart step
        obtain ⟨_, moves⟩ := closeStatement_moves step
        refine settled.of_update moves.same.ended moved fun z next => ?_
        cases next
        exact once
      · cases step
    · next m running =>
      obtain ⟨next, moves⟩ := materializeStatement_moves step
      exact settled.of_update moves.same.ended moves.tx fun x other => by cases other
    · cases step
  | commit t =>
    simp only [attemptStep, commitAttempt] at step
    split at step
    · next x running =>
      obtain ⟨-, rfl⟩ := guard_eq_some step
      exact settled.commitCloser inv running
    · cases step
      exact settled.of_update rfl rfl fun x other => by cases other
    · cases step
  | abort t =>
    obtain ⟨-, rfl⟩ := guard_eq_some step
    exact settled.of_update rfl rfl fun x other => by cases other
  | rewriteSuccessors rows =>
    obtain ⟨-, rfl⟩ := guard_eq_some step
    exact settled.of_step settled.ended fun _ _ mine => .inl mine
  | heartbeat row =>
    cases step
    exact settled.of_step settled.ended fun _ _ mine => .inl mine
  | rotateClaims =>
    obtain ⟨-, rfl⟩ := guard_eq_some step
    exact settled.of_step settled.ended fun _ _ mine => .inl mine
  | pruneOldestClaims =>
    simp only [attemptStep] at step
    split at step
    · cases step
    · obtain ⟨-, rfl⟩ := guard_eq_some step
      exact settled.of_step settled.ended fun _ _ mine => .inl mine

theorem settledOnce_reachable (reached : (attemptMachine slots).Reachable SweepApart s) :
    SettledOnce s := by
  refine reached.invariant (fun s first => ?_) fun op s s' before settled apart step => ?_
  · rw [show s = AttemptState.initial from first]
    exact ⟨nodup_nil, fun _ _ mine => by cases mine⟩
  · exact settled.step (attemptInv_reachable before).toAttemptInv apart step

structure AttemptRows where
  claims : List ReceiptClaim
  closures : List ReceiptClosure
  closedReceipts : List ClosedReceipt
  leases : List LeaseRow
  attemptState : List AttemptStateRow
  successors : List SuccessorRow

def AttemptTables.rowsOf (T : AttemptTables) (a : Attempt) : AttemptRows where
  claims := T.claims.filter fun c => c.attempt = a
  closures := T.closures.filter fun k => k.attempt = a
  closedReceipts := T.closedReceipts.filter fun e => T.claims.any fun c => c.attempt = a &&
    c.receiptId = e.receiptId
  leases := T.leases.filter fun lease => lease.attempt = a
  attemptState := T.attemptState.filter fun row => row.attempt = a
  successors := T.successors.filter fun row => row.attempt = a

theorem filter_append_of_none {α : Type*} {p : α → Bool} {old new : List α}
    (none : ∀ v ∈ new, p v = false) : (old ++ new).filter p = old.filter p := by
  have nothing : new.filter p = [] := filter_eq_nil_iff.2 fun v mem =>
    Bool.eq_false_iff.1 (none v mem)
  rw [filter_append, nothing, append_nil]

theorem filter_filter_of_keeps {α : Type*} {p keeps : α → Bool} {rows : List α}
    (kept : ∀ v, p v = true → keeps v = true) : (rows.filter keeps).filter p = rows.filter p := by
  rw [filter_filter]
  refine filter_congr fun v _ => ?_
  by_cases chosen : p v = true
  · rw [chosen, kept v chosen]
    rfl
  · rw [Bool.eq_false_iff.2 chosen, Bool.false_and]

/-- The commit of a closer does not touch an attempt that the closer has not won. -/
theorem WritesOk.rowsOf_commit (ok : WritesOk s t x) (ledger : LedgerOk s.tables)
    (lost : a ∉ x.writes.won) : (commitCloser s t x).tables.rowsOf a = s.tables.rowsOf a := by
  have closures : ∀ k ∈ x.writes.closures, decide (k.attempt = a) = false := fun k mem => by
    obtain ⟨c, -, rfl, -, won⟩ := ok.closures.closureOwner k mem
    exact decide_eq_false fun (same : c.attempt = a) => lost (same ▸ won)
  have receipts : ∀ e ∈ x.writes.closedReceipts,
      (s.tables.claims.any fun c => c.attempt = a && c.receiptId = e.receiptId) = false :=
        fun e mem => by
    obtain ⟨c, present, rfl, won⟩ := ok.closures.receiptOwner e mem
    refine any_eq_false.2 fun d there both => lost ?_
    simp only [Bool.and_eq_true, decide_eq_true_eq] at both
    rw [← both.1, ledger.eq_of_receipt there present both.2]
    exact won
  have successors : ∀ row ∈ x.writes.successors, decide (row.attempt = a) = false := fun row mem =>
    decide_eq_false fun same => lost (same ▸ ok.successors row mem)
  simp only [AttemptTables.rowsOf, commitCloser, AttemptTables.apply, ok.leases, append_nil,
    filter_append_of_none closures, filter_append_of_none receipts,
      filter_append_of_none successors, AttemptRows.mk.injEq,
    true_and, and_true]
  constructor
  · refine filter_filter_of_keeps fun lease mine => decide_eq_true fun deleted => lost ?_
    exact of_decide_eq_true mine ▸ (ok.deleted _ deleted).1
  · refine filter_filter_of_keeps fun row mine => decide_eq_true fun cleared => lost ?_
    exact of_decide_eq_true mine ▸ ok.cleared _ cleared

/-- A closer that has won nothing writes nothing but sweep cursors. -/
theorem WritesOk.tables_of_nothing (ok : WritesOk s t x) (none : x.writes.won = []) :
    (commitCloser s t x).tables = { s.tables with cursors := (commitCloser s t x).tables.cursors
      } := by
  have empty {α : Type} {rows : List α} (owner : ∀ v ∈ rows, ∃ a, a ∈ x.writes.won) : rows = [] :=
    eq_nil_iff_forall_not_mem.2 fun v mem => by
      obtain ⟨a, won⟩ := owner v mem
      rw [none] at won
      exact not_mem_nil won
  have closures : x.writes.closures = [] := empty fun k mem => by
    obtain ⟨c, -, -, -, won⟩ := ok.closures.closureOwner k mem
    exact ⟨_, won⟩
  have receipts : x.writes.closedReceipts = [] := empty fun e mem => by
    obtain ⟨c, -, -, won⟩ := ok.closures.receiptOwner e mem
    exact ⟨_, won⟩
  have deleted : x.writes.deletedLeases = [] := empty fun a mem => ⟨a, (ok.deleted a mem).1⟩
  have cleared : x.writes.clearedState = [] := empty fun a mem => ⟨a, ok.cleared a mem⟩
  have successors : x.writes.successors = [] := empty fun row mem => ⟨_, ok.successors row mem⟩
  simp [commitCloser, AttemptTables.apply, ok.leases, closures, receipts, deleted,
    cleared, successors]

theorem rowsOf_commitMaterializer {leases : List LeaseRow}
    (lost : a ∉ leases.map LeaseRow.attempt) :
    (commitMaterializer s t leases).tables.rowsOf a = s.tables.rowsOf a := by
  have none : ∀ lease ∈ leases, decide (lease.attempt = a) = false := fun lease mem =>
    decide_eq_false fun same => lost (same ▸ mem_map_of_mem mem)
  simp only [AttemptTables.rowsOf, commitMaterializer, filter_append_of_none none]

theorem commit_closer (running : s.tx t = some (.closer x))
    (step : attemptStep slots (.commit t) s = some s') :
    x.script = [] ∧ s' = commitCloser s t x := by
  simp only [attemptStep, commitAttempt, running] at step
  obtain ⟨ended, rfl⟩ := guard_eq_some step
  exact ⟨isEmpty_iff.1 ended, rfl⟩

/-- As long as no rescue tick sweeps up an attempt whose lease it has just deleted: an attempt has
one successor when its claim is closed and none before; an attempt that a running closer has won
belongs to no other closer, is not settled yet, and gets its one successor from the commit; and
the commit of a closer or a materializer leaves every attempt it has lost as it was, down to the
whole of the tables, sweep cursors apart, if it has won nothing. -/
theorem one_successor_per_closed_attempt (reached : (attemptMachine slots).Reachable SweepApart s) :
    (∀ c ∈ s.tables.claims, s.ended.count c.attempt = s.tables.closeCount c) ∧
    (∀ a, s.ended.count a ≤ 1) ∧ (∀ t x, s.tx t = some (.closer x) → ∀ a ∈ x.writes.won,
      a ∉ s.ended ∧ ∀ u y, s.tx u = some (.closer y) → a ∈ y.writes.won → u = t) ∧
    (∀ t x s', s.tx t = some (.closer x) → attemptStep slots (.commit t) s = some s' →
      (∀ a ∈ x.writes.won, s'.ended.count a = 1) ∧
      (∀ a, a ∉ x.writes.won → s'.ended.count a = s.ended.count a ∧ s'.tables.rowsOf a =
      s.tables.rowsOf a) ∧
      (x.writes.won = [] → s'.tables = { s.tables with cursors := s'.tables.cursors })) ∧
    ∀ t leases s', s.tx t = some (.materializer (.inserted leases)) →
      attemptStep slots (.commit t) s = some s' → s'.ended = s.ended ∧
        (∀ a, a ∉ leases.map LeaseRow.attempt → s'.tables.rowsOf a = s.tables.rowsOf a) ∧
      (leases = [] → s'.tables = s.tables) := by
  have inv := (attemptInv_reachable reached).toAttemptInv
  have settled := settledOnce_reachable reached
  refine ⟨fun c member => ?_, List.nodup_iff_count_le_one.1 settled.ended,
    fun t x running a won => ⟨?_, ?_⟩,
    fun t x s' running stepped => ?_, fun t leases s' running stepped => ?_⟩
  · have once := inv.ledger.once c member
    by_cases ended : c.attempt ∈ s.ended
    · rw [List.count_eq_one_of_mem settled.ended ended, (inv.ended _ ended).2 c member rfl]
    · have open_ : s.tables.closeCount c ≠ 1 := fun closed => ended (inv.closed c member closed)
      rw [List.count_eq_zero.2 ended]
      omega
  · exact ((inv.closer running).won a won).unsettled
  · intro u y other too
    exact ((inv.closer other).held too).unique ((inv.closer running).held won)
  · have ok := inv.closer running
    obtain ⟨ended, rfl⟩ := commit_closer running stepped
    refine ⟨fun a won => ?_, fun a lost => ⟨?_, ok.rowsOf_commit inv.ledger lost⟩,
      ok.tables_of_nothing⟩
    · have after := (settled.commitCloser inv running).ended
      refine List.count_eq_one_of_mem after ?_
      have accounted := ok.accounted a won
      rw [ok.settled ended] at accounted
      rw [ended_commitCloser]
      exact List.mem_append_right _ (accounted.resolve_left not_mem_nil)
    · rw [ended_commitCloser, List.count_append, Nat.add_eq_left, List.count_eq_zero]
      intro written
      obtain ⟨row, member, rfl⟩ := mem_map.1 written
      exact lost (ok.successors row member)
  · simp only [attemptStep, commitAttempt, running] at stepped
    cases stepped
    refine ⟨rfl, fun a => rowsOf_commitMaterializer, fun none => ?_⟩
    simp [commitMaterializer, none]

/-- One tick rescues a stale lease and, from the other slot of the ring, a stale receipt; a
completion of the receipt comes too late. -/
def rescuedApart : List AttemptOp :=
  [.claim [⟨7, 0, some 1, ⟨0, 0⟩, 5, none⟩], .beginMaterialize 1 [⟨7, 1⟩], .statement 1,
   .statement 1, .commit 1, .rotateClaims, .claim [⟨8, 0, some 2, ⟨0, 0⟩, 6, none⟩],
     .beginClose 2 (.rescueStaleHeartbeats [⟨7, 1⟩] 100 [1] [] fun _ => .deferred),
   .statement 2, .statement 2, .statement 2, .statement 2, .statement 2, .commit 2,
   .beginClose 3 (.completeReceiptRuntimeBatchFast [[⟨⟨8, 1⟩, some 1⟩]]), .statement 3,
     .statement 3, .statement 3, .commit 3]

theorem one_successor_per_closed_attempt_sample :
    ∃ s : AttemptState, (attemptMachine 2).Reachable SweepApart s ∧
      s.tables.claims.map ReceiptClaim.attempt = [⟨7, 1⟩, ⟨8, 1⟩] ∧ s.tables.leases = [] ∧
        s.ended = [⟨7, 1⟩, ⟨8, 1⟩] ∧ ∀ c ∈ s.tables.claims, s.ended.count c.attempt =
        s.tables.closeCount c := by
  obtain ⟨s, reached, claims, leases, ended⟩ :=
    Machine.reachable_of_run (attemptMachine 2) SweepApart rescuedApart
      (fun s => s.tables.claims.map ReceiptClaim.attempt = [⟨7, 1⟩, ⟨8, 1⟩] ∧ s.tables.leases = [] ∧
      s.ended = [⟨7, 1⟩, ⟨8, 1⟩])
    rfl (by decide)
  exact ⟨s, reached, claims, leases, ended, (one_successor_per_closed_attempt reached).1⟩

/-- A stale attempt that was materialized. The tick deletes its lease, and its own sweep then finds
the receipt open and without a lease. -/
def rescuedTwice : List AttemptOp :=
  [.claim [⟨7, 0, some 1, ⟨0, 0⟩, 5, none⟩], .beginMaterialize 1 [⟨7, 1⟩], .statement 1,
   .statement 1, .commit 1,
   .beginClose 2 (.rescueStaleHeartbeats [⟨7, 1⟩] 100 [0] [] fun _ => .deferred),
   .statement 2, .statement 2, .statement 2, .statement 2, .statement 2, .commit 2]

def losingTick : List AttemptOp :=
  [.claim [⟨7, 0, some 1, ⟨0, 0⟩, 5, none⟩],
   .beginClose 1 (.completeReceiptRuntimeBatchFast [[⟨⟨7, 1⟩, some 0⟩]]),
   .statement 1, .statement 1, .statement 1, .commit 1,
   .beginClose 2 (.rescueStaleHeartbeats [] 100 [0] [] fun _ => .deferred),
   .statement 2, .statement 2, .statement 2, .statement 2, .statement 2]

def movesCursorOnly (s : AttemptState) (t : TxId) : Bool :=
  match s.tx t, attemptStep 2 (.commit t) s with
  | some (.closer x), some s' =>
    decide (x.writes.won = []) && decide (s.tables.cursors .heartbeat 0 = ⟨0, 0, 0⟩) &&
      decide (s'.tables.cursors .heartbeat 0 = ⟨5, 7, 1⟩)
  | _, _ => false

/-- The tick rescues its attempt twice and leaves a retry next to a cancelled row, and a tick that
has lost every attempt still moves the sweep cursor in `claim_ring_slots`. -/
theorem rescue_tick_settles_twice :
      (∃ s : AttemptState, (attemptMachine 2).Reachable Machine.Always s ∧
    s.settled = [⟨⟨7, 1⟩, .deferred⟩, ⟨⟨7, 1⟩, .done⟩] ∧ s.tables.successors =
    [⟨⟨7, 1⟩, .deferred⟩, ⟨⟨7, 1⟩, .done⟩]) ∧
      ∃ s : AttemptState, (attemptMachine 2).Reachable Machine.Always s ∧
      movesCursorOnly s 2 = true := by
  constructor
  · obtain ⟨s, reached, hit⟩ := Machine.reachable_of_run
      (attemptMachine 2) Machine.Always rescuedTwice
      (fun s => decide (s.settled = [⟨⟨7, 1⟩, .deferred⟩, ⟨⟨7, 1⟩, .done⟩]) &&
        decide (s.tables.successors = [⟨⟨7, 1⟩, .deferred⟩, ⟨⟨7, 1⟩, .done⟩])) rfl (by decide)
    rw [Bool.and_eq_true, decide_eq_true_eq, decide_eq_true_eq] at hit
    exact ⟨s, reached, hit⟩
  · exact Machine.reachable_of_run (attemptMachine 2) Machine.Always losingTick
      (fun s => movesCursorOnly s 2) rfl (by decide)

end AwaQueue
