import AwaQueue.Terminal.Completion

/-! What terminal rows read back. A done row leaves most columns to its ready row and finds that row
by the whole key, so a row stored under another priority reads back the defaults, or another job. -/

namespace AwaQueue

open Option List Library
variable {s s' : RowStore} {mode : Bool} {a : Attempt} {x : ClaimedRuntimeJob} {c : Receipt}
  {lease : LeaseEntry} {row : ReadyEntry} {d : DoneEntry} {now : Nat} {moved : LeaseTransitionRow}
    {columns : AttemptColumns}

structure PermanentColumns where
  kind : String
  args : String
  maxAttempts : Nat
  createdAt : Nat
  uniqueKey : Option String
  uniqueStates : Option String
deriving DecidableEq

def HydratedColumns.permanent (columns : HydratedColumns) : PermanentColumns :=
  ⟨columns.kind, columns.args, columns.maxAttempts, columns.createdAt, columns.uniqueKey,
    columns.uniqueStates⟩

def JobColumns.permanent (job : JobColumns) : PermanentColumns :=
  ⟨job.kind, job.args, job.maxAttempts, job.createdAt, job.uniqueKey, job.uniqueStates⟩

def DlqJobRow.permanent (row : DlqJobRow) : PermanentColumns :=
  ⟨row.kind, row.args, row.maxAttempts, row.createdAt, row.uniqueKey, row.uniqueStates⟩

def RowStore.Took (s : RowStore) (row : ReadyEntry) (a : Attempt) : Prop :=
  ∃ x, (row, x) ∈ s.claimed ∧ x.job.attempt = a

def AttemptColumns.OwnLane (c : AttemptColumns) : Prop := c.lane = c.source.lane

def RowStore.Agreeing (s : RowStore) (c : AttemptColumns) : Prop :=
  ∀ row ∈ s.lookalikes c, row.job.permanent = c.source.job.permanent

def RowStore.OneShard (s : RowStore) (c : AttemptColumns) : Prop :=
  ∀ row ∈ s.lookalikes c, row.lane.enqueueShard = c.lane.enqueueShard

/-- A step that settles an attempt through its receipt or lease finds the own ready row of the
attempt, and a prune empties a slot that holds the generation its gates looked at. -/
def KeepsBacking (op : RowOp) (s : RowStore) : Prop :=
  match op with
  | .settle a _ (.terminal _) _ => ∀ c ∈ s.runningOf a, c.OwnLane ∧ s.Agreeing c
  | .settle a _ .dlq _ => ∀ c ∈ s.runningOf a, s.Agreeing c
  | .cancelReceipt a _ => ∀ c ∈ s.runningOf a, c.OwnLane ∧ s.Agreeing c ∧ s.OneShard c
  | .completeClaimedBatch claims _ => ∀ lease ∈ s.leases, claims.any lease.enteredAs = true →
      lease.OwnLane ∧ s.Agreeing lease.toAttemptColumns
  | .prune slot generation _ _ =>
    ∀ row ∈ s.ready, row.ref.slot = slot → row.ref.generation = generation
  | _ => True

instance (c : AttemptColumns) : Decidable c.OwnLane := inferInstanceAs (Decidable (_ = _))

instance (s : RowStore) (c : AttemptColumns) : Decidable (s.Agreeing c) :=
  inferInstanceAs (Decidable (∀ row ∈ _, _))

instance (s : RowStore) (c : AttemptColumns) : Decidable (s.OneShard c) :=
  inferInstanceAs (Decidable (∀ row ∈ _, _))

instance (op : RowOp) (s : RowStore) : Decidable (KeepsBacking op s) := by
  unfold KeepsBacking
  split <;> infer_instance

def DoneEntry.Slim (d : DoneEntry) : Prop :=
  d.args = none ∧ d.maxAttempts = none ∧ d.runAt = none ∧ d.createdAt = none ∧ d.uniqueKey = none ∧
    d.uniqueStates = none

def DoneEntry.Wide (d : DoneEntry) (row : ReadyEntry) : Prop :=
  d.args = some row.job.args ∧ d.maxAttempts = some row.job.maxAttempts ∧ d.runAt = some row.runAt ∧
    d.createdAt = some row.job.createdAt ∧ d.uniqueKey = row.job.uniqueKey ∧
      d.uniqueStates = row.job.uniqueStates

/-- A done row of an attempt has the lane and number of the ready row the attempt took, and finds
that row or carries its columns. -/
structure DoneOk (s : RowStore) (d : DoneEntry) (row : ReadyEntry) : Prop where
  took : s.Took row d.attempt
  lane : d.lane = row.lane
  laneSeq : d.laneSeq = row.laneSeq
  kind : d.kind = row.job.kind
  columns : (d.ref = row.ref ∧ row ∈ s.ready ∧ d.Slim) ∨ d.Wide row

def DoneRowOk (s : RowStore) (d : DoneEntry) : Prop :=
  match d.source with
  | some row => DoneOk s d row
  | none => d.args.isSome = true

structure CompletionOk (s : RowStore) (c : CompletionEntry) : Prop where
  took : s.Took c.source c.attempt
  key : c.key = c.source.key
  stored : c.source ∈ s.ready
  job : c.attempt.jobId = c.source.job.jobId

def DlqOk (s : RowStore) (e : DlqJobRow) : Prop :=
  ∀ row, e.source = some row → s.Took row e.attempt ∧ e.permanent = row.job.permanent

structure HydrationOk (s : RowStore) : Prop where
  receipts : ∀ c ∈ s.receipts, c.source ∈ s.ready
  leases : ∀ lease ∈ s.leases, lease.source ∈ s.ready
  done : ∀ d ∈ s.done, DoneRowOk s d
  completions : ∀ c ∈ s.completions, CompletionOk s c
  dlq : ∀ e ∈ s.dlq, DlqOk s e

theorem StoreOk.row_eq (ok : StoreOk mode s) {other : ReadyEntry} (took : s.Took row a)
    (mem : other ∈ s.ready)
    (lane : other.lane = row.lane) (laneSeq : other.laneSeq = row.laneSeq) : other = row := by
  obtain ⟨x, logged, -⟩ := took
  exact ok.same (row, x) logged other mem (Prod.ext lane laneSeq)

theorem StoreOk.readDone_hydrated (ok : StoreOk mode s) (done : DoneOk s d row) :
    (s.readDone d).hydrated = row.hydrated := by
  have joined : ∀ found, s.doneReadyJoin d = some found → found = row := by
    intro found first
    have keys := find?_some first
    simp only [decide_eq_true_eq, ReadyRow.key, DoneEntry.key, ReadyTombstone.mk.injEq] at keys
    exact ok.row_eq done.took (mem_of_find?_eq_some first) (keys.1.trans done.lane)
      (keys.2.1.trans done.laneSeq)
  rcases done.columns with ⟨ref, mem, slim⟩ | wide
  · obtain ⟨found, first⟩ : ∃ found, s.doneReadyJoin d = some found := by
      refine isSome_iff_exists.1 (find?_isSome.2 ⟨row, mem, decide_eq_true ?_⟩)
      simp only [ReadyRow.key, DoneEntry.key, done.lane, done.laneSeq, ref]
    obtain rfl := joined found first
    obtain ⟨args, maxAttempts, runAt, createdAt, uniqueKey, uniqueStates⟩ := slim
    simp [RowStore.readDone, first, doneRowProjection, DoneJobRow.hydrated, ReadyRow.hydrated,
      done.kind, args, maxAttempts, runAt, createdAt, uniqueKey, uniqueStates]
  · obtain ⟨args, maxAttempts, runAt, createdAt, uniqueKey, uniqueStates⟩ := wide
    have unique : ∀ column : ReadyEntry → Option String,
        (column row <|> (s.doneReadyJoin d).bind column) = column row := by
      intro column
      cases join : s.doneReadyJoin d with
      | none => simp
      | some found =>
        obtain rfl := joined found join
        cases value : column found <;> simp [value]
    have key := unique fun row => row.job.uniqueKey
    have states := unique fun row => row.job.uniqueStates
    simp only [RowStore.readDone, doneRowProjection, DoneJobRow.hydrated, ReadyRow.hydrated,
      done.kind, args, maxAttempts, runAt, createdAt, uniqueKey, uniqueStates, key, states]
    rfl

theorem StoreOk.readCompletion_hydrated (ok : StoreOk mode s) {c : CompletionEntry}
    (compact : CompletionOk s c) :
    ∃ shown, s.readCompletion c = some shown ∧ shown.hydrated = c.source.hydrated := by
  have found : (s.ready.find? fun row => row.key = c.key && row.job.jobId =
      c.attempt.jobId).isSome = true :=
    find?_isSome.2 ⟨c.source, compact.stored, by simp [compact.key, compact.job]⟩
  obtain ⟨row, first⟩ := isSome_iff_exists.1 found
  have keys := find?_some first
  simp only [Bool.and_eq_true, decide_eq_true_eq, compact.key, ReadyRow.key,
    ReadyTombstone.mk.injEq] at keys
  obtain rfl := ok.row_eq compact.took (mem_of_find?_eq_some first) keys.1.1 keys.1.2.1
  exact ⟨completionProjection c c.source, by rw [RowStore.readCompletion, first]; rfl, rfl⟩

theorem permanent_retryColumns (shown : DoneJobRow) (payload : RuntimePayload) :
    (shown.retryColumns payload).permanent = shown.hydrated.permanent := rfl

theorem permanent_intoDlqRow (shown : DoneJobRow) (source : Option ReadyEntry) :
    (shown.intoDlqRow source).permanent = shown.hydrated.permanent := rfl

theorem StoreOk.readDone_permanent (ok : StoreOk mode s) (done : DoneOk s d row) :
    (s.readDone d).hydrated.permanent = row.job.permanent := by
  rw [ok.readDone_hydrated done]
  rfl

structure ColumnsOk (s : RowStore) (c : AttemptColumns) : Prop where
  took : s.Took c.source c.attempt
  columns : c = c.source.columns c.lane.priority

theorem ColumnsOk.of_entry (ok : StoreOk mode s) {entry : ReadyEntry × ClaimedRuntimeJob}
    (logged : entry ∈ s.claimed) (same : columns = entry.1.columns entry.2.job.priority) :
    ColumnsOk s columns := by
  subst same
  exact ⟨⟨entry.2, logged, (ok.handed entry logged).attempt⟩, rfl⟩

theorem StoreOk.receipt_columns (ok : StoreOk mode s) (mem : c ∈ s.receipts) :
    ColumnsOk s c.toAttemptColumns := by
  obtain ⟨entry, logged, columns, -⟩ := ok.receipts c mem
  exact .of_entry ok logged columns

theorem StoreOk.lease_columns (ok : StoreOk mode s) (mem : lease ∈ s.leases) :
    ColumnsOk s lease.toAttemptColumns := by
  obtain ⟨entry, logged, columns, -⟩ := ok.leases lease mem
  exact .of_entry ok logged columns

section Columns
variable {columns : AttemptColumns} (ok : ColumnsOk s columns)
include ok

theorem ColumnsOk.ref : columns.ref = columns.source.ref := by
  rw [ok.columns]
  rfl

theorem ColumnsOk.laneSeq : columns.laneSeq = columns.source.laneSeq := by
  rw [ok.columns]
  rfl

theorem ColumnsOk.maxAttempts : columns.maxAttempts = columns.source.job.maxAttempts := by
  rw [ok.columns]
  rfl

end Columns

theorem RowStore.Took.mono (took : s.Took row a) (claimed : s.claimed ⊆ s'.claimed) :
    s'.Took row a := by
  obtain ⟨x, logged, same⟩ := took
  exact ⟨x, claimed logged, same⟩

theorem DoneOk.mono (done : DoneOk s d row) (claimed : s.claimed ⊆ s'.claimed)
    (ready : d.ref = row.ref → row ∈ s.ready → row ∈ s'.ready) : DoneOk s' d row where
  __ := done
  took := done.took.mono claimed
  columns := done.columns.imp_left fun slim => ⟨slim.1, ready slim.1 slim.2.1, slim.2.2⟩

theorem DoneRowOk.mono (done : DoneRowOk s d) (claimed : s.claimed ⊆ s'.claimed)
    (ready : ∀ row ∈ s.ready, d.ref = row.ref → row ∈ s'.ready) : DoneRowOk s' d := by
  unfold DoneRowOk at done ⊢
  split at done
  · next row _ => exact done.mono claimed fun ref mem => ready row mem ref
  · exact done

theorem CompletionOk.mono {c : CompletionEntry} (compact : CompletionOk s c)
    (claimed : s.claimed ⊆ s'.claimed) (ready : c.source ∈ s'.ready) : CompletionOk s' c :=
  ⟨compact.took.mono claimed, compact.key, ready, compact.job⟩

theorem DlqOk.mono {e : DlqJobRow} (dlq : DlqOk s e) (claimed : s.claimed ⊆ s'.claimed) :
    DlqOk s' e :=
  fun row source => (dlq row source).imp_left fun took => took.mono claimed

theorem HydrationOk.update (hyd : HydrationOk s) (claimed : s.claimed ⊆ s'.claimed)
    (ready : s.ready ⊆ s'.ready)
    (receipts : ∀ c ∈ s'.receipts, c ∈ s.receipts ∨ c.source ∈ s'.ready)
    (leases : ∀ lease ∈ s'.leases, lease ∈ s.leases ∨ lease.source ∈ s'.ready)
    (done : ∀ d ∈ s'.done, d ∈ s.done ∨ DoneRowOk s' d)
    (completions : ∀ c ∈ s'.completions, c ∈ s.completions ∨ CompletionOk s' c)
    (dlq : ∀ e ∈ s'.dlq, e ∈ s.dlq ∨ DlqOk s' e) : HydrationOk s' where
  receipts c mem := (receipts c mem).elim (fun old => ready (hyd.receipts c old)) id
  leases lease mem := (leases lease mem).elim (fun old => ready (hyd.leases lease old)) id
  done d mem := (done d mem).elim (fun old => (hyd.done d old).mono claimed fun _ stored _ =>
    ready stored) id
  completions c mem := (completions c mem).elim
    (fun old => (hyd.completions c old).mono claimed (ready (hyd.completions c old).stored)) id
  dlq e mem := (dlq e mem).elim (fun old => (hyd.dlq e old).mono claimed) id

def WrittenOk (s : RowStore) : Written → Prop
  | .done d => DoneRowOk s d
  | .completion c => CompletionOk s c
  | .dlq e => DlqOk s e

theorem HydrationOk.settle {P : Written → Prop} (hyd : HydrationOk s) (settles : Settles P s s')
    (fits : ∀ w, P w → WrittenOk s w) : HydrationOk s' := by
  have claimed : s.claimed ⊆ s'.claimed := settles.less.claimed ▸ fun _ => id
  have ready : s.ready ⊆ s'.ready := settles.ready ▸ fun _ => id
  refine hyd.update claimed ready (fun _ mem => .inl (settles.less.receipts.subset mem))
    (fun _ mem => .inl (settles.less.leases.subset mem)) (fun d mem => ?_)
      (fun c mem => ?_) fun e mem => ?_
  · refine (settles.done d mem).imp_right fun new => ?_
    have done : DoneRowOk s d := fits _ new
    exact done.mono claimed fun _ stored _ => ready stored
  · refine (settles.completions c mem).imp_right fun new => ?_
    have compact : CompletionOk s c := fits _ new
    exact compact.mono claimed (ready compact.stored)
  · refine (settles.dlq e mem).imp_right fun new => ?_
    have dlq : DlqOk s e := fits _ new
    exact dlq.mono claimed

theorem StoreOk.runningOf (ok : StoreOk mode s) (hyd : HydrationOk s)
    (running : columns ∈ s.runningOf a) : ColumnsOk s columns ∧ columns.source ∈ s.ready := by
  rcases mem_append.1 running with receipt | lease
  · obtain ⟨c, there, rfl⟩ := mem_map.1 receipt
    have mem := (mem_filter.1 there).1
    exact ⟨ok.receipt_columns mem, hyd.receipts c mem⟩
  · obtain ⟨l, there, rfl⟩ := mem_map.1 lease
    have mem := (mem_filter.1 there).1
    exact ⟨ok.lease_columns mem, hyd.leases l mem⟩

theorem runningOf_attempt (running : columns ∈ s.runningOf a) : columns.attempt = a := by
  rcases mem_append.1 running with receipt | lease
  · obtain ⟨c, there, rfl⟩ := mem_map.1 receipt
    exact of_decide_eq_true (mem_filter.1 there).2
  · obtain ⟨l, there, rfl⟩ := mem_map.1 lease
    exact of_decide_eq_true (mem_filter.1 there).2

theorem HydrationOk.completed (hyd : HydrationOk s) (ok : StoreOk mode s)
    {batch : List ClaimedRuntimeJob} (handed : ∀ x ∈ batch, x ∈ s.handedOut) {w : Written}
    (new : CompletedRow s batch now w) : WrittenOk s w := by
  -- the source of the receipt or lease is the row that the claim took
  have source {x : ClaimedRuntimeJob} {columns : AttemptColumns} (mem : x ∈ batch)
      (running : columns ∈ s.runningOf x.job.attempt) : HandedOut mode columns.source x ∧
        (columns.source, x) ∈ s.claimed ∧ columns.source ∈ s.ready := by
    obtain ⟨facts, stored⟩ := ok.runningOf hyd running
    obtain ⟨row, logged, given⟩ := ok.entry_of (handed x mem)
    obtain ⟨y, logged', same⟩ := facts.took
    obtain rfl : columns.source = row :=
      congrArg Prod.fst (ok.entry_eq logged' logged (same.trans (runningOf_attempt running)))
    exact ⟨given, logged, stored⟩
  cases new with
  | @done x columns mem running =>
    obtain ⟨given, logged, stored⟩ := source mem running
    have key := intoDoneRow_key given now
    simp only [DoneJobRow.key, ClaimedRuntimeJob.key, ReadyTombstone.mk.injEq, given.lane,
      given.laneSeq, given.ref] at key
    have done : DoneOk s ((x.intoDoneRow now).entry true (some columns.source)) columns.source :=
      ⟨⟨x, logged, rfl⟩, key.1, key.2.1, congrArg JobRow.kind given.job,
        .inl ⟨key.2.2, stored, rfl, rfl, rfl, rfl, rfl, rfl⟩⟩
    exact done
  | @compact x columns mem running =>
    obtain ⟨given, logged, stored⟩ := source mem running
    have own : x.key = columns.source.key := by
      simp only [ClaimedRuntimeJob.key, ReadyRow.key, given.lane, given.laneSeq, given.ref]
    have compact : CompletionOk s (x.completion now columns.source) :=
      ⟨⟨x, logged, rfl⟩, (intoDoneRow_key given now).trans own, stored,
        congrArg Attempt.jobId given.attempt⟩
    exact compact

theorem hydrate_lookalike (found : s.hydrate columns = some moved) :
    moved.ready ∈ s.lookalikes columns := by
  obtain ⟨ready, last, rfl⟩ := map_eq_some_iff.1 found
  obtain ⟨mem, matched⟩ := mem_filter.1 (mem_of_getLast? last)
  simp only [Bool.and_eq_true, decide_eq_true_eq] at matched
  exact mem_filter.2 ⟨mem, by simp [matched]⟩

/-- An attempt that is hydrated under its own lane leaves a done row with the key of its ready row.
-/
theorem ColumnsOk.doneOk (ok : ColumnsOk s columns)
    (stored : columns.source ∈ s.ready) (own : columns.OwnLane) (agree : s.Agreeing columns)
    (found : s.hydrate columns = some moved) (state : TerminalState) (now : Nat) :
    DoneOk s ((moved.intoDoneRow state now).entry true (some columns.source)) columns.source := by
  have kind := congrArg PermanentColumns.kind (agree _ (hydrate_lookalike found))
  have key := intoDoneRow_key_of_hydrate found state now
  simp only [DoneJobRow.key, ReadyTombstone.mk.injEq] at key
  obtain ⟨rfl, -, -⟩ := hydrate_columns found
  exact ⟨ok.took, key.1.trans own, key.2.1.trans ok.laneSeq, kind,
    .inl ⟨key.2.2.trans ok.ref, stored, rfl, rfl, rfl, rfl, rfl, rfl⟩⟩

theorem ColumnsOk.dlqOk (ok : ColumnsOk s columns)
    (agree : s.Agreeing columns) (found : s.hydrate columns = some moved) :
    DlqOk s moved.intoDlqRow := by
  have permanent := agree _ (hydrate_lookalike found)
  obtain ⟨rfl, -, -⟩ := hydrate_columns found
  intro row source
  cases source
  refine ⟨ok.took, ?_⟩
  simp only [JobColumns.permanent, PermanentColumns.mk.injEq] at permanent
  simp only [DlqJobRow.permanent, JobColumns.permanent, LeaseTransitionRow.intoDlqRow,
    ok.maxAttempts, permanent]

theorem HydrationOk.settleAttempt (hyd : HydrationOk s) (ok : StoreOk mode s) {waiting : Bool}
    {disposition : Disposition} (keeps : KeepsBacking (.settle a waiting disposition now) s)
    (settled : settleAttempt mode s a waiting disposition now = some s') : HydrationOk s' := by
  refine hyd.settle (settleAttempt_settles settled) ?_
  rintro w ⟨columns, running, new⟩
  obtain ⟨facts, stored⟩ := ok.runningOf hyd running
  cases new with
  | terminal found =>
    exact facts.doneOk stored (keeps columns running).1 (keeps columns running).2 found _ now
  | dlq found => exact facts.dlqOk (keeps columns running) found

theorem HydrationOk.cancelReceipt (hyd : HydrationOk s) (ok : StoreOk mode s)
    (keeps : KeepsBacking (.cancelReceipt a now) s) (cancelled : cancelReceipt s a now = some s') :
    HydrationOk s' := by
  refine hyd.settle (cancelReceipt_settles cancelled) ?_
  rintro w ⟨c, mem, same, ready, alike, rfl⟩
  have running := mem_runningOf_receipt mem same
  obtain ⟨own, agree, shard⟩ := keeps _ running
  obtain ⟨facts, stored⟩ := ok.runningOf hyd running
  have lane : { c.lane with enqueueShard := ready.lane.enqueueShard } = c.source.lane := by
    rw [shard ready alike]
    exact own
  have new : DoneOk s ((c.cancelledRow ready now).entry true (some c.source)) c.source :=
    ⟨facts.took, lane, facts.laneSeq, congrArg PermanentColumns.kind (agree ready alike),
      .inl ⟨facts.ref, stored, rfl, rfl, rfl, rfl, rfl, rfl⟩⟩
  exact new

theorem HydrationOk.completeClaimedBatch (hyd : HydrationOk s) (ok : StoreOk mode s)
    {claims : List ClaimedEntry} (keeps : KeepsBacking (.completeClaimedBatch claims now) s) :
    HydrationOk (completeClaimedBatch s claims now).1 := by
  refine hyd.settle (completeClaimedBatch_settles claims now) ?_
  rintro w ⟨lease, stored, entered, ⟨found⟩⟩
  obtain ⟨own, agree⟩ := keeps lease stored entered
  exact (ok.lease_columns stored).doneOk (hyd.leases lease stored) own agree found .completed now

theorem HydrationOk.enqueue (hyd : HydrationOk s) (lane : Lane) (ref : RingRef) (runAt : Nat)
    (job : JobColumns) : HydrationOk (s.enqueue lane ref runAt job) :=
  hyd.update (fun _ => id) (fun _ => mem_append_left _) (fun _ => .inl) (fun _ => .inl)
    (fun _ => .inl) (fun _ => .inl) fun _ => .inl

theorem HydrationOk.insertLease (hyd : HydrationOk s) (stored : columns.source ∈ s.ready)
    (inserted : s.insertLease columns = some s') : HydrationOk s' := by
  obtain ⟨-, rfl⟩ := guard_eq_some inserted
  exact hyd.update (fun _ => id) (fun _ => id) (fun _ => .inl)
    (forall_mem_concat (fun _ => .inl) (.inr stored)) (fun _ => .inl) (fun _ => .inl) fun _ => .inl

theorem HydrationOk.claim (hyd : HydrationOk s) {priority claimSlot : Nat}
    {batch : Option (Nat × Nat)}
    (claimed : s.claim mode row priority claimSlot batch = some s') : HydrationOk s' := by
  obtain ⟨⟨mem, -⟩, claimed⟩ := ite_none_right_eq_some.1 claimed
  split at claimed
  · cases claimed
    exact hyd.update (fun _ => mem_append_left _) (fun _ => id)
      (forall_mem_concat (fun _ => .inl) (.inr mem))
      (fun _ => .inl) (fun _ => .inl) (fun _ => .inl) fun _ => .inl
  · refine HydrationOk.insertLease ?_ ?_ claimed
    · exact hyd.update (fun _ => mem_append_left _) (fun _ => id) (fun _ => .inl) (fun _ => .inl)
        (fun _ => .inl) (fun _ => .inl) fun _ => .inl
    · exact mem

theorem HydrationOk.materialize (hyd : HydrationOk s) (done : s.materialize a = some s') :
    HydrationOk s' := by
  rw [RowStore.materialize] at done
  split at done
  · next c found => exact hyd.insertLease (hyd.receipts c (mem_of_find?_eq_some found)) done
  · exact absurd done.symm (some_ne_none _)

theorem HydrationOk.remove (hyd : HydrationOk s) (done : List DoneEntry)
    (synthetic : List SyntheticRow)
    (dlq : List DlqJobRow) (deferred : List Attempt) (leaseSlot : Nat) (lessDone : done ⊆ s.done)
    (lessDlq : dlq ⊆ s.dlq) : HydrationOk { s with done, synthetic, dlq, deferred, leaseSlot } :=
  hyd.update (fun _ => id) (fun _ => id) (fun _ => .inl) (fun _ => .inl)
    (fun _ mem => .inl (lessDone mem)) (fun _ => .inl) fun _ mem => .inl (lessDlq mem)

theorem StoreOk.dlqOk_readDone (ok : StoreOk mode s) (done : DoneRowOk s d) :
    DlqOk s ((s.readDone d).intoDlqRow d.source) := by
  intro row source
  have source : d.source = some row := source
  rw [DoneRowOk, source] at done
  exact ⟨done.took, (permanent_intoDlqRow _ _).trans (ok.readDone_permanent done)⟩

theorem HydrationOk.moveFailedToDlq (hyd : HydrationOk s) (ok : StoreOk mode s)
    (moved : s.moveFailedToDlq d = some s') : HydrationOk s' := by
  obtain ⟨⟨mem, -⟩, rfl⟩ := guard_eq_some moved
  exact hyd.update (fun _ => id) (fun _ => id) (fun _ => .inl) (fun _ => .inl)
    (fun _ kept => .inl (mem_of_mem_erase kept)) (fun _ => .inl)
    (forall_mem_concat (fun _ => .inl) (.inr ((ok.dlqOk_readDone (hyd.done d mem)).mono fun _ =>
      id)))

theorem StoreOk.doneRowOk_carried (ok : StoreOk mode s) (done : DoneRowOk s d) (current : RingRef) :
    DoneRowOk s (s.carried current d) := by
  unfold DoneRowOk at done ⊢
  split at done
  · next row source =>
    have columns := ok.readDone_hydrated done
    have kept : (s.readDone d).toKeptColumns = row.hydrated.toKeptColumns :=
      congrArg HydratedColumns.toKeptColumns columns
    simp only [RowStore.carried, DoneJobRow.entry, source]
    exact ⟨done.took, done.lane, done.laneSeq, congrArg HydratedColumns.kind columns,
      .inr ⟨congrArg some (congrArg KeptColumns.args kept),
        congrArg some (congrArg KeptColumns.maxAttempts kept),
        congrArg some (congrArg KeptColumns.runAt kept),
        congrArg some (congrArg KeptColumns.createdAt kept),
        congrArg KeptColumns.uniqueKey kept, congrArg KeptColumns.uniqueStates kept⟩⟩
  · next source =>
    simp only [RowStore.carried, DoneJobRow.entry, source]
    rfl

theorem HydrationOk.prune (hyd : HydrationOk s) (ok : StoreOk mode s) {slot generation : Nat}
    {current : RingRef}
    {kept : DoneEntry → Bool} (keeps : KeepsBacking (.prune slot generation current kept) s)
    (pruned : s.prune slot generation current kept = some s') : HydrationOk s' := by
  obtain ⟨⟨elsewhere, noLease, noReceipt, -⟩, rfl⟩ := guard_eq_some pruned
  -- the source of a running attempt does not stand in the slot, or the gates would have seen the
  -- attempt
  have source : ∀ {columns : AttemptColumns}, ColumnsOk s columns → columns.source ∈ s.ready →
      columns.ref ≠ ⟨slot, generation⟩ → columns.source.ref.slot ≠ slot := by
    intro columns facts stored unseen same
    refine unseen (facts.ref.trans ?_)
    rw [← same, ← keeps columns.source stored same]
  constructor
  · intro c mem
    have unseen := of_decide_eq_true (all_eq_true.1 noReceipt c mem)
    exact mem_filter.2 ⟨hyd.receipts c mem,
      decide_eq_true (source (ok.receipt_columns mem) (hyd.receipts c mem) unseen)⟩
  · intro lease mem
    have unseen := of_decide_eq_true (all_eq_true.1 noLease lease mem)
    exact mem_filter.2 ⟨hyd.leases lease mem,
      decide_eq_true (source (ok.lease_columns mem) (hyd.leases lease mem) unseen)⟩
  · intro d mem
    rcases mem_append.1 mem with stays | moved
    · obtain ⟨old, away⟩ := mem_filter.1 stays
      refine (hyd.done d old).mono (fun _ => id) fun row stored same => mem_filter.2 ⟨stored, ?_⟩
      rw [← same]
      exact away
    · obtain ⟨old, there, rfl⟩ := mem_map.1 moved
      refine (ok.doneRowOk_carried (hyd.done old (mem_filter.1 there).1) current).mono (fun _ => id)
        fun row stored same => mem_filter.2 ⟨stored, ?_⟩
      rw [← same]
      exact decide_eq_true elsewhere
  · intro c mem
    obtain ⟨old, away⟩ := mem_filter.1 mem
    have compact := hyd.completions c old
    refine compact.mono (fun _ => id) (mem_filter.2 ⟨compact.stored, ?_⟩)
    rw [show c.source.ref = c.ref from (congrArg ReadyTombstone.ref compact.key).symm]
    exact away
  · exact fun e mem => (hyd.dlq e mem).mono fun _ => id

theorem HydrationOk.syncUnique (hyd : HydrationOk s) {jobId : Nat} {unique : UniqueColumns}
    {old new : Option JobState}
    (synced : s.syncUnique jobId unique old new = some s') : HydrationOk s' :=
  hyd.settle (syncUnique_settles (P := fun _ => False) synced) fun _ => False.elim

theorem HydrationOk.step {op : RowOp} (hyd : HydrationOk s) (ok : StoreOk mode s)
    (keeps : KeepsBacking op s) (step : rowStep mode op s = some s') : HydrationOk s' := by
  cases op with
  | enqueue lane ref runAt job =>
    cases step
    exact hyd.enqueue lane ref runAt job
  | claim row priority claimSlot batch => exact hyd.claim step
  | materialize a => exact hyd.materialize (ite_none_right_eq_some.1 step).2
  | completeRuntimeBatch batch now =>
    obtain ⟨⟨handed, -⟩, rfl⟩ := guard_eq_some step
    exact hyd.settle (completeRuntimeBatch_settles batch now) fun _ => hyd.completed ok handed
  | completeClaimedBatch batch now =>
    obtain ⟨-, rfl⟩ := guard_eq_some step
    exact hyd.completeClaimedBatch ok keeps
  | settle a waiting disposition now => exact hyd.settleAttempt ok keeps step
  | cancelReceipt a now => exact hyd.cancelReceipt ok keeps (ite_none_right_eq_some.1 step).2
  | cancelReady row now => exact hyd.settle (cancelReady_settles step) fun _ new => new.2 ▸ rfl
  | retryDone d shard ref runAt payload =>
    obtain ⟨-, rfl⟩ := guard_eq_some step
    exact (hyd.remove _ _ _ _ _ erase_subset fun _ => id).enqueue ..
  | moveFailedToDlq d => exact hyd.moveFailedToDlq ok step
  | retryFromDlq row lane ref runAt payload =>
    obtain ⟨-, rfl⟩ := guard_eq_some step
    exact (hyd.remove _ _ _ _ _ (fun _ => id) erase_subset).enqueue ..
  | cancelDeferred a ref queue priority old unique =>
    obtain ⟨t, synced, step⟩ := bind_eq_some_iff.1 step
    obtain ⟨-, rfl⟩ := guard_eq_some step
    exact (hyd.syncUnique synced).remove _ _ _ _ _ (fun _ => id) fun _ => id
  | removeDeferred a | removeSynthetic row =>
    cases step
    exact hyd.remove _ _ _ _ _ (fun _ => id) fun _ => id
  | discardDone d =>
    cases step
    exact hyd.remove _ _ _ _ _ erase_subset fun _ => id
  | prune slot generation current kept => exact hyd.prune ok keeps step
  | syncUnique jobId columns old new => exact hyd.syncUnique step
  | rotateLeases slot =>
    cases step
    exact hyd.remove _ _ _ _ _ (fun _ => id) fun _ => id

theorem HydrationOk.initial : HydrationOk RowStore.initial where
  receipts := forall_mem_nil _
  leases := forall_mem_nil _
  done := forall_mem_nil _
  completions := forall_mem_nil _
  dlq := forall_mem_nil _

theorem hydrationOk_reachable (reached : (rowMachine mode).Reachable KeepsBacking s) :
    StoreOk mode s ∧ HydrationOk s := by
  have ok : ∀ {t}, (rowMachine mode).Reachable KeepsBacking t → StoreOk mode t := fun before =>
    storeOk_reachable (before.mono fun _ _ _ => trivial)
  refine ⟨ok reached, reached.invariant (fun _ first => first ▸ HydrationOk.initial) ?_⟩
  exact fun _ _ _ before hyd keeps step => hyd.step (ok before) keeps step

/-- In every run that keeps the backing of its terminal rows, a terminal row of an attempt reads
back the columns of the ready row the attempt took, and retries and moves to the DLQ keep them. -/
theorem terminal_rows_read_back {mode : Bool} {s : RowStore}
    (reached : (rowMachine mode).Reachable KeepsBacking s) :
      (∀ d ∈ s.done, d.source = none ∧ d.args.isSome = true ∨ ∃ row, d.source = some row ∧
      s.Took row d.attempt ∧ (s.readDone d).hydrated = row.hydrated ∧
      (∀ shard ref runAt payload s', s.retryDone d shard ref runAt payload = some s' →
        ∃ new, s'.ready = s.ready ++ [new] ∧ new.job.permanent = row.job.permanent) ∧
      ∀ s', s.moveFailedToDlq d = some s' → ∃ e, s'.dlq = s.dlq ++ [e] ∧
    e.permanent = row.job.permanent) ∧ (∀ c ∈ s.completions, s.Took c.source c.attempt ∧
      ∃ shown ∈ s.terminalJobs, s.readCompletion c = some shown ∧
    shown.hydrated = c.source.hydrated) ∧ ∀ e ∈ s.dlq, ∀ row, e.source = some row →
      s.Took row e.attempt ∧ e.permanent = row.job.permanent ∧
      ∀ lane ref runAt payload s', s.retryFromDlq e lane ref runAt payload = some s' →
        ∃ new, s'.ready = s.ready ++ [new] ∧ new.job.permanent = row.job.permanent := by
  obtain ⟨ok, hyd⟩ := hydrationOk_reachable reached
  refine ⟨fun d member => ?_, fun c member => ?_, fun e member row source => ?_⟩
  · have done := hyd.done d member
    unfold DoneRowOk at done
    split at done
    · next row source =>
      refine .inr ⟨row, source, done.took, ok.readDone_hydrated done, ?_, ?_⟩
      · intro shard ref runAt payload s' retried
        obtain ⟨-, rfl⟩ := guard_eq_some retried
        exact ⟨_, rfl, (permanent_retryColumns _ _).trans (ok.readDone_permanent done)⟩
      · intro s' moved
        obtain ⟨-, rfl⟩ := guard_eq_some moved
        exact ⟨_, rfl, (permanent_intoDlqRow _ _).trans (ok.readDone_permanent done)⟩
    · next source => exact .inl ⟨source, done⟩
  · have compact := hyd.completions c member
    obtain ⟨shown, read, columns⟩ := ok.readCompletion_hydrated compact
    exact ⟨compact.took, shown, List.mem_append_right _ (List.mem_filterMap.2 ⟨c, member, read⟩),
      read, columns⟩
  · obtain ⟨took, permanent⟩ := hyd.dlq e member row source
    refine ⟨took, permanent, fun lane ref runAt payload s' retried => ?_⟩
    obtain ⟨-, rfl⟩ := guard_eq_some retried
    exact ⟨_, rfl, permanent⟩

def failedOps (mode : Bool) (priority : Nat) : List RowOp :=
  mailOps mode priority ++ [.settle ⟨7, 1⟩ false (.terminal .failed) 90]

theorem terminal_rows_read_back_mail :
    ∃ s d, (rowMachine true).Reachable KeepsBacking s ∧ d ∈ s.done ∧ d.source = some mailRow ∧
      (s.readDone d).hydrated = mailRow.hydrated := by
  obtain ⟨s, reached, d, member, source⟩ := Machine.reachable_of_run (rowMachine true) KeepsBacking
    (failedOps true 2) (fun s => ∃ d ∈ s.done, d.source = some mailRow) rfl (by decide)
  refine ⟨s, d, reached, member, source, ?_⟩
  rcases (terminal_rows_read_back reached).1 d member with ⟨none, -⟩ | ⟨row, some, -, read, -⟩
  · exact absurd (source.symm.trans none) (Option.some_ne_none _)
  · obtain rfl := Option.some.inj (source.symm.trans some)
    exact read

def AgedFailureForgets (mode : Bool) : Prop :=
  ∃ s, (rowMachine mode).Reachable Machine.Always s ∧ ∃ d ∈ s.done, d.source = some mailRow ∧
    d.attempt = ⟨7, 1⟩ ∧
    (s.readDone d).hydrated.args = emptyObject ∧ mailRow.hydrated.args ≠ emptyObject ∧
    (s.readDone d).hydrated.maxAttempts = 25 ∧ mailRow.hydrated.maxAttempts = 3 ∧
    ((s.readDone d).retryColumns {}).permanent ≠ mailRow.job.permanent

theorem agedFailureForgets (mode : Bool) : AgedFailureForgets mode := by
  obtain ⟨s, reached, hit⟩ := Machine.reachable_of_run (rowMachine mode) Machine.Always
    (failedOps mode 1) (fun s => ∃ d ∈ s.done, d.source = some mailRow ∧ d.attempt = ⟨7, 1⟩ ∧
      (s.readDone d).hydrated.args = emptyObject ∧ mailRow.hydrated.args ≠ emptyObject ∧
      (s.readDone d).hydrated.maxAttempts = 25 ∧ mailRow.hydrated.maxAttempts = 3 ∧
      ((s.readDone d).retryColumns {}).permanent ≠ mailRow.job.permanent) rfl
        (by cases mode <;> decide)
  exact ⟨s, reached, hit⟩

/-- In both modes a failed attempt that was claimed with a lower effective priority loses its
columns. -/
theorem aged_failure_reads_defaults : AgedFailureForgets true ∧ AgedFailureForgets false :=
  ⟨agedFailureForgets true, agedFailureForgets false⟩

end AwaQueue
