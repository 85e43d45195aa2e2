import AwaQueue.Callback.Invariant

/-! Every step keeps the tables in order. The rows of a transaction in flight stay as it found them,
because every other writer of these rows waits for their locks. -/

namespace AwaQueue

open List Library

theorem mem_residents {unclaimed : List ReadyEntry} {deferred : List DeferredEntry}
    {openAttempts : List Attempt}
    {r : Nat × JobState} : r ∈ residents unclaimed deferred openAttempts ↔
      (∃ row ∈ unclaimed, r = (row.job.jobId, .available)) ∨
        (∃ entry ∈ deferred, r = (entry.job.jobId, entry.state)) ∨
        ∃ a ∈ openAttempts, r = (a.jobId, .running) := by
  simp only [residents, mem_append, mem_map, eq_comm, or_assoc]

structure TablesInv (s : CallbackState) : Prop where
  residence : ResidenceOk (waitingAttempts s.unclaimed s.deferred)
    (claimAttempts s.claims) s.closures s.nextJob
  closed : ∀ a ∈ s.closures, a ∈ claimAttempts s.claims
  leases : LeasesOk s.ready s.unclaimed s.claims s.closures s.leases
  unique : UniqueOk s.uniqueClaims (uniqueSpecs s.ready s.deferred)
    (residents s.unclaimed s.deferred ((claimAttempts s.claims).filter (· ∉ s.closures))) s.nextJob
  callbacks : CallbacksOk s.leases s.closures s.registered s.retired s.resolved s.nextCallback

section
variable {s s' : CallbackState} {c : AttemptColumns} {job : JobColumns} {old : JobState}
  {rescue : Bool}
  {settlement : Settlement} {place : LanePlace} {queue priority runAt : Nat} {lane : Option Lane}

theorem insertReady_cases (inserted : s.insertReady place queue priority runAt job = some s') :
    ∃ row : ReadyEntry, row.job = job ∧ row.key ∉ s.ready.map ReadyRow.key ∧
      s' = { s with ready := s.ready ++ [row], unclaimed := s.unclaimed ++ [row] } := by
  obtain ⟨fresh, rfl⟩ := guard_eq_some inserted
  exact ⟨_, rfl, fresh, rfl⟩

theorem place_cases (placed : s.place c lane job settlement = some s') :
    (∃ done dlq, s' = { s with done := done, dlq := dlq }) ∨
      (∃ entry : DeferredEntry, entry.carried = ⟨job.jobId, c.attempt.runLease⟩ ∧
        entry.job.unique = job.unique ∧
        entry.state = settlement.state ∧ s' = { s with deferred := s.deferred ++ [entry] }) ∨
      ∃ row : ReadyEntry, row.carried = ⟨job.jobId, c.attempt.runLease⟩ ∧
        row.job.unique = job.unique ∧
        settlement.state = .available ∧ row.key ∉ s.ready.map ReadyRow.key ∧
        s' = { s with ready := s.ready ++ [row], unclaimed := s.unclaimed ++ [row] } := by
  cases settlement with
  | done state =>
    obtain ⟨-, rfl⟩ := guard_eq_some placed
    exact .inl ⟨_, s.dlq, rfl⟩
  | dlq =>
    cases placed
    exact .inl ⟨s.done, _, rfl⟩
  | deferred state runAt =>
    cases placed
    exact .inr (.inl ⟨_, rfl, rfl, rfl, rfl⟩)
  | ready place =>
    obtain ⟨row, columns, fresh, rfl⟩ := insertReady_cases placed
    refine .inr (.inr ⟨row, ?_, ?_, rfl, fresh, rfl⟩)
    · rw [ReadyRow.carried, columns]
    · rw [columns]
      rfl

/-- `job_unique_claims` follows the job to its new state, or to `cancelled`, or stays as it is when
the cancelled row gave up its key. -/
theorem settle_cases (settled : s.settle c lane old rescue settlement = some s') :
    ∃ row ∈ s.ready, row.job.jobId = c.attempt.jobId ∧
      ((∃ table, syncUniqueClaim s.uniqueClaims c.attempt.jobId row.job.unique (some old)
          (some settlement.state) = some table ∧
          { s with uniqueClaims := table }.place c lane row.job settlement = some s') ∨
        rescue = true ∧ ((∃ new table done,
            syncUniqueClaim s.uniqueClaims c.attempt.jobId row.job.unique (some old)
              (some new) = some table ∧
            s' = { s with uniqueClaims := table, done := done }) ∨
          ∃ done, s' = { s with done := done })) := by
  obtain ⟨row, found, rest⟩ := Option.bind_eq_some_iff.1 settled
  have same := find?_some found
  simp only [decide_eq_true_eq] at same
  refine ⟨row, mem_of_find?_eq_some found, same.2.2.2.2, ?_⟩
  dsimp only at rest
  split at rest
  next placed =>
    cases rest
    exact .inl (Option.bind_eq_some_iff.1 placed)
  next =>
    obtain ⟨rescued, rest⟩ := Option.ite_none_right_eq_some.1 rest
    obtain ⟨-, rfl⟩ := guard_eq_some rest
    refine .inr ⟨rescued, ?_⟩
    cases cancelled : syncUniqueClaim s.uniqueClaims c.attempt.jobId row.job.unique (some old)
      (some .cancelled) with
    | none => exact .inr ⟨_, rfl⟩
    | some table => exact .inl ⟨_, table, _, cancelled, rfl⟩

end

namespace TablesInv
variable {s s' : CallbackState} {c : ClaimReceipt} {old : JobState} {rescue : Bool}
  {settlement : Settlement} {lane : Option Lane}

theorem mem_specs {row : ReadyEntry} (mem : row ∈ s.ready) :
    (row.job.jobId, row.job.unique) ∈ uniqueSpecs s.ready s.deferred :=
  mem_append_left _ (mem_map_of_mem (f := fun row : ReadyEntry => (row.job.jobId, row.job.unique))
    mem)

/-- The attempt is closed and its lease is gone, but its job has no other row yet. -/
theorem close (inv : TablesInv s) (mem : c ∈ s.claims) (unclosed : c.attempt ∉ s.closures)
    (scratch : Attempt → Option AttemptScratch) : TablesInv { s with
      leases := s.leases.filter fun lease => lease.attempt ≠ c.attempt
      scratch := scratch
      closures := s.closures ++ [c.attempt] } where
  residence := inv.residence.finish (mem_map_of_mem mem) unclosed
  closed a here := by
    rcases mem_append.1 here with earlier | now
    · exact inv.closed a earlier
    · rw [mem_singleton.1 now]
      exact mem_map_of_mem mem
  leases := inv.leases.close c.attempt
  unique := by
    refine inv.unique.mono (fun r here => ?_) fun x here => here
    rw [mem_residents] at here ⊢
    refine here.imp_right (Or.imp_right ?_)
    rintro ⟨a, mem, rfl⟩
    have kept := mem_filter.1 mem
    refine ⟨a, mem_filter.2 ⟨kept.1, decide_eq_true fun closed => ?_⟩, rfl⟩
    exact (of_decide_eq_true kept.2) (mem_append_left _ closed)
  callbacks := inv.callbacks.close c.attempt

section
variable {p : Attempt} {columns : UniqueColumns} {oldState : Option JobState}
    {table : List UniqueClaim}

section
variable (inv : TablesInv s)
  (before : ResidenceOk (p :: waitingAttempts s.unclaimed s.deferred) (claimAttempts s.claims)
      s.closures s.nextJob)
include before

theorem absent_residents (r : Nat × JobState)
    (here : r ∈ residents s.unclaimed s.deferred
      ((claimAttempts s.claims).filter (· ∉ s.closures))) : r.1 ≠ p.jobId := by
  have alone := before.alone
  rw [cons_append, map_cons, nodup_cons] at alone
  intro same
  refine alone.1 (same ▸ ?_)
  rw [mem_residents] at here
  obtain ⟨u, waiting, rfl⟩ | ⟨e, waiting, rfl⟩ | ⟨a, running, rfl⟩ := here
  · exact mem_map.2 ⟨u.carried, by simp [waitingAttempts, mem_map_of_mem waiting], rfl⟩
  · exact mem_map.2 ⟨e.carried, by simp [waitingAttempts, mem_map_of_mem waiting], rfl⟩
  · exact mem_map.2 ⟨a, mem_append_right _ running, rfl⟩

section
variable (owned : columns.claims (some .running) = true → columns.claims oldState = true →
  Owns s.uniqueClaims p.jobId columns)
  (agree : ∀ x ∈ uniqueSpecs s.ready s.deferred, x.1 = p.jobId → x.2 = columns)
include inv owned agree

theorem insertReady (synced : syncUniqueClaim s.uniqueClaims p.jobId columns oldState
    (some .available) = some table)
    {row : ReadyEntry} (carried : row.carried = p) (unique : row.job.unique = columns)
    (unused : row.key ∉ s.ready.map ReadyRow.key) :
    TablesInv { s with uniqueClaims := table, ready := s.ready ++ [row], unclaimed := s.unclaimed ++
      [row] } where
  __ := inv
  residence := by
    refine before.perm ?_
    simp only [waitingAttempts, map_append, map_cons, map_nil, append_assoc, carried]
    exact perm_middle
  leases := inv.leases.insertReady unused
  unique := by
    have job : row.job.jobId = p.jobId := congrArg Attempt.jobId carried
    refine inv.unique.arrive agree (absent_residents before) (Nat.le_refl _)
      (before.bounded p (by simp)) synced owned
      (fun r here => ?_) fun x here => ?_
    · simp only [residents, map_append, mem_append, map_cons, map_nil, mem_singleton, job] at here ⊢
      tauto
    · simp only [uniqueSpecs, map_append, mem_append, map_cons, map_nil, mem_singleton, job,
        unique] at here ⊢
      tauto

theorem insertDeferred {entry : DeferredEntry}
    (synced : syncUniqueClaim s.uniqueClaims p.jobId columns oldState (some entry.state) =
    some table) (carried : entry.carried = p) (unique : entry.job.unique = columns) :
    TablesInv { s with uniqueClaims := table, deferred := s.deferred ++ [entry] } where
  __ := inv
  residence := by
    refine before.perm ?_
    simp only [waitingAttempts, map_append, map_cons, map_nil, ← append_assoc, carried]
    exact perm_append_singleton _ _
  unique := by
    have job : entry.job.jobId = p.jobId := congrArg Attempt.jobId carried
    refine inv.unique.arrive agree (absent_residents before) (Nat.le_refl _)
      (before.bounded p (by simp)) synced owned (fun r here => ?_) fun x here => ?_
    · simp only [residents, map_append, mem_append, map_cons, map_nil, mem_singleton, job] at here ⊢
      tauto
    · simp only [uniqueSpecs, map_append, mem_append, map_cons, map_nil, mem_singleton, job,
        unique] at here ⊢
      tauto

theorem leave {new : JobState}
    (synced : syncUniqueClaim s.uniqueClaims p.jobId columns oldState (some new) = some table) :
    TablesInv { s with uniqueClaims := table } where
  __ := inv
  unique := inv.unique.arrive agree (absent_residents before) (Nat.le_refl _)
    (before.bounded p (by simp)) synced owned (fun _ here => .inl here) fun _ here => .inl here

end

end

end

theorem finishAttempt (inv : TablesInv s) (mem : c ∈ s.claims) (unclosed : c.attempt ∉ s.closures)
    (finished : s.finishAttempt c.toAttemptColumns lane old rescue settlement = some s') :
    TablesInv s' := by
  have closed := inv.close mem unclosed (Function.update s.scratch c.attempt none)
  have before := inv.residence.requeue (mem_map_of_mem mem) unclosed
  obtain ⟨row, ready, own, outcome⟩ := settle_cases finished
  have agree (x : Nat × UniqueColumns) (here : x ∈ uniqueSpecs s.ready s.deferred)
      (same : x.1 = c.attempt.jobId) :
      x.2 = row.job.unique := inv.unique.same x here _ (mem_specs ready) (same.trans own.symm)
  have owned (running : row.job.unique.claims (some .running) = true)
      (_ : row.job.unique.claims (some old) = true) :
      Owns s.uniqueClaims c.attempt.jobId row.job.unique := by
    have resident : (c.attempt.jobId, JobState.running) ∈
        residents s.unclaimed s.deferred ((claimAttempts s.claims).filter (· ∉ s.closures)) :=
      mem_residents.2 (.inr (.inr ⟨c.attempt,
        mem_filter.2 ⟨mem_map_of_mem mem, decide_eq_true unclosed⟩, rfl⟩))
    exact own ▸ inv.unique.held _ resident _ (mem_specs ready) own running running
  obtain ⟨table, synced, placed⟩ | ⟨-, ⟨new, table, done, synced, rfl⟩ | ⟨done, rfl⟩⟩ := outcome
  · obtain ⟨done, dlq, rfl⟩ | ⟨entry, carried, unique, state, rfl⟩ | ⟨fresh, carried, unique, state,
        unused, rfl⟩ :=
      place_cases placed
    · exact { closed.leave before owned agree synced with }
    · exact closed.insertDeferred before owned agree (state ▸ synced)
        (carried.trans (own ▸ rfl)) unique
    · exact closed.insertReady before owned agree (state ▸ synced) (carried.trans (own ▸ rfl))
        unique unused
  · exact { closed.leave before owned agree synced with }
  · exact { closed with }

end TablesInv

/-- From `s` to `s'` the attempts have ended; what else is stored of running attempts is the same.
-/
structure Ended (s s' : CallbackState) (attempts : List Attempt) : Prop where
  claims : s'.claims = s.claims
  closures : s'.closures = s.closures ++ attempts
  leases : s'.leases = s.leases.filter fun lease => lease.attempt ∉ attempts
  scratch : s'.scratch = fun a => if a ∈ attempts then none else s.scratch a
  lock : s'.lock = s.lock
  tx : s'.tx = s.tx
  registered : s'.registered = s.registered
  retired : s'.retired = s.retired
  resolved : s'.resolved = s.resolved
  nextCallback : s'.nextCallback = s.nextCallback
  now : s'.now = s.now
  lastBeat : s'.lastBeat = s.lastBeat
  staleRescued : s'.staleRescued = s.staleRescued

theorem Ended.refl (s : CallbackState) : Ended s s [] := by
  constructor <;> simp

variable {s s' : CallbackState}

theorem Ended.trans {s'' : CallbackState} {attempts attempts' : List Attempt}
    (first : Ended s s' attempts)
    (second : Ended s' s'' attempts') : Ended s s'' (attempts ++ attempts') where
  claims := second.claims.trans first.claims
  closures := by rw [second.closures, first.closures, append_assoc]
  leases := by
    rw [second.leases, first.leases, filter_filter]
    refine filter_congr fun lease _ => ?_
    simp only [mem_append, not_or, Bool.decide_and, Bool.and_comm]
  scratch := by
    rw [second.scratch, first.scratch]
    funext a
    by_cases now : a ∈ attempts' <;> by_cases earlier : a ∈ attempts <;> simp [now, earlier]
  lock := second.lock.trans first.lock
  tx := second.tx.trans first.tx
  registered := second.registered.trans first.registered
  retired := second.retired.trans first.retired
  resolved := second.resolved.trans first.resolved
  nextCallback := second.nextCallback.trans first.nextCallback
  now := second.now.trans first.now
  lastBeat := second.lastBeat.trans first.lastBeat
  staleRescued := second.staleRescued.trans first.staleRescued

theorem finishAttempt_ended {c : AttemptColumns} {lane : Option Lane} {old : JobState}
    {rescue : Bool}
    {settlement : Settlement} (finished : s.finishAttempt c lane old rescue settlement = some s') :
    Ended s s' [c.attempt] := by
  have closed : Ended s { s with
      leases := s.leases.filter fun lease => lease.attempt ≠ c.attempt
      scratch := Function.update s.scratch c.attempt none
      closures := s.closures ++ [c.attempt] } [c.attempt] := by
    refine ⟨rfl, rfl, ?_, ?_, rfl, rfl, rfl, rfl, rfl, rfl, rfl, rfl, rfl⟩
    · simp only [mem_singleton]
    · funext a
      by_cases same : a = c.attempt <;> simp [Function.update, same]
  obtain ⟨row, -, -, outcome⟩ := settle_cases finished
  obtain ⟨table, -, placed⟩ | ⟨-, ⟨new, table, done, -, rfl⟩ | ⟨done, rfl⟩⟩ := outcome
  · obtain ⟨done, dlq, rfl⟩ | ⟨entry, -, -, -, rfl⟩ | ⟨fresh, -, -, -, -, rfl⟩ := place_cases placed
    all_goals exact { closed with }
  · exact { closed with }
  · exact { closed with }

theorem foldlM_finishAttempt {α : Type} {f : CallbackState → α → Option CallbackState}
    (columns : α → AttemptColumns)
    (each : ∀ s item s', f s item = some s' → ∃ lane old rescue settlement,
      s.finishAttempt (columns item) lane old rescue settlement = some s') {items : List α}
    (inv : TablesInv s) (backed : ∀ item ∈ items, ∃ c ∈ s.claims, c.toAttemptColumns =
    columns item ∧ c.attempt ∉ s.closures)
    (distinct : (items.map fun item => (columns item).attempt).Nodup)
    (ran : items.foldlM f s = some s') :
    TablesInv s' ∧ Ended s s' (items.map fun item => (columns item).attempt) := by
  induction items generalizing s with
  | nil =>
    cases ran
    exact ⟨inv, Ended.refl _⟩
  | cons item rest ih =>
    rw [foldlM_cons] at ran
    obtain ⟨next, step, ran⟩ := Option.bind_eq_some_iff.1 ran
    obtain ⟨lane, old, rescue, settlement, finished⟩ := each s item next step
    obtain ⟨c, mem, same, unclosed⟩ := backed item mem_cons_self
    have ended := finishAttempt_ended finished
    rw [map_cons, nodup_cons] at distinct
    rw [← same] at finished
    have backedRest : ∀ other ∈ rest, ∃ c ∈ next.claims, c.toAttemptColumns = columns other ∧
        c.attempt ∉ next.closures := by
      intro other here
      obtain ⟨d, mem', same', unclosed'⟩ := backed other (mem_cons_of_mem _ here)
      have different : d.attempt ≠ (columns item).attempt := by
        rw [show d.attempt = (columns other).attempt from congrArg AttemptColumns.attempt same']
        intro equal
        exact distinct.1 (equal ▸ mem_map_of_mem (f := fun item => (columns item).attempt) here)
      exact ⟨d, ended.claims ▸ mem', same', by simpa [ended.closures, different] using unclosed'⟩
    obtain ⟨invEnd, endedRest⟩ := ih (inv.finishAttempt mem unclosed finished) backedRest
      distinct.2 ran
    exact ⟨invEnd, ended.trans endedRest⟩

/-- A row that a registration is about to insert for an open receipt. -/
structure Materializable (s : CallbackState) (lease : LiveLease) : Prop where
  unclosed : lease.attempt ∉ s.closures
  backed : ∃ c ∈ s.claims, c.toAttemptColumns = lease.toAttemptColumns
  unleased : ∀ other ∈ s.leases, other.attempt ≠ lease.attempt
  running : lease.state = .running
  noCallback : lease.callbackId = none

def LeaseCall.subject : LeaseCall → Option Attempt
  | .registerCallback a _ _ | .cancelCallback a => some a
  | _ => none

structure LeaseTxOk (s : CallbackState) (t : TxId) (x : LeaseTx) : Prop where
  locked : ∀ lease ∈ x.rows, s.lock lease.attempt = some t
  distinct : (x.rows.map fun lease => lease.attempt).Nodup
  nonempty : x.rows ≠ []
  rows : ∀ lease ∈ x.rows, lease ∈ s.leases ∨ (x.call.registers = true ∧ Materializable s lease)
  resolving : ∀ callbackId, x.call.resolves = some callbackId → ∀ lease ∈ x.rows, lease.callbackId =
    some callbackId
  naming : ∀ a, x.call.subject = some a → ∀ lease ∈ x.rows, lease.attempt = a

structure CallbackInv (s : CallbackState) : Prop where
  tables : TablesInv s
  tx : ∀ t x, s.tx t = some x → LeaseTxOk s t x

/-- A transaction does not see a change to rows it has not locked. -/
theorem LeaseTxOk.frame {t : TxId} {x : LeaseTx} (ok : LeaseTxOk s t x)
    (locks : ∀ lease ∈ x.rows, s'.lock lease.attempt = s.lock lease.attempt)
    (leases : ∀ lease ∈ x.rows, ∀ other : LiveLease, other.attempt = lease.attempt →
      (other ∈ s'.leases ↔ other ∈ s.leases))
    (closures : ∀ lease ∈ x.rows, lease.attempt ∈ s'.closures → lease.attempt ∈ s.closures)
    (claims : ∀ c ∈ s.claims, c ∈ s'.claims) : LeaseTxOk s' t x where
  __ := ok
  locked lease here := (locks lease here).trans (ok.locked lease here)
  rows lease here := by
    rcases ok.rows lease here with stored | ⟨registers, new⟩
    · exact .inl ((leases lease here lease rfl).2 stored)
    · refine .inr ⟨registers, fun closed => new.unclosed (closures lease here closed), ?_, ?_,
        new.running, new.noCallback⟩
      · obtain ⟨c, mem, same⟩ := new.backed
        exact ⟨c, claims c mem, same⟩
      · intro other stored same
        exact new.unleased other ((leases lease here other same).1 stored) same

end AwaQueue
