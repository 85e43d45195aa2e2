import AwaQueue.Callback.Safety

/-! What a callback id does: it is resolved at most once and on the attempt that registered it, and
while it is live it can be resolved.

Resuming an attempt and looking a callback up read the ready row by its whole key, with the priority
of the lease. A claim that lowers the priority of a row by its age stores the lowered one, and then
neither finds the row. The other calls join without the priority. -/

namespace AwaQueue

open List Option Library

/-- A mask that claims a key for a completed or failed job claims it for a running one too. -/
def UniqueColumns.coversRunning (columns : UniqueColumns) : Bool :=
  columns.claims (some .running) || !(columns.claims (some .completed) ||
    columns.claims (some .failed))

theorem UniqueColumns.claims_running {columns : UniqueColumns} {state : TerminalState}
    (covers : columns.coversRunning = true) (ends : state = .completed ∨ state = .failed)
    (claiming : columns.claims (some state.jobState) = true) :
    columns.claims (some .running) = true := by
  unfold UniqueColumns.coversRunning at covers
  obtain rfl | rfl := ends
  all_goals
    simp only [TerminalState.jobState] at claiming
    simpa [claiming] using covers

def CallbackOp.plain : CallbackOp → Bool
  | .claim row priority _ => priority = row.lane.priority && row.job.unique.coversRunning
  | _ => true

structure PlainClaim (c : AttemptColumns) : Prop where
  lane : c.readyKey = c.source.key
  covers : c.source.job.unique.coversRunning = true

/-- Only a claim adds a receipt, and only a commit resolves a callback. -/
theorem claims_step {staleness : Nat} {op : CallbackOp} {s s' : CallbackState} (inv : CallbackInv s)
    (step : callbackStep staleness op s = some s') :
    (s'.claims = s.claims ∨ ∃ row priority deadlineAt, op = .claim row priority deadlineAt ∧
      s'.claims = s.claims ++ [⟨row.columns priority, s.now, deadlineAt⟩]) ∧
    (s'.resolved = s.resolved ∨ ∃ t, op = .commit t) := by
  cases op with
  | claim row priority deadlineAt =>
    obtain ⟨-, rest⟩ := ite_none_right_eq_some.1 step
    obtain ⟨table, -, rfl⟩ := map_eq_some_iff.1 rest
    exact ⟨.inr ⟨row, priority, deadlineAt, rfl, rfl⟩, .inl rfl⟩
  | enqueue place queue priority job =>
    obtain ⟨table, -, inserted⟩ := bind_eq_some_iff.1 step
    obtain ⟨row, -, -, rfl⟩ := insertReady_cases inserted
    exact ⟨.inl rfl, .inl rfl⟩
  | promote entry place =>
    obtain ⟨-, rest⟩ := ite_none_right_eq_some.1 step
    obtain ⟨table, -, inserted⟩ := bind_eq_some_iff.1 rest
    obtain ⟨row, -, -, rfl⟩ := insertReady_cases inserted
    exact ⟨.inl rfl, .inl rfl⟩
  | tick | takeCallbackResult a | replaceDone done =>
    cases step
    exact ⟨.inl rfl, .inl rfl⟩
  | heartbeat attempts | abort t =>
    obtain ⟨-, rfl⟩ := guard_eq_some step
    exact ⟨.inl rfl, .inl rfl⟩
  | heartbeatProgress a progress | flushProgress a progress =>
    obtain ⟨-, rest⟩ := ite_none_left_eq_some.1 step
    cases rest
    exact ⟨.inl rfl, .inl rfl⟩
  | begin t call =>
    obtain ⟨-, began⟩ := ite_none_right_eq_some.1 step
    obtain rfl | ⟨-, -, rfl⟩ := beginCall_cases began
    all_goals exact ⟨.inl rfl, .inl rfl⟩
  | commit t =>
    obtain ⟨x, inFlight, rest⟩ := bind_eq_some_iff.1 step
    obtain ⟨next, finished, rfl⟩ := map_eq_some_iff.1 rest
    exact ⟨.inl (inv.finishCall inFlight finished).2.claims, .inr ⟨t, rfl⟩⟩
  | closeReceipts closer attempts =>
    obtain ⟨-, next, -, ended, rfl⟩ := inv.closeReceipts_ended step
    exact ⟨.inl ended.claims, .inl ended.resolved⟩

theorem plainClaim_reachable {staleness : Nat} {s : CallbackState}
    (reached : (callbackMachine staleness).Reachable (fun op _ => op.plain = true) s) :
    ∀ c ∈ s.claims, PlainClaim c.toAttemptColumns := by
  induction reached with
  | start first =>
    obtain rfl : _ = CallbackState.initial := first
    exact forall_mem_nil _
  | next before plain step ih =>
    obtain same | ⟨row, priority, deadlineAt, rfl, more⟩ :=
      (claims_step (callbackInv_reachable before) step).1
    · exact same ▸ ih
    · simp only [CallbackOp.plain, Bool.and_eq_true, decide_eq_true_eq] at plain
      rw [more]
      intro c mem
      rcases mem_append.1 mem with earlier | now
      · exact ih c earlier
      · rw [mem_singleton.1 now, plain.1]
        exact ⟨rfl, plain.2⟩

/-- The attempt runs, and the id is the last one it registered and did not cancel. -/
structure CallbackState.Live (s : CallbackState) (callbackId : Nat) (a : Attempt) : Prop where
  registered : (callbackId, a) ∈ s.registered
  unclosed : a ∉ s.closures
  current : callbackId ∉ s.retired
  unresolved : callbackId ∉ s.resolved.map Prod.fst

section
variable {staleness : Nat} {s : CallbackState} {callbackId : Nat} {a : Attempt}
  {lease : LiveLease} {t : TxId} {runLease : Option Nat} {ready : List ReadyEntry}
    {payload : String} {call : LeaseCall} {s' : CallbackState}

theorem LiveLease.answers_eq_true : lease.answers callbackId runLease = true ↔
    lease.callbackId = some callbackId ∧ (lease.state = .running ∨ lease.state = .waitingExternal) ∧
      ∀ r ∈ runLease, r = lease.attempt.runLease := by
  simp only [LiveLease.answers, Bool.and_eq_true, Bool.or_eq_true, decide_eq_true_eq,
    or_comm, and_assoc]
  cases runLease <;> simp [eq_comm]

theorem CallbackInv.filter_eq (inv : CallbackInv s) (mem : lease ∈ s.leases)
    (carries : lease.callbackId = some callbackId) {p : LiveLease → Bool} (found : p lease = true)
    (only : ∀ other, p other = true → other.callbackId = some callbackId) :
    s.leases.filter p = [lease] := by
  have here : lease ∈ s.leases.filter p := mem_filter.2 ⟨mem, found⟩
  obtain ⟨other, single, -⟩ := eq_singleton_of_nodup_map (b := lease.attempt)
    (inv.tables.leases.distinct.sublist (filter_sublist.map _))
        (ne_nil_of_mem here) fun other there => by
      obtain ⟨stored, chosen⟩ := mem_filter.1 there
      exact inv.tables.callbacks.attempt_eq stored mem (only other chosen) carries
  rw [single] at here ⊢
  rw [mem_singleton.1 here]

theorem CallbackInv.filter_answers (inv : CallbackInv s) (mem : lease ∈ s.leases)
    (carries : lease.callbackId = some callbackId)
    (fits : ∀ r ∈ runLease, r = lease.attempt.runLease) :
    s.leases.filter (fun other => other.answers callbackId runLease) = [lease] :=
  inv.filter_eq mem carries (LiveLease.answers_eq_true.2 ⟨carries,
    inv.tables.leases.state lease mem, fits⟩) fun _ chosen => (LiveLease.answers_eq_true.1 chosen).1

theorem exists_find_readyKey {c : AttemptColumns} (plain : PlainClaim c)
    (source : c.source ∈ ready) : ∃ row, (ready.find? fun row => row.key = c.readyKey) = some row :=
  isSome_iff_exists.1 (find?_isSome.2 ⟨c.source, source, decide_eq_true plain.lane.symm⟩)

theorem LeasesOk.source_mem {unclaimed : List ReadyEntry} {claims : List ClaimReceipt}
    {closures : List Attempt} {leases : List LiveLease}
    (ok : LeasesOk ready unclaimed claims closures leases) (mem : lease ∈ leases) :
    lease.source ∈ ready := by
  obtain ⟨-, c, claimed, same⟩ := ok.backed lease mem
  rw [← same]
  exact (ok.claimed c claimed).1

theorem CallbackInv.callbackJob_eq (inv : CallbackInv s) (mem : lease ∈ s.leases)
    (carries : lease.callbackId = some callbackId) (plain : PlainClaim lease.toAttemptColumns)
    (fits : ∀ r ∈ runLease, r = lease.attempt.runLease) :
    ∃ row, s.callbackJob callbackId runLease = some row ∧ row.lease = lease := by
  obtain ⟨ready, found⟩ := exists_find_readyKey plain (inv.tables.leases.source_mem mem)
  refine ⟨⟨lease, ready, s.scratch lease.attempt⟩, ?_, rfl⟩
  have read : s.leaseJobRow lease = some ⟨lease, ready, s.scratch lease.attempt⟩ := by
    rw [CallbackState.leaseJobRow, found]
    rfl
  rw [CallbackState.callbackJob, inv.filter_answers mem carries fits, filterMap_cons_some read,
    filterMap_nil]
  rfl

def CallbackState.DoneKeyFree (s : CallbackState) (lease : LiveLease) : Prop :=
  some lease.readyKey.primaryKey ∉ s.done.map TerminalRecord.key

/-- The job of a lease can be settled as completed or failed: its ready row is there, and no other
job has its unique key. -/
theorem TablesInv.exists_finishAttempt (inv : TablesInv s) (mem : lease ∈ s.leases)
    (plain : PlainClaim lease.toAttemptColumns) (free : s.DoneKeyFree lease) {state : TerminalState}
    (ends : state = .completed ∨ state = .failed) :
    ∃ s', s.finishAttempt lease.toAttemptColumns (some lease.lane) lease.state false (.done state) =
      some s' ∧ ⟨lease.attempt, state, some lease.readyKey.primaryKey⟩ ∈ s'.done := by
  obtain ⟨unclosed, c, claimed, same⟩ := inv.leases.backed lease mem
  obtain ⟨source, ready, matching⟩ := inv.leases.exists_hydrate claimed
  rw [same] at matching
  obtain ⟨row, found⟩ : ∃ row, s.hydrate lease.toAttemptColumns = some row :=
    isSome_iff_exists.1 (find?_isSome.2 ⟨source, ready, decide_eq_true matching⟩)
  have own : row.job.jobId = lease.attempt.jobId := by
    have kept := find?_some found
    simp only [decide_eq_true_eq] at kept
    exact kept.2.2.2.2
  have known := TablesInv.mem_specs (s := s) (mem_of_find?_eq_some found)
  have covers : row.job.unique.coversRunning = true := by
    have job : lease.source.job.jobId = lease.attempt.jobId := by
      obtain ⟨-, priority, columns⟩ := inv.leases.claimed c claimed
      rw [← same, columns]
      rfl
    have agree : row.job.unique = lease.source.job.unique :=
      inv.unique.same _ known _ (TablesInv.mem_specs (inv.leases.source_mem mem))
        (own.trans job.symm)
    exact agree ▸ plain.covers
  have resident : (lease.attempt.jobId, JobState.running) ∈
      residents s.unclaimed s.deferred ((claimAttempts s.claims).filter (· ∉ s.closures)) := by
    refine mem_residents.2 (.inr (.inr ⟨lease.attempt, mem_filter.2 ⟨?_, decide_eq_true unclosed⟩,
      rfl⟩))
    exact mem_map.2 ⟨c, claimed, congrArg AttemptColumns.attempt same⟩
  obtain ⟨table, synced⟩ :
      ∃ table, syncUniqueClaim s.uniqueClaims lease.attempt.jobId row.job.unique (some lease.state)
      (some state.jobState) = some table := by
    refine syncUniqueClaim_of_owned inv.unique.keys fun key keyed claiming => ?_
    have running := UniqueColumns.claims_running covers ends claiming
    exact own ▸ inv.unique.held _ resident _ known own running running key keyed
  refine ⟨{ s with
    leases := s.leases.filter fun other => other.attempt ≠ lease.attempt
    scratch := Function.update s.scratch lease.attempt none
    closures := s.closures ++ [lease.attempt]
    uniqueClaims := table
    done := s.done ++ [⟨lease.attempt, state, some lease.readyKey.primaryKey⟩] }, ?_, by simp⟩
  change (s.hydrate lease.toAttemptColumns).bind _ = _
  rw [found, bind_some]
  dsimp only [Settlement.state]
  rw [synced, bind_some, CallbackState.place]
  dsimp only
  rw [if_pos (.inr free)]
  rfl

theorem doneKeyFree_of_finishAttempt {state : TerminalState}
    (finished : s.finishAttempt lease.toAttemptColumns (some lease.lane) lease.state false
    (.done state) = some s') : s.DoneKeyFree lease := by
  obtain ⟨row, -, -, ⟨table, -, placed⟩ | ⟨rescued, -⟩⟩ := settle_cases finished
  · exact (guard_eq_some placed).1.resolve_left (some_ne_none _)
  · cases rescued

def CallbackState.Took (s : CallbackState) (callbackId : Nat) (a : Attempt) : LeaseCall → Prop
  | .completeExternal _ _ =>
    (callbackId, a) ∈ s.resolved ∧ a ∈ s.closures ∧ ∃ key, ⟨a, .completed, key⟩ ∈ s.done
  | .failExternal _ _ =>
    (callbackId, a) ∈ s.resolved ∧ a ∈ s.closures ∧ ∃ key, ⟨a, .failed, key⟩ ∈ s.done
  | .resumeExternal _ _ payload => (callbackId, a) ∈ s.resolved ∧
      (∃ lease ∈ s.leases, lease.attempt = a ∧ lease.state = .running ∧ lease.callbackId = none) ∧
      (s.scratch a).bind AttemptScratch.callbackResult = some payload
  | _ => False

def CallbackState.Writable (s : CallbackState) (lease : LiveLease) : LeaseCall → Prop
  | .resumeExternal _ _ _ => True
  | _ => s.DoneKeyFree lease

def LeaseCall.answersTo (callbackId : Nat) (runLease : Option Nat) (payload : String) :
    List LeaseCall :=
  [.completeExternal callbackId runLease, .failExternal callbackId runLease,
    .resumeExternal callbackId runLease payload]

theorem CallbackInv.rows_eq (inv : CallbackInv s) (mem : lease ∈ s.leases)
    (carries : lease.callbackId = some callbackId)
    (fits : ∀ r ∈ runLease, r = lease.attempt.runLease)
    (answering : call ∈ LeaseCall.answersTo callbackId runLease payload) :
    call.rows staleness s = [lease] := by
  simp only [LeaseCall.answersTo, mem_cons, not_mem_nil, or_false] at answering
  rcases answering with rfl | rfl | rfl <;> exact inv.filter_answers mem carries fits

theorem finishRows_singleton {settlement : Settlement}
    (settles : call.settlement lease = some (settlement, false)) : finishRows call [lease] s =
      s.finishAttempt lease.toAttemptColumns (some lease.lane) lease.state false settlement := by
  simp only [finishRows, foldlM_cons, foldlM_nil, settles, bind_some, Option.bind_eq_bind,
    Option.pure_def, bind_fun_some]

theorem exists_loadActiveLease (s : CallbackState) (lease : LiveLease) (mem : lease ∈ s.leases)
    (plain : PlainClaim lease.toAttemptColumns)
    (source : lease.source ∈ s.ready) : (s.loadActiveLease lease.attempt).isSome = true := by
  obtain ⟨row, found⟩ := exists_find_readyKey plain source
  have read : s.leaseJobRow lease = some ⟨lease, row, s.scratch lease.attempt⟩ := by
    rw [CallbackState.leaseJobRow, found]
    rfl
  rw [CallbackState.loadActiveLease, isSome_head?]
  have own : lease ∈ s.leases.filter fun other => other.attempt = lease.attempt :=
    mem_filter.2 ⟨mem, decide_eq_true rfl⟩
  exact ne_nil_of_mem (mem_filterMap.2 ⟨lease, own, read⟩)

theorem TablesInv.exists_finishCall (inv : TablesInv s) (mem : lease ∈ s.leases)
    (plain : PlainClaim lease.toAttemptColumns) (free : s.Writable lease call)
    (answering : call ∈ LeaseCall.answersTo callbackId runLease payload) (startedAt : Nat) :
    ∃ s', finishCall s ⟨call, startedAt, [lease]⟩ = some s' ∧
      s'.Took callbackId lease.attempt call := by
  simp only [LeaseCall.answersTo, mem_cons, not_mem_nil, or_false] at answering
  rcases answering with rfl | rfl | rfl
  · obtain ⟨next, finished, done⟩ := inv.exists_finishAttempt mem plain free (.inl rfl)
    have closed : lease.attempt ∈ next.closures := by simp [(finishAttempt_ended finished).closures]
    refine ⟨_, congrArg (Option.map _) ((finishRows_singleton rfl).trans finished), ?_,
      closed, _, done⟩
    exact mem_append_right _ (mem_singleton_self _)
  · obtain ⟨next, finished, done⟩ := inv.exists_finishAttempt mem plain free (.inr rfl)
    have closed : lease.attempt ∈ next.closures := by simp [(finishAttempt_ended finished).closures]
    refine ⟨_, congrArg (Option.map _) ((finishRows_singleton rfl).trans finished), ?_,
      closed, _, done⟩
    exact mem_append_right _ (mem_singleton_self _)
  · have stored : lease.resumed startedAt ∈ (s.replaceLeases [lease] fun lease =>
        lease.resumed startedAt).leases :=
      mem_replaceLeases.2 (.inr ⟨lease, mem_singleton_self _, rfl⟩)
    let resumed := { s.replaceLeases [lease] fun lease => lease.resumed startedAt with
      resolved := s.resolved ++ [(callbackId, lease.attempt)] }.setScratch lease.attempt
        (AttemptScratch.resumed payload (s.scratch lease.attempt))
    have source : lease.source ∈ s.ready := inv.leases.source_mem mem
    have readable : (resumed.loadActiveLease lease.attempt).isSome = true :=
      exists_loadActiveLease resumed (lease.resumed startedAt) stored ⟨plain.lane,
        plain.covers⟩ source
    refine ⟨resumed, if_pos readable, ?_, ⟨_, stored, rfl, rfl, rfl⟩, ?_⟩
    · exact mem_append_right _ (mem_singleton_self _)
    · simp [resumed, CallbackState.setScratch, AttemptScratch.resumed]

theorem writable_of_finishCall (answering : call ∈ LeaseCall.answersTo callbackId runLease payload)
    {startedAt : Nat}
    (finished : finishCall s ⟨call, startedAt, [lease]⟩ = some s') : s.Writable lease call := by
  simp only [LeaseCall.answersTo, mem_cons, not_mem_nil, or_false] at answering
  rcases answering with rfl | rfl | rfl
  · obtain ⟨next, ran, -⟩ := map_eq_some_iff.1 finished
    exact doneKeyFree_of_finishAttempt ((finishRows_singleton rfl).symm.trans ran)
  · obtain ⟨next, ran, -⟩ := map_eq_some_iff.1 finished
    exact doneKeyFree_of_finishAttempt ((finishRows_singleton rfl).symm.trans ran)
  · trivial

theorem CallbackInv.finishCall_resolved {x : LeaseTx} (inv : CallbackInv s)
    (inFlight : s.tx t = some x) (finished : AwaQueue.finishCall s x = some s') {e : Nat × Attempt}
    (new : e ∈ s'.resolved) (unresolved : e ∉ s.resolved) :
    x.rows.map (fun lease => lease.attempt) = [e.2] := by
  have ok := inv.tx t x inFlight
  have row {callbackId : Nat} (resolves : x.call.resolves = some callbackId)
      (here : e ∈ x.rows.map fun lease => (callbackId, lease.attempt)) :
        x.rows.map (fun lease => lease.attempt) = [e.2] := by
    obtain ⟨lease, -, single, -⟩ := ok.resolved_row inv.tables resolves
    rw [single] at here ⊢
    rw [mem_singleton.1 here]
    rfl
  unfold AwaQueue.finishCall at finished
  split at finished
  case h_5 callbackId runLease payload call =>
    obtain ⟨first, head, rest⟩ := bind_eq_some_iff.1 finished
    obtain ⟨-, rfl⟩ := guard_eq_some rest
    exact row (by rw [call]; rfl) ((mem_append.1 new).resolve_left unresolved)
  case h_6 =>
    obtain ⟨next, ran, rfl⟩ := map_eq_some_iff.1 finished
    have now := (mem_append.1 new).resolve_left
      ((ok.finishRows inv.tables ran).2.resolved ▸ unresolved)
    cases resolves : x.call.resolves with
    | none => simp [resolves] at now
    | some callbackId =>
      exact row resolves (by simpa only [resolves, map_some, getD_some] using now)
  all_goals
    cases finished
    exact absurd new unresolved

theorem CallbackState.Took.release (took : s.Took callbackId a call) :
    (s.release t).Took callbackId a call := by
  cases call <;> exact took

/-- What a callback id does in a state, whatever came before. -/
structure CallbackContract (staleness : Nat) (s : CallbackState) : Prop where
  /-- One attempt registers an id, and the id is resolved on this attempt. -/
  owner : (s.registered.map Prod.fst).Nodup ∧ ∀ e ∈ s.resolved, e ∈ s.registered
  once : (s.resolved.map Prod.fst).Nodup
  /-- A step that resolves an id writes no row of another attempt. -/
  apart : ∀ op s', callbackStep staleness op s = some s' → ∀ e ∈ s'.resolved, e ∉ s.resolved →
    ∀ b ≠ e.2, Untouched s s' b
  /-- An id that a later registration or a cancel replaced is not resolved, and a call that names it
  does nothing. -/
  retired : ∀ callbackId ∈ s.retired, callbackId ∉ s.resolved.map Prod.fst ∧
    ∀ call t, call.resolves = some callbackId → s.tx t = none →
      callbackStep staleness (.begin t call) s = some s
  /-- A live id is found. -/
  found : ∀ callbackId a runLease, s.Live callbackId a → (∀ r ∈ runLease, r = a.runLease) →
    (∃ row, s.callbackJob callbackId runLease = some row ∧ row.lease.attempt = a) ∧
      ∀ payload, ∀ call ∈ LeaseCall.answersTo callbackId runLease payload, ∀ t, s.tx t = none →
        s.lock a = none →
        ∃ lease s', lease.attempt = a ∧ callbackStep staleness (.begin t call) s = some s' ∧
          s'.tx t = some ⟨call, s.now, [lease]⟩
  /-- A call that has found it takes effect, whatever other steps came between, exactly when its
  done row has a free primary key. -/
  effect : ∀ t x callbackId runLease payload, s.tx t = some x →
    x.call ∈ LeaseCall.answersTo callbackId runLease payload →
    ∃ lease, x.rows = [lease] ∧ ((∃ s', callbackStep staleness (.commit t) s = some s' ∧
      s'.Took callbackId lease.attempt x.call) ↔ s.Writable lease x.call)

theorem CallbackInv.begin_retired (inv : CallbackInv s) (gone : callbackId ∈ s.retired)
    (resolves : call.resolves = some callbackId) (idle : s.tx t = none) :
    callbackStep staleness (.begin t call) s = some s := by
  have none_found : call.rows staleness s = [] := by
    rw [eq_nil_iff_forall_not_mem]
    intro lease here
    have carries := LeaseCall.callbackId_of_mem_rows resolves here
    rcases LeaseCall.mem_rows here with stored | ⟨-, new⟩
    · exact (inv.tables.callbacks.live lease stored callbackId carries).2.1 gone
    · simp [new.noCallback] at carries
  simp only [callbackStep, idle, isNone_none, if_true, AwaQueue.beginCall, none_found]

theorem CallbackInv.begin_live (inv : CallbackInv s) (live : s.Live callbackId a)
    (fits : ∀ r ∈ runLease, r = a.runLease)
    (answering : call ∈ LeaseCall.answersTo callbackId runLease payload)
    (idle : s.tx t = none) (free : s.lock a = none) :
    ∃ lease s', lease.attempt = a ∧ callbackStep staleness (.begin t call) s = some s' ∧
      s'.tx t = some ⟨call, s.now, [lease]⟩ := by
  obtain ⟨lease, mem, own, carries⟩ :=
    inv.tables.callbacks.found (callbackId, a) live.registered live.unclosed live.current
      live.unresolved
  have rows : call.rows staleness s = [lease] := inv.rows_eq mem carries (own ▸ fits) answering
  have unlocked : s.lock lease.attempt = none := own ▸ free
  refine ⟨lease, { s with
    lock := fun b => if b ∈ [lease].map (fun lease => lease.attempt) then some t else s.lock b
    tx := Function.update s.tx t (some ⟨call, s.now, [lease]⟩) }, own, ?_,
      Function.update_self _ _ _⟩
  simp only [callbackStep, idle, isNone_none, if_true, AwaQueue.beginCall, rows,
    cons_ne_nil, if_false, all_cons, all_nil, unlocked, Bool.and_true]

end

/-- A job of the priority 4, claimed at `priority`, whose attempt registers a callback. -/
def callbackSample (priority : Nat) : List CallbackOp :=
  let job : JobColumns := ⟨0, "callback", "\x7b\x7d", 0, 0, 3, 0, none, none, {}⟩
  [.enqueue ⟨0, 1, ⟨0, 0⟩⟩ 0 4 job, .claim ⟨⟨0, 4, 0⟩, 1, ⟨0, 0⟩, 0, job⟩ priority none,
    .begin 0 (.registerCallback ⟨0, 1⟩ 60 {}), .commit 0]

end AwaQueue
