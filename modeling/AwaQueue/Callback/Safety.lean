import AwaQueue.Callback.Steps

/-! The invariant over every run. -/

namespace AwaQueue

open Function (update update_of_ne)
open List
open Option (bind_eq_some_iff ite_none_right_eq_some map_eq_some_iff)
open Library

section
variable {staleness : Nat} {s s' : CallbackState} {call : LeaseCall} {lease : LiveLease} {t : TxId}
  {x : LeaseTx} {attempts : List Attempt} {a : Attempt} {callbackId priority : Nat}
    {other : LiveLease} {rows : List LiveLease}
  {f : LiveLease → LiveLease} {closer : ReceiptCloser} {place : LanePlace}

theorem mem_materialized (mem : lease ∈ s.materialized a) :
    lease.attempt = a ∧ Materializable s lease ∧ lease.heartbeatAt = some s.now := by
  unfold CallbackState.materialized at mem
  split at mem
  next => cases mem
  next unleased =>
    obtain ⟨c, here, rfl⟩ := mem_map.1 mem
    obtain ⟨claimed, found⟩ := mem_filter.1 here
    obtain ⟨own, unclosed⟩ : c.attempt = a ∧ c.attempt ∉ s.closures := by simpa using found
    refine ⟨own, ⟨unclosed, ⟨c, claimed, rfl⟩, fun other stored same => unleased ?_, rfl, rfl⟩, rfl⟩
    exact any_eq_true.2 ⟨other, stored, decide_eq_true (same.trans own)⟩

theorem LeaseCall.rows_cases (staleness : Nat) (s : CallbackState) (call : LeaseCall) :
    (∃ a timeout config, call = .registerCallback a timeout config) ∨
      (call.registers = false ∧ ∃ p, call.rows staleness s = s.leases.filter p) := by
  cases call with
  | registerCallback a timeout config => exact .inl ⟨a, timeout, config, rfl⟩
  | _ => exact .inr ⟨rfl, _, rfl⟩

theorem LeaseCall.mem_rows (mem : lease ∈ call.rows staleness s) :
    lease ∈ s.leases ∨ (call.registers = true ∧ Materializable s lease) := by
  obtain ⟨a, timeout, config, rfl⟩ | ⟨-, p, rows⟩ := call.rows_cases staleness s
  · rcases mem_append.1 (mem_filter.1 mem).1 with stored | new
    · exact .inl stored
    · exact .inr ⟨rfl, (mem_materialized new).2.1⟩
  · rw [rows] at mem
    exact .inl (mem_filter.1 mem).1

theorem LeaseCall.rows_distinct (inv : TablesInv s) :
    ((call.rows staleness s).map fun lease => lease.attempt).Nodup := by
  obtain ⟨a, timeout, config, rfl⟩ | ⟨-, p, rows⟩ := call.rows_cases staleness s
  · have both : ((s.leases ++ s.materialized a).map fun lease => lease.attempt).Nodup := by
      rw [map_append, nodup_append]
      refine ⟨inv.leases.distinct, ?_, ?_⟩
      · unfold CallbackState.materialized
        split
        next => exact nodup_nil
        next =>
          rw [map_map]
          exact inv.residence.distinct.sublist (filter_sublist.map _)
      · intro b stored b' new
        obtain ⟨other, here, rfl⟩ := mem_map.1 stored
        obtain ⟨row, there, rfl⟩ := mem_map.1 new
        exact (mem_materialized there).2.1.unleased other here
    exact both.sublist (filter_sublist.map _)
  · rw [rows]
    exact inv.leases.distinct.sublist (filter_sublist.map _)

theorem LeaseCall.callbackId_of_mem_rows (resolves : call.resolves = some callbackId)
    (mem : lease ∈ call.rows staleness s) : lease.callbackId = some callbackId := by
  cases call with
  | resumeExternal | completeExternal | failExternal | retryExternal =>
    cases resolves
    have found := (mem_filter.1 mem).2
    simp only [LeaseCall.finds, LiveLease.answers, Bool.and_eq_true, decide_eq_true_eq] at found
    exact found.1.1
  | _ => cases resolves

theorem LeaseCall.attempt_of_mem_rows (subject : call.subject = some a)
    (mem : lease ∈ call.rows staleness s) : lease.attempt = a := by
  cases call with
  | registerCallback | cancelCallback =>
    cases subject
    have found := (mem_filter.1 mem).2
    simp only [LeaseCall.finds, Bool.and_eq_true, decide_eq_true_eq] at found
    tauto
  | _ => cases subject

theorem beginCall_cases (began : beginCall staleness s t call = some s') :
    s' = s ∨ (call.rows staleness s ≠ [] ∧
      (∀ lease ∈ call.rows staleness s, s.lock lease.attempt = none) ∧ s' = { s with
        lock := fun a => if a ∈ (call.rows staleness s).map (fun lease => lease.attempt) then some t
          else s.lock a
        tx := update s.tx t (some ⟨call, s.now, call.rows staleness s⟩) }) := by
  simp only [beginCall] at began
  split at began
  next =>
    cases began
    exact .inl rfl
  next found =>
    obtain ⟨free, rfl⟩ := guard_eq_some began
    exact .inr ⟨found, by simpa using free, rfl⟩

theorem CallbackInv.beginCall (inv : CallbackInv s)
    (began : beginCall staleness s t call = some s') : CallbackInv s' := by
  obtain rfl | ⟨found, unlocked, rfl⟩ := beginCall_cases began
  · exact inv
  · refine ⟨{ inv.tables with }, fun t' x started => ?_⟩
    by_cases same : t' = t
    · subst same
      obtain rfl : ⟨call, s.now, call.rows staleness s⟩ = x := by simpa using started
      exact ⟨fun lease here => if_pos (mem_map_of_mem here), LeaseCall.rows_distinct inv.tables,
        found, fun lease here => (LeaseCall.mem_rows here).imp_right
          (And.imp_right fun new => { new with }),
        fun callbackId resolves lease here => LeaseCall.callbackId_of_mem_rows resolves here,
        fun a subject lease here => LeaseCall.attempt_of_mem_rows subject here⟩
    · have earlier : s.tx t' = some x := by simpa [update_of_ne same] using started
      have ok := inv.tx t' x earlier
      refine ok.frame (fun lease here => if_neg fun taken => ?_) (fun _ _ _ _ => Iff.rfl)
        (fun _ _ closed => closed) fun _ mem => mem
      obtain ⟨row, there, equal⟩ := mem_map.1 taken
      have held := ok.locked lease here
      rw [← equal, unlocked row there] at held
      cases held

theorem LeaseTxOk.backed (ok : LeaseTxOk s t x) (inv : TablesInv s) (here : lease ∈ x.rows) :
    lease.attempt ∉ s.closures ∧ ∃ c ∈ s.claims, c.toAttemptColumns = lease.toAttemptColumns := by
  rcases ok.rows lease here with stored | ⟨-, new⟩
  · exact inv.leases.backed lease stored
  · exact ⟨new.unclosed, new.backed⟩

theorem LeaseTxOk.stored_eq (ok : LeaseTxOk s t x) (inv : TablesInv s) (here : lease ∈ x.rows)
    (stored : other ∈ s.leases) (same : other.attempt = lease.attempt) : other = lease := by
  rcases ok.rows lease here with mem | ⟨-, new⟩
  · exact inv.leases.lease_eq stored mem same
  · exact absurd same (new.unleased other stored)

theorem LeaseTxOk.subject_row (ok : LeaseTxOk s t x) (subject : x.call.subject = some a) :
    ∃ lease, x.rows = [lease] ∧ lease.attempt = a :=
  eq_singleton_of_nodup_map ok.distinct ok.nonempty (ok.naming a subject)

theorem LeaseTxOk.resolved_row (ok : LeaseTxOk s t x) (inv : TablesInv s)
    (resolves : x.call.resolves = some callbackId) :
    ∃ lease ∈ s.leases, x.rows = [lease] ∧ lease.callbackId = some callbackId := by
  have stored (lease : LiveLease) (here : lease ∈ x.rows) : lease ∈ s.leases := by
    rcases ok.rows lease here with mem | ⟨-, new⟩
    · exact mem
    · exact absurd (ok.resolving callbackId resolves lease here) (by simp [new.noCallback])
  obtain ⟨first, rest, shape⟩ := exists_cons_of_ne_nil ok.nonempty
  have first_mem : first ∈ x.rows := shape ▸ mem_cons_self
  obtain ⟨lease, single, -⟩ := eq_singleton_of_nodup_map
    (b := first.attempt) ok.distinct ok.nonempty
    fun other here => inv.callbacks.attempt_eq (stored other here) (stored first first_mem)
      (ok.resolving callbackId resolves other here)
        (ok.resolving callbackId resolves first first_mem)
  have mem : lease ∈ x.rows := single ▸ mem_cons_self
  exact ⟨lease, stored lease mem, single, ok.resolving callbackId resolves lease mem⟩

def Untouched (s s' : CallbackState) (a : Attempt) : Prop :=
  (∀ lease : LiveLease, lease.attempt = a → (lease ∈ s'.leases ↔ lease ∈ s.leases)) ∧
    (a ∈ s'.closures ↔ a ∈ s.closures) ∧ s'.scratch a = s.scratch a

structure OnlyTouches (s s' : CallbackState) (attempts : List Attempt) : Prop where
  claims : s'.claims = s.claims
  lock : s'.lock = s.lock
  tx : s'.tx = s.tx
  others : ∀ a ∉ attempts, Untouched s s' a

theorem Ended.onlyTouches {attempts : List Attempt} (ended : Ended s s' attempts) :
    OnlyTouches s s' attempts where
  __ := ended
  others a other := by
    refine ⟨fun lease same => ?_, ?_, ?_⟩
    · rw [ended.leases, mem_filter]
      simp [same, other]
    · rw [ended.closures, mem_append]
      simp [other]
    · rw [ended.scratch]
      exact if_neg other

theorem mem_replaceLeases : lease ∈ (s.replaceLeases rows f).leases ↔
      (lease ∈ s.leases ∧ ∀ row ∈ rows, lease.attempt ≠ row.attempt) ∨
        ∃ row ∈ rows, lease = f row := by
  simp only [CallbackState.replaceLeases, mem_append, mem_filter, mem_map,
    decide_eq_true_eq, not_exists, not_and, eq_comm (a := lease), ne_eq]
  constructor
  · rintro (⟨stored, other⟩ | new)
    · exact .inl ⟨stored, fun row here same => other row here same.symm⟩
    · exact .inr new
  · rintro (⟨stored, other⟩ | new)
    · exact .inl ⟨stored, fun row here same => other row here same.symm⟩
    · exact .inr new

theorem replaceLeases_leases (columns : ∀ row ∈ rows, (f row).toAttemptColumns =
    row.toAttemptColumns) (other : a ∉ rows.map fun row => row.attempt) (same : lease.attempt = a) :
    lease ∈ (s.replaceLeases rows f).leases ↔ lease ∈ s.leases := by
  have apart : ∀ row ∈ rows, lease.attempt ≠ row.attempt := by
    intro row here equal
    exact other (same ▸ equal ▸ mem_map_of_mem here)
  rw [mem_replaceLeases]
  constructor
  · rintro (⟨stored, -⟩ | ⟨row, here, rfl⟩)
    · exact stored
    · exact absurd (congrArg AttemptColumns.attempt (columns row here)) (apart row here)
  · intro stored
    exact .inl ⟨stored, apart⟩

theorem mem_filter_of_single (single : rows = [lease]) (own : lease.attempt = a) :
    other ∈ (s.replaceLeases rows f).leases ↔ other ∈ s.leases.filter (fun l => l.attempt ≠ a) ∨
      other = f lease := by
  subst own
  simp only [mem_replaceLeases, single, mem_singleton, forall_eq, exists_eq_left, mem_filter,
    decide_eq_true_eq]

theorem LeaseTxOk.retire (ok : LeaseTxOk s t x) (inv : TablesInv s) (single : x.rows = [lease])
    (own : lease.attempt = a) :
      CallbacksOk (s.leases.filter fun l => l.attempt ≠ a) s.closures s.registered
      (s.retired ++ x.rows.filterMap LiveLease.callbackId) s.resolved s.nextCallback := by
  have here : lease ∈ x.rows := single ▸ mem_cons_self
  refine inv.callbacks.retire (fun callbackId given => ?_) fun other mem same callbackId carries =>
    ?_
  · have carries : lease.callbackId = some callbackId := by simpa [single] using given
    rcases ok.rows lease here with mem | ⟨-, insertable⟩
    · exact ⟨lease, mem, own, carries⟩
    · rw [insertable.noCallback] at carries
      cases carries
  · rw [ok.stored_eq inv here mem (same.trans own.symm)] at carries
    simpa [single] using carries

theorem OnlyTouches.replace (leases : s'.leases = (s.replaceLeases rows f).leases)
    (columns : ∀ row ∈ rows, (f row).toAttemptColumns = row.toAttemptColumns)
    (closures : s'.closures = s.closures)
    (claims : s'.claims = s.claims) (lock : s'.lock = s.lock) (tx : s'.tx = s.tx)
    (scratch : ∀ a ∉ rows.map (fun row => row.attempt), s'.scratch a = s.scratch a) :
    OnlyTouches s s' (rows.map fun row => row.attempt) where
  claims := claims
  lock := lock
  tx := tx
  others a other := ⟨fun _ same => leases ▸ replaceLeases_leases columns other same,
    closures ▸ Iff.rfl, scratch a other⟩

theorem LeaseTxOk.state (ok : LeaseTxOk s t x) (inv : TablesInv s) (here : lease ∈ x.rows) :
    lease.state = .running ∨ lease.state = .waitingExternal := by
  rcases ok.rows lease here with stored | ⟨-, new⟩
  · exact inv.leases.state lease stored
  · exact .inl new.running

theorem LeaseTxOk.stored (ok : LeaseTxOk s t x) (registers : x.call.registers = false)
    (here : lease ∈ x.rows) : lease ∈ s.leases := by
  rcases ok.rows lease here with stored | ⟨new, -⟩
  · exact stored
  · rw [registers] at new
    cases new

theorem LeaseTxOk.keep (ok : LeaseTxOk s t x) (inv : TablesInv s)
    (registers : x.call.registers = false)
    (columns : ∀ row ∈ x.rows, (f row).toAttemptColumns = row.toAttemptColumns)
    (callbacks : ∀ row ∈ x.rows, (f row).callbackId = row.callbackId) :
    CallbacksOk (s.replaceLeases x.rows f).leases s.closures s.registered s.retired s.resolved
      s.nextCallback := by
  refine inv.callbacks.keep (fun l here => ?_) fun l here => ?_
  · rcases mem_replaceLeases.1 here with ⟨kept, -⟩ | ⟨row, there, rfl⟩
    · exact ⟨l, kept, rfl, rfl⟩
    · exact ⟨row, ok.stored registers there,
        (congrArg AttemptColumns.attempt (columns row there)).symm, (callbacks row there).symm⟩
  · by_cases locked : ∃ row ∈ x.rows, l.attempt = row.attempt
    · obtain ⟨row, there, same⟩ := locked
      obtain rfl := ok.stored_eq inv there here same
      exact ⟨f l, mem_replaceLeases.2 (.inr ⟨l, there, rfl⟩),
        congrArg AttemptColumns.attempt (columns l there), callbacks l there⟩
    · exact ⟨l, mem_replaceLeases.2 (.inl ⟨here, fun row there same => locked ⟨row, there, same⟩⟩),
        rfl, rfl⟩

theorem LeaseTxOk.finishRows (ok : LeaseTxOk s t x) (inv : TablesInv s)
    (ran : finishRows x.call x.rows s = some s') :
    TablesInv s' ∧ Ended s s' (x.rows.map fun lease => lease.attempt) := by
  refine foldlM_finishAttempt LiveLease.toAttemptColumns (fun s lease s' finished => ?_) inv
    (fun lease here => ?_) ok.distinct ran
  · obtain ⟨⟨settlement, rescue⟩, -, finished⟩ := bind_eq_some_iff.1 finished
    exact ⟨_, _, rescue, settlement, finished⟩
  · obtain ⟨unclosed, c, mem, same⟩ := ok.backed inv here
    exact ⟨c, mem, same, (congrArg AttemptColumns.attempt same) ▸ unclosed⟩

theorem CallbackInv.finishCall (inv : CallbackInv s) (inFlight : s.tx t = some x)
    (finished : finishCall s x = some s') :
    TablesInv s' ∧ OnlyTouches s s' (x.rows.map fun lease => lease.attempt) := by
  have tables := inv.tables
  have ok := inv.tx t x inFlight
  have backed (lease : LiveLease) (here : lease ∈ x.rows) := ok.backed tables here
  have state (lease : LiveLease) (here : lease ∈ x.rows) := ok.state tables here
  have keeps {b : Attempt} (mem : b ∈ x.rows.map fun lease => lease.attempt)
      (row : Option AttemptScratch) (a : Attempt)
      (other : a ∉ x.rows.map fun lease => lease.attempt) : update s.scratch b row a =
        s.scratch a :=
    update_of_ne (fun same => other (same ▸ mem)) _ _
  unfold AwaQueue.finishCall at finished
  split at finished
  next a timeout config call =>
    obtain ⟨lease, single, own⟩ := ok.subject_row (a := a) (by rw [call]; rfl)
    have mem : a ∈ x.rows.map fun lease => lease.attempt := by simp [single, own]
    cases finished
    refine ⟨{ tables with
      leases := tables.leases.replace ok.distinct backed (fun _ _ => rfl) state
      callbacks := ?_ }, .replace rfl (fun _ _ => rfl) rfl rfl rfl rfl (keeps mem _)⟩
    refine (ok.retire tables single own).register (fun l here => ?_) (fun l here => ?_) ?_
    · rcases (mem_filter_of_single single own).1 here with kept | rfl
      · exact .inl kept
      · exact .inr ⟨own, rfl⟩
    · exact (mem_filter_of_single single own).2 (.inl here)
    · exact ⟨_, (mem_filter_of_single single own).2 (.inr rfl), own, rfl⟩
  next a call =>
    obtain ⟨lease, single, own⟩ := ok.subject_row (a := a) (by rw [call]; rfl)
    have mem : a ∈ x.rows.map fun lease => lease.attempt := by simp [single, own]
    cases finished
    refine ⟨{ tables with
      leases := tables.leases.replace ok.distinct backed (fun _ _ => rfl) state
      callbacks := ?_ }, .replace rfl (fun _ _ => rfl) rfl rfl rfl rfl (keeps mem _)⟩
    refine (ok.retire tables single own).insert (fun l here => ?_) fun l here => ?_
    · rcases (mem_filter_of_single single own).1 here with kept | rfl
      · exact .inl kept
      · exact .inr rfl
    · exact (mem_filter_of_single single own).2 (.inl here)
  next a callbackId call =>
    cases finished
    exact ⟨{ tables with
      leases := tables.leases.replace ok.distinct backed (fun _ _ => rfl) fun _ _ => .inr rfl
      callbacks := ok.keep tables (by rw [call]; rfl) (fun _ _ => rfl) fun _ _ =>
        rfl }, .replace rfl (fun _ _ => rfl) rfl rfl rfl rfl fun _ _ => rfl⟩
  next callbackId timeout call =>
    cases finished
    exact ⟨{ tables with
      leases := tables.leases.replace ok.distinct backed (fun _ _ => rfl) state
      callbacks := ok.keep tables (by rw [call]; rfl) (fun _ _ => rfl) fun _ _ =>
        rfl }, .replace rfl (fun _ _ => rfl) rfl rfl rfl rfl fun _ _ => rfl⟩
  next callbackId runLease payload call =>
    have resolves : x.call.resolves = some callbackId := by rw [call]; rfl
    obtain ⟨lease, stored, single, carries⟩ := ok.resolved_row tables resolves
    have mem : lease.attempt ∈ x.rows.map fun lease => lease.attempt := by simp [single]
    obtain ⟨first, head, rest⟩ := bind_eq_some_iff.1 finished
    obtain rfl : lease = first := by simpa [single] using head
    obtain ⟨-, rfl⟩ := guard_eq_some rest
    refine ⟨{ tables with
      leases := tables.leases.replace ok.distinct backed (fun _ _ => rfl) fun _ _ => .inl rfl
      callbacks := ?_ }, .replace rfl (fun _ _ => rfl) rfl rfl rfl rfl (keeps mem _)⟩
    have resolved := tables.callbacks.resolve stored carries
      (fun l here same => tables.leases.lease_eq here stored same) fun _ closed => closed
    rw [single]
    refine resolved.insert (fun l here => ?_) fun l here => ?_
    · rcases (mem_filter_of_single rfl rfl).1 here with kept | rfl
      · exact .inl kept
      · exact .inr rfl
    · exact (mem_filter_of_single rfl rfl).2 (.inl here)
  next =>
    obtain ⟨next, ran, rfl⟩ := map_eq_some_iff.1 finished
    obtain ⟨ended, frame⟩ := ok.finishRows tables ran
    refine ⟨?_, { frame.onlyTouches with }⟩
    cases resolves : x.call.resolves with
    | none =>
      refine { ended with callbacks := ?_ }
      simpa only [Option.map_none, Option.getD_none, append_nil] using ended.callbacks
    | some callbackId =>
      obtain ⟨lease, stored, single, carries⟩ := ok.resolved_row tables resolves
      have resolved := tables.callbacks.resolve stored carries
        (fun l here same => tables.leases.lease_eq here stored same) fun _ closed =>
          mem_append_left [lease.attempt] closed
      refine { ended with callbacks := ?_ }
      simp only [frame.leases, frame.closures, frame.registered, frame.retired, frame.resolved,
        frame.nextCallback, single,
        map_cons, map_nil, mem_singleton, Option.map_some, Option.getD_some]
      exact resolved

theorem CallbackInv.release (inv : CallbackInv s) (tables : TablesInv s')
    (touches : OnlyTouches s s' attempts)
    (locked : ∀ a ∈ attempts, s.lock a = some t) : CallbackInv (s'.release t) := by
  refine ⟨{ tables with }, fun t' x started => ?_⟩
  have different : t' ≠ t := by
    rintro rfl
    simp [CallbackState.release] at started
  have earlier : s.tx t' = some x := by
    rw [← touches.tx]
    simpa [CallbackState.release, update_of_ne different] using started
  have ok := inv.tx t' x earlier
  -- the rows of the other transaction carry its own lock
  have other (lease : LiveLease) (here : lease ∈ x.rows) : lease.attempt ∉ attempts := by
    intro mine
    have held := ok.locked lease here
    rw [locked _ mine] at held
    exact different (Option.some_inj.1 held).symm
  refine ok.frame (fun lease here => ?_) (fun lease here row same => ?_)
    (fun lease here closed => ?_) fun c mem => ?_
  · simp only [CallbackState.release, touches.lock, ok.locked lease here]
    simp [different]
  · exact (touches.others _ (other lease here)).1 row same
  · exact (touches.others _ (other lease here)).2.1.1 closed
  · exact touches.claims ▸ mem

theorem CallbackInv.commit (inv : CallbackInv s)
    (committed : callbackStep staleness (.commit t) s = some s') : CallbackInv s' := by
  obtain ⟨x, inFlight, rest⟩ := bind_eq_some_iff.1 committed
  obtain ⟨next, finished, rfl⟩ := map_eq_some_iff.1 rest
  obtain ⟨tables, touches⟩ := inv.finishCall inFlight finished
  refine inv.release tables touches fun a mem => ?_
  obtain ⟨lease, here, rfl⟩ := mem_map.1 mem
  exact (inv.tx t x inFlight).locked lease here

theorem ReceiptCloser.mem_claims {c : ClaimReceipt}
    (here : c ∈ closer.claims staleness s attempts) :
    c ∈ s.claims ∧ c.attempt ∉ s.closures ∧ s.leased c.attempt = false ∧
      closer.finds staleness s c = true := by
  obtain ⟨mem, chosen⟩ := mem_filter.1 here
  simp only [Bool.and_eq_true, decide_eq_true_eq, Bool.not_eq_true'] at chosen
  exact ⟨mem, chosen.1.1.2, chosen.1.2, chosen.2⟩

theorem CallbackInv.closeReceipts_ended (inv : CallbackInv s)
    (closed : closeReceipts staleness s closer attempts = some s') :
    let claims := closer.claims staleness s attempts
    (∀ c ∈ claims, s.lock c.attempt = none) ∧ ∃ next, TablesInv next ∧
      Ended s next (claims.map fun c => c.attempt) ∧ s' = { next with
        staleRescued := s.staleRescued ++ if closer.isStaleRescue then
          claims.map (fun c => c.attempt) else [] } := by
  obtain ⟨free, closed⟩ := ite_none_right_eq_some.1 closed
  obtain ⟨next, ran, rfl⟩ := map_eq_some_iff.1 closed
  obtain ⟨tables, ended⟩ := foldlM_finishAttempt ClaimReceipt.toAttemptColumns
    (fun s c s' finished => ⟨_, _, _, _, finished⟩) inv.tables
    (fun c here => ⟨c, (ReceiptCloser.mem_claims here).1, rfl, (ReceiptCloser.mem_claims here).2.1⟩)
    (inv.tables.residence.distinct.sublist (filter_sublist.map _)) ran
  exact ⟨by simpa using free, next, tables, ended, by rw [ended.staleRescued]⟩

theorem CallbackInv.closeReceipts (inv : CallbackInv s)
    (closed : closeReceipts staleness s closer attempts = some s') : CallbackInv s' := by
  obtain ⟨free, next, tables, ended, rfl⟩ := inv.closeReceipts_ended closed
  refine ⟨{ tables with }, fun t x inFlight => ?_⟩
  have ok := inv.tx t x (by rw [← ended.tx]; exact inFlight)
  have touches := ended.onlyTouches
  have other (lease : LiveLease) (here : lease ∈ x.rows) :
      lease.attempt ∉ (closer.claims staleness s attempts).map fun c => c.attempt := by
    intro mine
    obtain ⟨c, there, same⟩ := mem_map.1 mine
    have held := ok.locked lease here
    rw [← same, free c there] at held
    cases held
  exact ok.frame (fun lease here => congrFun ended.lock _)
    (fun lease here row same => (touches.others _ (other lease here)).1 row same)
    (fun lease here closed => (touches.others _ (other lease here)).2.1.1 closed) fun c mem =>
      ended.claims ▸ mem

theorem CallbackInv.of_tables (inv : CallbackInv s) (tables : TablesInv s')
    (leases : s'.leases = s.leases)
    (closures : s'.closures = s.closures) (lock : s'.lock = s.lock) (tx : s'.tx = s.tx)
    (claims : ∀ c ∈ s.claims, c ∈ s'.claims) : CallbackInv s' :=
  ⟨tables, fun t x inFlight => (inv.tx t x (tx ▸ inFlight)).frame (fun _ _ => congrFun lock _)
    (fun _ _ _ _ => by rw [leases]) (fun _ _ closed => closures ▸ closed) claims⟩

theorem TablesInv.enqueue {queue : Nat} {job : JobColumns} (inv : TablesInv s)
    (step : callbackStep staleness (.enqueue place queue priority job) s = some s') :
    TablesInv s' := by
  obtain ⟨table, synced, inserted⟩ := bind_eq_some_iff.1 step
  obtain ⟨row, columns, unused, rfl⟩ := insertReady_cases inserted
  have before := inv.residence.enqueue
  have numbered : TablesInv { s with nextJob := s.nextJob + 1 } :=
    ⟨before.drop, inv.closed, inv.leases,
      ⟨inv.unique.keys, inv.unique.same,
        fun x here => Nat.lt_succ_of_lt (inv.unique.bounded x here), inv.unique.held⟩,
      inv.callbacks⟩
  refine numbered.insertReady before (fun _ never => ?_) (fun x here same => ?_) synced ?_
    (by rw [columns]) unused
  · cases never
  · exact absurd same (Nat.ne_of_lt (inv.unique.bounded x here))
  · rw [ReadyRow.carried, columns]

theorem TablesInv.promote {entry : DeferredEntry} (inv : TablesInv s)
    (step : callbackStep staleness (.promote entry place) s = some s') : TablesInv s' := by
  obtain ⟨⟨deferred, -⟩, rest⟩ := ite_none_right_eq_some.1 step
  obtain ⟨table, synced, inserted⟩ := bind_eq_some_iff.1 rest
  obtain ⟨row, columns, unused, rfl⟩ := insertReady_cases inserted
  have before : ResidenceOk (entry.carried :: waitingAttempts s.unclaimed (s.deferred.erase entry))
      (claimAttempts s.claims) s.closures s.nextJob := by
    refine inv.residence.perm (List.Perm.symm ?_)
    refine (((perm_cons_erase deferred).map DeferredEntry.carried).append_left _).trans ?_
    rw [map_cons]
    exact perm_middle
  have known : (entry.job.jobId, entry.job.unique) ∈ uniqueSpecs s.ready s.deferred :=
    mem_append_right _ (mem_map_of_mem (f := fun entry : DeferredEntry => (entry.job.jobId,
      entry.job.unique)) deferred)
  have fewer (x : Nat × UniqueColumns) (here : x ∈ uniqueSpecs s.ready (s.deferred.erase entry)) :
      x ∈ uniqueSpecs s.ready s.deferred := by
    rcases mem_append.1 here with ready | rest
    · exact mem_append_left _ ready
    · exact mem_append_right _ (map_subset _ (erase_sublist.subset) rest)
  have removed : TablesInv { s with deferred := s.deferred.erase entry } := by
    refine ⟨before.drop, inv.closed, inv.leases, inv.unique.mono (fun r here => ?_) fewer,
      inv.callbacks⟩
    rw [mem_residents] at here ⊢
    refine here.imp_right (Or.imp_left ?_)
    rintro ⟨e, mem, rfl⟩
    exact ⟨e, mem_of_mem_erase mem, rfl⟩
  refine removed.insertReady before (fun running claiming => ?_) (fun x here same => ?_) synced ?_
    (by rw [columns]) unused
  · exact inv.unique.held (entry.job.jobId, entry.state)
      (mem_residents.2 (.inr (.inl ⟨entry, deferred, rfl⟩))) _ known rfl running claiming
  · exact inv.unique.same x (fewer x here) _ known same
  · rw [ReadyRow.carried, columns]
    rfl

theorem TablesInv.claim {row : ReadyEntry} {deadlineAt : Option Nat} (inv : TablesInv s)
    (step : callbackStep staleness (.claim row priority deadlineAt) s = some s') :
    TablesInv s' := by
  obtain ⟨⟨contained, -⟩, rest⟩ := ite_none_right_eq_some.1 step
  obtain ⟨table, synced, rfl⟩ := map_eq_some_iff.1 rest
  have unclaimed : row ∈ s.unclaimed := contains_iff_mem.1 contained
  have before : ResidenceOk (row.carried :: waitingAttempts (s.unclaimed.erase row) s.deferred)
      (claimAttempts s.claims) s.closures s.nextJob :=
    inv.residence.perm (((perm_cons_erase unclaimed).map ReadyRow.carried).append_right _).symm
  have fresh := before.next_fresh
  have unclosed : row.nextAttempt ∉ s.closures := fun closed => fresh (inv.closed _ closed)
  have ready := inv.leases.waiting row unclaimed
  have extended : claimAttempts (s.claims ++ [⟨row.columns priority, s.now, deadlineAt⟩]) =
      claimAttempts s.claims ++ [row.nextAttempt] := map_append
  refine ⟨?_, ?_, ?_, ?_, inv.callbacks⟩
  · simp only [extended]
    exact before.claim unclosed
  · intro a closed
    simp only [extended]
    exact mem_append_left _ (inv.closed a closed)
  · refine ⟨inv.leases.keys, fun other here => inv.leases.waiting other (mem_of_mem_erase here),
      fun c here => ?_, inv.leases.distinct, fun lease here => ?_, inv.leases.state⟩
    · rcases mem_append.1 here with earlier | now
      · exact inv.leases.claimed c earlier
      · rw [mem_singleton.1 now]
        exact ⟨ready, priority, rfl⟩
    · obtain ⟨openNow, c, mem, same⟩ := inv.leases.backed lease here
      exact ⟨openNow, c, mem_append_left _ mem, same⟩
  · have removed : UniqueOk s.uniqueClaims (uniqueSpecs s.ready s.deferred)
        (residents (s.unclaimed.erase row) s.deferred
          ((claimAttempts s.claims).filter (· ∉ s.closures))) s.nextJob := by
      refine inv.unique.mono (fun r here => ?_) fun x here => here
      rw [mem_residents] at here ⊢
      refine here.imp_left ?_
      rintro ⟨u, mem, rfl⟩
      exact ⟨u, mem_of_mem_erase mem, rfl⟩
    refine removed.arrive (fun x here same => inv.unique.same x here _ (TablesInv.mem_specs ready)
      same) (TablesInv.absent_residents (s := { s with unclaimed := s.unclaimed.erase row }) before)
        (Nat.le_refl _)
      (before.bounded row.carried (by simp)) synced (fun running claiming => ?_)
        (fun r here => ?_) fun x here => .inl here
    · exact inv.unique.held (row.job.jobId, .available)
        (mem_residents.2 (.inl ⟨row, unclaimed, rfl⟩)) _
        (TablesInv.mem_specs ready) rfl running claiming
    · simp only [extended, filter_append, residents, map_append, mem_append] at here ⊢
      rcases here with waiting | running | new
      · exact .inl (.inl waiting)
      · exact .inl (.inr running)
      · obtain ⟨a, mem, rfl⟩ := mem_map.1 new
        rw [mem_singleton.1 (mem_filter.1 mem).1]
        exact .inr rfl

end

theorem callbackInv_step {staleness : Nat} {op : CallbackOp} {s s' : CallbackState}
    (inv : CallbackInv s) (step : callbackStep staleness op s = some s') : CallbackInv s' := by
  have scratchOnly {next : CallbackState} (tables : TablesInv next)
      (leases : next.leases = s.leases)
      (closures : next.closures = s.closures) (lock : next.lock = s.lock) (tx : next.tx = s.tx)
      (claims : next.claims = s.claims) : CallbackInv next :=
    inv.of_tables tables leases closures lock tx fun c mem => claims ▸ mem
  cases op with
  | tick =>
    cases step
    exact scratchOnly { inv.tables with } rfl rfl rfl rfl rfl
  | enqueue place queue priority job =>
    have tables := inv.tables.enqueue step
    obtain ⟨table, -, inserted⟩ := bind_eq_some_iff.1 step
    obtain ⟨row, -, -, rfl⟩ := insertReady_cases inserted
    exact scratchOnly tables rfl rfl rfl rfl rfl
  | promote entry place =>
    have tables := inv.tables.promote step
    obtain ⟨-, rest⟩ := ite_none_right_eq_some.1 step
    obtain ⟨table, -, inserted⟩ := bind_eq_some_iff.1 rest
    obtain ⟨row, -, -, rfl⟩ := insertReady_cases inserted
    exact scratchOnly tables rfl rfl rfl rfl rfl
  | claim row priority deadlineAt =>
    have tables := inv.tables.claim step
    obtain ⟨-, rest⟩ := ite_none_right_eq_some.1 step
    obtain ⟨table, -, rfl⟩ := map_eq_some_iff.1 rest
    exact inv.of_tables tables rfl rfl rfl rfl fun c mem => mem_append_left _ mem
  | heartbeat attempts =>
    obtain ⟨-, rfl⟩ := guard_eq_some step
    exact scratchOnly { inv.tables with } rfl rfl rfl rfl rfl
  | heartbeatProgress a progress | flushProgress a progress =>
    obtain ⟨-, rest⟩ := Option.ite_none_left_eq_some.1 step
    cases rest
    exact scratchOnly { inv.tables with } rfl rfl rfl rfl rfl
  | takeCallbackResult a | replaceDone done =>
    cases step
    exact scratchOnly { inv.tables with } rfl rfl rfl rfl rfl
  | begin t call =>
    obtain ⟨-, began⟩ := ite_none_right_eq_some.1 step
    exact inv.beginCall began
  | commit t => exact inv.commit step
  | abort t =>
    obtain ⟨-, rfl⟩ := guard_eq_some step
    exact inv.release inv.tables ⟨rfl, rfl, rfl, fun _ _ => ⟨fun _ _ => Iff.rfl, Iff.rfl, rfl⟩⟩
      (forall_mem_nil _)
  | closeReceipts closer attempts => exact inv.closeReceipts step

theorem callbackInv_reachable {staleness : Nat} {ok : CallbackOp → CallbackState → Prop}
    {s : CallbackState} (reached : (callbackMachine staleness).Reachable ok s) : CallbackInv s := by
  refine reached.invariant ?_ fun op s t _ inv _ step => callbackInv_step inv step
  rintro s rfl
  have residence : ResidenceOk [] [] [] 0 :=
    ⟨nodup_nil, nodup_nil, forall_mem_nil _, forall_mem_nil _⟩
  have leases : LeasesOk [] [] [] [] [] :=
    ⟨nodup_nil, forall_mem_nil _, forall_mem_nil _, nodup_nil, forall_mem_nil _, forall_mem_nil _⟩
  have unique : UniqueOk [] [] [] 0 :=
    ⟨nodup_nil, forall_mem_nil _, forall_mem_nil _, forall_mem_nil _⟩
  have callbacks : CallbacksOk [] [] [] [] [] 0 :=
    ⟨nodup_nil, forall_mem_nil _, forall_mem_nil _, nodup_nil, forall_mem_nil _,
      forall_mem_nil _, forall_mem_nil _, forall_mem_nil _⟩
  exact ⟨⟨residence, forall_mem_nil _, leases, unique, callbacks⟩,
    fun t x inFlight => by cases inFlight⟩

end AwaQueue
