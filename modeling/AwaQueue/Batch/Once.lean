import AwaQueue.Batch.Exclusion

/-! What a run of the batch runners keeps. -/

namespace AwaQueue.Batch

open List
open Function (update update_self update_of_ne forall_update_iff)
open Option Library

section
variable {s t : BatchState} {r id : Nat} {ops : Nat → Option Operation} {f : Operation → Operation}

structure Settles (s : BatchState) (tx : ItemTx) (t : BatchState) : Prop where
  inv : BatchInv t
  item : tx.job ∈ pendingOf s.ops tx.op
  phase : t.phase = s.phase
  locked : t.locked = s.locked.erase tx.item
  ops : t.ops = update s.ops tx.op ((s.ops tx.op).map fun o => o.recordOutcome tx.job tx.outcome)
  used : t.used = s.used
  applied : t.applied = s.applied ++ if tx.outcome = .processed then [tx.item] else []
  pending : ∀ id job, job ∈ pendingOf s.ops id → (id, job) ≠ tx.item → job ∈ pendingOf t.ops id

theorem map_erase_item {transactions : List ItemTx} {tx : ItemTx}
    (apart : (transactions.map ItemTx.item).Nodup) (there : tx ∈ transactions) :
    (transactions.erase tx).map ItemTx.item = (transactions.map ItemTx.item).erase tx.item := by
  induction transactions with
  | nil => cases there
  | cons head tail ih =>
    obtain ⟨first, rest⟩ := nodup_cons.1 apart
    by_cases here : head = tx
    · subst here
      rw [erase_cons_head, map_cons, erase_cons_head]
    · have later : tx ∈ tail := (mem_cons.1 there).resolve_left (Ne.symm here)
      have other : head.item ≠ tx.item := fun same => first (same ▸ mem_map_of_mem later)
      rw [erase_cons_tail (by simpa using here), map_cons, map_cons,
        erase_cons_tail (by simpa using other), ih rest later]

theorem settles_of_settle {tx : ItemTx} (inv : BatchInv s) (step : s.settle tx = some t) :
    Settles s tx t := by
  obtain ⟨⟨there, -⟩, rfl⟩ := guard_eq_some step
  have item : tx.item ∈ s.locked := mem_map_of_mem there
  have waits : tx.job ∈ pendingOf s.ops tx.op := inv.pending _ item
  obtain ⟨o, present, first⟩ := exists_of_pendingOf waits
  obtain ⟨recorded, left⟩ := (inv.ops tx.op o present).recordOutcome first (inv.outcomes tx there)
  have elsewhere {id : Nat} (other : id ≠ tx.op) :
      pendingOf (s.settled tx).ops id = pendingOf s.ops id :=
    congrArg (fun found => Option.elim found [] Operation.pendingJobs) (update_of_ne other _ _)
  have kept (id job : Nat) (pending : job ∈ pendingOf s.ops id) (other : (id, job) ≠ tx.item) :
      job ∈ pendingOf (s.settled tx).ops id := by
    by_cases here : id = tx.op
    · subst here
      rw [BatchState.settled, pendingOf_update, present]
      rw [pendingOf_some present] at pending
      refine (left job).2 ⟨pending, ?_⟩
      rintro rfl
      exact other rfl
    · rwa [elsewhere here]
  have fewer (id : Nat) (none : pendingOf s.ops id = []) :
      pendingOf (s.settled tx).ops id = [] := by
    by_cases here : id = tx.op
    · subst here
      rw [pendingOf_some present] at none
      rw [none] at first
      cases first
    · rwa [elsewhere here]
  have locks : (s.settled tx).locked = s.locked.erase tx.item := map_erase_item inv.apart there
  have outside {id : Nat} (other : id ≠ tx.op) (job : Nat) :
      (s.settled tx).applied.count (id, job) = s.applied.count (id, job) := by
    rw [BatchState.settled, count_append, Nat.add_eq_left]
    split
    · exact count_eq_zero_of_not_mem fun mem => other (congrArg Prod.fst (mem_singleton.1 mem))
    · rfl
  refine ⟨?_, waits, rfl, locks, rfl, rfl, rfl, kept⟩
  constructor
  · exact inv.lock
  · intro r
    refine (inv.phases r).mono (fun id job pending free =>
      ⟨kept id job pending fun same => free (same ▸ item), ?_⟩) fewer ?_
    · rw [locks]
      exact fun mem => free (mem_of_mem_erase mem)
    · intro id o' now final
      rcases update_eq_some now with ⟨rfl, changed⟩ | ⟨-, old⟩
      · obtain ⟨old, was, rfl⟩ := map_eq_some_iff.1 changed
        exact ⟨old, was, final⟩
      · exact ⟨o', old, final⟩
  · intro id o' now
    rcases update_eq_some now with ⟨rfl, changed⟩ | ⟨other, old⟩
    · rw [present] at changed
      cases changed
      exact recorded
    · have before := inv.ops id o' old
      exact { before with applied := fun job => (outside other job).trans (before.applied job) }
  · refine (forall_update_iff s.ops fun id' found => found ≠ none → id' ∈ s.used).2
      ⟨fun there => ?_, fun id' _ => inv.used id'⟩
    exact inv.used tx.op fun none => there (map_eq_none_iff.2 none)
  · refine forall_mem_append.2 ⟨inv.known, fun entry new => ?_⟩
    split at new
    · rw [mem_singleton.1 new]
      exact inv.used tx.op (by rw [present]; exact some_ne_none o)
    · cases new
  · rintro ⟨id, job⟩
    by_cases here : id = tx.op
    · subst here
      exact recorded.once job
    · rw [outside here]
      exact inv.once _
  · exact fun tx' mem => inv.outcomes tx' (mem_of_mem_erase mem)
  · exact locks ▸ inv.apart.erase _
  · intro item' mem
    rw [locks] at mem
    obtain ⟨other, old⟩ := (inv.apart.mem_erase_iff).1 mem
    exact kept item'.1 item'.2 (inv.pending item' old) other

inductive RunnerChange (s : BatchState) (r : Nat) : BatchState → Prop where
  | move {phase : Phase} (busy : s.phase r ≠ .idle) (next : PhaseOk s.ops s.locked phase) :
    RunnerChange s r (s.setPhase r phase)
  | abandon {phase : Phase} (busy : s.phase r ≠ .idle) (next : PhaseOk s.ops s.locked phase) :
      RunnerChange s r ((s.orphan r).setPhase r phase)
  | update {id : Nat} {f : Operation → Operation} {phase : Phase} (busy : s.phase r ≠ .idle)
      (ok : ∀ o, s.ops id = some o → OperationOk s.applied id (f o) ∧
        ((f o).state.active = true → o.state.active = true))
      (kept : ∀ o, s.ops id = some o → ∀ job, (id, job) ∈ s.locked → job ∈ o.pendingJobs →
        job ∈ (f o).pendingJobs)
      (next : PhaseOk (update s.ops id ((s.ops id).map f)) s.locked phase) :
      RunnerChange s r ((s.modifyOp id f).setPhase r phase)
  | record {id job : Nat} {rest : List Nat} {outcome : ItemState} {t : BatchState}
      (busy : s.phase r ≠ .idle)
      (settles : outcome ≠ .pending) (hand : Hand s.ops s.locked id (job :: rest))
      (step : s.record r id job outcome rest = some t) : RunnerChange s r t
  | settle {tx : ItemTx} {t : BatchState} {phase : Phase} (busy : s.phase r ≠ .idle)
      (settled : Settles s tx t)
      (next : PhaseOk t.ops t.locked phase) : RunnerChange s r (t.setPhase r phase)
  | leave : RunnerChange s r ((s.release r).setPhase r .idle)

section
variable (inv : BatchInv s) {state : OperationState}
include inv

theorem claimNext_change (busy : s.phase r ≠ .idle) (found : s.stateOf id = some state)
    (active : state.active = true) :
    RunnerChange s r ((s.modifyOp id fun o => if o.state = .pending then
      { o with state := .scanning } else o).setPhase r (claimedPhase id state)) := by
  obtain ⟨o, there, rfl⟩ := map_eq_some_iff.1 found
  apply RunnerChange.update busy
  · intro o' there'
    have before := inv.ops id o' there'
    split
    · next pending =>
      refine ⟨{ before with final := fun final => Bool.noConfusion final }, fun _ => ?_⟩
      rw [pending]
      rfl
    · exact ⟨before, fun same => same⟩
  · intro o _ job _ there
    split
    · exact there
    · exact there
  · have scan : ∀ o', update s.ops id ((s.ops id).map fun o => if o.state = .pending then
        { o with state := .scanning } else o) id = some o' → o'.state.active = true := by
      intro o' now
      rw [update_self, there] at now
      cases now
      change OperationState.active (Operation.state (if _ then _ else _)) = true
      split
      · rfl
      · exact active
    cases o.state with
    | pending | scanning => exact scan
    | running | cancelling | completed | cancelled | failed => trivial

theorem scanPage_change (scanning : s.phase r = .scanning id) (jobs : List Nat) :
    RunnerChange s r ((s.modifyOp id (·.insertItems jobs)).setPhase r (.scanned id)) := by
  have active := inv.phases r
  rw [scanning] at active
  apply RunnerChange.update (by rw [scanning]; exact Phase.noConfusion)
  · intro o there
    exact ⟨((inv.ops id o there).insertItems (active o there) jobs).1, fun _ => active o there⟩
  · exact fun o _ job _ there => mem_pendingJobs_insertItems jobs there
  · intro o now
    rw [update_self] at now
    obtain ⟨old, was, rfl⟩ := map_eq_some_iff.1 now
    rw [((inv.ops id old was).insertItems (active old was) jobs).2]
    exact active old was

theorem endScan_change (scanning : s.phase r = .scanning id) (running : Prop) [Decidable running] :
    RunnerChange s r ((s.modifyOp id fun o => if o.state = .scanning then
      { o with state := .running } else o).setPhase r
      (if running then .chunk id else .unlocking)) := by
  apply RunnerChange.update (by rw [scanning]; exact Phase.noConfusion)
  · intro o there
    have before := inv.ops id o there
    split
    · next still =>
      refine ⟨{ before with final := fun final => Bool.noConfusion final }, fun _ => ?_⟩
      rw [still]
      rfl
    · exact ⟨before, fun same => same⟩
  · intro o _ job _ there
    split
    · exact there
    · exact there
  · split <;> trivial

theorem skipPending_change (busy : s.phase r ≠ .idle) (free : ∀ item ∈ s.locked, item.1 ≠ id) :
    RunnerChange s r ((s.modifyOp id (·.skipPending)).setPhase r (.finalizing id .cancelled)) := by
  apply RunnerChange.update busy
  · intro o there
    exact ⟨(inv.ops id o there).skipPending.1, fun same => same⟩
  · exact fun o _ job locked _ => absurd rfl (free _ locked)
  · refine ⟨rfl, ?_⟩
    rw [pendingOf_update]
    cases there : s.ops id with
    | none => rfl
    | some o => exact (inv.ops id o there).skipPending.2

theorem finalize_change (finalizing : s.phase r = .finalizing id state) :
    RunnerChange s r ((s.modifyOp id fun o => { o with state := state }).setPhase r
      .unlocking) := by
  have none := inv.phases r
  rw [finalizing] at none
  apply RunnerChange.update (by rw [finalizing]; exact Phase.noConfusion)
  · intro o there
    have before := inv.ops id o there
    refine ⟨{ before with final := fun _ => ?_ }, fun active => ?_⟩
    · rw [← none.2, pendingOf_some there]
      rfl
    · rw [none.1] at active
      cases active
  · exact fun o _ job _ there => there
  · trivial

theorem runnerStep_change {op : BatchOp}
    (done : ∀ r' id, op = .claimItems r' [] → s.phase r = .chunk id → s.pendingJobs id = [])
    (step : runnerStep r op s = some t) : RunnerChange s r t := by
  have here := inv.phases r
  have busy {phase : Phase} (at_ : s.phase r = phase) (other : phase ≠ .idle) :
    s.phase r ≠ .idle := by rwa [at_]
  unfold runnerStep at step
  split at step
  · next locked =>
    cases step
    exact .move (busy locked Phase.noConfusion) trivial
  · next locked =>
    split at step
    · next state found =>
      obtain ⟨active, rfl⟩ := guard_eq_some step
      exact claimNext_change inv (busy locked Phase.noConfusion) found active
    · cases step
  · next scanning =>
    cases step
    exact scanPage_change inv scanning _
  · next scanned =>
    cases step
    rw [scanned] at here
    refine .move (busy scanned Phase.noConfusion) ?_
    split
    · trivial
    · exact here
  · next scanning =>
    cases step
    exact endScan_change inv scanning _
  · next chunk =>
    obtain ⟨⟨distinct, found, -⟩, rfl⟩ := guard_eq_some step
    refine .move (busy chunk Phase.noConfusion) ?_
    split
    · next none => exact ⟨rfl, done _ _ (by rw [none]) chunk⟩
    · exact ⟨distinct, fun job mem => (found job mem).1, fun job mem => (found job mem).2⟩
  · next items =>
    cases step
    rw [items] at here
    exact .move (busy items Phase.noConfusion) here
  · next items =>
    cases step
    rw [items] at here
    exact .move (busy items Phase.noConfusion) here
  · next applying =>
    rw [applying] at here
    exact .record (busy applying Phase.noConfusion)
      (by split <;> exact ItemState.noConfusion) here step
  · next erring =>
    rw [erring] at here
    exact .record (busy erring Phase.noConfusion) ItemState.noConfusion here step
  · next id job outcome rest recorded =>
    obtain ⟨mid, settle, rfl⟩ := map_eq_some_iff.1 step
    have settled := settles_of_settle inv settle
    rw [recorded] at here
    refine .settle (busy recorded Phase.noConfusion) settled ⟨here.1.distinct, fun j mem => ?_,
      fun j mem there => ?_⟩
    · refine settled.pending id j (here.1.pending j mem) fun same => here.2 ?_
      obtain ⟨-, rfl⟩ := Prod.mk.inj same
      exact mem
    · rw [settled.locked] at there
      exact here.1.free j mem (mem_of_mem_erase there)
  · next items =>
    cases step
    rw [items] at here
    exact .move (busy items Phase.noConfusion) (Hand.tail here)
  · next applying =>
    cases step
    rw [applying] at here
    exact .move (busy applying Phase.noConfusion) (Hand.tail here)
  · next erring =>
    cases step
    rw [erring] at here
    exact .move (busy erring Phase.noConfusion) (Hand.tail here)
  · next recorded =>
    cases step
    rw [recorded] at here
    exact .abandon (busy recorded Phase.noConfusion) here.1
  · next items =>
    cases step
    exact .move (busy items Phase.noConfusion) trivial
  · next counting =>
    cases step
    exact .move (busy counting Phase.noConfusion) fun none => length_eq_zero_iff.1 none
  · next counted =>
    cases step
    rw [counted] at here
    refine .move (busy counted Phase.noConfusion) ?_
    split
    · next none =>
      split
      · trivial
      · exact ⟨rfl, here none⟩
    · trivial
  · next skipping =>
    obtain ⟨free, rfl⟩ := guard_eq_some step
    exact skipPending_change inv (busy skipping Phase.noConfusion) free
  · next finalizing =>
    cases step
    exact finalize_change inv finalizing
  · next phase =>
    split at step <;> cases step
    next active => exact .abandon active trivial
  · cases step
    exact .leave
  · cases step

end

theorem RunnerChange.inv (change : RunnerChange s r t) (before : BatchInv s) : BatchInv t := by
  cases change with
  | move busy next => exact before.move busy next
  | abandon busy next => exact before.orphan (fun _ => busy) next
  | update busy ok kept next => exact before.update busy _ (fun o there => (ok o there).1) kept next
  | record busy settles hand step => exact before.record busy settles hand step
  | settle busy settled next => exact settled.inv.move (by rwa [settled.phase]) next
  | leave => exact before.leave r

def Ended (s : BatchState) (id : Nat) : Prop := id ∈ s.used ∧ ∀ o, s.ops id = some o →
    o.state.active = false

def Rests (s t : BatchState) : Prop :=
  ∀ id, Ended s id → Ended t id ∧ ∀ job, t.applied.count (id, job) = s.applied.count (id, job)

theorem Ended.modify (ended : Ended s id) {id' : Nat}
    (keeps : ∀ o, s.ops id' = some o → (f o).state.active = true → o.state.active = true) :
    Ended (s.modifyOp id' f) id := by
  refine ⟨ended.1, fun o there => ?_⟩
  rcases update_eq_some there with ⟨rfl, there⟩ | ⟨-, there⟩
  · obtain ⟨old, was, rfl⟩ := map_eq_some_iff.1 there
    by_contra active
    cases (keeps old was (Bool.of_not_eq_false active)).symm.trans (ended.2 old was)
  · exact ended.2 o there

theorem Settles.rests {tx : ItemTx} (settled : Settles s tx t) (before : BatchInv s) :
    Rests s t := by
  intro id ended
  obtain ⟨o, present, first⟩ := exists_of_pendingOf settled.item
  -- the operation of a pending item has not ended
  have other : id ≠ tx.op := by
    rintro rfl
    rw [(before.ops tx.op o present).final (ended.2 o present)] at first
    cases first
  refine ⟨⟨settled.used ▸ ended.1, fun o' now => ?_⟩, fun j => ?_⟩
  · rw [settled.ops, update_of_ne other] at now
    exact ended.2 o' now
  · rw [settled.applied, count_append, Nat.add_eq_left]
    split
    · exact count_eq_zero_of_not_mem fun mem => other (congrArg Prod.fst (mem_singleton.1 mem))
    · rfl

theorem RunnerChange.rests (change : RunnerChange s r t) (before : BatchInv s) : Rests s t := by
  intro id ended
  cases change with
  | move busy next | abandon busy next => exact ⟨ended, fun _ => rfl⟩
  | update busy ok kept next => exact ⟨ended.modify fun o there => (ok o there).2, fun _ => rfl⟩
  | record busy settles hand step =>
    unfold BatchState.record at step
    split at step <;> cases step
    exact ⟨ended, fun _ => rfl⟩
  | settle busy settled next => exact settled.rests before id ended
  | leave => exact ⟨ended, fun _ => rfl⟩

theorem batchStep_cases {op : BatchOp} (inv : BatchInv s) (meets : Exclusive op s)
    (step : batchStep op s = some t) : BatchInv t ∧ Rests s t := by
  have runs {r : Nat} {op' : BatchOp} (step : runnerStep r op' s = some t)
      (done : ∀ r' id, op' = .claimItems r' [] → s.phase r = .chunk id → s.pendingJobs id = []) :
        BatchInv t ∧ Rests s t :=
    have change := runnerStep_change inv done step
    ⟨change.inv inv, change.rests inv⟩
  have stays (after : BatchInv t) (ops : t.ops = s.ops) (used : t.used = s.used)
      (applied : t.applied = s.applied) : BatchInv t ∧ Rests s t :=
    ⟨after, fun id ended => ⟨⟨used ▸ ended.1, ops ▸ ended.2⟩, fun job => by rw [applied]⟩⟩
  cases op with
  | submit id =>
    change (if _ then none else some _) = some t at step
    split at step <;> cases step
    next fresh =>
      refine ⟨inv.submit fresh, fun id' ended => ⟨⟨mem_append_left _ ended.1, fun o there => ?_⟩,
        fun _ => rfl⟩⟩
      rcases update_eq_some there with ⟨rfl, -⟩ | ⟨-, there⟩
      · exact absurd ended.1 fresh
      · exact ended.2 o there
  | requestCancellation id =>
    cases step
    refine ⟨inv.requestCancellation id, fun id' ended => ⟨ended.modify fun o _ active => ?_,
      fun _ => rfl⟩⟩
    split at active
    · next states => rcases states with state | state | state <;> rw [state] <;> rfl
    · exact active
  | purge id =>
    obtain ⟨o, there, final, rfl⟩ : ∃ o, s.ops id = some o ∧ o.state.active = false ∧
        { s with ops := update s.ops id none } = t := by
      unfold batchStep at step
      dsimp only at step
      split at step
      · next found =>
        obtain ⟨o, there, rfl⟩ := map_eq_some_iff.1 found
        split at step
        · cases step
        · next final =>
            exact ⟨o, there, Bool.eq_false_iff.2 fun active => final (.inl active), some.inj step⟩
      · cases step
    refine ⟨inv.purge there final, fun id' ended => ⟨⟨ended.1, fun o' present => ?_⟩, fun _ => rfl⟩⟩
    rcases update_eq_some present with ⟨-, none⟩ | ⟨-, there⟩
    · cases none
    · exact ended.2 o' there
  | changeJob id job differs =>
    cases step
    exact stays (inv.setDiffers id job differs) rfl rfl rfl
  | tryLock r =>
    unfold batchStep at step
    dsimp only at step
    split at step
    · split at step
      · next free =>
        cases step
        exact stays (inv.tryLock r free) rfl rfl rfl
      · cases step
        exact stays inv rfl rfl rfl
    · cases step
  | commitLate tx =>
    unfold batchStep at step
    dsimp only at step
    split at step
    · have settled := settles_of_settle inv step
      exact ⟨settled.inv, settled.rests inv⟩
    · cases step
  | rollback tx =>
    cases step
    exact stays (inv.rollback tx) rfl rfl rfl
  | crash r =>
    cases step
    exact stays (inv.orphan (fun busy => absurd rfl busy) trivial) rfl rfl rfl
  | loseLock r =>
    cases step
    exact stays (inv.loseLock (of_decide_eq_true meets)) rfl rfl rfl
  | claimItems r jobs =>
    refine runs step fun r' id same chunk => ?_
    cases same
    simp only [Exclusive, exclusive, chunk, decide_eq_true_eq] at meets
    exact meets
  | claimNext r found | scanPage r jobs | readScan r | endScan r | apply r result | record r
  | commit r | dropItem r
  | endLoop r | countPending r | readState r | skipPending r | finalize r | unlock r =>
    exact runs step fun _ _ same => BatchOp.noConfusion same
  | fail r => exact @runs r (.fail r) step fun _ _ same => BatchOp.noConfusion same

theorem batchInv_reachable (reached : batchMachine.Reachable Exclusive s) : BatchInv s := by
  apply reached.invariant
  · rintro s rfl
    exact ⟨fun r busy => absurd rfl busy, fun _ => trivial,
      fun _ _ there => absurd there (some_ne_none _).symm, fun _ none => absurd rfl none,
        forall_mem_nil _, fun _ => Nat.zero_le 1, forall_mem_nil _, nodup_nil, forall_mem_nil _⟩
  · intro op s t _ inv meets step
    exact (batchStep_cases inv meets step).1

theorem rests_of_run {ops : List BatchOp} (reached : batchMachine.Reachable Exclusive s)
    (ran : batchMachine.run Exclusive ops s = some t) : Rests s t := by
  induction ops generalizing s with
  | nil =>
    cases ran
    exact fun id ended => ⟨ended, fun _ => rfl⟩
  | cons op ops ih =>
    obtain ⟨meets, mid, first, rest⟩ := Machine.run_cons ran
    have step := (batchStep_cases (batchInv_reachable reached) meets first).2
    have later := ih (.next reached meets first) rest
    intro id ended
    obtain ⟨still, same⟩ := step id ended
    obtain ⟨last, same'⟩ := later id still
    exact ⟨last, fun job => (same' job).trans (same job)⟩

/-- As long as no runner goes on after its session with the lock has ended, and none finds every
pending item locked by a transaction that was left behind, however runners crash, fail and follow
each other: every item of a batch operation is applied to its job at most once; the three counters
add up to the number of items that are no longer pending; and an operation that is completed or
cancelled has no pending item, and no step of any run changes a job for it. -/
theorem batch_items_applied_once (reached : batchMachine.Reachable Exclusive s) :
    (∀ id job, s.applied.count (id, job) ≤ 1) ∧
    (∀ id o, s.ops id = some o → o.processed + o.skipped + o.errored = o.settled) ∧
    ∀ id o, s.ops id = some o → o.state = .completed ∨ o.state = .cancelled → o.pendingJobs = [] ∧
      ∀ ops t, batchMachine.run Exclusive ops s = some t → ∀ job, t.applied.count (id, job) =
        s.applied.count (id, job) := by
  have inv := batchInv_reachable reached
  refine ⟨fun id job => inv.once (id, job), fun id o there => (inv.ops id o there).counted,
    fun id o there final => ?_⟩
  have inactive : o.state.active = false := by
    rcases final with state | state <;> rw [state] <;> rfl
  refine ⟨(inv.ops id o there).final inactive,
    fun ops t ran => (rests_of_run reached ran id ⟨?_, ?_⟩).2⟩
  · exact inv.used id (by rw [there]; exact some_ne_none o)
  · intro o' same
    rw [there] at same
    cases same
    exact inactive

end

def applyItem (r : Nat) : List BatchOp := [.apply r (.ok true), .record r, .commit r]

def finishChunk (r : Nat) : List BatchOp := [.endLoop r, .countPending r, .readState r]

/-- Job 7, or jobs 7, 8 and 9, which differ from what operation 0 asks for. -/
def scan (r : Nat) (jobs : List Nat) : List BatchOp :=
  .submit 0 :: jobs.map (.changeJob 0 · true) ++ [.tryLock r, .claimNext r (some 0),
    .scanPage r jobs, .readScan r, .endScan r]

/-- Runner 0 applies the item of job 7 and dies with that of job 8 recorded; runner 1 passes over
the locked item, and takes it after the server has rolled the transaction back. -/
def crashedChunk : List BatchOp :=
  scan 0 [7, 8, 9] ++ .claimItems 0 [7, 8] :: applyItem 0 ++ [.apply 0 (.ok true), .record 0,
    .crash 0, .loseLock 0, .tryLock 1, .claimNext 1 (some 0), .claimItems 1 [9]] ++ applyItem 1 ++
      finishChunk 1 ++ [.unlock 1, .rollback ⟨0, 8, .processed, none⟩,
    .tryLock 1, .claimNext 1 (some 0), .claimItems 1 [8]] ++ applyItem 1 ++ finishChunk 1 ++
      [.finalize 1]

/-- An operation is completed after a crash; another runner finds nothing more to do. -/
theorem batch_items_applied_once_one : ∃ s t : BatchState, batchMachine.Reachable Exclusive s ∧
    s.applied = [(0, 7), (0, 9), (0, 8)] ∧ s.stateOf 0 = some .completed ∧
    batchMachine.run Exclusive [.unlock 1, .tryLock 0, .claimNext 0 none, .unlock 0] s = some t ∧
    ∀ job, t.applied.count (0, job) = s.applied.count (0, job) := by
  obtain ⟨s, reached, applied, completed, later⟩ :=
    Machine.reachable_of_run batchMachine Exclusive crashedChunk
    (fun s => s.applied = [(0, 7), (0, 9), (0, 8)] ∧ s.stateOf 0 = some .completed ∧
      (batchMachine.run Exclusive [.unlock 1, .tryLock 0, .claimNext 0 none, .unlock 0] s).isSome =
        true) rfl (by decide +kernel)
  obtain ⟨t, ran⟩ := Option.isSome_iff_exists.1 later
  obtain ⟨o, there, state⟩ := map_eq_some_iff.1 completed
  exact ⟨s, t, reached, applied, completed, ran,
    ((batch_items_applied_once reached).2.2 0 o there (.inl state)).2 _ t ran⟩

/-- A runner has read the pending items and loses its session with the lock; a second runner applies
the item and completes the operation; then someone changes the job back and the first runner applies
the item again: twice to one job, counted twice, after the operation was completed. And a runner
dies with an item recorded; the next one finds no item that is not locked, and completes the
operation, whose item is pending once the server has rolled the transaction back. -/
theorem lost_lock_applies_twice :
    (∃ s t : BatchState, batchMachine.Reachable Machine.Always s ∧ s.stateOf 0 = some .completed ∧
    batchMachine.run Machine.Always (.changeJob 0 7 true :: applyItem 0) s = some t ∧
    s.applied.count (0, 7) = 1 ∧
    t.applied.count (0, 7) = 2 ∧ (t.ops 0).map (fun o => (o.processed, o.settled)) = some (2, 1)) ∧
    ∃ s : BatchState, batchMachine.Reachable Machine.Always s ∧ s.stateOf 0 = some .completed ∧
      s.pendingJobs 0 = [7] ∧ s.transactions = [] := by
  constructor
  · obtain ⟨s, reached, completed, once, later⟩ :=
      Machine.reachable_of_run batchMachine Machine.Always (scan 0 [7] ++ [.claimItems 0 [7],
        .loseLock 0, .tryLock 1, .claimNext 1 (some 0), .claimItems 1 [7]] ++ applyItem 1 ++
        finishChunk 1 ++ [.finalize 1])
      (fun s => s.stateOf 0 = some .completed ∧ s.applied.count (0, 7) = 1 ∧
        (batchMachine.run Machine.Always (.changeJob 0 7 true :: applyItem 0) s).map (fun t =>
          decide (t.applied.count (0, 7) = 2 ∧ (t.ops 0).map (fun o => (o.processed, o.settled)) =
            some (2, 1))) = some true)
      rfl (by decide +kernel)
    obtain ⟨t, ran, both⟩ := map_eq_some_iff.1 later
    obtain ⟨twice, counters⟩ := of_decide_eq_true both
    exact ⟨s, t, reached, completed, ran, once, twice, counters⟩
  · exact Machine.reachable_of_run batchMachine Machine.Always
      (scan 0 [7] ++ [.claimItems 0 [7], .apply 0 (.ok true), .record 0, .crash 0, .loseLock 0,
        .tryLock 1, .claimNext 1 (some 0),
        .claimItems 1 [], .finalize 1, .rollback ⟨0, 7, .processed, none⟩])
      (fun s => s.stateOf 0 = some .completed ∧ s.pendingJobs 0 = [7] ∧ s.transactions = []) rfl
        (by decide +kernel)

end AwaQueue.Batch
