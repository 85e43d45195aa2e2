import AwaQueue.Attempt.Closures

/-! Every statement of a closer or a materializer keeps the attempt invariant. A statement
changes no table; it takes locks and adds to the writes of its own transaction. -/

namespace AwaQueue

open List
open Bool (and_eq_true not_eq_true')
open Library
variable {s s' : AttemptState} {t u : TxId} {a : Attempt} {x y : Closer} {c : ReceiptClaim}
  {stmt : AttemptStmt} {rest : List AttemptStmt} {tx : AttemptTx} {attempts locked : List Attempt}
  {claims found : List ReceiptClaim} {T : AttemptTables} {form : CloseForm}
    {targets : List CloseTarget}
  {owing settling rescue : Bool} {kind : RescueKind} {slot now : Nat}
    {rows rows' : List SuccessorRow}
  {kinds : Attempt → Successor}

structure SameData (s s' : AttemptState) : Prop where
  tables : s'.tables = s.tables
  emitted : s'.emitted = s.emitted
  settled : s'.settled = s.settled
  pruned : s'.pruned = s.pruned
  nextReceipt : s'.nextReceipt = s.nextReceipt

theorem SameData.ended (same : SameData s s') : s'.ended = s.ended := by
  rw [AttemptState.ended, AttemptState.ended, same.settled]

theorem Unclosed.congr (unclosed : Unclosed s a) (same : SameData s s') : Unclosed s' a where
  emitted := same.emitted ▸ unclosed.emitted
  unsettled := same.ended ▸ unclosed.unsettled
  open_ := same.tables ▸ unclosed.open_

theorem AttemptRely.of_same (same : SameData s s')
    (attemptLock : ∀ a, s.attemptLock a = some t → s'.attemptLock a = some t)
    (leaseLock : ∀ a, s.leaseLock a = some t → s'.leaseLock a = some t)
    (childLocks : ∀ slot, (t, slot) ∈ s.childLocks → (t, slot) ∈ s'.childLocks) :
    AttemptRely t s s' where
  attemptLock := attemptLock
  leaseLock := leaseLock
  childLocks := childLocks
  claims c mem _ := same.tables ▸ mem
  appear c mem := .inl (same.tables ▸ mem)
  held a _ unclosed := ⟨unclosed.congr same, by rw [same.tables]⟩

theorem DataOk.congr (data : DataOk s) (same : SameData s s') : DataOk s' where
  ledger := by rw [same.tables]; exact data.ledger
  emitted := by rw [same.tables, same.emitted]; exact data.emitted
  numbered := by rw [same.tables, same.nextReceipt]; exact data.numbered
  leases := by rw [same.tables]; exact data.leases
  live := by rw [same.tables]; exact fun a mem => (data.live a mem).congr same
  ended := by rw [same.ended, same.tables, same.emitted]; exact data.ended
  closed := by rw [same.ended, same.tables]; exact data.closed
  evidence := by rw [same.ended, same.tables, same.emitted]; exact data.evidence
  pruned := by rw [same.ended, same.pruned, same.tables]; exact data.pruned

theorem AttemptInv.of_step (inv : AttemptInv s) (data : DataOk s')
    (running : s'.tx = Function.update s.tx t (some tx)) (rely : ∀ u, u ≠ t → AttemptRely u s s')
    (ok : TxOk s' t tx) : AttemptInv s' where
  toDataOk := data
  running u there mine := by
    rw [running] at mine
    by_cases actor : u = t
    · subst actor
      rw [Function.update_self, Option.some_inj] at mine
      exact mine ▸ ok
    · rw [Function.update_of_ne actor] at mine
      exact (inv.running u there mine).stable (rely u actor) data.ledger

theorem AttemptInv.closer_step (inv : AttemptInv s) (ok : CloserOk s t x) (same : SameData s s')
    (rely : ∀ u, AttemptRely u s s') (running : s'.tx = Function.update s.tx t (some (.closer y)))
    (next : CloserOk s' t x → DataOk s' → CloserOk s' t y) : AttemptInv s' := by
  have data := inv.toDataOk.congr same
  exact inv.of_step data running (fun u _ => rely u) (next (ok.stable (rely t) data.ledger) data)

theorem WritesOk.withScript (ok : WritesOk s t x) (script : List AttemptStmt) :
    WritesOk s t { x with script } :=
  { ok with closures := ok.closures }

theorem WritesOk.bookkeeping {scanned clearedState : List Attempt} (ok : WritesOk s t x)
    (locked : ∀ a ∈ scanned, s.attemptLock a = some t)
    (cleared : ∀ a ∈ clearedState, a ∈ x.writes.won)
    (rescued : Nat) (cursors : List (RescueKind × Nat × ScanKey)) :
    WritesOk s t { x with scanned, rescued, writes := { x.writes with clearedState, cursors } } :=
  { ok with
    scanned := locked
    closures := { ok.closures with }
    cleared }

theorem relyLockAttempts (free : ∀ a ∈ attempts, s.lockable t a = true) (u : TxId) :
    AttemptRely u s ((s.lockAttempts t attempts).setTx t tx) := by
  refine .of_same ⟨rfl, rfl, rfl, rfl, rfl⟩ (fun a held => ?_) (fun a held => held)
    (fun slot held => held)
  change (if a ∈ attempts then some t else s.attemptLock a) = some u
  by_cases asked : a ∈ attempts
  · have open_ := free a asked
    simp only [AttemptState.lockable, held, reduceCtorEq, decide_false, Bool.false_or,
      decide_eq_true_eq] at open_
    rw [if_pos asked, open_]
  · rw [if_neg asked, held]

theorem relyLockChildren (u : TxId) : AttemptRely u s ((s.lockChildren t claims).setTx t tx) :=
  .of_same ⟨rfl, rfl, rfl, rfl, rfl⟩ (fun _ held => held) (fun _ held => held)
    fun _ held => mem_append_right _ held

theorem relySetTx (u : TxId) : AttemptRely u s (s.setTx t tx) :=
  .of_same ⟨rfl, rfl, rfl, rfl, rfl⟩ (fun _ held => held) (fun _ held => held) fun _ held => held

theorem AttemptTables.leaseManaged_iff : T.leaseManaged a = true ↔ a ∈ T.leased := by
  simp [AttemptTables.leaseManaged, AttemptTables.leased]

theorem AttemptTables.closeCount_of_open (open_ : T.ledgerClosed c = false) :
    T.closeCount c = 0 := by
  have none : ¬0 < T.closeCount c := by rw [←
    AttemptTables.ledgerClosed_iff, open_]; exact Bool.false_ne_true
  omega

theorem CloserOk.lockAttempts (ok : CloserOk s t x) (inv : AttemptInv s)
    (shape : x.script = .lockAttempts attempts :: rest)
    (free : ∀ a ∈ attempts, s.lockable t a = true) :
    AttemptInv ((s.lockAttempts t attempts).setTx t (.closer { x with script := rest })) := by
  refine inv.closer_step ok ⟨rfl, rfl, rfl, rfl, rfl⟩ (relyLockAttempts free) rfl fun kept _ => ?_
  obtain ⟨locked, owing, settling, script⟩ := kept.script
  have typed := script.typed
  rw [shape, disciplined] at typed
  refine { toWritesOk := kept.toWritesOk.withScript rest, script := ⟨locked ++ attempts, owing,
    settling, ?_⟩ }
  refine { typed, locked := fun a mem => ?_, owing := script.owing, settling := script.settling }
  rcases mem_append.1 mem with old | new
  · exact script.locked a old
  · exact if_pos new

theorem Closable.settled (able : Closable s t x form found)
    (ledger : LedgerOk s.tables) (one : Counted s.tables x.writes.closeCount a 1) :
    Counted s.tables (x.close s form found).writes.closeCount a 1 := by
  intro c mem same
  have before := one c mem same
  rw [able.count ledger mem, before, if_neg]
  intro present
  have none := (able.closeCount present).2
  omega

theorem mem_openTargets (found : c ∈ openTargets form T targets) :
    c ∈ T.claims ∧ c.attempt ∈ targets.map CloseTarget.attempt ∧ T.closeCount c = 0 ∧
      c.attempt ∉ T.leased := by
  simp only [openTargets, mem_flatMap, mem_filter, and_eq_true, not_eq_true', CloseTarget.matches,
    decide_eq_true_eq] at found
  obtain ⟨target, asked, mem, ⟨⟨same, -⟩, unclosed⟩, free⟩ := found
  refine ⟨mem, mem_map.2 ⟨target, asked, same.symm⟩, AttemptTables.closeCount_of_open ?_,
    fun leased => ?_⟩
  · cases form with
    | fast =>
      simp only [CloseForm.closedProbe] at unclosed
      split at unclosed
      · exact unclosed
      · exact (Bool.or_eq_false_iff.1 unclosed).1
    | slow | cancel => exact (Bool.or_eq_false_iff.1 unclosed).1
  · rw [AttemptTables.leaseManaged_iff.2 leased] at free
    cases free

theorem openTargets_nodup (ledger : LedgerOk T)
    (distinct : (targets.map CloseTarget.attempt).Nodup) : (openTargets form T targets).Nodup := by
  refine nodup_flatMap.2 ⟨fun _ _ => ledger.attempts.of_map.filter _, ?_⟩
  refine (pairwise_map.1 distinct).imp fun {a b} different => disjoint_left.2 fun c left right => ?_
  simp only [mem_filter, and_eq_true, CloseTarget.matches, decide_eq_true_eq] at left right
  exact different (left.2.1.1.1.symm.trans right.2.1.1.1)

theorem mem_childLocks (mem : c ∈ claims) :
    (t, c.claimSlot) ∈ ((s.lockChildren t claims).setTx t tx).childLocks :=
  mem_append_left _ (mem_map_of_mem mem)

theorem ScriptOk.close
    (script : ScriptOk s t x locked owing settling) (able : Closable s t x form found)
    (ledger : LedgerOk s.tables)
    {y : Closer} (same : y.writes.deletedLeases = x.writes.deletedLeases)
    (counts : y.writes.closeCount = (x.close s form found).writes.closeCount)
    (typed : disciplined locked owing true y.script = true) : ScriptOk s t y locked owing true where
  typed
  locked := script.locked
  owing paid a mem := by
    rw [same] at mem
    rw [counts]
    exact able.settled ledger (script.owing paid a mem)
  settling contra := by cases contra

/-- Under the attempt locks and with nothing owed, what a closing statement finds may be closed. -/
theorem ScriptOk.closable (script : ScriptOk s t x locked owing settling)
    (view : LedgerOk (x.view s)) (shape : x.script = .closeReceipts form targets :: rest) :
    (∀ c ∈ openTargets form (x.view s) targets, c.attempt ∉ x.writes.deletedLeases) ∧
      Closable s t x form (openTargets form (x.view s) targets) ∧
        disciplined locked owing true rest = true := by
  have typed := script.typed
  rw [shape, disciplined] at typed
  simp only [and_eq_true, not_eq_true', all_eq_true, decide_eq_true_eq] at typed
  obtain ⟨⟨⟨paid, asked⟩, distinct⟩, typed⟩ := typed
  have apart : ∀ c ∈ openTargets form (x.view s) targets, c.attempt ∉ x.writes.deletedLeases := by
    -- nothing is owed, so a claim of a deleted lease has its closure and was not found
    intro c found deleted
    have one := script.owing paid _ deleted c (mem_openTargets found).1 rfl
    have none := (mem_openTargets found).2.2.1
    rw [Closer.view, closeCount_apply] at none
    omega
  refine ⟨apart, ?_, typed⟩
  exact {
    known := fun c found => (mem_openTargets found).1
    distinct := openTargets_nodup view distinct
    locked := fun c found => by
      obtain ⟨target, mem, same⟩ := mem_map.1 (mem_openTargets found).2.1
      exact same ▸ script.locked _ (asked target mem)
    unclosed := fun c found => (mem_openTargets found).2.2.1
    free := fun c found => (mem_openTargets found).2.2.2
    shape := .inr apart }

theorem CloserOk.closeReceipts (ok : CloserOk s t x)
    (inv : AttemptInv s) (shape : x.script = .closeReceipts form targets :: rest)
    (step : closeStatement s t { x with script := rest } (.closeReceipts form targets) = some s') :
    AttemptInv s' := by
  cases step
  refine inv.closer_step ok ⟨rfl, rfl, rfl, rfl, rfl⟩ relyLockChildren rfl fun kept data => ?_
  obtain ⟨locked, owing, settling, script⟩ := kept.script
  obtain ⟨-, able, typed⟩ := script.closable (kept.viewLedger data.ledger) shape
  have closed := kept.toWritesOk.close data able fun c found => mem_childLocks found
  have cleared : ∀ a ∈ if form = .cancel then [] else (openTargets form (x.view s)
      targets).map ReceiptClaim.attempt,
      a ∈ x.writes.won ++ (openTargets form (x.view s) targets).map ReceiptClaim.attempt := by
    intro a mem
    split at mem
    · cases mem
    · exact mem_append_right _ mem
  exact {
    toWritesOk := (closed.withScript rest).bookkeeping kept.scanned
      (forall_mem_append.2 ⟨closed.cleared, cleared⟩) _ _
    script := ⟨locked, owing, true, script.close able data.ledger rfl rfl typed⟩ }

theorem RescueKind.mem_candidates (found : c ∈ kind.candidates T slot now) : c ∈ T.claims := by
  simp only [RescueKind.candidates, mem_flatMap, mem_filter] at found
  obtain ⟨-, -, ⟨mem, -⟩, -⟩ := found
  exact mem

theorem RescueKind.candidates_nodup (ledger : LedgerOk T) : (kind.candidates T slot now).Nodup := by
  have keys : (((T.claims.filter (kind.scans slot now)).map kind.key).dedup.insertionSort
      fun a b => a.le b = true).Nodup :=
    (perm_insertionSort _ _).nodup_iff.2 (nodup_dedup _)
  refine nodup_flatMap.2 ⟨fun _ _ => (ledger.attempts.of_map.filter _).filter _, ?_⟩
  refine List.Pairwise.imp (R := (· ≠ ·))
    (fun {a b} different => disjoint_left.2 fun c left right => ?_) ?_
  · simp only [mem_filter, decide_eq_true_eq] at left right
    exact different (left.2.symm.trans right.2)
  · refine nodup_append.2 ⟨(keys.filter _).take, (keys.filter _).take,
      fun a first b second same => ?_⟩
    have after := (mem_filter.1 (mem_of_mem_take first)).2
    have before := (mem_filter.1 (mem_of_mem_take second)).2
    rw [same, before] at after
    cases after

theorem RescueKind.mem_rescuable {limit : Nat}
    (found : c ∈ kind.rescuable T slot now limit) :
    c ∈ T.claims ∧ T.closeCount c = 0 ∧ c.attempt ∉ T.leased := by
  obtain ⟨candidate, open_⟩ := mem_filter.1 (mem_of_mem_take found)
  simp only [and_eq_true, not_eq_true'] at open_
  refine ⟨mem_candidates candidate, AttemptTables.closeCount_of_open
    (Bool.or_eq_false_iff.1 open_.1.1).1, fun leased => ?_⟩
  rw [AttemptTables.leaseManaged_iff.2 leased] at open_
  cases open_.1.2

theorem CloserOk.scanReceipts (ok : CloserOk s t x) (inv : AttemptInv s)
    (shape : x.script = .scanReceipts kind slot now :: rest)
    (step : closeStatement s t { x with script := rest } (.scanReceipts kind slot now) = some s') :
    AttemptInv s' := by
  cases step
  refine inv.closer_step ok ⟨rfl, rfl, rfl, rfl, rfl⟩
    (relyLockAttempts fun a mem => (mem_filter.1 mem).2) rfl fun kept _ => ?_
  obtain ⟨locked, owing, settling, script⟩ := kept.script
  have typed := script.typed
  rw [shape, disciplined] at typed
  exact {
    toWritesOk := { kept.toWritesOk with
      closures := kept.closures, scanned := fun a mem => if_pos mem }
    script := ⟨locked, owing, settling, typed, script.locked, script.owing, script.settling⟩ }

theorem WritesOk.closable_rescued (ok : WritesOk s t x) (view : LedgerOk (x.view s))
    (kind : RescueKind) (slot now : Nat) (skipped : List Attempt) :
    Closable s t x .slow (x.rescuedClaims s kind slot now skipped) where
  known c found := (RescueKind.mem_rescuable (mem_filter.1 found).1).1
  distinct := ((RescueKind.candidates_nodup view).filter _).take.filter _
  locked c found := by
    have chosen := (mem_filter.1 found).2
    simp only [and_eq_true, decide_eq_true_eq] at chosen
    exact ok.scanned _ chosen.1
  unclosed c found := (RescueKind.mem_rescuable (mem_filter.1 found).1).2.1
  free c found := (RescueKind.mem_rescuable (mem_filter.1 found).1).2.2
  shape := .inl rfl

theorem CloserOk.closeScanned {skipped : List Attempt} (ok : CloserOk s t x)
    (inv : AttemptInv s) (shape : x.script = .closeScanned kind slot now skipped :: rest)
    (step : closeStatement s t { x with script := rest } (.closeScanned kind slot now skipped) =
      some s') :
    AttemptInv s' := by
  simp only [closeStatement] at step
  split at step
  · cases step
    refine inv.closer_step ok ⟨rfl, rfl, rfl, rfl, rfl⟩ relySetTx rfl fun kept _ => ?_
    obtain ⟨locked, owing, settling, script⟩ := kept.script
    have typed := script.typed
    rw [shape, disciplined] at typed
    exact {
      toWritesOk := kept.toWritesOk.withScript rest
      script := ⟨locked, owing, true, typed, script.locked, script.owing,
        fun contra => by cases contra⟩ }
  · cases step
    refine inv.closer_step ok ⟨rfl, rfl, rfl, rfl, rfl⟩ relyLockChildren rfl fun kept data => ?_
    obtain ⟨locked, owing, settling, script⟩ := kept.script
    have typed := script.typed
    rw [shape, disciplined] at typed
    have able := kept.toWritesOk.closable_rescued (kept.viewLedger data.ledger) kind
      slot now skipped
    have closed := kept.toWritesOk.close data able fun c found => mem_childLocks found
    exact {
      toWritesOk := (closed.withScript rest).bookkeeping (forall_mem_nil _)
        closed.cleared _ _
      script := ⟨locked, owing, true, script.close able data.ledger rfl rfl typed⟩ }

theorem WritesOk.take (ok : WritesOk s t x) (data : DataOk s) (distinct : attempts.Nodup)
    (taken : ∀ a ∈ attempts, a ∈ (x.view s).leased ∧ a ∉ x.writes.won ∧ s.leaseLock a = some t) :
    WritesOk s t (x.take attempts) := by
  have leased a (mem : a ∈ attempts) : a ∈ s.tables.leased ∧ a ∉ x.writes.deletedLeases := by
    have seen := mem_leased_view.1 (taken a mem).1
    rw [ok.leases] at seen
    exact seen.resolve_right not_mem_nil
  exact { ok with
    scanned := forall_mem_nil _
    won := fun a mem => by
      rcases mem_append.1 mem with old | new
      · exact ok.won a old
      · exact data.live a (leased a new).1
    deleted := fun a mem => by
      rcases mem_append.1 mem with old | new
      · obtain ⟨won, lock, here⟩ := ok.deleted a old
        exact ⟨mem_append_left _ won, lock, here⟩
      · exact ⟨mem_append_right _ new, (taken a new).2.2, (leased a new).1⟩
    deletedNodup :=
      nodup_append.2 ⟨ok.deletedNodup, distinct,
        fun a old b new same => (leased b new).2 (same ▸ old)⟩
    receipt := fun a mem kept => by
      rw [Closer.take, mem_append, not_or] at kept
      exact ok.receipt a ((mem_append.1 mem).resolve_right kept.2) kept.1
    closures := {
      nodup := ok.closures.nodup
      closureOwner := fun k present => by
        obtain ⟨c, mem, key, row, won⟩ := ok.closures.closureOwner k present
        exact ⟨c, mem, key, row, mem_append_left _ won⟩
      receiptOwner := fun e present => by
        obtain ⟨c, mem, key, won⟩ := ok.closures.receiptOwner e present
        exact ⟨c, mem, key, mem_append_left _ won⟩
      once := ok.closures.once }
    explicit := fun c mem deleted row e present same => by
      rcases mem_append.1 deleted with old | new
      · exact ok.explicit c mem old row e present same
      · -- the attempt was not taken before, so none of its claims has a closure
        have pending := AttemptWrites.closeCount_pos.2 (.inr ⟨e, present, same⟩)
        exact (taken _ new).2.1 (ok.closures.won data.ledger mem pending)
    cleared := fun a mem => mem_append_left _ (ok.cleared a mem)
    unsettled := fun a mem => by
      rcases mem_append.1 mem with old | new
      · exact mem_append_left _ (ok.unsettled a old)
      · exact mem_append_right _ new
    successors := fun row mem => mem_append_left _ (ok.successors row mem)
    accounted := fun a mem => by
      rcases mem_append.1 mem with old | new
      · exact (ok.accounted a old).imp_left (mem_append_left _)
      · exact .inl (mem_append_right _ new) }

theorem WritesOk.leased_nodup (ok : WritesOk s t x) (data : DataOk s) :
    (x.view s).leased.Nodup := by
  simp only [AttemptTables.leased, Closer.view, AttemptTables.apply, ok.leases, append_nil]
  exact (filter_sublist.map _).nodup data.leases

theorem CloserOk.deleteLeases {skipLocked : Bool} (ok : CloserOk s t x)
    (inv : AttemptInv s) (shape : x.script = .deleteLeases attempts skipLocked :: rest)
    (step : closeStatement s t { x with script := rest } (.deleteLeases attempts skipLocked) =
      some s') :
    AttemptInv s' := by
  simp only [closeStatement] at step
  split at step
  case isFalse => cases step
  cases step
  refine inv.closer_step ok ⟨rfl, rfl, rfl, rfl, rfl⟩ (fun u => ?_) rfl fun kept data => ?_
  · refine .of_same ⟨rfl, rfl, rfl, rfl, rfl⟩ (fun a held => held) (fun a held => ?_)
      (fun slot held => held)
    change (if _ then some t else s.leaseLock a) = some u
    split
    · next mem =>
      have free := (mem_filter.1 mem).2
      simp only [held, reduceCtorEq, decide_false, Bool.false_or, decide_eq_true_eq] at free
      exact free.symm
    · exact held
  obtain ⟨locked, owing, settling, script⟩ := kept.script
  have typed := script.typed
  rw [shape, disciplined] at typed
  refine {
    toWritesOk := (kept.toWritesOk.withScript rest).take data ?_ fun a mem => ?_
    script := ⟨locked, true, true, typed, script.locked, fun contra => ?_, fun contra => ?_⟩ }
  · exact ((ok.leased_nodup inv.toDataOk).filter _).filter _
  · have matched := mem_filter.1 (mem_filter.1 mem).1
    simp only [and_eq_true, decide_eq_true_eq] at matched
    exact ⟨matched.1, matched.2.2, if_pos mem⟩
  · cases contra
  · cases contra

theorem CloserOk.closeReceiptPairs {checked : Bool} (ok : CloserOk s t x) (inv : AttemptInv s)
    (shape : x.script = .closeReceiptPairs checked :: rest)
    (step : closeStatement s t { x with script := rest } (.closeReceiptPairs checked) = some s') :
    AttemptInv s' := by
  cases step
  refine inv.closer_step ok ⟨rfl, rfl, rfl, rfl, rfl⟩ relyLockChildren rfl fun kept data => ?_
  obtain ⟨locked, owing, settling, script⟩ := kept.script
  have typed := script.typed
  rw [shape, disciplined] at typed
  have writes := kept.toWritesOk.withScript rest
  exact {
    toWritesOk := writes.closePairs data fun c found => mem_childLocks found
    script := ⟨locked, false, settling, typed, script.locked, fun _ a deleted c mem same => by
      refine (writes.closePairs_count data checked mem).trans (if_pos ?_)
      rw [same]
      exact deleted, script.settling⟩ }

theorem insertSuccessor_spec {row : SuccessorRow}
    (inserted : insertSuccessor rescue rows row = some rows') :
    ∃ new, rows' = rows ++ [new] ∧ new.attempt = row.attempt := by
  simp only [insertSuccessor] at inserted
  split at inserted
  · exact ⟨row, (Option.some_inj.1 inserted).symm, rfl⟩
  · split at inserted
    · exact ⟨_, (Option.some_inj.1 inserted).symm, rfl⟩
    · cases inserted

theorem insertSuccessors_spec
    (inserted : attempts.foldlM (fun rows a => insertSuccessor rescue rows ⟨a, kinds a⟩) rows =
    some rows') : ∃ new, rows' = rows ++ new ∧ new.map SuccessorRow.attempt = attempts := by
  induction attempts generalizing rows with
  | nil => exact ⟨[], by simpa using inserted.symm, rfl⟩
  | cons a attempts ih =>
    rw [foldlM_cons] at inserted
    obtain ⟨mid, first, later⟩ := Option.bind_eq_some_iff.1 inserted
    obtain ⟨row, rfl, same⟩ := insertSuccessor_spec first
    obtain ⟨new, rfl, names⟩ := ih later
    exact ⟨row :: new, by rw [append_assoc, singleton_append], by rw [map_cons, same, names]⟩

theorem CloserOk.insertSuccessors (ok : CloserOk s t x)
    (inv : AttemptInv s) (shape : x.script = .insertSuccessors kinds rescue :: rest)
    (step : closeStatement s t { x with script := rest } (.insertSuccessors kinds rescue) =
      some s') :
    AttemptInv s' := by
  obtain ⟨rows, inserted, rfl⟩ := Option.map_eq_some_iff.1 step
  obtain ⟨new, rfl, names⟩ := insertSuccessors_spec inserted
  refine inv.closer_step ok ⟨rfl, rfl, rfl, rfl, rfl⟩ relySetTx rfl fun kept data => ?_
  obtain ⟨locked, owing, settling, script⟩ := kept.script
  have typed := script.typed
  rw [shape, disciplined] at typed
  simp only [and_eq_true, not_eq_true'] at typed
  have writes := kept.toWritesOk
  have taken row (mem : row ∈ new) : row.attempt ∈ x.writes.won :=
    writes.unsettled _ (names ▸ mem_map_of_mem mem)
  refine {
    toWritesOk := { writes with
      closures := { writes.closures with }
      unsettled := forall_mem_nil _
      successors := fun row mem => ?_
      accounted := fun a mem => ?_
      order := fun row mem => ?_ }
    script := ⟨locked, owing, false, typed.2, script.locked, script.owing, fun _ => rfl⟩ }
  · rcases mem_append.1 mem with old | fresh
    · exact writes.successors row old
    · exact taken row fresh
  · refine .inr ?_
    rw [map_append, mem_append, names]
    exact (writes.accounted a mem).symm
  · rcases mem_append.1 mem with old | fresh
    · exact writes.order row old
    · by_cases deleted : row.attempt ∈ x.writes.deletedLeases
      · exact script.owing typed.1 _ deleted
      · exact (writes.receipt _ (taken row fresh) deleted).2.2

theorem AttemptInv.closeStatement (inv : AttemptInv s) (running : s.tx t = some (.closer x))
    (shape : x.script = stmt :: rest)
    (step : closeStatement s t { x with script := rest } stmt = some s') : AttemptInv s' := by
  have ok := inv.closer running
  cases stmt with
  | lockAttempts attempts =>
    simp only [AwaQueue.closeStatement] at step
    split at step <;> cases step
    next free => exact ok.lockAttempts inv shape (all_eq_true.1 free)
  | closeReceipts form targets => exact ok.closeReceipts inv shape step
  | scanReceipts kind slot now => exact ok.scanReceipts inv shape step
  | closeScanned kind slot now skipped => exact ok.closeScanned inv shape step
  | deleteLeases attempts skipLocked => exact ok.deleteLeases inv shape step
  | closeReceiptPairs checked => exact ok.closeReceiptPairs inv shape step
  | insertSuccessors kinds rescue => exact ok.insertSuccessors inv shape step

end AwaQueue
