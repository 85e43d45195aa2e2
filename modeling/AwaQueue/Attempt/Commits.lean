import AwaQueue.Attempt.Statements

/-! The steps that change tables: commits of closers and materializers, new claims, and the
pruning of a claim slot. -/

namespace AwaQueue

open List Library
variable {s s' : AttemptState} {t u : TxId} {a : Attempt} {x : Closer} {c : ReceiptClaim}
  {slots : Nat} {T : AttemptTables} {attempts : List Attempt}

theorem release_attemptLock (other : u ≠ t) (held : s.attemptLock a = some u) :
    (s.release t).attemptLock a = some u := by
  simp [AttemptState.release, held, other]

theorem release_leaseLock (other : u ≠ t) (held : s.leaseLock a = some u) :
    (s.release t).leaseLock a = some u := by
  simp [AttemptState.release, held, other]

theorem release_childLocks (other : u ≠ t) {slot : Nat} (held : (u, slot) ∈ s.childLocks) :
    (u, slot) ∈ (s.release t).childLocks :=
  mem_filter.2 ⟨held, by simpa using other⟩

theorem AttemptInv.of_end (inv : AttemptInv s) (data : DataOk s')
    (ended : s'.tx = Function.update s.tx t none)
    (rely : ∀ u, u ≠ t → AttemptRely u s s') : AttemptInv s' where
  toDataOk := data
  running u tx mine := by
    rw [ended] at mine
    by_cases actor : u = t
    · subst actor
      rw [Function.update_self] at mine
      cases mine
    · rw [Function.update_of_ne actor] at mine
      exact (inv.running u tx mine).stable (rely u actor) data.ledger

theorem AttemptInv.abort (inv : AttemptInv s) (t : TxId) : AttemptInv (s.release t) :=
  inv.of_end (inv.toDataOk.congr ⟨rfl, rfl, rfl, rfl, rfl⟩) rfl fun _ other =>
    .of_same ⟨rfl, rfl, rfl, rfl, rfl⟩ (fun _ => release_attemptLock other)
      (fun _ => release_leaseLock other) fun _ => release_childLocks other

theorem ended_commitCloser :
    (commitCloser s t x).ended = s.ended ++ x.writes.successors.map SuccessorRow.attempt :=
  map_append

theorem WritesOk.leased_commit (ok : WritesOk s t x) :
    a ∈ (commitCloser s t x).tables.leased ↔ a ∈ s.tables.leased ∧ a ∉ x.writes.deletedLeases := by
  refine (mem_leased_view (x := x)).trans ?_
  rw [ok.leases]
  exact or_iff_left not_mem_nil

theorem WritesOk.unclosed_commit (ok : WritesOk s t x) (ledger : LedgerOk s.tables)
    (unclosed : Unclosed s a) (other : a ∉ x.writes.won) : Unclosed (commitCloser s t x) a where
  emitted := unclosed.emitted
  unsettled ended := by
    rw [ended_commitCloser] at ended
    rcases mem_append.1 ended with old | new
    · exact unclosed.unsettled old
    · obtain ⟨row, mem, rfl⟩ := mem_map.1 new
      exact other (ok.successors row mem)
  open_ c mem same := by
    refine closeCount_apply.trans ?_
    have pending : ¬0 < x.writes.closeCount c := fun pos =>
      other (same ▸ ok.closures.won ledger mem pos)
    have committed := unclosed.open_ c mem same
    omega

theorem WritesOk.not_leased_of_won (ok : WritesOk s t x) (won : a ∈ x.writes.won)
    (leased : a ∈ s.tables.leased) : a ∈ x.writes.deletedLeases := by
  by_contra kept
  exact (ok.receipt a won kept).2.1 leased

theorem DataOk.commitCloser (data : DataOk s) (ok : WritesOk s t x) (done : x.unsettled = []) :
    DataOk (commitCloser s t x) := by
  have view := ok.viewLedger data.ledger
  have count (c : ReceiptClaim) :
      (AwaQueue.commitCloser s t x).tables.closeCount c = s.tables.closeCount c +
        x.writes.closeCount c :=
    closeCount_apply
  exact {
    ledger := view
    emitted := data.emitted
    numbered := data.numbered
    leases := by
      have rows : (AwaQueue.commitCloser s t x).tables.leased =
          (s.tables.leases.filter fun lease => lease.attempt ∉ x.writes.deletedLeases).map
            LeaseRow.attempt := by
        simp [AttemptTables.leased, AwaQueue.commitCloser, AttemptTables.apply, ok.leases]
      rw [rows]
      exact (filter_sublist.map _).nodup data.leases
    live := fun a mem => by
      obtain ⟨leased, kept⟩ := ok.leased_commit.1 mem
      exact ok.unclosed_commit data.ledger (data.live a leased) fun won =>
        kept (ok.not_leased_of_won won leased)
    ended := fun a mem => by
      rw [ended_commitCloser] at mem
      rcases mem_append.1 mem with old | new
      · refine ⟨(data.ended a old).1, fun c present same => ?_⟩
        have one := (data.ended a old).2 c present same
        have bound := view.once c present
        rw [Closer.view, closeCount_apply] at bound
        rw [count]
        omega
      · obtain ⟨row, settled, rfl⟩ := mem_map.1 new
        have taken := ok.won _ (ok.successors row settled)
        refine ⟨taken.emitted, fun c present same => ?_⟩
        rw [count, taken.open_ c present same, ok.order row settled c present same]
    closed := fun c mem one => by
      rw [count] at one
      rw [ended_commitCloser, mem_append]
      by_cases pending : 0 < x.writes.closeCount c
      · have accounted := ok.accounted _ (ok.closures.won data.ledger mem pending)
        rw [done] at accounted
        exact .inr (accounted.resolve_left not_mem_nil)
      · exact .inl (data.closed c mem (by omega))
    evidence := fun row mem => by
      rw [ended_commitCloser, mem_append]
      rcases mem_append.1 mem with old | new
      · exact (data.evidence row old).imp_left .inl
      · exact .inl (.inr (mem_map_of_mem new))
    pruned := fun a mem => by
      obtain ⟨ended, gone⟩ := data.pruned a mem
      exact ⟨ended_commitCloser ▸ mem_append_left _ ended, gone⟩ }

theorem CloserOk.settled (ok : CloserOk s t x) (ended : x.script = []) : x.unsettled = [] := by
  obtain ⟨locked, owing, settling, script⟩ := ok.script
  have typed := script.typed
  rw [ended, disciplined] at typed
  simp only [Bool.and_eq_true, Bool.not_eq_true'] at typed
  exact script.settling typed.2

theorem AttemptInv.commitCloser (inv : AttemptInv s) (running : s.tx t = some (.closer x))
    (ended : x.script = []) : AttemptInv (commitCloser s t x) := by
  have ok := inv.closer running
  refine inv.of_end (inv.toDataOk.commitCloser ok.toWritesOk (ok.settled ended)) rfl fun u other =>
    ?_
  exact {
    attemptLock := fun _ => release_attemptLock other
    leaseLock := fun _ => release_leaseLock other
    childLocks := fun _ => release_childLocks other
    claims := fun c mem _ => mem
    appear := fun c mem => .inl mem
    held := fun a held unclosed => by
      have untaken := ok.toWritesOk.not_won held other
      refine ⟨ok.unclosed_commit inv.ledger unclosed untaken, ?_⟩
      rw [ok.leased_commit]
      exact and_iff_left fun deleted => untaken (ok.deleted a deleted).1 }

theorem mem_materializedLeases (found : a ∈ (materializedLeases T attempts).map LeaseRow.attempt) :
    a ∈ attempts ∧ a ∉ T.leased ∧ ∃ c ∈ T.claims, c.attempt = a ∧ T.closeCount c = 0 := by
  simp only [materializedLeases, map_map, mem_map, mem_flatMap, mem_filter, Bool.and_eq_true,
    decide_eq_true_eq, Bool.not_eq_true', Function.comp] at found
  obtain ⟨c, ⟨b, asked, mem, ⟨rfl, unclosed⟩, free⟩, rfl⟩ := found
  refine ⟨asked, fun leased => ?_, c, mem, rfl,
    AttemptTables.closeCount_of_open (Bool.or_eq_false_iff.1 unclosed).1⟩
  exact Bool.false_ne_true (free.symm.trans (AttemptTables.leaseManaged_iff.2 leased))

theorem materializedLeases_nodup (ledger : LedgerOk T)
    (distinct : attempts.Nodup) : ((materializedLeases T attempts).map LeaseRow.attempt).Nodup := by
  rw [materializedLeases, map_map]
  refine List.Nodup.map_on (fun c left d right same => ?_) (nodup_flatMap.2 ⟨?_, ?_⟩)
  · obtain ⟨_, _, left⟩ := mem_flatMap.1 left
    obtain ⟨_, _, right⟩ := mem_flatMap.1 right
    exact ledger.eq_of_attempt (mem_of_mem_filter left) (mem_of_mem_filter right) same
  · exact fun _ _ => ledger.attempts.of_map.filter _
  · refine distinct.imp fun {a b} different => disjoint_left.2 fun c left right => ?_
    simp only [mem_filter, Bool.and_eq_true, decide_eq_true_eq] at left right
    exact different (left.2.1.1.symm.trans right.2.1.1)

theorem AttemptInv.materializeStatement {m : Materializer} (inv : AttemptInv s)
    (running : s.tx t = some (.materializer m)) (step : materializeStatement s t m = some s') :
    AttemptInv s' := by
  have ok := inv.materializer running
  cases m with
  | locking attempts =>
    simp only [AwaQueue.materializeStatement] at step
    split at step <;> cases step
    next free =>
      exact inv.of_step (inv.toDataOk.congr ⟨rfl, rfl, rfl, rfl, rfl⟩) rfl
        (fun u _ => relyLockAttempts (all_eq_true.1 free) u) ⟨ok, fun a mem => if_pos mem⟩
  | inserting attempts =>
    cases step
    refine inv.of_step (inv.toDataOk.congr ⟨rfl, rfl, rfl, rfl, rfl⟩) rfl (fun u _ => relySetTx u)
      ⟨materializedLeases_nodup inv.ledger ok.1, fun a mem => ?_⟩
    obtain ⟨asked, free, c, present, rfl, none⟩ := mem_materializedLeases mem
    exact ⟨ok.2 _ asked, free, (inv.unclosed present none).congr ⟨rfl, rfl, rfl, rfl, rfl⟩⟩
  | inserted leases => cases step

theorem AttemptInv.commitMaterializer {leases : List LeaseRow} (inv : AttemptInv s)
    (running : s.tx t = some (.materializer (.inserted leases))) :
    AttemptInv (commitMaterializer s t leases) := by
  obtain ⟨distinct, ok⟩ := inv.materializer running
  have leased : (AwaQueue.commitMaterializer s t leases).tables.leased = s.tables.leased ++
      leases.map LeaseRow.attempt :=
    map_append
  have unclosed {a : Attempt} (before : Unclosed s a) :
      Unclosed (AwaQueue.commitMaterializer s t leases) a :=
    { before with }
  have data : DataOk (AwaQueue.commitMaterializer s t leases) := {
    ledger := { inv.ledger with }
    emitted := inv.emitted
    numbered := inv.numbered
    leases := leased ▸ nodup_append.2 ⟨inv.leases, distinct,
      fun a old b new same => (ok b new).2.1 (same ▸ old)⟩
    live := fun a mem => by
      rw [leased] at mem
      rcases mem_append.1 mem with old | new
      · exact unclosed (inv.live a old)
      · exact unclosed (ok a new).2.2
    ended := inv.ended
    closed := inv.closed
    evidence := inv.evidence
    pruned := inv.pruned }
  refine inv.of_end data rfl fun u other => ?_
  exact {
    attemptLock := fun _ => release_attemptLock other
    leaseLock := fun _ => release_leaseLock other
    childLocks := fun _ => release_childLocks other
    claims := fun c mem _ => mem
    appear := fun c mem => .inl mem
    held := fun a held before => by
      refine ⟨unclosed before, ?_⟩
      rw [leased, mem_append]
      refine or_iff_left fun new => ?_
      obtain ⟨lock, free, -⟩ := ok a new
      exact other (held.unique (.inl ⟨lock, free⟩)) }

structure FreshRows (s : AttemptState) (rows : List (NewClaim × Attempt)) : Prop where
  distinct : (rows.map Prod.snd).Nodup
  unseen : ∀ a ∈ rows.map Prod.snd, a ∉ s.emitted
  silent : ∀ a ∈ rows.map Prod.snd, ∀ row ∈ s.tables.successors, row.attempt ≠ a

variable {rows : List (NewClaim × Attempt)}

def newReceipts (s : AttemptState) (rows : List (NewClaim × Attempt)) : List ReceiptClaim :=
  rows.zipIdx.map fun row => row.1.1.receipt row.1.2 (s.nextReceipt + row.2)

theorem newReceipts_attempts :
    (newReceipts s rows).map ReceiptClaim.attempt = rows.map Prod.snd := by
  have names : (newReceipts s rows).map ReceiptClaim.attempt =
      (rows.zipIdx.map Prod.fst).map Prod.snd := by
    simp only [newReceipts, map_map]
    rfl
  rw [names, zipIdx_map_fst]

theorem newReceipts_receipts :
    (newReceipts s rows).map ReceiptClaim.receiptId = (range' 0 rows.length).map
      (s.nextReceipt + ·) := by
  have numbers : (newReceipts s rows).map ReceiptClaim.receiptId =
      (rows.zipIdx.map Prod.snd).map (s.nextReceipt + ·) := by
    simp only [newReceipts, map_map]
    rfl
  rw [numbers, zipIdx_map_snd]

theorem newReceipts_range (mem : c ∈ newReceipts s rows) :
    s.nextReceipt ≤ c.receiptId ∧ c.receiptId < s.nextReceipt + rows.length := by
  have number := mem_map_of_mem (f := ReceiptClaim.receiptId) mem
  rw [newReceipts_receipts] at number
  obtain ⟨i, inside, same⟩ := mem_map.1 number
  have bound := mem_range'_1.1 inside
  omega

theorem DataOk.newReceipt_unclosed (data : DataOk s) (fresh : FreshRows s rows)
    (mem : c ∈ newReceipts s rows) : s.tables.closeCount c = 0 := by
  have unseen : c.attempt ∉ s.emitted :=
    fresh.unseen _ (newReceipts_attempts ▸ mem_map_of_mem mem)
  have explicit : s.tables.closures.count c.closure = 0 := by
    refine count_eq_zero.2 fun present => ?_
    obtain ⟨d, old, key, -⟩ := data.ledger.closureOwner _ present
    exact unseen (ReceiptClaim.attempt_eq_of_closure key ▸ data.emitted d old)
  have batch : (s.tables.closedReceipts.countP fun e => e.receiptId = c.receiptId) = 0 := by
    refine countP_eq_zero.2 fun e present same => ?_
    obtain ⟨d, old, rfl⟩ := data.ledger.receiptOwner e present
    have below := data.numbered d old
    have range := newReceipts_range mem
    have number : d.receiptId = c.receiptId := of_decide_eq_true same
    omega
  rw [AttemptTables.closeCount, explicit, batch]

theorem DataOk.emit (data : DataOk s) (fresh : FreshRows s rows) : DataOk (s.emit rows) := by
  have claims {c : ReceiptClaim} (mem : c ∈ (s.emit rows).tables.claims) :
      c ∈ s.tables.claims ∨ c ∈ newReceipts s rows := mem_append.1 mem
  have known a (mem : a ∈ s.emitted) : a ∈ (s.emit rows).emitted := mem_append_left _ mem
  have unseen {c : ReceiptClaim} (mem : c ∈ newReceipts s rows) : c.attempt ∈ rows.map Prod.snd :=
    newReceipts_attempts ▸ mem_map_of_mem mem
  have unclosed a (before : Unclosed s a) : Unclosed (s.emit rows) a := {
    emitted := known a before.emitted
    unsettled := before.unsettled
    open_ := fun c mem same => by
      rcases claims mem with old | new
      · exact before.open_ c old same
      · exact absurd (same ▸ before.emitted) (fresh.unseen _ (unseen new)) }
  exact {
    ledger := {
      attempts := by
        change ((s.tables.claims ++ newReceipts s rows).map ReceiptClaim.attempt).Nodup
        rw [map_append, newReceipts_attempts]
        refine nodup_append.2 ⟨data.ledger.attempts, fresh.distinct, fun a old b new same => ?_⟩
        obtain ⟨c, mem, rfl⟩ := mem_map.1 old
        exact fresh.unseen b new (same ▸ data.emitted c mem)
      receipts := by
        change ((s.tables.claims ++ newReceipts s rows).map ReceiptClaim.receiptId).Nodup
        rw [map_append]
        refine nodup_append.2 ⟨data.ledger.receipts, ?_, fun n old m new same => ?_⟩
        · rw [newReceipts_receipts]
          exact List.Nodup.map (fun i j equal => Nat.add_left_cancel equal) (nodup_range' 1)
        · obtain ⟨c, mem, rfl⟩ := mem_map.1 old
          obtain ⟨d, added, rfl⟩ := mem_map.1 new
          have below := data.numbered c mem
          have range := newReceipts_range added
          omega
      closures := data.ledger.closures
      closureOwner := fun k present => by
        obtain ⟨c, mem, rest⟩ := data.ledger.closureOwner k present
        exact ⟨c, mem_append_left _ mem, rest⟩
      receiptOwner := fun e present => by
        obtain ⟨c, mem, rest⟩ := data.ledger.receiptOwner e present
        exact ⟨c, mem_append_left _ mem, rest⟩
      once := fun c mem => by
        rcases claims mem with old | new
        · exact data.ledger.once c old
        · exact (data.newReceipt_unclosed fresh new).trans_le (Nat.zero_le 1) }
    emitted := fun c mem => by
      rcases claims mem with old | new
      · exact known _ (data.emitted c old)
      · exact mem_append_right _ (unseen new)
    numbered := fun c mem => by
      change c.receiptId < s.nextReceipt + rows.length
      rcases claims mem with old | new
      · exact (data.numbered c old).trans_le (Nat.le_add_right _ _)
      · exact (newReceipts_range new).2
    leases := data.leases
    live := fun a mem => unclosed a (data.live a mem)
    ended := fun a mem => by
      obtain ⟨seen, one⟩ := data.ended a mem
      refine ⟨known a seen, fun c present same => ?_⟩
      rcases claims present with old | new
      · exact one c old same
      · exact absurd (same ▸ seen) (fresh.unseen _ (unseen new))
    closed := fun c mem one => by
      rcases claims mem with old | new
      · exact data.closed c old one
      · have none := data.newReceipt_unclosed fresh new
        change s.tables.closeCount c = 1 at one
        omega
    evidence := fun row mem => by
      rcases data.evidence row mem with ended | never
      · exact .inl ended
      · refine .inr fun seen => ?_
        rcases mem_append.1 seen with old | new
        · exact never old
        · exact fresh.silent _ new row mem rfl
    pruned := fun a mem => by
      obtain ⟨ended, gone⟩ := data.pruned a mem
      refine ⟨ended, fun c present same => ?_⟩
      rcases claims present with old | new
      · exact gone c old same
      · exact fresh.unseen _ (unseen new) (same ▸ (data.ended a ended).1) }

theorem AttemptInv.of_env (inv : AttemptInv s) (data : DataOk s') (tx : s'.tx = s.tx)
    (rely : ∀ u, AttemptRely u s s') : AttemptInv s' where
  toDataOk := data
  running u there mine := (inv.running u there (tx ▸ mine)).stable (rely u) data.ledger

theorem AttemptInv.emit (inv : AttemptInv s) (fresh : FreshRows s rows) :
    AttemptInv (s.emit rows) := by
  refine inv.of_env (inv.toDataOk.emit fresh) rfl fun u => ?_
  exact {
    attemptLock := fun _ held => held
    leaseLock := fun _ held => held
    childLocks := fun _ held => held
    claims := fun c mem _ => mem_append_left _ mem
    appear := fun c mem => (mem_append.1 mem).imp_right fun new =>
      fresh.unseen _ (newReceipts_attempts ▸ mem_map_of_mem new)
    held := fun a _ unclosed => by
      refine ⟨⟨mem_append_left _ unclosed.emitted, unclosed.unsettled, fun c mem same => ?_⟩,
        Iff.rfl⟩
      rcases mem_append.1 mem with old | new
      · exact unclosed.open_ c old same
      · exact absurd (same ▸ unclosed.emitted)
          (fresh.unseen _ (newReceipts_attempts ▸ mem_map_of_mem new)) }

end AwaQueue
