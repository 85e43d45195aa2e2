import AwaQueue.Attempt.Stability

/-! What the closing statements write: each claim they find gets one closure, whatever the
form, and the ledgers the transaction sees stay sound. -/

namespace AwaQueue

open List Library
variable {s : AttemptState} {t : TxId} {T : AttemptTables} {w : AttemptWrites} {c d : ReceiptClaim}
  {a : Attempt} {x : Closer} {form : CloseForm} {found : List ReceiptClaim}
    {existing : List ReceiptClosure}
  {pairs : List Attempt}

theorem LedgerOk.count_onConflictDoNothing (ledger : LedgerOk T) (known : found ⊆ T.claims)
    (mem : c ∈ T.claims) :
      (onConflictDoNothing existing ((found.filter form.explicit).map ReceiptClaim.closure)).count
      c.closure = if c ∈ found ∧ form.explicit c = true ∧ c.closure ∉ existing then 1 else 0 := by
  rw [onConflictDoNothing, (nodup_dedup _).count]
  congr 1
  simp only [mem_dedup, mem_filter, mem_map, decide_eq_true_eq, eq_iff_iff]
  constructor
  · rintro ⟨⟨d, ⟨present, explicit⟩, same⟩, fresh⟩
    obtain rfl := ledger.eq_of_attempt (known present) mem (ReceiptClaim.attempt_eq_of_closure same)
    exact ⟨present, explicit, fresh⟩
  · rintro ⟨present, explicit, fresh⟩
    exact ⟨⟨c, ⟨present, explicit⟩, rfl⟩, fresh⟩

theorem LedgerOk.countP_closed (ledger : LedgerOk T) (known : found ⊆ T.claims)
    (distinct : found.Nodup) (mem : c ∈ T.claims) (chosen : ReceiptClaim → Bool) :
    (((found.filter chosen).map ReceiptClaim.closed).countP fun e => e.receiptId = c.receiptId) =
      if c ∈ found ∧ chosen c = true then 1 else 0 := by
  have same : ((found.filter chosen).countP fun d => (ReceiptClaim.closed d).receiptId =
      c.receiptId) = (found.filter chosen).count c := by
    rw [count_eq_countP]
    refine countP_congr fun d present => ?_
    rw [decide_eq_true_eq, beq_iff_eq]
    exact ⟨ledger.eq_of_receipt (known (mem_of_mem_filter present)) mem, fun equal => equal ▸ rfl⟩
  rw [countP_map, Function.comp_def, same, (distinct.filter _).count]
  simp only [mem_filter]

/-- A statement adds one closure for each claim it finds, unless the explicit one is there. -/
theorem LedgerOk.closeCount_addClosures (ledger : LedgerOk T) (known : found ⊆ T.claims)
    (distinct : found.Nodup)
    (mem : c ∈ T.claims) : (w.addClosures existing form found).closeCount c = w.closeCount c +
      if c ∈ found ∧ (form.explicit c = true → c.closure ∉ existing) then 1 else 0 := by
  simp only [AttemptWrites.closeCount, AttemptWrites.addClosures, count_append, countP_append,
    ledger.count_onConflictDoNothing known mem, ledger.countP_closed known distinct mem,
      Bool.not_eq_true']
  by_cases present : c ∈ found <;> cases explicit : form.explicit c <;> by_cases fresh :
    c.closure ∈ existing <;> simp [present, fresh] <;> omega

theorem CloseForm.explicit_row (explicit : form.explicit c = true) : c.isCompact = false := by
  simp only [CloseForm.explicit, Bool.and_eq_true, Bool.not_eq_true'] at explicit
  exact explicit.2

theorem WritesOk.viewLedger (ok : WritesOk s t x) (ledger : LedgerOk s.tables) :
    LedgerOk (x.view s) where
  __ := ledger
  closures := by
    refine nodup_append.2 ⟨ledger.closures, ok.closures.nodup, fun k old k' new same => ?_⟩
    obtain ⟨c, mem, key, -, won⟩ := ok.closures.closureOwner k' new
    have unclosed := (ok.won _ won).open_ c mem rfl
    have counted : 0 < s.tables.closures.count c.closure := count_pos_iff.2 (key ▸ same ▸ old)
    simp only [AttemptTables.closeCount] at unclosed
    omega
  closureOwner k present := by
    rcases mem_append.1 present with old | new
    · exact ledger.closureOwner k old
    · obtain ⟨c, mem, key, row, -⟩ := ok.closures.closureOwner k new
      exact ⟨c, mem, key, row⟩
  receiptOwner e present := by
    rcases mem_append.1 present with old | new
    · exact ledger.receiptOwner e old
    · obtain ⟨c, mem, key, -⟩ := ok.closures.receiptOwner e new
      exact ⟨c, mem, key⟩
  once c mem := by
    rw [Closer.view, closeCount_apply]
    have committed := ledger.once c mem
    have pending := ok.closures.once c mem
    by_cases some : 0 < x.writes.closeCount c
    · have unclosed := (ok.won _ (ok.closures.won ledger mem some)).open_ c mem rfl
      omega
    · omega

theorem ClosuresOk.add {won : List Attempt} {cleared : List Attempt} (ok : ClosuresOk T w)
    (ledger : LedgerOk T) (known : found ⊆ T.claims) (distinct : found.Nodup) (grows : w.won ⊆ won)
    (taken : ∀ c ∈ found, c.attempt ∈ won)
    (unclosed : ∀ c ∈ found, (form.explicit c = true → c.closure ∉ T.closures ++ w.closures) →
    w.closeCount c = 0) : ClosuresOk T { w.addClosures (T.closures ++ w.closures) form found with
      won, clearedState := cleared } where
  nodup := by
    refine nodup_append.2 ⟨ok.nodup, nodup_dedup _, fun k old k' new same => ?_⟩
    simp only [onConflictDoNothing, mem_dedup, mem_filter, decide_eq_true_eq] at new
    exact new.2 (mem_append_right _ (same ▸ old))
  closureOwner k present := by
    rcases mem_append.1 present with old | new
    · obtain ⟨c, mem, key, row, won⟩ := ok.closureOwner k old
      exact ⟨c, mem, key, row, grows won⟩
    · simp only [onConflictDoNothing, mem_dedup, mem_filter, mem_map] at new
      obtain ⟨⟨c, ⟨mem, explicit⟩, key⟩, -⟩ := new
      exact ⟨c, known mem, key, CloseForm.explicit_row explicit, taken c mem⟩
  receiptOwner e present := by
    rcases mem_append.1 present with old | new
    · obtain ⟨c, mem, key, won⟩ := ok.receiptOwner e old
      exact ⟨c, mem, key, grows won⟩
    · obtain ⟨c, mem, key⟩ := mem_map.1 new
      exact ⟨c, known (mem_of_mem_filter mem), key, taken c (mem_of_mem_filter mem)⟩
  once c mem := by
    have before := ok.once c mem
    change (w.addClosures (T.closures ++ w.closures) form found).closeCount c ≤ 1
    rw [ledger.closeCount_addClosures known distinct mem]
    split
    · next added =>
      have none := unclosed c added.1 added.2
      omega
    · omega

theorem counted_of_mem (ledger : LedgerOk T) (mem : c ∈ T.claims) {count : ReceiptClaim → Nat}
    {n : Nat} (here : count c = n) : Counted T count c.attempt n := by
  intro d present same
  rw [ledger.eq_of_attempt present mem same]
  exact here

theorem DataOk.unclosed (data : DataOk s) (mem : c ∈ s.tables.claims)
    (none : s.tables.closeCount c = 0) : Unclosed s c.attempt where
  emitted := data.emitted c mem
  unsettled ended := by
    have one := (data.ended _ ended).2 c mem rfl
    omega
  open_ := counted_of_mem data.ledger mem none

theorem mem_leased_view : a ∈ (x.view s).leased ↔
    (a ∈ s.tables.leased ∧ a ∉ x.writes.deletedLeases) ∨
      a ∈ x.writes.leases.map LeaseRow.attempt := by
  simp only [AttemptTables.leased, Closer.view, AttemptTables.apply, map_append,
    mem_append, mem_map, mem_filter, decide_eq_true_eq]
  constructor
  · rintro (⟨lease, ⟨present, kept⟩, rfl⟩ | new)
    · exact .inl ⟨⟨lease, present, rfl⟩, kept⟩
    · exact .inr new
  · rintro (⟨⟨lease, present, rfl⟩, kept⟩ | new)
    · exact .inl ⟨lease, ⟨present, kept⟩, rfl⟩
    · exact .inr new

/-- What a receipt statement has made sure of before it closes the claims it found. -/
structure Closable (s : AttemptState) (t : TxId) (x : Closer) (form : CloseForm)
    (found : List ReceiptClaim) : Prop where
  known : found ⊆ s.tables.claims
  distinct : found.Nodup
  locked : ∀ c ∈ found, s.attemptLock c.attempt = some t
  unclosed : ∀ c ∈ found, (x.view s).closeCount c = 0
  free : ∀ c ∈ found, c.attempt ∉ (x.view s).leased
  shape : form = .slow ∨ ∀ c ∈ found, c.attempt ∉ x.writes.deletedLeases

theorem Closable.closeCount (able : Closable s t x form found) (mem : c ∈ found) :
    s.tables.closeCount c = 0 ∧ x.writes.closeCount c = 0 := by
  have none := able.unclosed c mem
  rw [Closer.view, closeCount_apply] at none
  omega

theorem Closable.count (able : Closable s t x form found) (ledger : LedgerOk s.tables)
    (mem : c ∈ s.tables.claims) :
    (x.close s form found).writes.closeCount c = x.writes.closeCount c + if c ∈ found then
      1 else 0 := by
  change (x.writes.addClosures (x.view s).closures form found).closeCount c = _
  rw [ledger.closeCount_addClosures able.known able.distinct mem]
  congr 2
  refine propext ⟨And.left, fun present => ⟨present, fun _ old => ?_⟩⟩
  have counted : 0 < (x.view s).closures.count c.closure := count_pos_iff.2 old
  have none := able.unclosed c present
  simp only [AttemptTables.closeCount] at none
  omega

theorem WritesOk.close (ok : WritesOk s t x) (data : DataOk s) (able : Closable s t x form found)
    (children : ∀ c ∈ found, (t, c.claimSlot) ∈ s.childLocks) :
    WritesOk s t (x.close s form found) := by
  have count c (mem : c ∈ s.tables.claims) := able.count data.ledger mem
  have closures : ClosuresOk s.tables (x.close s form found).writes := by
    refine ok.closures.add data.ledger able.known able.distinct (subset_append_left _ _) ?_ ?_
    · exact fun c mem => mem_append_right _ (mem_map_of_mem mem)
    · exact fun c mem _ => (able.closeCount mem).2
  -- a claim that had its closure before was not found
  have settled a (one : Counted s.tables x.writes.closeCount a 1) :
      Counted s.tables (x.close s form found).writes.closeCount a 1 := by
    intro c mem same
    have before := one c mem same
    have after := closures.once c mem
    rw [count c mem] at after ⊢
    split <;> simp_all
  exact {
    scanned := ok.scanned
    won := fun a mem => by
      rcases mem_append.1 mem with old | new
      · exact ok.won a old
      · obtain ⟨c, present, rfl⟩ := mem_map.1 new
        exact data.unclosed (able.known present) (able.closeCount present).1
    deleted := fun a mem => by
      obtain ⟨taken, rest⟩ := ok.deleted a mem
      exact ⟨mem_append_left _ taken, rest⟩
    deletedNodup := ok.deletedNodup
    receipt := fun a mem kept => by
      rcases mem_append.1 mem with old | new
      · obtain ⟨lock, free, one⟩ := ok.receipt a old kept
        exact ⟨lock, free, settled a one⟩
      · obtain ⟨c, present, rfl⟩ := mem_map.1 new
        refine ⟨able.locked c present, fun leased => able.free c present
          (mem_leased_view.2 (.inl ⟨leased, kept⟩)), ?_⟩
        refine counted_of_mem data.ledger (able.known present) ?_
        rw [count c (able.known present), (able.closeCount present).2, if_pos present]
    closures
    explicit := fun c mem deleted row e present same => by
      rcases mem_append.1 present with old | new
      · exact ok.explicit c mem deleted row e old same
      · obtain ⟨d, chosen, rfl⟩ := mem_map.1 new
        obtain ⟨found, closedForm⟩ := mem_filter.1 chosen
        obtain rfl := data.ledger.eq_of_receipt (able.known found) mem same
        rcases able.shape with slow | kept
        · simp [CloseForm.explicit, slow, row] at closedForm
        · exact kept d found deleted
    leases := ok.leases
    cleared := fun a mem => mem_append_left _ (ok.cleared a mem)
    children := fun c mem pos => by
      rw [count c mem] at pos
      by_cases present : c ∈ found
      · exact children c present
      · rw [if_neg present] at pos
        exact ok.children c mem pos
    unsettled := fun a mem => by
      rcases mem_append.1 mem with old | new
      · exact mem_append_left _ (ok.unsettled a old)
      · exact mem_append_right _ new
    successors := fun row mem => mem_append_left _ (ok.successors row mem)
    accounted := fun a mem => by
      rcases mem_append.1 mem with old | new
      · exact (ok.accounted a old).imp_left (mem_append_left _)
      · exact .inl (mem_append_right _ new)
    order := fun row mem => settled _ (ok.order row mem) }

theorem mem_unclosedPairs {checked : Bool} :
      c ∈ unclosedPairs checked T pairs ↔ c ∈ T.claims ∧ c.attempt ∈ pairs ∧
      (if checked then !T.closedEvidence c else !c.isCompact || !T.ledgerClosed c) = true := by
  simp only [unclosedPairs, mem_flatMap, mem_filter, Bool.and_eq_true, decide_eq_true_eq]
  constructor
  · rintro ⟨a, mem, present, rfl, open_⟩
    exact ⟨present, mem, open_⟩
  · rintro ⟨present, mem, open_⟩
    exact ⟨c.attempt, mem, present, rfl, open_⟩

theorem LedgerOk.unclosedPairs_nodup (ledger : LedgerOk T) {checked : Bool}
    (distinct : pairs.Nodup) : (unclosedPairs checked T pairs).Nodup := by
  refine nodup_flatMap.2 ⟨fun a _ => ledger.attempts.of_map.filter _,
    distinct.imp fun {a b} different => ?_⟩
  refine disjoint_left.2 fun c left right => ?_
  simp only [mem_filter, Bool.and_eq_true, decide_eq_true_eq] at left right
  exact different (left.2.1.symm.trans right.2.1)

/-- No row speaks for an attempt that nobody has settled. -/
theorem DataOk.no_successor (data : DataOk s) (unclosed : Unclosed s a) :
    ∀ row ∈ s.tables.successors, row.attempt ≠ a := by
  rintro row mem rfl
  rcases data.evidence row mem with ended | never
  · exact unclosed.unsettled ended
  · exact never unclosed.emitted

variable {checked : Bool}

theorem WritesOk.mem_unclosedPairs (ok : WritesOk s t x) (data : DataOk s)
    (mem : c ∈ s.tables.claims)
    (deleted : c.attempt ∈ x.writes.deletedLeases) (none : x.writes.closeCount c = 0) :
    c ∈ unclosedPairs checked (x.view s) x.writes.deletedLeases := by
  have unclosed := ok.won _ (ok.deleted _ deleted).1
  have count : (x.view s).closeCount c = 0 := by
    rw [Closer.view, closeCount_apply, unclosed.open_ c mem rfl, none]
  have ledger : (x.view s).ledgerClosed c = false := by
    rw [Bool.eq_false_iff, Ne, AttemptTables.ledgerClosed_iff]
    omega
  have silent : (x.view s).successorEvidence c.attempt = false := by
    simp only [AttemptTables.successorEvidence, any_eq_false]
    intro row present
    rcases mem_append.1 present with old | new
    · simp [data.no_successor unclosed row old]
    · have different : row.attempt ≠ c.attempt := by
        intro same
        have one := ok.order row new c mem same.symm
        omega
      simp [different]
  refine AwaQueue.mem_unclosedPairs.2 ⟨mem, deleted, ?_⟩
  cases checked <;> simp [AttemptTables.closedEvidence, ledger, silent]

theorem WritesOk.unclosedPairs_skip (ok : WritesOk s t x) (mem : c ∈ s.tables.claims)
    (present : c ∈ unclosedPairs checked (x.view s) x.writes.deletedLeases)
    (fresh : CloseForm.slow.explicit c = true → c.closure ∉ (x.view s).closures) :
    x.writes.closeCount c = 0 := by
  obtain ⟨-, deleted, open_⟩ := AwaQueue.mem_unclosedPairs.1 present
  by_contra pending
  have seen : (x.view s).ledgerClosed c = true := by
    rw [AttemptTables.ledgerClosed_iff, Closer.view, closeCount_apply]
    omega
  have row : c.isCompact = false := by
    cases checked <;> simp [AttemptTables.closedEvidence, seen] at open_
    exact open_
  rcases AttemptWrites.closeCount_pos.1 (Nat.pos_of_ne_zero pending) with explicit | ⟨e, batch,
    same⟩
  · exact fresh (by simp [CloseForm.explicit, row]) (mem_append_right _ explicit)
  · exact ok.explicit c mem deleted row e batch same

theorem WritesOk.closePairs_count (ok : WritesOk s t x) (data : DataOk s) (checked : Bool)
    (mem : c ∈ s.tables.claims) :
    (x.closePairs s (unclosedPairs checked (x.view s) x.writes.deletedLeases)).writes.closeCount c =
      if c.attempt ∈ x.writes.deletedLeases then 1 else x.writes.closeCount c := by
  have counted : (x.writes.addClosures (x.view s).closures .slow
      (unclosedPairs checked (x.view s) x.writes.deletedLeases)).closeCount c = _ :=
    data.ledger.closeCount_addClosures (fun d present => (AwaQueue.mem_unclosedPairs.1 present).1)
      ((ok.viewLedger data.ledger).unclosedPairs_nodup ok.deletedNodup) mem
  change (x.writes.addClosures _ .slow _).closeCount c = _
  rw [counted]
  by_cases deleted : c.attempt ∈ x.writes.deletedLeases
  · rw [if_pos deleted]
    by_cases none : x.writes.closeCount c = 0
    · have fresh : c.closure ∉ (x.view s).closures := by
        intro old
        have pos : 0 < (x.view s).closures.count c.closure := count_pos_iff.2 old
        have zero : (x.view s).closeCount c = 0 := by
          rw [Closer.view, closeCount_apply, (ok.won _ (ok.deleted _ deleted).1).open_ c mem rfl,
            none]
        simp only [AttemptTables.closeCount] at zero
        omega
      rw [if_pos ⟨ok.mem_unclosedPairs data mem deleted none, fun _ => fresh⟩, none]
    · have one := ok.closures.once c mem
      rw [if_neg fun both => none (ok.unclosedPairs_skip mem both.1 both.2)]
      omega
  · rw [if_neg deleted, if_neg fun both => deleted (AwaQueue.mem_unclosedPairs.1 both.1).2.1,
      Nat.add_zero]

theorem WritesOk.closePairs (ok : WritesOk s t x) (data : DataOk s)
    (children : ∀ c ∈ unclosedPairs checked (x.view s) x.writes.deletedLeases,
    (t, c.claimSlot) ∈ s.childLocks) :
    WritesOk s t (x.closePairs s (unclosedPairs checked (x.view s) x.writes.deletedLeases)) := by
  have count c (mem : c ∈ s.tables.claims) := ok.closePairs_count data checked mem
  have known : unclosedPairs checked (x.view s) x.writes.deletedLeases ⊆ s.tables.claims :=
    fun c present => (AwaQueue.mem_unclosedPairs.1 present).1
  have settled a (one : Counted s.tables x.writes.closeCount a 1) : Counted s.tables
      (x.closePairs s (unclosedPairs checked (x.view s) x.writes.deletedLeases)).writes.closeCount a
        1 := by
    intro c mem same
    rw [count c mem]
    split
    · rfl
    · exact one c mem same
  have closures : ClosuresOk s.tables
      (x.closePairs s (unclosedPairs checked (x.view s) x.writes.deletedLeases)).writes := by
    refine ok.closures.add data.ledger known
      ((ok.viewLedger data.ledger).unclosedPairs_nodup ok.deletedNodup) (List.Subset.refl _) ?_ ?_
    · exact fun c present => (ok.deleted _ (AwaQueue.mem_unclosedPairs.1 present).2.1).1
    · exact fun c present fresh => ok.unclosedPairs_skip (known present) present fresh
  exact { ok with
    receipt := fun a taken kept => by
      obtain ⟨lock, free, one⟩ := ok.receipt a taken kept
      exact ⟨lock, free, settled a one⟩
    closures
    explicit := fun c mem deleted row e present same => by
      rcases mem_append.1 present with old | new
      · exact ok.explicit c mem deleted row e old same
      · obtain ⟨d, chosen, rfl⟩ := mem_map.1 new
        obtain ⟨found, closedForm⟩ := mem_filter.1 chosen
        obtain rfl := data.ledger.eq_of_receipt (known found) mem same
        simp [CloseForm.explicit, row] at closedForm
    cleared := fun _ mem => mem
    children := fun c mem pos => by
      rw [count c mem] at pos
      by_cases deleted : c.attempt ∈ x.writes.deletedLeases
      · by_cases none : x.writes.closeCount c = 0
        · exact children c (ok.mem_unclosedPairs data mem deleted none)
        · exact ok.children c mem (Nat.pos_of_ne_zero none)
      · rw [if_neg deleted] at pos
        exact ok.children c mem pos
    order := fun row mem => settled _ (ok.order row mem) }

end AwaQueue
