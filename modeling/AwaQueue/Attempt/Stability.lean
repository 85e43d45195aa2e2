import AwaQueue.Attempt.Invariant

/-! What the steps of other transactions leave to a closer or a materializer: the attempts it
holds stay unclosed and in the same regime. -/

namespace AwaQueue
open List Library
variable {s s' : AttemptState} {t t' : TxId} {T : AttemptTables} {w : AttemptWrites}
  {c d : ReceiptClaim} {a : Attempt} {x : Closer}

theorem closeCount_apply : (T.apply w).closeCount c = T.closeCount c + w.closeCount c := by
  simp only [AttemptTables.closeCount, AttemptTables.apply, AttemptWrites.closeCount, count_append,
    countP_append]
  omega

theorem AttemptWrites.closeCount_pos :
    0 < w.closeCount c ↔ c.closure ∈ w.closures ∨ ∃ e ∈ w.closedReceipts, e.receiptId =
      c.receiptId := by
  simp only [AttemptWrites.closeCount, Nat.add_pos_iff_pos_or_pos, count_pos_iff, countP_pos_iff,
    decide_eq_true_eq]

theorem AttemptTables.ledgerClosed_iff : T.ledgerClosed c = true ↔ 0 < T.closeCount c := by
  simp only [AttemptTables.ledgerClosed, AttemptTables.closeCount, Bool.or_eq_true,
    decide_eq_true_eq, any_eq_true, Nat.add_pos_iff_pos_or_pos, count_pos_iff, countP_pos_iff]

theorem LedgerOk.eq_of_attempt (ok : LedgerOk T) (hc : c ∈ T.claims) (hd : d ∈ T.claims)
    (same : c.attempt = d.attempt) : c = d :=
  inj_on_of_nodup_map ok.attempts hc hd same

theorem LedgerOk.eq_of_receipt (ok : LedgerOk T) (hc : c ∈ T.claims) (hd : d ∈ T.claims)
    (same : c.receiptId = d.receiptId) : c = d :=
  inj_on_of_nodup_map ok.receipts hc hd same

theorem ReceiptClaim.attempt_eq_of_closure (same : c.closure = d.closure) : c.attempt = d.attempt :=
  congrArg ReceiptClosure.attempt same

theorem ClosuresOk.won (ok : ClosuresOk T w) (ledger : LedgerOk T) (mem : c ∈ T.claims)
    (pending : 0 < w.closeCount c) : c.attempt ∈ w.won := by
  rcases AttemptWrites.closeCount_pos.1 pending with explicit | ⟨e, present, same⟩
  · obtain ⟨d, -, key, -, won⟩ := ok.closureOwner _ explicit
    rwa [← ReceiptClaim.attempt_eq_of_closure key]
  · obtain ⟨d, known, key, won⟩ := ok.receiptOwner e present
    have receipt : d.receiptId = c.receiptId := by rw [← same, ← key]; rfl
    rwa [← ledger.eq_of_receipt known mem receipt]

theorem ClosuresOk.transfer {T' : AttemptTables} (ok : ClosuresOk T w) (ledger : LedgerOk T')
    (keep : ∀ c ∈ T.claims, 0 < w.closeCount c → c ∈ T'.claims)
    (old : ∀ c ∈ T'.claims, c.attempt ∈ w.won → c ∈ T.claims) : ClosuresOk T' w := by
  have closureOwner : ∀ k ∈ w.closures,
      ∃ c ∈ T'.claims, c.closure = k ∧ c.isCompact = false ∧ c.attempt ∈ w.won := by
    intro k present
    obtain ⟨c, mem, key, row, taken⟩ := ok.closureOwner k present
    exact ⟨c, keep c mem (AttemptWrites.closeCount_pos.2 (.inl (key ▸ present))), key, row, taken⟩
  have receiptOwner :
      ∀ e ∈ w.closedReceipts, ∃ c ∈ T'.claims, c.closed = e ∧ c.attempt ∈ w.won := by
    intro e present
    obtain ⟨c, mem, key, taken⟩ := ok.receiptOwner e present
    have receipt : e.receiptId = c.receiptId := by rw [← key]; rfl
    exact ⟨c, keep c mem (AttemptWrites.closeCount_pos.2 (.inr ⟨e, present, receipt⟩)), key, taken⟩
  refine ⟨ok.nodup, closureOwner, receiptOwner, fun c mem => ?_⟩
  by_contra more
  rcases AttemptWrites.closeCount_pos.1 (show 0 < w.closeCount c by omega) with explicit | ⟨e,
    present, same⟩
  · obtain ⟨d, -, key, -, won⟩ := closureOwner _ explicit
    exact more (ok.once c (old c mem (ReceiptClaim.attempt_eq_of_closure key ▸ won)))
  · obtain ⟨d, known, key, won⟩ := receiptOwner e present
    have receipt : d.receiptId = c.receiptId := by rw [← same, ← key]; rfl
    obtain rfl := ledger.eq_of_receipt known mem receipt
    exact more (ok.once d (old d mem won))

theorem Held.unique (mine : Held s t a) (theirs : Held s t' a) : t = t' := by
  rcases mine with ⟨lock, free⟩ | ⟨lock, leased⟩ <;> rcases theirs with ⟨lock',
    free'⟩ | ⟨lock', leased'⟩
  · exact Option.some_inj.1 (lock.symm.trans lock')
  · exact absurd leased' free
  · exact absurd leased free'
  · exact Option.some_inj.1 (lock.symm.trans lock')

theorem WritesOk.held (ok : WritesOk s t x) (won : a ∈ x.writes.won) : Held s t a := by
  by_cases deleted : a ∈ x.writes.deletedLeases
  · exact .inr (ok.deleted a deleted).2
  · obtain ⟨lock, free, -⟩ := ok.receipt a won deleted
    exact .inl ⟨lock, free⟩

theorem WritesOk.not_won (ok : WritesOk s t x) (held : Held s t' a) (other : t' ≠ t) :
    a ∉ x.writes.won :=
  fun won => other (held.unique (ok.held won))

/-- What one step leaves to transaction `t`, which did not take it. -/
structure AttemptRely (t : TxId) (s s' : AttemptState) : Prop where
  attemptLock : ∀ a, s.attemptLock a = some t → s'.attemptLock a = some t
  leaseLock : ∀ a, s.leaseLock a = some t → s'.leaseLock a = some t
  childLocks : ∀ slot, (t, slot) ∈ s.childLocks → (t, slot) ∈ s'.childLocks
  claims : ∀ c ∈ s.tables.claims, (t, c.claimSlot) ∈ s.childLocks → c ∈ s'.tables.claims
  appear : ∀ c ∈ s'.tables.claims, c ∈ s.tables.claims ∨ c.attempt ∉ s.emitted
  held : ∀ a, Held s t a → Unclosed s a → Unclosed s' a ∧
    (a ∈ s'.tables.leased ↔ a ∈ s.tables.leased)

section
variable (rely : AttemptRely t s s')
include rely

theorem AttemptRely.counted {count : ReceiptClaim → Nat} {n : Nat}
    (known : a ∈ s.emitted) (counted : Counted s.tables count a n) :
    Counted s'.tables count a n := by
  intro c mem same
  rcases rely.appear c mem with old | new
  · exact counted c old same
  · exact absurd (same ▸ known) new

theorem WritesOk.stable (ok : WritesOk s t x) (ledger : LedgerOk s'.tables) : WritesOk s' t x := by
  have won a (mem : a ∈ x.writes.won) := rely.held a (ok.held mem) (ok.won a mem)
  -- no claim of an attempt the closer has taken is new
  have old c (mem : c ∈ s'.tables.claims) (taken : c.attempt ∈ x.writes.won) :
      c ∈ s.tables.claims :=
    (rely.appear c mem).resolve_right fun new => new (ok.won _ taken).emitted
  have closures : ClosuresOk s'.tables x.writes :=
    ok.closures.transfer ledger (fun c mem pos => rely.claims c mem (ok.children c mem pos)) old
  exact {
    scanned := fun a mem => rely.attemptLock a (ok.scanned a mem)
    won := fun a mem => (won a mem).1
    deleted := fun a mem => by
      obtain ⟨taken, lock, leased⟩ := ok.deleted a mem
      exact ⟨taken, rely.leaseLock a lock, (won a taken).2.2 leased⟩
    deletedNodup := ok.deletedNodup
    receipt := fun a taken kept => by
      obtain ⟨lock, free, counted⟩ := ok.receipt a taken kept
      exact ⟨rely.attemptLock a lock, fun leased => free ((won a taken).2.1 leased),
        rely.counted (ok.won a taken).emitted counted⟩
    closures
    explicit := fun c mem deleted => ok.explicit c (old c mem (ok.deleted _ deleted).1) deleted
    leases := ok.leases
    cleared := ok.cleared
    children := fun c mem pos =>
      rely.childLocks _ (ok.children c (old c mem (closures.won ledger mem pos)) pos)
    unsettled := ok.unsettled
    successors := ok.successors
    accounted := ok.accounted
    order := fun row mem => rely.counted (ok.won _ (ok.successors row mem)).emitted
      (ok.order row mem) }

theorem CloserOk.stable (ok : CloserOk s t x) (ledger : LedgerOk s'.tables) : CloserOk s' t x := by
  obtain ⟨locked, owing, settling, script⟩ := ok.script
  refine { toWritesOk := ok.toWritesOk.stable rely ledger, script := ⟨locked, owing, settling, ?_⟩ }
  exact {
    typed := script.typed
    locked := fun a mem => rely.attemptLock a (script.locked a mem)
    owing := fun paid a mem =>
      rely.counted (ok.won a (ok.deleted a mem).1).emitted (script.owing paid a mem)
    settling := script.settling }

theorem MaterializerOk.stable {m : Materializer} (ok : MaterializerOk s t m) :
    MaterializerOk s' t m := by
  cases m with
  | locking attempts => exact ok
  | inserting attempts => exact ⟨ok.1, fun a mem => rely.attemptLock a (ok.2 a mem)⟩
  | inserted leases =>
    refine ⟨ok.1, fun a mem => ?_⟩
    obtain ⟨lock, free, unclosed⟩ := ok.2 a mem
    obtain ⟨kept, same⟩ := rely.held a (.inl ⟨lock, free⟩) unclosed
    exact ⟨rely.attemptLock a lock, fun leased => free (same.1 leased), kept⟩

theorem TxOk.stable {tx : AttemptTx} (ok : TxOk s t tx) (ledger : LedgerOk s'.tables) :
    TxOk s' t tx := by
  cases tx with
  | closer x => exact CloserOk.stable rely ok ledger
  | materializer m => exact MaterializerOk.stable rely ok

end

end AwaQueue
