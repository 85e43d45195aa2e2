import AwaQueue.Attempt.Commits

/-! The prune gates compare totals of independent ledgers. Over sound ledgers equal totals
mean that every claim counted is closed, so that truncating a claim slot loses no open
claim. -/

namespace AwaQueue

open List Library
variable {s : AttemptState} {T : AttemptTables} {a : Attempt} {c : ReceiptClaim} {slot : Nat}
  {ref : RingRef} {chosen : ReceiptClaim → Bool}

section
variable (ledger : LedgerOk T)
include ledger

theorem LedgerOk.nodup_closures (chosen : ReceiptClaim → Bool) :
    ((T.claims.filter chosen).map ReceiptClaim.closure).Nodup :=
  (ledger.attempts.of_map.filter _).map_on fun _ left _ right same =>
    ledger.eq_of_attempt (mem_of_mem_filter left) (mem_of_mem_filter right)
      (ReceiptClaim.attempt_eq_of_closure same)

theorem LedgerOk.nodup_receipts (chosen : ReceiptClaim → Bool) :
    ((T.claims.filter chosen).map ReceiptClaim.receiptId).Nodup :=
  (filter_sublist.map _).nodup ledger.receipts

theorem LedgerOk.sum_closedReceipts (counted : ClosedReceipt → Bool)
    (agree : ∀ c, counted c.closed = chosen c) :
      ((T.claims.filter chosen).map fun c => T.closedReceipts.countP fun e => e.receiptId =
      c.receiptId).sum = T.closedReceipts.countP counted := by
  have unique : ∀ e ∈ T.closedReceipts.filter counted,
      ((T.claims.filter chosen).countP fun c => c.receiptId = e.receiptId) = 1 := by
    intro e mem
    obtain ⟨present, right⟩ := mem_filter.1 mem
    obtain ⟨c, known, rfl⟩ := ledger.receiptOwner e present
    exact countP_key_eq_one (ledger.nodup_receipts chosen) (mem_filter.2 ⟨known, agree c ▸ right⟩)
  have total := sum_countP_of_unique (T.claims.filter chosen) (T.closedReceipts.filter counted)
    (fun e c => c.receiptId = e.receiptId) unique
  rw [← countP_eq_length_filter] at total
  rw [← total]
  congr 1
  refine map_congr_left fun c mem => ?_
  rw [countP_filter]
  refine countP_congr fun e present => ?_
  simp only [decide_eq_true_eq, Bool.and_eq_true]
  constructor
  · intro same
    obtain ⟨d, known, rfl⟩ := ledger.receiptOwner e present
    obtain rfl := ledger.eq_of_receipt known (mem_of_mem_filter mem) same
    exact ⟨rfl, (agree d).trans (mem_filter.1 mem).2⟩
  · exact fun both => both.1.symm

theorem LedgerOk.sum_closures (slot : Nat) :
    ((T.claims.filter fun c => c.claimSlot = slot).map fun c => T.closures.count c.closure).sum =
      T.closures.countP fun k => k.claimSlot = slot := by
  have unique : ∀ k ∈ T.closures.filter fun k => k.claimSlot = slot,
      ((T.claims.filter fun c => c.claimSlot = slot).countP fun c => c.closure = k) = 1 := by
    intro k mem
    obtain ⟨present, right⟩ := mem_filter.1 mem
    obtain ⟨c, known, rfl, -⟩ := ledger.closureOwner k present
    exact countP_key_eq_one (ledger.nodup_closures _) (mem_filter.2 ⟨known, right⟩)
  have total := sum_countP_of_unique (T.claims.filter fun c => c.claimSlot = slot)
    (T.closures.filter fun k => k.claimSlot = slot) (fun k c => c.closure = k) unique
  rw [← countP_eq_length_filter] at total
  rw [← total]
  congr 1
  refine map_congr_left fun c mem => ?_
  rw [countP_filter, count_eq_countP]
  refine countP_congr fun k _ => ?_
  simp only [beq_iff_eq, decide_eq_true_eq, Bool.and_eq_true]
  constructor
  · rintro rfl
    exact ⟨rfl, of_decide_eq_true (mem_filter.1 mem).2⟩
  · exact fun both => both.1.symm

theorem LedgerOk.compact_count (mem : c ∈ T.claims) (compact : c.isCompact = true) :
    T.closures.count c.closure = 0 := by
  refine count_eq_zero.2 fun present => ?_
  obtain ⟨d, known, key, row⟩ := ledger.closureOwner _ present
  rw [ledger.eq_of_attempt known mem (ReceiptClaim.attempt_eq_of_closure key), compact] at row
  cases row

theorem LedgerOk.explicitCount_eq (ref : RingRef) : T.explicitCount ref =
      ((T.claims.filter fun c => c.ref = ref).map fun c => T.closures.count c.closure).sum := by
  have split : (T.claims.filter fun c => c.ref = ref && !c.isCompact) =
      (T.claims.filter fun c => c.ref = ref).filter fun c => !c.isCompact := by
    rw [filter_filter]
    exact filter_congr fun c _ => Bool.and_comm _ _
  rw [AttemptTables.explicitCount, split]
  have counted : ∀ claims : List ReceiptClaim, claims ⊆ T.claims →
      ((claims.filter fun c => !c.isCompact).map fun c => T.closures.count c.closure).sum =
        (claims.map fun c => T.closures.count c.closure).sum := by
    intro claims known
    induction claims with
    | nil => rfl
    | cons c claims ih =>
      have later := ih fun d mem => known (mem_cons_of_mem c mem)
      rw [filter_cons]
      cases compact : c.isCompact
      · simp only [Bool.not_false, ite_true, map_cons, sum_cons, later]
      · simp only [Bool.not_true, Bool.false_eq_true, ite_false, map_cons, sum_cons, later,
          ledger.compact_count (known mem_cons_self) compact, Nat.zero_add]
  exact counted _ fun _ => mem_of_mem_filter

theorem LedgerOk.closed_of_totals (totals : (T.claims.filter chosen).length =
      ((T.claims.filter chosen).map fun c => T.closures.count c.closure).sum +
        ((T.claims.filter chosen).map fun c => T.closedReceipts.countP fun e => e.receiptId =
    c.receiptId).sum) : ∀ c ∈ T.claims, chosen c = true → T.closeCount c = 1 := by
  intro c mem right
  rw [← sum_map_add] at totals
  have full : ((T.claims.filter chosen).map T.closeCount).sum = (T.claims.filter chosen).length :=
    totals.symm
  exact eq_one_of_sum_eq_length (fun d present => ledger.once d (mem_of_mem_filter present)) full c
    (mem_filter.2 ⟨mem, right⟩)

theorem LedgerOk.closed_of_claimGate (gate : T.claimGate slot = true) :
    ∀ c ∈ T.claims, c.claimSlot = slot → T.closeCount c = 1 := by
  have totals := of_decide_eq_true gate
  rw [countP_eq_length_filter, ← ledger.sum_closures slot,
    ← ledger.sum_closedReceipts (fun e => e.claimSlot = slot) fun _ => rfl] at totals
  exact fun c mem right => ledger.closed_of_totals totals c mem (decide_eq_true right)

theorem LedgerOk.closed_of_claimRefsGate (gate : T.claimRefsGate ref = true) :
    ∀ c ∈ T.claims, c.ref = ref → T.closeCount c = 1 := by
  have totals := of_decide_eq_true gate
  rw [countP_eq_length_filter, ledger.explicitCount_eq ref,
    ← ledger.sum_closedReceipts (fun e => e.ref = ref) fun _ => rfl] at totals
  exact fun c mem right => ledger.closed_of_totals totals c mem (decide_eq_true right)

end

theorem LedgerOk.closeCount_truncate (ledger : LedgerOk T) (mem : c ∈ T.claims)
    (stays : c.claimSlot ≠ slot) : (T.truncateClaims slot).closeCount c = T.closeCount c := by
  have explicit : (T.closures.filter fun k => k.claimSlot ≠ slot).count c.closure =
      T.closures.count c.closure :=
    count_filter (decide_eq_true stays)
  have batch : ((T.closedReceipts.filter fun e => e.claimSlot ≠ slot).countP fun e => e.receiptId =
      c.receiptId) = T.closedReceipts.countP fun e => e.receiptId = c.receiptId := by
    rw [countP_filter]
    refine countP_congr fun e present => ?_
    simp only [Bool.and_eq_true, decide_eq_true_eq, and_iff_left_iff_imp]
    intro same
    obtain ⟨d, known, rfl⟩ := ledger.receiptOwner e present
    exact ledger.eq_of_receipt known mem same ▸ stays
  exact congrArg₂ (· + ·) explicit batch

theorem mem_truncateClaims :
    c ∈ (T.truncateClaims slot).claims ↔ c ∈ T.claims ∧ c.claimSlot ≠ slot := by
  simp [AttemptTables.truncateClaims]

theorem LedgerOk.truncate (ledger : LedgerOk T) (slot : Nat) :
    LedgerOk (T.truncateClaims slot) where
  attempts := (filter_sublist.map _).nodup ledger.attempts
  receipts := (filter_sublist.map _).nodup ledger.receipts
  closures := ledger.closures.filter _
  closureOwner k present := by
    obtain ⟨old, stays⟩ := mem_filter.1 present
    obtain ⟨c, mem, rfl, row⟩ := ledger.closureOwner k old
    exact ⟨c, mem_filter.2 ⟨mem, stays⟩, rfl, row⟩
  receiptOwner e present := by
    obtain ⟨old, stays⟩ := mem_filter.1 present
    obtain ⟨c, mem, rfl⟩ := ledger.receiptOwner e old
    exact ⟨c, mem_filter.2 ⟨mem, stays⟩, rfl⟩
  once c mem := by
    obtain ⟨old, stays⟩ := mem_truncateClaims.1 mem
    exact (ledger.closeCount_truncate old stays).trans_le (ledger.once c old)

theorem Unclosed.pruneClaims (unclosed : Unclosed s a) (ledger : LedgerOk s.tables) (slot : Nat) :
    Unclosed (pruneClaims s slot) a where
  __ := unclosed
  open_ c mem same := by
    obtain ⟨old, stays⟩ := mem_truncateClaims.1 mem
    exact (ledger.closeCount_truncate old stays).trans (unclosed.open_ c old same)

theorem DataOk.pruneClaims (data : DataOk s) (gate : s.tables.claimGate slot = true) :
    DataOk (pruneClaims s slot) where
  __ := data
  ledger := data.ledger.truncate slot
  emitted c mem := data.emitted c (mem_truncateClaims.1 mem).1
  numbered c mem := data.numbered c (mem_truncateClaims.1 mem).1
  live a mem := (data.live a mem).pruneClaims data.ledger slot
  ended a mem := by
    refine ⟨(data.ended a mem).1, fun c present same => ?_⟩
    obtain ⟨old, stays⟩ := mem_truncateClaims.1 present
    exact (data.ledger.closeCount_truncate old stays).trans ((data.ended a mem).2 c old same)
  closed c mem one := by
    obtain ⟨old, stays⟩ := mem_truncateClaims.1 mem
    exact data.closed c old ((data.ledger.closeCount_truncate old stays).symm.trans one)
  pruned a mem := by
    rcases mem_append.1 mem with before | now
    · obtain ⟨ended, gone⟩ := data.pruned a before
      exact ⟨ended, fun c present => gone c (mem_truncateClaims.1 present).1⟩
    · obtain ⟨c, found, rfl⟩ := mem_map.1 now
      obtain ⟨known, here⟩ := mem_filter.1 found
      have inSlot : c.claimSlot = slot := of_decide_eq_true here
      refine ⟨data.closed c known (data.ledger.closed_of_claimGate gate c known inSlot),
        fun d present same => ?_⟩
      obtain ⟨old, stays⟩ := mem_truncateClaims.1 present
      exact stays (data.ledger.eq_of_attempt old known same ▸ inSlot)

theorem AttemptInv.pruneClaims (inv : AttemptInv s) (gate : s.tables.claimGate slot = true)
    (unlocked : ∀ lock ∈ s.childLocks, lock.2 ≠ slot) : AttemptInv (pruneClaims s slot) := by
  refine inv.of_env (inv.toDataOk.pruneClaims gate) rfl fun u => ?_
  exact {
    attemptLock := fun _ held => held
    leaseLock := fun _ held => held
    childLocks := fun _ held => held
    claims := fun c mem locked => mem_truncateClaims.2 ⟨mem, unlocked _ locked⟩
    appear := fun c mem => .inl (mem_truncateClaims.1 mem).1
    held := fun a _ unclosed => ⟨unclosed.pruneClaims inv.ledger slot, Iff.rfl⟩ }

end AwaQueue
