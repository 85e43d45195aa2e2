import AwaQueue.Terminal.Store
import AwaQueue.Library.Tally

/-! What the store keeps in every state: a receipt or lease has the columns of the claim that
wrote it, and lane numbers are used once. -/

namespace AwaQueue

open List
open Option (bind_eq_bind bind_eq_some_iff ite_none_right_eq_some map_eq_some_iff some_inj)
open Library
variable {s s' : RowStore} {mode : Bool} {a : Attempt} {x : ClaimedRuntimeJob} {c : Receipt}
  {lease : LeaseEntry}
  {row : ReadyEntry} {entry : ReadyEntry × ClaimedRuntimeJob} {columns : AttemptColumns} {now : Nat}

def ReadyRow.position (row : ReadyEntry) : Lane × Nat := (row.lane, row.laneSeq)

structure HandedOut (mode : Bool) (row : ReadyEntry) (x : ClaimedRuntimeJob) : Prop where
  lane : x.claim.lane = row.lane
  laneSeq : x.claim.laneSeq = row.laneSeq
  ref : x.claim.ref = row.ref
  receipt : x.claim.leaseClaimReceipt = mode
  receiptId : x.claim.receiptId.isSome = mode
  job : x.job = row.jobRow x.job.priority
  states : x.uniqueStates = row.job.uniqueStates

structure StoreOk (mode : Bool) (s : RowStore) : Prop where
  handed : ∀ entry ∈ s.claimed, HandedOut mode entry.1 entry.2
  attempts : (s.claimed.map fun entry => entry.2.job.attempt).Nodup
  positions : (s.claimed.map fun entry => entry.1.position).Nodup
  numbered : ∀ row ∈ s.ready, row.laneSeq < s.nextSeq row.lane
  claimedNumbered : ∀ entry ∈ s.claimed, entry.1.laneSeq < s.nextSeq entry.1.lane
  distinct : (s.ready.map ReadyRow.position).Nodup
  same : ∀ entry ∈ s.claimed, ∀ row ∈ s.ready, row.position = entry.1.position → row = entry.1
  receipts : ∀ c ∈ s.receipts, ∃ entry ∈ s.claimed,
    c.toAttemptColumns = entry.1.columns entry.2.job.priority ∧ c.isOf entry.2 = true
  receiptsOnce : (s.receipts.map fun c : Receipt => c.attempt).Nodup
  leases : ∀ lease ∈ s.leases, ∃ entry ∈ s.claimed,
    lease.toAttemptColumns = entry.1.columns entry.2.job.priority ∧
      (mode = false → lease.leaseSlot = entry.2.claim.leaseSlot)
  leasesOnce : (s.leases.map fun lease : LeaseEntry => lease.attempt).Nodup
  leaseKeys : (s.leases.map fun lease : LeaseEntry => (lease.leaseSlot, lease.lane,
    lease.laneSeq)).Nodup
  receiptMode : mode = false → s.receipts = []
  unique : (s.uniqueClaims.map UniqueClaim.key).Nodup

theorem StoreOk.initial : StoreOk mode RowStore.initial where
  handed := forall_mem_nil _
  attempts := nodup_nil
  positions := nodup_nil
  numbered := forall_mem_nil _
  claimedNumbered := forall_mem_nil _
  distinct := nodup_nil
  same := forall_mem_nil _
  receipts := forall_mem_nil _
  receiptsOnce := nodup_nil
  leases := forall_mem_nil _
  leasesOnce := nodup_nil
  leaseKeys := nodup_nil
  receiptMode _ := rfl
  unique := nodup_nil

theorem HandedOut.attempt (handed : HandedOut mode row x) : x.job.attempt = row.nextAttempt := by
  rw [handed.job]
  rfl

theorem StoreOk.entry_eq (ok : StoreOk mode s) {other : ReadyEntry × ClaimedRuntimeJob}
    (left : entry ∈ s.claimed) (right : other ∈ s.claimed)
    (same : entry.2.job.attempt = other.2.job.attempt) : entry = other :=
  inj_on_of_nodup_map ok.attempts left right same

theorem StoreOk.receipt_of (ok : StoreOk mode s) (mem : c ∈ s.receipts) (handed : entry ∈ s.claimed)
    (same : c.attempt = entry.2.job.attempt) :
    c.toAttemptColumns = entry.1.columns entry.2.job.priority ∧ c.isOf entry.2 = true := by
  obtain ⟨other, present, columns, named⟩ := ok.receipts c mem
  have attempts : c.attempt = other.2.job.attempt := by
    rw [show c.attempt = (other.1.columns other.2.job.priority).attempt from congrArg
      AttemptColumns.attempt columns]
    exact (ok.handed other present).attempt.symm
  obtain rfl := ok.entry_eq handed present (same.symm.trans attempts)
  exact ⟨columns, named⟩

theorem StoreOk.lease_of (ok : StoreOk mode s) (mem : lease ∈ s.leases) (handed : entry ∈ s.claimed)
    (same : lease.attempt = entry.2.job.attempt) :
      lease.toAttemptColumns = entry.1.columns entry.2.job.priority ∧
      (mode = false → lease.leaseSlot = entry.2.claim.leaseSlot) := by
  obtain ⟨other, present, columns, slot⟩ := ok.leases lease mem
  have attempts : lease.attempt = other.2.job.attempt := by
    rw [show lease.attempt = (other.1.columns other.2.job.priority).attempt from
      congrArg AttemptColumns.attempt columns]
    exact (ok.handed other present).attempt.symm
  obtain rfl := ok.entry_eq handed present (same.symm.trans attempts)
  exact ⟨columns, slot⟩

structure Shrinks (s s' : RowStore) : Prop where
  claimed : s'.claimed = s.claimed
  ready : s'.ready.Sublist s.ready
  receipts : s'.receipts.Sublist s.receipts
  leases : s'.leases.Sublist s.leases
  nextSeq : s'.nextSeq = s.nextSeq
  unique : (s.uniqueClaims.map UniqueClaim.key).Nodup → (s'.uniqueClaims.map UniqueClaim.key).Nodup

theorem Shrinks.of_eq (claimed : s'.claimed = s.claimed) (ready : s'.ready = s.ready)
    (receipts : s'.receipts.Sublist s.receipts) (leases : s'.leases.Sublist s.leases)
    (nextSeq : s'.nextSeq = s.nextSeq) (unique : s'.uniqueClaims = s.uniqueClaims) : Shrinks s s' :=
  ⟨claimed, ready ▸ List.Sublist.refl _, receipts, leases, nextSeq, unique ▸ id⟩

theorem Shrinks.of_same (claimed : s'.claimed = s.claimed) (ready : s'.ready = s.ready)
    (receipts : s'.receipts = s.receipts) (leases : s'.leases = s.leases)
    (nextSeq : s'.nextSeq = s.nextSeq) (unique : s'.uniqueClaims = s.uniqueClaims) : Shrinks s s' :=
  .of_eq claimed ready (receipts ▸ List.Sublist.refl _) (leases ▸ List.Sublist.refl _)
    nextSeq unique

theorem Shrinks.refl (s : RowStore) : Shrinks s s := .of_same rfl rfl rfl rfl rfl rfl

theorem Shrinks.trans {t : RowStore} (first : Shrinks s t) (second : Shrinks t s') :
    Shrinks s s' where
  claimed := second.claimed.trans first.claimed
  ready := second.ready.trans first.ready
  receipts := second.receipts.trans first.receipts
  leases := second.leases.trans first.leases
  nextSeq := second.nextSeq.trans first.nextSeq
  unique := second.unique ∘ first.unique

theorem StoreOk.shrink (ok : StoreOk mode s) (less : Shrinks s s') : StoreOk mode s' where
  handed := less.claimed ▸ ok.handed
  attempts := less.claimed ▸ ok.attempts
  positions := less.claimed ▸ ok.positions
  numbered row mem := less.nextSeq ▸ ok.numbered row (less.ready.subset mem)
  claimedNumbered := by rw [less.claimed, less.nextSeq]; exact ok.claimedNumbered
  distinct := (less.ready.map _).nodup ok.distinct
  same := by
    rw [less.claimed]
    exact fun entry handed row mem => ok.same entry handed row (less.ready.subset mem)
  receipts c mem := less.claimed ▸ ok.receipts c (less.receipts.subset mem)
  receiptsOnce := (less.receipts.map _).nodup ok.receiptsOnce
  leases lease mem := less.claimed ▸ ok.leases lease (less.leases.subset mem)
  leasesOnce := (less.leases.map _).nodup ok.leasesOnce
  leaseKeys := (less.leases.map _).nodup ok.leaseKeys
  receiptMode off := sublist_nil.1 (ok.receiptMode off ▸ less.receipts)
  unique := less.unique ok.unique

theorem insertDoneEntry_eq_some {done : DoneJobRow} {keep : Bool} {source : Option ReadyEntry} :
    s.insertDoneEntry done keep source = some s' ↔
        (∀ d ∈ s.done, d.key.primaryKey ≠ done.key.primaryKey) ∧
        s' = { s with done := s.done ++ [done.entry keep source] } := by
  simp only [RowStore.insertDoneEntry, all_eq_true, decide_eq_true_eq, ite_none_right_eq_some,
    some_inj]
  exact and_congr_right fun _ => eq_comm

theorem insertDoneEntries_eq_some {rows : List (DoneJobRow × ReadyEntry)} :
    rows.foldlM (fun (s : RowStore) row => s.insertDoneEntry row.1 true (some row.2)) s = some s' ↔
      ((∀ row ∈ rows, ∀ d ∈ s.done, d.key.primaryKey ≠ row.1.key.primaryKey) ∧
        (rows.map fun row => row.1.key.primaryKey).Nodup) ∧
        s' = { s with done := s.done ++ rows.map fun row => row.1.entry true (some row.2) } := by
  induction rows generalizing s with
  | nil => simp [eq_comm]
  | cons row rows ih =>
    rw [foldlM_cons, bind_eq_bind, bind_eq_some_iff]
    constructor
    · rintro ⟨t, first, later⟩
      obtain ⟨free, rfl⟩ := insertDoneEntry_eq_some.1 first
      obtain ⟨⟨others, distinct⟩, rfl⟩ := ih.1 later
      refine ⟨⟨?_, ?_⟩, by simp [append_assoc]⟩
      · intro other mem d present
        rcases mem_cons.1 mem with rfl | mem
        · exact free d present
        · exact others other mem d (mem_append_left _ present)
      · refine nodup_cons.2 ⟨fun repeated => ?_, distinct⟩
        obtain ⟨other, mem, same⟩ := mem_map.1 repeated
        exact others other mem _ (mem_append_right _ (mem_singleton_self _)) same.symm
    · rintro ⟨⟨free, distinct⟩, rfl⟩
      obtain ⟨new, distinct⟩ := nodup_cons.1 distinct
      refine ⟨_, insertDoneEntry_eq_some.2 ⟨free row mem_cons_self, rfl⟩, ih.2 ⟨⟨?_, distinct⟩, ?_⟩⟩
      · intro other mem d present
        rcases mem_append.1 present with old | added
        · exact free other (mem_cons_of_mem _ mem) d old
        · rw [mem_singleton.1 added]
          exact fun same => new (mem_map.2 ⟨other, mem, same.symm⟩)
      · simp [append_assoc]

theorem syncUnique_eq_some {jobId : Nat} {columns : UniqueColumns} {old new : Option JobState} :
    s.syncUnique jobId columns old new = some s' ↔ ∃ uniqueClaims,
      syncUniqueClaim s.uniqueClaims jobId columns old new = some uniqueClaims ∧
        s' = { s with uniqueClaims } := by
  simp only [RowStore.syncUnique, map_eq_some_iff, eq_comm (a := s')]

theorem syncUnique_shrinks {jobId : Nat} {columns : UniqueColumns} {old new : Option JobState}
    (synced : s.syncUnique jobId columns old new = some s') : Shrinks s s' := by
  obtain ⟨uniqueClaims, stored, rfl⟩ := syncUnique_eq_some.1 synced
  exact ⟨rfl, List.Sublist.refl _, List.Sublist.refl _, List.Sublist.refl _, rfl,
    syncUniqueClaim_keys_nodup stored⟩

/-- An insert of done rows succeeds when their unique claims sync and their keys are distinct and
free. -/
theorem insertDoneRows_eq_some {rows : List (DoneJobRow × ReadyEntry)} :
      s.insertDoneRows rows = some s' ↔
      ∃ uniqueClaims, syncUniqueClaims s.uniqueClaims (some .running)
          (rows.map fun row => row.1.sync) =
          some uniqueClaims ∧
        ((∀ row ∈ rows, ∀ d ∈ s.done, d.key.primaryKey ≠ row.1.key.primaryKey) ∧
          (rows.map fun row => row.1.key.primaryKey).Nodup) ∧
        s' = { s with
          uniqueClaims, done := s.done ++ rows.map fun row => row.1.entry true (some row.2) } := by
  simp only [RowStore.insertDoneRows, bind_eq_some_iff, insertDoneEntries_eq_some]

def RowStore.runningOf (s : RowStore) (a : Attempt) : List AttemptColumns :=
  ((s.receipts.filter fun c => c.attempt = a).map fun c => c.toAttemptColumns) ++
    (s.leases.filter fun lease => lease.attempt = a).map fun lease => lease.toAttemptColumns

def RowStore.lookalikes (s : RowStore) (c : AttemptColumns) : List ReadyEntry :=
  s.ready.filter fun row => row.job.jobId = c.attempt.jobId && row.ref = c.ref && row.lane.queue =
    c.lane.queue && row.laneSeq = c.laneSeq

inductive Written where
  | done (d : DoneEntry)
  | completion (c : CompletionEntry)
  | dlq (e : DlqJobRow)

/-- The step keeps the ready rows and writes only terminal rows of one kind. -/
structure Settles (P : Written → Prop) (s s' : RowStore) : Prop where
  less : Shrinks s s'
  ready : s'.ready = s.ready
  done : ∀ d ∈ s'.done, d ∈ s.done ∨ P (.done d)
  completions : ∀ c ∈ s'.completions, c ∈ s.completions ∨ P (.completion c)
  dlq : ∀ e ∈ s'.dlq, e ∈ s.dlq ∨ P (.dlq e)

section
variable {P Q : Written → Prop} {w : Written}

theorem Settles.refl (s : RowStore) : Settles P s s :=
  ⟨Shrinks.refl s, rfl, fun _ => .inl, fun _ => .inl, fun _ => .inl⟩

theorem Settles.trans {t : RowStore} (first : Settles P s t) (second : Settles P t s') :
    Settles P s s' where
  less := first.less.trans second.less
  ready := second.ready.trans first.ready
  done d mem := (second.done d mem).elim (first.done d) .inr
  completions c mem := (second.completions c mem).elim (first.completions c) .inr
  dlq e mem := (second.dlq e mem).elim (first.dlq e) .inr

theorem Settles.mono (settles : Settles P s s') (kinds : ∀ w, P w → Q w) : Settles Q s s' where
  __ := settles
  done d mem := (settles.done d mem).imp_right (kinds _)
  completions c mem := (settles.completions c mem).imp_right (kinds _)
  dlq e mem := (settles.dlq e mem).imp_right (kinds _)

theorem Settles.remove {receipts : List Receipt} {leases : List LeaseEntry}
    (lessReceipts : receipts.Sublist s.receipts)
    (lessLeases : leases.Sublist s.leases) : Settles P s { s with receipts, leases } :=
  ⟨.of_eq rfl rfl lessReceipts lessLeases rfl rfl, rfl, fun _ => .inl, fun _ => .inl, fun _ => .inl⟩

theorem syncUnique_settles {jobId : Nat} {columns : UniqueColumns} {old new : Option JobState}
    (synced : s.syncUnique jobId columns old new = some s') : Settles P s s' := by
  have less := syncUnique_shrinks synced
  obtain ⟨uniqueClaims, -, rfl⟩ := syncUnique_eq_some.1 synced
  exact ⟨less, rfl, fun _ => .inl, fun _ => .inl, fun _ => .inl⟩

theorem insertDoneEntry_settles {done : DoneJobRow} {keep : Bool} {source : Option ReadyEntry}
    (inserted : s.insertDoneEntry done keep source = some s')
    (new : P (.done (done.entry keep source))) : Settles P s s' := by
  obtain ⟨-, rfl⟩ := insertDoneEntry_eq_some.1 inserted
  exact ⟨.of_same rfl rfl rfl rfl rfl rfl, rfl, forall_mem_concat (fun _ => .inl) (.inr new),
    fun _ => .inl, fun _ => .inl⟩

theorem insertDoneRow_settles {done : DoneJobRow} {old : JobState} {source : Option ReadyEntry}
    (inserted : s.insertDoneRow done old source = some s')
    (new : P (.done (done.entry old.keepReadyBacking source))) : Settles P s s' := by
  obtain ⟨t, synced, inserted⟩ := bind_eq_some_iff.1 inserted
  exact (syncUnique_settles synced).trans (insertDoneEntry_settles inserted new)

theorem insertDoneRows_settles {rows : List (DoneJobRow × ReadyEntry)}
    (inserted : s.insertDoneRows rows = some s')
    (new : ∀ row ∈ rows, P (.done (row.1.entry true (some row.2)))) : Settles P s s' := by
  obtain ⟨uniqueClaims, synced, -, rfl⟩ := insertDoneRows_eq_some.1 inserted
  refine ⟨⟨rfl, List.Sublist.refl _, List.Sublist.refl _, List.Sublist.refl _, rfl,
    (syncUniqueClaims_eq_some synced).1⟩,
    rfl, forall_mem_append.2 ⟨fun _ => .inl, fun d mem => .inr ?_⟩, fun _ => .inl, fun _ => .inl⟩
  obtain ⟨row, there, rfl⟩ := mem_map.1 mem
  exact new row there

theorem mem_runningOf_receipt (mem : c ∈ s.receipts) (same : c.attempt = a) :
    c.toAttemptColumns ∈ s.runningOf a :=
  mem_append_left _ (mem_map.2 ⟨c, mem_filter.2 ⟨mem, decide_eq_true same⟩, rfl⟩)

theorem mem_runningOf_lease (mem : lease ∈ s.leases) (same : lease.attempt = a) :
    lease.toAttemptColumns ∈ s.runningOf a :=
  mem_append_right _ (mem_map.2 ⟨lease, mem_filter.2 ⟨mem, decide_eq_true same⟩, rfl⟩)

theorem Shrinks.runningOf (less : Shrinks s s') (a : Attempt) : s'.runningOf a ⊆ s.runningOf a :=
  append_subset.2 ⟨fun _ mem => mem_append_left _ (((less.receipts.filter _).map _).subset mem),
    fun _ mem => mem_append_right _ (((less.leases.filter _).map _).subset mem)⟩

end

inductive CompletedRow (s : RowStore) (batch : List ClaimedRuntimeJob) (now : Nat) :
    Written → Prop where
  | done {x : ClaimedRuntimeJob} {columns : AttemptColumns} (member : x ∈ batch)
      (running : columns ∈ s.runningOf x.job.attempt) :
      CompletedRow s batch now (.done ((x.intoDoneRow now).entry true (some columns.source)))
  | compact {x : ClaimedRuntimeJob} {columns : AttemptColumns} (member : x ∈ batch)
      (running : columns ∈ s.runningOf x.job.attempt) :
        CompletedRow s batch now (.completion (x.completion now columns.source))

structure Finds (s : RowStore) (find : ClaimedRuntimeJob → Option Receipt) : Prop where
  found : ∀ {x c}, find x = some c → c ∈ s.receipts ∧ c.attempt = x.job.attempt ∧
    s.leased x.job.attempt = false
  complete : ∀ {x c}, c ∈ s.receipts → c.isOf x = true → s.evidence x.job.attempt = false →
    s.leased x.job.attempt = false → (find x).isSome = true

theorem Receipt.isOf_attempt (named : c.isOf x = true) : c.attempt = x.job.attempt := by
  simp only [Receipt.isOf, Bool.and_eq_true, decide_eq_true_eq] at named
  exact named.1.1.2

theorem finds_of_find {admits : Receipt → Bool} (admitted : ∀ c, s.evidence c.attempt = false →
    admits c = true) :
    Finds s fun x => s.receipts.find? fun c => c.isOf x && admits c && !s.leased c.attempt where
  found {x c} first := by
    have met := find?_some first
    simp only [Bool.and_eq_true, Bool.not_eq_true'] at met
    have same := Receipt.isOf_attempt met.1.1
    exact ⟨mem_of_find?_eq_some first, same, same ▸ met.2⟩
  complete {x c} mem named unproven unleased := by
    have same := Receipt.isOf_attempt named
    refine find?_isSome.2 ⟨c, mem, ?_⟩
    simp [named, admitted c (same ▸ unproven), same, unleased]

theorem finds_fastClaimRef : Finds s s.fastClaimRef :=
  finds_of_find fun c unproven => by simp [unproven]

theorem finds_slowClaimRef : Finds s s.slowClaimRef :=
  finds_of_find fun c unproven => by simp [unproven]

section
variable {batch rest : List ClaimedRuntimeJob} {now : Nat} {updated : List Attempt}

theorem mem_claimRefs {find : ClaimedRuntimeJob → Option Receipt}
    {ref : ClaimedRuntimeJob × Receipt} :
    ref ∈ claimRefs find batch ↔ ref.1 ∈ batch ∧ find ref.1 = some ref.2 := by
  simp only [claimRefs, mem_filterMap, map_eq_some_iff]
  constructor
  · rintro ⟨x, mem, c, found, rfl⟩
    exact ⟨mem, found⟩
  · rintro ⟨mem, found⟩
    exact ⟨ref.1, mem, ref.2, found, rfl⟩

theorem mem_knownLeases {deleted : List LeaseEntry} {job : ClaimedRuntimeJob × LeaseEntry}
    (known : job ∈ knownLeases batch deleted) :
    job.1 ∈ batch ∧ job.2 ∈ deleted ∧ job.1.job.attempt = job.2.attempt := by
  simp only [knownLeases, mem_filterMap, map_eq_some_iff] at known
  obtain ⟨lease, mem, x, last, rfl⟩ := known
  have found := mem_filter.1 (mem_of_getLast? last)
  exact ⟨found.1, mem, of_decide_eq_true found.2⟩

theorem CompletedRow.mono {t : RowStore} {w : Written} (row : CompletedRow t rest now w)
    (less : Shrinks s t) (among : rest ⊆ batch) : CompletedRow s batch now w := by
  cases row with
  | done mem running => exact .done (among mem) (less.runningOf _ running)
  | compact mem running => exact .compact (among mem) (less.runningOf _ running)

theorem completeReceiptRuntimeBatchFast_settles (batch : List ClaimedRuntimeJob) (now : Nat) :
    Settles (CompletedRow s batch now) s (completeReceiptRuntimeBatchFast s batch now).1 := by
  refine ⟨.of_eq rfl rfl filter_sublist (List.Sublist.refl _) rfl rfl, rfl, fun _ => .inl,
    forall_mem_append.2 ⟨fun _ => .inl, fun compact mem => .inr ?_⟩, fun _ => .inl⟩
  obtain ⟨ref, there, rfl⟩ := mem_map.1 mem
  obtain ⟨among, open_⟩ := mem_claimRefs.1 there
  obtain ⟨present, attempt, -⟩ := finds_fastClaimRef.found open_
  exact .compact among (mem_runningOf_receipt present attempt)

theorem completeLeases_settles {found : LeaseEntry → ClaimedRuntimeJob → Bool}
    (completed : completeLeases s found rest batch now = some (s', updated)) :
    Settles (CompletedRow s batch now) s s' := by
  obtain ⟨t, inserted, same⟩ := map_eq_some_iff.1 completed
  obtain ⟨rfl, -⟩ := Prod.mk.inj same
  refine (Settles.remove filter_sublist filter_sublist).trans
    (insertDoneRows_settles inserted fun row mem => ?_)
  obtain ⟨job, there, rfl⟩ := mem_map.1 mem
  obtain ⟨known, deleted, attempt⟩ := mem_knownLeases there
  exact .done known (mem_runningOf_lease (mem_filter.1 deleted).1 attempt.symm)

theorem completeRuntimeBatchSlow_settles
    (completed : completeRuntimeBatchSlow mode s batch now = some (s', updated)) :
    Settles (CompletedRow s batch now) s s' := by
  rw [completeRuntimeBatchSlow] at completed
  split at completed
  · obtain ⟨t, inserted, completed⟩ := bind_eq_some_iff.1 completed
    obtain ⟨result, deleted, same⟩ := map_eq_some_iff.1 completed
    obtain ⟨rfl, -⟩ := Prod.mk.inj same
    have stored : Settles (CompletedRow s batch now) s t := by
      refine (Settles.remove filter_sublist (List.Sublist.refl _)).trans
        (insertDoneRows_settles inserted fun row mem => ?_)
      obtain ⟨ref, there, rfl⟩ := mem_map.1 mem
      obtain ⟨among, open_⟩ := mem_claimRefs.1 there
      obtain ⟨present, attempt, -⟩ := finds_slowClaimRef.found open_
      exact .done (mem_filter.1 among).1 (mem_runningOf_receipt present attempt)
    exact stored.trans ((completeLeases_settles deleted).mono fun _ row =>
      row.mono stored.less fun _ => id)
  · exact completeLeases_settles completed

theorem completeRuntimeBatch_settles (batch : List ClaimedRuntimeJob) (now : Nat) :
    Settles (CompletedRow s batch now) s (completeRuntimeBatch mode s batch now).1 := by
  have fast := completeReceiptRuntimeBatchFast_settles (s := s) batch now
  unfold completeRuntimeBatch
  split
  · dsimp only
    split
    · exact fast
    · split
      · exact fast
      · exact fast.trans ((completeRuntimeBatchSlow_settles ‹_›).mono fun _ row =>
          row.mono fast.less filter_sublist.subset)
  · dsimp only
    split
    · exact Settles.refl s
    · exact completeRuntimeBatchSlow_settles ‹_›

end

inductive HydratedRow (s : RowStore) (columns : AttemptColumns) (now : Nat) : Disposition →
    Written → Prop where
  | terminal {moved : LeaseTransitionRow} {state : TerminalState} (found : s.hydrate columns =
      some moved) : HydratedRow s columns now (.terminal state)
        (.done ((moved.intoDoneRow state now).entry true (some columns.source)))
  | dlq {moved : LeaseTransitionRow} (found : s.hydrate columns = some moved) :
      HydratedRow s columns now .dlq (.dlq moved.intoDlqRow)

theorem hydrate_columns {c : AttemptColumns} {moved : LeaseTransitionRow}
    (found : s.hydrate c = some moved) :
    moved.columns = c ∧ moved.ready ∈ s.ready ∧ moved.ready.lane.queue = c.lane.queue := by
  obtain ⟨ready, last, rfl⟩ := map_eq_some_iff.1 found
  obtain ⟨mem, matched⟩ := mem_filter.1 (mem_of_getLast? last)
  simp only [Bool.and_eq_true, decide_eq_true_eq] at matched
  exact ⟨rfl, mem, matched.1.1.1.2⟩

theorem completeClaimedBatch_settles (claims : List ClaimedEntry) (now : Nat) :
    Settles (fun w => ∃ lease ∈ s.leases, claims.any lease.enteredAs = true ∧
      HydratedRow s lease.toAttemptColumns now (.terminal .completed) w) s
        (completeClaimedBatch s claims now).1 := by
  unfold completeClaimedBatch
  dsimp only
  split
  · exact Settles.refl s
  · next after completed =>
    obtain ⟨moved, hydrated, inserted⟩ := bind_eq_some_iff.1 completed
    refine (Settles.remove filter_sublist filter_sublist).trans
      (insertDoneRows_settles inserted fun row mem => ?_)
    obtain ⟨transition, there, rfl⟩ := mem_map.1 mem
    have found : some transition ∈ moved.map some := mem_map_of_mem there
    rw [← mapM_eq_some.1 hydrated] at found
    obtain ⟨lease, deleted, found⟩ := mem_map.1 found
    obtain ⟨stored, entered⟩ := mem_filter.1 deleted
    refine ⟨lease, stored, entered, ?_⟩
    rw [(hydrate_columns found).1]
    exact .terminal found

theorem takeRunningAttempt_eq (taken : takeRunningAttempt mode s a = some (columns, s')) :
    columns ∈ s.runningOf a ∧ ∃ receipts leases, receipts.Sublist s.receipts ∧
      leases.Sublist s.leases ∧ s' = { s with receipts, leases } := by
  rw [takeRunningAttempt] at taken
  split at taken
  · next c first =>
    obtain ⟨rfl, rfl⟩ := Prod.mk.inj (Option.some.inj taken)
    have met := find?_some first
    simp only [Bool.and_eq_true, decide_eq_true_eq] at met
    exact ⟨mem_runningOf_receipt (mem_of_find?_eq_some first) met.1.1.2, _, _, filter_sublist,
      List.Sublist.refl _, rfl⟩
  · obtain ⟨lease, first, same⟩ := map_eq_some_iff.1 taken
    obtain ⟨rfl, rfl⟩ := Prod.mk.inj same
    exact ⟨mem_runningOf_lease (mem_of_find?_eq_some first) (by simpa using find?_some first), _, _,
      filter_sublist, filter_sublist, rfl⟩

theorem settleAttempt_settles {waiting : Bool} {disposition : Disposition}
    (settled : settleAttempt mode s a waiting disposition now = some s') :
    Settles (fun w => ∃ columns ∈ s.runningOf a, HydratedRow s columns now disposition w) s s' := by
  simp only [settleAttempt, bind_eq_bind, bind_eq_some_iff] at settled
  obtain ⟨⟨columns, t⟩, taken, moved, found, synced, unique, settled⟩ := settled
  obtain ⟨running, receipts, leases, lessReceipts, lessLeases, rfl⟩ := takeRunningAttempt_eq taken
  refine (Settles.remove lessReceipts lessLeases).trans ((syncUnique_settles unique).trans ?_)
  cases disposition with
  | terminal state => exact insertDoneEntry_settles settled ⟨columns, running, .terminal found⟩
  | dlq =>
    cases settled
    exact ⟨.of_same rfl rfl rfl rfl rfl rfl, rfl, fun _ => .inl, fun _ => .inl,
      forall_mem_concat (fun _ => .inl) (.inr ⟨columns, running, .dlq found⟩)⟩
  | deferred | ready =>
    cases settled
    exact ⟨.of_same rfl rfl rfl rfl rfl rfl, rfl, fun _ => .inl, fun _ => .inl, fun _ => .inl⟩

theorem cancelReceipt_settles (cancelled : cancelReceipt s a now = some s') :
    Settles (fun w => ∃ c ∈ s.receipts, c.attempt = a ∧ ∃ ready ∈ s.lookalikes c.toAttemptColumns,
      w = .done ((c.cancelledRow ready now).entry true (some c.source))) s s' := by
  simp only [cancelReceipt, bind_eq_bind, bind_eq_some_iff] at cancelled
  obtain ⟨c, first, ready, second, done, inserted, cancelled⟩ := cancelled
  cases cancelled
  have met := find?_some first
  have matched := find?_some second
  simp only [Bool.and_eq_true, decide_eq_true_eq] at met matched
  have alike : ready ∈ s.lookalikes c.toAttemptColumns :=
    mem_filter.2 ⟨mem_of_find?_eq_some second, by simp [matched, met.1.1]⟩
  refine (insertDoneRow_settles inserted ?_).trans (.remove filter_sublist (List.Sublist.refl _))
  exact ⟨c, mem_of_find?_eq_some first, met.1.1, ready, alike, rfl⟩

theorem cancelReady_settles (cancelled : s.cancelReady row now = some s') :
    Settles (fun w => row ∈ s.ready ∧ w = .done ((row.cancelledRow now).entry false none)) s
      s' := by
  obtain ⟨⟨mem, -⟩, inserted⟩ := ite_none_right_eq_some.1 cancelled
  refine Settles.trans ?_ (insertDoneRow_settles inserted ⟨mem, rfl⟩)
  exact ⟨.of_same rfl rfl rfl rfl rfl rfl, rfl, fun _ => .inl, fun _ => .inl, fun _ => .inl⟩

theorem prune_shrinks {slot generation : Nat} {current : RingRef} {kept : DoneEntry → Bool}
    (pruned : s.prune slot generation current kept = some s') : Shrinks s s' := by
  obtain ⟨-, rfl⟩ := guard_eq_some pruned
  exact ⟨rfl, filter_sublist, List.Sublist.refl _, List.Sublist.refl _, rfl, id⟩

theorem StoreOk.enqueue (ok : StoreOk mode s) (lane : Lane) (ref : RingRef) (runAt : Nat)
    (job : JobColumns) : StoreOk mode (s.enqueue lane ref runAt job) := by
  have later : ∀ other, s.nextSeq other ≤ (s.enqueue lane ref runAt job).nextSeq other := by
    intro other
    simp only [RowStore.enqueue, Function.update_apply]
    split
    · next same => rw [same]; exact Nat.le_succ _
    · exact Nat.le_refl _
  have current : (s.enqueue lane ref runAt job).nextSeq lane = s.nextSeq lane + 1 :=
    Function.update_self ..
  refine { ok with numbered := ?_, claimedNumbered := ?_, distinct := ?_, same := ?_ }
  · exact forall_mem_concat (fun row old => Nat.lt_of_lt_of_le (ok.numbered row old) (later _))
      (current ▸ Nat.lt_succ_self _)
  · exact fun entry mem => Nat.lt_of_lt_of_le (ok.claimedNumbered entry mem) (later _)
  · have fresh : ∀ row ∈ s.ready, row.position ≠ (lane, s.nextSeq lane) := by
      rintro row mem same
      obtain ⟨lanes, numbers⟩ := Prod.mk.inj same
      exact absurd (ok.numbered row mem) (by rw [lanes, numbers]; exact Nat.lt_irrefl _)
    exact nodup_map_concat ok.distinct fresh
  · refine fun entry handed => forall_mem_concat (ok.same entry handed) fun same => ?_
    obtain ⟨lanes, numbers⟩ := Prod.mk.inj same
    exact absurd (ok.claimedNumbered entry handed)
      (by rw [← lanes, ← numbers]; exact Nat.lt_irrefl _)

theorem StoreOk.insertLease (ok : StoreOk mode s) (handed : entry ∈ s.claimed)
    (same : columns = entry.1.columns entry.2.job.priority)
    (slot : mode = false → s.leaseSlot = entry.2.claim.leaseSlot)
    (absent : ∀ lease ∈ s.leases, lease.attempt ≠ columns.attempt)
    (inserted : s.insertLease columns = some s') : StoreOk mode s' := by
  simp only [RowStore.insertLease, all_eq_true, decide_eq_true_eq, ite_none_right_eq_some,
    some_inj] at inserted
  obtain ⟨free, rfl⟩ := inserted
  exact { ok with
    leases := forall_mem_concat ok.leases ⟨entry, handed, same, slot⟩
    leasesOnce := nodup_map_concat ok.leasesOnce absent
    leaseKeys := nodup_map_concat ok.leaseKeys free }

theorem handedOut_claimedJob (mode : Bool) (s : RowStore) (row : ReadyEntry)
    (priority claimSlot : Nat) (batch : Option (Nat × Nat)) :
    HandedOut mode row (claimedJob mode s row priority claimSlot batch) where
  lane := rfl
  laneSeq := rfl
  ref := rfl
  receipt := rfl
  receiptId := by cases mode <;> rfl
  job := rfl
  states := rfl

theorem StoreOk.log (ok : StoreOk mode s) (handed : HandedOut mode row x) (mem : row ∈ s.ready)
    (unclaimed : ∀ old ∈ s.claimed, old.1.key ≠ row.key ∧ old.2.job.attempt ≠ row.nextAttempt) :
    StoreOk mode { s with claimed := s.claimed ++ [(row, x)] } := by
  have kept : ∀ {entry}, entry ∈ s.claimed → entry ∈ s.claimed ++ [(row, x)] := mem_append_left _
  refine { ok with
    handed := forall_mem_concat ok.handed handed, attempts := ?_, positions := ?_
    claimedNumbered := forall_mem_concat ok.claimedNumbered (ok.numbered row mem)
    same := forall_mem_concat ok.same fun other there same =>
      inj_on_of_nodup_map ok.distinct there mem same
    receipts := fun c present => ?_, leases := fun lease present => ?_ }
  · exact nodup_map_concat ok.attempts fun old logged same =>
      (unclaimed old logged).2 (same.trans handed.attempt)
  · refine nodup_map_concat ok.positions fun old logged same => ?_
    -- the row of an old claim at the same position is this row
    have equal := ok.same old logged row mem same.symm
    exact (unclaimed old logged).1 (congrArg ReadyRow.key equal.symm)
  · obtain ⟨entry, logged, facts⟩ := ok.receipts c present
    exact ⟨entry, kept logged, facts⟩
  · obtain ⟨entry, logged, facts⟩ := ok.leases lease present
    exact ⟨entry, kept logged, facts⟩

theorem StoreOk.receipt_logged (ok : StoreOk mode s) (mem : c ∈ s.receipts) :
    ∃ entry ∈ s.claimed, entry.2.job.attempt = c.attempt := by
  obtain ⟨entry, logged, columns, -⟩ := ok.receipts c mem
  refine ⟨entry, logged, (ok.handed entry logged).attempt.trans ?_⟩
  exact (congrArg AttemptColumns.attempt columns).symm

theorem StoreOk.lease_logged (ok : StoreOk mode s) (mem : lease ∈ s.leases) :
    ∃ entry ∈ s.claimed, entry.2.job.attempt = lease.attempt := by
  obtain ⟨entry, logged, columns, -⟩ := ok.leases lease mem
  refine ⟨entry, logged, (ok.handed entry logged).attempt.trans ?_⟩
  exact (congrArg AttemptColumns.attempt columns).symm

theorem StoreOk.insertReceipt (ok : StoreOk true s) (logged : entry ∈ s.claimed)
    (columns : c.toAttemptColumns = entry.1.columns entry.2.job.priority)
    (named : c.isOf entry.2 = true)
    (absent : ∀ old ∈ s.receipts, old.attempt ≠ c.attempt) (next : Nat) :
    StoreOk true { s with receipts := s.receipts ++ [c], nextReceipt := next } := by
  exact { ok with
    receipts := forall_mem_concat ok.receipts ⟨entry, logged, columns, named⟩
    receiptsOnce := nodup_map_concat ok.receiptsOnce absent
    receiptMode := nofun }

theorem StoreOk.claim (ok : StoreOk mode s) {priority claimSlot : Nat} {batch : Option (Nat × Nat)}
    (claimed : s.claim mode row priority claimSlot batch = some s') : StoreOk mode s' := by
  simp only [RowStore.claim, all_eq_true, decide_eq_true_eq, ite_none_right_eq_some] at claimed
  obtain ⟨⟨mem, -, -, -, unclaimed⟩, claimed⟩ := claimed
  have logged := ok.log (handedOut_claimedJob mode s row priority claimSlot batch) mem unclaimed
  have present := mem_append_right s.claimed
    (mem_singleton_self (row, claimedJob mode s row priority claimSlot batch))
  cases mode with
  | true =>
    simp only [if_true, some_inj] at claimed
    subst claimed
    refine logged.insertReceipt present rfl ?_ ?_ _
    · simp [Receipt.isOf, claimedJob, ReadyRow.columns, ReadyRow.jobRow]
    · intro old there same
      obtain ⟨entry, handed, attempts⟩ := ok.receipt_logged there
      exact (unclaimed entry handed).2 (attempts.trans same)
  | false =>
    simp only [Bool.false_eq_true, if_false] at claimed
    refine logged.insertLease present rfl (fun _ => rfl) ?_ claimed
    intro lease there same
    obtain ⟨entry, handed, attempts⟩ := ok.lease_logged there
    exact (unclaimed entry handed).2 (attempts.trans same)

theorem not_leased_iff : s.leased a = false ↔ ∀ lease ∈ s.leases, lease.attempt ≠ a := by
  simp [RowStore.leased, any_eq_false]

theorem StoreOk.materialize (ok : StoreOk true s) (done : s.materialize a = some s') :
    StoreOk true s' := by
  rw [RowStore.materialize] at done
  split at done
  · rename_i c found
    obtain ⟨entry, logged, columns, -⟩ := ok.receipts c (mem_of_find?_eq_some found)
    have admitted := find?_some found
    simp only [Bool.and_eq_true, decide_eq_true_eq, Bool.not_eq_true'] at admitted
    obtain ⟨⟨same, -⟩, unleased⟩ := admitted
    refine ok.insertLease logged columns nofun ?_ done
    rw [same]
    exact not_leased_iff.1 unleased
  · simp at done

theorem StoreOk.step {op : RowOp} (ok : StoreOk mode s) (step : rowStep mode op s = some s') :
    StoreOk mode s' := by
  cases op with
  | enqueue lane ref runAt job =>
    cases step
    exact ok.enqueue lane ref runAt job
  | claim row priority claimSlot batch => exact ok.claim step
  | materialize a =>
    obtain ⟨rfl, step⟩ := ite_none_right_eq_some.1 step
    exact ok.materialize step
  | completeRuntimeBatch batch now =>
    obtain ⟨-, step⟩ := ite_none_right_eq_some.1 step
    exact Option.some.inj step ▸ ok.shrink (completeRuntimeBatch_settles batch now).less
  | completeClaimedBatch batch now =>
    obtain ⟨-, step⟩ := ite_none_right_eq_some.1 step
    exact Option.some.inj step ▸ ok.shrink (completeClaimedBatch_settles batch now).less
  | settle a waiting disposition now => exact ok.shrink (settleAttempt_settles step).less
  | cancelReceipt a now =>
    obtain ⟨-, step⟩ := ite_none_right_eq_some.1 step
    exact ok.shrink (cancelReceipt_settles step).less
  | cancelReady row now => exact ok.shrink (cancelReady_settles step).less
  | retryDone d shard ref runAt payload =>
    obtain ⟨-, step⟩ := ite_none_right_eq_some.1 step
    rw [← Option.some.inj step]
    apply StoreOk.enqueue
    exact { ok with }
  | moveFailedToDlq d =>
    obtain ⟨-, step⟩ := ite_none_right_eq_some.1 step
    exact Option.some.inj step ▸ { ok with }
  | retryFromDlq row lane ref runAt payload =>
    obtain ⟨-, step⟩ := ite_none_right_eq_some.1 step
    rw [← Option.some.inj step]
    apply StoreOk.enqueue
    exact { ok with }
  | cancelDeferred a ref queue priority old unique =>
    obtain ⟨t, synced, step⟩ := bind_eq_some_iff.1 step
    obtain ⟨-, step⟩ := ite_none_right_eq_some.1 step
    have ok := ok.shrink (syncUnique_shrinks synced)
    exact Option.some.inj step ▸ { ok with }
  | removeDeferred a | removeSynthetic row | discardDone d | rotateLeases slot =>
    exact Option.some.inj step ▸ { ok with }
  | prune slot generation current kept => exact ok.shrink (prune_shrinks step)
  | syncUnique jobId columns old new => exact ok.shrink (syncUnique_shrinks step)

theorem storeOk_reachable (reached : (rowMachine mode).Reachable Machine.Always s) :
    StoreOk mode s :=
  reached.invariant (fun _ first => first ▸ StoreOk.initial) fun _ _ _ _ ok _ step => ok.step step

end AwaQueue
