import AwaQueue.Terminal.Invariant

/-! When a completion settles the attempt it is given. A lease carries the effective priority of its
claim; `complete_runtime_batch` and `complete_claimed_batch` look for it under the lane priority of
the claimed entry. -/

namespace AwaQueue

open List
open Bool (and_eq_true and_eq_true_iff)
open Library
variable {s s' : RowStore} {mode : Bool} {a : Attempt} {x : ClaimedRuntimeJob} {c : Receipt}
  {lease : LeaseEntry}
  {row : ReadyEntry} {batch rest : List ClaimedRuntimeJob} {now : Nat} {updated : List Attempt}
  {y : ClaimedRuntimeJob} {deleted : List LeaseEntry}

def RowStore.handedOut (s : RowStore) : List ClaimedRuntimeJob := s.claimed.map Prod.snd

/-- The receipt of the attempt is open (no closure, no terminal evidence), or it has a lease. -/
def RowStore.LiveAttempt (s : RowStore) (x : ClaimedRuntimeJob) : Prop :=
  s.leased x.job.attempt = true ∨ ∃ c ∈ s.receipts, c.attempt = x.job.attempt ∧
    s.evidence x.job.attempt = false

structure RowStore.CompletedAttempt (s : RowStore) (x : ClaimedRuntimeJob) : Prop where
  row : (∃ d ∈ s.done, d.attempt = x.job.attempt ∧ d.state = .completed) ∨
    ∃ c ∈ s.completions, c.attempt = x.job.attempt
  unleased : ∀ lease ∈ s.leases, lease.attempt ≠ x.job.attempt
  closed : ∀ c ∈ s.receipts, c.attempt ≠ x.job.attempt

def Completes (result : RowStore × Option (List Attempt)) (x : ClaimedRuntimeJob) : Prop :=
  (∃ updated, result.2 = some updated ∧ x.job.attempt ∈ updated) ∧ result.1.CompletedAttempt x

def ClaimedRuntimeJob.key (x : ClaimedRuntimeJob) : ReadyTombstone :=
  ⟨x.claim.lane, x.claim.laneSeq, x.claim.ref⟩

def ClaimedRuntimeJob.Unaged (x : ClaimedRuntimeJob) : Prop :=
  x.job.priority = x.claim.lane.priority

def RowStore.KeyFree (s : RowStore) (x : ClaimedRuntimeJob) : Prop :=
  ∀ d ∈ s.done, d.key.primaryKey ≠ x.key.primaryKey

def ClaimedRuntimeJob.sync (x : ClaimedRuntimeJob) : UniqueSync :=
  ⟨x.job.attempt.jobId, ⟨x.job.uniqueKey, x.uniqueStates⟩, .completed⟩

def RowStore.Unclashed (s : RowStore) (row : UniqueSync) : Prop :=
  ¬ row.Clashes s.uniqueClaims (some .running)

structure RowStore.Insertable (s : RowStore) (x : ClaimedRuntimeJob) : Prop where
  free : s.KeyFree x
  unclashed : s.Unclashed x.sync

def Untangled (sync : ClaimedRuntimeJob → UniqueSync) (batch : List ClaimedRuntimeJob) : Prop :=
  ∀ x ∈ batch, ∀ y ∈ batch, x ≠ y → (sync x).Apart (some .running) (sync y)

def RowStore.backing (s : RowStore) (x : ClaimedRuntimeJob) : Option ReadyEntry :=
  (s.ready.filter fun row => row.ref = x.claim.ref && row.lane.queue = x.claim.lane.queue &&
    row.lane.enqueueShard = x.claim.lane.enqueueShard && row.laneSeq = x.claim.laneSeq &&
    row.job.jobId = x.job.attempt.jobId).getLast?

def RowStore.entrySync (s : RowStore) (x : ClaimedRuntimeJob) : UniqueSync :=
  ⟨x.job.attempt.jobId, ((s.backing x).map ReadyRow.unique).getD ⟨none, none⟩, .completed⟩

theorem StoreOk.entry_of (ok : StoreOk mode s) (handed : x ∈ s.handedOut) :
    ∃ row, (row, x) ∈ s.claimed ∧ HandedOut mode row x := by
  obtain ⟨⟨row, _⟩, logged, rfl⟩ := mem_map.1 handed
  exact ⟨row, logged, ok.handed _ logged⟩

section
variable (ok : StoreOk mode s)
  (handed : x ∈ s.handedOut)
  (mem : lease ∈ s.leases)
  (same : lease.attempt = x.job.attempt)
include ok handed mem same

/-- The lease of an unaged claim has the lane of the claimed entry, that of an aged one has not. -/
theorem StoreOk.lease_lane
    : lease.lane = x.claim.lane ↔ x.Unaged := by
  obtain ⟨row, logged, facts⟩ := ok.entry_of handed
  have lanes : lease.lane = { row.lane with priority := x.job.priority } :=
    congrArg AttemptColumns.lane (ok.lease_of mem logged same).1
  rw [lanes, ClaimedRuntimeJob.Unaged, facts.lane]
  cases row.lane
  simp

theorem StoreOk.lease_place
    : lease.laneSeq = x.claim.laneSeq ∧ lease.ref = x.claim.ref := by
  obtain ⟨row, logged, facts⟩ := ok.entry_of handed
  have columns := (ok.lease_of mem logged same).1
  exact ⟨(congrArg AttemptColumns.laneSeq columns).trans facts.laneSeq.symm,
    (congrArg AttemptColumns.ref columns).trans facts.ref.symm⟩

end

theorem intoDoneRow_key (facts : HandedOut mode row x) (now : Nat) :
    (x.intoDoneRow now).key = x.key := by
  have queue : x.job.queue = x.claim.lane.queue := by
    rw [facts.job, facts.lane]
    rfl
  simp only [DoneJobRow.key, ClaimedRuntimeJob.intoDoneRow, ClaimedRuntimeJob.key, queue]

theorem StoreOk.primaryKey_inj (ok : StoreOk mode s) (left : x ∈ s.handedOut)
    (right : y ∈ s.handedOut) (same : x.key.primaryKey = y.key.primaryKey) : x = y := by
  obtain ⟨row, logged, facts⟩ := ok.entry_of left
  obtain ⟨other, logged', facts'⟩ := ok.entry_of right
  simp only [ReadyTombstone.primaryKey, ClaimedRuntimeJob.key, Prod.mk.injEq,
    facts.lane, facts'.lane, facts.laneSeq, facts'.laneSeq] at same
  have positions : row.position = other.position := Prod.ext same.2.1 same.2.2
  exact congrArg Prod.snd (inj_on_of_nodup_map ok.positions logged logged' positions)

theorem StoreOk.attempt_inj (ok : StoreOk mode s) (left : x ∈ s.handedOut)
    (right : y ∈ s.handedOut) (same : x.job.attempt = y.job.attempt) : x = y := by
  obtain ⟨row, logged, -⟩ := ok.entry_of left
  obtain ⟨other, logged', -⟩ := ok.entry_of right
  exact congrArg Prod.snd (ok.entry_eq logged logged' same)

theorem StoreOk.insertDoneRows (ok : StoreOk mode s) (jobs : List (ClaimedRuntimeJob × ReadyEntry))
    (now : Nat) (handed : ∀ job ∈ jobs, job.1 ∈ s.handedOut)
    (distinct : (jobs.map fun job => job.1.job.attempt).Nodup) (t s' : RowStore) :
      t.insertDoneRows (jobs.map fun job => (job.1.intoDoneRow now, job.2)) = some s' ↔
          ∃ uniqueClaims, syncUniqueClaims t.uniqueClaims (some .running)
          (jobs.map fun job => job.1.sync) =
          some uniqueClaims ∧ (∀ job ∈ jobs, t.KeyFree job.1) ∧ s' = { t with
            uniqueClaims, done := t.done ++ jobs.map fun job => (job.1.intoDoneRow now).entry true
              (some job.2) } := by
  have keys : ∀ job ∈ jobs, (job.1.intoDoneRow now).key = job.1.key := by
    intro job mem
    obtain ⟨_, -, facts⟩ := ok.entry_of (handed job mem)
    exact intoDoneRow_key facts now
  have nodup : (jobs.map fun job => (job.1.intoDoneRow now).key.primaryKey).Nodup := by
    refine List.Nodup.map_on (fun job mem other mem' same => ?_) (List.Nodup.of_map _ distinct)
    rw [keys job mem, keys other mem'] at same
    have equal := ok.primaryKey_inj (handed job mem) (handed other mem') same
    exact inj_on_of_nodup_map distinct mem mem' (congrArg (fun x => x.job.attempt) equal)
  simp only [insertDoneRows_eq_some, map_map]
  refine exists_congr fun uniqueClaims => and_congr_right fun _ => and_congr_left fun _ => ?_
  constructor
  · rintro ⟨free, -⟩ job mem d present
    rw [← keys job mem]
    exact free _ (mem_map_of_mem mem) d present
  · intro free
    refine ⟨fun row mem d present => ?_, nodup⟩
    obtain ⟨job, there, rfl⟩ := mem_map.1 mem
    rw [keys job there]
    exact free job there d present

/-- Unclashed jobs that enter no key twice sync their claims. -/
theorem StoreOk.syncs (ok : StoreOk mode s) {sync : ClaimedRuntimeJob → UniqueSync}
    {jobs : List ClaimedRuntimeJob}
    (free : ∀ x ∈ jobs, s.Unclashed (sync x)) (apart : Untangled sync jobs)
    (distinct : (jobs.map fun x => x.job.attempt).Nodup) :
    ∃ uniqueClaims, syncUniqueClaims s.uniqueClaims (some .running) (jobs.map sync) =
      some uniqueClaims := by
  refine Option.isSome_iff_exists.1 (syncUniqueClaims_isSome ok.unique ?_ ?_)
  · rw [forall_mem_map]
    exact free
  · rw [pairwise_map]
    exact (List.Nodup.of_map _ distinct).pairwise_of_forall_ne apart

section Receipts
variable {find : ClaimedRuntimeJob → Option Receipt}

theorem claimRefs_sublist (find : ClaimedRuntimeJob → Option Receipt)
    (batch : List ClaimedRuntimeJob) : ((claimRefs find batch).map Prod.fst).Sublist batch := by
  induction batch with
  | nil => exact List.Sublist.refl _
  | cons x batch ih =>
    rw [claimRefs, filterMap_cons]
    cases find x with
    | none => exact ih.cons x
    | some c => exact ih.cons_cons x

theorem claimRefs_nodup (distinct : (batch.map fun x => x.job.attempt).Nodup) :
    ((claimRefs find batch).map fun ref => ref.1.job.attempt).Nodup := by
  have shorter := (claimRefs_sublist find batch).map fun x => x.job.attempt
  rw [map_map] at shorter
  exact shorter.nodup distinct

theorem Finds.reported_iff (finds : Finds s find) (ok : StoreOk mode s) (handed : x ∈ s.handedOut)
    (mem : x ∈ batch) (live : s.LiveAttempt x) :
    x.job.attempt ∈ (claimRefs find batch).map (fun ref => ref.1.job.attempt) ↔
      s.leased x.job.attempt = false := by
  constructor
  · intro reported
    obtain ⟨ref, found, same⟩ := mem_map.1 reported
    exact same ▸ (finds.found (mem_claimRefs.1 found).2).2.2
  · intro unleased
    obtain ⟨row, logged, -⟩ := ok.entry_of handed
    obtain leased | ⟨c, present, same, unproven⟩ := live
    · rw [unleased] at leased
      exact absurd leased Bool.false_ne_true
    · have found := finds.complete present (ok.receipt_of present logged same).2 unproven unleased
      obtain ⟨c, found⟩ := Option.isSome_iff_exists.1 found
      exact mem_map.2 ⟨(x, c), mem_claimRefs.2 ⟨mem, found⟩, rfl⟩

theorem Finds.closed (finds : Finds s find) (ok : StoreOk mode s)
    (reported : x.job.attempt ∈ (claimRefs find batch).map fun ref => ref.1.job.attempt) :
    ∀ c ∈ (s.closeReceipts ((claimRefs find batch).map fun ref => ref.2.receiptId)).receipts,
      c.attempt ≠ x.job.attempt := by
  intro c kept same
  obtain ⟨ref, found, attempt⟩ := mem_map.1 reported
  obtain ⟨present, own, -⟩ := finds.found (mem_claimRefs.1 found).2
  obtain ⟨mem, unnamed⟩ := mem_filter.1 kept
  have equal : c = ref.2 := inj_on_of_nodup_map ok.receiptsOnce mem present
    (same.trans (attempt.symm.trans own.symm))
  simp only [decide_eq_true_eq] at unnamed
  exact unnamed (mem_map.2 ⟨ref, found, congrArg Receipt.receiptId equal.symm⟩)

end Receipts

theorem knownLeases_total (mem : lease ∈ deleted) (known : x ∈ batch)
    (same : x.job.attempt = lease.attempt) :
    ∃ job ∈ knownLeases batch deleted, job.1.job.attempt = x.job.attempt := by
  have found : x ∈ batch.filter fun x => x.job.attempt = lease.attempt :=
    mem_filter.2 ⟨known, decide_eq_true same⟩
  obtain ⟨y, last⟩ : ∃ y, (batch.filter fun x => x.job.attempt = lease.attempt).getLast? = some y :=
    ⟨_, getLast?_eq_some_getLast (ne_nil_of_mem found)⟩
  have own := of_decide_eq_true (mem_filter.1 (mem_of_getLast? last)).2
  exact ⟨(y, lease), mem_filterMap.2 ⟨lease, mem, Option.map_eq_some_iff.2 ⟨y, last, rfl⟩⟩,
    own.trans same.symm⟩

theorem knownLeases_nodup (batch : List ClaimedRuntimeJob)
    (once : (deleted.map fun lease : LeaseEntry => lease.attempt).Nodup) :
    ((knownLeases batch deleted).map fun job => job.1.job.attempt).Nodup := by
  have attempts : (knownLeases batch deleted).map (fun job => job.1.job.attempt) =
      ((knownLeases batch deleted).map Prod.snd).map fun lease : LeaseEntry => lease.attempt := by
    rw [map_map]
    exact map_congr_left fun job known => (mem_knownLeases known).2.2
  have shorter : ((knownLeases batch deleted).map Prod.snd).Sublist deleted := by
    clear once attempts
    induction deleted with
    | nil => exact List.Sublist.refl _
    | cons lease deleted ih =>
      rw [knownLeases, filterMap_cons]
      cases (batch.filter fun x => x.job.attempt = lease.attempt).getLast? with
      | none => exact ih.cons lease
      | some x => exact ih.cons_cons lease
  rw [attempts]
  exact (shorter.map _).nodup once

theorem StoreOk.deleteLeases_gone (ok : StoreOk mode s) (mem : lease ∈ s.leases)
    (found : LeaseEntry → Bool) (met : found lease = true) :
      (∀ other ∈ (s.deleteLeases found).leases, other.attempt ≠ lease.attempt) ∧
      ∀ c ∈ (s.deleteLeases found).receipts, c.attempt ≠ lease.attempt := by
  constructor
  · intro other kept equal
    obtain ⟨stored, unmatched⟩ := mem_filter.1 kept
    obtain rfl : other = lease := inj_on_of_nodup_map ok.leasesOnce stored mem equal
    simp only [met, Bool.not_true, Bool.false_eq_true] at unmatched
  · intro c kept equal
    have unpaired := of_decide_eq_true (mem_filter.1 kept).2
    exact unpaired (mem_map.2 ⟨lease, mem_filter.2 ⟨mem, met⟩, equal.symm⟩)

/-- A sync of one row succeeds only if it enters no key of another job. -/
theorem StoreOk.unclashed (ok : StoreOk mode s) {row : UniqueSync} {uniqueClaims : List UniqueClaim}
    (synced : syncUniqueClaims s.uniqueClaims (some .running) [row] = some uniqueClaims) :
    s.Unclashed row := by
  rw [syncUniqueClaims_singleton] at synced
  exact (syncUniqueClaim_isSome ok.unique).1 (Option.isSome_iff_exists.2 ⟨_, synced⟩)

section Leases
variable {found : LeaseEntry → ClaimedRuntimeJob → Bool}

def RowStore.matched (s : RowStore) (found : LeaseEntry → ClaimedRuntimeJob → Bool)
    (rest batch : List ClaimedRuntimeJob) : List (ClaimedRuntimeJob × LeaseEntry) :=
  knownLeases batch (s.leases.filter fun lease => rest.any (found lease))

theorem StoreOk.matched_nodup (ok : StoreOk mode s) :
    ((s.matched found rest batch).map fun job => job.1.job.attempt).Nodup :=
  knownLeases_nodup batch ((filter_sublist.map _).nodup ok.leasesOnce)

theorem StoreOk.completeLeases_iff (ok : StoreOk mode s) (handed : ∀ x ∈ batch, x ∈ s.handedOut) :
    completeLeases s found rest batch now = some (s', updated) ↔
      ∃ uniqueClaims, syncUniqueClaims s.uniqueClaims (some .running)
          ((s.matched found rest batch).map fun job => job.1.sync) = some uniqueClaims ∧
        (∀ job ∈ s.matched found rest batch, s.KeyFree job.1) ∧
        updated = (s.matched found rest batch).map (fun job => job.1.job.attempt) ∧
        s' = { s.deleteLeases fun lease => rest.any (found lease) with
          uniqueClaims
          done := s.done ++ (s.matched found rest batch).map fun job =>
            (job.1.intoDoneRow now).entry true (some job.2.source) } := by
  have inserted := ok.insertDoneRows ((s.matched found rest batch).map fun job =>
    (job.1, job.2.source)) now (by
      intro job mem
      obtain ⟨known, there, rfl⟩ := mem_map.1 mem
      exact handed _ (mem_knownLeases there).1)
    (by rw [map_map]; exact ok.matched_nodup)
    (s.deleteLeases fun lease => rest.any (found lease))
  simp only [map_map, forall_mem_map] at inserted
  rw [completeLeases, Option.map_eq_some_iff]
  constructor
  · rintro ⟨t, stored, same⟩
    obtain ⟨rfl, rfl⟩ := Prod.mk.inj same
    obtain ⟨uniqueClaims, synced, free, rfl⟩ := (inserted _).1 stored
    exact ⟨uniqueClaims, synced, free, rfl, rfl⟩
  · rintro ⟨uniqueClaims, synced, free, rfl, rfl⟩
    exact ⟨_, (inserted _).2 ⟨uniqueClaims, synced, free, rfl⟩, rfl⟩

theorem StoreOk.completeLeases_isSome (ok : StoreOk mode s) (now : Nat)
    (handed : ∀ x ∈ batch, x ∈ s.handedOut)
    (free : ∀ job ∈ s.matched found rest batch, s.Insertable job.1)
    (apart : Untangled ClaimedRuntimeJob.sync batch) :
    ∃ s' updated, completeLeases s found rest batch now = some (s', updated) := by
  have jobs : ∀ x ∈ (s.matched found rest batch).map Prod.fst, x ∈ batch ∧ s.Insertable x := by
    rw [forall_mem_map]
    exact fun job mem => ⟨(mem_knownLeases mem).1, free job mem⟩
  obtain ⟨uniqueClaims, synced⟩ := ok.syncs (fun x mem => (jobs x mem).2.unclashed)
    (fun x mem y mem' => apart x (jobs x mem).1 y (jobs y mem').1)
      (by rw [map_map]; exact ok.matched_nodup)
  rw [map_map] at synced
  exact ⟨_, _, (ok.completeLeases_iff handed).2 ⟨_, synced, fun job mem => (free job mem).free, rfl,
    rfl⟩⟩

theorem StoreOk.completeLeases_completes (ok : StoreOk mode s) (now : Nat)
    (handed : ∀ x ∈ batch, x ∈ s.handedOut) (known : ∀ x ∈ rest, x ∈ batch)
    (own : ∀ lease ∈ s.leases, ∀ x ∈ rest, found lease x = true → lease.attempt = x.job.attempt)
    (present : ∀ x ∈ rest, ∃ lease ∈ s.leases, lease.attempt = x.job.attempt ∧ found lease x = true)
    (free : ∀ x ∈ rest, s.Insertable x) (apart : Untangled ClaimedRuntimeJob.sync batch) :
    ∃ s' updated, completeLeases s found rest batch now = some (s', updated) ∧
      ∀ x ∈ rest, x.job.attempt ∈ updated ∧ s'.CompletedAttempt x := by
  have insertable : ∀ job ∈ s.matched found rest batch, s.Insertable job.1 := by
    intro job mem
    obtain ⟨there, deleted, same⟩ := mem_knownLeases mem
    obtain ⟨stored, some⟩ := mem_filter.1 deleted
    obtain ⟨x, asked, met⟩ := any_eq_true.1 some
    rw [ok.attempt_inj (handed _ there) (handed x (known x asked))
      (same.trans (own _ stored x asked met))]
    exact free x asked
  obtain ⟨s', updated, completed⟩ := ok.completeLeases_isSome now handed insertable apart
  refine ⟨s', updated, completed, fun x asked => ?_⟩
  obtain ⟨uniqueClaims, -, -, rfl, rfl⟩ := (ok.completeLeases_iff handed).1 completed
  obtain ⟨lease, mem, same, met⟩ := present x asked
  have deleted : lease ∈ s.leases.filter fun lease => rest.any (found lease) :=
    mem_filter.2 ⟨mem, any_eq_true.2 ⟨x, asked, met⟩⟩
  obtain ⟨job, there, attempt⟩ := knownLeases_total deleted (known x asked) same.symm
  obtain ⟨unleased, closed⟩ := ok.deleteLeases_gone mem (fun lease => rest.any (found lease))
    (any_eq_true.2 ⟨x, asked, met⟩)
  refine ⟨mem_map.2 ⟨job, there, attempt⟩, .inl ?_, same ▸ unleased, same ▸ closed⟩
  exact ⟨_, mem_append_right _ (mem_map_of_mem there), attempt, rfl⟩

theorem StoreOk.completeLeases_reported (ok : StoreOk mode s) (handed : x ∈ s.handedOut)
    (completed : completeLeases s found rest [x] now = some (s', updated))
    (reported : x.job.attempt ∈ updated) :
    (∃ lease ∈ s.leases, lease.attempt = x.job.attempt ∧ ∃ y ∈ rest, found lease y = true) ∧
      s.Insertable x := by
  obtain ⟨uniqueClaims, synced, free, rfl, -⟩ :=
    (ok.completeLeases_iff (forall_mem_singleton.2 handed)).1 completed
  obtain ⟨job, there, -⟩ := mem_map.1 reported
  have own : ∀ job ∈ s.matched found rest [x], job.1 = x := fun job mem =>
    mem_singleton.1 (mem_knownLeases mem).1
  have alone : s.matched found rest [x] = [job] := by
    obtain ⟨other, single, -⟩ := eq_singleton_of_nodup_map ok.matched_nodup
        (ne_nil_of_mem there) fun job mem =>
      congrArg (fun x => x.job.attempt) (own job mem)
    rw [single] at there ⊢
    rw [mem_singleton.1 there]
  obtain ⟨known, deleted, attempt⟩ := mem_knownLeases there
  obtain rfl := own job there
  obtain ⟨stored, some⟩ := mem_filter.1 deleted
  rw [alone] at synced
  exact ⟨⟨job.2, stored, attempt.symm, any_eq_true.1 some⟩, free job there, ok.unclashed synced⟩

theorem RowStore.CompletedAttempt.completeLeases (done : s.CompletedAttempt x)
    (completed : completeLeases s found rest batch now = some (s', updated)) :
    s'.CompletedAttempt x := by
  have less := (completeLeases_settles completed).less
  obtain ⟨t, inserted, same⟩ := Option.map_eq_some_iff.1 completed
  obtain ⟨rfl, -⟩ := Prod.mk.inj same
  obtain ⟨_, -, -, rfl⟩ := insertDoneRows_eq_some.1 inserted
  refine ⟨?_, fun lease mem => done.unleased lease (less.leases.subset mem),
    fun c mem => done.closed c (less.receipts.subset mem)⟩
  rcases done.row with ⟨d, mem, facts⟩ | compact
  · exact .inl ⟨d, mem_append_left _ mem, facts⟩
  · exact .inr compact

end Leases

theorem leased_iff : s.leased a = true ↔ ∃ lease ∈ s.leases, lease.attempt = a := by
  simp [RowStore.leased, any_eq_true]

theorem StoreOk.lease_named (ok : StoreOk mode s) (handed : x ∈ s.handedOut) (unaged : x.Unaged)
    (mem : lease ∈ s.leases) (same : lease.attempt = x.job.attempt) :
    lease.lane = x.claim.lane ∧ lease.laneSeq = x.claim.laneSeq ∧ lease.ref = x.claim.ref :=
  ⟨(ok.lease_lane handed mem same).2 unaged, ok.lease_place handed mem same⟩

theorem StoreOk.materialized_present (ok : StoreOk mode s) (handed : x ∈ s.handedOut)
    (unaged : x.Unaged) (leased : s.leased x.job.attempt = true) :
    ∃ lease ∈ s.leases, lease.attempt = x.job.attempt ∧ lease.materializedFor x = true := by
  obtain ⟨lease, mem, same⟩ := leased_iff.1 leased
  obtain ⟨lane, laneSeq, ref⟩ := ok.lease_named handed unaged mem same
  exact ⟨lease, mem, same, by simp [LeaseEntry.materializedFor, lane, laneSeq, ref, same]⟩

theorem materializedFor_attempt (found : lease.materializedFor x = true) :
    lease.attempt = x.job.attempt := by
  simp only [LeaseEntry.materializedFor, and_eq_true, decide_eq_true_eq] at found
  exact found.1.1.2

theorem StoreOk.leased_present (ok : StoreOk false s) (handed : x ∈ s.handedOut) (unaged : x.Unaged)
    (leased : s.leased x.job.attempt = true) :
    ∃ lease ∈ s.leases, lease.attempt = x.job.attempt ∧ lease.leasedFor x = true := by
  obtain ⟨lease, mem, same⟩ := leased_iff.1 leased
  obtain ⟨lane, laneSeq, -⟩ := ok.lease_named handed unaged mem same
  obtain ⟨row, logged, -⟩ := ok.entry_of handed
  have slot := (ok.lease_of mem logged same).2 rfl
  exact ⟨lease, mem, same, by simp [LeaseEntry.leasedFor, lane, laneSeq, slot, same]⟩

theorem StoreOk.lease_unique (ok : StoreOk mode s) {other : LeaseEntry} (left : lease ∈ s.leases)
    (right : other ∈ s.leases) (slot : lease.leaseSlot = other.leaseSlot)
    (lane : lease.lane = other.lane) (laneSeq : lease.laneSeq = other.laneSeq) : lease = other :=
  inj_on_of_nodup_map ok.leaseKeys left right (by simp only [slot, lane, laneSeq])

theorem StoreOk.leasedFor_own (ok : StoreOk false s) (handed : x ∈ s.handedOut) (unaged : x.Unaged)
    (leased : s.leased x.job.attempt = true) (mem : lease ∈ s.leases)
    (found : lease.leasedFor x = true) : lease.attempt = x.job.attempt := by
  obtain ⟨own, present, same, named⟩ := ok.leased_present handed unaged leased
  simp only [LeaseEntry.leasedFor, and_eq_true, decide_eq_true_eq] at found named
  have equal := ok.lease_unique mem present (found.1.1.1.trans named.1.1.1.symm)
    (found.1.1.2.trans named.1.1.2.symm) (found.1.2.trans named.1.2.symm)
  rw [equal, same]

theorem StoreOk.live_leased (ok : StoreOk false s) (live : s.LiveAttempt x) :
    s.leased x.job.attempt = true := by
  obtain leased | ⟨c, mem, -⟩ := live
  · exact leased
  · rw [ok.receiptMode rfl] at mem
    exact absurd mem not_mem_nil

def RowStore.slowUpdated (s : RowStore) (batch : List ClaimedRuntimeJob) : List Attempt :=
  (claimRefs s.slowClaimRef batch).map fun ref => ref.1.job.attempt

def RowStore.slowClosed (s : RowStore) (batch : List ClaimedRuntimeJob) (now : Nat)
    (uniqueClaims : List UniqueClaim) : RowStore :=
  { s.closeReceipts ((claimRefs s.slowClaimRef batch).map fun ref => ref.2.receiptId) with
    uniqueClaims
    done := s.done ++ (claimRefs s.slowClaimRef batch).map fun ref =>
      (ref.1.intoDoneRow now).entry true (some ref.2.source) }

section Slow
variable {uniqueClaims : List UniqueClaim}

def RowStore.SlowSyncs (s : RowStore) (batch : List ClaimedRuntimeJob)
    (uniqueClaims : List UniqueClaim) : Prop :=
  syncUniqueClaims s.uniqueClaims (some .running) ((claimRefs s.slowClaimRef batch).map fun ref =>
    ref.1.sync) = some uniqueClaims

theorem StoreOk.slowClosed (ok : StoreOk mode s) (synced : s.SlowSyncs batch uniqueClaims)
    (now : Nat) : StoreOk mode (s.slowClosed batch now uniqueClaims) :=
  ok.shrink ⟨rfl, List.Sublist.refl _, filter_sublist, List.Sublist.refl _, rfl,
    (syncUniqueClaims_eq_some synced).1⟩

/-- In receipt mode every job of the batch is looked up by its receipt first, and by its lease if
the receipt is not found. -/
theorem StoreOk.slow_receipts (ok : StoreOk true s) (handed : ∀ x ∈ batch, x ∈ s.handedOut)
    (distinct : (batch.map fun x => x.job.attempt).Nodup) :
    completeRuntimeBatchSlow true s batch now = some (s', updated) ↔
      ∃ uniqueClaims, s.SlowSyncs batch uniqueClaims ∧
        (∀ ref ∈ claimRefs s.slowClaimRef batch, s.KeyFree ref.1) ∧
        ∃ more, updated = s.slowUpdated batch ++ more ∧
          completeLeases (s.slowClosed batch now uniqueClaims) LeaseEntry.materializedFor
            (batch.filter fun x => x.job.attempt ∉ s.slowUpdated batch) batch now =
              some (s', more) := by
  have receipts : ∀ x ∈ batch, x.claim.leaseClaimReceipt = true := by
    intro x mem
    obtain ⟨row, -, facts⟩ := ok.entry_of (handed x mem)
    exact facts.receipt
  have all : (batch.filter fun x => x.claim.leaseClaimReceipt) = batch := filter_eq_self.2 receipts
  have none : (batch.filter fun x => !x.claim.leaseClaimReceipt) = [] :=
    filter_eq_nil_iff.2 fun x mem => by simp [receipts x mem]
  have missed : ∀ updated : List Attempt, (batch.filter fun x => x.claim.leaseClaimReceipt &&
      decide (x.job.attempt ∉ updated)) = batch.filter fun x => x.job.attempt ∉ updated :=
    fun updated => filter_congr fun x mem => by rw [receipts x mem, Bool.true_and]
  have stored := ok.insertDoneRows ((claimRefs s.slowClaimRef batch).map fun ref =>
    (ref.1, ref.2.source)) now (by
      intro job mem
      obtain ⟨ref, there, rfl⟩ := mem_map.1 mem
      exact handed _ (mem_claimRefs.1 there).1)
    (by rw [map_map]; exact claimRefs_nodup distinct)
    (s.closeReceipts ((claimRefs s.slowClaimRef batch).map fun ref => ref.2.receiptId))
  simp only [map_map, forall_mem_map] at stored
  simp only [completeRuntimeBatchSlow, if_true, all, none, missed, nil_append,
    Option.bind_eq_some_iff, Option.map_eq_some_iff, Prod.mk.injEq]
  constructor
  · rintro ⟨t, inserted, result, completed, rfl, rfl⟩
    obtain ⟨uniqueClaims, synced, free, rfl⟩ := (stored t).1 inserted
    exact ⟨uniqueClaims, synced, free, result.2, rfl, completed⟩
  · rintro ⟨uniqueClaims, synced, free, more, rfl, completed⟩
    exact ⟨_, (stored _).2 ⟨uniqueClaims, synced, free, rfl⟩, (s', more), completed, rfl, rfl⟩

theorem StoreOk.slowClosed_completes (ok : StoreOk mode s)
    (reported : x.job.attempt ∈ s.slowUpdated batch) :
    (s.slowClosed batch now uniqueClaims).CompletedAttempt x := by
  obtain ⟨ref, found, same⟩ := mem_map.1 reported
  refine ⟨.inl ⟨_, mem_append_right _ (mem_map_of_mem found), same, rfl⟩, ?_,
    finds_slowClaimRef.closed ok reported⟩
  exact not_leased_iff.1 (same ▸ (finds_slowClaimRef.found (mem_claimRefs.1 found).2).2.2)

theorem StoreOk.slowClosed_keyFree (ok : StoreOk mode s) (handed : ∀ x ∈ batch, x ∈ s.handedOut)
    (mem : x ∈ batch) (unreported : x.job.attempt ∉ s.slowUpdated batch) :
    (s.slowClosed batch now uniqueClaims).KeyFree x ↔ s.KeyFree x := by
  constructor
  · exact fun free d present => free d (mem_append_left _ present)
  · intro free d present same
    rcases mem_append.1 present with old | new
    · exact free d old same
    · obtain ⟨ref, found, rfl⟩ := mem_map.1 new
      obtain ⟨among, -⟩ := mem_claimRefs.1 found
      obtain ⟨row, -, facts⟩ := ok.entry_of (handed _ among)
      have keys : (ref.1.intoDoneRow now).key.primaryKey = x.key.primaryKey := same
      rw [intoDoneRow_key facts] at keys
      have equal := ok.primaryKey_inj (handed _ among) (handed x mem) keys
      exact unreported (mem_map.2 ⟨ref, found, congrArg (fun x => x.job.attempt) equal⟩)

/-- The receipts of a batch leave its other jobs unclashed. -/
theorem slowClosed_unclashed (synced : s.SlowSyncs batch uniqueClaims)
    (apart : Untangled ClaimedRuntimeJob.sync batch) (mem : x ∈ batch) (free : s.Unclashed x.sync) :
    (s.slowClosed batch now uniqueClaims).Unclashed x.sync := by
  rintro ⟨enters, held, stored, keyed, other⟩
  rcases (syncUniqueClaims_eq_some synced).2 held stored with before | ⟨row, there,
    entered, same, own⟩
  · exact free ⟨enters, held, before, keyed, other⟩
  · obtain ⟨ref, found, rfl⟩ := mem_map.1 there
    have different : ref.1 ≠ x := by
      rintro rfl
      exact other own
    exact apart ref.1 (mem_claimRefs.1 found).1 x mem different entered enters
      (same.trans keyed.symm)

theorem StoreOk.slowSyncs (ok : StoreOk mode s)
    (distinct : (batch.map fun x => x.job.attempt).Nodup)
    (free : ∀ x ∈ batch, s.Unclashed x.sync) (apart : Untangled ClaimedRuntimeJob.sync batch) :
    ∃ uniqueClaims, s.SlowSyncs batch uniqueClaims := by
  have among := (claimRefs_sublist s.slowClaimRef batch).subset
  obtain ⟨uniqueClaims, synced⟩ := ok.syncs (fun x mem => free x (among mem))
    (fun x mem y mem' => apart x (among mem) y (among mem'))
      (((claimRefs_sublist _ batch).map _).nodup distinct)
  rw [map_map] at synced
  exact ⟨uniqueClaims, synced⟩

theorem StoreOk.slow_completes (ok : StoreOk mode s) (now : Nat)
    (handed : ∀ x ∈ batch, x ∈ s.handedOut)
    (distinct : (batch.map fun x => x.job.attempt).Nodup) (live : ∀ x ∈ batch, s.LiveAttempt x)
    (unaged : ∀ x ∈ batch, s.leased x.job.attempt = true → x.Unaged)
    (free : ∀ x ∈ batch, s.Insertable x) (apart : Untangled ClaimedRuntimeJob.sync batch) :
    ∃ s' updated, completeRuntimeBatchSlow mode s batch now = some (s', updated) ∧
      ∀ x ∈ batch, x.job.attempt ∈ updated ∧ s'.CompletedAttempt x := by
  cases mode with
  | false =>
    have leased : ∀ x ∈ batch, s.leased x.job.attempt = true := fun x mem =>
      ok.live_leased (live x mem)
    exact ok.completeLeases_completes now handed (fun _ mem => mem)
      (fun lease stored x mem => ok.leasedFor_own (handed x mem) (unaged x mem (leased x mem))
        (leased x mem) stored)
      (fun x mem => ok.leased_present (handed x mem) (unaged x mem (leased x mem)) (leased x mem))
        free apart
  | true =>
    obtain ⟨uniqueClaims, synced⟩ := ok.slowSyncs distinct
      (fun x mem => (free x mem).unclashed) apart
    have missed : ∀ x ∈ batch.filter (fun x => x.job.attempt ∉ s.slowUpdated batch),
        x ∈ batch ∧ x.job.attempt ∉ s.slowUpdated batch ∧ s.leased x.job.attempt = true := by
      intro x mem
      obtain ⟨there, unreported⟩ := mem_filter.1 mem
      have unreported := of_decide_eq_true unreported
      have reported_iff := finds_slowClaimRef.reported_iff ok (handed x there) there (live x there)
      exact ⟨there, unreported, Bool.not_eq_false _ ▸ reported_iff.not.1 unreported⟩
    have after := ok.slowClosed synced now
    obtain ⟨s', more, completed, all⟩ := after.completeLeases_completes now handed
      (fun x mem => (missed x mem).1) (fun lease _ x _ => materializedFor_attempt)
      (fun x mem => by
        obtain ⟨there, -, leased⟩ := missed x mem
        exact after.materialized_present (handed x there) (unaged x there leased) leased)
      (fun x mem => by
        obtain ⟨there, unreported, -⟩ := missed x mem
        exact ⟨(ok.slowClosed_keyFree handed there unreported).2 (free x there).free,
          slowClosed_unclashed synced apart there (free x there).unclashed⟩)
      apart
    have slow := (ok.slow_receipts handed distinct).2
      ⟨_, synced, fun ref mem => (free ref.1 (mem_claimRefs.1 mem).1).free, more, rfl, completed⟩
    refine ⟨s', _, slow, fun x mem => ?_⟩
    by_cases reported : x.job.attempt ∈ s.slowUpdated batch
    · exact ⟨mem_append_left _ reported,
        (ok.slowClosed_completes reported).completeLeases completed⟩
    · obtain ⟨updated, done⟩ := all x (mem_filter.2 ⟨mem, decide_eq_true reported⟩)
      exact ⟨mem_append_right _ updated, done⟩

theorem StoreOk.slow_reported (ok : StoreOk mode s) (handed : x ∈ s.handedOut)
    (completed : completeRuntimeBatchSlow mode s [x] now = some (s', updated))
    (reported : x.job.attempt ∈ updated) :
    (s.leased x.job.attempt = true → x.Unaged) ∧ s.Insertable x := by
  have single : ∀ y ∈ [x], y ∈ s.handedOut := forall_mem_singleton.2 handed
  cases mode with
  | false =>
    obtain ⟨⟨lease, stored, same, y, asked, found⟩, free⟩ :=
      ok.completeLeases_reported handed completed reported
    obtain rfl := mem_singleton.1 asked
    simp only [LeaseEntry.leasedFor, and_eq_true, decide_eq_true_eq] at found
    exact ⟨fun _ => (ok.lease_lane handed stored same).1 found.1.1.2, free⟩
  | true =>
    obtain ⟨uniqueClaims, synced, free, more, rfl, leases⟩ :=
      (ok.slow_receipts single (nodup_singleton _)).1 completed
    cases open_ : s.slowClaimRef x with
    | some c =>
      have refs : claimRefs s.slowClaimRef [x] = [(x, c)] := by simp [claimRefs, open_]
      have unleased := (finds_slowClaimRef.found open_).2.2
      rw [RowStore.SlowSyncs, refs] at synced
      refine ⟨fun leased => absurd (unleased.symm.trans leased) Bool.false_ne_true, ?_,
        ok.unclashed synced⟩
      exact free (x, c) (refs ▸ mem_singleton_self _)
    | none =>
      have refs : claimRefs s.slowClaimRef [x] = [] := by simp [claimRefs, open_]
      have early : x.job.attempt ∉ s.slowUpdated [x] := by simp [RowStore.slowUpdated, refs]
      have late := (mem_append.1 reported).resolve_left early
      obtain ⟨⟨lease, stored, same, y, asked, found⟩, insertable⟩ :=
        (ok.slowClosed synced now).completeLeases_reported handed leases late
      obtain rfl := mem_singleton.1 (mem_filter.1 asked).1
      simp only [LeaseEntry.materializedFor, and_eq_true, decide_eq_true_eq] at found
      refine ⟨fun _ => (ok.lease_lane handed stored same).1 found.1.2,
        (ok.slowClosed_keyFree single (mem_singleton_self _) early).1 insertable.free, ?_⟩
      rw [RowStore.SlowSyncs, refs] at synced
      cases synced
      exact insertable.unclashed

end Slow

def RowStore.FastRoute (mode : Bool) (s : RowStore) (batch : List ClaimedRuntimeJob)
    (x : ClaimedRuntimeJob) : Prop :=
  mode = true ∧ batch.all receiptFastCompleteCandidate = true ∧ s.leased x.job.attempt = false

theorem RowStore.CompletedAttempt.slowClosed (done : s.CompletedAttempt x)
    (batch : List ClaimedRuntimeJob) (now : Nat) (uniqueClaims : List UniqueClaim) :
    (s.slowClosed batch now uniqueClaims).CompletedAttempt x := by
  refine ⟨?_, done.unleased, fun c mem => done.closed c (mem_filter.1 mem).1⟩
  rcases done.row with ⟨d, mem, facts⟩ | compact
  · exact .inl ⟨d, mem_append_left _ mem, facts⟩
  · exact .inr compact

theorem StoreOk.fast_completes (ok : StoreOk mode s)
    (reported : x.job.attempt ∈ (completeReceiptRuntimeBatchFast s batch now).2) :
    (completeReceiptRuntimeBatchFast s batch now).1.CompletedAttempt x ∧
      s.leased x.job.attempt = false := by
  obtain ⟨ref, found, same⟩ := mem_map.1 reported
  have unleased := same ▸ (finds_fastClaimRef.found (mem_claimRefs.1 found).2).2.2
  refine ⟨⟨.inr ⟨_, mem_append_right _ (mem_map_of_mem found), same⟩, not_leased_iff.1 unleased,
    ?_⟩, unleased⟩
  exact finds_fastClaimRef.closed ok reported

/-- The length test of the compact path means that no job is missed. -/
theorem fast_all (full : (completeReceiptRuntimeBatchFast s batch now).2.length = batch.length) :
    ∀ x ∈ batch, x.job.attempt ∈ (completeReceiptRuntimeBatchFast s batch now).2 := by
  intro x mem
  have shorter := claimRefs_sublist s.fastClaimRef batch
  have all := shorter.eq_of_length (by simpa [completeReceiptRuntimeBatchFast] using full)
  rw [← all] at mem
  obtain ⟨ref, found, rfl⟩ := mem_map.1 mem
  exact mem_map_of_mem found

theorem RowStore.CompletedAttempt.slow (done : s.CompletedAttempt x) (ok : StoreOk true s)
    (handed : ∀ x ∈ batch, x ∈ s.handedOut) (distinct : (batch.map fun x => x.job.attempt).Nodup)
    (completed : completeRuntimeBatchSlow true s batch now = some (s', updated)) :
    s'.CompletedAttempt x := by
  obtain ⟨uniqueClaims, -, -, more, -, leases⟩ := (ok.slow_receipts handed distinct).1 completed
  exact (done.slowClosed batch now uniqueClaims).completeLeases leases

/-- The compact path hands the jobs it misses, those with a lease, to the slow path. -/
theorem StoreOk.fast_then_slow (ok : StoreOk true s) (now : Nat)
    (handed : ∀ x ∈ batch, x ∈ s.handedOut)
    (distinct : (batch.map fun x => x.job.attempt).Nodup) (live : ∀ x ∈ batch, s.LiveAttempt x)
    (unaged : ∀ x ∈ batch, s.leased x.job.attempt = true → x.Unaged)
    (free : ∀ x ∈ batch, s.leased x.job.attempt = true → s.Insertable x)
    (apart : Untangled ClaimedRuntimeJob.sync batch) :
    ∃ s' more, completeRuntimeBatchSlow true (completeReceiptRuntimeBatchFast s batch now).1
        (batch.filter fun x => x.job.attempt ∉ (completeReceiptRuntimeBatchFast s batch now).2)
      now = some (s', more) ∧ ∀ x ∈ batch,
        x.job.attempt ∈ (completeReceiptRuntimeBatchFast s batch now).2 ++ more ∧
        s'.CompletedAttempt x := by
  have after := ok.shrink (completeReceiptRuntimeBatchFast_settles batch now).less
  have missed : ∀ x ∈ batch.filter (fun x =>
      x.job.attempt ∉ (completeReceiptRuntimeBatchFast s batch now).2),
      x ∈ batch ∧ s.leased x.job.attempt = true := by
    intro x mem
    obtain ⟨there, unreported⟩ := mem_filter.1 mem
    have reported_iff := finds_fastClaimRef.reported_iff ok (handed x there) there (live x there)
    exact ⟨there, Bool.not_eq_false _ ▸ reported_iff.not.1 (of_decide_eq_true unreported)⟩
  have fewer : ((batch.filter fun x => x.job.attempt ∉ (completeReceiptRuntimeBatchFast s
      batch now).2).map fun x => x.job.attempt).Nodup := (filter_sublist.map _).nodup distinct
  have known := fun x mem => handed x (missed x mem).1
  obtain ⟨s', more, completed, all⟩ := after.slow_completes now known fewer
    (fun x mem => .inl (missed x mem).2)
    (fun x mem => unaged x (missed x mem).1)
    (fun x mem => have fits := free x (missed x mem).1 (missed x mem).2; ⟨fits.free,
      fits.unclashed⟩)
    (fun x mem y mem' => apart x (missed x mem).1 y (missed y mem').1)
  refine ⟨s', more, completed, fun x mem => ?_⟩
  by_cases reported : x.job.attempt ∈ (completeReceiptRuntimeBatchFast s batch now).2
  · exact ⟨mem_append_left _ reported, (ok.fast_completes reported).1.slow after known
      fewer completed⟩
  · obtain ⟨updated, done⟩ := all x (mem_filter.2 ⟨mem, decide_eq_true reported⟩)
    exact ⟨mem_append_right _ updated, done⟩

theorem StoreOk.runtime_completes (ok : StoreOk mode s) (now : Nat)
    (handed : ∀ x ∈ batch, x ∈ s.handedOut)
    (distinct : (batch.map fun x => x.job.attempt).Nodup) (live : ∀ x ∈ batch, s.LiveAttempt x)
    (unaged : ∀ x ∈ batch, s.leased x.job.attempt = true → x.Unaged)
    (free : ∀ x ∈ batch, s.FastRoute mode batch x ∨ s.Insertable x)
    (apart : Untangled ClaimedRuntimeJob.sync batch) :
    ∀ x ∈ batch, Completes (completeRuntimeBatch mode s batch now) x := by
  intro x mem
  rw [completeRuntimeBatch]
  split
  next route =>
    obtain ⟨rfl, -⟩ := and_eq_true_iff.1 route
    dsimp only
    split
    next complete =>
      have reported : x.job.attempt ∈ (completeReceiptRuntimeBatchFast s batch now).2 := by
        rcases complete with full | nothing
        · exact fast_all full x mem
        · exact not_not.1 fun unreported => not_mem_nil
            (nothing ▸ mem_filter.2 ⟨mem, decide_eq_true unreported⟩)
      exact ⟨⟨_, rfl, reported⟩, (ok.fast_completes reported).1⟩
    next =>
      obtain ⟨s', more, completed, all⟩ := ok.fast_then_slow now handed distinct live unaged
          (fun y there leased =>
        (free y there).resolve_left fun fast =>
          Bool.false_ne_true (fast.2.2.symm.trans leased)) apart
      rw [completed]
      exact ⟨⟨_, rfl, (all x mem).1⟩, (all x mem).2⟩
  next route =>
    obtain ⟨s', updated, completed, all⟩ := ok.slow_completes now handed distinct live unaged
        (fun y there =>
      (free y there).resolve_left fun fast => route (and_eq_true_iff.2 ⟨fast.1, fast.2.1⟩)) apart
    dsimp only
    rw [completed]
    exact ⟨⟨_, rfl, (all x mem).1⟩, (all x mem).2⟩

theorem StoreOk.runtime_reported (ok : StoreOk mode s) (handed : x ∈ s.handedOut)
    (done : Completes (completeRuntimeBatch mode s [x] now) x) :
    (s.leased x.job.attempt = true → x.Unaged) ∧ (s.FastRoute mode [x] x ∨ s.Insertable x) := by
  obtain ⟨⟨updated, result, reported⟩, -⟩ := done
  have early : (mode && [x].all receiptFastCompleteCandidate) = true →
      x.job.attempt ∈ (completeReceiptRuntimeBatchFast s [x] now).2 → s.FastRoute mode [x] x :=
        fun route found =>
    ⟨(and_eq_true_iff.1 route).1, (and_eq_true_iff.1 route).2, (ok.fast_completes found).2⟩
  have unaged : s.FastRoute mode [x] x → s.leased x.job.attempt = true → x.Unaged :=
      fun fast leased =>
    absurd (fast.2.2.symm.trans leased) Bool.false_ne_true
  rw [completeRuntimeBatch] at result
  split at result
  next route =>
    dsimp only at result
    by_cases found : x.job.attempt ∈ (completeReceiptRuntimeBatchFast s [x] now).2
    · exact ⟨unaged (early route found), .inl (early route found)⟩
    · split at result
      · cases result
        exact absurd reported found
      · have missed :
            ([x].filter fun y => y.job.attempt ∉ (completeReceiptRuntimeBatchFast s [x] now).2) =
            [x] :=
          filter_eq_self.2 fun y mem => by
            rw [mem_singleton.1 mem]
            exact decide_eq_true found
        rw [missed] at result
        split at result
        · exact absurd result.symm (Option.some_ne_none _)
        · next completed =>
          cases result
          have after := ok.shrink (completeReceiptRuntimeBatchFast_settles [x] now).less
          obtain ⟨young, free⟩ := after.slow_reported handed completed
            ((mem_append.1 reported).resolve_left found)
          exact ⟨young, .inr ⟨free.free, free.unclashed⟩⟩
  next =>
    dsimp only at result
    split at result
    · exact absurd result.symm (Option.some_ne_none _)
    · next completed =>
      cases result
      obtain ⟨young, free⟩ := ok.slow_reported handed completed reported
      exact ⟨young, .inr free⟩

def RowStore.LeasedAt (s : RowStore) (x : ClaimedRuntimeJob) : Prop :=
  ∃ lease ∈ s.leases, lease.attempt = x.job.attempt ∧ lease.leaseSlot = x.claim.leaseSlot

theorem StoreOk.hydrate_eq (ok : StoreOk mode s) (handed : x ∈ s.handedOut) (mem : lease ∈ s.leases)
    (same : lease.attempt = x.job.attempt) :
    s.hydrate lease.toAttemptColumns = (s.backing x).map fun ready =>
      ⟨lease.toAttemptColumns, ready⟩ := by
  obtain ⟨row, logged, facts⟩ := ok.entry_of handed
  obtain ⟨laneSeq, ref⟩ := ok.lease_place handed mem same
  have lane : lease.lane = { x.claim.lane with priority := x.job.priority } :=
    (congrArg AttemptColumns.lane (ok.lease_of mem logged same).1).trans (facts.lane ▸ rfl)
  simp only [RowStore.hydrate, RowStore.backing, laneSeq, ref, lane, same]

theorem StoreOk.hydrate_isSome (ok : StoreOk mode s) (handed : x ∈ s.handedOut)
    (mem : lease ∈ s.leases) (same : lease.attempt = x.job.attempt) :
    (s.hydrate lease.toAttemptColumns).isSome = true ↔ (s.backing x).isSome = true := by
  rw [ok.hydrate_eq handed mem same, Option.isSome_map]

theorem StoreOk.hydrated_sync (ok : StoreOk mode s) (handed : x ∈ s.handedOut)
    (mem : lease ∈ s.leases) (same : lease.attempt = x.job.attempt) {moved : LeaseTransitionRow}
    (found : s.hydrate lease.toAttemptColumns = some moved) (now : Nat) :
    (moved.intoDoneRow .completed now).sync = s.entrySync x := by
  rw [ok.hydrate_eq handed mem same] at found
  obtain ⟨ready, backing, rfl⟩ := Option.map_eq_some_iff.1 found
  simp only [RowStore.entrySync, backing, ← same]
  rfl

theorem intoDoneRow_key_of_hydrate {c : AttemptColumns} {moved : LeaseTransitionRow}
    (found : s.hydrate c = some moved) (state : TerminalState) (now : Nat) :
    (moved.intoDoneRow state now).key = ⟨c.lane, c.laneSeq, c.ref⟩ := by
  obtain ⟨rfl, -, queue⟩ := hydrate_columns found
  simp only [DoneJobRow.key, LeaseTransitionRow.intoDoneRow, queue]

theorem map_of_mapM {α β γ : Type} {h : α → Option β} {l : List α} {l' : List β}
    {f : β → γ} {g : α → γ} (all : l.mapM h = some l')
    (same : ∀ a ∈ l, ∀ b, h a = some b → f b = g a) : l'.map f = l.map g := by
  apply map_injective_iff.2 (Option.some_injective γ)
  have each := congrArg (map (Option.map f)) (mapM_eq_some.1 all)
  simp only [map_map] at each ⊢
  refine each.symm.trans (map_congr_left fun a mem => ?_)
  have found : h a ∈ l.map h := mem_map_of_mem mem
  rw [mapM_eq_some.1 all] at found
  obtain ⟨b, -, found⟩ := mem_map.1 found
  simp only [Function.comp_apply, ← found, Option.map_some, same a mem b found.symm]

section Claimed
variable {found : LeaseEntry → Bool} {moved : List LeaseTransitionRow}

def LeaseEntry.doneKey (lease : LeaseEntry) : Nat × Lane × Nat :=
  (lease.ref.slot, lease.lane, lease.laneSeq)

/-- The leases a completion deletes, each with the ready row it finds, get done rows under the key
of the lease. -/
theorem insertDoneRows_moved
    (hydrated : (s.leases.filter found).mapM (fun lease => s.hydrate lease.toAttemptColumns) =
    some moved) (t : RowStore) (state : TerminalState) (now : Nat) :
    t.insertDoneRows (moved.map fun row => (row.intoDoneRow state now, row.columns.source)) =
      some s' ↔ ∃ uniqueClaims, syncUniqueClaims t.uniqueClaims (some .running)
          (moved.map fun row => (row.intoDoneRow state now).sync) = some uniqueClaims ∧
        ((∀ lease ∈ s.leases.filter found, ∀ d ∈ t.done, d.key.primaryKey ≠ lease.doneKey) ∧
          ((s.leases.filter found).map LeaseEntry.doneKey).Nodup) ∧ s' = { t with
          uniqueClaims
          done := t.done ++ moved.map fun row => (row.intoDoneRow state now).entry true
            (some row.columns.source) } := by
  have keys : moved.map (fun row => (row.intoDoneRow state now).key.primaryKey) =
      (s.leases.filter found).map LeaseEntry.doneKey :=
    map_of_mapM hydrated fun lease _ row found => by rw [intoDoneRow_key_of_hydrate found]; rfl
  have free : ∀ P : Nat × Lane × Nat → Prop,
      (∀ row ∈ moved, P (row.intoDoneRow state now).key.primaryKey) ↔
      ∀ lease ∈ s.leases.filter found, P lease.doneKey := by
    intro P
    rw [← forall_mem_map (l := moved), keys, forall_mem_map]
  simp only [insertDoneRows_eq_some, forall_mem_map, map_map]
  rw [free fun key => ∀ d ∈ t.done, d.key.primaryKey ≠ key, ← keys]
  rfl

/-- `complete_claimed_batch` succeeds when every lease it deletes finds a ready row, their unique
claims sync and the keys of these leases are distinct and free. -/
theorem completeClaimedBatch_eq {claims : List ClaimedEntry} :
    completeClaimedBatch s claims now = (s', some updated) ↔
      ((∀ lease ∈ s.leases.filter fun lease => claims.any lease.enteredAs, ∀ d ∈ s.done,
          d.key.primaryKey ≠ lease.doneKey) ∧
        ((s.leases.filter fun lease => claims.any lease.enteredAs).map LeaseEntry.doneKey).Nodup) ∧
      updated = (s.leases.filter fun lease => claims.any lease.enteredAs).map
      (fun lease => lease.attempt) ∧
      ∃ moved uniqueClaims, (s.leases.filter fun lease => claims.any lease.enteredAs).mapM
          (fun lease => s.hydrate lease.toAttemptColumns) = some moved ∧
        syncUniqueClaims s.uniqueClaims (some .running)
          (moved.map fun row => (row.intoDoneRow .completed now).sync) = some uniqueClaims ∧
        s' = { s.deleteLeases fun lease => claims.any lease.enteredAs with
          uniqueClaims
          done := s.done ++ moved.map fun row => (row.intoDoneRow .completed now).entry true
            (some row.columns.source) } := by
  constructor
  · intro completed
    unfold completeClaimedBatch at completed
    dsimp only at completed
    split at completed
    · exact absurd (Prod.mk.inj completed).2.symm (Option.some_ne_none _)
    · next after inserted =>
      obtain ⟨rfl, same⟩ := Prod.mk.inj completed
      obtain ⟨moved, hydrated, inserted⟩ := Option.bind_eq_some_iff.1 inserted
      obtain ⟨uniqueClaims, synced, keys, stored⟩ :=
        (insertDoneRows_moved hydrated _ .completed now).1 inserted
      exact ⟨keys, (Option.some.inj same).symm, moved, uniqueClaims, hydrated, synced, stored⟩
  · rintro ⟨keys, rfl, moved, uniqueClaims, hydrated, synced, rfl⟩
    have inserted := (insertDoneRows_moved hydrated (s.deleteLeases fun lease =>
      claims.any lease.enteredAs) .completed now).2 ⟨uniqueClaims, synced, keys, rfl⟩
    unfold completeClaimedBatch
    dsimp only
    rw [hydrated, Option.bind_some, inserted]
    rfl

theorem StoreOk.moved_syncs (ok : StoreOk mode s)
    (hydrated : (s.leases.filter found).mapM (fun lease => s.hydrate lease.toAttemptColumns) =
    some moved) (now : Nat)
    (free : ∀ row ∈ moved, s.Unclashed (row.intoDoneRow .completed now).sync)
    (apart : ∀ row ∈ moved, ∀ other ∈ moved, row.columns.attempt ≠ other.columns.attempt →
      (row.intoDoneRow .completed now).sync.Apart (some .running)
    (other.intoDoneRow .completed now).sync) :
    ∃ uniqueClaims, syncUniqueClaims s.uniqueClaims (some .running)
      (moved.map fun row => (row.intoDoneRow .completed now).sync) = some uniqueClaims := by
  have once : (moved.map fun row => row.columns.attempt).Nodup := by
    rw [map_of_mapM hydrated fun lease _ row found => congrArg AttemptColumns.attempt
      (hydrate_columns found).1]
    exact (filter_sublist.map _).nodup ok.leasesOnce
  refine Option.isSome_iff_exists.1 (syncUniqueClaims_isSome ok.unique ?_ ?_)
  · rw [forall_mem_map]
    exact free
  · rw [pairwise_map]
    refine (List.Nodup.of_map _ once).pairwise_of_forall_ne fun row mem other mem' different => ?_
    exact apart row mem other mem' fun same => different (inj_on_of_nodup_map once mem mem' same)

end Claimed

/-- `complete_claimed_batch` completes a job whose lease stands where its entry points. -/
structure RowStore.EntryFits (s : RowStore) (x : ClaimedRuntimeJob) : Prop where
  leased : s.LeasedAt x
  unaged : x.Unaged
  backed : (s.backing x).isSome = true
  free : s.KeyFree x
  unclashed : s.Unclashed (s.entrySync x)

theorem StoreOk.lease_doneKey (ok : StoreOk mode s) (handed : x ∈ s.handedOut) (unaged : x.Unaged)
    (mem : lease ∈ s.leases) (same : lease.attempt = x.job.attempt) :
    lease.doneKey = x.key.primaryKey := by
  obtain ⟨lane, laneSeq, ref⟩ := ok.lease_named handed unaged mem same
  simp only [LeaseEntry.doneKey, ReadyTombstone.primaryKey, ClaimedRuntimeJob.key, lane,
    laneSeq, ref]

theorem StoreOk.enteredAs_own (ok : StoreOk mode s) (handed : x ∈ s.handedOut)
    (fits : s.EntryFits x) (mem : lease ∈ s.leases) (found : lease.enteredAs x.claim = true) :
    lease.attempt = x.job.attempt := by
  obtain ⟨own, present, same, slot⟩ := fits.leased
  obtain ⟨lane, laneSeq, -⟩ := ok.lease_named handed fits.unaged present same
  simp only [LeaseEntry.enteredAs, and_eq_true, decide_eq_true_eq] at found
  rw [ok.lease_unique mem present (found.1.1.trans slot.symm) (found.1.2.trans lane.symm)
    (found.2.trans laneSeq.symm), same]

theorem StoreOk.claimed_completes (ok : StoreOk mode s) (now : Nat)
    (handed : ∀ x ∈ batch, x ∈ s.handedOut)
    (fits : ∀ x ∈ batch, s.EntryFits x) (apart : Untangled s.entrySync batch) :
    ∀ x ∈ batch, Completes (completeClaimedBatch s (batch.map fun x => x.claim) now) x := by
  have matched : ∀ lease ∈ s.leases.filter (fun lease => (batch.map fun x => x.claim).any
      lease.enteredAs), lease ∈ s.leases ∧ ∃ x ∈ batch, lease.attempt = x.job.attempt := by
    intro lease deleted
    obtain ⟨mem, some⟩ := mem_filter.1 deleted
    obtain ⟨claim, there, found⟩ := any_eq_true.1 some
    obtain ⟨x, asked, rfl⟩ := mem_map.1 there
    exact ⟨mem, x, asked, ok.enteredAs_own (handed x asked) (fits x asked) mem found⟩
  obtain ⟨moved, hydrated⟩ := exists_mapM_eq_some.2 fun lease deleted => by
    obtain ⟨mem, x, asked, same⟩ := matched lease deleted
    exact (ok.hydrate_isSome (handed x asked) mem same).2 (fits x asked).backed
  have free : ∀ lease ∈ s.leases.filter (fun lease => (batch.map fun x => x.claim).any
      lease.enteredAs), ∀ d ∈ s.done, d.key.primaryKey ≠ lease.doneKey := by
    intro lease deleted d present
    obtain ⟨mem, x, asked, same⟩ := matched lease deleted
    rw [ok.lease_doneKey (handed x asked) (fits x asked).unaged mem same]
    exact (fits x asked).free d present
  have distinct : ((s.leases.filter fun lease => (batch.map fun x => x.claim).any
      lease.enteredAs).map LeaseEntry.doneKey).Nodup := by
    refine List.Nodup.map_on (fun lease deleted other deleted' keys => ?_)
      (filter_sublist.nodup (List.Nodup.of_map _ ok.leasesOnce))
    obtain ⟨mem, x, asked, same⟩ := matched lease deleted
    obtain ⟨mem', y, asked', same'⟩ := matched other deleted'
    rw [ok.lease_doneKey (handed x asked) (fits x asked).unaged mem same,
      ok.lease_doneKey (handed y asked') (fits y asked').unaged mem' same'] at keys
    have equal := ok.primaryKey_inj (handed x asked) (handed y asked') keys
    exact inj_on_of_nodup_map ok.leasesOnce mem mem' (same.trans (equal ▸ same'.symm))
  have asked : ∀ row ∈ moved, ∃ x ∈ batch, row.columns.attempt = x.job.attempt ∧
      (row.intoDoneRow .completed now).sync = s.entrySync x := by
    intro row mem
    have found : some row ∈ moved.map some := mem_map_of_mem mem
    rw [← mapM_eq_some.1 hydrated] at found
    obtain ⟨lease, deleted, found⟩ := mem_map.1 found
    obtain ⟨stored, x, asked, same⟩ := matched lease deleted
    refine ⟨x, asked, ?_, ok.hydrated_sync (handed x asked) stored same found now⟩
    exact (congrArg AttemptColumns.attempt (hydrate_columns found).1).trans same
  obtain ⟨uniqueClaims, synced⟩ := ok.moved_syncs hydrated now
    (fun row mem => by
      obtain ⟨x, there, -, same⟩ := asked row mem
      rw [same]
      exact (fits x there).unclashed)
    (fun row mem other mem' different => by
      obtain ⟨x, there, attempt, same⟩ := asked row mem
      obtain ⟨y, there', attempt', same'⟩ := asked other mem'
      rw [same, same']
      exact apart x there y there' fun equal => different (attempt.trans (equal ▸ attempt'.symm)))
  have completed : completeClaimedBatch s (batch.map fun x => x.claim) now = (_, some _) :=
    completeClaimedBatch_eq.2 ⟨⟨free, distinct⟩, rfl, moved, _, hydrated, synced, rfl⟩
  intro x asked
  rw [completed]
  obtain ⟨lease, mem, same, slot⟩ := (fits x asked).leased
  obtain ⟨lane, laneSeq, -⟩ := ok.lease_named (handed x asked) (fits x asked).unaged mem same
  have found : (batch.map fun x => x.claim).any lease.enteredAs = true :=
    any_eq_true.2 ⟨x.claim, mem_map_of_mem asked, by simp [LeaseEntry.enteredAs, slot,
      lane, laneSeq]⟩
  have deleted : lease ∈ s.leases.filter fun lease =>
      (batch.map fun x => x.claim).any lease.enteredAs :=
    mem_filter.2 ⟨mem, found⟩
  obtain ⟨unleased, closed⟩ := ok.deleteLeases_gone
    mem (fun lease => (batch.map fun x => x.claim).any lease.enteredAs) found
  refine ⟨⟨_, rfl, mem_map.2 ⟨lease, deleted, same⟩⟩, .inl ?_, same ▸ unleased, same ▸ closed⟩
  · have hydrates : s.hydrate lease.toAttemptColumns ∈ moved.map some :=
      mapM_eq_some.1 hydrated ▸ mem_map_of_mem deleted
    obtain ⟨row, there, stored⟩ := mem_map.1 hydrates
    refine ⟨_, mem_append_right _ (mem_map_of_mem there), ?_, rfl⟩
    exact (congrArg AttemptColumns.attempt (hydrate_columns stored.symm).1).trans same

theorem StoreOk.claimed_reported (ok : StoreOk mode s) (handed : x ∈ s.handedOut)
    (done : Completes (completeClaimedBatch s [x.claim] now) x) : s.EntryFits x := by
  obtain ⟨⟨updated, result, reported⟩, -⟩ := done
  have completed : completeClaimedBatch s [x.claim] now = ((completeClaimedBatch s [x.claim] now).1,
      some updated) :=
    Prod.ext rfl result
  obtain ⟨⟨free, -⟩, rfl, moved, uniqueClaims, hydrated, synced, -⟩ :=
    completeClaimedBatch_eq.1 completed
  obtain ⟨lease, deleted, same⟩ := mem_map.1 reported
  obtain ⟨mem, found⟩ := mem_filter.1 deleted
  have entered : ∀ other ∈ s.leases.filter (fun lease => [x.claim].any lease.enteredAs),
      (other.leaseSlot, other.lane, other.laneSeq) = (x.claim.leaseSlot, x.claim.lane,
        x.claim.laneSeq) := by
    intro other deleted
    have found := (mem_filter.1 deleted).2
    simp only [any_cons, any_nil, Bool.or_false, LeaseEntry.enteredAs, and_eq_true,
      decide_eq_true_eq] at found
    rw [found.1.1, found.1.2, found.2]
  have alone : (s.leases.filter fun lease => [x.claim].any lease.enteredAs) = [lease] := by
    obtain ⟨other, single, -⟩ := eq_singleton_of_nodup_map
      ((filter_sublist.map _).nodup ok.leaseKeys) (ne_nil_of_mem deleted) entered
    rw [single] at deleted ⊢
    rw [mem_singleton.1 deleted]
  simp only [any_cons, any_nil, Bool.or_false, LeaseEntry.enteredAs, and_eq_true,
    decide_eq_true_eq] at found
  have unaged := (ok.lease_lane handed mem same).1 found.1.2
  have hydrates := exists_mapM_eq_some.1 ⟨moved, hydrated⟩ lease deleted
  obtain ⟨row, hydrates⟩ := Option.isSome_iff_exists.1 hydrates
  refine ⟨⟨lease, mem, same, found.1.1⟩, unaged, ?_, ?_, ?_⟩
  · exact (ok.hydrate_isSome handed mem same).1 (Option.isSome_iff_exists.2 ⟨row, hydrates⟩)
  · intro d present
    rw [← ok.lease_doneKey handed unaged mem same]
    exact free lease deleted d present
  · rw [alone, mapM_cons, mapM_nil, hydrates] at hydrated
    cases hydrated
    rw [← ok.hydrated_sync handed mem same hydrates now]
    exact ok.unclashed synced

/-- What `complete_runtime_batch` needs of a live job: a lease under the lane priority of the entry,
and, unless the compact path closes the receipt, a free key and no unique conflict. -/
def RowStore.RuntimeFits (mode : Bool) (s : RowStore) (batch : List ClaimedRuntimeJob)
    (x : ClaimedRuntimeJob) : Prop :=
  (s.leased x.job.attempt = true → x.Unaged) ∧ (s.FastRoute mode batch x ∨ s.Insertable x)

/-- A completion that is given a live attempt settles and reports it exactly when the lease stands
under the lane priority of the entry, the done key is free and the job enters no unique key of
another; a batch of such attempts that enter different unique keys is settled whole. -/
theorem completion_settles_live_attempts {mode : Bool} {s : RowStore}
    (reached : (rowMachine mode).Reachable Machine.Always s) (now : Nat) :
      (∀ x ∈ s.handedOut, s.LiveAttempt x →
      (Completes (completeRuntimeBatch mode s [x] now) x ↔ s.RuntimeFits mode [x] x) ∧
      (Completes (completeClaimedBatch s [x.claim] now) x ↔ s.EntryFits x)) ∧
    ∀ batch : List ClaimedRuntimeJob, (∀ x ∈ batch, x ∈ s.handedOut ∧ s.LiveAttempt x) →
      (batch.map fun x => x.job.attempt).Nodup →
      ((∀ x ∈ batch, s.RuntimeFits mode batch x) → Untangled ClaimedRuntimeJob.sync batch →
        ∀ x ∈ batch, Completes (completeRuntimeBatch mode s batch now) x) ∧
      ((∀ x ∈ batch, s.EntryFits x) → Untangled s.entrySync batch →
        ∀ x ∈ batch, Completes (completeClaimedBatch s (batch.map fun x => x.claim) now) x) := by
  have ok := storeOk_reachable reached
  have batches : ∀ batch : List ClaimedRuntimeJob, (∀ x ∈ batch, x ∈ s.handedOut ∧
      s.LiveAttempt x) → (batch.map fun x => x.job.attempt).Nodup →
      ((∀ x ∈ batch, s.RuntimeFits mode batch x) → Untangled ClaimedRuntimeJob.sync batch →
        ∀ x ∈ batch, Completes (completeRuntimeBatch mode s batch now) x) ∧
      ((∀ x ∈ batch, s.EntryFits x) → Untangled s.entrySync batch →
        ∀ x ∈ batch, Completes (completeClaimedBatch s (batch.map fun x => x.claim) now) x) := by
    intro batch given distinct
    have handed := fun x member => (given x member).1
    constructor
    · exact fun fits => ok.runtime_completes now handed distinct
        (fun x member => (given x member).2)
        (fun x member => (fits x member).1) fun x member => (fits x member).2
    · exact fun fits => ok.claimed_completes now handed fits
  refine ⟨fun x handed live => ?_, batches⟩
  have given : ∀ y ∈ [x], y ∈ s.handedOut ∧ s.LiveAttempt y := fun y member =>
    mem_singleton.1 member ▸ ⟨handed, live⟩
  obtain ⟨runtime, claimed⟩ := batches [x] given (List.nodup_singleton _)
  have here := List.mem_singleton_self x
  have alone : ∀ {P : ClaimedRuntimeJob → Prop}, P x → ∀ y ∈ [x], P y := fun holds y member =>
    mem_singleton.1 member ▸ holds
  have apart : ∀ sync, Untangled sync [x] := fun sync y member z member' different =>
    absurd ((mem_singleton.1 member).trans (mem_singleton.1 member').symm) different
  exact ⟨⟨ok.runtime_reported handed, fun fits => runtime (alone fits) (apart _) x here⟩,
    ⟨ok.claimed_reported handed, fun fits => claimed (alone fits) (apart _) x here⟩⟩

def mailRow : ReadyEntry where
  lane := ⟨0, 2, 0⟩
  laneSeq := 1
  ref := ⟨0, 0⟩
  runAt := 50
  job := ⟨7, "mail", "body", 0, 0, 3, 40, none, none, {}⟩

def mailJob (mode : Bool) (priority : Nat) : ClaimedRuntimeJob :=
  claimedJob mode RowStore.initial mailRow priority 0 (some (4, 1))

/-- Enqueue it and claim it with that priority; in receipt mode, materialize its lease. -/
def mailOps (mode : Bool) (priority : Nat) : List RowOp :=
  [.enqueue mailRow.lane mailRow.ref mailRow.runAt mailRow.job,
    .claim mailRow priority 0 (some (4, 1))] ++ if mode then [.materialize ⟨7, 1⟩] else []

theorem completion_settles_live_attempts_mail :
    ∃ s, (rowMachine true).Reachable Machine.Always s ∧ mailJob true 2 ∈ s.handedOut ∧
      s.leased ⟨7, 1⟩ = true ∧
      Completes (completeRuntimeBatch true s [mailJob true 2] 90) (mailJob true 2) ∧
      Completes (completeClaimedBatch s [(mailJob true 2).claim] 90) (mailJob true 2) := by
  obtain ⟨s, reached, handed, leased, empty, unclaimed, backed, lease⟩ :=
    Machine.reachable_of_run (rowMachine true) Machine.Always (mailOps true 2)
    (fun s => mailJob true 2 ∈ s.handedOut ∧ s.leased ⟨7, 1⟩ = true ∧ s.done = [] ∧
      s.uniqueClaims = [] ∧ (s.backing (mailJob true 2)).isSome = true ∧
      ∃ lease ∈ s.leases, lease.attempt = ⟨7, 1⟩ ∧ lease.leaseSlot = 0) rfl (by decide)
  have free : s.KeyFree (mailJob true 2) := fun d member => absurd (empty ▸ member) not_mem_nil
  have unclashed : ∀ row, s.Unclashed row := fun row ⟨_, held, member, _⟩ =>
    absurd (unclaimed ▸ member) not_mem_nil
  have both := (completion_settles_live_attempts reached 90).1 _ handed (.inl leased)
  exact ⟨s, reached, handed, leased, both.1.2 ⟨fun _ => rfl, .inr ⟨free, unclashed _⟩⟩,
    both.2.2 ⟨lease, rfl, backed, free, unclashed _⟩⟩

def AgedClaimMissed (mode : Bool) : Prop :=
  ∃ s, (rowMachine mode).Reachable Machine.Always s ∧ mailJob mode 1 ∈ s.handedOut ∧
    s.LiveAttempt (mailJob mode 1) ∧ (completeRuntimeBatch mode s [mailJob mode 1] 90).2 = some [] ∧
    (completeClaimedBatch s [(mailJob mode 1).claim] 90).2 = some []

theorem agedClaimMissed (mode : Bool) : AgedClaimMissed mode := by
  obtain ⟨s, reached, handed, leased, unreported⟩ :=
    Machine.reachable_of_run (rowMachine mode) Machine.Always (mailOps mode 1)
    (fun s => mailJob mode 1 ∈ s.handedOut ∧ s.leased ⟨7, 1⟩ = true ∧
      (completeRuntimeBatch mode s [mailJob mode 1] 90).2 = some [] ∧
      (completeClaimedBatch s [(mailJob mode 1).claim] 90).2 = some []) rfl
        (by cases mode <;> decide)
  exact ⟨s, reached, handed, .inl leased, unreported⟩

/-- A lease under an aged priority is not completed in either mode. -/
theorem aged_lease_not_completed : AgedClaimMissed true ∧ AgedClaimMissed false :=
  ⟨agedClaimMissed true, agedClaimMissed false⟩

end AwaQueue
