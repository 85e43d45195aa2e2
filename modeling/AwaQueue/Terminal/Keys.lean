import AwaQueue.Terminal.Hydration

/-! The primary keys of `leases` and `done_entries`. Each lane numbers its own rows, so the keys
tell jobs apart as long as every writer uses the lane of the ready row. A claim writes its effective
priority, and the receipt branch of a cancel takes the shard of any ready row of the job. -/

namespace AwaQueue

open List
open Option (bind_eq_bind bind_some isNone_iff_eq_none isSome_iff_exists ite_none_right_eq_some)
open Library
variable {s s' : RowStore} {mode : Bool} {a : Attempt} {x : ClaimedRuntimeJob} {c : Receipt}
  {lease : LeaseEntry}
  {row : ReadyEntry} {batch : List ClaimedRuntimeJob} {now : Nat} {columns : AttemptColumns}

def AttemptColumns.position (c : AttemptColumns) : Lane × Nat := (c.lane, c.laneSeq)

def DoneEntry.position (d : DoneEntry) : Lane × Nat := (d.lane, d.laneSeq)

def RowStore.running (s : RowStore) : List AttemptColumns :=
  s.receipts.map (fun c => c.toAttemptColumns) ++ s.leases.map fun lease => lease.toAttemptColumns

/-- The steps that keep to the lane of the ready row: a claim has the priority of its lane, and the
receipt branch of a cancel meets ready rows of one shard. -/
def KeepsLane (op : RowOp) (s : RowStore) : Prop :=
  match op with
  | .claim row priority _ _ => priority = row.lane.priority
  | .cancelReceipt a _ => ∀ c ∈ s.runningOf a, s.OneShard c
  | _ => True

instance (op : RowOp) (s : RowStore) : Decidable (KeepsLane op s) := by
  apply RowOp.casesOn (motive := fun op => Decidable (KeepsLane op s)) op <;> intros <;>
    unfold KeepsLane <;> infer_instance

def RowStore.owners (s : RowStore) : List ((Lane × Nat) × Nat) :=
  s.ready.map (fun row => (row.position, row.job.jobId)) ++
    (s.claimed.map (fun entry => (entry.1.position, entry.1.job.jobId)) ++
      s.done.map fun d => (d.position, d.attempt.jobId))

structure KeysOk (s : RowStore) : Prop where
  unaged : ∀ entry ∈ s.claimed, entry.2.job.priority = entry.1.lane.priority
  single : ∀ o ∈ s.owners, ∀ o' ∈ s.owners, o.1 = o'.1 → o.2 = o'.2
  numbered : ∀ o ∈ s.owners, 1 ≤ o.1.2 ∧ o.1.2 < s.nextSeq o.1.1
  started : ∀ lane, 1 ≤ s.nextSeq lane

theorem KeysOk.initial : KeysOk RowStore.initial where
  unaged := forall_mem_nil _
  single := forall_mem_nil _
  numbered := forall_mem_nil _
  started _ := Nat.le_refl 1

theorem ready_owner (mem : row ∈ s.ready) : (row.position, row.job.jobId) ∈ s.owners :=
  mem_append_left _ (mem_map_of_mem mem)

theorem claimed_owner {entry : ReadyEntry × ClaimedRuntimeJob} (logged : entry ∈ s.claimed) :
    (entry.1.position, entry.1.job.jobId) ∈ s.owners :=
  mem_append_right _ (mem_append_left _ (mem_map_of_mem logged))

theorem done_owner {d : DoneEntry} (mem : d ∈ s.done) : (d.position, d.attempt.jobId) ∈ s.owners :=
  mem_append_right _ (mem_append_right _ (mem_map_of_mem mem))

theorem forall_owners {P : (Lane × Nat) × Nat → Prop}
    (ready : ∀ row ∈ s.ready, P (row.position, row.job.jobId))
    (claimed : ∀ entry ∈ s.claimed, P (entry.1.position, entry.1.job.jobId))
    (done : ∀ d ∈ s.done, P (d.position, d.attempt.jobId)) : ∀ o ∈ s.owners, P o := by
  intro o mem
  rcases mem_append.1 mem with mem | mem
  · obtain ⟨row, present, rfl⟩ := mem_map.1 mem
    exact ready row present
  · rcases mem_append.1 mem with mem | mem
    · obtain ⟨entry, logged, rfl⟩ := mem_map.1 mem
      exact claimed entry logged
    · obtain ⟨d, present, rfl⟩ := mem_map.1 mem
      exact done d present

theorem HandedOut.owner (handed : HandedOut mode row x) (logged : (row, x) ∈ s.claimed) :
    (row.position, x.job.attempt.jobId) ∈ s.owners := by
  rw [handed.attempt]
  exact claimed_owner logged

section Running
variable {columns other : AttemptColumns}

theorem StoreOk.running_claim (ok : StoreOk mode s) (keys : KeysOk s) (live : columns ∈ s.running) :
    ∃ entry ∈ s.claimed, columns = entry.1.columns entry.2.job.priority ∧
      columns.lane = entry.1.lane := by
  have claim : ∃ entry ∈ s.claimed, columns = entry.1.columns entry.2.job.priority := by
    rcases mem_append.1 live with receipt | leased
    · obtain ⟨c, present, rfl⟩ := mem_map.1 receipt
      obtain ⟨entry, logged, same, -⟩ := ok.receipts c present
      exact ⟨entry, logged, same⟩
    · obtain ⟨lease, present, rfl⟩ := mem_map.1 leased
      obtain ⟨entry, logged, same, -⟩ := ok.leases lease present
      exact ⟨entry, logged, same⟩
  obtain ⟨entry, logged, rfl⟩ := claim
  exact ⟨entry, logged, rfl, by simp [ReadyRow.columns, keys.unaged entry logged]⟩

theorem StoreOk.running_owner (ok : StoreOk mode s) (keys : KeysOk s) (live : columns ∈ s.running) :
    (columns.position, columns.attempt.jobId) ∈ s.owners := by
  obtain ⟨entry, logged, rfl, lane⟩ := ok.running_claim keys live
  rw [AttemptColumns.position, lane]
  exact claimed_owner logged

theorem StoreOk.running_position (ok : StoreOk mode s) (keys : KeysOk s)
    (left : columns ∈ s.running) (right : other ∈ s.running)
    (same : columns.position = other.position) : columns.attempt = other.attempt := by
  obtain ⟨entry, logged, rfl, lane⟩ := ok.running_claim keys left
  obtain ⟨entry', logged', rfl, lane'⟩ := ok.running_claim keys right
  rw [AttemptColumns.position, lane, AttemptColumns.position, lane'] at same
  rw [inj_on_of_nodup_map ok.positions logged logged' same]

end Running

theorem KeysOk.shrink (keys : KeysOk s) (less : Shrinks s s')
    (done : ∀ d ∈ s'.done, (d.position, d.attempt.jobId) ∈ s.owners) : KeysOk s' := by
  have owners : ∀ o ∈ s'.owners, o ∈ s.owners :=
    forall_owners (fun row mem => ready_owner (less.ready.subset mem))
      (fun entry logged => claimed_owner (less.claimed ▸ logged)) done
  exact ⟨less.claimed ▸ keys.unaged, fun o mem o' mem' => keys.single o (owners o mem) o'
    (owners o' mem'),
    fun o mem => less.nextSeq ▸ keys.numbered o (owners o mem), less.nextSeq ▸ keys.started⟩

theorem KeysOk.enqueue (keys : KeysOk s) (lane : Lane) (ref : RingRef) (runAt : Nat)
    (job : JobColumns) : KeysOk (s.enqueue lane ref runAt job) := by
  have later : ∀ other, s.nextSeq other ≤ (s.enqueue lane ref runAt job).nextSeq other := by
    intro other
    simp only [RowStore.enqueue, Function.update_apply]
    split
    · next same => rw [same]; exact Nat.le_succ _
    · exact Nat.le_refl _
  have current : (s.enqueue lane ref runAt job).nextSeq lane = s.nextSeq lane + 1 :=
    Function.update_self ..
  have owners : ∀ o ∈ (s.enqueue lane ref runAt job).owners, o ∈ s.owners ∨
      o = ((lane, s.nextSeq lane), job.jobId) := by
    exact forall_owners (forall_mem_concat (fun row old => .inl (ready_owner old)) (.inr rfl))
      (fun entry logged => .inl (claimed_owner logged)) fun d mem => .inl (done_owner mem)
  -- the new position is above every old one of its lane
  have fresh : ∀ o ∈ s.owners, o.1 ≠ (lane, s.nextSeq lane) := by
    intro o mem same
    exact absurd (keys.numbered o mem).2 (by rw [same]; exact Nat.lt_irrefl _)
  refine ⟨keys.unaged, fun o mem o' mem' same => ?_, fun o mem => ?_, fun other => ?_⟩
  · rcases owners o mem with old | rfl
    · rcases owners o' mem' with old' | rfl
      · exact keys.single o old o' old' same
      · exact absurd same (fresh o old)
    · rcases owners o' mem' with old' | rfl
      · exact absurd same.symm (fresh o' old')
      · rfl
  · rcases owners o mem with old | rfl
    · exact ⟨(keys.numbered o old).1, Nat.lt_of_lt_of_le (keys.numbered o old).2 (later _)⟩
    · exact ⟨keys.started lane, current ▸ Nat.lt_succ_self _⟩
  · exact Nat.le_trans (keys.started other) (later other)

theorem KeysOk.claim (keys : KeysOk s) {claimSlot : Nat} {batch : Option (Nat × Nat)}
    (claimed : s.claim mode row row.lane.priority claimSlot batch = some s') : KeysOk s' := by
  obtain ⟨⟨mem, -⟩, claimed⟩ := ite_none_right_eq_some.1 claimed
  have logged : KeysOk { s with
      claimed := s.claimed ++ [(row, claimedJob mode s row row.lane.priority claimSlot batch)]
        } := by
    have owners : ∀ o ∈ RowStore.owners { s with
        claimed := s.claimed ++ [(row, claimedJob mode s row row.lane.priority claimSlot batch)] },
          o ∈ s.owners := by
      exact forall_owners (fun row present => ready_owner (s := s) present)
        (forall_mem_concat (fun entry => claimed_owner) (ready_owner mem)) fun d present =>
          done_owner (s := s) present
    exact ⟨forall_mem_concat keys.unaged rfl,
      fun o there o' there' => keys.single o (owners o there) o' (owners o' there'),
      fun o there => keys.numbered o (owners o there), keys.started⟩
  split at claimed
  · cases claimed
    exact { logged with }
  · obtain ⟨-, rfl⟩ := guard_eq_some claimed
    exact { logged with }

theorem KeysOk.settle {P : Written → Prop} (keys : KeysOk s) (settles : Settles P s s')
    (owned : ∀ d, P (.done d) → (d.position, d.attempt.jobId) ∈ s.owners) : KeysOk s' :=
  keys.shrink settles.less fun d mem => (settles.done d mem).elim done_owner (owned d)

def DoneJobRow.owner (row : DoneJobRow) : (Lane × Nat) × Nat :=
  ((row.lane, row.laneSeq), row.attempt.jobId)

theorem StoreOk.intoDoneRow_owner (ok : StoreOk mode s) (handed : x ∈ s.handedOut) (now : Nat) :
    (x.intoDoneRow now).owner ∈ s.owners := by
  obtain ⟨row, logged, facts⟩ := ok.entry_of handed
  have key := intoDoneRow_key facts now
  simp only [DoneJobRow.key, ClaimedRuntimeJob.key, ReadyTombstone.mk.injEq] at key
  rw [DoneJobRow.owner, key.1, key.2.1, facts.lane, facts.laneSeq]
  exact facts.owner logged

theorem StoreOk.hydrated_owner (ok : StoreOk mode s) (keys : KeysOk s)
    {moved : LeaseTransitionRow} (live : columns ∈ s.running)
    (found : s.hydrate columns = some moved)
    (state : TerminalState) (now : Nat) : (moved.intoDoneRow state now).owner ∈ s.owners := by
  have key := intoDoneRow_key_of_hydrate found state now
  simp only [DoneJobRow.key, ReadyTombstone.mk.injEq] at key
  have attempt : (moved.intoDoneRow state now).attempt = columns.attempt :=
    congrArg AttemptColumns.attempt (hydrate_columns found).1
  rw [DoneJobRow.owner, key.1, key.2.1, attempt]
  exact ok.running_owner keys live

theorem runningOf_running (running : columns ∈ s.runningOf a) : columns ∈ s.running := by
  rcases mem_append.1 running with receipt | lease
  · obtain ⟨c, there, rfl⟩ := mem_map.1 receipt
    exact mem_append_left _ (mem_map_of_mem (mem_filter.1 there).1)
  · obtain ⟨l, there, rfl⟩ := mem_map.1 lease
    exact mem_append_right _ (mem_map_of_mem (mem_filter.1 there).1)

theorem KeysOk.completeRuntimeBatch (keys : KeysOk s) (ok : StoreOk mode s)
    (handed : ∀ x ∈ batch, x ∈ s.handedOut) : KeysOk (completeRuntimeBatch mode s batch now).1 := by
  refine keys.settle (completeRuntimeBatch_settles batch now) ?_
  rintro _ ⟨mem, -⟩
  exact ok.intoDoneRow_owner (handed _ mem) now

theorem KeysOk.completeClaimedBatch (keys : KeysOk s) (ok : StoreOk mode s)
    (claims : List ClaimedEntry) : KeysOk (completeClaimedBatch s claims now).1 := by
  refine keys.settle (completeClaimedBatch_settles claims now) ?_
  rintro _ ⟨lease, stored, -, ⟨found⟩⟩
  exact ok.hydrated_owner keys (mem_append_right _ (mem_map_of_mem stored)) found .completed now

theorem KeysOk.settleAttempt (keys : KeysOk s) (ok : StoreOk mode s) {waiting : Bool}
    {disposition : Disposition}
    (settled : settleAttempt mode s a waiting disposition now = some s') : KeysOk s' := by
  refine keys.settle (settleAttempt_settles settled) ?_
  rintro _ ⟨columns, running, new⟩
  cases new with
  | @terminal moved state found =>
    exact ok.hydrated_owner keys (runningOf_running running) found state now

/-- The done row of a cancelled receipt stands at the position of the receipt when no ready row of
the job stands on another shard. -/
theorem cancelledRow_owner {ready : ReadyEntry}
    (shard : ready.lane.enqueueShard = c.lane.enqueueShard) (now : Nat) :
    (c.cancelledRow ready now).owner = (c.position, c.attempt.jobId) := by
  simp only [DoneJobRow.owner, Receipt.cancelledRow, shard, AttemptColumns.position]

theorem KeysOk.cancelReceipt (keys : KeysOk s) (ok : StoreOk mode s)
    (keeps : KeepsLane (.cancelReceipt a now) s)
    (cancelled : cancelReceipt s a now = some s') : KeysOk s' := by
  refine keys.settle (cancelReceipt_settles cancelled) ?_
  rintro _ ⟨c, mem, same, ready, alike, ⟨⟩⟩
  have running := mem_runningOf_receipt mem same
  have owner : (c.cancelledRow ready now).owner ∈ s.owners := by
    rw [cancelledRow_owner (keeps _ running ready alike)]
    exact ok.running_owner keys (runningOf_running running)
  exact owner

theorem KeysOk.prune (keys : KeysOk s) {slot generation : Nat} {current : RingRef}
    {kept : DoneEntry → Bool}
    (pruned : s.prune slot generation current kept = some s') : KeysOk s' := by
  refine keys.shrink (prune_shrinks pruned) fun d mem => ?_
  simp only [RowStore.prune, ite_none_right_eq_some, Option.some_inj] at pruned
  obtain ⟨-, rfl⟩ := pruned
  rcases mem_append.1 mem with old | moved
  · exact done_owner (mem_filter.1 old).1
  · obtain ⟨old, there, rfl⟩ := mem_map.1 moved
    have owner : (old.position, old.attempt.jobId) ∈ s.owners := done_owner (mem_filter.1 there).1
    exact owner

theorem KeysOk.syncUnique (keys : KeysOk s) {jobId : Nat} {unique : UniqueColumns}
    {old new : Option JobState}
    (synced : s.syncUnique jobId unique old new = some s') : KeysOk s' :=
  keys.settle (syncUnique_settles (P := fun _ => False) synced) fun _ => False.elim

theorem KeysOk.step {op : RowOp} (keys : KeysOk s) (ok : StoreOk mode s) (keeps : KeepsLane op s)
    (step : rowStep mode op s = some s') : KeysOk s' := by
  cases op with
  | enqueue lane ref runAt job =>
    cases step
    exact keys.enqueue lane ref runAt job
  | claim row priority claimSlot batch =>
    obtain rfl : priority = row.lane.priority := keeps
    exact keys.claim step
  | materialize a =>
    obtain ⟨-, step⟩ := ite_none_right_eq_some.1 step
    rw [RowStore.materialize] at step
    split at step
    · obtain ⟨-, rfl⟩ := guard_eq_some step
      exact { keys with }
    · exact absurd step.symm (Option.some_ne_none _)
  | completeRuntimeBatch batch now =>
    obtain ⟨⟨handed, -⟩, rfl⟩ := guard_eq_some step
    exact keys.completeRuntimeBatch ok handed
  | completeClaimedBatch batch now =>
    obtain ⟨-, rfl⟩ := guard_eq_some step
    exact keys.completeClaimedBatch ok batch
  | settle a waiting disposition now => exact keys.settleAttempt ok step
  | cancelReceipt a now => exact keys.cancelReceipt ok keeps (ite_none_right_eq_some.1 step).2
  | cancelReady row now =>
    refine keys.settle (cancelReady_settles step) ?_
    rintro _ ⟨mem, ⟨⟩⟩
    exact ready_owner mem
  | retryDone d shard ref runAt payload =>
    obtain ⟨-, rfl⟩ := guard_eq_some step
    refine KeysOk.enqueue ?_ ..
    exact keys.shrink (.of_same rfl rfl rfl rfl rfl rfl) fun _ mem =>
      done_owner (mem_of_mem_erase mem)
  | moveFailedToDlq d =>
    obtain ⟨-, rfl⟩ := guard_eq_some step
    exact keys.shrink (.of_same rfl rfl rfl rfl rfl rfl) fun _ mem =>
      done_owner (mem_of_mem_erase mem)
  | retryFromDlq row lane ref runAt payload =>
    obtain ⟨-, rfl⟩ := guard_eq_some step
    refine KeysOk.enqueue ?_ ..
    exact { keys with }
  | discardDone d =>
    cases step
    exact keys.shrink (.of_same rfl rfl rfl rfl rfl rfl) fun _ mem =>
      done_owner (mem_of_mem_erase mem)
  | cancelDeferred a ref queue priority old unique =>
    obtain ⟨t, synced, step⟩ := Option.bind_eq_some_iff.1 step
    obtain ⟨-, rfl⟩ := guard_eq_some step
    have keys := keys.syncUnique synced
    exact { keys with }
  | removeDeferred a | removeSynthetic row | rotateLeases slot =>
    cases step
    exact { keys with }
  | prune slot generation current kept => exact keys.prune step
  | syncUnique jobId columns old new => exact keys.syncUnique step

theorem keysOk_reachable (reached : (rowMachine mode).Reachable KeepsLane s) :
    StoreOk mode s ∧ KeysOk s := by
  have ok : ∀ {t}, (rowMachine mode).Reachable KeepsLane t → StoreOk mode t := fun before =>
    storeOk_reachable (before.mono fun _ _ _ => trivial)
  refine ⟨ok reached, reached.invariant (fun _ first => first ▸ KeysOk.initial) ?_⟩
  exact fun _ _ _ before keys keeps step => keys.step (ok before) keeps step

def RowStore.Recorded (s : RowStore) (job : Nat) : Prop := ∃ d ∈ s.done, d.attempt.jobId = job

/-- A position that its job owns is free in `done_entries` unless the job itself took it. -/
theorem KeysOk.free (keys : KeysOk s) {position : Lane × Nat} {job : Nat}
    (owned : (position, job) ∈ s.owners) (new : ¬ s.Recorded job) (slot : Nat) :
    ∀ d ∈ s.done, d.key.primaryKey ≠ (slot, position.1, position.2) := by
  intro d present same
  have positions : d.position = position := congrArg Prod.snd same
  exact new ⟨d, present, keys.single _ (done_owner present) _ owned positions⟩

theorem KeysOk.insertDoneEntry_isSome (keys : KeysOk s) {done : DoneJobRow}
    (owned : done.owner ∈ s.owners)
    (new : ¬ s.Recorded done.attempt.jobId) (keep : Bool) (source : Option ReadyEntry) :
    (s.insertDoneEntry done keep source).isSome = true :=
  isSome_iff_exists.2 ⟨_, insertDoneEntry_eq_some.2 ⟨keys.free owned new done.ref.slot, rfl⟩⟩

theorem StoreOk.syncUnique_isSome (ok : StoreOk mode s) {jobId : Nat} {unique : UniqueColumns}
    {old new : Option JobState} (unclashed : ¬ unique.Clashes s.uniqueClaims jobId old new) :
    ∃ uniqueClaims, s.syncUnique jobId unique old new = some { s with uniqueClaims } := by
  obtain ⟨uniqueClaims, synced⟩ := isSome_iff_exists.1
    ((syncUniqueClaim_isSome ok.unique).2 unclashed)
  exact ⟨uniqueClaims, syncUnique_eq_some.2 ⟨uniqueClaims, synced, rfl⟩⟩

theorem StoreOk.insertDoneRow_isSome (ok : StoreOk mode s) (keys : KeysOk s) {done : DoneJobRow}
    (owned : done.owner ∈ s.owners) (new : ¬ s.Recorded done.attempt.jobId) {old : JobState}
    (unclashed : ¬ done.sync.Clashes s.uniqueClaims (some old)) (source : Option ReadyEntry) :
    (s.insertDoneRow done old source).isSome = true := by
  obtain ⟨uniqueClaims, synced⟩ := ok.syncUnique_isSome unclashed
  rw [RowStore.insertDoneRow, synced]
  exact (keys.syncUnique synced).insertDoneEntry_isSome owned new _ source

theorem StoreOk.keyFree (ok : StoreOk mode s) (keys : KeysOk s) (handed : x ∈ s.handedOut)
    (new : ¬ s.Recorded x.job.attempt.jobId) : s.KeyFree x := by
  obtain ⟨row, logged, facts⟩ := ok.entry_of handed
  have free := keys.free (facts.owner logged) new x.claim.ref.slot
  intro d present same
  refine free d present (same.trans ?_)
  simp only [ReadyTombstone.primaryKey, ClaimedRuntimeJob.key, facts.lane, facts.laneSeq,
    ReadyRow.position]

section
variable (ok : StoreOk mode s)
  (handed : ∀ x ∈ batch, x ∈ s.handedOut)
  (distinct : (batch.map fun x => x.job.attempt).Nodup)
  (free : ∀ x ∈ batch, s.Insertable x)
  (apart : Untangled ClaimedRuntimeJob.sync batch)
include ok handed distinct free apart

theorem StoreOk.slow_isSome :
    (completeRuntimeBatchSlow mode s batch now).isSome = true := by
  cases mode with
  | false =>
    obtain ⟨s', updated, completed⟩ := ok.completeLeases_isSome now handed
      (fun job known => free _ (mem_knownLeases known).1) apart
    exact isSome_iff_exists.2 ⟨_, completed⟩
  | true =>
    obtain ⟨uniqueClaims, synced⟩ := ok.slowSyncs distinct
      (fun x mem => (free x mem).unclashed) apart
    have insertable :
        ∀ job ∈ (s.slowClosed batch now uniqueClaims).matched LeaseEntry.materializedFor
        (batch.filter fun x => x.job.attempt ∉ s.slowUpdated batch) batch,
        (s.slowClosed batch now uniqueClaims).Insertable job.1 := by
      intro job known
      obtain ⟨mem, deleted, same⟩ := mem_knownLeases known
      obtain ⟨y, asked, found⟩ := any_eq_true.1 (mem_filter.1 deleted).2
      have unreported := of_decide_eq_true (mem_filter.1 asked).2
      rw [← materializedFor_attempt found, ← same] at unreported
      exact ⟨(ok.slowClosed_keyFree handed mem unreported).2 (free _ mem).free,
        slowClosed_unclashed synced apart mem (free _ mem).unclashed⟩
    obtain ⟨s', more, leases⟩ := (ok.slowClosed synced now).completeLeases_isSome now handed
      insertable apart
    refine isSome_iff_exists.2 ⟨_, (ok.slow_receipts handed distinct).2
      ⟨uniqueClaims, synced, fun ref found => ?_, more, rfl, leases⟩⟩
    exact (free _ (mem_claimRefs.1 found).1).free

theorem StoreOk.runtime_isSome :
    (completeRuntimeBatch mode s batch now).2.isSome = true := by
  rw [completeRuntimeBatch]
  split
  · dsimp only
    split
    · rfl
    · obtain ⟨result, succeeds⟩ := isSome_iff_exists.1
        ((ok.shrink (completeReceiptRuntimeBatchFast_settles batch now).less).slow_isSome
          (fun x mem => handed x (mem_filter.1 mem).1) ((filter_sublist.map _).nodup distinct)
          (fun x mem => have fits := free x (mem_filter.1 mem).1; ⟨fits.free, fits.unclashed⟩)
          fun x mem y mem' => apart x (mem_filter.1 mem).1 y (mem_filter.1 mem').1)
      rw [succeeds]
      rfl
  · obtain ⟨result, succeeds⟩ := isSome_iff_exists.1 (ok.slow_isSome handed distinct free apart)
    dsimp only
    rw [succeeds]
    rfl

end

def RowStore.leaseSync (s : RowStore) (lease : LeaseEntry) : UniqueSync :=
  ⟨lease.attempt.jobId, ((s.hydrate lease.toAttemptColumns).map fun moved =>
    moved.ready.unique).getD ⟨none, none⟩, .completed⟩

theorem intoDoneRow_sync {moved : LeaseTransitionRow}
    (found : s.hydrate lease.toAttemptColumns = some moved) (now : Nat) :
    (moved.intoDoneRow .completed now).sync = s.leaseSync lease := by
  have attempt := congrArg AttemptColumns.attempt (hydrate_columns found).1
  simp only [RowStore.leaseSync, found, Option.map_some, Option.getD_some, ← attempt]
  rfl

theorem StoreOk.claimed_isSome (ok : StoreOk mode s) (keys : KeysOk s) {claims : List ClaimedEntry}
    (fits : ∀ lease ∈ s.leases, claims.any lease.enteredAs = true →
      (s.hydrate lease.toAttemptColumns).isSome = true ∧ ¬ s.Recorded lease.attempt.jobId ∧
        s.Unclashed (s.leaseSync lease))
    (apart : ∀ lease ∈ s.leases, ∀ other ∈ s.leases, lease ≠ other →
      claims.any lease.enteredAs = true → claims.any other.enteredAs = true →
    (s.leaseSync lease).Apart (some .running) (s.leaseSync other)) :
    (completeClaimedBatch s claims now).2.isSome = true := by
  have live : ∀ {lease}, lease ∈ s.leases → lease.toAttemptColumns ∈ s.running := fun mem =>
    mem_append_right _ (mem_map_of_mem mem)
  obtain ⟨moved, hydrated⟩ := exists_mapM_eq_some.2 fun lease deleted =>
    (fits lease (mem_filter.1 deleted).1 (mem_filter.1 deleted).2).1
  have free : ∀ lease ∈ s.leases.filter (fun lease => claims.any lease.enteredAs), ∀ d ∈ s.done,
      d.key.primaryKey ≠ lease.doneKey := by
    intro lease deleted
    obtain ⟨mem, entered⟩ := mem_filter.1 deleted
    exact keys.free (ok.running_owner keys (live mem)) (fits lease mem entered).2.1 lease.ref.slot
  have distinct : ((s.leases.filter fun lease => claims.any lease.enteredAs).map
      LeaseEntry.doneKey).Nodup := by
    refine List.Nodup.map_on (fun lease deleted other deleted' same => ?_)
      (filter_sublist.nodup (List.Nodup.of_map _ ok.leasesOnce))
    have attempts := ok.running_position keys (live (mem_filter.1 deleted).1)
      (live (mem_filter.1 deleted').1) (congrArg Prod.snd same)
    exact inj_on_of_nodup_map ok.leasesOnce (mem_filter.1 deleted).1
      (mem_filter.1 deleted').1 attempts
  have taken : ∀ row ∈ moved, ∃ lease ∈ s.leases, claims.any lease.enteredAs = true ∧
      row.columns = lease.toAttemptColumns ∧ (row.intoDoneRow .completed now).sync =
        s.leaseSync lease := by
    intro row mem
    have found : some row ∈ moved.map some := mem_map_of_mem mem
    rw [← mapM_eq_some.1 hydrated] at found
    obtain ⟨lease, deleted, found⟩ := mem_map.1 found
    obtain ⟨stored, entered⟩ := mem_filter.1 deleted
    exact ⟨lease, stored, entered, (hydrate_columns found).1, intoDoneRow_sync found now⟩
  obtain ⟨uniqueClaims, synced⟩ := ok.moved_syncs hydrated now
    (fun row mem => by
      obtain ⟨lease, stored, entered, -, same⟩ := taken row mem
      rw [same]
      exact (fits lease stored entered).2.2)
    (fun row mem other mem' different => by
      obtain ⟨lease, stored, entered, columns, same⟩ := taken row mem
      obtain ⟨lease', stored', entered', columns', same'⟩ := taken other mem'
      rw [same, same']
      refine apart lease stored lease' stored' (fun equal => different ?_) entered entered'
      rw [columns, columns', equal])
  have completed : completeClaimedBatch s claims now = (_, some _) :=
    completeClaimedBatch_eq.2 ⟨⟨free, distinct⟩, rfl, moved, uniqueClaims, hydrated, synced, rfl⟩
  rw [completed]
  rfl

/-- Two jobs never need one primary key, whatever lease slot or ready slot completes it. -/
structure RowStore.KeysApart (s : RowStore) : Prop where
  leases : ∀ c ∈ s.running, ∀ c' ∈ s.running, c.attempt ≠ c'.attempt → c.position ≠ c'.position
  settling : ∀ c ∈ s.running, ∀ d ∈ s.done, c.attempt.jobId ≠ d.attempt.jobId →
    c.position ≠ d.position
  waiting : ∀ row ∈ s.ready, ∀ d ∈ s.done, row.job.jobId ≠ d.attempt.jobId →
    row.position ≠ d.position
  terminal : ∀ d ∈ s.done, ∀ d' ∈ s.done, d.attempt.jobId ≠ d'.attempt.jobId →
    d.position ≠ d'.position
  synthetic : ∀ row ∈ s.synthetic, ∀ other ∈ s.synthetic, row.attempt.jobId ≠ other.attempt.jobId →
    row.primaryKey ≠ other.primaryKey
  signed : ∀ row ∈ s.synthetic, (∀ d ∈ s.done, row.primaryKey ≠ (d.ref.slot, d.lane,
    (d.laneSeq : Int))) ∧ ∀ c ∈ s.running, row.primaryKey ≠ (c.ref.slot, c.lane, (c.laneSeq : Int))

/-- Claiming, materializing, failing, cancelling and completing insert their rows unless the job
itself has a done row or a unique key that it enters is held by another job. -/
structure RowStore.InsertsOwnKeys (mode : Bool) (s : RowStore) : Prop where
  claim : ∀ row ∈ s.ready, row.key ∉ s.tombstones → 1 ≤ row.lane.priority →
    (∀ old ∈ s.claimed, old.1.key ≠ row.key ∧ old.2.job.attempt ≠ row.nextAttempt) →
    ∀ claimSlot batch, (s.claim mode row row.lane.priority claimSlot batch).isSome = true
  materialize : ∀ c ∈ s.receipts, s.evidence c.attempt = false → s.leased c.attempt = false →
    (s.materialize c.attempt).isSome = true
  settle : ∀ a columns t moved, takeRunningAttempt mode s a = some (columns, t) →
    s.hydrate columns = some moved → ¬ s.Recorded a.jobId →
      ∀ waiting disposition, ¬ moved.ready.unique.Clashes s.uniqueClaims a.jobId
      (some (leaseState waiting)) (some disposition.newState) →
    ∀ now, (settleAttempt mode s a waiting disposition now).isSome = true
  cancelReceipt : ∀ c ∈ s.receipts, s.evidence c.attempt = false → s.leased c.attempt = false →
    s.lookalikes c.toAttemptColumns ≠ [] → s.OneShard c.toAttemptColumns →
      ¬ s.Recorded c.attempt.jobId →
    (∀ row ∈ s.lookalikes c.toAttemptColumns,
      ¬ row.unique.Clashes s.uniqueClaims c.attempt.jobId (some .running) (some .cancelled)) →
    ∀ now, (cancelReceipt s c.attempt now).isSome = true
  cancelReady : ∀ row ∈ s.ready, row.key ∉ s.tombstones → ¬ s.Recorded row.job.jobId →
    ¬ row.unique.Clashes s.uniqueClaims row.job.jobId (some .available) (some .cancelled) →
    ∀ now, (s.cancelReady row now).isSome = true
  cancelDeferred : ∀ a ∈ s.deferred, (∀ row ∈ s.synthetic, row.attempt.jobId ≠ a.jobId) →
    ∀ ref queue priority old unique, ¬ unique.Clashes s.uniqueClaims a.jobId (some old)
      (some .cancelled) →
    (s.cancelDeferred a ref queue priority old unique).isSome = true
  completeRuntimeBatch : ∀ batch : List ClaimedRuntimeJob,
    (∀ x ∈ batch, x ∈ s.handedOut ∧ ¬ s.Recorded x.job.attempt.jobId ∧ s.Unclashed x.sync) →
    Untangled ClaimedRuntimeJob.sync batch → (batch.map fun x => x.job.attempt).Nodup →
    ∀ now, (completeRuntimeBatch mode s batch now).2.isSome = true
  completeClaimedBatch : ∀ claims : List ClaimedEntry,
    (∀ lease ∈ s.leases, claims.any lease.enteredAs = true →
      (s.hydrate lease.toAttemptColumns).isSome = true ∧ ¬ s.Recorded lease.attempt.jobId ∧
        s.Unclashed (s.leaseSync lease)) →
    (∀ lease ∈ s.leases, ∀ other ∈ s.leases, lease ≠ other → claims.any lease.enteredAs = true →
      claims.any other.enteredAs = true → (s.leaseSync lease).Apart (some .running)
        (s.leaseSync other)) →
    ∀ now, (completeClaimedBatch s claims now).2.isSome = true

theorem StoreOk.keysApart (ok : StoreOk mode s) (keys : KeysOk s) : s.KeysApart where
  leases c live c' live' differ same := differ (ok.running_position keys live live' same)
  settling c live d present differ same :=
    differ (keys.single _ (ok.running_owner keys live) _ (done_owner present) same)
  waiting row mem d present differ same :=
    differ (keys.single _ (ready_owner mem) _ (done_owner present) same)
  terminal d present d' present' differ same :=
    differ (keys.single _ (done_owner present) _ (done_owner present') same)
  synthetic row _ other _ differ same := by
    have numbers : -(row.attempt.jobId : Int) = -(other.attempt.jobId : Int) :=
      congrArg (fun key => key.2.2) same
    omega
  signed row _ := by
    -- lane numbers start at 1
    constructor
    · intro d present same
      have number : -(row.attempt.jobId : Int) = d.laneSeq := congrArg (fun key => key.2.2) same
      have positive : 1 ≤ d.laneSeq := (keys.numbered _ (done_owner present)).1
      omega
    · intro c live same
      have number : -(row.attempt.jobId : Int) = c.laneSeq := congrArg (fun key => key.2.2) same
      have positive : 1 ≤ c.laneSeq := (keys.numbered _ (ok.running_owner keys live)).1
      omega

theorem insertLease_isSome
    (apart : ∀ lease ∈ s.leases, lease.position ≠ columns.position) :
    (s.insertLease columns).isSome = true := by
  rw [RowStore.insertLease, if_pos]
  · rfl
  · simp only [all_eq_true, decide_eq_true_eq]
    exact fun lease mem same => apart lease mem (congrArg Prod.snd same)

section
variable (ok : StoreOk mode s) (keys : KeysOk s)
include ok keys

theorem StoreOk.claim_isSome (mem : row ∈ s.ready)
    (present : row.key ∉ s.tombstones) (positive : 1 ≤ row.lane.priority)
    (unclaimed : ∀ old ∈ s.claimed, old.1.key ≠ row.key ∧ old.2.job.attempt ≠ row.nextAttempt)
    (claimSlot : Nat) (batch : Option (Nat × Nat)) :
    (s.claim mode row row.lane.priority claimSlot batch).isSome = true := by
  rw [RowStore.claim]
  dsimp only
  rw [if_pos ⟨mem, present, positive, Nat.le_refl _, by simpa using unclaimed⟩]
  split
  · rfl
  · refine insertLease_isSome fun lease leased same => ?_
    obtain ⟨entry, logged, columns, lane⟩ := ok.running_claim keys
      (mem_append_right _ (mem_map_of_mem leased))
    have position : entry.1.position = row.position := by
      have seq := congrArg AttemptColumns.laneSeq columns
      simp only [AttemptColumns.position, ReadyRow.columns, Prod.mk.injEq] at same
      exact Prod.ext (lane.symm.trans same.1) (seq.symm.trans same.2)
    exact (unclaimed entry logged).1 (congrArg ReadyRow.key
      (ok.same entry logged row mem position.symm)).symm

theorem StoreOk.materialize_isSome (mem : c ∈ s.receipts)
    (unproven : s.evidence c.attempt = false) (unleased : s.leased c.attempt = false) :
    (s.materialize c.attempt).isSome = true := by
  have found : (s.receipts.find? fun other => other.attempt = c.attempt && !s.evidence c.attempt &&
      !s.leased c.attempt).isSome = true := find?_isSome.2 ⟨c, mem, by simp [unproven, unleased]⟩
  obtain ⟨other, found⟩ := isSome_iff_exists.1 found
  rw [RowStore.materialize, found]
  refine insertLease_isSome fun lease leased same => ?_
  have attempt : other.attempt = c.attempt := by
    have met := find?_some found
    simp only [Bool.and_eq_true, decide_eq_true_eq] at met
    exact met.1.1
  have equal := ok.running_position keys (mem_append_right _ (mem_map_of_mem leased))
    (mem_append_left _ (mem_map_of_mem (mem_of_find?_eq_some found))) same
  exact not_leased_iff.1 unleased lease leased (equal.trans attempt)

theorem StoreOk.settle_isSome {t : RowStore} {moved : LeaseTransitionRow} {waiting : Bool}
    {disposition : Disposition} (taken : takeRunningAttempt mode s a = some (columns, t))
    (found : s.hydrate columns = some moved)
    (new : ¬ s.Recorded a.jobId) (unclashed : ¬ moved.ready.unique.Clashes s.uniqueClaims a.jobId
      (some (leaseState waiting)) (some disposition.newState)) (now : Nat) :
    (settleAttempt mode s a waiting disposition now).isSome = true := by
  obtain ⟨running, receipts, leases, lessReceipts, lessLeases, rfl⟩ := takeRunningAttempt_eq taken
  have after : KeysOk { s with receipts, leases } := { keys with }
  have shrunk : StoreOk mode { s with receipts, leases } :=
    ok.shrink (.of_eq rfl rfl lessReceipts lessLeases rfl rfl)
  obtain ⟨uniqueClaims, synced⟩ := shrunk.syncUnique_isSome unclashed
  simp only [settleAttempt, taken, found, bind_eq_bind, bind_some, synced]
  cases disposition with
  | terminal state =>
    refine (after.syncUnique synced).insertDoneEntry_isSome
      (ok.hydrated_owner keys (runningOf_running running) found state now) ?_ _ _
    have attempt : (moved.intoDoneRow state now).attempt = a :=
      (congrArg AttemptColumns.attempt (hydrate_columns found).1).trans (runningOf_attempt running)
    rwa [attempt]
  | dlq | deferred | ready => rfl

theorem StoreOk.cancelReceipt_isSome (mem : c ∈ s.receipts)
    (unproven : s.evidence c.attempt = false) (unleased : s.leased c.attempt = false)
    (backed : s.lookalikes c.toAttemptColumns ≠ []) (shard : s.OneShard c.toAttemptColumns)
    (new : ¬ s.Recorded c.attempt.jobId) (unclashed : ∀ row ∈ s.lookalikes c.toAttemptColumns,
      ¬ row.unique.Clashes s.uniqueClaims c.attempt.jobId (some .running) (some .cancelled))
    (now : Nat) : (cancelReceipt s c.attempt now).isSome = true := by
  have first : (s.receipts.find? fun other => other.attempt = c.attempt && !s.evidence c.attempt &&
      !s.leased c.attempt) = some c := by
    obtain ⟨other, found⟩ := isSome_iff_exists.1
      (find?_isSome.2 ⟨c, mem, by simp [unproven, unleased]⟩ :
      (s.receipts.find? fun other => other.attempt = c.attempt && !s.evidence c.attempt &&
        !s.leased c.attempt).isSome = true)
    have met := find?_some found
    simp only [Bool.and_eq_true, decide_eq_true_eq] at met
    rw [found, inj_on_of_nodup_map ok.receiptsOnce (mem_of_find?_eq_some found) mem met.1.1]
  obtain ⟨row, alike⟩ := exists_mem_of_ne_nil _ backed
  obtain ⟨stored, matched⟩ := mem_filter.1 alike
  obtain ⟨ready, second⟩ := isSome_iff_exists.1 (find?_isSome.2 ⟨row, stored, matched⟩ :
    (s.ready.find? fun row => row.job.jobId = c.attempt.jobId && row.ref = c.ref && row.lane.queue =
      c.lane.queue && row.laneSeq = c.laneSeq).isSome = true)
  have among : ready ∈ s.lookalikes c.toAttemptColumns :=
    mem_filter.2 ⟨mem_of_find?_eq_some second, by simpa using find?_some second⟩
  have owned : (c.cancelledRow ready now).owner ∈ s.owners := by
    rw [cancelledRow_owner (shard ready among)]
    exact ok.running_owner keys (mem_append_left _ (mem_map_of_mem mem))
  obtain ⟨done, inserted⟩ := isSome_iff_exists.1
    (ok.insertDoneRow_isSome keys owned new (unclashed ready among) (some c.source))
  simp only [cancelReceipt, first, second, inserted, bind_eq_bind, bind_some, Option.pure_def,
    Option.isSome_some]

theorem StoreOk.cancelReady_isSome (mem : row ∈ s.ready) (present : row.key ∉ s.tombstones)
    (new : ¬ s.Recorded row.job.jobId)
    (unclashed : ¬ row.unique.Clashes s.uniqueClaims row.job.jobId (some .available)
    (some .cancelled)) (now : Nat) : (s.cancelReady row now).isSome = true := by
  have tombstoned : KeysOk { s with tombstones := s.tombstones ++ [row.key] } :=
    { keys with }
  have still : StoreOk mode { s with tombstones := s.tombstones ++ [row.key] } := { ok with }
  rw [RowStore.cancelReady, if_pos ⟨mem, present⟩]
  refine still.insertDoneRow_isSome tombstoned ?_ ?_ ?_ none
  · exact ready_owner (s := s) mem
  · exact new
  · exact unclashed

end

theorem StoreOk.cancelDeferred_isSome (ok : StoreOk mode s) (mem : a ∈ s.deferred)
    (new : ∀ row ∈ s.synthetic, row.attempt.jobId ≠ a.jobId) (ref : RingRef) (queue priority : Nat)
    {old : JobState} {unique : UniqueColumns}
    (unclashed : ¬ unique.Clashes s.uniqueClaims a.jobId (some old) (some .cancelled)) :
    (s.cancelDeferred a ref queue priority old unique).isSome = true := by
  obtain ⟨uniqueClaims, synced⟩ := ok.syncUnique_isSome unclashed
  have free : ∀ old ∈ s.synthetic, old.primaryKey ≠ SyntheticRow.primaryKey ⟨ref, queue,
      priority, a⟩ := by
    intro old present same
    have numbers : -(old.attempt.jobId : Int) = -(a.jobId : Int) :=
      congrArg (fun key => key.2.2) same
    exact new old present (by omega)
  rw [RowStore.cancelDeferred, synced, bind_some, if_pos ⟨mem, free⟩]
  rfl

/-- When claims have the priority of their lane and a cancel meets ready rows of one shard, the keys
of `leases` and `done_entries` tell the jobs apart in every state, and no insert meets the row of
another job. -/
theorem lease_and_done_keys_apart {mode : Bool} {s : RowStore}
    (reached : (rowMachine mode).Reachable KeepsLane s) : s.KeysApart ∧ s.InsertsOwnKeys mode := by
  obtain ⟨ok, keys⟩ := keysOk_reachable reached
  refine ⟨ok.keysApart keys, ?_⟩
  exact {
    claim := fun row member present positive unclaimed =>
      ok.claim_isSome keys member present positive unclaimed
    materialize := fun c member => ok.materialize_isSome keys member
    settle := fun a columns t moved taken found new waiting disposition unclashed =>
      ok.settle_isSome keys taken found new unclashed
    cancelReceipt := fun c member unproven unleased backed shard new unclashed =>
      ok.cancelReceipt_isSome keys member unproven unleased backed shard new unclashed
    cancelReady := fun row member present new unclashed =>
      ok.cancelReady_isSome keys member present new unclashed
    cancelDeferred := fun a member new ref queue priority old unique unclashed =>
      ok.cancelDeferred_isSome member new ref queue priority unclashed
    completeRuntimeBatch := fun batch given apart distinct now =>
      ok.runtime_isSome (fun x member => (given x member).1) distinct (fun x member =>
        ⟨ok.keyFree keys (given x member).1 (given x member).2.1, (given x member).2.2⟩) apart
    completeClaimedBatch := fun claims fits apart now => ok.claimed_isSome keys fits apart }

def letterRow : ReadyEntry where
  lane := ⟨0, 1, 0⟩
  laneSeq := 1
  ref := ⟨0, 0⟩
  runAt := 60
  job := ⟨8, "letter", "page", 0, 0, 3, 45, none, none, {}⟩

def bothClaimed (priority : Nat) : List RowOp :=
  [.enqueue mailRow.lane mailRow.ref mailRow.runAt mailRow.job,
    .enqueue letterRow.lane letterRow.ref letterRow.runAt letterRow.job,
    .claim mailRow priority 0 none, .claim letterRow 1 0 none]

theorem lease_and_done_keys_apart_letter :
    ∃ s, (rowMachine true).Reachable KeepsLane s ∧ s.running.length = 3 ∧ s.KeysApart ∧
      s.InsertsOwnKeys true := by
  obtain ⟨s, reached, hit⟩ := Machine.reachable_of_run (rowMachine true) KeepsLane
    (bothClaimed 2 ++ [.materialize ⟨7, 1⟩]) (fun s => s.running.length = 3) rfl (by decide)
  exact ⟨s, reached, hit, lease_and_done_keys_apart reached⟩

/-- A ready row that job 7 left behind in another lane, and the one it was moved to. -/
def movedRows : ReadyEntry × ReadyEntry :=
  ({ mailRow with lane := ⟨0, 2, 1⟩ }, { mailRow with lane := ⟨0, 1, 0⟩, job :=
    { mailRow.job with runLease := 1 } })

/-- Job 8 fails on shard 1; job 7 runs on shard 1, is queued again with another priority on shard 0
and claimed there. -/
def movedOps : List RowOp :=
  let other : ReadyEntry := { letterRow with lane := ⟨0, 1, 1⟩ }
  [.enqueue other.lane other.ref other.runAt other.job, .claim other 1 0 none,
    .settle ⟨8, 1⟩ false (.terminal .failed) 70,
      .enqueue movedRows.1.lane movedRows.1.ref movedRows.1.runAt movedRows.1.job,
      .claim movedRows.1 2 0 none,
    .settle ⟨7, 1⟩ false .ready 71,
    .enqueue movedRows.2.lane movedRows.2.ref movedRows.2.runAt movedRows.2.job,
      .claim movedRows.2 1 0 none]

/-- Under an aged priority the lease and the done row of job 8 meet those of job 7; a cancelled
receipt of job 7 meets the done row of job 8 on a shard it did not run on. -/
theorem aged_keys_collide :
    (∃ s, (rowMachine true).Reachable Machine.Always s ∧ (∃ c ∈ s.receipts, c.attempt = ⟨8, 1⟩) ∧
      s.evidence ⟨8, 1⟩ = false ∧ s.leased ⟨8, 1⟩ = false ∧ s.materialize ⟨8, 1⟩ = none) ∧
    (∃ s, (rowMachine true).Reachable Machine.Always s ∧ ¬ s.Recorded 8 ∧
      (∃ columns t, takeRunningAttempt true s ⟨8, 1⟩ = some (columns, t) ∧
      (s.hydrate columns).isSome = true) ∧
      settleAttempt true s ⟨8, 1⟩ false (.terminal .failed) 90 = none) ∧
    ∃ s, (rowMachine true).Reachable Machine.Always s ∧ ¬ s.Recorded 7 ∧
      (∃ c ∈ s.receipts, c.attempt = ⟨7, 2⟩ ∧ s.lookalikes c.toAttemptColumns ≠ []) ∧
      s.evidence ⟨7, 2⟩ = false ∧ s.leased ⟨7, 2⟩ = false ∧ cancelReceipt s ⟨7, 2⟩ 90 = none := by
  refine ⟨?_, ?_, ?_⟩
  · obtain ⟨s, reached, open_, unproven, unleased, refused⟩ :=
      Machine.reachable_of_run (rowMachine true) Machine.Always
      (bothClaimed 1 ++ [.materialize ⟨7, 1⟩]) (fun s => (∃ c ∈ s.receipts, c.attempt = ⟨8, 1⟩) ∧
        s.evidence ⟨8, 1⟩ = false ∧ s.leased ⟨8, 1⟩ = false ∧ (s.materialize ⟨8, 1⟩).isNone =
          true) rfl (by decide)
    exact ⟨s, reached, open_, unproven, unleased, isNone_iff_eq_none.1 refused⟩
  · obtain ⟨s, reached, new, running, refused⟩ :=
      Machine.reachable_of_run (rowMachine true) Machine.Always
        (bothClaimed 1 ++ [.settle ⟨7, 1⟩ false (.terminal .failed) 80])
        (fun s => (∀ d ∈ s.done, d.attempt.jobId ≠ 8) ∧
        ((takeRunningAttempt true s ⟨8, 1⟩).bind fun taken => s.hydrate taken.1).isSome = true ∧
        (settleAttempt true s ⟨8, 1⟩ false (.terminal .failed) 90).isNone = true) rfl (by decide)
    obtain ⟨moved, found⟩ := isSome_iff_exists.1 running
    obtain ⟨⟨columns, t⟩, taken, hydrates⟩ := Option.bind_eq_some_iff.1 found
    refine ⟨s, reached, fun ⟨d, present, same⟩ => new d present same, ⟨columns, t, taken, ?_⟩,
      isNone_iff_eq_none.1 refused⟩
    exact isSome_iff_exists.2 ⟨moved, hydrates⟩
  · obtain ⟨s, reached, new, open_, unproven, unleased, refused⟩ :=
      Machine.reachable_of_run (rowMachine true) Machine.Always movedOps
      (fun s => (∀ d ∈ s.done, d.attempt.jobId ≠ 7) ∧
        (∃ c ∈ s.receipts, c.attempt = ⟨7, 2⟩ ∧ s.lookalikes c.toAttemptColumns ≠ []) ∧
          s.evidence ⟨7, 2⟩ = false ∧
        s.leased ⟨7, 2⟩ = false ∧ (cancelReceipt s ⟨7, 2⟩ 90).isNone = true) rfl (by decide)
    exact ⟨s, reached, fun ⟨d, present, same⟩ => new d present same, open_, unproven, unleased,
      isNone_iff_eq_none.1 refused⟩

end AwaQueue
