import AwaQueue.Counters.Tables
import Mathlib.Algebra.Order.BigOperators.Group.List
import Mathlib.Algebra.Order.Monoid.Prod

/-! The conservation of terminal counts. In every state the counters and deltas of a slot and lane
sum to its live rows, per bucket under columns authority and per lane under ledger authority, and
the reported total is the number of terminal facts: pruned, live and compact. Maintenance keeps it.

A rollup truncates a whole segment but folds one generation of it, so every pending delta of the
slot must be of that generation; and the removals of one job count one row. -/

namespace AwaQueue

open List
open Prod (fst_add le_def snd_add)
open Library

variable {α κ : Type*} {entries : List (κ × (Int × Int))}

theorem balance_rows (rows : List α) (key : α → κ) (amount : Int) (p : κ → Bool) :
    balance (rows.map fun row => (key row, amount)) p =
      amount * (rows.countP fun row => p (key row) : Nat) := by
  induction rows with
  | nil => simp
  | cons row rows ih =>
    rw [map_cons, balance_cons, ih, countP_cons]
    cases p (key row) <;> simp [mul_add, add_comm]

theorem balance_units (rows : List α) (key : α → κ) (amount : α → Int × Int)
    (unit : ∀ row, (amount row).1 + (amount row).2 = 1) (p : κ → Bool) :
    (balance (rows.map fun row => (key row, amount row)) p).1 +
      (balance (rows.map fun row => (key row, amount row)) p).2 =
      (rows.countP fun row => p (key row) : Nat) := by
  induction rows with
  | nil => rfl
  | cons row rows ih =>
    rw [map_cons, balance_cons, countP_cons]
    have one := unit row
    cases p (key row)
    · simpa using ih
    · simp only [if_true, fst_add, snd_add]
      omega

theorem balance_nonneg (each : ∀ entry ∈ entries, 0 ≤ entry.2) (p : κ → Bool) :
    0 ≤ balance entries p := by
  refine sum_nonneg fun amount mem => ?_
  obtain ⟨entry, present, rfl⟩ := mem_map.1 mem
  exact each entry (mem_filter.1 present).1

theorem regroup_nonneg [DecidableEq κ]
    (each : ∀ entry ∈ entries, 0 ≤ entry.2) : ∀ entry ∈ regroup entries, 0 ≤ entry.2 := by
  intro entry mem
  rw [mem_regroup mem]
  exact balance_nonneg each _

theorem countP_filter_add (rows : List α) (q p : α → Bool) :
    (rows.filter q).countP p + (rows.filter fun row => !q row).countP p = rows.countP p := by
  induction rows with
  | nil => rfl
  | cons row rows ih =>
    cases keep : q row <;> simp [keep, countP_cons] <;> omega

theorem filter_not_mem_filter [DecidableEq α] (rows : List α) (q : α → Bool) :
    (rows.filter fun row => row ∉ rows.filter q) = rows.filter fun row => !q row := by
  refine filter_congr fun row mem => ?_
  cases keep : q row <;> simp [mem_filter, mem, keep]

@[simp] theorem perLane_perLane (key : CountKey) : key.perLane.perLane = key.perLane := rfl

def RingAuthority.precision (authority : RingAuthority) (key : CountKey) : CountKey :=
  match authority with
  | .columns => key
  | .ledger => key.perLane

@[simp] theorem precision_slot (authority : RingAuthority) (key : CountKey) :
    (authority.precision key).slot = key.slot := by
  cases authority <;> rfl

@[simp] theorem precision_lane (authority : RingAuthority) (key : CountKey) :
    (authority.precision key).lane = key.lane := by
  cases authority <;> rfl

@[simp] theorem precision_idem (authority : RingAuthority) (key : CountKey) :
    authority.precision (authority.precision key) = authority.precision key := by
  cases authority <;> rfl

def Exact (authority : RingAuthority) (counts : List (CountKey × Int))
    (deltas : List (DeltaKey × Int)) (done : List CountedRow) : Prop :=
  ∀ p : CountKey → Bool, (balance counts fun key => p (authority.precision key)) +
      (balance deltas fun key => p (authority.precision key.countKey)) =
    (done.countP fun row => p (authority.precision row.deltaKey.countKey) : Nat)

structure CompletionsOk (completions tombstones : List CompletedItem) : Prop where
  distinct : (completions.map CompletedItem.attempt).Nodup
  tombstonesDistinct : tombstones.Nodup
  known : ∀ tomb ∈ tombstones, tomb ∈ completions

structure RollupsOk (rollups rollupDeltas : List (RollupKey × (Int × Int))) : Prop where
  keys : (rollups.map Prod.fst).Nodup
  folded : ∀ row ∈ rollups, 0 ≤ row.2
  pending : ∀ entry ∈ rollupDeltas, 0 ≤ entry.2

namespace CounterState

structure CountersOk (s : CounterState) : Prop where
  sums : Exact s.authority s.counts s.deltas s.done
  countKeys : s.authority = .columns → (s.counts.map Prod.fst).Nodup
  completions : CompletionsOk s.completions s.tombstones
  rollups : RollupsOk s.rollups s.rollupDeltas

theorem countersOk_initial (authority : RingAuthority) : (initial authority).CountersOk where
  sums _ := rfl
  countKeys _ := nodup_nil
  completions := ⟨nodup_nil, nodup_nil, by simp [initial]⟩
  rollups := ⟨nodup_nil, by simp [initial], by simp [initial]⟩

variable {s : CounterState} {rows : List CountedRow} {jobId : Nat} {slot : Nat}

theorem CountersOk.lane (ok : s.CountersOk) (p : Lane → Bool) :
    (balance s.counts fun key => p key.lane) + (balance s.deltas fun key => p key.lane) =
      (s.done.countP fun row => p row.lane : Nat) := by
  have sums := ok.sums fun key => p key.lane
  simp only [precision_lane] at sums
  exact sums

theorem balance_appendTerminalCountDeltas (grouped : List (DeltaKey × Int)) (p : CountKey → Bool) :
    (balance (s.appendTerminalCountDeltas grouped).deltas fun key =>
      p (s.authority.precision key.countKey)) =
      (balance s.deltas fun key => p (s.authority.precision key.countKey)) +
        balance grouped fun key => p (s.authority.precision key.countKey) := by
  unfold appendTerminalCountDeltas
  rw [balance_append, balance_netted, balance_mapKey s.deltaBucket, balance_netted]
  congr 1
  refine balance_congr fun entry _ => ?_
  unfold deltaBucket
  cases s.authority <;> rfl

theorem CountersOk.change (ok : s.CountersOk) {done : List CountedRow}
    {deltas : List (DeltaKey × Int)} {amount : Int}
      (booked : ∀ p : CountKey → Bool, (balance deltas fun key =>
      p (s.authority.precision key.countKey)) =
      (balance s.deltas fun key => p (s.authority.precision key.countKey)) +
        balance (rows.map fun row => (row.deltaKey, amount)) fun key =>
    p (s.authority.precision key.countKey))
    (changed : ∀ p : CountedRow → Bool, (done.countP p : Int) = s.done.countP p + amount *
    rows.countP p) : CountersOk { s with deltas := deltas, done := done } := by
  refine ⟨fun p => ?_, ok.countKeys, ok.completions, ok.rollups⟩
  calc (balance s.counts fun key => p (s.authority.precision key)) +
        (balance deltas fun key => p (s.authority.precision key.countKey))
      = (s.done.countP fun row => p (s.authority.precision row.deltaKey.countKey) : Nat) +
          amount * (rows.countP fun row => p (s.authority.precision row.deltaKey.countKey) :
            Nat) := by
        rw [booked, ← add_assoc, ok.sums, balance_rows]
    _ = (done.countP fun row => p (s.authority.precision row.deltaKey.countKey) : Nat) :=
      (changed _).symm

theorem CountersOk.insertDoneRows (ok : s.CountersOk) {s' : CounterState}
    (step : s.insertDoneRows rows = some s') : s'.CountersOk := by
  unfold CounterState.insertDoneRows at step
  obtain ⟨-, rfl⟩ := guard_eq_some step
  refine ok.change (balance_appendTerminalCountDeltas _) fun p => ?_
  simp [countP_append]

theorem CountersOk.remove (ok : s.CountersOk) (q : CountedRow → Bool) {removed : List CountedRow}
    (rows : removed = s.done.filter q) :
    CountersOk { s.decrementLiveTerminalCounters removed with done := s.done.filter fun row =>
      row ∉ removed } := by
  subst rows
  refine ok.change (balance_appendTerminalCountDeltas _) fun p => ?_
  have split := countP_filter_add s.done q p
  rw [filter_not_mem_filter]
  omega

theorem CountersOk.removeFailed (ok : s.CountersOk) (kind queue : Option Nat) :
    (s.removeFailed kind queue).CountersOk :=
  ok.remove _ rfl

def SingleRow (s : CounterState) (jobId : Nat) : Prop :=
  (s.done.filter fun row => row.jobId = jobId).length ≤ 1

instance (s : CounterState) (jobId : Nat) : Decidable (s.SingleRow jobId) := by
  unfold SingleRow
  infer_instance

theorem latestRows_eq_filter (s : CounterState) (jobId : Nat) (states : List JobState) :
    ∃ q : CountedRow → Bool, (∀ row, q row → row.jobId = jobId) ∧ s.latestRows jobId states =
      s.done.filter q := by
  unfold latestRows
  split
  · exact ⟨fun _ => false, by simp, by simp⟩
  · exact ⟨_, fun row meets => by simp_all, rfl⟩

theorem CountersOk.removeLatest (ok : s.CountersOk) (single : s.SingleRow jobId)
    (states : List JobState) : (s.removeLatest jobId states).CountersOk := by
  obtain ⟨q, ofJob, rows⟩ := latestRows_eq_filter s jobId states
  have short : (s.done.filter q).length ≤ 1 := by
    refine le_trans (List.Sublist.length_le ?_) single
    exact monotone_filter_right _ fun row meets => decide_eq_true (ofJob row meets)
  have all : (s.latestRows jobId states).take 1 = s.latestRows jobId states := by
    rw [rows]
    exact take_of_length_le short
  unfold CounterState.removeLatest
  simp only [all]
  exact ok.remove q rows

theorem CountersOk.deleteRow (ok : s.CountersOk) (single : s.SingleRow jobId) {row : CountedRow}
    (found : (s.done.find? fun row => row.jobId = jobId) = some row) : CountersOk { s with
      done := s.done.filter (fun row => row.jobId ≠ jobId), deltas :=
  s.deltas ++ [(row.deltaKey, -1)] } := by
  have only : (s.done.filter fun row => row.jobId = jobId) = [row] := by
    rw [← head?_filter] at found
    obtain ⟨rest, rows⟩ := head?_eq_some_iff.1 found
    have short := single
    rw [SingleRow, rows, length_cons] at short
    rw [rows, eq_nil_of_length_eq_zero (by omega : rest.length = 0)]
  have booked := balance_append s.deltas ([row].map fun row => (row.deltaKey, (-1 : Int)))
  refine ok.change (fun p => booked _) fun p => ?_
  have split := countP_filter_add s.done (fun row => row.jobId = jobId) p
  rw [only] at split
  simp only [ne_eq, decide_not]
  omega

theorem tombstoned_iff (completions : CompletionsOk s.completions s.tombstones)
    {item : CompletedItem}
    (mem : item ∈ s.completions) : s.tombstoned item ↔ item ∈ s.tombstones := by
  unfold tombstoned
  constructor
  · intro hit
    obtain ⟨tomb, present, same⟩ := any_eq_true.1 hit
    have attempt : tomb.attempt = item.attempt := by simp_all
    rwa [← inj_on_of_nodup_map completions.distinct (completions.known tomb present) mem attempt]
  · intro present
    exact any_eq_true.2 ⟨item, present, by simp⟩

theorem CountersOk.deleteJob (ok : s.CountersOk) (single : s.SingleRow jobId) :
    (s.deleteJob jobId).CountersOk := by
  unfold CounterState.deleteJob
  split
  next row found => exact ok.deleteRow single found
  next =>
    split
    · exact ok
    next item found =>
      split
      · exact ok
      · obtain ⟨mem, fresh⟩ := mem_filter.1 (argmax_mem found)
        have absent : item ∉ s.tombstones := by
          rw [← tombstoned_iff ok.completions mem]
          simp_all
        refine ⟨ok.sums, ok.countKeys, ⟨ok.completions.distinct, ?_, ?_⟩, ok.rollups⟩
        · exact List.Nodup.append ok.completions.tombstonesDistinct (nodup_singleton _)
            (by simpa using absent)
        · simpa [or_imp, forall_and] using ⟨ok.completions.known, mem⟩

theorem CountersOk.insertCompletions (ok : s.CountersOk) {items : List CompletedItem}
    {s' : CounterState} (step : s.insertCompletions items = some s') : s'.CountersOk := by
  unfold CounterState.insertCompletions at step
  obtain ⟨⟨-, distinct⟩, rfl⟩ := guard_eq_some step
  exact ⟨ok.sums, ok.countKeys, ⟨distinct, ok.completions.tombstonesDistinct,
    fun tomb mem => mem_append_left _ (ok.completions.known tomb mem)⟩, ok.rollups⟩

def OneGeneration (s : CounterState) (slotCount slot : Nat) : Prop :=
  ∀ entry ∈ s.deltas, entry.1.ref.slot = slot → s.ringSlotGeneration slotCount slot =
    some entry.1.ref.generation

instance (s : CounterState) (slotCount slot : Nat) :
    Decidable (s.OneGeneration slotCount slot) := by
  unfold OneGeneration
  infer_instance

theorem OneGeneration.pending {slotCount generation : Nat} (one : s.OneGeneration slotCount slot)
    (sealed_ : s.ringSlotGeneration slotCount slot = some generation) :
    (s.deltas.filter fun entry => entry.1.ref = ⟨slot, generation⟩) =
      s.deltas.filter fun entry => entry.1.ref.slot = slot := by
  refine filter_congr fun entry mem => decide_eq_decide.2 ?_
  constructor
  · intro same
    rw [same]
  · intro same
    have current := one entry mem same
    rw [sealed_, Option.some.injEq] at current
    rw [← same, current]

theorem balance_slot (slot : Nat) (p : CountKey → Bool) :
    (balance (s.deltas.filter fun entry => entry.1.ref.slot = slot) fun key => p key.countKey) +
        (balance (s.deltas.filter fun entry => entry.1.ref.slot ≠ slot) fun key => p key.countKey) =
      balance s.deltas fun key => p key.countKey := by
  rw [balance_filter s.deltas (fun key => key.ref.slot = slot),
    balance_filter s.deltas (fun key => key.ref.slot ≠ slot),
    balance_split s.deltas (fun key => key.ref.slot = slot) fun key => p key.countKey]
  simp only [ne_eq, decide_not]

/-- A bucket with its pending deltas counts rows, so no clamp takes effect. -/
theorem CountersOk.bucket_nonneg (ok : s.CountersOk) (columns : s.authority = .columns)
    (key : CountKey) :
    0 ≤ (balance s.counts fun other => other = key) + balance s.deltas fun other =>
      other.countKey = key := by
  have sums := ok.sums fun other => other = key
  rw [columns] at sums
  change (balance s.counts fun other => other = key) +
    (balance s.deltas fun other => other.countKey = key) = _ at sums
  rw [sums]
  exact Int.natCast_nonneg _

/-- What a rollup of the slot has grouped under a bucket is all that is pending for it. -/
theorem mem_slot_netted {entry : CountKey × Int}
    (mem : entry ∈ netted ((s.deltas.filter fun entry => entry.1.ref.slot = slot).map fun entry =>
      (entry.1.countKey, entry.2))) :
    entry.2 = (balance s.deltas fun key => key.countKey = entry.1) ∧ entry.2 ≠ 0 := by
  obtain ⟨grouped, nonzero⟩ := mem_filter.1 mem
  have amount := mem_regroup grouped
  obtain ⟨delta, pending, key⟩ : ∃ delta ∈ s.deltas.filter fun entry => entry.1.ref.slot = slot,
      delta.1.countKey = entry.1 := by
    have present := mem_map_of_mem (f := Prod.fst) grouped
    rw [regroup_keys, mem_dedup, map_map] at present
    exact mem_map.1 present
  have ofSlot : entry.1.slot = slot := by
    rw [← key]
    exact of_decide_eq_true (mem_filter.1 pending).2
  rw [balance_mapKey DeltaKey.countKey, balance_filter s.deltas fun key => key.ref.slot =
    slot] at amount
  refine ⟨amount.trans (balance_congr fun delta _ => ?_), of_decide_eq_true nonzero⟩
  by_cases same : delta.1.countKey = entry.1
  · have slots : delta.1.ref.slot = slot := (congrArg CountKey.slot same).trans ofSlot
    simp [same, slots]
  · simp [same]

theorem CountersOk.foldBuckets_eq (ok : s.CountersOk) (columns : s.authority = .columns)
    (slot : Nat) :
    let grouped := netted ((s.deltas.filter fun entry => entry.1.ref.slot = slot).map fun entry =>
      (entry.1.countKey, entry.2))
    (∀ p, balance (s.foldBuckets grouped) p = balance s.counts p + balance grouped p) ∧
      ((s.foldBuckets grouped).map Prod.fst).Nodup := by
  intro grouped
  have kept : ((unbooked s.counts grouped).filter fun entry => 0 < entry.2) =
      unbooked s.counts grouped := by
    refine filter_eq_self.2 fun entry mem => ?_
    obtain ⟨present, absent⟩ := mem_filter.1 mem
    obtain ⟨amount, nonzero⟩ := mem_slot_netted present
    have empty : (balance s.counts fun other => other = entry.1) = 0 :=
      balance_eq_zero fun row booked => decide_eq_false fun same =>
        of_decide_eq_true absent (same ▸ mem_map_of_mem booked)
    have bound := ok.bucket_nonneg columns entry.1
    rw [empty, ← amount] at bound
    simp only [decide_eq_true_eq]
    omega
  unfold foldBuckets
  rw [kept]
  refine ⟨balance_credit (ok.countKeys columns) (netted_keys_nodup _) fun row mem amount booked =>
    ?_, ?_⟩
  · have bound := ok.bucket_nonneg columns row.1
    rw [balance_row (ok.countKeys columns) mem, ← (mem_slot_netted booked).1] at bound
    exact max_eq_right bound
  · rw [map_append, creditRows_keys]
    exact (ok.countKeys columns).append ((filter_sublist.map _).nodup (netted_keys_nodup _))
      (unbooked_disjoint _ _)

theorem balance_foldLanes (slot : Nat) (p : CountKey → Bool) :
    let grouped := netted ((s.deltas.filter fun entry => entry.1.ref.slot = slot).map fun entry =>
      (entry.1.countKey.perLane, entry.2))
    (balance (s.foldLanes grouped) fun key => p key.perLane) =
      (balance s.counts fun key => p key.perLane) + balance grouped fun key => p key.perLane := by
  intro grouped
  have distinct : (grouped.map Prod.fst).Nodup := netted_keys_nodup _
  unfold foldLanes
  rw [balance_append, balance_nonzero, ← balance_append]
  exact balance_collapse CountKey.perLane distinct fun _ => rfl

theorem CountersOk.foldSlot (ok : s.CountersOk) (slot : Nat) : CountersOk { s with
      counts := s.foldDeltas (s.deltas.filter fun entry => entry.1.ref.slot = slot)
      deltas := s.deltas.filter fun entry => entry.1.ref.slot ≠ slot } := by
  cases authority : s.authority with
  | columns =>
    obtain ⟨balanced, keys⟩ := ok.foldBuckets_eq authority slot
    refine ⟨fun p => ?_, fun _ => ?_, ok.completions, ok.rollups⟩
    · have before := ok.sums p
      simp only [foldDeltas, authority, RingAuthority.precision] at before ⊢
      rw [balanced, balance_netted, balance_mapKey DeltaKey.countKey, add_assoc,
        balance_slot, before]
    · simpa only [foldDeltas, authority] using keys
  | ledger =>
    refine ⟨fun p => ?_, fun columns => (by cases columns), ok.completions,
      ok.rollups⟩
    have before := ok.sums p
    simp only [foldDeltas, authority, RingAuthority.precision] at before ⊢
    rw [balance_foldLanes, balance_netted,
      balance_mapKey fun key : DeltaKey => key.countKey.perLane, add_assoc]
    simp only [perLane_perLane]
    rw [balance_slot slot fun key => p key.perLane, before]

theorem CountersOk.rollup (ok : s.CountersOk) {slotCount : Nat}
    (one : s.OneGeneration slotCount slot) {s' : CounterState}
    (step : s.rollupTerminalCountDeltaSlot slotCount slot = some s') : s'.CountersOk := by
  unfold rollupTerminalCountDeltaSlot at step
  split at step
  · cases step
  obtain ⟨generation, sealed_, rfl⟩ := Option.map_eq_some_iff.1 step
  rw [one.pending sealed_]
  by_cases empty : (s.deltas.filter fun entry => entry.1.ref.slot = slot) = []
  · simp only [empty, if_true]
    exact ok
  · simp only [empty, if_false]
    exact ok.foldSlot slot

theorem CountersOk.rebuild (ok : s.CountersOk) : s.rebuildTerminalCounters.CountersOk := by
  refine ⟨fun p => ?_, fun _ => regroup_keys_nodup _, ok.completions, ok.rollups⟩
  have written : (fun row : CountedRow =>
      (if s.authority = .ledger then row.deltaKey.countKey.perLane else row.deltaKey.countKey,
        (1 : Int))) = fun row => (s.authority.precision row.deltaKey.countKey, 1) := by
    cases s.authority <;> rfl
  simp only [rebuildTerminalCounters]
  rw [balance_regroup, written, balance_rows]
  simp

theorem CountersOk.flip (ok : s.CountersOk) : CountersOk { s with authority := .ledger } := by
  refine ⟨fun p => ?_, fun columns => (by cases columns), ok.completions,
    ok.rollups⟩
  have before := ok.sums fun key => p key.perLane
  cases authority : s.authority <;> rw [authority] at before <;> exact before

theorem clampedSum_eq {old delta : Int × Int} (first : 0 ≤ old) (second : 0 ≤ delta) :
    clampedSum old delta = old + delta := by
  obtain ⟨old1, old2⟩ := le_def.1 first
  obtain ⟨delta1, delta2⟩ := le_def.1 second
  exact Prod.ext (max_eq_right (add_nonneg old1 delta1)) (max_eq_right (add_nonneg old2 delta2))

theorem CountersOk.grouped_nonneg (ok : s.CountersOk) :
    ∀ entry ∈ s.groupedRollupDeltas, 0 ≤ entry.2 :=
  regroup_nonneg fun entry mem => ok.rollups.pending entry (mem_filter.1 mem).1

theorem CountersOk.balance_fold (ok : s.CountersOk) (p : RollupKey → Bool) :
    balance s.foldTerminalRollupDeltas.rollups p = balance s.rollups p +
      balance s.rollupDeltas p := by
  have credited := balance_credit ok.rollups.keys (regroup_keys_nodup _)
      (fun row mem amount booked =>
    clampedSum_eq (ok.rollups.folded row mem) (ok.grouped_nonneg (row.1, amount) booked)) p
  rw [balance_regroup, balance_nonzero] at credited
  exact credited

theorem CountersOk.fold (ok : s.CountersOk) : s.foldTerminalRollupDeltas.CountersOk := by
  refine ⟨ok.sums, ok.countKeys, ok.completions, ?_, ?_, by simp [foldTerminalRollupDeltas]⟩
  · simp only [foldTerminalRollupDeltas, map_append, creditRows_keys]
    exact ok.rollups.keys.append ((filter_sublist.map _).nodup (regroup_keys_nodup _))
      (unbooked_disjoint _ _)
  · intro row mem
    rcases mem_append.1 mem with credited | fresh
    · rcases mem_creditRows credited with kept | ⟨old, -, amount, rfl⟩
      · exact ok.rollups.folded row kept
      · exact le_def.2 ⟨le_max_left _ _, le_max_left _ _⟩
    · exact ok.grouped_nonneg row (mem_filter.1 fresh).1

theorem oldest_ne_current {slotCount : Nat}
    (oldest : s.oldestInitializedRingSlot slotCount = some slot) :
    s.generation % slotCount ≠ slot := by
  obtain ⟨ref, found, rfl⟩ := Option.map_eq_some_iff.1 oldest
  obtain ⟨back, few, positive, -, place⟩ :=
    RingRef.oldest_eq_some (fun several => Nat.mod_lt _ several) found
  intro same
  have current : (s.cursor slotCount).slot = ref.slot := same
  rw [place] at current
  split at current <;> omega

section Prune
variable {slotCount slot failedRetention : Nat}

theorem mem_carriedRows {row : CountedRow}
    (mem : row ∈ s.carriedRows slotCount slot failedRetention) : row.ref = s.cursor slotCount := by
  obtain ⟨old, -, rfl⟩ := mem_map.1 mem
  rfl

section
variable (oldest : s.oldestInitializedRingSlot slotCount = some slot)
include oldest

theorem carriedRows_kept :
      ((s.carriedRows slotCount slot failedRetention).filter fun row => row.ref.slot ≠ slot) =
      s.carriedRows slotCount slot failedRetention := by
  refine filter_eq_self.2 fun row mem => decide_eq_true ?_
  rw [mem_carriedRows mem]
  exact oldest_ne_current oldest

theorem carriedDeltas_kept :
    ((s.carriedDeltas slotCount slot failedRetention).filter fun entry => entry.1.ref.slot ≠ slot) =
      s.carriedDeltas slotCount slot failedRetention := by
  refine filter_eq_self.2 fun entry mem => decide_eq_true ?_
  have key := mem_map_of_mem (f := Prod.fst) mem
  rw [carriedDeltas, regroup_keys, mem_dedup, map_map] at key
  obtain ⟨row, carried, same⟩ := mem_map.1 key
  rw [← same]
  change row.ref.slot ≠ slot
  rw [mem_carriedRows carried]
  exact oldest_ne_current oldest

theorem Exact.prune (sums : Exact s.authority s.counts s.deltas s.done) :
    let after := s.pruneSlot slotCount slot failedRetention
    Exact s.authority after.counts after.deltas after.done := by
  intro after p
  have before := sums fun key => key.slot ≠ slot && p key
  simp only [precision_slot] at before
  simp only [after, pruneSlot, filter_append, carriedRows_kept oldest, carriedDeltas_kept oldest,
    balance_append, countP_append]
  rw [balance_filter s.counts fun key => key.slot ≠ slot,
    balance_filter s.deltas fun key => key.ref.slot ≠ slot,
    countP_filter, carriedDeltas, balance_regroup, balance_rows]
  simp only [Bool.and_comm] at before ⊢
  push_cast
  rw [one_mul, ← add_assoc]
  exact congrArg (· + _) before

end

theorem prunedCounts_nonneg : ∀ entry ∈ s.prunedCounts slot failedRetention, 0 ≤ entry.2 := by
  intro entry mem
  rcases mem_append.1 mem with ofRow | ofItem
  · obtain ⟨row, -, rfl⟩ := mem_map.1 ofRow
    simp only
    split <;> decide
  · obtain ⟨item, -, rfl⟩ := mem_map.1 ofItem
    simp only
    decide

theorem CountersOk.pruneOldest (ok : s.CountersOk) {s' : CounterState}
    (step : s.pruneOldest slotCount failedRetention = some s') : s'.CountersOk := by
  unfold CounterState.pruneOldest at step
  obtain ⟨slot, oldest, step⟩ := Option.bind_eq_some_iff.1 step
  obtain ⟨-, rfl⟩ := guard_eq_some step
  refine ⟨Exact.prune oldest ok.sums, fun columns => (filter_sublist.map _).nodup
    (ok.countKeys columns), ?_, ?_⟩
  · refine ⟨(filter_sublist.map _).nodup ok.completions.distinct,
      ok.completions.tombstonesDistinct.filter _, ?_⟩
    intro tomb mem
    obtain ⟨present, kept⟩ := mem_filter.1 mem
    exact mem_filter.2 ⟨ok.completions.known tomb present, kept⟩
  · refine ⟨ok.rollups.keys, ok.rollups.folded, fun entry mem => ?_⟩
    rcases mem_append.1 mem with old | new
    · exact ok.rollups.pending entry old
    · exact regroup_nonneg prunedCounts_nonneg entry (mem_filter.1 new).1

end Prune

def openCompletions (s : CounterState) : List CompletedItem := s.completions.filter fun item =>
    !s.tombstoned item

def terminalFacts (s : CounterState) (queues : List Nat) : Int :=
  let pruned := balance s.rollups (fun key => key.1 ∈ queues) + balance s.rollupDeltas fun key =>
    key.1 ∈ queues
  pruned.1 + pruned.2 + (s.done.countP fun row => row.lane.queue ∈ queues : Nat) +
    (s.openCompletions.countP fun item => item.lane.queue ∈ queues : Nat)

theorem CountersOk.countP_completions (ok : s.CountersOk) (p : CompletedItem → Bool) :
    s.completions.countP p = s.tombstones.countP p + s.openCompletions.countP p := by
  have perm : (s.completions.filter s.tombstoned).Perm s.tombstones := by
    refine (perm_ext_iff_of_nodup ((ok.completions.distinct.of_map _).filter _)
      ok.completions.tombstonesDistinct).2 fun item => ?_
    rw [mem_filter]
    constructor
    · intro ⟨mem, hit⟩
      exact (tombstoned_iff ok.completions mem).1 hit
    · intro present
      have mem := ok.completions.known item present
      exact ⟨mem, (tombstoned_iff ok.completions mem).2 present⟩
  rw [← countP_filter_add s.completions s.tombstoned p, perm.countP_eq]
  rfl

theorem CountersOk.terminalTotal_eq (ok : s.CountersOk) (queues : List Nat) :
    s.terminalTotal queues = s.terminalFacts queues := by
  have clamped : (s.rollups.map fun row => (row.1, (max 0 row.2.1, row.2.2))) = s.rollups := by
    refine (map_congr_left fun row mem => ?_).trans (map_id _)
    have nonneg : 0 ≤ row.2.1 := (le_def.1 (ok.rollups.folded row mem)).1
    rw [max_eq_right nonneg]
    rfl
  have lanes := ok.lane fun lane => lane.queue ∈ queues
  have compact := ok.countP_completions fun item => item.lane.queue ∈ queues
  simp only [terminalTotal, terminalFacts, clamped]
  rw [lanes, compact]
  push_cast
  omega

theorem CountersOk.terminalFacts_fold (ok : s.CountersOk) (queues : List Nat) :
    s.foldTerminalRollupDeltas.terminalFacts queues = s.terminalFacts queues := by
  simp only [terminalFacts, ok.balance_fold]
  simp [foldTerminalRollupDeltas, openCompletions, tombstoned]

section Prune
variable {slotCount slot failedRetention : Nat}

theorem balance_prunedCounts (slot failedRetention : Nat) (p : Nat → Bool) :
    (balance (s.prunedCounts slot failedRetention) fun key => p key.1).1 +
        (balance (s.prunedCounts slot failedRetention) fun key => p key.1).2 =
      ((s.done.filter fun row => row.ref.slot = slot && !s.retained failedRetention row).countP
        fun row =>
          p row.lane.queue : Nat) +
        ((s.openCompletions.filter fun item => item.ref.slot = slot).countP fun item =>
          p item.lane.queue : Nat) := by
  have rows := balance_units (s.done.filter fun row => row.ref.slot = slot &&
    !s.retained failedRetention row)
    (fun row => row.lane.rollupKey) (fun row => if row.state = .failed then (0, 1) else (1, 0))
    (fun row => by split <;> rfl) fun key => p key.1
  have items := balance_units (s.completions.filter fun item => item.ref.slot = slot &&
    !s.tombstoned item)
    (fun item => item.lane.rollupKey) (fun _ => (1, 0)) (fun _ => rfl) fun key => p key.1
  have same : (s.openCompletions.filter fun item => item.ref.slot = slot) =
      s.completions.filter fun item => item.ref.slot = slot && !s.tombstoned item := by
    simp only [openCompletions, filter_filter]
  unfold prunedCounts
  rw [balance_append, fst_add, snd_add, same]
  simp only [Lane.rollupKey] at rows items ⊢
  omega

theorem countP_pruneSlot_done (failedRetention : Nat)
    (oldest : s.oldestInitializedRingSlot slotCount = some slot) (p : Lane → Bool) :
    ((s.pruneSlot slotCount slot failedRetention).done.countP fun row => p row.lane) +
        ((s.done.filter fun row => row.ref.slot = slot && !s.retained failedRetention row).countP
      fun row => p row.lane) = s.done.countP fun row => p row.lane := by
  have slots := countP_filter_add s.done (fun row => row.ref.slot = slot) fun row => p row.lane
  have retained := countP_filter_add (s.done.filter fun row => row.ref.slot = slot)
    (s.retained failedRetention) fun row => p row.lane
  simp only [filter_filter, Bool.and_comm] at retained
  have carried : ((s.carriedRows slotCount slot failedRetention).countP fun row => p row.lane) =
      (s.done.filter fun row => row.ref.slot = slot && s.retained failedRetention row).countP
        fun row => p row.lane :=
    countP_map
  simp only [pruneSlot, filter_append, carriedRows_kept oldest, countP_append, carried]
  simp only [ne_eq, decide_not]
  omega

theorem openCompletions_pruneSlot : (s.pruneSlot slotCount slot failedRetention).openCompletions =
      s.openCompletions.filter fun item => item.ref.slot ≠ slot := by
  have others : ∀ item : CompletedItem, item.ref.slot ≠ slot →
      (s.pruneSlot slotCount slot failedRetention).tombstoned item = s.tombstoned item := by
    intro item other
    simp only [tombstoned, pruneSlot, any_filter]
    congr 1
    funext tomb
    by_cases same : tomb.ref = item.ref <;> simp [same, other]
  change (s.completions.filter fun item => item.ref.slot ≠ slot).filter _ =
    (s.completions.filter _).filter _
  rw [filter_filter, filter_filter]
  refine filter_congr fun item _ => ?_
  by_cases other : item.ref.slot = slot
  · simp [other]
  · simp [other, others item other]

theorem terminalFacts_prune (oldest : s.oldestInitializedRingSlot slotCount = some slot)
    (queues : List Nat) :
    (s.pruneSlot slotCount slot failedRetention).terminalFacts queues = s.terminalFacts queues := by
  have pruned := balance_prunedCounts (s := s) slot failedRetention fun queue => queue ∈ queues
  have rows := countP_pruneSlot_done failedRetention oldest fun lane => lane.queue ∈ queues
  have items := countP_filter_add s.openCompletions (fun item => item.ref.slot = slot) fun item =>
    item.lane.queue ∈ queues
  have appended : (balance (s.pruneSlot slotCount slot failedRetention).rollupDeltas fun key =>
      key.1 ∈ queues) = (balance s.rollupDeltas fun key => key.1 ∈ queues) +
        balance (s.prunedCounts slot failedRetention) fun key => key.1 ∈ queues := by
    simp only [pruneSlot, balance_append, balance_netted]
  have folded : (s.pruneSlot slotCount slot failedRetention).rollups = s.rollups := rfl
  simp only [terminalFacts, openCompletions_pruneSlot, appended, folded, fst_add, snd_add,
    ne_eq, decide_not]
  omega

end Prune
end CounterState

/-- A rollup finds one generation in its slot, and a job that is removed has one live row. -/
def CounterOp.Sound (slotCount : Nat) (op : CounterOp) (s : CounterState) : Prop :=
  match op with
  | .rollup slot => s.OneGeneration slotCount slot
  | .retryJob jobId | .moveFailedToDlq jobId | .deleteJob jobId => s.SingleRow jobId
  | _ => True

instance (slotCount : Nat) (op : CounterOp) (s : CounterState) :
    Decidable (op.Sound slotCount s) := by
  cases op <;> unfold CounterOp.Sound <;> infer_instance

def CounterOp.changesTerminals : CounterOp → Bool
  | .insertDoneRows _ | .insertCompletions _ | .retryJob _ | .moveFailedToDlq _ | .removeFailed _ _
  | .deleteJob _ => true
  | _ => false

variable {slotCount : Nat} {s s' : CounterState} {op : CounterOp}

theorem CounterState.CountersOk.step (ok : s.CountersOk) (sound : op.Sound slotCount s)
    (step : counterStep slotCount op s = some s') : s'.CountersOk := by
  have rest : ∀ generation stamped now, CounterState.CountersOk { s with
      generation := generation, stamped := stamped, now := now } :=
    fun _ _ _ => { ok with }
  cases op with
  | insertDoneRows rows => exact ok.insertDoneRows step
  | insertCompletions items => exact ok.insertCompletions step
  | rollup slot => exact ok.rollup sound step
  | prune failedRetention => exact ok.pruneOldest step
  | rotate =>
    simp only [counterStep, CounterState.rotate] at step
    obtain ⟨-, rfl⟩ := guard_eq_some step
    exact rest _ _ _
  | stamp | tick seconds =>
    cases step
    exact rest _ _ _
  | retryJob jobId | moveFailedToDlq jobId =>
    cases step
    exact ok.removeLatest sound _
  | removeFailed kind queue =>
    cases step
    exact ok.removeFailed kind queue
  | deleteJob jobId =>
    cases step
    exact ok.deleteJob sound
  | rebuild =>
    cases step
    exact ok.rebuild
  | fold =>
    cases step
    exact ok.fold
  | flipAuthority =>
    cases step
    exact ok.flip

theorem CounterState.CountersOk.terminalFacts_step (ok : s.CountersOk)
    (maintains : op.changesTerminals = false)
    (step : counterStep slotCount op s = some s') (queues : List Nat) :
    s'.terminalFacts queues = s.terminalFacts queues := by
  cases op with
  | rollup slot =>
    simp only [counterStep, CounterState.rollupTerminalCountDeltaSlot] at step
    split at step
    · cases step
    · obtain ⟨generation, -, rfl⟩ := Option.map_eq_some_iff.1 step
      split <;> rfl
  | prune failedRetention =>
    simp only [counterStep, CounterState.pruneOldest] at step
    obtain ⟨slot, oldest, step⟩ := Option.bind_eq_some_iff.1 step
    obtain ⟨-, rfl⟩ := guard_eq_some step
    exact CounterState.terminalFacts_prune oldest queues
  | rotate =>
    simp only [counterStep, CounterState.rotate] at step
    obtain ⟨-, rfl⟩ := guard_eq_some step
    rfl
  | fold =>
    cases step
    exact ok.terminalFacts_fold queues
  | stamp | tick | rebuild | flipAuthority =>
    cases step
    rfl
  | insertDoneRows | insertCompletions | retryJob | moveFailedToDlq | removeFailed | deleteJob =>
    cases maintains

theorem reachable_countersOk (reached : (counterMachine slotCount).Reachable
    (CounterOp.Sound slotCount) s) : s.CountersOk := by
  refine reached.invariant ?_ fun _ _ _ _ ok sound step => ok.step sound step
  rintro _ ⟨authority, rfl⟩
  exact CounterState.countersOk_initial authority

/-- The counters of every lane sum to its live rows, the reported total counts the terminal facts,
and only terminal inserts and removals change it. -/
theorem terminal_counts_conserved (reached : (counterMachine slotCount).Reachable
    (CounterOp.Sound slotCount) s) :
      (∀ lane, (balance s.counts fun key => key.lane = lane) +
      (balance s.deltas fun key => key.lane = lane) =
      (s.done.countP fun row => row.lane = lane : Nat)) ∧
    (∀ queues, s.terminalTotal queues = s.terminalFacts queues) ∧
    ∀ op s', op.Sound slotCount s → op.changesTerminals = false →
      counterStep slotCount op s = some s' →
      ∀ queues, s'.terminalTotal queues = s.terminalTotal queues := by
  have ok := reachable_countersOk reached
  refine ⟨fun lane => ok.lane fun other => other = lane, ok.terminalTotal_eq, ?_⟩
  intro op s' sound maintains step queues
  rw [(ok.step sound step).terminalTotal_eq, ok.terminalTotal_eq,
    ok.terminalFacts_step maintains step]

def sampleRow (ref : RingRef) (jobId : Nat) (state : JobState) : CountedRow :=
  ⟨ref, ⟨0, 2, 0⟩, jobId, jobId, 0, state, 0⟩

theorem terminal_counts_conserved_carry :
    ∃ s, (counterMachine 4).Reachable (CounterOp.Sound 4) s ∧ s.counts = [] ∧
      s.rollupDeltas = [((0, 2), (1, 0))] ∧ s.terminalTotal [0] = 2 ∧ s.terminalFacts [0] = 2 := by
  obtain ⟨s, reached, counts, pruned, total⟩ := Machine.reachable_of_run (counterMachine 4)
    (CounterOp.Sound 4) [.stamp, .insertDoneRows [sampleRow ⟨0, 0⟩ 1 .completed,
      sampleRow ⟨0, 0⟩ 2 .failed, sampleRow ⟨0, 0⟩ 3 .failed], .insertCompletions
        [⟨⟨0, 0⟩, ⟨0, 2, 0⟩, ⟨4, 1⟩, 0⟩], .rotate, .rollup 0, .retryJob 3, .flipAuthority,
        .deleteJob 4,
      .rollup 0, .insertCompletions [⟨⟨0, 0⟩, ⟨0, 2, 0⟩, ⟨4, 2⟩, 0⟩], .deleteJob 1,
        .rebuild, .prune 60]
    (s := .initial .columns) (fun s => s.counts = [] ∧ s.rollupDeltas = [((0, 2), (1, 0))] ∧
      s.terminalTotal [0] = 2)
    ⟨.columns, rfl⟩ (by decide)
  exact ⟨s, reached, counts, pruned, total,
    ((terminal_counts_conserved reached).2.1 [0]).symm.trans total⟩

/-- The ring of four slots laps between the read of the cursor by a terminal writer and its insert:
the rollup of the slot folds the row of the new generation and truncates both deltas. -/
theorem rollup_drops_delta :
    ∃ s s', (counterMachine 4).Reachable Machine.Always s ∧ counterStep 4 (.rollup 0) s = some s' ∧
      s.terminalTotal [0] = 3 ∧ s'.terminalTotal [0] = 2 ∧ s'.done.length = 2 ∧
      (balance s'.counts fun _ => true) + (balance s'.deltas fun _ => true) = 1 := by
  obtain ⟨s, reached, hit⟩ := Machine.reachable_of_run (counterMachine 4) Machine.Always
    [.stamp, .insertDoneRows [sampleRow ⟨0, 0⟩ 1 .completed], .rotate, .rotate, .rotate, .prune 0,
      .rotate, .stamp, .insertDoneRows [sampleRow ⟨0, 4⟩ 3 .completed],
        .insertDoneRows [sampleRow ⟨0, 0⟩ 4 .cancelled], .rotate]
    (s := .initial .ledger)
    (fun s => decide (s.terminalTotal [0] = 3) &&
        (counterStep 4 (.rollup 0) s).any fun s' : CounterState =>
      decide (s'.terminalTotal [0] = 2 ∧ s'.done.length = 2 ∧
        (balance s'.counts fun _ => true) + (balance s'.deltas fun _ => true) = 1))
    ⟨.ledger, rfl⟩ (by decide)
  obtain ⟨before, after⟩ := Bool.and_eq_true_iff.1 hit
  cases step : counterStep 4 (.rollup 0) s with
  | none => simp [step] at after
  | some s' =>
    rw [step] at after
    exact ⟨s, s', reached, step, of_decide_eq_true before, of_decide_eq_true after⟩

end AwaQueue
