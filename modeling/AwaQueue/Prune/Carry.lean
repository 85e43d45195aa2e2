import AwaQueue.Prune.Tables
import AwaQueue.Counters.Conservation

/-! What a prune leaves. A failed row inside the retention floor moves to the current position and
reads as before, every other terminal row of the slot is added to the rollups once, and the other
slots keep their rows.

A carried row finds no ready row in its new position, since the numbers of a lane are given out
once. That holds for rows that stand under the lane of their ready row. -/

namespace AwaQueue.Prune

open List Library
open Payload (PayloadValue terminalStoragePayload readBack)

variable {s t : PruneState} {slotCount slot failedRetention : Nat} {d : DoneRow} {row : ReadyEntry}
  {lane : Lane} {laneSeq : Int} {ref : RingRef}

def PruneState.Placed (s : PruneState) (lane : Lane) (laneSeq : Int) (ref : RingRef) : Prop :=
  laneSeq < s.nextSeq lane ∧ ∀ row ∈ s.ready, row.lane = lane → (row.laneSeq : Int) = laneSeq →
    row.ref = ref

def DoneRow.Slim (d : DoneRow) : Prop :=
  d.args = none ∧ d.maxAttempts = none ∧ d.runAt = none ∧ d.createdAt = none ∧ d.uniqueKey = none ∧
    d.uniqueStates = none

def DoneRow.Stores (d : DoneRow) (kept : KeptColumns) : Prop :=
  d.args = some kept.args ∧ d.maxAttempts = some kept.maxAttempts ∧ d.runAt = some kept.runAt ∧
    d.createdAt = some kept.createdAt ∧ d.uniqueKey = kept.uniqueKey ∧
      d.uniqueStates = kept.uniqueStates

/-- A row that was settled from a ready row stands under its lane and number, and finds its columns
there or stores them. -/
structure PruneState.Backed (s : PruneState) (d : DoneRow) (row : ReadyEntry) : Prop where
  lane : d.lane = row.lane
  laneSeq : d.laneSeq = row.laneSeq
  own : ∀ other ∈ s.ready, other.lane = row.lane → other.laneSeq = row.laneSeq → other = row
  columns : (d.Slim ∧ row ∈ s.ready ∧ d.ref = row.ref) ∨ d.Stores (readyKept row)

structure PruneInv (s : PruneState) : Prop where
  issued : ∀ row ∈ s.ready, row.laneSeq < s.nextSeq row.lane
  distinct : (s.ready.map fun row => (row.lane, row.laneSeq)).Nodup
  running : ∀ a ∈ s.running, s.Placed a.row.lane a.row.laneSeq a.row.ref
  done : ∀ d ∈ s.done, s.Placed d.lane d.laneSeq d.ref
  backed : ∀ d ∈ s.done, ∀ row, d.source = some row → s.Backed d row

namespace PruneState

theorem Placed.mono (placed : s.Placed lane laneSeq ref) (fewer : ∀ row ∈ t.ready, row ∈ s.ready)
    (issued : t.nextSeq = s.nextSeq) : t.Placed lane laneSeq ref :=
  ⟨issued ▸ placed.1, fun row mem => placed.2 row (fewer row mem)⟩

theorem Backed.mono (backed : s.Backed d row) (fewer : ∀ row ∈ t.ready, row ∈ s.ready)
    (kept : d.ref = row.ref → row ∈ s.ready → row ∈ t.ready) : t.Backed d row where
  __ := backed
  own other mem := backed.own other (fewer other mem)
  columns := backed.columns.imp_left fun ⟨slim, mem, at_⟩ => ⟨slim, kept at_ mem, at_⟩

theorem readyAt_eq_some (found : s.readyAt ref lane laneSeq = some row) :
    row ∈ s.ready ∧ row.ref = ref ∧ row.lane = lane ∧ (row.laneSeq : Int) = laneSeq := by
  have hit := find?_some found
  simp only [Bool.and_eq_true, decide_eq_true_eq] at hit
  exact ⟨mem_of_find?_eq_some found, hit.1.1, hit.1.2, hit.2⟩

theorem Backed.read (backed : s.Backed d row) : (s.read d).kept = readyKept row := by
  have only : ∀ other, s.readyAt d.ref d.lane d.laneSeq = some other → other = row := by
    intro other found
    obtain ⟨mem, -, inLane, number⟩ := readyAt_eq_some found
    exact backed.own other mem (inLane.trans backed.lane)
      (by rw [backed.laneSeq] at number; exact_mod_cast number)
  rcases backed.columns with ⟨⟨args, maxAttempts, runAt, createdAt, uniqueKey, uniqueStates⟩, mem,
      at_⟩ | ⟨args, maxAttempts, runAt, createdAt, uniqueKey, uniqueStates⟩
  · have found : s.readyAt d.ref d.lane d.laneSeq = some row := by
      have hit : (s.readyAt d.ref d.lane d.laneSeq).isSome = true :=
        find?_isSome.2 ⟨row, mem, by simp [at_, backed.lane, backed.laneSeq]⟩
      obtain ⟨other, found⟩ := Option.isSome_iff_exists.1 hit
      rw [found, only other found]
    simp only [PruneState.read, found, doneRowProjection, DoneJobRow.kept, readyKept, args,
      maxAttempts, runAt, createdAt, uniqueKey, uniqueStates]
    rfl
  · simp only [PruneState.read, doneRowProjection, DoneJobRow.kept, readyKept, args, maxAttempts,
      runAt, createdAt, uniqueKey, uniqueStates]
    cases found : s.readyAt d.ref d.lane d.laneSeq with
    | none => simp
    | some other =>
      rw [only other found]
      simp

end PruneState

section
variable {s s' : PruneState}

theorem PruneInv.placed (inv : PruneInv s) (mem : row ∈ s.ready) :
    s.Placed row.lane row.laneSeq row.ref := by
  refine ⟨by exact_mod_cast inv.issued row mem, fun other there inLane number => ?_⟩
  have same : other = row := inj_on_of_nodup_map inv.distinct there mem
    (Prod.ext inLane (by exact_mod_cast number))
  rw [same]

theorem PruneInv.fewer (inv : PruneInv s) (ready : s'.ready = s.ready)
    (issued : s'.nextSeq = s.nextSeq) (running : ∀ a ∈ s'.running, a ∈ s.running)
    (done : ∀ d ∈ s'.done, d ∈ s.done) : PruneInv s' := by
  have same : ∀ row ∈ s'.ready, row ∈ s.ready := fun row mem => ready ▸ mem
  refine ⟨?_, ?_, fun a mem => (inv.running a (running a mem)).mono same issued,
    fun d mem => (inv.done d (done d mem)).mono same issued, fun d mem row settled => ?_⟩
  · rw [ready, issued]
    exact inv.issued
  · rw [ready]
    exact inv.distinct
  · exact (inv.backed d (done d mem) row settled).mono same fun _ there => ready ▸ there

theorem entry_slim {row : DoneJobRow} (nonneg : 0 ≤ row.laneSeq)
    (payload : Option (PayloadValue String)) (source : Option ReadyEntry) :
    (row.entry true payload source).Slim := by
  refine ⟨?_, ?_, ?_, ?_, ?_, ?_⟩ <;> simp [DoneJobRow.entry, nonneg]

theorem PruneInv.insertDoneRow (inv : PruneInv s) {row : DoneJobRow} {keep : Bool}
    {source : Option ReadyEntry} (step : s.insertDoneRow row keep source = some s')
    (placed : s.Placed row.lane row.laneSeq row.ref)
      (backed : ∀ ready, source = some ready → keep = true ∧ row.lane = ready.lane ∧
      row.laneSeq = ready.laneSeq ∧ row.ref = ready.ref ∧ ready ∈ s.ready) : PruneInv s' := by
  obtain ⟨-, rfl⟩ := guard_eq_some step
  refine ⟨inv.issued, inv.distinct, inv.running, fun d mem => ?_, fun d mem ready settled => ?_⟩
  · rcases mem_append.1 mem with old | new
    · exact inv.done d old
    · rw [mem_singleton.1 new]
      exact placed
  · rcases mem_append.1 mem with old | new
    · exact (inv.backed d old ready settled).mono (fun _ => id) fun _ => id
    · obtain rfl := mem_singleton.1 new
      obtain ⟨rfl, inLane, number, at_, there⟩ := backed ready settled
      have nonneg : 0 ≤ row.laneSeq := by omega
      refine ⟨inLane, number, fun other mem inLane number => ?_,
        .inl ⟨entry_slim nonneg _ source, there, at_⟩⟩
      exact inj_on_of_nodup_map inv.distinct mem there (Prod.ext inLane number)

theorem PruneInv.enqueue (inv : PruneInv s) (lane : Lane) (ref : RingRef) (runAt : Nat)
    (job : ReadyColumns) : PruneInv { s with
      ready := s.ready ++ [⟨lane, s.nextSeq lane, ref, runAt, job⟩]
      nextSeq := Function.update s.nextSeq lane (s.nextSeq lane + 1) } := by
  have later (other : Lane) :
      s.nextSeq other ≤ Function.update s.nextSeq lane (s.nextSeq lane + 1) other := by
    by_cases same : other = lane
    · subst same
      rw [Function.update_self]
      exact Nat.le_succ _
    · rw [Function.update_of_ne same]
  have placed {other : Lane} {number : Int} {ref' : RingRef} (before : s.Placed other number ref') :
      PruneState.Placed { s with
        ready := s.ready ++ [⟨lane, s.nextSeq lane, ref, runAt, job⟩]
        nextSeq := Function.update s.nextSeq lane (s.nextSeq lane + 1) } other number ref' := by
    refine ⟨lt_of_lt_of_le before.1 (by exact_mod_cast later other),
      fun row mem inLane number => ?_⟩
    rcases mem_append.1 mem with old | new
    · exact before.2 row old inLane number
    · -- the number of the new row is larger than any that was given out
      obtain rfl := mem_singleton.1 new
      subst inLane
      exact absurd before.1 (by rw [← number]; exact lt_irrefl _)
  refine ⟨fun row mem => ?_, ?_, fun a mem => placed (inv.running a mem),
    fun d mem => placed (inv.done d mem), fun d mem row settled => ?_⟩
  · rcases mem_append.1 mem with old | new
    · exact lt_of_lt_of_le (inv.issued row old) (later row.lane)
    · obtain rfl := mem_singleton.1 new
      simp
  · rw [map_append]
    refine nodup_append'.2 ⟨inv.distinct, nodup_singleton _, ?_⟩
    intro key old new
    rw [map_singleton, mem_singleton] at new
    obtain ⟨row, there, same⟩ := mem_map.1 old
    have equal := same.trans new
    rw [Prod.mk.injEq] at equal
    exact absurd (inv.issued row there) (by rw [equal.1, equal.2]; exact lt_irrefl _)
  · have before := inv.backed d mem row settled
    refine ⟨before.lane, before.laneSeq, fun other there inLane number => ?_,
      before.columns.imp_left ?_⟩
    · rcases mem_append.1 there with old | new
      · exact before.own other old inLane number
      · obtain rfl := mem_singleton.1 new
        have issued := (inv.done d mem).1
        rw [before.lane, before.laneSeq, ← inLane, ← number] at issued
        exact absurd issued (lt_irrefl _)
    · exact fun ⟨slim, there, at_⟩ => ⟨slim, mem_append_left _ there, at_⟩

theorem pruneOldest_eq_some (step : s.pruneOldest slotCount failedRetention = some s') :
    ∃ slot, s.counters.oldestInitializedRingSlot slotCount = some slot ∧
      s.counters.generation % slotCount ≠ slot ∧
      ((s.done ++ s.carriedRows slotCount slot failedRetention).map fun d => d.primaryKey).Nodup ∧
      s' = s.pruneSlot slotCount slot failedRetention := by
  obtain ⟨slot, oldest, step⟩ := Option.bind_eq_some_iff.1 step
  obtain ⟨⟨-, distinct⟩, rfl⟩ := guard_eq_some step
  exact ⟨slot, oldest, CounterState.oldest_ne_current oldest, distinct, rfl⟩

section
variable (current : s.counters.generation % slotCount ≠ slot)
include current

theorem pruneSlot_done : (s.pruneSlot slotCount slot failedRetention).done =
    (s.done.filter fun d => d.ref.slot ≠ slot) ++ s.carriedRows slotCount slot failedRetention := by
  have kept : ((s.carriedRows slotCount slot failedRetention).filter fun d => d.ref.slot ≠ slot) =
      s.carriedRows slotCount slot failedRetention := by
    refine filter_eq_self.2 ?_
    intro d mem
    obtain ⟨old, -, rfl⟩ := mem_map.1 mem
    exact decide_eq_true current
  exact (filter_append _ _).trans (congrArg _ kept)

theorem PruneInv.pruneSlot (inv : PruneInv s) :
    PruneInv (s.pruneSlot slotCount slot failedRetention) := by
  have fewer : ∀ row ∈ (s.pruneSlot slotCount slot failedRetention).ready, row ∈ s.ready :=
    fun row mem => (mem_filter.1 mem).1
  have others : ∀ row ∈ (s.pruneSlot slotCount slot failedRetention).ready, row.ref.slot ≠ slot :=
    fun row mem => of_decide_eq_true (mem_filter.1 mem).2
  refine ⟨fun row mem => inv.issued row (fewer row mem), (filter_sublist.map _).nodup inv.distinct,
    fun a mem => (inv.running a mem).mono fewer rfl, fun d mem => ?_, fun d mem row settled => ?_⟩
  · rw [pruneSlot_done current] at mem
    rcases mem_append.1 mem with old | carried
    · exact (inv.done d (mem_filter.1 old).1).mono fewer rfl
    · obtain ⟨before, there, rfl⟩ := mem_map.1 carried
      obtain ⟨there, inSlot⟩ := mem_filter.1 there
      have placed := inv.done before there
      refine ⟨placed.1, fun row mem inLane number => ?_⟩
      -- the ready row with its number, if any, was truncated
      have at_ := placed.2 row (fewer row mem) inLane number
      rw [Bool.and_eq_true, decide_eq_true_eq, ← at_] at inSlot
      exact absurd inSlot.1 (others row mem)
  · rw [pruneSlot_done current] at mem
    rcases mem_append.1 mem with old | carried
    · obtain ⟨there, other⟩ := mem_filter.1 old
      refine (inv.backed d there row settled).mono fewer fun at_ mem => mem_filter.2 ⟨mem, ?_⟩
      rw [← at_]
      exact other
    · obtain ⟨before, there, rfl⟩ := mem_map.1 carried
      have backed := inv.backed before (mem_filter.1 there).1 row settled
      have read := backed.read
      refine ⟨backed.lane, backed.laneSeq, fun other mem => backed.own other (fewer other mem),
        .inr ?_⟩
      rw [← read]
      exact ⟨rfl, rfl, rfl, rfl, rfl, rfl⟩

end

theorem pruneInv_step {op : PruneOp} (inv : PruneInv s) (meets : KeepsLane op s)
    (step : pruneStep slotCount op s = some s') : PruneInv s' := by
  cases op with
  | enqueue lane ref runAt job =>
    cases step
    exact inv.enqueue lane ref runAt job
  | claim row priority attemptedAt =>
    obtain ⟨⟨there, -⟩, rfl⟩ := guard_eq_some step
    refine ⟨inv.issued, inv.distinct, fun a mem => ?_, inv.done, fun d mem row settled => ?_⟩
    · rcases mem_append.1 mem with old | new
      · exact inv.running a old
      · obtain rfl := mem_singleton.1 new
        exact inv.placed there
    · exact (inv.backed d mem row settled).mono (fun _ => id) fun _ => id
  | complete a payload finalizedAt =>
    obtain ⟨running, step⟩ := Option.ite_none_right_eq_some.1 step
    have ended : PruneInv { s with running := s.running.erase a } :=
      inv.fewer rfl rfl (fun _ => mem_of_mem_erase) fun _ => id
    exact ended.insertDoneRow step ((inv.running a running).mono (fun _ => id) rfl)
      fun _ none => by cases none
  | settle a state payload finalizedAt =>
    obtain ⟨running, step⟩ := Option.ite_none_right_eq_some.1 step
    obtain ⟨row, found, step⟩ := Option.bind_eq_some_iff.1 step
    have ended : PruneInv { s with running := s.running.erase a } :=
      inv.fewer rfl rfl (fun _ => mem_of_mem_erase) fun _ => id
    obtain ⟨there, hit⟩ := mem_filter.1 (mem_of_getLast? found)
    simp only [Bool.and_eq_true, decide_eq_true_eq] at hit
    obtain ⟨⟨⟨⟨at_, queue⟩, shard⟩, number⟩, -⟩ := hit
    have aged : a.priority = row.lane.priority := by
      have all : (s.hydrate a).all (fun row => a.priority = row.lane.priority) = true := meets
      rw [found] at all
      exact of_decide_eq_true all
    have inLane : { a.row.lane with priority := a.priority } = row.lane := by
      change Lane.mk a.row.lane.queue a.priority a.row.lane.enqueueShard = row.lane
      rw [aged, ← queue, ← shard]
    have placed := inv.placed there
    rw [← inLane, number, at_] at placed
    refine ended.insertDoneRow step (placed.mono (fun _ => id) rfl) fun ready same => ?_
    cases same
    exact ⟨rfl, inLane, by rw [number]; rfl, at_.symm, there⟩
  | leave a =>
    cases step
    exact inv.fewer rfl rfl (fun _ => mem_of_mem_erase) fun _ => id
  | cancelReady row finalizedAt =>
    obtain ⟨there, step⟩ := Option.ite_none_right_eq_some.1 step
    exact inv.insertDoneRow step (inv.placed there) fun _ none => by cases none
  | insertSynthetic row =>
    obtain ⟨negative, step⟩ := Option.ite_none_right_eq_some.1 step
    refine inv.insertDoneRow step ⟨by omega, fun ready _ _ number => ?_⟩ fun _ none => by cases none
    omega
  | remove d =>
    cases step
    exact inv.fewer rfl rfl (fun _ => id) fun _ => mem_of_mem_erase
  | rebook books | tick seconds =>
    cases step
    exact inv.fewer rfl rfl (fun _ => id) fun _ => id
  | rotate =>
    obtain ⟨-, step⟩ := Option.ite_none_right_eq_some.1 step
    obtain ⟨counters, -, rfl⟩ := Option.map_eq_some_iff.1 step
    exact inv.fewer rfl rfl (fun _ => id) fun _ => id
  | prune failedRetention =>
    obtain ⟨slot, -, current, -, rfl⟩ := pruneOldest_eq_some step
    exact inv.pruneSlot current

theorem pruneInv_reachable (reached : (pruneMachine slotCount).Reachable KeepsLane s) :
    PruneInv s := by
  refine reached.invariant ?_ ?_
  · rintro s ⟨books, rfl⟩
    exact ⟨forall_mem_nil _, nodup_nil, forall_mem_nil _,
      forall_mem_nil _, forall_mem_nil _⟩
  · intro op s t _ inv meets step
    exact pruneInv_step inv meets step

def PruneState.prunedRows (s : PruneState) (slot failedRetention : Nat) : List DoneRow :=
  s.done.filter fun d => d.ref.slot = slot && !s.counters.retained failedRetention d.toCountedRow

def PruneState.prunedCompletions (s : PruneState) (slot : Nat) : List CompletedItem :=
  s.books.completions.filter fun item => item.ref.slot = slot && !s.counters.tombstoned item

def PruneState.Retained (s : PruneState) (slot failedRetention : Nat) (d : DoneRow) : Prop :=
  d ∈ s.done ∧ d.ref.slot = slot ∧ s.counters.retained failedRetention d.toCountedRow = true

/-- The row shows the columns of the ready row it was settled from, and a ready row that has its
number in the new position has nothing to add to it. -/
structure PruneState.Portable (s : PruneState) (current : RingRef) (d : DoneRow) : Prop where
  own : ∀ row, d.source = some row → (s.read d).kept = readyKept row
  attemptedAt : ∀ other, s.readyAt current d.lane d.laneSeq = some other →
    (s.read d).attemptedAt.or other.job.attemptedAt = (s.read d).attemptedAt
  uniqueKey : ∀ other, s.readyAt current d.lane d.laneSeq = some other →
    (s.read d).uniqueKey.or other.job.uniqueKey = (s.read d).uniqueKey
  uniqueStates : ∀ other, s.readyAt current d.lane d.laneSeq = some other →
    (s.read d).uniqueStates.or other.job.uniqueStates = (s.read d).uniqueStates

structure Pruned (s : PruneState) (slotCount slot failedRetention : Nat) (s' : PruneState) :
    Prop where
  /-- Every other row is counted in its column, under its queue and priority. -/
  counted : ∀ p : RollupKey → Bool, balance s'.books.rollupDeltas p =
    balance s.books.rollupDeltas p + (((((s.prunedRows slot failedRetention).filter fun d =>
        d.state ≠ .failed).countP fun d => p d.lane.rollupKey : Nat) : Int) +
        ((s.prunedCompletions slot).countP fun item => p item.lane.rollupKey : Nat),
      ((((s.prunedRows slot failedRetention).filter fun d => d.state = .failed).countP fun d =>
        p d.lane.rollupKey : Nat) : Int))
  folded : s'.books.rollups = s.books.rollups
  /-- Nothing else is in the tables: the rows of the other slots, and one row for each that was
  carried. -/
  done : s'.done = (s.done.filter fun d => d.ref.slot ≠ slot) ++ s.carriedRows slotCount slot
    failedRetention
  ready : s'.ready = s.ready.filter fun row => row.ref.slot ≠ slot
  running : s'.running = s.running
  completions : s'.books.completions = s.books.completions.filter fun item => item.ref.slot ≠ slot
  tombstones : s'.books.tombstones = s.books.tombstones.filter fun tomb => tomb.ref.slot ≠ slot
  counts : s'.books.counts = s.books.counts.filter fun row => row.1.slot ≠ slot
  deltas : s'.books.deltas = (s.books.deltas.filter fun entry => entry.1.ref.slot ≠ slot) ++
    s.counters.carriedDeltas slotCount slot failedRetention
  /-- The rows of the other slots read as before. -/
  others : ∀ d ∈ s.done, d.ref.slot ≠ slot → d ∈ s'.done ∧ s'.read d = s.read d

theorem balance_columns {α κ : Type*} (rows : List α) (key : α → κ) (second : α → Bool)
    (p : κ → Bool) :
    balance (rows.map fun row => (key row, if second row then ((0, 1) : Int × Int) else (1, 0))) p =
      ((((rows.filter fun row => !second row).countP fun row => p (key row) : Nat) : Int),
        (((rows.filter second).countP fun row => p (key row) : Nat) : Int)) := by
  induction rows with
  | nil => rfl
  | cons row rows ih =>
    rw [map_cons, balance_cons, ih]
    cases column : second row <;> cases hit : p (key row) <;> simp [column, hit, add_comm]

theorem balance_prunedKeys (p : RollupKey → Bool) :
    balance (s.counters.prunedCounts slot failedRetention) p =
        (((((s.prunedRows slot failedRetention).filter fun d => d.state ≠ .failed).countP fun d =>
        p d.lane.rollupKey : Nat) : Int) +
        ((s.prunedCompletions slot).countP fun item => p item.lane.rollupKey : Nat),
      ((((s.prunedRows slot failedRetention).filter fun d => d.state = .failed).countP fun d =>
        p d.lane.rollupKey : Nat) : Int)) := by
  have rows := balance_columns (s.prunedRows slot failedRetention) (fun d => d.lane.rollupKey)
    (fun d => d.state = .failed) p
  have items := balance_columns (s.prunedCompletions slot) (fun item => item.lane.rollupKey)
    (fun _ => false) p
  have split : s.counters.prunedCounts slot failedRetention =
      ((s.prunedRows slot failedRetention).map fun d => (d.lane.rollupKey, if d.state = .failed then
        ((0, 1) : Int × Int) else (1, 0))) ++
        (s.prunedCompletions slot).map fun item => (item.lane.rollupKey, ((1, 0) : Int × Int)) := by
    have done : s.counters.done = s.done.map DoneRow.toCountedRow := rfl
    rw [CounterState.prunedCounts, done, filter_map, map_map]
    rfl
  simp only [decide_eq_true_eq, Bool.false_eq_true, if_false, Bool.not_false, filter_true,
    filter_false, countP_nil] at rows items
  rw [split, balance_append, rows, items]
  simp

theorem readyAt_pruneSlot (other : ref.slot ≠ slot) (lane : Lane) (laneSeq : Int) :
    (s.pruneSlot slotCount slot failedRetention).readyAt ref lane laneSeq =
      s.readyAt ref lane laneSeq := by
  have same (row : ReadyEntry) :
      (decide (row.ref.slot ≠ slot) && (decide (row.ref = ref) && decide (row.lane = lane) &&
      decide ((row.laneSeq : Int) = laneSeq))) =
      (decide (row.ref = ref) && decide (row.lane = lane) &&
        decide ((row.laneSeq : Int) = laneSeq)) := by
    by_cases at_ : row.ref = ref
    · rw [at_, decide_eq_true other, Bool.true_and]
    · rw [decide_eq_false at_, Bool.false_and, Bool.false_and, Bool.and_false]
  unfold PruneState.readyAt PruneState.pruneSlot
  rw [find?_filter]
  simp only [← Bool.decide_and] at same ⊢
  simp [same]

theorem read_pruneSlot (other : d.ref.slot ≠ slot) :
    (s.pruneSlot slotCount slot failedRetention).read d = s.read d := by
  rw [PruneState.read, PruneState.read, readyAt_pruneSlot other]

/-- A carried row joins the ready row in its new position, if there is one. -/
theorem read_carried {current : RingRef} (other : current.slot ≠ slot) :
    (s.pruneSlot slotCount slot failedRetention).read ((s.read d).carried current d.source) =
      { s.read d with ref := current } ↔ (∀ row, s.readyAt current d.lane d.laneSeq = some row →
        (s.read d).attemptedAt.or row.job.attemptedAt = (s.read d).attemptedAt ∧
        (s.read d).uniqueKey.or row.job.uniqueKey = (s.read d).uniqueKey ∧
        (s.read d).uniqueStates.or row.job.uniqueStates = (s.read d).uniqueStates) := by
  have joined : (s.pruneSlot slotCount slot failedRetention).read
      ((s.read d).carried current d.source) = doneRowProjection
        ((s.read d).carried current d.source) (s.readyAt current d.lane d.laneSeq) :=
    congrArg (doneRowProjection _) (readyAt_pruneSlot other d.lane d.laneSeq)
  rw [joined]
  cases s.readyAt current d.lane d.laneSeq with
  | none => simp [doneRowProjection, DoneJobRow.carried, readBack]
  | some row =>
    constructor
    · rintro same _ ⟨⟩
      exact ⟨congrArg DoneJobRow.attemptedAt same, congrArg (·.uniqueKey) same,
        congrArg (·.uniqueStates) same⟩
    · intro alike
      obtain ⟨attemptedAt, uniqueKey, uniqueStates⟩ := alike row rfl
      simp [doneRowProjection, DoneJobRow.carried, readBack, attemptedAt, uniqueKey, uniqueStates]

/-- In its new position a row has a primary key of its own. -/
theorem eq_carried {d' : DoneRow} (current : s.counters.generation % slotCount ≠ slot)
    (distinct : ((s.done ++ s.carriedRows slotCount slot failedRetention).map fun d =>
    d.primaryKey).Nodup) (retained : s.Retained slot failedRetention d)
    (mem : d' ∈ (s.pruneSlot slotCount slot failedRetention).done)
    (place : d'.ref = s.counters.cursor slotCount ∧ d'.lane = d.lane ∧ d'.laneSeq = d.laneSeq) :
    d' = (s.read d).carried (s.counters.cursor slotCount) d.source := by
  obtain ⟨there, inSlot, kept⟩ := retained
  have carried : (s.read d).carried (s.counters.cursor slotCount) d.source ∈ s.carriedRows slotCount
      slot failedRetention :=
    mem_map_of_mem (mem_filter.2 ⟨there, by simp [inSlot, kept]⟩)
  rw [pruneSlot_done current] at mem
  have listed : d' ∈ s.done ++ s.carriedRows slotCount slot failedRetention :=
    (mem_append.1 mem).elim (fun old => mem_append_left _ (mem_filter.1 old).1) (mem_append_right _)
  apply inj_on_of_nodup_map distinct listed (mem_append_right _ carried)
  simp only [CountedRow.primaryKey, place.1, place.2.1, place.2.2]
  rfl

/-- For every content of the tables and every retention: the rows of the slot outside the retention
floor are counted once and the other slots are left alone; and the failed rows inside it read as
before, from the current position and with the columns of their ready rows, if and only if they are
portable. They are if no attempt was settled under an aged priority. -/
theorem prune_oldest_keeps (failedRetention : Nat)
    (stepped : s.pruneOldest slotCount failedRetention = some s') :
      ∃ slot, s.counters.oldestInitializedRingSlot slotCount = some slot ∧
      Pruned s slotCount slot failedRetention s' ∧
          ((∀ d, s.Retained slot failedRetention d → ∃ d' ∈ s'.done, s'.read d' =
          { s.read d with ref := s.counters.cursor slotCount } ∧
          ∀ row, d.source = some row → (s'.read d').kept = readyKept row) ↔
        ∀ d, s.Retained slot failedRetention d → s.Portable (s.counters.cursor slotCount) d) ∧
      ((pruneMachine slotCount).Reachable KeepsLane s →
        ∀ d, s.Retained slot failedRetention d → s.Portable (s.counters.cursor slotCount) d) := by
  obtain ⟨slot, oldest, current, distinct, rfl⟩ := pruneOldest_eq_some stepped
  have done : (s.pruneSlot slotCount slot failedRetention).done = _ := pruneSlot_done current
  refine ⟨slot, oldest, ?_, ⟨?_, ?_⟩, ?_⟩
  · exact
      { counted := fun p => by
          rw [← balance_prunedKeys, PruneState.pruneSlot, balance_append, balance_netted]
        folded := rfl
        done
        ready := rfl
        running := rfl
        completions := rfl
        tombstones := rfl
        counts := rfl
        deltas := (List.filter_append _ _).trans
          (congrArg _ (CounterState.carriedDeltas_kept oldest))
        others := fun d member other => ⟨by rw [done]; exact List.mem_append_left _ (mem_filter.2
          ⟨member, decide_eq_true other⟩), read_pruneSlot other⟩ }
  · intro alike d retained
    obtain ⟨d', there, read, own⟩ := alike d retained
    have place : d'.ref = s.counters.cursor slotCount ∧ d'.lane = d.lane ∧ d'.laneSeq = d.laneSeq :=
      ⟨congrArg (fun row : DoneJobRow => row.ref) read,
        congrArg (fun row : DoneJobRow => row.lane) read,
        congrArg (fun row : DoneJobRow => row.laneSeq) read⟩
    rw [eq_carried current distinct retained there place] at read own
    have joins := (read_carried current).1 read
    refine ⟨fun row settled => ?_, fun other found => (joins other found).1,
      fun other found => (joins other found).2.1, fun other found => (joins other found).2.2⟩
    rw [← own row settled, read]
    rfl
  · intro portable d retained
    have fits := portable d retained
    have read : (s.pruneSlot slotCount slot failedRetention).read
        ((s.read d).carried (s.counters.cursor slotCount) d.source) =
        { s.read d with ref := s.counters.cursor slotCount } :=
      (read_carried current).2 fun other found => ⟨fits.attemptedAt other found,
        fits.uniqueKey other found, fits.uniqueStates other found⟩
    refine ⟨_, ?_, read, fun row settled => ?_⟩
    · obtain ⟨member, inSlot, kept⟩ := retained
      rw [done]
      exact List.mem_append_right _ (List.mem_map_of_mem
        (mem_filter.2 ⟨member, by simp [inSlot, kept]⟩))
    · rw [read]
      exact fits.own row settled
  · rintro reached d ⟨member, inSlot, -⟩
    have inv := pruneInv_reachable reached
    -- the only ready row with its number stands in the slot
    have alone : ∀ other, s.readyAt (s.counters.cursor slotCount) d.lane d.laneSeq ≠
        some other := by
      intro other found
      obtain ⟨there, at_, inLane, number⟩ := PruneState.readyAt_eq_some found
      have stands := (inv.done d member).2 other there inLane number
      rw [at_] at stands
      exact current ((congrArg RingRef.slot stands).trans inSlot)
    exact ⟨fun row settled => (inv.backed d member row settled).read,
      fun other found => absurd found (alone other),
      fun other found => absurd found (alone other), fun other found => absurd found (alone other)⟩

end

def emptyBooks : Books := ⟨.ledger, [], [], [], [], [], []⟩

def someJob (jobId : Nat) : ReadyColumns :=
  { jobId, kind := 0, args := s!"[{jobId}]", attempt := 0, runLease := 0, maxAttempts := 3,
    attemptedAt := none, createdAt := 0
    uniqueKey := some s!"key {jobId}", uniqueStates := none, payload := none }

def someRow (priority jobId : Nat) (ref : RingRef) : ReadyEntry :=
  ⟨⟨7, priority, 0⟩, 1, ref, 0, someJob jobId⟩

def failedJob (priority : Nat) : List PruneOp :=
  let row := someRow 2 1 ⟨0, 0⟩
  [.enqueue row.lane row.ref 0 row.job, .claim row priority none,
    .settle ⟨row, priority, none⟩ .failed .emptyObject 5, .rotate]

/-- Claimed with the priority of its lane. -/
theorem prune_oldest_keeps_one : ∃ s s' : PruneState, (pruneMachine 4).Reachable KeepsLane s ∧
    s.pruneOldest 4 3600 = some s' ∧ ∃ d ∈ s.done, d.jobId = 1 ∧ ∃ d' ∈ s'.done, s'.read d' =
      { s.read d with ref := ⟨1, 1⟩ } ∧ (s'.read d').args = "[1]" := by
  obtain ⟨s, reached, hit⟩ := Machine.reachable_of_run (pruneMachine 4) KeepsLane (failedJob 2)
    (fun s => (s.pruneOldest 4 3600).isSome && decide (s.counters.oldestInitializedRingSlot 4 =
      some 0 ∧ s.counters.cursor 4 = ⟨1, 1⟩ ∧
      ∃ d ∈ s.done, d.jobId = 1 ∧ d.ref.slot = 0 ∧ s.counters.retained 3600 d.toCountedRow = true ∧
        d.source = some (someRow 2 1 ⟨0, 0⟩))) ⟨emptyBooks, rfl⟩ (by decide +kernel)
  obtain ⟨pruned, found⟩ := Bool.and_eq_true_iff.1 hit
  obtain ⟨s', stepped⟩ := Option.isSome_iff_exists.1 pruned
  obtain ⟨oldest, cursor, d, member, job, inSlot, retained, settled⟩ := of_decide_eq_true found
  obtain ⟨slot, found, -, exact_, kept⟩ := prune_oldest_keeps 3600 stepped
  obtain rfl : (0 : Nat) = slot := Option.some_inj.1 (oldest.symm.trans found)
  obtain ⟨d', there, read, kept⟩ := exact_.2 (kept reached) d ⟨member, inSlot, retained⟩
  exact ⟨s, s', reached, stepped, d, member, job, d', there, cursor ▸ read,
    congrArg KeptColumns.args (kept _ settled)⟩

/-- Claimed with an aged priority, under which another job stands in the current position. The
arguments of the failed job, which only its ready row has, are gone, and it reads the unique key of
the other job. -/
theorem aged_row_not_kept : ∃ s s' : PruneState, (pruneMachine 4).Reachable Machine.Always s ∧
    s.pruneOldest 4 3600 = some s' ∧ s.counters.oldestInitializedRingSlot 4 = some 0 ∧
      ∃ d, s.Retained 0 3600 d ∧ ∃ row ∈ s.ready, d.source = some row ∧ ∀ d' ∈ s'.done, d'.jobId =
        d.jobId → (s'.read d').args ≠ row.job.args ∧
        (s'.read d').uniqueKey ≠ (s.read d).uniqueKey := by
  obtain ⟨s, reached, hit⟩ := Machine.reachable_of_run (pruneMachine 4) Machine.Always
    (failedJob 1 ++ [.enqueue ⟨7, 1, 0⟩ ⟨1, 1⟩ 0 (someJob 2)])
    (fun s => (s.pruneOldest 4 3600).any fun s' : PruneState =>
      decide (s.counters.oldestInitializedRingSlot 4 = some 0 ∧ ∃ d ∈ s.done, d.ref.slot = 0 ∧
        s.counters.retained 3600 d.toCountedRow = true ∧ ∃ row ∈ s.ready, d.source = some row ∧
          ∀ d' ∈ s'.done, d'.jobId = d.jobId → (s'.read d').args ≠ row.job.args ∧
          (s'.read d').uniqueKey ≠ (s.read d).uniqueKey))
    ⟨emptyBooks, rfl⟩ (by decide +kernel)
  obtain ⟨s', stepped, lost⟩ := (Option.any_eq_true _ _).1 hit
  obtain ⟨oldest, d, member, inSlot, retained, lost⟩ := of_decide_eq_true lost
  exact ⟨s, s', reached, stepped, oldest, d, ⟨member, inSlot, retained⟩, lost⟩

end AwaQueue.Prune
