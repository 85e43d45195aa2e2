import AwaQueue.Enqueue.Producers
import AwaQueue.Lane.Segments
import Mathlib.Data.List.Induction

/-! The lane numbers of one producer call: `insert_ready_rows_tx` groups its rows by lane, reserves
a range of numbers for each group, hands them out, and describes the inserted rows by segments.

The groups take the rows with an ordering key first and append those without. In a lane that gets
both kinds the numbers do not follow the order of the call. -/

namespace AwaQueue

open List Library

def ReadySegment.numbers (segment : ReadySegment) : List Nat :=
  List.range' segment.firstLaneSeq (segment.nextLaneSeq - segment.firstLaneSeq)

def ReadySegment.keys (segment : ReadySegment) : List (Lane × Nat) :=
  segment.numbers.map (Prod.mk segment.lane)

def laneOfKey (key : String × Nat × Nat) : Lane := ⟨queueNumber key.1, key.2.1, key.2.2⟩

namespace EnqueueConfig
variable (config : EnqueueConfig)

def laneKey (rotor : Rotor) (row : RuntimeReadyRow) : String × Nat × Nat :=
  (row.queue, row.job.priority,
    row.job.orderingKey.elim (config.rotorShard rotor row.queue row.job.priority)
      (config.keyShard row.queue))

/-- The calls of `advance_enqueue_head`: the lane, the start that it returned and the count that it
was asked for. -/
def reservations (rotor : Rotor) (start : Lane → Nat) (rows : List RuntimeReadyRow) :
    List (Lane × Nat × Nat) :=
  (config.batchGroups rotor rows).map fun group => (group.1, start group.1, group.2.length)

def insertReadyRows (rotor : Rotor) (start : Lane → Nat) (ref : RingRef)
    (rows : List RuntimeReadyRow) : List (ReadyRow EnqueuedJob) :=
  ((config.batchGroups rotor rows).flatMap fun group => stageRows group.1 (start group.1)
    group.2).map (StagedRow.stamp ref)

def KeyedFirst (rotor : Rotor) (rows : List RuntimeReadyRow) : Prop :=
  rows.Pairwise fun a b => config.laneKey rotor a = config.laneKey rotor b → a.job.orderingKey =
    none → b.job.orderingKey = none

instance (rotor : Rotor) (rows : List RuntimeReadyRow) : Decidable (config.KeyedFirst rotor rows) :=
  inferInstanceAs (Decidable (List.Pairwise _ _))

end EnqueueConfig

theorem digit_unique {base m n x y : Nat} (low : x < base) (low' : y < base)
    (same : m * base + (x + 1) = n * base + (y + 1)) : m = n ∧ x = y := by
  have shifted : x + base * m = y + base * n := by
    rw [Nat.mul_comm base, Nat.mul_comm base]
    omega
  have digits := congrArg (· % base) shifted
  simp only [Nat.add_mul_mod_self_left, Nat.mod_eq_of_lt low, Nat.mod_eq_of_lt low'] at digits
  subst digits
  exact ⟨Nat.eq_of_mul_eq_mul_left (by omega) (Nat.add_left_cancel shifted), rfl⟩

/-- Queue names are numbered without collisions: a digit is never zero. -/
theorem queueNumber_injective : Function.Injective queueNumber := by
  have digits : ∀ {base : Nat}, (∀ c : Char, c.toNat < base) → ∀ xs ys : List Char,
      xs.foldl (fun n c => n * base + (c.toNat + 1)) 0 = ys.foldl
        (fun n c => n * base + (c.toNat + 1)) 0 → xs = ys := by
    intro base small xs
    induction xs using reverseRecOn with
    | nil =>
      intro ys same
      rcases eq_nil_or_concat ys with rfl | ⟨front, last, rfl⟩
      · rfl
      · simp at same
    | append_singleton xs x ih =>
      intro ys same
      rcases eq_nil_or_concat ys with rfl | ⟨front, last, rfl⟩
      · simp at same
      · simp only [concat_eq_append, foldl_append, foldl_cons, foldl_nil] at same ⊢
        obtain ⟨others, chars⟩ := digit_unique (small x) (small last) same
        rw [ih front others, Char.toNat_inj.1 chars]
  refine fun a b same => String.toList_inj.1 (digits (fun c => ?_) _ _ same)
  have valid := c.valid
  simp only [UInt32.isValidChar, Nat.isValidChar] at valid
  change c.val.toNat < 1114112
  omega

theorem laneOfKey_injective : Function.Injective laneOfKey := by
  rintro ⟨queue, priority, shard⟩ ⟨queue', priority', shard'⟩ same
  obtain ⟨queues, priorities, shards⟩ := Lane.mk.inj same
  exact Prod.ext (queueNumber_injective queues) (Prod.ext priorities shards)

/-- If a property is kept from its first holder on, moving the others to the front changes nothing.
-/
theorem filter_append_of_kept {α : Type} {p : α → Bool} {xs : List α}
    (kept : xs.Pairwise fun a b => p a = true → p b = true) :
    (xs.filter fun x => !p x) ++ xs.filter p = xs := by
  induction xs with
  | nil => rfl
  | cons x rest ih =>
    obtain ⟨later, tail⟩ := pairwise_cons.1 kept
    by_cases holds : p x = true
    · have all : ∀ y ∈ rest, p y = true := fun y mem => later y mem holds
      have none_ : (rest.filter fun x => !p x) = [] :=
        filter_eq_nil_iff.2 fun y mem => by simp [all y mem]
      rw [filter_cons_of_neg (by simp [holds]), none_, filter_cons_of_pos holds,
        filter_eq_self.2 all]
      rfl
    · rw [filter_cons_of_pos (by simpa using holds), filter_cons_of_neg holds, cons_append, ih tail]

/-- Moving the others to the front leaves no holder before them. -/
theorem kept_of_filter_append {α : Type} {p : α → Bool} {xs : List α}
    (same : ((xs.filter fun x => !p x) ++ xs.filter p).map p = xs.map p) :
    xs.Pairwise fun a b => p a = true → p b = true := by
  have moved : ((xs.filter fun x => !p x) ++ xs.filter p).Pairwise fun a b => p a = true →
      p b = true := by
    apply pairwise_append.2
    refine ⟨?_, ?_, fun a _ b mem _ => (mem_filter.1 mem).2⟩
    · apply pairwise_of_forall_mem_list
      intro a mem b _ holds
      simp [holds] at mem
    · apply pairwise_of_forall_mem_list
      exact fun a _ b mem _ => (mem_filter.1 mem).2
  have flags := (pairwise_map (R := fun a b => a = true → b = true)).2 moved
  rw [same] at flags
  exact pairwise_map.1 flags

section
variable {config : EnqueueConfig} {rotor : Rotor} {start : Lane → Nat} {ref : RingRef}
    {rows : List RuntimeReadyRow}

theorem group_rows (key : String × Nat × Nat) : (config.groupReadyRowsByShard rotor rows).get key =
    ((rows.filter fun row => config.laneKey rotor row = key).filter fun row =>
      !row.job.orderingKey.isNone) ++ (rows.filter fun row => config.laneKey rotor row = key).filter
        fun row => row.job.orderingKey.isNone := by
  obtain ⟨queue, priority, shard⟩ := key
  rw [groupReadyRowsByShard_get, Buckets.flatMap_eq_get (queueBuckets_keys rows)
    (fun bucket _ (other : bucket.1 ≠ (queue, priority)) => eq_nil_iff_forall_not_mem.2
      fun row mem => other (mem_share mem).2.1) rfl,
    Buckets.get_pushAll, EnqueueConfig.share]
  simp only [Buckets.get, nil_append, filter_filter]
  congr 1
  · apply filter_congr
    intro row _
    cases key : row.job.orderingKey <;> simp [EnqueueConfig.laneKey, key, and_comm]; grind
  · apply filter_congr
    intro row _
    cases key : row.job.orderingKey <;> simp [EnqueueConfig.laneKey, key, and_comm]; grind

theorem batchGroups_get (key : String × Nat × Nat) :
    Buckets.get (laneOfKey key) (config.batchGroups rotor rows) =
    ((config.groupReadyRowsByShard rotor rows).get key).map fun row => (row.runAt, row.job) :=
  Buckets.get_map laneOfKey_injective _

theorem batchGroups_lanes : ((config.batchGroups rotor rows).map Prod.fst).Nodup := by
  have lanes : (config.batchGroups rotor rows).map Prod.fst =
      ((config.groupReadyRowsByShard rotor rows).map Prod.fst).map laneOfKey := by
    rw [EnqueueConfig.batchGroups, map_map, map_map]
    rfl
  rw [lanes]
  exact groupReadyRowsByShard_keys.map laneOfKey_injective

theorem inserted_lane (lane : Lane) :
    ((config.insertReadyRows rotor start ref rows).filter fun row => row.lane = lane) =
      (stageRows lane (start lane) (Buckets.get lane (config.batchGroups rotor rows))).map
      (StagedRow.stamp ref) := by
  rw [EnqueueConfig.insertReadyRows, filter_map, filter_flatMap,
    Buckets.flatMap_eq_get batchGroups_lanes]
  · rw [filter_eq_self.2]
    intro row mem
    exact decide_eq_true (mem_stageRows mem).1
  · intro group _ other
    apply filter_eq_nil_iff.2
    intro row mem same
    exact other ((mem_stageRows mem).1.symm.trans (of_decide_eq_true same))
  · rfl

theorem inserted_keys : (config.insertReadyRows rotor start ref rows).map ReadyRow.slotKey =
    (config.reservations rotor start rows).flatMap fun r =>
      (range' r.2.1 r.2.2).map (Prod.mk r.1) := by
  have keys : ReadyRow.slotKey ∘ StagedRow.stamp ref = StagedRow.slotKey (α := EnqueuedJob) := rfl
  rw [EnqueueConfig.insertReadyRows, EnqueueConfig.reservations, map_map, keys,
    map_flatMap, flatMap_map]
  congr 1
  funext group
  exact stageRows_keys _ _ _

theorem inserted_nodup :
    ((config.insertReadyRows rotor start ref rows).map ReadyRow.slotKey).Nodup := by
  rw [inserted_keys, EnqueueConfig.reservations, flatMap_map]
  apply nodup_flatMap.2
  refine ⟨fun group _ => List.Nodup.map (Prod.mk_right_injective _) nodup_range', ?_⟩
  apply (pairwise_map.1 batchGroups_lanes).imp
  intro first second different key left right
  obtain ⟨_, -, rfl⟩ := mem_map.1 left
  obtain ⟨_, -, same⟩ := mem_map.1 right
  exact different (congrArg Prod.fst same).symm

end

section
variable {α : Type}

theorem extend_keys (ref : RingRef) (rows : List (ReadyRow α)) (first last : ReadyRow α)
    (le : first.laneSeq ≤ last.laneSeq) (sameLane : first.lane = last.lane) :
      (readySegmentsFromRows.extend ref first last rows).flatMap ReadySegment.keys =
        (range' first.laneSeq (last.laneSeq + 1 - first.laneSeq)).map (Prod.mk first.lane) ++
        rows.map ReadyRow.slotKey := by
  induction rows generalizing first last with
  | nil => rfl
  | cons row rest ih =>
    simp only [readySegmentsFromRows.extend]
    split
    · -- the row starts a segment of its own
      have alone : row.laneSeq + 1 - row.laneSeq = 1 := by omega
      rw [flatMap_cons, ih row row le_rfl rfl, alone]
      rfl
    · next joined =>
      obtain ⟨laneEq, seqEq, -⟩ :
          last.lane = row.lane ∧ last.laneSeq + 1 = row.laneSeq ∧ last.runAt = row.runAt := by
        simpa [not_or] using joined
      have longer : row.laneSeq + 1 - first.laneSeq = last.laneSeq + 1 - first.laneSeq + 1 := by
        omega
      have next : first.laneSeq + (last.laneSeq + 1 - first.laneSeq) = row.laneSeq := by omega
      rw [ih first row (by omega) (sameLane.trans laneEq), longer, range'_1_concat, next,
        map_append, append_assoc, sameLane, laneEq]
      rfl

theorem segments_keys (ref : RingRef) (rows : List (ReadyRow α)) :
    (readySegmentsFromRows ref rows).flatMap ReadySegment.keys = rows.map ReadyRow.slotKey := by
  cases rows with
  | nil => rfl
  | cons row rest =>
    have alone : row.laneSeq + 1 - row.laneSeq = 1 := by omega
    rw [readySegmentsFromRows, extend_keys ref rest row row le_rfl rfl, alone]
    rfl

theorem segments_numbers (ref : RingRef) (rows : List (ReadyRow α)) (lane : Lane) :
    ((readySegmentsFromRows ref rows).filter fun segment => segment.lane = lane).flatMap
      ReadySegment.numbers = (rows.filter fun row => row.lane = lane).map ReadyRow.laneSeq := by
  have ofLane : ∀ segments : List ReadySegment, (segments.filter fun segment => segment.lane =
      lane).flatMap ReadySegment.numbers =
      ((segments.flatMap ReadySegment.keys).filter fun key => key.1 = lane).map Prod.snd := by
    intro segments
    induction segments with
    | nil => rfl
    | cons segment rest ih =>
      rw [flatMap_cons, filter_append, map_append, ← ih, ReadySegment.keys, filter_map, map_map]
      by_cases here : segment.lane = lane
      · have kept : segment.numbers.filter ((fun key : Lane × Nat => decide (key.1 = lane)) ∘
            Prod.mk segment.lane) =
            segment.numbers := filter_eq_self.2 fun _ _ => decide_eq_true here
        rw [filter_cons_of_pos (by simpa using here), flatMap_cons, kept]
        exact congrArg (· ++ _) (map_id _).symm
      · have dropped :
            segment.numbers.filter ((fun key : Lane × Nat => decide (key.1 = lane)) ∘
            Prod.mk segment.lane) = [] :=
          filter_eq_nil_iff.2 fun _ _ same => here (of_decide_eq_true same)
        rw [filter_cons_of_neg (by simpa using here), dropped]
        rfl
  rw [ofLane, segments_keys, filter_map, map_map]
  rfl

end

section
variable {config : EnqueueConfig} {rotor : Rotor} {rows : List RuntimeReadyRow}

theorem stageRows_jobs {α : Type} (ref : RingRef) (lane : Lane) (start : Nat)
    (jobs : List (Nat × α)) :
    ((stageRows lane start jobs).map (StagedRow.stamp ref)).map (fun row => (row.runAt, row.job)) =
      jobs := by
  rw [map_map, stageRows, map_map]
  exact zipIdx_map_fst 0 jobs

/-- With the keyed rows in front, a group is its lane in the order of the call. -/
theorem EnqueueConfig.KeyedFirst.group (keyedFirst : config.KeyedFirst rotor rows)
    (key : String × Nat × Nat) :
    (config.groupReadyRowsByShard rotor rows).get key = rows.filter fun row =>
      config.laneKey rotor row = key := by
  rw [group_rows]
  apply filter_append_of_kept
  apply (keyedFirst.filter _).imp_of_mem
  intro a b left right kept unkeyed
  rw [Option.isNone_iff_eq_none] at unkeyed ⊢
  have here := of_decide_eq_true (mem_filter.1 left).2
  have there := of_decide_eq_true (mem_filter.1 right).2
  exact kept (here.trans there.symm) unkeyed

/-- Where the jobs of a group are those of the call in its order, the keyed ones are in front. -/
theorem keyedFirst_of_groups (same : ∀ key,
      (((config.groupReadyRowsByShard rotor rows).get key).map fun row => (row.runAt, row.job)) =
      (rows.filter fun row => config.laneKey rotor row = key).map fun row => (row.runAt, row.job)) :
    config.KeyedFirst rotor rows := by
  have ofLane : ∀ key, rows.Pairwise fun a b => config.laneKey rotor a = key →
      config.laneKey rotor b = key → a.job.orderingKey = none → b.job.orderingKey = none := by
    intro key
    have flags := congrArg (List.map fun entry => entry.2.orderingKey.isNone) (same key)
    rw [group_rows, map_map, map_map] at flags
    apply (pairwise_filter.1 (kept_of_filter_append (p := fun row => row.job.orderingKey.isNone)
      flags)).imp
    intro a b kept here there unkeyed
    exact Option.isNone_iff_eq_none.1 (kept (decide_eq_true here) (decide_eq_true there)
      (Option.isNone_iff_eq_none.2 unkeyed))
  apply pairwise_iff_getElem.2
  intro i j inside inside' before here
  exact pairwise_iff_getElem.1 (ofLane _) i j inside inside' before here rfl

theorem group_length (key : String × Nat × Nat) :
    ((config.groupReadyRowsByShard rotor rows).get key).length =
    (rows.filter fun row => config.laneKey rotor row = key).length := by
  rw [group_rows, length_append, Nat.add_comm]
  exact (length_eq_length_filter_add _).symm

/-- For every batch the numbers are exactly the reserved ranges, each used once, and the segments of
a lane are disjoint and, one after the other, list its range. The rows of every lane get their
numbers in the order of the call if and only if its keyed rows come first. -/
theorem insertReadyRows_numbers (config : EnqueueConfig) (rotor : Rotor) (start : Lane → Nat)
    (ref : RingRef) (rows : List RuntimeReadyRow) :
    let inserted := config.insertReadyRows rotor start ref rows
    let segments := readySegmentsFromRows ref inserted
    let sent := fun key : String × Nat × Nat =>
      (rows.filter fun row => config.laneKey rotor row = key).map fun row => (row.runAt, row.job)
    (inserted.map ReadyRow.slotKey = (config.reservations rotor start rows).flatMap fun r =>
        (List.range' r.2.1 r.2.2).map (Prod.mk r.1)) ∧
      (inserted.map ReadyRow.slotKey).Nodup ∧
      (∀ key, (segments.filter fun segment => segment.lane = laneOfKey key).flatMap
        ReadySegment.numbers = List.range' (start (laneOfKey key)) (sent key).length) ∧
      segments.flatMap ReadySegment.keys = inserted.map ReadyRow.slotKey ∧
      (segments.Pairwise fun a b => a.keys.Disjoint b.keys) ∧
      ((∀ key, (inserted.filter fun row => row.lane = laneOfKey key) =
          (stageRows (laneOfKey key) (start (laneOfKey key)) (sent key)).map
            (StagedRow.stamp ref)) ↔
        config.KeyedFirst rotor rows) := by
  intro inserted segments sent
  have cover : segments.flatMap ReadySegment.keys = inserted.map ReadyRow.slotKey :=
    segments_keys ref inserted
  have ofLane : ∀ key, (inserted.filter fun row => row.lane = laneOfKey key) =
      (stageRows (laneOfKey key) (start (laneOfKey key))
        (((config.groupReadyRowsByShard rotor rows).get key).map fun row => (row.runAt,
          row.job))).map (StagedRow.stamp ref) := by
    intro key
    rw [inserted_lane, batchGroups_get]
  refine ⟨inserted_keys, inserted_nodup, ?_, cover, ?_, ?_, ?_⟩
  · intro key
    have keys := congrArg (List.map Prod.snd)
      (stageRows_keys (laneOfKey key) (start (laneOfKey key))
      (((config.groupReadyRowsByShard rotor rows).get key).map fun row => (row.runAt, row.job)))
    rw [map_map, map_map, length_map, group_length,
      ← length_map (f := fun row => (row.runAt, row.job))] at keys
    rw [segments_numbers, ofLane, map_map]
    exact keys.trans (map_id _)
  · have distinct : (inserted.map ReadyRow.slotKey).Nodup := inserted_nodup
    rw [← cover] at distinct
    exact (List.nodup_flatMap.1 distinct).2
  · intro ordered
    apply keyedFirst_of_groups
    intro key
    have jobs := congrArg (List.map fun row => (row.runAt, row.job))
      ((ofLane key).symm.trans (ordered key))
    rwa [stageRows_jobs, stageRows_jobs] at jobs
  · intro keyedFirst key
    rw [ofLane, keyedFirst.group]

end

def plainConfig : EnqueueConfig := ⟨1, fun _ => 0, fun _ => 1⟩

/-- A batch for one queue: a job without ordering key, then one with a key. -/
def mixedBatch : List RuntimeReadyRow :=
  plainConfig.readyRows 1 [⟨"orders", 2, none, none, 0, false⟩,
    ⟨"orders", 2, none, some [7], 0, false⟩]

/-- The jobs 1 and 2 of the batch go to one lane, and job 2 gets the smaller number. -/
theorem mixedBatch_reordered :
        (mixedBatch.map fun row => (row.job.jobId, plainConfig.laneKey (fun _ _ => 0) row)) =
        [(1, ("orders", 2, 0)), (2, ("orders", 2, 0))] ∧
      ((plainConfig.insertReadyRows (fun _ _ => 0) (fun _ => 0) ⟨0, 0⟩ mixedBatch).map fun row =>
        (row.job.jobId, row.laneSeq)) = [(2, 0), (1, 1)] := by decide

/-- With the keyed job in front the order is kept. -/
theorem insertReadyRows_numbers_keyed : plainConfig.KeyedFirst (fun _ _ => 0) mixedBatch.reverse ∧
      (plainConfig.insertReadyRows (fun _ _ => 0) (fun _ => 5) ⟨0, 0⟩ mixedBatch.reverse).filter
          (fun row => row.lane = laneOfKey ("orders", 2, 0)) =
        (stageRows (laneOfKey ("orders", 2, 0)) 5
          (mixedBatch.reverse.map fun row => (row.runAt, row.job))).map
          (StagedRow.stamp ⟨0, 0⟩) := by
  refine ⟨by decide, ?_⟩
  have ordered := (insertReadyRows_numbers plainConfig (fun _ _ => 0) (fun _ => 5) ⟨0,
    0⟩ mixedBatch.reverse).2.2.2.2.2.2 (by decide) ("orders", 2, 0)
  have all : (mixedBatch.reverse.filter fun row => plainConfig.laneKey (fun _ _ => 0) row =
      ("orders", 2, 0)) = mixedBatch.reverse := by decide
  beta_reduce at ordered
  rwa [all] at ordered

end AwaQueue
