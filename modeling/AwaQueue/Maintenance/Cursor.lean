import AwaQueue.Maintenance.Backoff
import AwaQueue.Library.Select
import AwaQueue.Attempt.Protocol

/-! The positions that the ring functions read off the cursor, against a replay of the rotations.

A rotation opens the next slot with the next generation. `oldest_initialized_ring_slot`,
`ring_slot_generation` and `initialized_sealed_ring_slots` compute from the cursor alone what the
old `queue_ring_slots` table recorded, and `already_pruned_for_idle_cursor` repeats the first of
them in the worker. -/

namespace AwaQueue.Maintenance
open List Library

def initializedSealedRingSlots (currentSlot generation slotCount : Int) : List (Int × Int) :=
  if slotCount ≤ 1 then [] else
  let initializedSlots := min (generation + 1) slotCount
  -- the offsets from 1 to `initializedSlots - 1`, from the largest on
  (List.range (initializedSlots - 1).toNat).reverse.map fun (k : Nat) =>
    ((currentSlot - ((k : Int) + 1)) % slotCount, generation - ((k : Int) + 1))

def PruneBackoffState.alreadyPrunedForIdleCursor (s : PruneBackoffState)
    (currentSlot cursorGeneration slotCount : Int) : Option (Int × Int) :=
  let initializedSlots := min (cursorGeneration + 1) slotCount
  if initializedSlots ≤ 1 then none else
  let offset := initializedSlots - 1
  let targetGeneration := cursorGeneration - offset
  let targetSlot := (currentSlot - offset) % slotCount
  s.lastPruned.filter fun last => last.1 = targetSlot ∧ last.2 = targetGeneration

inductive RotateOutcome where
  | rotated | skippedBusy | skippedIdle | skippedFilling

structure RingReplay where
  currentSlot : Int
  generation : Int
  opened : Int → Option Int

namespace RingReplay

def genesis : RingReplay := ⟨0, 0, Function.update (fun _ => none) 0 (some 0)⟩

def step (slotCount : Int) (s : RingReplay) : RotateOutcome → RingReplay
  | .rotated =>
    let nextSlot := (s.currentSlot + 1) % slotCount
    ⟨nextSlot, s.generation + 1, Function.update s.opened nextSlot (some (s.generation + 1))⟩
  | _ => s

def replay (slotCount : Int) (history : List RotateOutcome) : RingReplay :=
  history.foldl (step slotCount) genesis

def scan (slotCount : Int) (s : RingReplay) : List (Int × Int) :=
  (List.range slotCount.toNat).filterMap fun (slot : Nat) =>
    if (slot : Int) = s.currentSlot then none else (s.opened slot).map fun generation =>
      ((slot : Int), generation)

def sealedSlots (slotCount : Int) (s : RingReplay) : List (Int × Int) :=
  orderBy (fun entry => entry.2.toNat) (s.scan slotCount)

end RingReplay

section
variable {n c g slot generation : Int}

theorem wrap_succ (low : 0 ≤ c) (high : c < n) : (c + 1) % n = if c + 1 = n then 0 else c + 1 := by
  split
  · next last => rw [last, Int.emod_self]
  · exact Int.emod_eq_of_lt (by omega) (by omega)

theorem ringSlotGeneration_eq_some (low : 0 ≤ c) (high : c < n) :
    ringSlotGeneration c g n slot = some generation ↔ 0 ≤ slot ∧ slot < n ∧ 0 ≤ generation ∧
      (generation = g - (c - slot) ∧ slot ≤ c ∨ generation = g - (c - slot + n) ∧ c < slot) := by
  unfold ringSlotGeneration
  by_cases inside : 0 ≤ slot ∧ slot < n
  · rw [if_neg (by omega), wrap_sub low high inside.1 inside.2]
    dsimp only
    split <;> split <;> simp only [Option.some.injEq, reduceCtorEq, false_iff] <;> omega
  · rw [if_pos (by omega)]
    simp only [reduceCtorEq, false_iff]
    omega

theorem mem_initializedSealedRingSlots (low : 0 ≤ c) (high : c < n) :
    (slot, generation) ∈ initializedSealedRingSlots c g n ↔
    slot ≠ c ∧ ringSlotGeneration c g n slot = some generation := by
  rw [ringSlotGeneration_eq_some low high]
  unfold initializedSealedRingSlots
  by_cases several : n ≤ 1
  · rw [if_pos several]
    simp only [not_mem_nil, false_iff]
    omega
  rw [if_neg several]
  simp only [mem_map, mem_reverse, mem_range, Prod.mk.injEq]
  constructor
  · rintro ⟨k, bound, rfl, rfl⟩
    rw [wrap_sub low high (by omega) (by omega)]
    split <;> omega
  · rintro ⟨other, at_⟩
    refine ⟨(g - generation - 1).toNat, by omega, ?_, by omega⟩
    rw [wrap_sub low high (by omega) (by omega)]
    split <;> omega

theorem initializedSealedRingSlots_sorted :
    (initializedSealedRingSlots c g n).Pairwise fun a b => a.2.toNat < b.2.toNat := by
  unfold initializedSealedRingSlots
  split
  · exact List.Pairwise.nil
  · apply pairwise_map.2
    apply pairwise_reverse.2
    apply pairwise_lt_range.imp_of_mem
    intro a b left right below
    rw [mem_range] at right
    dsimp only
    omega

theorem oldestInitializedRingSlot_eq_head :
    oldestInitializedRingSlot c g n = (initializedSealedRingSlots c g n).head? := by
  unfold oldestInitializedRingSlot initializedSealedRingSlots
  split
  · rfl
  dsimp only
  rw [head?_map, head?_reverse]
  split
  · next few =>
    rw [show (min (g + 1) n - 1).toNat = 0 by omega]
    rfl
  · next many =>
    obtain ⟨k, shape⟩ :
      ∃ k, (min (g + 1) n - 1).toNat = k + 1 := ⟨_, (Nat.succ_pred_eq_of_pos (by omega)).symm⟩
    rw [if_neg (by omega), shape, range_succ, getLast?_concat, Option.map_some]
    have offset : min (g + 1) n - 1 = (k : Int) + 1 := by omega
    rw [offset]

end

namespace RingReplay

/-- The slots have been opened one after the other. -/
structure Placed (n : Int) (s : RingReplay) : Prop where
  low : 0 ≤ s.currentSlot
  high : s.currentSlot < n
  past : 0 ≤ s.generation
  opened : s.opened = ringSlotGeneration s.currentSlot s.generation n

variable {n : Int} {s : RingReplay}

theorem Placed.step (placed : Placed n s) (outcome : RotateOutcome) :
    Placed n (s.step n outcome) := by
  cases outcome with
  | skippedBusy | skippedIdle | skippedFilling => exact placed
  | rotated =>
    obtain ⟨low, high, past, opened⟩ := placed
    have next := wrap_succ low high
    have inside : 0 ≤ (s.currentSlot + 1) % n ∧ (s.currentSlot + 1) % n < n := by
      rw [next]
      split <;> omega
    refine ⟨inside.1, inside.2, by dsimp only [RingReplay.step]; omega, ?_⟩
    funext slot
    apply Option.ext
    intro generation
    dsimp only [RingReplay.step]
    rw [Function.update_apply, opened, ringSlotGeneration_eq_some inside.1 inside.2]
    split
    · rw [Option.some.injEq]
      omega
    · -- every other slot is one position further back
      rw [ringSlotGeneration_eq_some low high]
      rw [next] at *
      split at * <;> omega

theorem placed_replay (positive : 1 ≤ n) (history : List RotateOutcome) :
    Placed n (replay n history) := by
  suffices kept : ∀ s, Placed n s → Placed n (history.foldl (step n) s) by
    refine kept _ ⟨le_rfl, positive, le_rfl, ?_⟩
    funext slot
    apply Option.ext
    intro generation
    dsimp only [genesis]
    rw [Function.update_apply, ringSlotGeneration_eq_some le_rfl positive]
    split
    · rw [Option.some.injEq]
      omega
    · simp only [reduceCtorEq, false_iff]
      omega
  induction history with
  | nil => exact fun _ => id
  | cons outcome rest ih => exact fun s placed => ih _ (placed.step outcome)

theorem mem_scan {entry : Int × Int} :
    entry ∈ s.scan n ↔ 0 ≤ entry.1 ∧ entry.1 < n ∧ entry.1 ≠ s.currentSlot ∧
    s.opened entry.1 = some entry.2 := by
  unfold scan
  rw [mem_filterMap]
  constructor
  · rintro ⟨slot, listed, found⟩
    rw [mem_range] at listed
    split at found
    · cases found
    · next other =>
      obtain ⟨generation, opened, rfl⟩ := Option.map_eq_some_iff.1 found
      exact ⟨by omega, by omega, other, opened⟩
  · rintro ⟨low, high, other, opened⟩
    have slot : ((entry.1.toNat : Nat) : Int) = entry.1 := Int.toNat_of_nonneg low
    refine ⟨entry.1.toNat, mem_range.2 (by omega), ?_⟩
    rw [slot, if_neg other, opened]
    rfl

theorem scan_nodup : (s.scan n).Nodup := by
  apply List.Nodup.filterMap _ nodup_range
  intro slot slot' entry found found'
  simp only [Option.mem_def, Option.ite_none_left_eq_some, Option.map_eq_some_iff] at found found'
  obtain ⟨-, generation, -, rfl⟩ := found
  obtain ⟨-, generation', -, same⟩ := found'
  exact (Int.ofNat_inj.1 (Prod.mk.inj same).1).symm

theorem Placed.sealedSlots (placed : Placed n s) :
    s.sealedSlots n = initializedSealedRingSlots s.currentSlot s.generation n := by
  have sorted := initializedSealedRingSlots_sorted (n := n) (c := s.currentSlot) (g := s.generation)
  apply orderBy_eq sorted
  apply (perm_ext_iff_of_nodup (sorted.imp fun below same => absurd (same ▸ below) (lt_irrefl _))
    scan_nodup).2
  rintro ⟨slot, generation⟩
  rw [mem_initializedSealedRingSlots placed.low placed.high, mem_scan, placed.opened]
  constructor
  · rintro ⟨other, opened⟩
    obtain ⟨low, high, -⟩ := (ringSlotGeneration_eq_some placed.low placed.high).1 opened
    exact ⟨low, high, other, opened⟩
  · rintro ⟨-, -, other, opened⟩
    exact ⟨other, opened⟩

end RingReplay

theorem alreadyPrunedForIdleCursor_eq {n c g : Int} (tracker : PruneBackoffState) :
    tracker.alreadyPrunedForIdleCursor c g n =
      if tracker.lastPruned = oldestInitializedRingSlot c g n then oldestInitializedRingSlot c g n
        else none := by
  unfold PruneBackoffState.alreadyPrunedForIdleCursor
  dsimp only
  split
  · next few =>
    have absent : oldestInitializedRingSlot c g n = none := by
      unfold oldestInitializedRingSlot
      dsimp only
      rw [if_pos few, ite_self]
    rw [absent, ite_self]
  · next many =>
    have target : oldestInitializedRingSlot c g n = some ((c - (min (g + 1) n - 1)) % n,
        g - (min (g + 1) n - 1)) := by
      unfold oldestInitializedRingSlot
      dsimp only
      rw [if_neg (by omega), if_neg many, if_neg (by omega)]
    rw [target]
    cases tracker.lastPruned with
    | none => rfl
    | some last =>
      obtain ⟨slot, generation⟩ := last
      rw [Option.filter_some]
      simp only [decide_eq_true_eq, Option.some.injEq, Prod.mk.injEq]
      split
      · next same => rw [same.1, same.2]
      · rfl

/-- For every number of slots and every history, the closed forms give what the replay recorded: the
last generation of each slot, the sealed slots in the order of their generations, the oldest of
them, and for an idle cursor the target that the prune step would take. -/
theorem closed_forms_replay {n : Int} (positive : 1 ≤ n) (history : List RotateOutcome) :
    let s := RingReplay.replay n history
    (∀ slot, ringSlotGeneration s.currentSlot s.generation n slot = s.opened slot) ∧
      initializedSealedRingSlots s.currentSlot s.generation n = s.sealedSlots n ∧
      oldestInitializedRingSlot s.currentSlot s.generation n = (s.sealedSlots n).head? ∧
      ∀ tracker : PruneBackoffState, tracker.alreadyPrunedForIdleCursor s.currentSlot
        s.generation n =
        if tracker.lastPruned = (s.sealedSlots n).head? then (s.sealedSlots n).head? else none := by
  intro s
  have placed := RingReplay.placed_replay positive history
  have oldest : oldestInitializedRingSlot s.currentSlot s.generation n =
      (s.sealedSlots n).head? := by
    rw [placed.sealedSlots, oldestInitializedRingSlot_eq_head]
  refine ⟨fun slot => (congrFun placed.opened slot).symm, placed.sealedSlots.symm, oldest,
    fun tracker => ?_⟩
  rw [alreadyPrunedForIdleCursor_eq, oldest]

/-- After four rotations of three slots the current slot is 1, and slot 2 is the oldest. -/
theorem closed_forms_replay_four :
    (RingReplay.replay 3 (List.replicate 4 .rotated)).sealedSlots 3 = [(2, 2), (0, 3)] ∧
    oldestInitializedRingSlot 1 4 3 = some (2, 2) := by
  obtain ⟨-, sealedSlots, oldest, -⟩ := closed_forms_replay (n := 3) (by decide)
    (List.replicate 4 .rotated)
  exact ⟨sealedSlots.symm.trans (by decide), oldest.trans (by decide)⟩

end AwaQueue.Maintenance
