import Mathlib.Algebra.Order.Floor.Ring
import Mathlib.Data.Rat.Floor
import AwaQueue.Library.Machine
import AwaQueue.Lane.Tables

/-! The priority that a claim gives to a waiting row.

`claim_ready_runtime` lowers the priority of a lane by one for each aging interval that its head has
waited, and so does `claim_ready_slot_N` for each row of the claim. Both cast the number of
intervals to `smallint` before they bound it. Time is rational, and a cast fails outside sixteen
bits. -/

namespace AwaQueue
open Library

inductive ArithmeticError where
  | smallintOutOfRange
deriving DecidableEq

def toSmallint (value : ℤ) : Except ArithmeticError ℤ :=
  if -32768 ≤ value ∧ value ≤ 32767 then .ok value else .error .smallintOutOfRange

/-- `GREATEST(1, priority - FLOOR(waited / p_aging_secs)::smallint)::smallint`, where aging is on.
-/
def effectivePriority (aging waited : ℚ) (priority : ℤ) : Except ArithmeticError ℤ :=
  if 0 < aging then do
    let intervals ← toSmallint ⌊waited / aging⌋
    let lowered ← toSmallint (priority - intervals)
    toSmallint (max 1 lowered)
  else .ok priority

def agedPriority (aging waited : ℚ) (priority : ℤ) : ℤ := max 1 (priority - ⌊waited / aging⌋)

/-- A row of the routing query: a lane with its cursors and the segment its probe found. -/
structure LaneCandidate where
  lane : Lane
  claimSeq : Nat
  nextSeq : Nat
  segment : Option ReadySegment
deriving DecidableEq

section Model
variable {α : Type}

/-- A claim call: the clock, the instant that a stored `run_at` stands for, and `p_aging_secs`. -/
structure ClaimClock where
  now : ℚ
  instant : Nat → ℚ
  aging : ℚ

namespace ClaimClock
variable (clock : ClaimClock)

def waited (runAt : Nat) : ℚ := clock.now - clock.instant runAt

/-- The first `ORDER BY` key of a lane; `NULL` when the probe found no segment. -/
def routingKey (candidate : LaneCandidate) : Except ArithmeticError (Option ℤ) :=
  match candidate.segment with
  | none => .ok none
  | some segment =>
    (effectivePriority clock.aging (clock.waited segment.firstRunAt) candidate.lane.priority).map
    some

def nullsLast (a b : Option ℚ) : Ordering :=
  match a, b with
  | some x, some y => compare x y
  | some _, none => .lt
  | none, some _ => .gt
  | none, none => .eq

def routesBefore (a b : Option ℤ × LaneCandidate) : Bool :=
  ((nullsLast (a.1.map Int.cast) (b.1.map Int.cast)).then
    ((nullsLast (a.2.segment.map fun s => clock.instant s.firstRunAt) (b.2.segment.map fun s =>
      clock.instant s.firstRunAt)).then (compare a.2.lane.priority b.2.lane.priority))).isLE

def candidates (tables : LaneTables α) (heads : List Lane) (claimSeq nextSeq : Lane → Nat)
    (queue : Nat) : List LaneCandidate :=
  (heads.filter fun lane => lane.queue = queue ∧ claimSeq lane < nextSeq lane).map fun lane =>
    ⟨lane, claimSeq lane, nextSeq lane, LaneTables.segmentAfter tables.segments lane
      (claimSeq lane)⟩

/-- The lane routing of `claim_ready_runtime`: the keys of all lanes, then the first lane in their
order that is not locked. -/
def routeLane (paused : Bool) (locked : Lane → Bool) (lanes : List LaneCandidate) :
    Except ArithmeticError (Option LaneCandidate) :=
  if paused then .ok none
  else do
    let keyed ← lanes.mapM fun candidate => (clock.routingKey candidate).map fun key =>
      (key, candidate)
    return ((keyed.insertionSort fun a b => clock.routesBefore a b).find? fun row =>
      !locked row.2.lane).map Prod.snd

/-- `claim_ready_slot_N`: the rows of the window with their effective priority, without the
tombstoned ones. -/
def claimRows (tables : LaneTables α) (lane : Lane) (ref : RingRef) (claimSeq limit : Nat) :
    Except ArithmeticError (List (ReadyRow α × ℤ)) := do
  let selected ← (tables.window lane ref claimSeq limit).mapM fun row =>
    (effectivePriority clock.aging (clock.waited row.runAt) row.lane.priority).map fun priority =>
      (row, priority)
  return selected.filter fun row => !tables.isTombstoned lane ref row.1.laneSeq

end ClaimClock

end Model

section
variable {aging waited : ℚ} {priority : ℤ}

theorem toSmallint_of_le {value : ℤ} (low : -32768 ≤ value) (high : value ≤ 32767) :
    toSmallint value = .ok value :=
  if_pos ⟨low, high⟩

/-- The cast decides: below 32768 intervals the priority is as meant, from there on there is none.
-/
theorem effectivePriority_eq (positive : 0 < aging) (past : 0 ≤ waited) (low : 1 ≤ priority)
    (high : priority ≤ 4) : effectivePriority aging waited priority =
      if waited / aging < 32768 then .ok (agedPriority aging waited priority)
        else .error .smallintOutOfRange := by
  have lower : 0 ≤ ⌊waited / aging⌋ := Int.floor_nonneg.2 (div_nonneg past positive.le)
  unfold effectivePriority
  rw [if_pos positive]
  split
  case isTrue short =>
    have upper : ⌊waited / aging⌋ < 32768 := Int.floor_lt.2 short
    rw [toSmallint_of_le (by omega) (by omega)]
    change (toSmallint (priority - ⌊waited / aging⌋) >>= fun lowered =>
      toSmallint (max 1 lowered)) = _
    rw [toSmallint_of_le (by omega) (by omega)]
    exact toSmallint_of_le (by omega) (by omega)
  case isFalse long =>
    have many : 32768 ≤ ⌊waited / aging⌋ := Int.le_floor.2 (not_lt.1 long)
    have refused : toSmallint ⌊waited / aging⌋ = .error .smallintOutOfRange := if_neg (by omega)
    rw [refused]
    rfl

theorem agedPriority_bounds (positive : 0 < aging) (past : 0 ≤ waited) (low : 1 ≤ priority) :
    1 ≤ agedPriority aging waited priority ∧ agedPriority aging waited priority ≤ priority := by
  have lower : 0 ≤ ⌊waited / aging⌋ := Int.floor_nonneg.2 (div_nonneg past positive.le)
  unfold agedPriority
  constructor
  · omega
  · omega

end

def ClaimClock.Recent (clock : ClaimClock) (runAt : Nat) : Prop :=
  clock.waited runAt / clock.aging < 32768

def Lane.Valid (lane : Lane) : Prop := 1 ≤ lane.priority ∧ lane.priority ≤ 4

section
variable {α : Type} {clock : ClaimClock} (positive : 0 < clock.aging)
include positive

section
variable {runAt : Nat} {lane : Lane} (valid : lane.Valid) (past : clock.instant runAt ≤ clock.now)
include valid past

theorem effectivePriority_recent (recent : clock.Recent runAt) :
    effectivePriority clock.aging (clock.waited runAt) lane.priority =
      .ok (agedPriority clock.aging (clock.waited runAt) lane.priority) := by
  have waited : 0 ≤ clock.waited runAt := sub_nonneg.2 past
  rw [effectivePriority_eq positive waited (by exact_mod_cast valid.1) (by exact_mod_cast valid.2)]
  exact if_pos recent

theorem effectivePriority_ok_iff :
    (∃ priority, effectivePriority clock.aging (clock.waited runAt) lane.priority = .ok priority) ↔
      clock.Recent runAt := by
  constructor
  · intro ⟨priority, ran⟩
    by_contra long
    have waited : 0 ≤ clock.waited runAt := sub_nonneg.2 past
    rw [effectivePriority_eq positive waited (by exact_mod_cast valid.1)
      (by exact_mod_cast valid.2)] at ran
    cases (if_neg long).symm.trans ran
  · exact fun recent => ⟨_, effectivePriority_recent positive valid past recent⟩

end

/-- The routing computes the key of every lane before it takes the first: one old head is enough to
stop it. -/
theorem routeLane_ok_iff {lanes : List LaneCandidate}
      (heads : ∀ candidate ∈ lanes, candidate.lane.Valid ∧
    ∀ segment ∈ candidate.segment, clock.instant segment.firstRunAt ≤ clock.now)
    (locked : Lane → Bool) : (∃ routed, clock.routeLane false locked lanes = .ok routed) ↔
      ∀ candidate ∈ lanes, ∀ segment ∈ candidate.segment, clock.Recent segment.firstRunAt := by
  have key : ∀ candidate ∈ lanes, (∃ key, clock.routingKey candidate = .ok key) ↔
      ∀ segment ∈ candidate.segment, clock.Recent segment.firstRunAt := by
    intro candidate mem
    obtain ⟨valid, past⟩ := heads candidate mem
    unfold ClaimClock.routingKey
    cases found : candidate.segment with
    | none => exact ⟨fun _ _ found => (nomatch found), fun _ => ⟨none, rfl⟩⟩
    | some segment =>
      rw [found] at past
      refine (map_ok_iff.trans (effectivePriority_ok_iff positive valid (past segment rfl))).trans
        ?_
      exact ⟨fun recent _ same => Option.mem_some.1 same ▸ recent, fun recent => recent segment rfl⟩
  calc (∃ routed, clock.routeLane false locked lanes = .ok routed)
    _ ↔ ∃ keyed, (lanes.mapM fun candidate => (clock.routingKey candidate).map fun key =>
      (key, candidate)) = .ok keyed := map_ok_iff
    _ ↔ _ := by
      rw [mapM_ok_iff]
      exact forall₂_congr fun candidate mem => map_ok_iff.trans (key candidate mem)

/-- A claim of a window, with each priority as meant and between one and that of the lane. -/
theorem claimRows_ok_iff {tables : LaneTables α} {lane : Lane} {ref : RingRef}
    {claimSeq limit : Nat} (rows : ∀ row ∈ tables.window lane ref claimSeq limit, row.lane.Valid ∧
    clock.instant row.runAt ≤ clock.now) :
    (∃ claimed, clock.claimRows tables lane ref claimSeq limit = .ok claimed ∧
        claimed.map Prod.fst = (tables.window lane ref claimSeq limit).filter
        (fun row => !tables.isTombstoned lane ref row.laneSeq) ∧ ∀ row ∈ claimed, row.2 =
          max 1 ((row.1.lane.priority : ℤ) - ⌊clock.waited row.1.runAt / clock.aging⌋) ∧
          1 ≤ row.2 ∧ row.2 ≤ row.1.lane.priority) ↔
      ∀ row ∈ tables.window lane ref claimSeq limit, clock.Recent row.runAt := by
  constructor
  · intro ⟨claimed, ran, _⟩ row mem
    obtain ⟨valid, past⟩ := rows row mem
    have selected := mapM_ok_iff.1 (map_ok_iff.1 ⟨claimed, ran⟩) row mem
    exact (effectivePriority_ok_iff positive valid past).1 (map_ok_iff.1 selected)
  · intro recent
    have each : ∀ row ∈ tables.window lane ref claimSeq limit,
        (effectivePriority clock.aging (clock.waited row.runAt) row.lane.priority).map
          (fun priority => (row, priority)) =
          .ok (row, agedPriority clock.aging (clock.waited row.runAt) row.lane.priority) := by
      intro row mem
      obtain ⟨valid, past⟩ := rows row mem
      rw [effectivePriority_recent positive valid past (recent row mem)]
      rfl
    refine ⟨_, by unfold ClaimClock.claimRows; rw [mapM_eq_ok each]; rfl, ?_, ?_⟩
    · rw [List.filter_map, List.map_map]
      exact List.map_id _
    · intro row mem
      obtain ⟨kept, -⟩ := List.mem_filter.1 mem
      obtain ⟨entry, selected, rfl⟩ := List.mem_map.1 kept
      obtain ⟨valid, past⟩ := rows entry selected
      exact ⟨rfl, agedPriority_bounds positive (sub_nonneg.2 past) (by exact_mod_cast valid.1)⟩

end

/-- The claim of a queue fails nowhere, neither in the routing nor in the claim of whatever lane and
window it leads to, just when no head and no row of the window has waited for 32768 aging intervals;
then each priority is as meant and between one and that of the lane. A paused queue is not routed at
all. -/
theorem claim_priorities {α : Type} (clock : ClaimClock) (lanes : List LaneCandidate)
    (tables : LaneTables α) (lane : Lane) (ref : RingRef)
    (claimSeq limit : Nat) (positive : 0 < clock.aging)
    (heads : ∀ candidate ∈ lanes, candidate.lane.Valid ∧
      ∀ segment ∈ candidate.segment, clock.instant segment.firstRunAt ≤ clock.now)
    (rows : ∀ row ∈ tables.window lane ref claimSeq limit, row.lane.Valid ∧
    clock.instant row.runAt ≤ clock.now) (paused : Bool) (locked : Lane → Bool) :
      ((∃ routed, clock.routeLane paused locked lanes = .ok routed) ∧
      ∃ claimed, clock.claimRows tables lane ref claimSeq limit = .ok claimed ∧
        claimed.map Prod.fst = (tables.window lane ref claimSeq limit).filter
        (fun row => !tables.isTombstoned lane ref row.laneSeq) ∧ ∀ row ∈ claimed, row.2 =
          max 1 ((row.1.lane.priority : ℤ) - ⌊clock.waited row.1.runAt / clock.aging⌋) ∧
          1 ≤ row.2 ∧ row.2 ≤ row.1.lane.priority) ↔
      (paused = true ∨ ∀ candidate ∈ lanes, ∀ segment ∈ candidate.segment,
        clock.Recent segment.firstRunAt) ∧
        ∀ row ∈ tables.window lane ref claimSeq limit, clock.Recent row.runAt := by
  refine and_congr ?_ (claimRows_ok_iff positive rows)
  cases paused with
  | true => exact ⟨fun _ => .inl rfl, fun _ => ⟨none, rfl⟩⟩
  | false =>
    exact (routeLane_ok_iff positive heads locked).trans (or_iff_right Bool.false_ne_true).symm

/-- Two rows of one queue, stored at 0: one of the priority 4 and one of the priority 2. -/
def agingSample : LaneTables Unit where
  ready := [⟨⟨0, 4, 0⟩, 0, ⟨0, 0⟩, 0, ()⟩, ⟨⟨0, 2, 0⟩, 0, ⟨0, 0⟩, 117961200, ()⟩]
  segments := [⟨⟨0, 4, 0⟩, ⟨0, 0⟩, 0, 1, 0⟩, ⟨⟨0, 2, 0⟩, ⟨0, 0⟩, 0, 1, 117961200⟩]
  tombstones := []
  attempts := []

abbrev agingHour (now : ℚ) : ClaimClock := ⟨now, fun n => n, 3600⟩

abbrev agingLanes : List LaneCandidate :=
  ClaimClock.candidates agingSample [⟨0, 2, 0⟩, ⟨0, 4, 0⟩] (fun _ => 0) (fun _ => 1) 0

/-- The first row has waited for 32767 hours and is claimed with the priority one; the second has
just come. -/
theorem claim_priorities_fresh :
    (∃ routed, (agingHour 117961200).routeLane false (fun _ => false) agingLanes = .ok routed) ∧
    ∃ claimed, (agingHour 117961200).claimRows agingSample ⟨0, 4, 0⟩ ⟨0, 0⟩ 0 1 = .ok claimed ∧
      claimed.map Prod.fst = [⟨⟨0, 4, 0⟩, 0, ⟨0, 0⟩, 0, ()⟩] ∧ ∀ row ∈ claimed, row.2 = 1 := by
  have fresh : (⟨0, 2, 0⟩ : Lane).Valid := by unfold Lane.Valid; decide
  have old : (⟨0, 4, 0⟩ : Lane).Valid := by unfold Lane.Valid; decide
  have lanes : agingLanes = [⟨⟨0, 2, 0⟩, 0, 1, some ⟨⟨0, 2, 0⟩, ⟨0, 0⟩, 0, 1, 117961200⟩⟩,
    ⟨⟨0, 4, 0⟩, 0, 1, some ⟨⟨0, 4, 0⟩, ⟨0, 0⟩, 0, 1, 0⟩⟩] := by decide
  have window : agingSample.window ⟨0, 4, 0⟩ ⟨0, 0⟩ 0 1 = [⟨⟨0, 4, 0⟩, 0, ⟨0, 0⟩, 0, ()⟩] := by
    decide
  obtain ⟨routed, claimed, ran, rows, priorities⟩ :=
    (claim_priorities (agingHour 117961200) agingLanes agingSample ⟨0, 4, 0⟩ ⟨0,
      0⟩ 0 1 (by norm_num) (by rw [lanes]; simp [fresh, old]) (by rw [window]; simp [old]) false
      fun _ => false).2
    (by rw [lanes, window]; norm_num [ClaimClock.Recent, ClaimClock.waited])
  refine ⟨routed, claimed, ran, rows.trans (by decide), ?_⟩
  intro row mem
  have only : row.1 = ⟨⟨0, 4, 0⟩, 0, ⟨0, 0⟩, 0, ()⟩ := by
    have kept := List.mem_map_of_mem (f := Prod.fst) mem
    rw [rows, window] at kept
    exact List.mem_singleton.1 (List.mem_of_mem_filter kept)
  rw [(priorities row mem).1, only]
  norm_num [ClaimClock.waited]

/-- The row of the priority 4 has waited for 32768 hours; the other one for an hour. -/
theorem old_head_stops_queue :
      (⟨117964800, fun n => n, 3600⟩ : ClaimClock).routeLane false (fun _ => false)
      (ClaimClock.candidates agingSample [⟨0, 2, 0⟩, ⟨0, 4, 0⟩] (fun _ => 0) (fun _ => 1) 0) =
        .error .smallintOutOfRange := by
  decide +kernel

end AwaQueue
