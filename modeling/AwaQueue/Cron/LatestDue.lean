import AwaQueue.Cron.FireTimes
import Mathlib.Order.Bounds.Basic

/-! `latest_due_fire` against the forward scan of `latest_fire_time`.

The fast search looks back over windows that start whole seconds before now. What lies less than a
second after the first due fire is in none of them, so the two agree on fires that are at least a
second apart, as those of a cron expression are: its finest field is the second. -/

namespace AwaQueue.Cron

open List

def latestFireScan (after : Option Nat) (now : Nat) : Option Nat → List Nat → Option Nat
  | latest, [] => latest
  | latest, fire :: rest =>
    if now < fire then latest
    else if after.any fun time => fire ≤ time then latestFireScan after now latest rest
    else latestFireScan after now (some fire) rest

def latestFireTime (cron : CronTimes) (inclusive : Bool) (now : Nat) (after : Option Nat) :
    Option Nat :=
  latestFireScan after now none (cron.iterFrom inclusive (after.getD (now - 24 * 3600 * second)))

def lookBackRounds (cron : CronTimes) (inclusive : Bool) (last : Option Nat)
    (now firstDue span : Nat) : Nat → Nat → Option Nat
  | 0, _ => none
  | rounds + 1, lookback =>
    let windowStart := max (now - lookback * second) firstDue
    if (cron.iterFrom inclusive windowStart).head?.any fun fire => fire ≤ now &&
        isNew last fire then
      some ((latestDueFireInWindow last now none (cron.iterFrom inclusive windowStart)).getD
        firstDue)
    else if span ≤ lookback then some firstDue
    else lookBackRounds cron inclusive last now firstDue span rounds (min (lookback * 2) span)

section
variable {last : Option Nat} {now : Nat} {fires : List Nat}

theorem latestFireScan_eq (latest : Option Nat) (fires : List Nat) :
    latestFireScan last now latest fires = latestDueFireInWindow last now latest fires := by
  induction fires generalizing latest with
  | nil => rfl
  | cons fire rest ih =>
    have new : isNew last fire = !(last.any fun time => fire ≤ time) := by
      cases last with
      | none => rfl
      | some time =>
        by_cases late : fire ≤ time
        · simp [isNew, late]
        · simp [isNew, late, not_le.1 late]
    rw [latestFireScan, latestDueFireInWindow, new]
    split
    · rfl
    · cases last.any fun time => decide (fire ≤ time) with
      | true => exact ih latest
      | false => exact ih (some fire)

/-- The rounds that returned are those of the model with any fuel. -/
theorem lookBack_eq {cron : CronTimes} {inclusive : Bool}
    {firstDue span rounds lookback found : Nat}
    (returned : lookBackRounds cron inclusive last now firstDue span rounds lookback = some found) :
    lookBack cron inclusive last now firstDue span rounds lookback = found := by
  induction rounds generalizing lookback with
  | zero => cases returned
  | succ rounds ih =>
    simp only [lookBackRounds] at returned
    simp only [lookBack]
    split at returned
    next due =>
      rw [if_pos due]
      exact Option.some.inj returned
    next missed =>
      rw [if_neg missed]
      split at returned
      next last =>
        rw [if_pos last]
        exact Option.some.inj returned
      next more =>
        rw [if_neg more]
        exact ih returned

def Due (last : Option Nat) (now : Nat) (fires : List Nat) : Set Nat :=
  {t | t ∈ fires ∧ isNew last t = true ∧ t ≤ now}

theorem latestDueFireInWindow_none (none : ∀ t ∈ fires, t ∉ Due last now fires)
    (latest : Option Nat) : latestDueFireInWindow last now latest fires = latest := by
  induction fires with
  | nil => rfl
  | cons fire rest ih =>
    rw [latestDueFireInWindow]
    split
    · rfl
    next reached =>
      have old : isNew last fire ≠ true := fun new => none fire mem_cons_self ⟨mem_cons_self, new,
        not_lt.1 reached⟩
      rw [if_neg old]
      apply ih
      intro t mem due
      exact none t (mem_cons_of_mem _ mem) ⟨mem_cons_of_mem _ mem, due.2⟩

theorem latestDueFireInWindow_greatest (increasing : fires.Pairwise (· < ·)) {t : Nat}
    (due : t ∈ Due last now fires) (latest : Option Nat) :
    ∃ found, latestDueFireInWindow last now latest fires = some found ∧
      IsGreatest (Due last now fires) found := by
  induction fires generalizing latest t with
  | nil => cases due.1
  | cons fire rest ih =>
    obtain ⟨later, increasing⟩ := pairwise_cons.1 increasing
    have reached : fire ≤ now := by
      rcases mem_cons.1 due.1 with rfl | mem
      · exact due.2.2
      · exact (later t mem).le.trans due.2.2
    rw [latestDueFireInWindow, if_neg (not_lt.2 reached)]
    by_cases more : ∃ u, u ∈ Due last now rest
    · obtain ⟨u, waiting⟩ := more
      obtain ⟨found, returned, mem, greatest⟩ :=
        ih increasing waiting (if isNew last fire then some fire else latest)
      refine ⟨found, returned, ⟨mem_cons_of_mem _ mem.1, mem.2⟩, ?_⟩
      intro v passes
      rcases mem_cons.1 passes.1 with rfl | inside
      · exact (later found mem.1).le
      · exact greatest ⟨inside, passes.2⟩
    · have only : t = fire := by
        rcases mem_cons.1 due.1 with same | mem
        · exact same
        · exact absurd ⟨t, mem, due.2⟩ more
      subst only
      rw [if_pos due.2.1, latestDueFireInWindow_none fun u _ passes => more ⟨u, passes⟩]
      refine ⟨t, rfl, due, ?_⟩
      intro v passes
      rcases mem_cons.1 passes.1 with rfl | inside
      · exact le_rfl
      · exact absurd ⟨v, inside, passes.2⟩ more

theorem firstDueFire_least (increasing : fires.Pairwise (· < ·)) {first : Nat}
    (found : firstDueFire last now fires = some first) : IsLeast (Due last now fires) first := by
  induction fires with
  | nil => cases found
  | cons fire rest ih =>
    obtain ⟨later, increasing⟩ := pairwise_cons.1 increasing
    rw [firstDueFire] at found
    split at found
    · cases found
    next reached =>
      split at found
      next new =>
        cases found
        refine ⟨⟨mem_cons_self, new, not_lt.1 reached⟩, ?_⟩
        intro t due
        rcases mem_cons.1 due.1 with rfl | mem
        · exact le_rfl
        · exact (later t mem).le
      next old =>
        obtain ⟨mem, least⟩ := ih increasing found
        refine ⟨⟨mem_cons_of_mem _ mem.1, mem.2⟩, ?_⟩
        intro t due
        rcases mem_cons.1 due.1 with rfl | inside
        · exact absurd due.2.1 old
        · exact least ⟨inside, due.2⟩

theorem firstDueFire_none (increasing : fires.Pairwise (· < ·))
    (missed : firstDueFire last now fires = none) (t : Nat) : t ∉ Due last now fires := by
  induction fires with
  | nil => exact fun due => absurd due.1 not_mem_nil
  | cons fire rest ih =>
    obtain ⟨later, increasing⟩ := pairwise_cons.1 increasing
    rw [firstDueFire] at missed
    intro due
    split at missed
    next beyond =>
      rcases mem_cons.1 due.1 with rfl | mem
      · exact absurd due.2.2 (not_le.2 beyond)
      · exact absurd due.2.2 (not_le.2 (beyond.trans (later t mem)))
    next reached =>
      split at missed
      · cases missed
      next old =>
        rcases mem_cons.1 due.1 with rfl | mem
        · exact old due.2.1
        · exact ih increasing missed ⟨mem, due.2⟩

end

section
variable {cron : CronTimes} {inclusive : Bool} {last now : Nat} {start : Nat}

def CronTimes.dueBetween (cron : CronTimes) (last now : Nat) : Set Nat :=
  {t | t ∈ cron.times ∧ last < t ∧ t ≤ now}

theorem due_iterFrom :
    Due (some last) now (cron.iterFrom inclusive last) = cron.dueBetween last now := by
  ext t
  simp only [Due, CronTimes.dueBetween, CronTimes.iterFrom, Set.mem_ofPred_eq, mem_filter, isNew,
    Option.all_some, decide_eq_true_eq]
  constructor
  · rintro ⟨⟨mem, -⟩, new, reached⟩
    exact ⟨mem, new, reached⟩
  · rintro ⟨mem, new, reached⟩
    refine ⟨⟨mem, ?_⟩, new, reached⟩
    cases inclusive
    · simpa using new
    · simpa using new.le

def CronTimes.Spaced (cron : CronTimes) : Prop := ∀ t ∈ cron.times, ∀ u ∈ cron.times, t < u →
    t + second ≤ u

/-- Assumed of `croner`: a time that it yields has no fraction of a second, the finest field of an
expression. -/
def CronTimes.WholeSeconds (cron : CronTimes) : Prop := ∀ t ∈ cron.times, second ∣ t

theorem CronTimes.WholeSeconds.spaced (whole : cron.WholeSeconds) : cron.Spaced := by
  intro t listed u listed' before
  obtain ⟨k, rfl⟩ := whole t listed
  obtain ⟨l, rfl⟩ := whole u listed'
  have apart : k + 1 ≤ l := Nat.lt_of_mul_lt_mul_left before
  calc second * k + second = second * (k + 1) := (Nat.mul_succ second k).symm
    _ ≤ second * l := Nat.mul_le_mul_left second apart

theorem iterFrom_increasing (start : Nat) : (cron.iterFrom inclusive start).Pairwise (· < ·) :=
  cron.increasing.filter _

theorem le_of_mem_iterFrom {t : Nat} (mem : t ∈ cron.iterFrom inclusive start) :
    t ∈ cron.times ∧ start ≤ t := by
  obtain ⟨listed, passes⟩ := mem_filter.1 mem
  refine ⟨listed, ?_⟩
  cases inclusive
  · exact (of_decide_eq_true passes).le
  · exact of_decide_eq_true passes

theorem mem_iterFrom_of_lt {t : Nat} (listed : t ∈ cron.times) (passed : start < t) :
    t ∈ cron.iterFrom inclusive start := by
  refine mem_filter.2 ⟨listed, ?_⟩
  cases inclusive
  · simpa using passed
  · simpa using passed.le

/-- A window whose first fire is due ends in the latest fire of all. -/
theorem window_greatest
    (due : (cron.iterFrom inclusive start).head?.any (fun fire => fire ≤ now &&
    isNew (some last) fire) = true) : ∃ found, latestDueFireInWindow (some last) now none
      (cron.iterFrom inclusive start) = some found ∧
      IsGreatest (cron.dueBetween last now) found := by
  obtain ⟨fire, head, passes⟩ := (Option.any_eq_true _ _).1 due
  obtain ⟨reached, new⟩ := Bool.and_eq_true_iff.1 passes
  have mem : fire ∈ Due (some last) now (cron.iterFrom inclusive start) :=
    ⟨mem_of_head? head, new, of_decide_eq_true reached⟩
  obtain ⟨found, returned, inside, greatest⟩ :=
    latestDueFireInWindow_greatest (iterFrom_increasing start) mem none
  obtain ⟨listed, after⟩ := le_of_mem_iterFrom inside.1
  refine ⟨found, returned, ⟨listed, of_decide_eq_true inside.2.1, inside.2.2⟩, ?_⟩
  rintro t ⟨listed, new, reached⟩
  -- A fire that the window leaves out lies before everything in it.
  by_cases passed : start < t
  · exact greatest ⟨mem_iterFrom_of_lt listed passed, decide_eq_true new, reached⟩
  · exact (not_lt.1 passed).trans after

section
variable {first : Nat} (least : IsLeast (cron.dueBetween last now) first)
include least

theorem window_empty {start : Nat} (covers : first ≤ start)
    (missed : ¬(cron.iterFrom inclusive start).head?.any (fun fire => fire ≤ now &&
    isNew (some last) fire) = true) {t : Nat} (due : t ∈ cron.dueBetween last now) : t ≤ start := by
  by_contra passed
  have mem : t ∈ cron.iterFrom inclusive start := mem_iterFrom_of_lt due.1 (not_le.1 passed)
  cases fires : cron.iterFrom inclusive start with
  | nil =>
    rw [fires] at mem
    cases mem
  | cons fire rest =>
    have before : fire ≤ t := by
      have increasing : (cron.iterFrom inclusive start).Pairwise (· < ·) :=
        iterFrom_increasing start
      rw [fires] at mem increasing
      rcases mem_cons.1 mem with rfl | later
      · exact le_rfl
      · exact ((pairwise_cons.1 increasing).1 t later).le
    have from_ : start ≤ fire := (le_of_mem_iterFrom (by rw [fires]; exact mem_cons_self)).2
    have new : last < fire := least.1.2.1.trans_le (covers.trans from_)
    rw [fires] at missed
    apply missed
    simp [isNew, new, before.trans due.2.2]

theorem lookBackRounds_greatest (spaced : cron.Spaced) (rounds lookback : Nat)
    (positive : 0 < lookback) (within : lookback ≤ max ((now - first) / second) 1)
    (enough : max ((now - first) / second) 1 < lookback + rounds) :
      ∃ found, lookBackRounds cron inclusive (some last) now first (max ((now - first) / second) 1)
      rounds lookback = some found ∧ IsGreatest (cron.dueBetween last now) found := by
  induction rounds generalizing lookback with
  | zero => omega
  | succ rounds ih =>
    simp only [lookBackRounds]
    split
    next due =>
      obtain ⟨found, returned, greatest⟩ := window_greatest due
      exact ⟨found, by rw [returned, Option.getD_some], greatest⟩
    next missed =>
      split
      next whole =>
        refine ⟨first, rfl, least.1, ?_⟩
        intro t due
        have bound := window_empty least (le_max_right _ _) missed due
        -- The last window starts less than a second after the first due fire.
        by_contra later
        have apart := spaced first least.1.1 t due.1 (not_le.1 later)
        have reached := due.2.2
        have seconds : 0 < second := by decide
        have floor : (now - first) / second * second + (now - first) % second = now - first := by
          rw [Nat.mul_comm]
          exact Nat.div_add_mod _ _
        have rest := Nat.mod_lt (now - first) seconds
        have one : 1 ≤ (now - first) / second := (Nat.one_le_div_iff seconds).2 (by omega)
        have all : lookback = (now - first) / second := by omega
        rw [all] at bound
        omega
      next more =>
        exact ih _ (by omega) (by omega) (by omega)

end

end

/-- On the whole seconds of a cron schedule the search in growing windows returns, and what it
returns is the greatest fire after the last time up to now, as the forward scan finds it. A schedule
may fire for ever; `cron` lists its fires up to now at least. -/
theorem latest_due_fire_eq_scan (fires : Set Nat) (cron : CronTimes) (inclusive : Bool)
    (last now : Nat) (lists : ∀ t ≤ now, t ∈ cron.times ↔ t ∈ fires) (croner : cron.WholeSeconds) :
    (∀ first, firstDueFire (some last) now (cron.iterFrom inclusive last) = some first →
      ∃ found, lookBackRounds cron inclusive (some last) now first (max ((now - first) / second) 1)
        (max ((now - first) / second) 1) 1 = some found) ∧
    latestDueFire cron inclusive last (some last) now = latestFireTime cron inclusive now
    (some last) ∧ (∀ found, latestDueFire cron inclusive last (some last) now = some found ↔
      IsGreatest {t | t ∈ fires ∧ last < t ∧ t ≤ now} found) ∧
    (latestDueFire cron inclusive last (some last) now = none ↔ ∀ t ∈ fires, last < t →
      now < t) := by
  have range : {t | t ∈ fires ∧ last < t ∧ t ≤ now} = cron.dueBetween last now := by
    ext t
    constructor
    · rintro ⟨listed, new, reached⟩
      exact ⟨(lists t reached).2 listed, new, reached⟩
    · rintro ⟨listed, new, reached⟩
      exact ⟨(lists t reached).1 listed, new, reached⟩
  rw [range]
  have scan : latestFireTime cron inclusive now (some last) =
      latestDueFireInWindow (some last) now none (cron.iterFrom inclusive last) :=
        latestFireScan_eq none _
  cases first : firstDueFire (some last) now (cron.iterFrom inclusive last) with
  | none =>
    have empty := firstDueFire_none (iterFrom_increasing last) first
    have nothing : latestDueFire cron inclusive last (some last) now = none := by
      rw [latestDueFire, first, Option.map_none]
    refine ⟨fun _ found => (by cases found), ?_, ?_, ?_⟩
    · rw [nothing, scan, latestDueFireInWindow_none fun t _ => empty t]
    · intro found
      rw [nothing]
      constructor
      · intro some_
        cases some_
      · intro greatest
        rw [due_iterFrom] at empty
        exact absurd greatest.1 (empty found)
    · refine ⟨fun _ t listed new => ?_, fun _ => nothing⟩
      rw [due_iterFrom] at empty
      exact not_le.1 fun reached => empty t ⟨(lists t reached).2 listed, new, reached⟩
  | some first' =>
    have least := firstDueFire_least (iterFrom_increasing last) first
    rw [due_iterFrom] at least
    have searched : ∃ found, lookBackRounds cron inclusive (some last) now first'
        (max ((now - first') / second) 1) (max ((now - first') / second) 1) 1 = some found ∧
          IsGreatest (cron.dueBetween last now) found :=
      lookBackRounds_greatest least croner.spaced _ 1 (by omega) (by omega) (by omega)
    obtain ⟨found, returned, greatest⟩ := searched
    have result : latestDueFire cron inclusive last (some last) now = some found := by
      rw [latestDueFire, first, Option.map_some]
      exact congrArg some (lookBack_eq returned)
    refine ⟨?_, ?_, ?_, ?_⟩
    · rintro _ ⟨⟩
      exact ⟨found, returned⟩
    · have member : found ∈ Due (some last) now (cron.iterFrom inclusive last) := by
        rw [due_iterFrom]
        exact greatest.1
      obtain ⟨other, scanned, greatest'⟩ :=
        latestDueFireInWindow_greatest (iterFrom_increasing last) member none
      rw [due_iterFrom] at greatest'
      rw [result, scan, scanned, greatest'.unique greatest]
    · intro other
      rw [result, Option.some.injEq]
      constructor
      · rintro rfl
        exact greatest
      · exact greatest.unique
    · rw [result]
      constructor
      · intro none
        cases none
      · intro beyond
        obtain ⟨listed, new, reached⟩ := greatest.1
        exact absurd reached (not_le.2 (beyond found ((lists found reached).1 listed) new))

/-- A schedule that fires every minute, at six and a half minutes. -/
theorem latest_due_fire_eq_scan_minutes :
    latestDueFire ⟨(List.range 8).map (· * 60000000), by decide⟩ true 60000000
      (some 60000000) 390000000 = some 360000000 := by
  refine ((latest_due_fire_eq_scan {t | 60000000 ∣ t} ⟨(List.range 8).map (· * 60000000), by decide⟩
    true 60000000 390000000
    ?_ (by unfold CronTimes.WholeSeconds; decide)).2.2.1 _).2 ⟨⟨⟨6, rfl⟩, by decide, by decide⟩, ?_⟩
  · intro t reached
    simp only [List.mem_map, List.mem_range, Set.mem_ofPred_eq]
    constructor
    · rintro ⟨minute, -, rfl⟩
      exact ⟨minute, Nat.mul_comm _ _⟩
    · rintro ⟨minute, rfl⟩
      exact ⟨minute, by omega, Nat.mul_comm _ _⟩
  · rintro t ⟨⟨minute, rfl⟩, -, reached⟩
    omega

-- Of two fires less than a second apart the search would miss the later one.
example : latestDueFire ⟨[1000000, 1300000], by decide⟩ true 0 (some 0) 3500000 = some 1000000 ∧
    latestFireTime ⟨[1000000, 1300000], by decide⟩ true 3500000 (some 0) = some 1300000 := by
  decide

end AwaQueue.Cron
