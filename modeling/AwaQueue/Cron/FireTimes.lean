import AwaQueue.Cron.Tables
import Mathlib.Data.List.Sort
import Mathlib.Data.Nat.Basic

/-! `compute_fire_times`: which fires of a schedule are due. Times are microseconds. -/

namespace AwaQueue.Cron

open List

structure CronTimes where
  times : List Nat
  increasing : times.Pairwise (· < ·)
deriving DecidableEq

namespace CronTimes
variable (cron : CronTimes)

def after (instant : Nat) : List Nat := cron.times.filter fun t => instant < t

/-- `iter_from`, which may or may not count the instant itself. -/
def iterFrom (inclusive : Bool) (start : Nat) : List Nat :=
  cron.times.filter fun t => if inclusive then decide (start ≤ t) else decide (start < t)

end CronTimes

section
variable (last : Option Nat) (now : Nat)

def isNew (fire : Nat) : Bool := last.all fun l => l < fire

def catchUpFires (limit : Nat) : List Nat → List Nat → List Nat
  | fireTimes, [] => fireTimes
  | fireTimes, fire :: rest =>
    if now < fire then fireTimes
    else if !isNew last fire then catchUpFires limit fireTimes rest
    else
      let fireTimes := fireTimes ++ [fire]
      if limit ≤ fireTimes.length then fireTimes else catchUpFires limit fireTimes rest

def firstDueFire : List Nat → Option Nat
  | [] => none
  | fire :: rest =>
    if now < fire then none else if isNew last fire then some fire else firstDueFire rest

def latestDueFireInWindow : Option Nat → List Nat → Option Nat
  | latest, [] => latest
  | latest, fire :: rest =>
    if now < fire then latest else latestDueFireInWindow (if isNew last fire then some fire
      else latest) rest

end

def second : Nat := 1000000

/-- The loop of `latest_due_fire`: look back over a window that doubles until it holds a due fire.
The fuel is the span in seconds, which the window reaches first. -/
def lookBack (cron : CronTimes) (inclusive : Bool) (last : Option Nat) (now firstDue span : Nat) :
    Nat → Nat → Nat
  | 0, _ => firstDue
  | fuel + 1, lookback =>
    let windowStart := max (now - lookback * second) firstDue
    if (cron.iterFrom inclusive windowStart).head?.any fun fire => fire ≤ now &&
        isNew last fire then
      (latestDueFireInWindow last now none (cron.iterFrom inclusive windowStart)).getD firstDue
    else if span ≤ lookback then firstDue
    else lookBack cron inclusive last now firstDue span fuel (min (lookback * 2) span)

def latestDueFire (cron : CronTimes) (inclusive : Bool) (searchStart : Nat) (last : Option Nat)
    (now : Nat) : Option Nat :=
  (firstDueFire last now (cron.iterFrom inclusive searchStart)).map fun firstDue =>
    let span := max ((now - firstDue) / second) 1
    lookBack cron inclusive last now firstDue span span 1

def cronCatchUpLimit : Nat := 1000

/-- What the worker knows of cron expressions: how they parse in a time zone, and how the iterator
treats its start. -/
structure CronLibrary where
  parse : String → String → Option CronTimes
  inclusive : Bool

def CronLibrary.cron (lib : CronLibrary) (job : PeriodicJob) : Option CronTimes :=
  lib.parse job.cronExpr job.timezone

def computeFireTimes (lib : CronLibrary) (row : CronJobRow) (now limit : Nat) : List Nat :=
  match lib.cron row.job with
  | none => []
  | some cron =>
    let searchStart := row.lastEnqueuedAt.getD (row.createdAt - 60 * second)
    if row.lastEnqueuedAt.isSome ∧ row.job.missedFirePolicy = .catchUp then
      catchUpFires row.lastEnqueuedAt now limit [] (cron.iterFrom lib.inclusive searchStart)
    else (latestDueFire cron lib.inclusive searchStart row.lastEnqueuedAt now).toList

namespace CronTimes
variable {cron : CronTimes} {instant fire : Nat} {rest : List Nat}

theorem after_cons (found : cron.after instant = fire :: rest) : rest = cron.after fire := by
  have sorted : (fire :: rest).Pairwise (· < ·) := found ▸ cron.increasing.filter _
  have later := (pairwise_cons.1 sorted).1
  have passed : instant < fire := by
    have mem : fire ∈ cron.after instant := found ▸ mem_cons_self
    simpa using (mem_filter.1 mem).2
  have narrowed : cron.after fire = (cron.after instant).filter fun t => fire < t := by
    unfold after
    rw [filter_filter]
    apply filter_congr
    intro t _
    by_cases high : fire < t
    · simp [high, passed.trans high]
    · simp [high]
  rw [narrowed, found, filter_cons_of_neg (by simp), filter_eq_self.2]
  intro t mem
  simpa using later t mem

theorem filter_iterFrom (inclusive : Bool) :
    (cron.iterFrom inclusive instant).filter (fun t => isNew (some instant) t) =
      cron.after instant := by
  unfold iterFrom after
  rw [filter_filter]
  apply filter_congr
  intro t _
  cases inclusive <;> simp only [isNew, Option.all_some, Bool.false_eq_true, if_true, if_false]
  · exact Bool.and_self _
  · by_cases high : instant < t
    · simp [high, high.le]
    · simp [high]

end CronTimes

section
variable {last : Option Nat} {now limit fire : Nat} {fires : List Nat} {inclusive : Bool}
    {cron : CronTimes}

/-- The catch-up loop appends the new fires in order up to some point. -/
theorem catchUpFires_prefix (last : Option Nat) (now limit : Nat) (found fires : List Nat) :
    ∃ count, catchUpFires last now limit found fires = found ++
      (fires.filter (isNew last)).take count := by
  induction fires generalizing found with
  | nil => exact ⟨0, by simp [catchUpFires]⟩
  | cons fire rest ih =>
    rw [catchUpFires]
    split
    · exact ⟨0, by simp⟩
    · split
      next old =>
        obtain ⟨count, later⟩ := ih found
        rw [Bool.not_eq_eq_eq_not, Bool.not_true] at old
        exact ⟨count, by rw [later, filter_cons_of_neg (by simp [old])]⟩
      next new =>
        rw [Bool.not_eq_true, Bool.not_eq_eq_eq_not, Bool.not_false] at new
        simp only [filter_cons_of_pos new]
        split
        · exact ⟨1, by simp⟩
        · obtain ⟨count, later⟩ := ih (found ++ [fire])
          exact ⟨count + 1, by rw [later, append_assoc, take_succ_cons, singleton_append]⟩

theorem firstDueFire_isNew (found : firstDueFire last now fires = some fire) :
    isNew last fire = true := by
  induction fires with
  | nil => cases found
  | cons head rest ih =>
    rw [firstDueFire] at found
    split at found
    · cases found
    · split at found
      next new =>
        cases found
        exact new
      next => exact ih found

theorem latestDueFireInWindow_isNew {latest : Option Nat}
    (start : ∀ t ∈ latest, isNew last t = true)
    (found : latestDueFireInWindow last now latest fires = some fire) : isNew last fire = true := by
  induction fires generalizing latest with
  | nil => exact start fire found
  | cons head rest ih =>
    rw [latestDueFireInWindow] at found
    split at found
    · exact start fire found
    · apply ih _ found
      intro t mem
      split at mem
      next new =>
        cases mem
        exact new
      next => exact start t mem

theorem lookBack_isNew {firstDue span : Nat} (new : isNew last firstDue = true)
    (fuel lookback : Nat) :
    isNew last (lookBack cron inclusive last now firstDue span fuel lookback) = true := by
  induction fuel generalizing lookback with
  | zero => exact new
  | succ fuel ih =>
    simp only [lookBack]
    split
    · cases found : latestDueFireInWindow last now none
          (cron.iterFrom inclusive (max (now - lookback * second) firstDue)) with
      | none => exact new
      | some fire => exact latestDueFireInWindow_isNew (fun t mem => by cases mem) found
    · split
      · exact new
      · exact ih _

theorem latestDueFire_isNew {searchStart : Nat}
    (found : latestDueFire cron inclusive searchStart last now = some fire) :
    isNew last fire = true := by
  obtain ⟨firstDue, first, rfl⟩ := Option.map_eq_some_iff.1 found
  exact lookBack_isNew (firstDueFire_isNew first) _ _

end

def Consecutive (cron : CronTimes) : Nat → List Nat → Prop
  | _, [] => True
  | previous, fire :: rest =>
    cron.after previous = fire :: cron.after fire ∧ Consecutive cron fire rest

theorem consecutive_take (cron : CronTimes) (previous count : Nat) :
    Consecutive cron previous ((cron.after previous).take count) := by
  induction count generalizing previous with
  | zero => exact trivial
  | succ count ih =>
    cases found : cron.after previous with
    | nil => exact trivial
    | cons fire rest =>
      have remaining := CronTimes.after_cons found
      rw [take_succ_cons]
      subst remaining
      exact ⟨found, ih fire⟩

def Increasing (previous : Option Nat) (fires : List Nat) : Prop :=
  (previous.toList ++ fires).Pairwise (· < ·)

variable {cron : CronTimes} {previous : Option Nat} {fire : Nat} {rest : List Nat}

theorem Consecutive.increasing {previous : Nat} {fires : List Nat}
    (consecutive : Consecutive cron previous fires) : Increasing (some previous) fires := by
  induction fires generalizing previous with
  | nil => exact pairwise_singleton _ _
  | cons fire rest ih =>
    obtain ⟨next, consecutive⟩ := consecutive
    have passed : previous < fire := by
      have mem : fire ∈ cron.after previous := next ▸ mem_cons_self
      simpa using (mem_filter.1 mem).2
    have later := ih consecutive
    refine pairwise_cons.2 ⟨?_, later⟩
    intro t mem
    rcases mem_cons.1 mem with rfl | mem
    · exact passed
    · exact passed.trans ((pairwise_cons.1 later).1 t mem)

/-- What an evaluator that catches up works through: each fire follows the one before it, and
without a `last_enqueued_at` there is at most one. -/
def CatchesUp (cron : CronTimes) : Option Nat → List Nat → Prop
  | none, fires => fires.tail = []
  | some previous, fires => Consecutive cron previous fires

theorem CatchesUp.pop (catches : CatchesUp cron previous (fire :: rest)) :
    CatchesUp cron (some fire) rest := by
  cases previous with
  | none =>
    obtain rfl : rest = [] := catches
    exact trivial
  | some previous => exact catches.2

theorem Increasing.pop (increasing : Increasing previous (fire :: rest)) :
    Increasing (some fire) rest :=
  (pairwise_append.1 increasing).2.1

theorem Increasing.lt {previous : Nat} (increasing : Increasing (some previous) (fire :: rest)) :
    previous < fire :=
  (pairwise_cons.1 increasing).1 fire mem_cons_self

/-- `compute_fire_times` gives times after `last_enqueued_at`, in order; catching up skips none. -/
theorem computeFireTimes_spec (lib : CronLibrary) (row : CronJobRow) (now limit : Nat) :
    Increasing row.lastEnqueuedAt (computeFireTimes lib row now limit) ∧
      ∀ cron, lib.cron row.job = some cron → row.job.missedFirePolicy = .catchUp →
        CatchesUp cron row.lastEnqueuedAt (computeFireTimes lib row now limit) := by
  cases parsed : lib.cron row.job with
  | none =>
    simp only [computeFireTimes, parsed]
    refine ⟨?_, fun _ known => by cases known⟩
    cases row.lastEnqueuedAt <;> simp [Increasing]
  | some cron =>
    simp only [computeFireTimes, parsed]
    split
    next catching =>
      obtain ⟨last, known⟩ := Option.isSome_iff_exists.1 catching.1
      obtain ⟨count, fires⟩ := catchUpFires_prefix row.lastEnqueuedAt now limit []
        (cron.iterFrom lib.inclusive (row.lastEnqueuedAt.getD (row.createdAt - 60 * second)))
      have taken : catchUpFires row.lastEnqueuedAt now limit []
          (cron.iterFrom lib.inclusive (row.lastEnqueuedAt.getD (row.createdAt - 60 * second))) =
          (cron.after last).take count := by
        rw [fires, known, Option.getD_some, nil_append, CronTimes.filter_iterFrom]
      rw [taken, known]
      refine ⟨(consecutive_take cron last count).increasing, ?_⟩
      rintro _ ⟨⟩ -
      exact consecutive_take cron last count
    next once =>
      cases found : latestDueFire cron lib.inclusive
          (row.lastEnqueuedAt.getD (row.createdAt - 60 * second)) row.lastEnqueuedAt now with
      | none => cases row.lastEnqueuedAt <;> simp [Increasing, CatchesUp, Consecutive]
      | some fire =>
        have new := latestDueFire_isNew found
        cases known : row.lastEnqueuedAt with
        | none => simp [Increasing, CatchesUp]
        | some last =>
          rw [known] at new once
          refine ⟨by simpa [Increasing, isNew] using new, ?_⟩
          intro _ _ policy
          exact absurd ⟨rfl, policy⟩ once

end AwaQueue.Cron
