import AwaQueue.Library.Machine
import AwaQueue.Maintenance.Backoff

/-! `MaintenanceBranchTracker`: when the leader loop skips the body of a branch that overruns its
tick interval.

A tick first counts down a cooldown. It then judges the duration of the last body, which may arm a
new cooldown, and runs the body if none is armed. Every sample is judged once, so a cooldown cannot
arm itself again. -/

namespace AwaQueue.Maintenance

open List

def asMillis (d : Nat) : Nat := d / 1000000

def divCeil (a b : Nat) : Nat := (a + b - 1) / b

structure MaintenanceBranchState where
  lastDuration : Option Nat := none
  isDelayed : Bool := false
  consecutiveOverrun : Nat := 0
  consecutiveOntime : Nat := 0
  cooldownTicksRemaining : Nat := 0
deriving DecidableEq

def overrunHysteresisK : Nat := 3
def branchCooldownTicks : Nat := 120

def saturatingSucc (n : Nat) : Nat := min (n + 1) 4294967295

def pacedCooldown (cooldownTicks : Nat) (tickInterval lastDuration : Nat) : Nat :=
  if cooldownTicks = 0 then 0
  else min (max (divCeil (2 * asMillis lastDuration) (max (asMillis tickInterval) 1)) 1)
    cooldownTicks

structure Sample where
  duration : Nat
  tickInterval : Nat

def Sample.Overrun (x : Sample) : Prop := x.duration > x.tickInterval * 3 / 2

def Sample.OnTime (x : Sample) : Prop := x.duration < x.tickInterval * 7 / 10

instance (x : Sample) : Decidable x.Overrun := inferInstanceAs (Decidable (_ < _))
instance (x : Sample) : Decidable x.OnTime := inferInstanceAs (Decidable (_ < _))

namespace MaintenanceBranchState
variable (s : MaintenanceBranchState)

def countOverrun : MaintenanceBranchState :=
  { s with consecutiveOverrun := saturatingSucc s.consecutiveOverrun, consecutiveOntime := 0 }

def countOntime : MaintenanceBranchState :=
  { s with consecutiveOntime := saturatingSucc s.consecutiveOntime, consecutiveOverrun := 0 }

def pace (cooldownTicks : Nat) (x : Sample) : MaintenanceBranchState :=
  { s with cooldownTicksRemaining := pacedCooldown cooldownTicks x.tickInterval x.duration }

def overrun (cooldownTicks : Nat) (x : Sample) : MaintenanceBranchState × Bool :=
  if overrunHysteresisK ≤ s.consecutiveOverrun ∧ s.isDelayed = false then
    ({ s.pace cooldownTicks x with isDelayed := true },
      (s.pace cooldownTicks x).cooldownTicksRemaining = 0)
  else if overrunHysteresisK ≤ s.consecutiveOverrun ∧ s.isDelayed = true ∧ 0 < cooldownTicks then
    (s.pace cooldownTicks x, false)
  else (s, true)

def onTime : MaintenanceBranchState :=
  if overrunHysteresisK ≤ s.consecutiveOntime ∧ s.isDelayed = true then
    { s with isDelayed := false } else s

/-- The second phase of `try_begin_with_cooldown`; whether the body runs. -/
def judge (cooldownTicks : Nat) (x : Sample) : MaintenanceBranchState × Bool :=
  if x.Overrun then s.countOverrun.overrun cooldownTicks x
  else if x.OnTime then (s.countOntime.onTime, true)
  else (s, true)

def taken : MaintenanceBranchState := { s with lastDuration := none }

def coolDown : MaintenanceBranchState :=
  { s with cooldownTicksRemaining := s.cooldownTicksRemaining - 1 }

def tryBeginWithCooldown (cooldownTicks : Nat) (tickInterval : Nat) :
    (MaintenanceBranchState × Bool) × Option Sample :=
  if 0 < s.cooldownTicksRemaining then ((s.coolDown, false), none)
  else match s.lastDuration with
    | none => ((s, true), none)
    | some last => (s.taken.judge cooldownTicks ⟨last, tickInterval⟩, some ⟨last, tickInterval⟩)

def recordFinish (duration : Nat) : MaintenanceBranchState :=
  { s with lastDuration := some duration }

end MaintenanceBranchState

/-- A branch fires; `body` is how long its body takes if it runs. -/
structure Tick (β : Type) where
  branch : β
  tickInterval : Nat
  body : Nat

/-- The state of a branch, the durations recorded for it and the samples judged, oldest first. -/
structure BranchLog where
  state : MaintenanceBranchState := {}
  recorded : List Nat := []
  judged : List Sample := []

namespace BranchLog

def begin (log : BranchLog) (cooldownTicks : Nat) (tickInterval : Nat) : BranchLog × Bool :=
  let begun := log.state.tryBeginWithCooldown cooldownTicks tickInterval
  ({ log with state := begun.1.1, judged := log.judged ++ begun.2.toList }, begun.1.2)

def tick (cooldownTicks : Nat) (log : BranchLog) (tickInterval body : Nat) : BranchLog :=
  let begun := log.begin cooldownTicks tickInterval
  if begun.2 then { begun.1 with state := begun.1.state.recordFinish body, recorded :=
    begun.1.recorded ++ [body] } else begun.1

end BranchLog

section
variable {β : Type} [DecidableEq β]

def cooldownOf (cooled : β → Bool) (branch : β) : Nat := if cooled branch then branchCooldownTicks
    else 0

/-- The tracker over the ticks of all branches; `cooled` are those begun with `try_begin`. -/
def branchRun (cooled : β → Bool) (history : List (Tick β)) : β → BranchLog :=
  history.foldl (fun logs t => Function.update logs t.branch
    ((logs t.branch).tick (cooldownOf cooled t.branch) t.tickInterval t.body)) fun _ => {}

end

/-- What judging a sample does: the branch is skipped exactly when a cooldown is armed, and turns
delayed only at the third overrun. -/
structure JudgeSpec (s : MaintenanceBranchState) (cooldownTicks : Nat) (x : Sample)
    (r : MaintenanceBranchState × Bool) : Prop where
  last : r.1.lastDuration = s.lastDuration
  ran : r.2 = true → r.1.cooldownTicksRemaining = 0
  skipped : r.2 = false → 0 < cooldownTicks ∧
    r.1.cooldownTicksRemaining = pacedCooldown cooldownTicks x.tickInterval x.duration
  onTime : x.OnTime → r.1.consecutiveOverrun = 0
  overruns : r.1.consecutiveOverrun ≤ s.consecutiveOverrun + if x.Overrun then 1 else 0
  delayed : s.isDelayed = false → r.1.isDelayed = true → overrunHysteresisK ≤ r.1.consecutiveOverrun

theorem Sample.Overrun.not_onTime {x : Sample} (overrun : x.Overrun) : ¬ x.OnTime := by
  unfold Sample.Overrun at overrun
  unfold Sample.OnTime
  omega

theorem saturatingSucc_le (n : Nat) : saturatingSucc n ≤ n + 1 := Nat.min_le_left _ _

theorem judge_spec {s : MaintenanceBranchState} (idle : s.cooldownTicksRemaining = 0)
    (cooldownTicks : Nat) (x : Sample) : JudgeSpec s cooldownTicks x (s.judge cooldownTicks x) := by
  have counted := saturatingSucc_le s.consecutiveOverrun
  unfold MaintenanceBranchState.judge MaintenanceBranchState.overrun MaintenanceBranchState.onTime
  split
  · next overrun =>
    have late := overrun.not_onTime
    have more : saturatingSucc s.consecutiveOverrun ≤ s.consecutiveOverrun + if x.Overrun then
        1 else 0 := by
      rwa [if_pos overrun]
    split
    · next turned =>
      refine ⟨rfl, by simp, ?_, by simp [late], more, fun _ _ => turned.1⟩
      intro armed
      refine ⟨Nat.pos_of_ne_zero ?_, rfl⟩
      rintro rfl
      simp [MaintenanceBranchState.pace, pacedCooldown] at armed
    · split
      · next again =>
        exact ⟨rfl, by simp, fun _ => ⟨again.2.2, rfl⟩, by simp [late], more,
            fun fresh delayed => by
          cases fresh.symm.trans delayed⟩
      · exact ⟨rfl, fun _ => idle, by simp, by simp [late], more,
          fun fresh delayed => by cases fresh.symm.trans delayed⟩
  · next within =>
    split
    · split
      · exact ⟨rfl, fun _ => idle, by simp, fun _ => rfl, Nat.zero_le _, by simp⟩
      · exact ⟨rfl, fun _ => idle, by simp, fun _ => rfl, Nat.zero_le _,
          fun fresh delayed => by cases fresh.symm.trans delayed⟩
    · next late =>
        exact ⟨rfl, fun _ => idle, by simp, by simp [late], Nat.le_add_right _ _, by simp_all⟩

namespace BranchLog
variable {log log' : BranchLog} {limit interval body : Nat}

/-- A tick counts the cooldown down, runs a body that has no sample to judge, or judges the last
sample and then either runs the body or is skipped. -/
inductive Ticked (log : BranchLog) (limit interval body : Nat) : BranchLog → Prop
  | cooling (waiting : 0 < log.state.cooldownTicksRemaining) :
    Ticked log limit interval body { log with state := log.state.coolDown }
  | fresh (idle : log.state.cooldownTicksRemaining = 0) (last : log.state.lastDuration = none) :
    Ticked log limit interval body { log with state := log.state.recordFinish body, recorded :=
      log.recorded ++ [body] }
  | ran {d : Nat} {s : MaintenanceBranchState} (idle : log.state.cooldownTicksRemaining = 0)
      (last : log.state.lastDuration = some d) (spec : JudgeSpec log.state.taken limit ⟨d,
        interval⟩ (s, true)) :
    Ticked log limit interval body ⟨s.recordFinish body, log.recorded ++ [body],
      log.judged ++ [⟨d, interval⟩]⟩
  | skipped {d : Nat} {s : MaintenanceBranchState} (idle : log.state.cooldownTicksRemaining = 0)
      (last : log.state.lastDuration = some d) (spec : JudgeSpec log.state.taken limit ⟨d,
        interval⟩ (s, false)) :
    Ticked log limit interval body ⟨s, log.recorded, log.judged ++ [⟨d, interval⟩]⟩

theorem ticked (log : BranchLog) (limit interval body : Nat) :
    Ticked log limit interval body (log.tick limit interval body) := by
  unfold tick begin MaintenanceBranchState.tryBeginWithCooldown
  by_cases waiting : 0 < log.state.cooldownTicksRemaining
  · simp only [if_pos waiting, Bool.false_eq_true, if_false, Option.toList_none, append_nil]
    exact .cooling waiting
  · have idle : log.state.cooldownTicksRemaining = 0 := by omega
    cases last : log.state.lastDuration with
    | none =>
      simp only [if_neg waiting, if_true, Option.toList_none, append_nil]
      exact .fresh idle last
    | some d =>
      simp only [if_neg waiting]
      have spec := judge_spec (s := log.state.taken) idle limit ⟨d, interval⟩
      generalize MaintenanceBranchState.judge _ _ _ = r at spec ⊢
      obtain ⟨s, begun⟩ := r
      cases begun with
      | true => exact .ran idle last spec
      | false => exact .skipped idle last spec

/-- Samples are judged in the order of their recording, each of them once; an overrun that counts
has no on-time sample behind it. -/
structure Ok (log : BranchLog) : Prop where
  samples : log.judged.map Sample.duration ++ log.state.lastDuration.toList = log.recorded
  streak : ∃ earlier recent, log.judged = earlier ++ recent ∧ (∀ x ∈ recent, ¬ x.OnTime) ∧
    log.state.consecutiveOverrun ≤ recent.countP fun x => x.Overrun

theorem Ok.streak_judge (ok : log.Ok) {d : Nat} {s : MaintenanceBranchState} {begun : Bool}
    (spec : JudgeSpec log.state.taken limit ⟨d, interval⟩ (s, begun)) :
    ∃ earlier recent, log.judged ++ [⟨d, interval⟩] = earlier ++ recent ∧
      (∀ x ∈ recent, ¬ x.OnTime) ∧ s.consecutiveOverrun ≤ recent.countP fun x => x.Overrun := by
  by_cases onTime : Sample.OnTime ⟨d, interval⟩
  · exact ⟨_, [], (append_nil _).symm, by simp, Nat.le_of_eq (spec.onTime onTime)⟩
  · obtain ⟨earlier, recent, shape, late, counted⟩ := ok.streak
    refine ⟨earlier, recent ++ [⟨d, interval⟩], by rw [shape,
      append_assoc], Library.forall_mem_concat late onTime, ?_⟩
    have more : s.consecutiveOverrun ≤ log.state.consecutiveOverrun + _ := spec.overruns
    rw [countP_append, countP_singleton]
    simp only [decide_eq_true_eq]
    omega

namespace Ticked

section
variable (step : Ticked log limit interval body log')
include step

theorem ok (ok : log.Ok) : log'.Ok := by
  have samples := ok.samples
  cases step with
  | cooling waiting => exact ⟨samples, ok.streak⟩
  | fresh idle last =>
    rw [last, Option.toList_none, append_nil] at samples
    exact ⟨by rw [samples]; rfl, ok.streak⟩
  | ran idle last spec =>
    have streak := ok.streak_judge spec
    refine ⟨?_, streak⟩
    rw [← samples, last, map_append]
    rfl
  | skipped idle last spec =>
    refine ⟨?_, ok.streak_judge spec⟩
    rw [← samples, last, map_append, spec.last]
    exact append_nil _

theorem delayed (before : log.state.isDelayed = false)
    (after : log'.state.isDelayed = true) : overrunHysteresisK ≤ log'.state.consecutiveOverrun := by
  cases step with
  | cooling waiting | fresh idle last => exact absurd (before.symm.trans after) (by decide)
  | ran idle last spec | skipped idle last spec => exact spec.delayed before after

theorem of_ran (more : log'.recorded ≠ log.recorded) :
    log'.state.cooldownTicksRemaining = 0 ∧ log'.state.lastDuration = some body := by
  cases step with
  | cooling waiting => exact absurd rfl more
  | fresh idle last => exact ⟨idle, rfl⟩
  | ran idle last spec => exact ⟨spec.ran rfl, rfl⟩
  | skipped idle last spec => exact absurd rfl more

theorem recorded_le : log.recorded.length ≤ log'.recorded.length := by
  cases step <;> simp

/-- A tick that runs no body counts the cooldown down or arms one for the sample that it judges. -/
theorem of_quiet (quiet : log'.recorded.length ≤ log.recorded.length) :
    (log.state.cooldownTicksRemaining = log'.state.cooldownTicksRemaining + 1 ∧
      log'.state.lastDuration = log.state.lastDuration) ∨
    ∃ d, log.state.lastDuration = some d ∧ 0 < limit ∧ log'.state.lastDuration = none ∧
      log'.state.cooldownTicksRemaining = pacedCooldown limit interval d := by
  cases step with
  | cooling waiting => exact .inl ⟨(Nat.sub_add_cancel waiting).symm, rfl⟩
  | fresh idle last | ran idle last spec => exact absurd quiet (by simp)
  | skipped idle last spec =>
    exact .inr ⟨_, last, (spec.skipped rfl).1, spec.last, (spec.skipped rfl).2⟩

end

end Ticked

section
variable {β : Type}

def run (limit : Nat) (log : BranchLog) (ticks : List (Tick β)) : BranchLog :=
  ticks.foldl (fun log t => log.tick limit t.tickInterval t.body) log

theorem Ok.run (ok : log.Ok) (ticks : List (Tick β)) : (log.run limit ticks).Ok := by
  induction ticks generalizing log with
  | nil => exact ok
  | cons t rest ih => exact ih ((ticked ..).ok ok)

theorem recorded_le_run (limit : Nat) (log : BranchLog) (ticks : List (Tick β)) :
    log.recorded.length ≤ (log.run limit ticks).recorded.length := by
  induction ticks generalizing log with
  | nil => exact Nat.le_refl _
  | cons t rest ih => exact Nat.le_trans (ticked ..).recorded_le (ih _)

theorem run_cons_quiet {t : Tick β} {rest : List (Tick β)}
    (quiet : (log.run limit (t :: rest)).recorded.length ≤ log.recorded.length) :
    (log.tick limit t.tickInterval t.body).recorded.length ≤ log.recorded.length ∧
      ((log.tick limit t.tickInterval t.body).run limit rest).recorded.length ≤
        (log.tick limit t.tickInterval t.body).recorded.length :=
  ⟨Nat.le_trans (recorded_le_run ..) quiet, Nat.le_trans quiet (ticked ..).recorded_le⟩

theorem skipped_le_cooldown (ticks : List (Tick β)) (judged : log.state.lastDuration = none)
    (quiet : (log.run limit ticks).recorded.length ≤ log.recorded.length) :
    ticks.length ≤ log.state.cooldownTicksRemaining := by
  induction ticks generalizing log with
  | nil => exact Nat.zero_le _
  | cons t rest ih =>
    obtain ⟨first, others⟩ := run_cons_quiet quiet
    rcases (ticked ..).of_quiet first with ⟨counted, last⟩ | ⟨d, last, -⟩
    · have fewer := ih (last.trans judged) others
      rw [counted, length_cons]
      omega
    · exact absurd (judged.symm.trans last) (by simp)

/-- After a body of duration `d`, the tick that judges it and those of the cooldown that it arms are
skipped. -/
theorem skipped_after_body {d : Nat} (t : Tick β) (rest : List (Tick β))
    (idle : log.state.cooldownTicksRemaining = 0) (last : log.state.lastDuration = some d)
    (quiet : (log.run limit (t :: rest)).recorded.length ≤ log.recorded.length) :
    0 < limit ∧ rest.length ≤ pacedCooldown limit t.tickInterval d := by
  obtain ⟨first, others⟩ := run_cons_quiet quiet
  rcases (ticked ..).of_quiet first with ⟨counted, -⟩ | ⟨_, judges, cooled, judged, armed⟩
  · omega
  · obtain rfl := Option.some.inj (judges.symm.trans last)
    exact ⟨cooled, armed ▸ skipped_le_cooldown rest judged others⟩

end
end BranchLog

section
variable {β : Type} [DecidableEq β] {cooled : β → Bool}

/-- The entries of the tracker do not touch each other. -/
theorem branchRun_branch (history : List (Tick β)) (branch : β) : branchRun cooled history branch =
    BranchLog.run (cooldownOf cooled branch) {} (history.filter fun t => t.branch = branch) := by
  suffices each : ∀ logs : β → BranchLog, history.foldl (fun logs t => Function.update logs t.branch
      ((logs t.branch).tick (cooldownOf cooled t.branch) t.tickInterval t.body)) logs branch =
      (logs branch).run (cooldownOf cooled branch) (history.filter fun t => t.branch =
        branch) from each _
  induction history with
  | nil => exact fun _ => rfl
  | cons t rest ih =>
    intro logs
    rw [foldl_cons, ih]
    by_cases here : t.branch = branch
    · subst here
      rw [Function.update_self, filter_cons_of_pos (by simp)]
      rfl
    · rw [Function.update_of_ne (Ne.symm here), filter_cons_of_neg (by simpa using here)]

theorem branchRun_ok (history : List (Tick β)) (branch : β) :
    (branchRun cooled history branch).Ok := by
  rw [branchRun_branch]
  apply BranchLog.Ok.run
  exact ⟨rfl, [], [], rfl, by simp, Nat.le_refl _⟩

theorem branchRun_append (before after : List (Tick β)) (branch : β) :
    branchRun cooled (before ++ after) branch = (branchRun cooled before branch).run
      (cooldownOf cooled branch) (after.filter fun t => t.branch = branch) := by
  rw [branchRun_branch, branchRun_branch, filter_append]
  exact foldl_append

theorem branchRun_tick (before : List (Tick β)) (t : Tick β) :
    branchRun cooled (before ++ [t]) t.branch =
    (branchRun cooled before t.branch).tick (cooldownOf cooled t.branch) t.tickInterval t.body := by
  rw [branchRun_append, filter_cons_of_pos (by simp)]
  rfl

theorem pacedCooldown_eq (tickInterval d : Nat) : pacedCooldown branchCooldownTicks tickInterval d =
    min 120 (max 1 (divCeil (2 * asMillis d) (max (asMillis tickInterval) 1))) := by
  unfold pacedCooldown
  rw [if_neg (by decide), Nat.min_comm, Nat.max_comm]
  rfl

/-- After a body of duration `d`, the ticks of its branch that are skipped before the next body are
at most `1 + min(120, max(1, ceil(2d / t)))`, and none without a cooldown; every recorded duration
is judged at most once, in order; a branch turns delayed only when three overruns have no on-time
sample among them or after them; and the prune backoff skips at most 32 ticks between two prunes. -/
theorem maintenance_ticks_bounded (cooled : β → Bool) :
      (∀ (before after : List (Tick β)) (t : Tick β),
      (branchRun cooled (before ++ [t]) t.branch).recorded ≠
      (branchRun cooled before t.branch).recorded →
      (branchRun cooled (before ++ [t] ++ after) t.branch).recorded =
      (branchRun cooled (before ++ [t]) t.branch).recorded → ∀ first more, after.filter
        (fun u => u.branch = t.branch) = first :: more → cooled t.branch = true ∧
    (first :: more).length ≤ 1 + min 120
    (max 1 (divCeil (2 * asMillis t.body) (max (asMillis first.tickInterval) 1)))) ∧
      (∀ (history : List (Tick β)) (branch : β), (branchRun cooled history branch).judged.map
      Sample.duration ++ (branchRun cooled history branch).state.lastDuration.toList =
    (branchRun cooled history branch).recorded) ∧
      (∀ (before : List (Tick β)) (t : Tick β), (branchRun cooled before t.branch).state.isDelayed =
      false → (branchRun cooled (before ++ [t]) t.branch).state.isDelayed = true →
      ∃ earlier recent, (branchRun cooled (before ++ [t]) t.branch).judged = earlier ++ recent ∧
        (∀ x ∈ recent, ¬ x.OnTime) ∧ 3 ≤ recent.countP fun x => x.Overrun) ∧
    ∀ (history : List (β × PruneTick)) (branch : β), (pruneRun history branch).skips ≤ 32 := by
  refine ⟨?_, fun history branch => (branchRun_ok history branch).samples, ?_, ?_⟩
  · intro before after t ran quiet first more shape
    rw [branchRun_append (before ++ [t]), shape] at quiet
    rw [branchRun_tick] at ran quiet
    obtain ⟨idle, last⟩ := (BranchLog.ticked ..).of_ran ran
    obtain ⟨positive, fewer⟩ := BranchLog.skipped_after_body first more idle last
      (Nat.le_of_eq (congrArg _ quiet))
    have cooldown : cooled t.branch = true := by
      cases begun : cooled t.branch with
      | true => rfl
      | false => simp [cooldownOf, begun] at positive
    refine ⟨cooldown, ?_⟩
    rw [cooldownOf, if_pos cooldown, pacedCooldown_eq] at fewer
    rw [List.length_cons, Nat.add_comm]
    exact Nat.add_le_add_left fewer 1
  · intro before t prompt delayed
    rw [branchRun_tick] at delayed ⊢
    obtain ⟨earlier, recent, shape, late, counted⟩ :=
      ((BranchLog.ticked ..).ok (branchRun_ok before t.branch)).streak
    exact ⟨earlier, recent, shape, late,
      Nat.le_trans ((BranchLog.ticked ..).delayed prompt delayed) counted⟩
  · intro history branch
    exact Nat.le_trans (Nat.le_add_right _ _) (pruneRun_bounded history branch)

/-- Three sweeps of 250 ms at an interval of 100 ms: the next six ticks are skipped. -/
theorem maintenance_ticks_bounded_sweep : let sweep : Tick Unit := ⟨(), 100000000, 250000000⟩
    (branchRun (fun _ => true) (List.replicate 9 sweep) ()).recorded.length = 3 ∧
      6 ≤ 1 + min 120 (max 1 (divCeil (2 * 250) 100)) := by
  intro sweep
  have bound := (maintenance_ticks_bounded fun _ => true).1 (List.replicate 2 sweep)
    (List.replicate 6 sweep) sweep (by decide) (by decide) sweep (List.replicate 5 sweep) rfl
  exact ⟨by decide, Nat.le_trans bound.2 (by decide)⟩

end
end AwaQueue.Maintenance
