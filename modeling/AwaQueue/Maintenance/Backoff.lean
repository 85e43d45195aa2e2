import Mathlib.Logic.Function.Basic

/-! `PruneBackoffTracker`: how the maintenance leader spaces its prunes while a segment stays
active. -/

namespace AwaQueue.Maintenance

inductive PruneOutcome where
  | noop
  | pruned (slot generation : Int)
  | blocked
  | skippedActive
deriving DecidableEq

structure PruneBackoffState where
  skipRemaining : Nat := 0
  backoffLevel : Nat := 0
  lastPruned : Option (Int × Int) := none
deriving DecidableEq

def maxPruneBackoffLevel : Nat := 5

namespace PruneBackoffState
variable (s : PruneBackoffState)

def shouldSkip : Bool × PruneBackoffState :=
  if 0 < s.skipRemaining then (true, { s with skipRemaining := s.skipRemaining - 1 })
    else (false, s)

def recordOutcome : PruneOutcome → PruneBackoffState
  | .pruned slot generation => ⟨0, 0, some (slot, generation)⟩
  | .blocked => { s with skipRemaining := 0, backoffLevel := 0 }
  | .skippedActive =>
    -- `saturating_add` on `u8`
    let level := min (min (s.backoffLevel + 1) 255) maxPruneBackoffLevel
    { s with backoffLevel := level, skipRemaining := 1 <<< level }
  | .noop => s

end PruneBackoffState

/-- The prune step of one tick: an idle cursor whose oldest segment is pruned already does not poll
the tracker; a prune that fails has no outcome. -/
inductive PruneTick where
  | alreadyPruned
  | due (outcome : Option PruneOutcome)

structure PruneLog where
  state : PruneBackoffState := {}
  skips : Nat := 0

def PruneLog.tick (log : PruneLog) : PruneTick → PruneLog
  | .alreadyPruned => log
  | .due outcome =>
    if log.state.shouldSkip.1 then ⟨log.state.shouldSkip.2, log.skips + 1⟩
    else ⟨outcome.elim log.state.shouldSkip.2 log.state.shouldSkip.2.recordOutcome, 0⟩

section
variable {β : Type} [DecidableEq β]

def pruneRun (history : List (β × PruneTick)) : β → PruneLog :=
  history.foldl (fun logs t => Function.update logs t.1 ((logs t.1).tick t.2)) fun _ => {}

def PruneLog.Bounded (log : PruneLog) : Prop := log.skips + log.state.skipRemaining ≤ 32

theorem recordOutcome_bounded {s : PruneBackoffState} (outcome : PruneOutcome)
    (idle : s.skipRemaining = 0) : (s.recordOutcome outcome).skipRemaining ≤ 32 := by
  cases outcome with
  | noop => exact idle ▸ Nat.zero_le _
  | pruned slot generation | blocked => exact Nat.zero_le _
  | skippedActive =>
    have shifts : ∀ level ≤ 5, 1 <<< level ≤ 32 := by decide
    exact shifts _ (Nat.min_le_right _ _)

theorem PruneLog.Bounded.tick {log : PruneLog} (bounded : log.Bounded) (t : PruneTick) :
    (log.tick t).Bounded := by
  cases t with
  | alreadyPruned => exact bounded
  | due outcome =>
    unfold PruneLog.tick PruneBackoffState.shouldSkip
    unfold PruneLog.Bounded at bounded ⊢
    by_cases waiting : 0 < log.state.skipRemaining
    · simp only [if_pos waiting, if_true]
      omega
    · have idle : log.state.skipRemaining = 0 := by omega
      simp only [if_neg waiting, Bool.false_eq_true, if_false]
      cases outcome with
      | none => simp [idle]
      | some outcome => simpa using recordOutcome_bounded outcome idle

/-- Between two prunes of a branch the backoff skips at most 32 ticks. -/
theorem pruneRun_bounded (history : List (β × PruneTick)) (branch : β) :
    (pruneRun history branch).Bounded := by
  suffices kept : ∀ logs : β → PruneLog, (∀ b, (logs b).Bounded) →
      ∀ b, (history.foldl (fun logs t => Function.update logs t.1 ((logs t.1).tick t.2)) logs
        b).Bounded from
    kept _ (fun _ => Nat.zero_le _) branch
  induction history with
  | nil => exact fun _ => id
  | cons t rest ih =>
    intro logs bounded
    exact ih _ ((Function.forall_update_iff logs fun _ log => log.Bounded).2
      ⟨(bounded t.1).tick t.2, fun b _ => bounded b⟩)

end
end AwaQueue.Maintenance
