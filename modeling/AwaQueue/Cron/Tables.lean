import AwaQueue.Library.Machine

/-! `awa.cron_jobs`, the trigger that fences it, and the statements that write it. -/

namespace AwaQueue.Cron
open Library

inductive CronMissedFirePolicy where
  | coalesce
  | catchUp
deriving DecidableEq

/-- The definition of a schedule; `args` and `metadata` are JSON texts. -/
structure PeriodicJob where
  name : String
  cronExpr : String
  timezone : String
  kind : String
  queue : String
  args : String
  priority : Nat
  maxAttempts : Nat
  tags : List String
  metadata : String
  missedFirePolicy : CronMissedFirePolicy
deriving DecidableEq

/-- `retired_at`, `retired_by` and `retired_revision`, which are set and cleared together. -/
structure Retirement where
  at_ : Nat
  by_ : String
  revision : String
deriving DecidableEq

structure Pause where
  at_ : Nat
  by_ : Option String
deriving DecidableEq

structure CronJobRow where
  job : PeriodicJob
  ownerId : Option String
  retired : Option Retirement
  lastEnqueuedAt : Option Nat
  createdAt : Nat
  paused : Option Pause
deriving DecidableEq

namespace CronJobRow
variable (row : CronJobRow)

def name : String := row.job.name

def isActive : Bool := row.paused.isNone && row.retired.isNone

end CronJobRow

def PeriodicJob.row (job : PeriodicJob) (ownerId : Option String) (createdAt : Nat) :
    CronJobRow where
  job
  ownerId
  retired := none
  lastEnqueuedAt := none
  createdAt
  paused := none

/-- `cron_schedule_fence` on an update: `none` is its exception, and the old row stays where it
returns `NULL`. `admin` and `setting` are `awa.cron_admin` and `awa.cron_owner` of the transaction.
-/
def scheduleFence (admin : Bool) (setting : Option String) (old new : CronJobRow) :
    Option CronJobRow :=
  if admin then some new
  else if new.ownerId ≠ old.ownerId ∨ new.retired ≠ old.retired then none
  else if old.retired.isSome then some old
  else if old.ownerId.isSome ∧ setting ≠ old.ownerId ∧
    (new.job ≠ old.job ∨ new.createdAt ≠ old.createdAt) then some old
  else some new

def updateRows (admin : Bool) (setting : Option String) (matched : CronJobRow → Bool)
    (set : CronJobRow → CronJobRow) (rows : List CronJobRow) : Option (List CronJobRow) :=
  rows.mapM fun row => if matched row then scheduleFence admin setting row (set row) else some row

def fenced (admin : Bool) (setting : Option String) (matched : CronJobRow → Bool)
    (set : CronJobRow → CronJobRow) (row : CronJobRow) : CronJobRow :=
  if matched row then (scheduleFence admin setting row (set row)).getD row else row

def upsertCronJob (job : PeriodicJob) (now : Nat) (rows : List CronJobRow) :
    Option (List CronJobRow) :=
  if rows.any fun row => row.name = job.name then
    updateRows false none (fun row => row.name = job.name && row.ownerId.isNone &&
      row.retired.isNone) (fun row => { row with job }) rows
  else some (rows ++ [job.row none now])

/-- The upsert of a released binary, which knows neither owners nor tombstones. -/
def releasedUpsert (job : PeriodicJob) (now : Nat) (rows : List CronJobRow) :
    Option (List CronJobRow) :=
  if rows.any fun row => row.name = job.name then
    updateRows false none (fun row => row.name = job.name) (fun row => { row with job }) rows
  else some (rows ++ [job.row none now])

def deleteCronJob (name : String) (rows : List CronJobRow) : Option (List CronJobRow) :=
  if rows.any fun row => row.name = name && (row.retired.isSome || row.ownerId.isSome) then none
  else some (rows.filter fun row => row.name ≠ name)

def pauseCronJob (name : String) (pausedBy : Option String) (now : Nat) : List CronJobRow →
    Option (List CronJobRow) :=
  updateRows false none (fun row => row.name = name) fun row =>
    { row with paused := some ⟨now, pausedBy⟩ }

def resumeCronJob (name : String) : List CronJobRow → Option (List CronJobRow) :=
  updateRows false none (fun row => row.name = name) fun row => { row with paused := none }

def CronJobRow.marks (row : CronJobRow) (name : String) (previous : Option Nat) : Bool :=
  row.name = name && row.lastEnqueuedAt = previous && row.isActive

def markEnqueued (name : String) (fireTime : Nat) (previous : Option Nat) :
    List CronJobRow → Option (List CronJobRow) :=
  updateRows false none (fun row => row.marks name previous) fun row =>
    { row with lastEnqueuedAt := some fireTime }

inductive CronOwnerAction where
  | adopt (name ownerId : String) (expectedOwner : Option String)
  | retire (name : String)
  | retireOwner (ownerId : String)
  | restore (name : String)
  | restoreOwner (ownerId : String)
deriving DecidableEq

def CronOwnerAction.selects (action : CronOwnerAction) (row : CronJobRow) : Bool :=
  match action with
  | adopt name _ _ => row.name = name
  | retire name => row.name = name
  | restore name => row.name = name
  | retireOwner ownerId => row.ownerId = some ownerId && row.retired.isNone
  | restoreOwner ownerId => row.ownerId = some ownerId && row.retired.isSome

def CronOwnerAction.refused (action : CronOwnerAction) (rows : List CronJobRow) : Bool :=
  match action with
  | adopt _ _ expectedOwner =>
    (rows.find? action.selects).all fun row => row.ownerId ≠ expectedOwner
  | retire _ => !rows.any action.selects
  | restore _ => !rows.any action.selects
  | retireOwner _ => false
  | restoreOwner _ => false

def CronOwnerAction.apply (action : CronOwnerAction) (actor : String) (now : Nat)
    (row : CronJobRow) : CronJobRow :=
  match action with
  | adopt _ ownerId _ => { row with ownerId := some ownerId }
  | retire _ | retireOwner _ =>
    if row.retired.isNone then { row with retired := some ⟨now, actor, "operator"⟩ } else row
  | restore _ | restoreOwner _ =>
    if row.retired.isSome then { row with retired := none, lastEnqueuedAt := some now } else row

theorem CronOwnerAction.apply_job (action : CronOwnerAction) (actor : String) (now : Nat)
    (row : CronJobRow) : (action.apply actor now row).job = row.job := by
  cases action with
  | adopt => rfl
  | retire | retireOwner | restore | restoreOwner =>
    simp only [CronOwnerAction.apply]
    split <;> rfl

def operateRows (action : CronOwnerAction) (actor : String) (now : Nat) (rows : List CronJobRow) :
    Option (List CronJobRow) :=
  if action.refused rows then none else updateRows true none action.selects
    (action.apply actor now) rows

section
variable {admin : Bool} {setting : Option String} {matched : CronJobRow → Bool}
  {set : CronJobRow → CronJobRow} {rows rows' : List CronJobRow} {row : CronJobRow}

theorem updateRows_eq (updated : updateRows admin setting matched set rows = some rows') :
    rows' = rows.map (fenced admin setting matched set) := by
  have each := mapM_eq_some.1 updated
  have same : (rows.map fun row => if matched row then scheduleFence admin setting row (set row)
      else some row) = (rows.map (fenced admin setting matched set)).map some := by
    rw [List.map_map]
    apply List.map_congr_left
    intro row mem
    have defined : (if matched row then scheduleFence admin setting row (set row)
        else some row) ∈ rows'.map some :=
      each ▸ List.mem_map_of_mem mem
    obtain ⟨new, -, result⟩ := List.mem_map.1 defined
    by_cases hit : matched row = true
    · rw [if_pos hit] at result ⊢
      simp only [Function.comp_apply, fenced, if_pos hit, ← result, Option.getD_some]
    · rw [if_neg hit]
      simp only [Function.comp_apply, fenced, if_neg hit]
  exact (List.map_injective_iff.2 (fun _ _ => Option.some.inj) (same ▸ each)).symm

theorem fenced_of_not (out : matched row = false) : fenced admin setting matched set row = row := by
  rw [fenced, out]
  rfl

theorem fenced_cases (admin : Bool) (setting : Option String) (matched : CronJobRow → Bool)
    (set : CronJobRow → CronJobRow)
    (row : CronJobRow) : fenced admin setting matched set row = row ∨
      (matched row = true ∧ fenced admin setting matched set row = set row) := by
  unfold fenced scheduleFence
  split
  next hit =>
    split
    · exact .inr ⟨hit, rfl⟩
    · split
      · exact .inl rfl
      · split
        · exact .inl rfl
        · split
          · exact .inl rfl
          · exact .inr ⟨hit, rfl⟩
  next => exact .inl rfl

theorem fenced_lifecycle (setting : Option String) (matched : CronJobRow → Bool)
    (set : CronJobRow → CronJobRow)
    (row : CronJobRow) : (fenced false setting matched set row).ownerId = row.ownerId ∧
      (fenced false setting matched set row).retired = row.retired := by
  unfold fenced scheduleFence
  split
  next =>
    rw [if_neg Bool.false_ne_true]
    split
    · exact ⟨rfl, rfl⟩
    next same =>
      rw [not_or, not_not, not_not] at same
      split
      · exact ⟨rfl, rfl⟩
      · split
        · exact ⟨rfl, rfl⟩
        · exact same
  next => exact ⟨rfl, rfl⟩

/-- An owned or retired schedule keeps its definition against a writer that does not name its owner.
-/
theorem fenced_definition (other : row.retired.isSome = true ∨
    (row.ownerId.isSome = true ∧ setting ≠ row.ownerId)) :
    (fenced false setting matched set row).job = row.job := by
  unfold fenced scheduleFence
  split
  next =>
    rw [if_neg Bool.false_ne_true]
    split
    · rfl
    · split
      · rfl
      next active =>
        split
        · rfl
        next allowed =>
          obtain ⟨owned, foreign⟩ := other.resolve_left active
          by_contra changed
          exact allowed ⟨owned, foreign, .inl changed⟩
  next => rfl

end

end AwaQueue.Cron
