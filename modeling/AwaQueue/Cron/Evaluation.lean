import AwaQueue.Cron.FireTimes
import Mathlib.Logic.Function.Basic

/-! Evaluation of the schedules by any number of workers.

An evaluator reads all rows at once and then works through them with the time it has read: it
computes the due fires of a row and marks them one by one, each on the condition that
`last_enqueued_at` is what it expects. Operators pause, resume, retire, restore and trigger
schedules in between. -/

namespace AwaQueue.Cron

open List
open Option (bind_eq_some_iff map_eq_some_iff)
open Library

/-- `cron_fire_time` or `triggered_manually` in the metadata of a job. -/
inductive CronOrigin where
  | fire (time : Nat)
  | manual
deriving DecidableEq

/-- A job that `insert_job_compat` got from a schedule. -/
structure CronInsert where
  job : PeriodicJob
  origin : CronOrigin
deriving DecidableEq

structure PendingFires where
  row : CronJobRow
  previousEnqueuedAt : Option Nat
  fireTimes : List Nat
deriving DecidableEq

structure CronEvaluator where
  now : Nat
  cronRows : List CronJobRow
  pending : Option PendingFires
deriving DecidableEq

structure ScheduleState where
  rows : List CronJobRow
  evaluators : Nat → Option CronEvaluator
  inserted : List CronInsert

inductive ScheduleOp where
  | list (e now : Nat)
  | next (e : Nat)
  | enqueue (e : Nat)
  | fail (e : Nat)
  | stop (e : Nat)
  | pause (name : String) (pausedBy : Option String) (now : Nat)
  | resume (name : String)
  | trigger (name : String)
  | operate (action : CronOwnerAction) (actor : String) (now : Nat)
deriving DecidableEq

namespace ScheduleState
variable (s : ScheduleState)

def setEvaluator (e : Nat) (evaluator : Option CronEvaluator) : ScheduleState :=
  { s with evaluators := Function.update s.evaluators e evaluator }

def setRows (rows : Option (List CronJobRow)) : Option ScheduleState := rows.map fun rows =>
    { s with rows }

end ScheduleState

def CronJobRow.pendingFires (lib : CronLibrary) (row : CronJobRow) (now : Nat) :
    Option PendingFires :=
  if row.isActive then some ⟨row, row.lastEnqueuedAt, computeFireTimes lib row now cronCatchUpLimit⟩
    else none

/-- `atomic_enqueue` and what the evaluator makes of its result: a fire that was marked is the next
to expect, one that was not ends the row. -/
def enqueueFire (s : ScheduleState) (e : Nat) (evaluator : CronEvaluator) (pending : PendingFires)
    (fire : Nat) (rest : List Nat) : Option ScheduleState :=
  match s.rows.find? fun row => row.marks pending.row.name pending.previousEnqueuedAt with
  | none => some (s.setEvaluator e (some { evaluator with pending := none }))
  | some row =>
    (markEnqueued pending.row.name fire pending.previousEnqueuedAt s.rows).map fun rows =>
      { s.setEvaluator e (some { evaluator with pending := some ⟨pending.row, some fire, rest⟩ })
        with
        rows
        inserted := s.inserted ++ [⟨row.job, .fire fire⟩] }

def scheduleStep (lib : CronLibrary) (op : ScheduleOp) (s : ScheduleState) : Option ScheduleState :=
  match op with
  | .list e now => some (s.setEvaluator e (some ⟨now, s.rows, none⟩))
  | .next e =>
    (s.evaluators e).bind fun evaluator =>
      match evaluator.cronRows with
      | [] => none
      | row :: rest =>
        some (s.setEvaluator e (some ⟨evaluator.now, rest, row.pendingFires lib evaluator.now⟩))
  | .enqueue e =>
    (s.evaluators e).bind fun evaluator => evaluator.pending.bind fun pending =>
      match pending.fireTimes with
      | [] => none
      | fire :: rest => enqueueFire s e evaluator pending fire rest
  | .fail e =>
    (s.evaluators e).map fun evaluator => s.setEvaluator e (some { evaluator with pending := none })
  | .stop e => some (s.setEvaluator e none)
  | .pause name pausedBy now => s.setRows (pauseCronJob name pausedBy now s.rows)
  | .resume name => s.setRows (resumeCronJob name s.rows)
  | .trigger name =>
    (s.rows.find? fun row => row.name = name && row.retired.isNone).map fun row =>
      { s with inserted := s.inserted ++ [⟨row.job, .manual⟩] }
  | .operate action actor now => s.setRows (operateRows action actor now s.rows)

def scheduleMachine (lib : CronLibrary) : Machine ScheduleState ScheduleOp :=
  ⟨fun s => (s.rows.map CronJobRow.name).Nodup ∧ s.evaluators = (fun _ => none) ∧ s.inserted = [],
    scheduleStep lib⟩

namespace ScheduleState
variable (s : ScheduleState)

def fires : List (String × Nat) :=
  s.inserted.filterMap fun insert =>
    match insert.origin with
    | .fire time => some (insert.job.name, time)
    | .manual => none

def firesOf (name : String) : List Nat := (s.fires.filter fun fire => fire.1 = name).map Prod.snd

end ScheduleState

def CronOwnerAction.restores (action : CronOwnerAction) (row : CronJobRow) : Bool :=
  match action with
  | restore _ | restoreOwner _ => action.selects row && row.retired.isSome
  | adopt _ _ _ | retire _ | retireOwner _ => false

def ScheduleOp.moves : ScheduleOp → CronJobRow → Option Nat → Prop
  | .operate action _ now, row, last => action.restores row = true ∧ last = some now
  | _, _, _ => False

def Rewrites (moves : CronJobRow → Option Nat → Prop) (rows rows' : List CronJobRow) : Prop :=
  ∃ change : CronJobRow → CronJobRow, rows' = rows.map change ∧
    ∀ row ∈ rows, (change row).job = row.job ∧
      ((change row).lastEnqueuedAt = row.lastEnqueuedAt ∨ moves row (change row).lastEnqueuedAt)

section
variable {moves : CronJobRow → Option Nat → Prop} {rows rows' : List CronJobRow} {row : CronJobRow}

theorem Rewrites.refl (moves : CronJobRow → Option Nat → Prop) (rows : List CronJobRow) :
    Rewrites moves rows rows :=
  ⟨id, (map_id rows).symm, fun _ _ => ⟨rfl, .inl rfl⟩⟩

theorem Rewrites.of_update {admin : Bool} {setting : Option String} {matched : CronJobRow → Bool}
    {set : CronJobRow → CronJobRow} (updated : updateRows admin setting matched set rows =
    some rows') (kept : ∀ row, matched row = true → (set row).job = row.job ∧
      ((set row).lastEnqueuedAt = row.lastEnqueuedAt ∨ moves row (set row).lastEnqueuedAt)) :
      Rewrites moves rows rows' := by
  refine ⟨fenced admin setting matched set, updateRows_eq updated, ?_⟩
  intro row _
  obtain same | ⟨hit, same⟩ := fenced_cases admin setting matched set row
  · exact ⟨by rw [same], .inl (by rw [same])⟩
  · rw [same]
    exact kept row hit

theorem Rewrites.names (rewrites : Rewrites moves rows rows') :
    rows'.map CronJobRow.name = rows.map CronJobRow.name := by
  obtain ⟨change, rfl, kept⟩ := rewrites
  rw [map_map]
  apply map_congr_left
  intro row member
  exact congrArg PeriodicJob.name (kept row member).1

theorem Rewrites.old (rewrites : Rewrites moves rows rows') (member : row ∈ rows') :
    ∃ old ∈ rows, row.job = old.job ∧ (row.lastEnqueuedAt = old.lastEnqueuedAt ∨
      moves old row.lastEnqueuedAt) := by
  obtain ⟨change, rfl, kept⟩ := rewrites
  obtain ⟨old, present, rfl⟩ := mem_map.1 member
  exact ⟨old, present, kept old present⟩

theorem Rewrites.new (rewrites : Rewrites moves rows rows') (member : row ∈ rows) :
    ∃ new ∈ rows', new.job = row.job ∧ (new.lastEnqueuedAt = row.lastEnqueuedAt ∨
      moves row new.lastEnqueuedAt) := by
  obtain ⟨change, rfl, kept⟩ := rewrites
  exact ⟨change row, mem_map_of_mem member, kept row member⟩

theorem operate_rewrites {action : CronOwnerAction} {actor : String} {now : Nat}
    (operated : operateRows action actor now rows = some rows') :
    Rewrites (fun row last => action.restores row = true ∧ last = some now) rows rows' := by
  unfold operateRows at operated
  split at operated
  · cases operated
  · apply Rewrites.of_update operated
    intro row selected
    refine ⟨action.apply_job actor now row, ?_⟩
    cases action with
    | adopt => exact .inl rfl
    | retire | retireOwner =>
      simp only [CronOwnerAction.apply]
      split <;> exact .inl rfl
    | restore | restoreOwner =>
      simp only [CronOwnerAction.apply]
      split
      next retired => exact .inr ⟨by rw [CronOwnerAction.restores, selected, retired]; rfl, rfl⟩
      next => exact .inl rfl

theorem markEnqueued_eq {name : String} {fire : Nat} {previous : Option Nat}
    (marked : markEnqueued name fire previous rows = some rows') :
    rows' = rows.map fun row => if row.marks name previous then
      { row with lastEnqueuedAt := some fire } else row := by
  rw [updateRows_eq marked]
  apply map_congr_left
  intro row _
  unfold fenced
  split
  next hit =>
    have active : row.isActive = true := by
      simp only [CronJobRow.marks, Bool.and_eq_true] at hit
      exact hit.2
    have unretired : row.retired.isSome = false := by
      simp only [CronJobRow.isActive, Bool.and_eq_true, Option.isNone_iff_eq_none] at active
      rw [active.2]
      rfl
    simp [scheduleFence, unretired]
  next => rfl

end

def Known (rows : List CronJobRow) (row : CronJobRow) : Prop :=
  ∃ current ∈ rows, current.job = row.job

structure PendingOk (lib : CronLibrary) (pending : PendingFires) : Prop where
  increasing : Increasing pending.previousEnqueuedAt pending.fireTimes
  catches : ∀ cron, lib.cron pending.row.job = some cron →
    pending.row.job.missedFirePolicy = .catchUp →
    CatchesUp cron pending.previousEnqueuedAt pending.fireTimes

structure EvaluatorOk (lib : CronLibrary) (rows : List CronJobRow) (evaluator : CronEvaluator) :
    Prop where
  read : ∀ row ∈ evaluator.cronRows, Known rows row
  pending : ∀ pending, evaluator.pending = some pending → Known rows pending.row ∧
    PendingOk lib pending

structure ScheduleInv (lib : CronLibrary) (s : ScheduleState) : Prop where
  names : (s.rows.map CronJobRow.name).Nodup
  evaluators : ∀ e evaluator, s.evaluators e = some evaluator → EvaluatorOk lib s.rows evaluator

section
variable {lib : CronLibrary} {s t : ScheduleState} {op : ScheduleOp}
  {moves : CronJobRow → Option Nat → Prop} {rows : List CronJobRow} {row : CronJobRow}
    {evaluator : CronEvaluator} {e : Nat} {last : Nat} {cron : CronTimes}
  {pending : PendingFires} {fire : Nat} {rest : List Nat}

theorem Known.rewrite (known : Known s.rows row) (rewrites : Rewrites moves s.rows rows) :
    Known rows row := by
  obtain ⟨current, member, same⟩ := known
  obtain ⟨new, present, kept, -⟩ := rewrites.new member
  exact ⟨new, present, kept.trans same⟩

theorem ScheduleInv.rewrite (inv : ScheduleInv lib s) (rewrites : Rewrites moves s.rows rows)
    (inserted : List CronInsert) : ScheduleInv lib { s with rows, inserted } where
  names := rewrites.names ▸ inv.names
  evaluators e evaluator running := by
    have ok := inv.evaluators e evaluator running
    exact ⟨fun row member => (ok.read row member).rewrite rewrites,
      fun pending here => (ok.pending pending here).imp_left fun known => known.rewrite rewrites⟩

theorem ScheduleInv.setEvaluator (inv : ScheduleInv lib s) (new : Option CronEvaluator)
    (ok : ∀ evaluator, new = some evaluator → EvaluatorOk lib s.rows evaluator) :
    ScheduleInv lib (s.setEvaluator e new) where
  names := inv.names
  evaluators e' evaluator running := by
    change Function.update s.evaluators e new e' = some evaluator at running
    by_cases same : e' = e
    · rw [same, Function.update_self] at running
      exact ok evaluator running
    · rw [Function.update_of_ne same] at running
      exact inv.evaluators e' evaluator running

theorem EvaluatorOk.dropPending (ok : EvaluatorOk lib rows evaluator) :
    EvaluatorOk lib rows { evaluator with pending := none } :=
  ⟨ok.read, fun _ pending => by cases pending⟩

theorem pendingFires_ok {now : Nat} (found : row.pendingFires lib now = some pending) :
    pending.row = row ∧ PendingOk lib pending := by
  obtain ⟨-, rfl⟩ := guard_eq_some found
  have spec := computeFireTimes_spec lib row now cronCatchUpLimit
  exact ⟨rfl, spec.1, spec.2⟩

theorem PendingOk.pop (ok : PendingOk lib pending)
    (fires : pending.fireTimes = fire :: rest) : PendingOk lib ⟨pending.row, some fire, rest⟩ where
  increasing := (fires ▸ ok.increasing).pop
  catches cron parsed policy := (fires ▸ ok.catches cron parsed policy).pop

structure Marks (e : Nat) (s t : ScheduleState) (row : CronJobRow) (pending : PendingFires)
    (fire : Nat) (rest : List Nat) : Prop where
  waiting : ∃ evaluator, s.evaluators e = some evaluator ∧ evaluator.pending = some pending
  fires : pending.fireTimes = fire :: rest
  member : row ∈ s.rows
  marks : row.marks pending.row.name pending.previousEnqueuedAt = true
  rows : t.rows = s.rows.map fun row =>
    if row.marks pending.row.name pending.previousEnqueuedAt then
      { row with lastEnqueuedAt := some fire } else row
  inserted : t.fires = s.fires ++ [(row.name, fire)]

inductive Effect (op : ScheduleOp) (s t : ScheduleState) : Prop where
  | quiet (fires : t.fires = s.fires) (rows : Rewrites op.moves s.rows t.rows)
  | marks (e : Nat) (row : CronJobRow) (pending : PendingFires) (fire : Nat) (rest : List Nat)
      (marked : Marks e s t row pending fire rest)

theorem Effect.still (fires : t.fires = s.fires) (rows : t.rows = s.rows) : Effect op s t :=
  .quiet fires (rows ▸ Rewrites.refl op.moves s.rows)

theorem scheduleStep_effect (step : scheduleStep lib op s = some t) : Effect op s t := by
  cases op with
  | list e now =>
    cases step
    exact .still rfl rfl
  | next e =>
    obtain ⟨evaluator, -, moved⟩ := bind_eq_some_iff.1 step
    split at moved <;> cases moved
    exact .still rfl rfl
  | enqueue e =>
    obtain ⟨evaluator, running, step⟩ := bind_eq_some_iff.1 step
    obtain ⟨pending, waiting, step⟩ := bind_eq_some_iff.1 step
    split at step
    · cases step
    next fire rest fires =>
      unfold enqueueFire at step
      split at step
      · cases step
        exact .still rfl rfl
      next row found =>
        obtain ⟨rows, marked, rfl⟩ := map_eq_some_iff.1 step
        exact .marks e row pending fire rest ⟨⟨evaluator, running, waiting⟩, fires,
          mem_of_find?_eq_some found, by simpa using find?_some found, markEnqueued_eq marked,
          by simp [ScheduleState.fires, CronJobRow.name]⟩
  | fail e =>
    obtain ⟨evaluator, -, rfl⟩ := map_eq_some_iff.1 step
    exact .still rfl rfl
  | stop e =>
    cases step
    exact .still rfl rfl
  | pause name pausedBy now | resume name =>
    obtain ⟨rows, updated, rfl⟩ := map_eq_some_iff.1 step
    exact .quiet rfl (.of_update updated fun _ _ => ⟨rfl, .inl rfl⟩)
  | trigger name =>
    obtain ⟨row, -, rfl⟩ := map_eq_some_iff.1 step
    exact .still (by simp [ScheduleState.fires]) rfl
  | operate action actor now =>
    obtain ⟨rows, operated, rfl⟩ := map_eq_some_iff.1 step
    exact .quiet rfl (operate_rewrites operated)

theorem Marks.rewrites (marked : Marks e s t row pending fire rest) :
    Rewrites (fun _ last => last = some fire) s.rows t.rows := by
  refine ⟨_, marked.rows, ?_⟩
  intro row _
  split
  · exact ⟨rfl, .inr rfl⟩
  · exact ⟨rfl, .inl rfl⟩

theorem scheduleInv_step (inv : ScheduleInv lib s) (step : scheduleStep lib op s = some t) :
    ScheduleInv lib t := by
  cases op with
  | list e now =>
    cases step
    apply inv.setEvaluator
    rintro _ ⟨⟩
    exact ⟨fun row member => ⟨row, member, rfl⟩, fun _ pending => by cases pending⟩
  | next e =>
    obtain ⟨evaluator, running, moved⟩ := bind_eq_some_iff.1 step
    split at moved
    · cases moved
    next row rest read =>
      cases moved
      have ok := inv.evaluators e evaluator running
      have known : ∀ old ∈ row :: rest, Known s.rows old := read ▸ ok.read
      apply inv.setEvaluator
      rintro _ ⟨⟩
      refine ⟨fun old member => known old (mem_cons_of_mem _ member), ?_⟩
      intro pending found
      obtain ⟨rfl, pendingOk⟩ := pendingFires_ok found
      exact ⟨known _ mem_cons_self, pendingOk⟩
  | enqueue e =>
    obtain ⟨evaluator, running, step⟩ := bind_eq_some_iff.1 step
    obtain ⟨pending, waiting, step⟩ := bind_eq_some_iff.1 step
    have ok := inv.evaluators e evaluator running
    split at step
    · cases step
    next fire rest fires =>
      unfold enqueueFire at step
      split at step
      · cases step
        apply inv.setEvaluator
        rintro _ ⟨⟩
        exact ok.dropPending
      next row found =>
        obtain ⟨rows, marked, rfl⟩ := map_eq_some_iff.1 step
        obtain ⟨known, pendingOk⟩ := ok.pending pending waiting
        have moved : ScheduleInv lib
            (s.setEvaluator e (some { evaluator with pending := some ⟨pending.row, some fire,
              rest⟩ })) := by
          apply inv.setEvaluator
          rintro _ ⟨⟩
          refine ⟨ok.read, ?_⟩
          rintro _ ⟨⟩
          exact ⟨known, pendingOk.pop fires⟩
        have rewrites : Rewrites (fun _ last => last = some fire) s.rows rows :=
          .of_update marked fun _ _ => ⟨rfl, .inr rfl⟩
        exact moved.rewrite rewrites _
  | fail e =>
    obtain ⟨evaluator, running, rfl⟩ := map_eq_some_iff.1 step
    apply inv.setEvaluator
    rintro _ ⟨⟩
    exact (inv.evaluators e evaluator running).dropPending
  | stop e =>
    cases step
    exact inv.setEvaluator none fun _ running => by cases running
  | pause name pausedBy now | resume name =>
    obtain ⟨rows, updated, rfl⟩ := map_eq_some_iff.1 step
    have rewrites : Rewrites (fun _ _ => False) s.rows rows := .of_update updated fun _ _ =>
      ⟨rfl, .inl rfl⟩
    exact inv.rewrite rewrites s.inserted
  | trigger name =>
    obtain ⟨row, -, rfl⟩ := map_eq_some_iff.1 step
    exact ⟨inv.names, inv.evaluators⟩
  | operate action actor now =>
    obtain ⟨rows, operated, rfl⟩ := map_eq_some_iff.1 step
    exact inv.rewrite (operate_rewrites operated) s.inserted

theorem scheduleInv_reachable {ok : ScheduleOp → ScheduleState → Prop}
    (reached : (scheduleMachine lib).Reachable ok s) : ScheduleInv lib s := by
  apply reached.invariant
  · rintro s ⟨names, idle, -⟩
    exact ⟨names, fun e evaluator running => by rw [idle] at running; cases running⟩
  · intro op s t _ inv _ step
    exact scheduleInv_step inv step

section
variable {pending : PendingFires} {fire : Nat} {rest : List Nat} {other : CronJobRow}

theorem CronJobRow.marks_iff {name : String} {previous : Option Nat} :
    row.marks name previous = true ↔ row.name = name ∧ row.lastEnqueuedAt = previous ∧
      row.isActive = true := by
  simp [CronJobRow.marks, and_assoc]

section
variable (marked : Marks e s t row pending fire rest)
include marked

theorem Marks.pendingOk (inv : ScheduleInv lib s) :
    Known s.rows pending.row ∧ PendingOk lib pending := by
  obtain ⟨evaluator, running, waiting⟩ := marked.waiting
  exact (inv.evaluators e evaluator running).pending pending waiting

theorem Marks.lt (inv : ScheduleInv lib s) {last : Nat} (known : row.lastEnqueuedAt = some last) :
    last < fire := by
  have increasing := (marked.pendingOk inv).2.increasing
  rw [marked.fires, ← (CronJobRow.marks_iff.1 marked.marks).2.1, known] at increasing
  exact increasing.lt

theorem Marks.job (inv : ScheduleInv lib s) : row.job = pending.row.job := by
  obtain ⟨current, member, same⟩ := (marked.pendingOk inv).1
  have named : current.name = row.name :=
    (congrArg PeriodicJob.name same).trans (CronJobRow.marks_iff.1 marked.marks).1.symm
  obtain rfl := inj_on_of_nodup_map inv.names member marked.member named
  exact same

theorem Marks.change (inv : ScheduleInv lib s) (member : other ∈ t.rows) :
    (other ∈ s.rows ∧ other.name ≠ row.name) ∨
      other = { row with lastEnqueuedAt := some fire } := by
  have named := (CronJobRow.marks_iff.1 marked.marks).1
  rw [marked.rows] at member
  obtain ⟨old, present, rfl⟩ := mem_map.1 member
  by_cases same : old.name = row.name
  · obtain rfl := inj_on_of_nodup_map inv.names present marked.member same
    rw [if_pos marked.marks]
    exact .inr rfl
  · rw [if_neg fun hit => same ((CronJobRow.marks_iff.1 hit).1.trans named.symm)]
    exact .inl ⟨present, same⟩

end

end

def restoresForward (op : ScheduleOp) (s : ScheduleState) : Bool :=
  match op with
  | .operate action _ now =>
    s.rows.all fun row => !action.restores row || row.lastEnqueuedAt.all fun last => last ≤ now
  | _ => true

/-- The fires of a schedule are enqueued once and never pass its `last_enqueued_at`. -/
structure FiresInv (s : ScheduleState) : Prop where
  nodup : s.fires.Nodup
  passed : ∀ fire ∈ s.fires, ∀ row ∈ s.rows, row.name = fire.1 → ∃ last, row.lastEnqueuedAt =
    some last ∧ fire.2 ≤ last

theorem restoresForward_le (forward : restoresForward op s = true) (member : row ∈ s.rows)
    {new : Option Nat} (known : row.lastEnqueuedAt = some last) (moved : op.moves row new) :
    ∃ now, new = some now ∧ last ≤ now := by
  cases op with
  | operate action actor now =>
    obtain ⟨restored, rfl⟩ := moved
    have each := all_eq_true.1 forward row member
    rw [restored, known] at each
    exact ⟨now, rfl, by simpa using each⟩
  | _ => exact moved.elim

theorem FiresInv.quiet (fires : FiresInv s) (forward : restoresForward op s = true)
    (same : t.fires = s.fires) (rewrites : Rewrites op.moves s.rows t.rows) : FiresInv t where
  nodup := same ▸ fires.nodup
  passed fire enqueued row member named := by
    obtain ⟨old, present, job, moved⟩ := rewrites.old member
    obtain ⟨last, known, le⟩ := fires.passed fire (same ▸ enqueued) old present
      ((congrArg PeriodicJob.name job).symm.trans named)
    rcases moved with kept | moved
    · exact ⟨last, kept.trans known, le⟩
    · obtain ⟨now, new, later⟩ := restoresForward_le forward present known moved
      exact ⟨now, new, le.trans later⟩

theorem FiresInv.marks (fires : FiresInv s) (inv : ScheduleInv lib s)
    (marked : Marks e s t row pending fire rest) : FiresInv t where
  nodup := by
    rw [marked.inserted]
    apply nodup_append.2
    refine ⟨fires.nodup, nodup_singleton _, ?_⟩
    rintro old enqueued _ new rfl
    rw [mem_singleton.1 new] at enqueued
    obtain ⟨last, known, le⟩ := fires.passed _ enqueued row marked.member rfl
    exact absurd (marked.lt inv known) (Nat.not_lt.2 le)
  passed old enqueued other member named := by
    rw [marked.inserted] at enqueued
    rcases marked.change inv member with ⟨present, different⟩ | rfl
    · rcases mem_append.1 enqueued with enqueued | new
      · exact fires.passed old enqueued other present named
      · rw [mem_singleton.1 new] at named
        exact absurd named different
    · refine ⟨fire, rfl, ?_⟩
      rcases mem_append.1 enqueued with enqueued | new
      · obtain ⟨last, known, le⟩ := fires.passed old enqueued row marked.member named
        exact le.trans (marked.lt inv known).le
      · rw [mem_singleton.1 new]

theorem firesInv_reachable (reached : (scheduleMachine lib).Reachable
    (fun op s => restoresForward op s = true) s) : FiresInv s := by
  apply reached.invariant
  · rintro s ⟨-, -, none⟩
    have empty : s.fires = [] := by rw [ScheduleState.fires, none, filterMap_nil]
    exact ⟨empty ▸ nodup_nil, fun fire enqueued => by rw [empty] at enqueued; cases enqueued⟩
  · intro op s t before fires forward step
    cases scheduleStep_effect step with
    | quiet same rewrites => exact fires.quiet forward same rewrites
    | marks e row pending fire rest marked =>
      exact fires.marks (scheduleInv_reachable before) marked

namespace ScheduleState

def isActive (s : ScheduleState) (name : String) : Bool := s.rows.any fun row =>
    row.name = name && row.isActive

end ScheduleState

theorem firesOf_append {fire : String × Nat} (name : String)
    (inserted : t.fires = s.fires ++ [fire]) :
    t.firesOf name = s.firesOf name ++ if fire.1 = name then [fire.2] else [] := by
  unfold ScheduleState.firesOf
  rw [inserted, filter_append, map_append]
  by_cases same : fire.1 = name <;> simp [same]

section
variable (inv : ScheduleInv lib s)
  (member : row ∈ s.rows)
  (parsed : lib.cron row.job = some cron)
  (policy : row.job.missedFirePolicy = .catchUp)
include inv member parsed policy

/-- One step of a run in which a schedule that catches up stays active: its `last_enqueued_at`
stays, or moves on to the next fire. -/
theorem catchUp_step
    (known : row.lastEnqueuedAt = some last) (active : s.isActive row.name = true)
    (step : scheduleStep lib op s = some t) :
    ∃ row' ∈ t.rows, row'.job = row.job ∧ ∃ new last', t.firesOf row.name =
      s.firesOf row.name ++ new ∧
      row'.lastEnqueuedAt = some last' ∧ cron.after last = new ++ cron.after last' := by
  cases scheduleStep_effect step with
  | quiet same rewrites =>
    obtain ⟨new, present, job, moved⟩ := rewrites.new member
    refine ⟨new, present, job, [], last, ?_, ?_, rfl⟩
    · rw [ScheduleState.firesOf, same, append_nil]
      rfl
    · rcases moved with kept | moved
      · exact kept.trans known
      · -- Only a retired schedule is restored.
        obtain ⟨same, there, named, running⟩ :
            ∃ same ∈ s.rows, same.name = row.name ∧ same.isActive = true := by
          simpa [ScheduleState.isActive] using active
        obtain rfl := inj_on_of_nodup_map inv.names there member named
        cases op with
        | operate action actor now =>
          obtain ⟨restored, -⟩ := moved
          have unretired : same.retired.isSome = false := by
            simp only [CronJobRow.isActive, Bool.and_eq_true, Option.isNone_iff_eq_none] at running
            rw [running.2]
            rfl
          cases action <;> simp [CronOwnerAction.restores, unretired] at restored
        | _ => exact moved.elim
  | marks e other pending fire rest marked =>
    have appended := firesOf_append row.name marked.inserted
    obtain ⟨new, present, job, moved⟩ := marked.rewrites.new member
    by_cases same : other.name = row.name
    · obtain rfl := inj_on_of_nodup_map inv.names marked.member member same
      have pendingOk := (marked.pendingOk inv).2
      have job' := marked.job inv
      have catches := pendingOk.catches cron (job' ▸ parsed) (job' ▸ policy)
      rw [marked.fires, ← (CronJobRow.marks_iff.1 marked.marks).2.1, known] at catches
      have marks : { other with lastEnqueuedAt := some fire } ∈ t.rows := by
        rw [marked.rows]
        exact mem_map.2 ⟨other, member, if_pos marked.marks⟩
      refine ⟨_, marks, rfl, [fire], fire, ?_, rfl, catches.1⟩
      rw [appended, if_pos rfl]
    · refine ⟨new, present, job, [], last, ?_, ?_, rfl⟩
      · rw [appended, if_neg same]
      · rcases marked.change inv present with ⟨kept, -⟩ | rfl
        · obtain rfl := inj_on_of_nodup_map inv.names kept member (congrArg PeriodicJob.name job)
          exact known
        · exact absurd (congrArg PeriodicJob.name job) same

/-- The fires that are enqueued while a schedule stays active lead from its `last_enqueued_at` to
the new one. -/
theorem catchUp_run {ops : List ScheduleOp}
    (known : row.lastEnqueuedAt = some last)
    (ran : (scheduleMachine lib).run (fun _ s => s.isActive row.name = true) ops s = some t) :
    ∃ row' ∈ t.rows, row'.job = row.job ∧ ∃ new last', t.firesOf row.name =
      s.firesOf row.name ++ new ∧
      row'.lastEnqueuedAt = some last' ∧ cron.after last = new ++ cron.after last' := by
  induction ops generalizing s row last with
  | nil =>
    cases ran
    exact ⟨row, member, rfl, [], last, (append_nil _).symm, known, rfl⟩
  | cons op ops ih =>
    obtain ⟨active, mid, step, rest⟩ := Machine.run_cons ran
    obtain ⟨next, present, job, new, moved, fires, there, skipped⟩ :=
      catchUp_step inv member parsed policy known active step
    have named : next.name = row.name := congrArg PeriodicJob.name job
    rw [← named] at rest
    obtain ⟨final, stored, job', later, last', fires', known', skipped'⟩ :=
      ih (scheduleInv_step inv step) present (job ▸ parsed) (job ▸ policy) there rest
    refine ⟨final, stored, job'.trans job, new ++ later, last', ?_, known', ?_⟩
    · rw [← append_assoc, ← fires, ← named]
      exact fires'
    · rw [skipped, skipped', append_assoc]

end

end

def ScheduleOp.evaluates : ScheduleOp → Bool
  | .list _ _ | .next _ | .enqueue _ | .fail _ | .stop _ => true
  | .pause _ _ _ | .resume _ | .trigger _ | .operate _ _ _ => false

def NotRewound (s t : ScheduleState) : Prop :=
  ∀ row ∈ s.rows, ∀ last, row.lastEnqueuedAt = some last →
    ∃ row' ∈ t.rows, row'.job = row.job ∧ ∃ last', row'.lastEnqueuedAt = some last' ∧ last ≤ last'

theorem evaluates_notRewound {lib : CronLibrary} {s t : ScheduleState} {op : ScheduleOp}
    (inv : ScheduleInv lib s)
    (evaluates : op.evaluates = true) (step : scheduleStep lib op s = some t) : NotRewound s t := by
  intro row member last known
  cases scheduleStep_effect step with
  | quiet same rewrites =>
    obtain ⟨new, present, job, kept | moved⟩ := rewrites.new member
    · exact ⟨new, present, job, last, kept.trans known, Nat.le_refl last⟩
    · cases op with
      | operate => cases evaluates
      | _ => exact moved.elim
  | marks e other pending fire rest marked =>
    obtain ⟨new, present, job, kept | moved⟩ := marked.rewrites.new member
    · exact ⟨new, present, job, last, kept.trans known, Nat.le_refl last⟩
    · rcases marked.change inv present with ⟨old, -⟩ | rfl
      · obtain rfl := inj_on_of_nodup_map inv.names old member (congrArg PeriodicJob.name job)
        exact ⟨new, present, rfl, last, known, Nat.le_refl last⟩
      · obtain rfl := inj_on_of_nodup_map inv.names marked.member member
          (congrArg PeriodicJob.name job)
        exact ⟨_, present, rfl, fire, rfl, (marked.lt inv known).le⟩

/-- No fire is enqueued twice as long as no restore moves `last_enqueued_at` back. In every run
evaluation moves it forward only, and a schedule that catches up and stays active gets the fires
after it one by one. -/
theorem cron_evaluation (lib : CronLibrary) :
    (∀ s, (scheduleMachine lib).Reachable (fun op s => restoresForward op s = true) s →
    s.fires.Nodup) ∧ ∀ s, (scheduleMachine lib).Reachable Machine.Always s →
      (∀ op t, op.evaluates = true → scheduleStep lib op s = some t → NotRewound s t) ∧
      ∀ row ∈ s.rows, ∀ cron last, lib.cron row.job = some cron →
        row.job.missedFirePolicy = .catchUp → row.lastEnqueuedAt = some last → ∀ ops t,
          (scheduleMachine lib).run (fun _ s => s.isActive row.name = true) ops s = some t →
          ∃ row' ∈ t.rows, row'.job = row.job ∧ ∃ new last', t.firesOf row.name =
            s.firesOf row.name ++ new ∧
            row'.lastEnqueuedAt = some last' ∧ cron.after last = new ++ cron.after last' := by
  refine ⟨fun s reached => (firesInv_reachable reached).nodup, ?_⟩
  intro s reached
  have inv := scheduleInv_reachable reached
  refine ⟨fun op t evaluates stepped => evaluates_notRewound inv evaluates stepped, ?_⟩
  intro row member cron last parsed policy known ops t ran
  exact catchUp_run inv member parsed policy known ran

def everyTenSeconds : CronTimes := ⟨[10 * second, 20 * second, 30 * second], by decide⟩

def sampleLibrary : CronLibrary where
  parse _ _ := some everyTenSeconds
  inclusive := true

def nightly (policy : CronMissedFirePolicy) (lastEnqueuedAt : Option Nat) : CronJobRow :=
  { PeriodicJob.row ⟨"nightly", "*/10 * * * * *", "UTC", "report", "default", "all", 2, 25, [],
    "none", policy⟩ none 0 with
    lastEnqueuedAt }

def sampleSchedules (policy : CronMissedFirePolicy) (lastEnqueuedAt : Option Nat) : ScheduleState :=
  ⟨[nightly policy lastEnqueuedAt], fun _ => none, []⟩

/-- Evaluator 1 reads the row, evaluator 0 catches up with two fires, and the stale one gives up. -/
def catchUpOps : List ScheduleOp :=
  [.list 1 (20 * second), .list 0 (20 * second), .next 0, .enqueue 0, .enqueue 0,
    .next 1, .enqueue 1]

theorem cron_evaluation_nightly :
    (∃ s, (scheduleMachine sampleLibrary).Reachable (fun op s => restoresForward op s = true) s ∧
      s.fires.length = 2 ∧ s.fires.Nodup) ∧ ∃ t, (scheduleMachine sampleLibrary).run
        (fun _ s => s.isActive "nightly" = true) catchUpOps
        (sampleSchedules .catchUp (some 0)) = some t ∧
      ∃ row' ∈ t.rows, row'.job = (nightly .catchUp (some 0)).job ∧ ∃ new last',
        t.firesOf "nightly" = (sampleSchedules .catchUp (some 0)).firesOf "nightly" ++ new ∧
          row'.lastEnqueuedAt = some last' ∧ everyTenSeconds.after 0 =
            new ++ everyTenSeconds.after last' := by
  constructor
  · obtain ⟨s, reached, hit⟩ := Machine.reachable_of_run (scheduleMachine sampleLibrary)
      (fun op s => restoresForward op s = true) (s := sampleSchedules .catchUp (some 0)) catchUpOps
      (fun s => s.fires.length = 2) ⟨by decide, rfl, rfl⟩ (by decide)
    exact ⟨s, reached, hit, (cron_evaluation sampleLibrary).1 s reached⟩
  · have started : (scheduleMachine sampleLibrary).Reachable Machine.Always
        (sampleSchedules .catchUp (some 0)) :=
      .start ⟨by decide, rfl, rfl⟩
    obtain ⟨t, ran⟩ :
        ∃ t, (scheduleMachine sampleLibrary).run (fun _ s => s.isActive "nightly" = true) catchUpOps
        (sampleSchedules .catchUp (some 0)) = some t := Option.isSome_iff_exists.1 (by decide)
    exact ⟨t, ran, ((cron_evaluation sampleLibrary).2 _ started).2 (nightly .catchUp (some 0))
      (by decide) _ 0 rfl rfl rfl catchUpOps t ran⟩

/-- The worker's clock is at second 10 when that of the database is at second 6: the schedule fires,
is retired and restored, and `last_enqueued_at` becomes second 6. -/
def rewindOps : List ScheduleOp :=
  [.list 0 (10 * second), .next 0, .enqueue 0, .operate (.retire "nightly") "ops" (6 * second),
    .operate (.restore "nightly") "ops" (6 * second), .list 0 (11 * second), .next 0, .enqueue 0]

/-- The fire of second 10 is enqueued twice. -/
theorem restore_repeats_fire : ∃ s, (scheduleMachine sampleLibrary).Reachable Machine.Always s ∧
    s.firesOf "nightly" = [10 * second, 10 * second] ∧ ¬ s.fires.Nodup := by
  obtain ⟨s, reached, hit⟩ := Machine.reachable_of_run (scheduleMachine sampleLibrary)
    Machine.Always (s := sampleSchedules .coalesce none) rewindOps
    (fun s => s.firesOf "nightly" = [10 * second, 10 * second] ∧ ¬ s.fires.Nodup) ⟨by decide, rfl,
      rfl⟩ (by decide)
  exact ⟨s, reached, hit⟩

end AwaQueue.Cron
