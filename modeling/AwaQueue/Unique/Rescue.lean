import AwaQueue.Unique.Claims
import AwaQueue.Terminal.Store

/-! How maintenance settles the attempts it has rescued, in one transaction for the whole batch.

Each attempt leaves one successor row, inserted under a savepoint together with its unique claim. A
unique conflict turns the successor into a cancelled duplicate, and a second one strips its key. Any
violated unique constraint is reported as `UniqueConflict`, so the primary keys of the three tables
are part of the model. -/

namespace AwaQueue

open List Option Library

structure SuccessorPayload extends RuntimePayload where
  progress : Option String
deriving DecidableEq

def SuccessorPayload.pushError (payload : SuccessorPayload) (error : String) : SuccessorPayload :=
  { payload with errors := payload.errors ++ [error] }

/-- A deleted lease or closed receipt on its way to a successor: `running` or `waiting_external`,
with the progress in the payload of its ready row and the one in `attempt_state`. -/
structure RescuedAttempt extends LeaseTransitionRow where
  state : JobState
  storedProgress : Option String
  progress : Option String

structure DeferredJobRow where
  attempt : Attempt
  kind : String
  queue : Nat
  args : String
  state : JobState
  priority : Nat
  number : Nat
  maxAttempts : Nat
  runAt : Nat
  finalizedAt : Option Nat
  createdAt : Nat
  unique : UniqueColumns
deriving DecidableEq

namespace RescuedAttempt
variable (row : RescuedAttempt)

def jobId : Nat := row.columns.attempt.jobId

def uniqueColumns : UniqueColumns := ⟨row.ready.job.uniqueKey, row.ready.job.uniqueStates⟩

def payloadWithAttemptState : SuccessorPayload :=
  { row.ready.job.payload with progress := row.progress.or row.storedProgress }

def exhausted : Bool := row.columns.maxAttempts ≤ row.columns.number

def intoDeferredRow (state : JobState) (runAt : Nat) (finalizedAt : Option Nat) :
    DeferredJobRow where
  attempt := row.columns.attempt
  kind := row.ready.job.kind
  queue := row.ready.lane.queue
  args := row.ready.job.args
  state
  priority := row.columns.lane.priority
  number := row.columns.number
  maxAttempts := row.columns.maxAttempts
  runAt
  finalizedAt
  createdAt := row.ready.job.createdAt
  unique := row.uniqueColumns

def doneKey : Nat × Lane × Nat :=
  (row.columns.ref.slot, { row.columns.lane with queue := row.ready.lane.queue },
    row.columns.laneSeq)

end RescuedAttempt

/-- A row of `deferred_jobs`, `done_entries` or `dlq_entries`. -/
inductive SettledRow where
  | deferred (row : DeferredJobRow) (payload : SuccessorPayload)
  | done (row : DoneJobRow) (payload : SuccessorPayload)
  | dlq (row : DlqJobRow) (payload : SuccessorPayload) (reason : String) (dlqAt : Nat)
deriving DecidableEq

inductive SuccessorKey where
  | deferred (jobId : Nat)
  | done (key : Nat × Lane × Nat)
  | dlq (jobId : Nat)
deriving DecidableEq

namespace SettledRow

def attempt : SettledRow → Attempt
  | deferred row _ => row.attempt
  | done row _ => row.attempt
  | dlq row _ _ _ => row.attempt

def payload : SettledRow → SuccessorPayload
  | deferred _ payload => payload
  | done _ payload => payload
  | dlq _ payload _ _ => payload

def state : SettledRow → JobState
  | deferred row _ => row.state
  | done row _ => row.state.jobState
  | dlq _ _ _ _ => .failed

def unique : SettledRow → UniqueColumns
  | deferred row _ => row.unique
  | done row _ => ⟨row.uniqueKey, row.uniqueStates⟩
  | dlq row _ _ _ => ⟨row.uniqueKey, row.uniqueStates⟩

def primaryKey : SettledRow → SuccessorKey
  | deferred row _ => .deferred row.attempt.jobId
  | done row _ => .done row.key.primaryKey
  | dlq row _ _ _ => .dlq row.attempt.jobId

end SettledRow

structure SuccessorTables where
  claims : List UniqueClaim
  rows : List SettledRow
deriving DecidableEq

def SuccessorTables.insert (t : SuccessorTables) (row : SettledRow) (old : Option JobState) :
    Option SuccessorTables :=
  (syncUniqueClaim t.claims row.attempt.jobId row.unique old (some row.state)).bind fun claims =>
    if t.rows.all fun other => other.primaryKey ≠ row.primaryKey then some ⟨claims, t.rows ++ [row]⟩
      else none

/-- What a settlement reads besides the row: the clock, `awa.backoff_duration`, the JSON of a
lifecycle error and the queues with a DLQ. -/
structure RescueContext where
  now : Nat
  backoffDuration : Nat → Nat → Nat
  lifecycleError : String → Nat → Bool → String
  dlqEnabled : Nat → Bool

namespace RescueContext
variable (ctx : RescueContext)

def duplicateRow (row : RescuedAttempt) (basePayload : SuccessorPayload) (duplicateError : String) :
    SettledRow :=
  .done (row.intoDoneRow .cancelled ctx.now)
    (basePayload.pushError (ctx.lifecycleError duplicateError row.columns.number true))

def strippedRow (row : RescuedAttempt) (basePayload : SuccessorPayload) (duplicateError : String) :
    SettledRow :=
  .done { row.intoDoneRow .cancelled ctx.now with uniqueKey := none, uniqueStates := none }
    (basePayload.pushError (ctx.lifecycleError duplicateError row.columns.number true))

def cancelRescuedDuplicate (t : SuccessorTables) (row : RescuedAttempt)
    (basePayload : SuccessorPayload)
    (duplicateError : String) : Option (SuccessorTables × SettledRow) :=
  let duplicate := ctx.duplicateRow row basePayload duplicateError
  match t.insert duplicate (some row.state) with
  | some inserted => some (inserted, duplicate)
  | none =>
    let stripped := ctx.strippedRow row basePayload duplicateError
    (t.insert stripped (some row.state)).map fun inserted => (inserted, stripped)

/-- `insert_rescued_deferred_or_cancel_tx`, `insert_rescued_done_or_cancel_tx` and
`insert_rescued_dlq_or_cancel_tx`, which differ in the table of the row. -/
def insertRescuedOrCancel (t : SuccessorTables) (row : RescuedAttempt) (successor : SettledRow)
    (duplicateError : String) : Option (SuccessorTables × SettledRow) :=
  match t.insert successor (some row.state) with
  | some inserted => some (inserted, successor)
  | none => ctx.cancelRescuedDuplicate t row successor.payload duplicateError

/-- The successor that `settle_rescued_attempt_tx` tries first: a retry while attempts remain, then
the DLQ or a failed row. -/
def successor (row : RescuedAttempt) (error : String) (dlqReason : Option String) : SettledRow :=
  let payload := row.payloadWithAttemptState.pushError
    (ctx.lifecycleError error row.columns.number row.exhausted)
  if row.exhausted then
    match dlqReason with
    | some reason => .dlq row.intoDlqRow payload reason ctx.now
    | none => .done (row.intoDoneRow .failed ctx.now) payload
  else
    .deferred (row.intoDeferredRow .retryable
      (ctx.now + ctx.backoffDuration row.columns.number row.columns.maxAttempts)
        (some ctx.now)) payload

def duplicateError : String := "rescued as duplicate: unique claim held by a newer job"

def settleRescuedAttempt (t : SuccessorTables) (row : RescuedAttempt) (error : String)
    (dlqReason : Option String) : Option (SuccessorTables × SettledRow) :=
  ctx.insertRescuedOrCancel t row (ctx.successor row error dlqReason) duplicateError

end RescueContext

inductive RescueBatch where
  | staleHeartbeats (leases receipts : List RescuedAttempt)
  | expiredDeadlines (moved : List RescuedAttempt)
  | expiredCallbacks (moved : List RescuedAttempt)

namespace RescueBatch

def entries : RescueBatch → List (RescuedAttempt × String)
  | staleHeartbeats leases receipts =>
    leases.map (·, "heartbeat stale: worker presumed dead") ++
      receipts.map (·, "receipt claim stale: worker presumed dead")
  | expiredDeadlines moved => moved.map (·, "hard deadline exceeded")
  | expiredCallbacks moved => moved.map (·, "callback timed out")

def dlqReason : RescueBatch → String
  | staleHeartbeats _ _ => "heartbeat_stale"
  | expiredDeadlines _ => "deadline_exceeded"
  | expiredCallbacks _ => "callback_timeout"

end RescueBatch

namespace RescueContext
variable (ctx : RescueContext)

def dlqReasonFor (reason : String) (row : RescuedAttempt) : Option String :=
  if ctx.dlqEnabled row.ready.lane.queue then some reason else none

def settleRescued (reason : String) (t : SuccessorTables) :
    List (RescuedAttempt × String) → Option (SuccessorTables × List SettledRow)
  | [] => some (t, [])
  | (row, error) :: rest =>
    (ctx.settleRescuedAttempt t row error (ctx.dlqReasonFor reason row)).bind fun first =>
      (settleRescued reason first.1 rest).map fun later => (later.1, first.2 :: later.2)

def rescue (t : SuccessorTables) (batch : RescueBatch) :
    Option (SuccessorTables × List SettledRow) :=
  ctx.settleRescued batch.dlqReason t batch.entries

end RescueContext

section Insert
variable {t t' : SuccessorTables} {row : SettledRow} {old : Option JobState} {claim : UniqueClaim}

theorem insert_eq_some (inserted : t.insert row old = some t') :
    syncUniqueClaim t.claims row.attempt.jobId row.unique old (some row.state) = some t'.claims ∧
      t'.rows = t.rows ++ [row] := by
  obtain ⟨claims, synced, stored⟩ := bind_eq_some_iff.1 inserted
  obtain ⟨-, rfl⟩ := guard_eq_some stored
  exact ⟨synced, rfl⟩

theorem insert_isSome (row : SettledRow)
    (synced : syncUniqueClaim t.claims row.attempt.jobId row.unique old (some row.state) ≠ none)
    (free : ∀ other ∈ t.rows, other.primaryKey ≠ row.primaryKey) :
    ∃ t', t.insert row old = some t' := by
  obtain ⟨claims, synced⟩ := ne_none_iff_exists'.1 synced
  have absent : (t.rows.all fun other => other.primaryKey ≠ row.primaryKey) = true := by
    simpa using free
  exact ⟨_, by rw [SuccessorTables.insert, synced, bind_some, if_pos absent]⟩

theorem mem_claims_insert (inserted : t.insert row old = some t')
    (other : claim.jobId ≠ row.attempt.jobId) : claim ∈ t'.claims ↔ claim ∈ t.claims :=
  mem_syncUniqueClaim_of_ne (insert_eq_some inserted).1 other

end Insert

namespace RescueContext
variable {ctx : RescueContext} {t t' : SuccessorTables} {row : RescuedAttempt}
  {payload : SuccessorPayload} {error reason : String} {dlqReason : Option String}
    {successor : SettledRow} {settled : SettledRow}
  {entries : List (RescuedAttempt × String)}

/-- The row that is tried first conflicts with no claim of another job and no row of its table. -/
def Unopposed (t : SuccessorTables) (row : RescuedAttempt) (successor : SettledRow) : Prop :=
  syncUniqueClaim t.claims successor.attempt.jobId successor.unique (some row.state)
    (some successor.state) ≠ none ∧ ∀ other ∈ t.rows, other.primaryKey ≠ successor.primaryKey

def DoneKeyFree (t : SuccessorTables) (row : RescuedAttempt) : Prop :=
  ∀ other ∈ t.rows, other.primaryKey ≠ .done row.doneKey

/-- What the settlement of one attempt has to do: insert one row of the attempt, the one that
attempts and DLQ policy select unless something opposes it and else a cancelled one, and leave the
claims of other jobs alone. -/
structure Settles (ctx : RescueContext) (t : SuccessorTables) (row : RescuedAttempt)
    (error : String)
    (dlqReason : Option String) (t' : SuccessorTables) (settled : SettledRow) : Prop where
  inserted : t'.rows = t.rows ++ [settled]
  own : settled.attempt = row.columns.attempt
  place : ∀ key, settled.primaryKey = .done key → key = row.doneKey
  policy : Unopposed t row (ctx.successor row error dlqReason) →
    settled = ctx.successor row error dlqReason
  duplicate : ¬ Unopposed t row (ctx.successor row error dlqReason) → settled.state = .cancelled
  others : ∀ claim, claim.jobId ≠ row.jobId → (claim ∈ t'.claims ↔ claim ∈ t.claims)

theorem successor_attempt : (ctx.successor row error dlqReason).attempt = row.columns.attempt := by
  simp only [successor]
  split
  · cases dlqReason <;> rfl
  · rfl

theorem successor_place (key : Nat × Lane × Nat)
    (stored : (ctx.successor row error dlqReason).primaryKey = .done key) : key = row.doneKey := by
  simp only [successor] at stored
  split at stored
  · cases dlqReason with
    | some reason => cases stored
    | none => exact (SuccessorKey.done.inj stored).symm
  · cases stored

theorem unopposed_iff :
    Unopposed t row settled ↔ ∃ t', t.insert settled (some row.state) = some t' := by
  constructor
  · rintro ⟨synced, free⟩
    exact insert_isSome settled synced free
  · rintro ⟨t', inserted⟩
    obtain ⟨claims, synced, stored⟩ := bind_eq_some_iff.1 inserted
    refine ⟨synced ▸ some_ne_none _, ?_⟩
    simpa using (guard_eq_some stored).1

theorem cancelRescuedDuplicate_cases
    (cancelled : ctx.cancelRescuedDuplicate t row payload error = some (t', settled)) :
    t.insert settled (some row.state) = some t' ∧ settled.attempt = row.columns.attempt ∧
      settled.primaryKey = .done row.doneKey ∧ settled.state = .cancelled := by
  simp only [cancelRescuedDuplicate] at cancelled
  split at cancelled
  next inserted =>
    cases cancelled
    exact ⟨inserted, rfl, rfl, rfl⟩
  next =>
    obtain ⟨inserted, stored, same⟩ := map_eq_some_iff.1 cancelled
    cases same
    exact ⟨stored, rfl, rfl, rfl⟩

theorem cancelRescuedDuplicate_isSome :
    (∃ t' settled, ctx.cancelRescuedDuplicate t row payload error = some (t', settled)) ↔
      DoneKeyFree t row := by
  constructor
  · rintro ⟨t', settled, cancelled⟩ other present
    obtain ⟨inserted, -, key, -⟩ := cancelRescuedDuplicate_cases cancelled
    rw [← key]
    exact (unopposed_iff.2 ⟨t', inserted⟩).2 other present
  · intro free
    simp only [cancelRescuedDuplicate]
    split
    next => exact ⟨_, _, rfl⟩
    next =>
      have unclaimed :
          syncUniqueClaim t.claims row.columns.attempt.jobId ⟨none, none⟩ (some row.state)
          (some .cancelled) ≠ none := some_ne_none _
      obtain ⟨inserted, stored⟩ := insert_isSome (ctx.strippedRow row payload error) unclaimed free
      exact ⟨_, _, by rw [stored, map_some]⟩

theorem settleRescuedAttempt_settles (done : ctx.settleRescuedAttempt t row error dlqReason =
    some (t', settled)) : Settles ctx t row error dlqReason t' settled := by
  simp only [settleRescuedAttempt, insertRescuedOrCancel] at done
  split at done
  next inserted =>
    cases done
    have stored := insert_eq_some inserted
    exact {
      inserted := stored.2
      own := successor_attempt
      place := successor_place
      policy := fun _ => rfl
      duplicate := fun opposed => absurd (unopposed_iff.2 ⟨_, inserted⟩) opposed
      others := fun claim other => mem_claims_insert inserted (by rwa [successor_attempt]) }
  next refused =>
    obtain ⟨inserted, own, key, cancelled⟩ := cancelRescuedDuplicate_cases done
    have opposed : ¬ Unopposed t row (ctx.successor row error dlqReason) := by
      intro unopposed
      obtain ⟨_, stored⟩ := unopposed_iff.1 unopposed
      rw [refused] at stored
      cases stored
    exact {
      inserted := (insert_eq_some inserted).2
      own
      place := fun other same => SuccessorKey.done.inj (same.symm.trans key)
      policy := fun unopposed => absurd unopposed opposed
      duplicate := fun _ => cancelled
      others := fun claim other => mem_claims_insert inserted (own ▸ other) }

/-- A taken key in `done_entries` is no obstacle to an attempt whose successor goes elsewhere
unopposed. -/
theorem settleRescuedAttempt_isSome (ctx : RescueContext) (error : String)
    (dlqReason : Option String) :
    (∃ t' settled, ctx.settleRescuedAttempt t row error dlqReason = some (t', settled)) ↔
      Unopposed t row (ctx.successor row error dlqReason) ∨ DoneKeyFree t row := by
  simp only [settleRescuedAttempt, insertRescuedOrCancel]
  split
  next inserted => exact ⟨fun _ => .inl (unopposed_iff.2 ⟨_, inserted⟩), fun _ => ⟨_, _, rfl⟩⟩
  next refused =>
    rw [cancelRescuedDuplicate_isSome]
    refine ⟨.inr, fun possible => possible.resolve_left fun unopposed => ?_⟩
    obtain ⟨_, stored⟩ := unopposed_iff.1 unopposed
    rw [refused] at stored
    cases stored

/-- Every attempt of a batch is settled in its turn. -/
structure SettlesBatch (ctx : RescueContext) (reason : String) (t : SuccessorTables)
    (entries : List (RescuedAttempt × String)) (t' : SuccessorTables) (settled : List SettledRow) :
    Prop where
  inserted : t'.rows = t.rows ++ settled
  own : settled.map SettledRow.attempt = entries.map fun entry => entry.1.columns.attempt
  others : ∀ claim, (∀ entry ∈ entries, claim.jobId ≠ entry.1.jobId) →
    (claim ∈ t'.claims ↔ claim ∈ t.claims)
  turns : ∀ before entry after, entries = before ++ entry :: after → ∃ mid mid' first row,
    ctx.settleRescued reason t before = some (mid, first) ∧
      Settles ctx mid entry.1 entry.2 (ctx.dlqReasonFor reason entry.1) mid' row ∧
        settled[before.length]? = some row

theorem SettlesBatch.nil : SettlesBatch ctx reason t [] t [] where
  inserted := (append_nil _).symm
  own := rfl
  others _ _ := Iff.rfl
  turns before entry after split := absurd split (by simp)

theorem SettlesBatch.cons {mid : SuccessorTables} {first : SettledRow} {later : List SettledRow}
    (settled : ctx.settleRescuedAttempt t row error (ctx.dlqReasonFor reason row) =
    some (mid, first)) (rest : SettlesBatch ctx reason mid entries t' later) :
    SettlesBatch ctx reason t ((row, error) :: entries) t' (first :: later) where
  inserted := by rw [rest.inserted, (settleRescuedAttempt_settles settled).inserted, append_assoc,
    singleton_append]
  own := by rw [map_cons, map_cons, rest.own, (settleRescuedAttempt_settles settled).own]
  others claim other := by
    rw [rest.others claim fun entry mem => other entry (mem_cons_of_mem _ mem)]
    exact (settleRescuedAttempt_settles settled).others claim (other _ mem_cons_self)
  turns before entry after split := by
    cases before with
    | nil =>
      obtain ⟨rfl, rfl⟩ := cons_eq_cons.1 split
      exact ⟨t, mid, [], first, rfl, settleRescuedAttempt_settles settled, rfl⟩
    | cons head before =>
      obtain ⟨rfl, later⟩ := cons_eq_cons.1 split
      obtain ⟨start, stop, done, last, ran, settles, position⟩ :=
        rest.turns before entry after later
      refine ⟨start, stop, first :: done, last, ?_, settles, position⟩
      rw [settleRescued, settled, bind_some, ran, map_some]

theorem settlesBatch {settled : List SettledRow}
    (ran : ctx.settleRescued reason t entries = some (t', settled)) :
    SettlesBatch ctx reason t entries t' settled := by
  induction entries generalizing t settled with
  | nil =>
    cases ran
    exact .nil
  | cons entry entries ih =>
    obtain ⟨first, settles, ran⟩ := bind_eq_some_iff.1 ran
    obtain ⟨later, rest, same⟩ := map_eq_some_iff.1 ran
    cases same
    exact .cons settles (ih rest)

/-- In its turn, over what the turns before it left, each attempt has an unopposed successor or a
free key in `done_entries`. -/
def Proceeds (ctx : RescueContext) (reason : String) (t : SuccessorTables) :
    List (RescuedAttempt × String) → Prop
  | [] => True
  | (row, error) :: rest =>
    (Unopposed t row (ctx.successor row error (ctx.dlqReasonFor reason row)) ∨ DoneKeyFree t row) ∧
      ∀ first, ctx.settleRescuedAttempt t row error (ctx.dlqReasonFor reason row) = some first →
        Proceeds ctx reason first.1 rest

theorem settleRescued_settles :
    (∃ t' settled, ctx.settleRescued reason t entries = some (t', settled) ∧
    SettlesBatch ctx reason t entries t' settled) ↔ Proceeds ctx reason t entries := by
  induction entries generalizing t with
  | nil => exact ⟨fun _ => trivial, fun _ => ⟨t, [], rfl, .nil⟩⟩
  | cons entry entries ih =>
    obtain ⟨row, error⟩ := entry
    rw [Proceeds, ← settleRescuedAttempt_isSome]
    constructor
    · rintro ⟨t', settled, ran, batch⟩
      obtain ⟨first, settled, ran⟩ := bind_eq_some_iff.1 ran
      obtain ⟨later, ran, -⟩ := map_eq_some_iff.1 ran
      refine ⟨⟨first.1, first.2, settled⟩, fun other settled' => ?_⟩
      cases settled.symm.trans settled'
      exact ih.1 ⟨later.1, later.2, ran, settlesBatch ran⟩
    · rintro ⟨⟨mid, first, settled⟩, rest⟩
      obtain ⟨t', later, ran, batch⟩ := ih.2 (rest _ settled)
      refine ⟨t', first :: later, ?_, .cons settled batch⟩
      rw [settleRescued, settled, bind_some, ran, map_some]

/-- Attempts with keys of their own in `done_entries` get through. -/
theorem proceeds_of_apart (free : ∀ entry ∈ entries, DoneKeyFree t entry.1)
    (apart : (entries.map fun entry => entry.1.doneKey).Nodup) : Proceeds ctx reason t entries := by
  induction entries generalizing t with
  | nil => trivial
  | cons entry entries ih =>
    obtain ⟨row, error⟩ := entry
    obtain ⟨different, apart⟩ := nodup_cons.1 apart
    refine ⟨.inr (free (row, error) mem_cons_self), fun first settled => ih ?_ apart⟩
    have settles := settleRescuedAttempt_settles settled
    -- The new row stands at the key of its own attempt, which is not that of a later one.
    intro entry mem other present
    rw [settles.inserted] at present
    rcases mem_append.1 present with old | new
    · exact free entry (mem_cons_of_mem _ mem) other old
    · cases mem_singleton.1 new
      intro same
      have own : entry.1.doneKey = row.doneKey := settles.place _ same
      exact different (mem_map.2 ⟨entry, mem, own⟩)

end RescueContext

open RescueContext

def rescueSample : RescueContext where
  now := 90
  backoffDuration number _ := 2 ^ number
  lifecycleError error _ _ := error
  dlqEnabled queue := queue = 1

def onceRow (lane : Lane) (jobId maxAttempts : Nat) : ReadyEntry :=
  ⟨lane, 1, ⟨0, 0⟩, 60, ⟨jobId, "mail", "body", 0, 0, maxAttempts, 50, some "k",
    some "00001010", {}⟩⟩

def ReadyRow.rescued (row : ReadyEntry) (priority : Nat) : RescuedAttempt :=
  ⟨⟨row.columns priority, row⟩, .running, none, some "half"⟩

/-- Four rescued jobs with one key: two retries, a failure and a DLQ row. -/
def sharedKeyBatch : RescueBatch :=
  .expiredDeadlines [(onceRow ⟨0, 2, 0⟩ 7 2).rescued 2, (onceRow ⟨0, 2, 1⟩ 8 2).rescued 2,
    (onceRow ⟨0, 3, 0⟩ 9 1).rescued 3, (onceRow ⟨1, 2, 0⟩ 10 1).rescued 2]

-- Job 7 takes the free key, job 8 meets it twice and is cancelled without it; a failed row claims
-- nothing.
example : (rescueSample.rescue ⟨[], []⟩ sharedKeyBatch).map (fun result =>
    (result.1.claims, result.2.map SettledRow.state, result.2.map fun row => row.unique.key)) =
    some ([⟨"k", 7⟩], [.retryable, .cancelled, .failed, .failed], [some "k", none, some "k",
      some "k"]) := by decide

/-- Both jobs are on their only attempt; job 7 was claimed with the aged priority 1. -/
def agedOps : List RowOp :=
  let old := onceRow ⟨0, 2, 0⟩ 7 1
  let new := onceRow ⟨0, 1, 0⟩ 8 1
  [.enqueue old.lane old.ref old.runAt old.job, .enqueue new.lane new.ref new.runAt new.job,
    .claim old 1 0 none, .claim new 1 0 none]

def RowStore.staleReceipts (s : RowStore) : List RescuedAttempt :=
  (s.receipts.filterMap fun c => s.hydrate c.toAttemptColumns).map fun row =>
    ⟨row, .running, none, none⟩

end AwaQueue
