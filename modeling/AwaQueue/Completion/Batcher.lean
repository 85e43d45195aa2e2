import AwaQueue.Library.Machine
import Mathlib.Data.List.Sort

/-! The completion batcher of a worker process, one shard: executors send completion requests over
the shard's channel, and its worker writes them in batches and answers every caller. -/

namespace AwaQueue.Completion
open List Library

structure ClaimedEntry where
  claimSlot : Int
  deriving DecidableEq

/-- The id and the run lease are those of its `job`. -/
structure ClaimedRuntimeJob where
  claim : ClaimedEntry
  jobId : Int
  runLease : Int
  deriving DecidableEq

def ClaimedRuntimeJob.pair (job : ClaimedRuntimeJob) : Int × Int := (job.jobId, job.runLease)

structure CompletionRequest where
  jobId : Int
  runLease : Int
  claim : Option ClaimedEntry
  runtimeJob : Option ClaimedRuntimeJob
  /-- Both callers of `complete_inner` pass the parts of one runtime job, or neither. -/
  claimed : claim = runtimeJob.map (·.claim)
  own : ∀ job ∈ runtimeJob, job.pair = (jobId, runLease)
  deriving DecidableEq

namespace CompletionRequest

def complete (jobId runLease : Int) : CompletionRequest :=
  ⟨jobId, runLease, none, none, rfl, by simp⟩

def completeRuntimeJob (job : ClaimedRuntimeJob) : CompletionRequest :=
  ⟨job.jobId, job.runLease, some job.claim, some job, rfl, by simp [ClaimedRuntimeJob.pair]⟩

def pair (r : CompletionRequest) : Int × Int := (r.jobId, r.runLease)

def sortKey (r : CompletionRequest) : Int × Int × Int :=
  (((r.runtimeJob.map (·.claim.claimSlot)).or (r.claim.map (·.claimSlot))).getD 2147483647,
    r.jobId, r.runLease)

def sortsBefore (a b : CompletionRequest) : Bool :=
  let (s, j, l) := a.sortKey
  let (s', j', l') := b.sortKey
  s < s' || s = s' && (j < j' || j = j' && l ≤ l')

end CompletionRequest

inductive StoreCall
  | completeBatch (pairs : List (Int × Int))
  | completeRuntimeBatch (jobs : List ClaimedRuntimeJob)
  | completeClaimedBatch (claimed : List ClaimedEntry)
  | completeJobBatchById (pairs : List (Int × Int))
  deriving DecidableEq

inductive RuntimeStorage
  | canonical
  | queueStorage

/-- What the database answers to the calls of one flush, with the rule that a call of the runtime
path reports only attempts it was given. -/
structure Database where
  call : StoreCall → Except String (List (Int × Int))
  given : ∀ jobs rows, call (.completeRuntimeBatch jobs) = .ok rows →
    ∀ p ∈ rows, p ∈ jobs.map (·.pair)

namespace Database
variable (db : Database)

def rows (call : StoreCall) : List (Int × Int) := (db.call call).toOption.getD []

def callUnless (empty : Bool) (call : StoreCall) :
    Except String (List (Int × Int)) × List StoreCall :=
  if empty then (.ok [], []) else (db.call call, [call])

theorem flatMap_rows (empty : Bool) (call : StoreCall) :
    (db.callUnless empty call).2.flatMap db.rows = (db.callUnless empty call).1.toOption.getD
      [] := by
  cases empty
  · exact flatMap_singleton db.rows call
  · rfl

end Database

structure Flushed where
  committedJobIds : List Int
  committedPairs : List (Int × Int)
  updated : Except String (List (Int × Int))
  calls : List StoreCall

def restCall (rest : List CompletionRequest) : StoreCall :=
  match rest.mapM (·.claim) with
  | some claimed => .completeClaimedBatch claimed
  | none => .completeJobBatchById (rest.map (·.pair))

def flushQueueStorage (db : Database) (withJob rest : List CompletionRequest) : Flushed :=
  let runtimeJobs := withJob.filterMap (·.runtimeJob)
  let (first, made) := db.callUnless runtimeJobs.isEmpty (.completeRuntimeBatch runtimeJobs)
  match first with
  | .error err => ⟨[], [], .error err, made⟩
  | .ok updated =>
    let (second, more) := db.callUnless rest.isEmpty (restCall rest)
    match second with
    | .ok rows => ⟨[], [], .ok (updated ++ rows), made ++ more⟩
    -- the runtime jobs were committed before this call failed
    | .error err => ⟨withJob.map (·.jobId), updated, .error err, made ++ more⟩

def flushStore (storage : RuntimeStorage) (db : Database) (batch : List CompletionRequest) :
    Flushed :=
  match storage with
  | .canonical =>
    let call := .completeBatch (batch.map (·.pair))
    ⟨[], [], db.call call, [call]⟩
  | .queueStorage =>
    flushQueueStorage db (batch.filter (·.runtimeJob.isSome)) (batch.filter (!·.runtimeJob.isSome))

def Flushed.answer (f : Flushed) (r : CompletionRequest) : Except String Bool :=
  match f.updated with
  | .ok rows => .ok (rows.contains r.pair)
  | .error err =>
    if f.committedJobIds.contains r.jobId then .ok (f.committedPairs.contains r.pair)
    else .error ("completion batch flush failed: " ++ err)

/-- What the runtime path reports belongs to a request that carries a runtime job. -/
theorem Database.runtime_given (db : Database) {withJob : List CompletionRequest}
    {rows : List (Int × Int)} {p : Int × Int}
    (called : db.call (.completeRuntimeBatch (withJob.filterMap (·.runtimeJob))) = .ok rows)
    (mem : p ∈ rows) : p.1 ∈ withJob.map (·.jobId) := by
  obtain ⟨job, given, rfl⟩ := mem_map.1 (db.given _ rows called p mem)
  obtain ⟨r, carries, found⟩ := mem_filterMap.1 given
  rw [r.own job found]
  exact mem_map_of_mem carries

theorem flushQueueStorage_answer (db : Database) (withJob rest : List CompletionRequest)
    (r : CompletionRequest) : (flushQueueStorage db withJob rest).answer r = .ok true ↔
      r.pair ∈ (flushQueueStorage db withJob rest).calls.flatMap db.rows := by
  have made := db.flatMap_rows (withJob.filterMap (·.runtimeJob)).isEmpty
    (.completeRuntimeBatch (withJob.filterMap (·.runtimeJob)))
  have more := db.flatMap_rows rest.isEmpty (restCall rest)
  unfold flushQueueStorage
  cases first : (db.callUnless (withJob.filterMap (·.runtimeJob)).isEmpty
      (.completeRuntimeBatch (withJob.filterMap (·.runtimeJob)))).1 with
  | error err => simp [first, made, Flushed.answer, Except.toOption]
  | ok updated =>
    cases second : (db.callUnless rest.isEmpty (restCall rest)).1 with
    | ok rows => simp [first, second, made, more, Flushed.answer, Except.toOption]
    | error err =>
      have known : r.pair ∈ updated → r.jobId ∈ withJob.map (·.jobId) := by
        intro mem
        unfold Database.callUnless at first
        split at first
        · cases first
          cases mem
        · exact db.runtime_given first mem
      by_cases committed : r.jobId ∈ withJob.map (·.jobId)
      · simp [first, second, made, more, Flushed.answer, Except.toOption, committed, -mem_map]
      · simp [first, second, made, more, Flushed.answer, Except.toOption, committed,
          mt known committed, -mem_map]

/-- A request is told `true` if a call of its flush reported its attempt, also when a later call of
the flush failed: no reported attempt is answered with the error. -/
theorem flushStore_answer (storage : RuntimeStorage) (db : Database)
    (batch : List CompletionRequest) (r : CompletionRequest) :
    (flushStore storage db batch).answer r = .ok true ↔
      r.pair ∈ (flushStore storage db batch).calls.flatMap db.rows := by
  cases storage with
  | canonical =>
    simp only [flushStore, Flushed.answer, flatMap_singleton, Database.rows]
    cases db.call (.completeBatch (batch.map (·.pair))) <;> simp [Except.toOption]
  | queueStorage => exact flushQueueStorage_answer db _ _ r

/-- The fixed settings of a `CompletionWorker`. -/
structure CompletionWorker where
  shardId : Nat
  shardCount : Nat
  storage : RuntimeStorage
  batchSize : Nat

def completionChannelCapacity : Nat := 4096

/-- How far `run` has come: in its loop, draining the channel, past its last flush, returned. -/
inductive Phase
  | looping
  | draining
  | flushed
  | stopped
  deriving DecidableEq

/-- What a caller was told, with the attempts that the calls of its flush reported if a flush told
it. -/
structure Answer where
  request : CompletionRequest
  told : Except String Bool
  reported : Option (List (Int × Int))

def Answer.Truthful (a : Answer) : Prop :=
  match a.reported with
  | some rows => a.told = .ok true ↔ a.request.pair ∈ rows
  | none => ∃ message, a.told = .error message

structure ShardState where
  channel : List CompletionRequest
  pending : List CompletionRequest
  phase : Phase
  cancelled : Bool
  closed : Bool
  /-- Every request that was ever made of the shard. -/
  requests : List CompletionRequest
  answers : List Answer
  flushes : List (List CompletionRequest)

def ShardState.initial : ShardState := ⟨[], [], .looping, false, false, [], [], []⟩

inductive ShardOp
  | complete (request : CompletionRequest)
  | cancel
  | close
  | recv (db : Database)
  | timer (db : Database)
  | leave
  | drain (db : Database)
  | drop

namespace CompletionWorker
variable (w : CompletionWorker)

def flush (db : Database) (s : ShardState) : ShardState :=
  if s.pending.isEmpty then s
  else
    let batch := s.pending.insertionSort (·.sortsBefore ·)
    let result := flushStore w.storage db batch
    { s with
      pending := []
      answers := s.answers ++ batch.map fun r =>
        ⟨r, result.answer r, some (result.calls.flatMap db.rows)⟩
      flushes := s.flushes ++ [batch] }

def push (db : Database) (r : CompletionRequest) (s : ShardState) : ShardState :=
  let s := { s with pending := s.pending ++ [r] }
  if w.batchSize ≤ s.pending.length then w.flush db s else s

def step : ShardOp → ShardState → Option ShardState
  -- `complete_inner`: a full channel keeps the caller waiting
  | .complete r, s =>
    if s.closed = false ∧ r.jobId % w.shardCount = w.shardId then
      let s := { s with requests := s.requests ++ [r] }
      if s.phase = .stopped then some { s with answers := s.answers ++
        [⟨r, .error "completion batcher stopped", none⟩] }
      else if s.channel.length < completionChannelCapacity then
        some { s with channel := s.channel ++ [r] }
      else none
    else none
  | .cancel, s => some { s with cancelled := true }
  | .close, s => some { s with closed := true }
  | .recv db, s =>
    match s.channel with
    | [] => none
    | r :: channel =>
      if s.phase = .looping then
        -- the first request of a batch never flushes it
        if s.pending.isEmpty then some { s with channel, pending := [r] }
        else some (w.push db r { s with channel })
      else none
  | .timer db, s => if s.phase = .looping ∧ s.pending ≠ [] then some (w.flush db s) else none
  | .leave, s =>
    if s.phase = .looping ∧ (s.cancelled = true ∨ s.closed = true ∧ s.channel = []) then
      some { s with phase := .draining }
    else none
  | .drain db, s =>
    if s.phase = .draining then
      match s.channel with
      | [] => some { w.flush db s with phase := .flushed }
      | r :: channel => some (w.push db r { s with channel })
    else none
  -- the receiver goes with what it still holds, and so do the senders of the answers
  | .drop, s =>
    if s.phase = .flushed then
      some { s with
        phase := .stopped
        channel := []
        answers := s.answers ++ s.channel.map fun r =>
          ⟨r, .error "completion batcher dropped response", none⟩ }
    else none

def machine : Machine ShardState ShardOp := ⟨(· = .initial), w.step⟩

end CompletionWorker

/-- Each request that was made is in one place. -/
structure ShardInv (w : CompletionWorker) (s : ShardState) : Prop where
  once : (s.answers.map (·.request) ++ (s.pending ++ s.channel)).Perm s.requests
  routed : ∀ r ∈ s.requests, r.jobId % w.shardCount = w.shardId
  last : s.phase = .flushed ∨ s.phase = .stopped → s.pending = []
  gone : s.phase = .stopped → s.channel = []
  batches : ∀ batch ∈ s.flushes, batch ≠ [] ∧ batch.length ≤ max 2 w.batchSize ∧ batch ⊆ s.requests
  truthful : ∀ a ∈ s.answers, a.Truthful

namespace ShardInv
variable {w : CompletionWorker} {s : ShardState} {r : CompletionRequest} (db : Database)

theorem flush (inv : ShardInv w s) (fits : s.pending.length ≤ max 2 w.batchSize) :
    ShardInv w (w.flush db s) ∧ (w.flush db s).pending = [] := by
  unfold CompletionWorker.flush
  split
  · next empty => exact ⟨inv, isEmpty_iff.1 empty⟩
  · next more =>
    have sorted := perm_insertionSort (·.sortsBefore ·) s.pending
    refine ⟨{ inv with once := ?_, last := fun _ => rfl, batches := ?_, truthful := ?_ }, rfl⟩
    · rw [map_append, map_map, nil_append, append_assoc]
      refine .trans (.append_left _ (.append_right _ ?_)) inv.once
      exact (map_id _).symm ▸ sorted
    · refine forall_mem_concat inv.batches ⟨?_, ?_, fun r mem => ?_⟩
      · intro nil
        exact more (isEmpty_iff.2 (nil_perm.1 (nil ▸ sorted)))
      · rw [sorted.length_eq]
        exact fits
      · exact inv.once.subset (mem_append_right _ (mem_append_left _ (sorted.mem_iff.1 mem)))
    · exact forall_mem_append.2 ⟨inv.truthful,
        forall_mem_map.2 fun r _ => flushStore_answer w.storage db _ r⟩

theorem refuse (inv : ShardInv w s) (refused : List CompletionRequest) (message : String) :
    ∀ a ∈ s.answers ++ refused.map (⟨·, .error message, none⟩), a.Truthful :=
  forall_mem_append.2 ⟨inv.truthful, forall_mem_map.2 fun _ _ => ⟨message, rfl⟩⟩

theorem push (inv : ShardInv w s) (room : s.pending.length < max 2 w.batchSize)
    {rest : List CompletionRequest}
    (head : s.channel = r :: rest) (works : s.phase = .looping ∨ s.phase = .draining) :
    ShardInv w (w.push db r { s with channel := rest }) ∧
      (w.push db r { s with channel := rest }).pending.length < max 2 w.batchSize := by
  have taken : ShardInv w { s with channel := rest, pending := s.pending ++ [r] } := by
    refine { inv with once := ?_, last := ?_, gone := ?_ }
    · rw [append_assoc, singleton_append, ← head]
      exact inv.once
    all_goals rcases works with same | same <;> simp [same]
  unfold CompletionWorker.push
  dsimp only
  split
  · obtain ⟨flushed, empty⟩ := taken.flush db (length_append ▸ room)
    exact ⟨flushed, by grind⟩
  · exact ⟨taken, by grind⟩

theorem step (inv : ShardInv w s) (room : s.pending.length < max 2 w.batchSize) {op : ShardOp}
    {t : ShardState}
    (ran : w.step op s = some t) : ShardInv w t ∧ t.pending.length < max 2 w.batchSize := by
  cases op with
  | complete r =>
    obtain ⟨⟨_, here⟩, ran⟩ := Option.ite_none_right_eq_some.1 ran
    have routed := forall_mem_concat inv.routed here
    have batches : ∀ batch ∈ s.flushes, batch ≠ [] ∧ batch.length ≤ max 2 w.batchSize ∧
        batch ⊆ s.requests ++ [r] :=
      fun batch mem => (inv.batches batch mem).imp_right
        (.imp_right fun made _ mem => mem_append_left _ (made mem))
    have once := inv.once.append_right [r]
    dsimp only at ran
    split at ran
    · next stopped =>
      cases ran
      refine ⟨{ inv with routed, batches, once := ?_, truthful := inv.refuse [r] _ }, room⟩
      simpa [inv.last (.inr stopped), inv.gone stopped] using once
    · obtain ⟨_, rfl⟩ := guard_eq_some ran
      refine ⟨{ inv with routed, batches, once := ?_, gone := fun stopped => by contradiction },
        room⟩
      simpa only [append_assoc] using once
  | cancel | close =>
    cases ran
    exact ⟨{ inv with }, room⟩
  | recv db =>
    simp only [CompletionWorker.step] at ran
    split at ran
    · cases ran
    · next r rest head =>
      obtain ⟨looping, ran⟩ := Option.ite_none_right_eq_some.1 ran
      split at ran
      · next empty =>
        cases ran
        refine ⟨{ inv with once := ?_, last := by simp [looping], gone := by simp [looping] },
          by grind⟩
        have held := inv.once
        rwa [isEmpty_iff.1 empty, head] at held
      · cases ran
        exact inv.push db room head (.inl looping)
  | timer db =>
    obtain ⟨-, rfl⟩ := guard_eq_some ran
    obtain ⟨flushed, empty⟩ := inv.flush db (Nat.le_of_lt room)
    exact ⟨flushed, by grind⟩
  | leave =>
    obtain ⟨_, rfl⟩ := guard_eq_some ran
    exact ⟨{ inv with last := by simp, gone := by simp }, room⟩
  | drain db =>
    obtain ⟨draining, ran⟩ := Option.ite_none_right_eq_some.1 ran
    split at ran
    · cases ran
      obtain ⟨flushed, empty⟩ := inv.flush db (Nat.le_of_lt room)
      exact ⟨{ flushed with last := fun _ => empty, gone := by simp }, by grind⟩
    · next r rest head =>
      cases ran
      exact inv.push db room head (.inr draining)
  | drop =>
    obtain ⟨flushed, rfl⟩ := guard_eq_some ran
    have nil := inv.last (.inl flushed)
    refine ⟨{ inv with
      once := ?_, last := fun _ => nil, gone := fun _ => rfl
      truthful := inv.refuse s.channel _ }, room⟩
    simpa [nil, Function.comp_def] using inv.once

theorem reachable (reached : w.machine.Reachable Machine.Always s) : ShardInv w s := by
  suffices ShardInv w s ∧ s.pending.length < max 2 w.batchSize from this.1
  induction reached with
  | start first =>
    cases first
    exact ⟨⟨.refl _, forall_mem_nil _, fun _ => rfl, fun _ => rfl, forall_mem_nil _,
      forall_mem_nil _⟩, by grind [ShardState.initial]⟩
  | next _ _ ran ih => exact ih.1.step ih.2 ran

end ShardInv

section
variable {w : CompletionWorker} {s : ShardState} (reached : w.machine.Reachable Machine.Always s)
include reached

/-- No request is lost or answered twice, not even over a shutdown. A shard writes batches of its
own jobs only, no larger than configured, except that a batch size of one lets two requests into a
batch. -/
theorem requests_answered_once :
    (s.answers.map (·.request) ++ (s.pending ++ s.channel)).Perm s.requests ∧
    (s.phase = .stopped → (s.answers.map (·.request)).Perm s.requests) ∧
    ∀ batch ∈ s.flushes, batch ≠ [] ∧ batch.length ≤ max 2 w.batchSize ∧
      ∀ r ∈ batch, r.jobId % w.shardCount = w.shardId := by
  have inv := ShardInv.reachable reached
  refine ⟨inv.once, fun stopped => ?_, fun batch mem => ?_⟩
  · simpa [inv.last (.inr stopped), inv.gone stopped] using inv.once
  · obtain ⟨more, size, made⟩ := inv.batches batch mem
    exact ⟨more, size, fun r mem => inv.routed r (made mem)⟩

/-- A caller is told `true` exactly if a call of the flush with its request reported its attempt,
also when another call of that flush failed, and without a flush it is told an error. -/
theorem answers_tell_reported : ∀ a ∈ s.answers, a.Truthful :=
  (ShardInv.reachable reached).truthful

end

def halfDatabase : Database where
  call
    | .completeRuntimeBatch jobs => .ok (jobs.map (·.pair))
    | _ => .error "connection lost"
  given := by
    rintro jobs rows same p mem
    cases same
    exact mem

def halfWorker : CompletionWorker := ⟨0, 1, .queueStorage, 2⟩

/-- The second call of a flush fails after the first was committed, and the worker is stopped. -/
theorem half_flushed : ∃ s, halfWorker.machine.Reachable Machine.Always s ∧ s.phase = .stopped ∧
    s.answers.map (·.reported) = [some [(8, 1)], some [(8, 1)]] :=
  Machine.reachable_of_run _ _ [.complete (.complete 9 2),
    .complete (.completeRuntimeJob ⟨⟨3⟩, 8, 1⟩), .recv halfDatabase,
    .recv halfDatabase, .cancel, .leave, .drain halfDatabase, .drop] _ rfl (by decide)

theorem requests_answered_once_half : ∃ s : ShardState, s.phase = .stopped ∧ s.answers ≠ [] ∧
    (s.answers.map (·.request)).Perm s.requests := by
  obtain ⟨s, reached, stopped, reported⟩ := half_flushed
  refine ⟨s, stopped, ?_, (requests_answered_once reached).2.1 stopped⟩
  rintro nil
  simp [nil] at reported

theorem answers_tell_reported_half :
    ∃ s : ShardState, s.answers.map (·.reported) = [some [(8, 1)], some [(8, 1)]] ∧
    ∀ a ∈ s.answers, a.Truthful := by
  obtain ⟨s, reached, -, reported⟩ := half_flushed
  exact ⟨s, reported, answers_tell_reported reached⟩

end AwaQueue.Completion
