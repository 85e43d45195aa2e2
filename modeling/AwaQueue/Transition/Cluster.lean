import AwaQueue.Lane.Tables
import AwaQueue.Library.Machine
import Mathlib.Logic.Function.Basic

/-! The storage transition of a cluster: the singleton of `storage_transition_state`, the functions
that move it from the canonical tables to a queue-storage schema, and the jobs of both planes.

Producers and reschedules ask `active_queue_storage_schema` where a job goes. Every transition
function resolves the schema by itself and has its own check for work left behind. -/

namespace AwaQueue
open Library

inductive Engine where
  | canonical
  | queueStorage
  | other (name : String)
deriving DecidableEq

def Engine.text : Engine → String
  | .canonical => "canonical"
  | .queueStorage => "queue_storage"
  | .other name => name

inductive TransitionState where
  | canonical
  | prepared
  | mixedTransition
  | active
deriving DecidableEq

/-- The `details` document: the text of its schema entry, and the rest of it. -/
structure TransitionDetails where
  schema : Option String := none
  rest : String := ""
deriving DecidableEq

def TransitionDetails.schemaEntry (details : TransitionDetails) : Option String :=
  details.schema.filter fun name => name ≠ ""

/-- The singleton of `storage_transition_state`. -/
structure TransitionRow where
  currentEngine : Engine
  preparedEngine : Option Engine
  state : TransitionState
  transitionEpoch : Nat
  details : TransitionDetails
deriving DecidableEq

def TransitionRow.activeStorageEngine (row : TransitionRow) : Engine :=
  match row.state with
  | .mixedTransition | .active => row.preparedEngine.getD row.currentEngine
  | .canonical | .prepared => row.currentEngine

inductive StorageCapability where
  | canonical
  | canonicalDrainOnly
  | queueStorage
deriving DecidableEq

inductive TransitionRole where
  | auto
  | canonicalDrain
  | queueStorageTarget
deriving DecidableEq

/-- A row of `runtime_instances`; times are in seconds. -/
structure RuntimeInstance where
  storageCapability : StorageCapability
  transitionRole : TransitionRole
  lastSeenAt : Nat
  snapshotIntervalMs : Nat
deriving DecidableEq

def RuntimeInstance.live (now : Nat) (runtime : RuntimeInstance) : Bool :=
  now ≤ runtime.lastSeenAt + max (max runtime.snapshotIntervalMs 1000 / 1000 * 3) 30

/-- A row of `jobs_hot` or `scheduled_jobs`; `callback` says whether a callback column is set. -/
structure CanonicalJob where
  id : Nat
  state : JobState
  attempt : Nat
  runLease : Nat
  callback : Bool
deriving DecidableEq

/-- What the claim and closure tables say about a row of `ready_entries`. -/
inductive EntryState where
  | unclaimed
  | open
  | closed
deriving DecidableEq

structure QueueEntry where
  jobId : Nat
  state : EntryState
deriving DecidableEq

structure QueueTables where
  nextJobId : Nat := 1
  deferredJobs : List Nat := []
  readyEntries : List QueueEntry := []
  doneEntries : List Nat := []
deriving DecidableEq

def QueueTables.liveJobs (tables : QueueTables) : List Nat :=
  tables.deferredJobs ++ (tables.readyEntries.filter fun entry => entry.state ≠ .closed).map
    QueueEntry.jobId

def QueueTables.rows (tables : QueueTables) : Nat :=
  tables.readyEntries.length + tables.deferredJobs.length + tables.doneEntries.length

structure Cluster where
  transition : TransitionRow
  /-- `schema_name` of the row `queue_storage` of `runtime_storage_backends`. -/
  backend : Option String
  runtimes : List RuntimeInstance
  now : Nat
  jobsHot : List CanonicalJob
  scheduledJobs : List CanonicalJob
  nextId : Nat
  /-- The schemas whose queue-storage tables exist. -/
  installed : List String
  queues : String → QueueTables

/-- The exceptions the transition functions raise, with the values in their texts. -/
inductive TransitionError where
  | blankEngine
  | alreadyActive (engine : Engine)
  | prepareState
  | enterState
  | unsupportedEngine (engine : Option Engine)
  | schemaNotPrepared (schema : String)
  | enterCanonicalLive (count : Nat)
  | noTarget
  | abortQueueStorageLive (count : Nat)
  | abortRows (count : Nat)
  | finalizeState
  | finalizeBacklog (count : Nat)
  | finalizeCanonicalLive (count : Nat)
deriving DecidableEq

def TransitionError.message : TransitionError → String
  | .blankEngine => "storage engine must not be blank"
  | .alreadyActive engine =>
    let name := engine.text
    s!"storage engine \"{name}\" is already active"
  | .prepareState => "storage prepare is only allowed from canonical or prepared state"
  | .enterState => "storage enter-mixed-transition is only allowed from prepared state"
  | .unsupportedEngine engine =>
    let name := (engine.map Engine.text).getD "<NULL>"
    s!"prepared engine \"{name}\" is not supported by this release"
  | .schemaNotPrepared schema => s!"queue storage schema \"{schema}\" is not prepared"
  | .enterCanonicalLive count =>
    s!"cannot enter mixed transition while {count} canonical-only runtime(s) are still live"
  | .noTarget =>
    "cannot enter mixed transition without a live runtime running with " ++
      "transition_role=queue_storage_target; auto-role runtimes downgrade to drain-only after routing flips"
  | .abortQueueStorageLive count =>
    s!"cannot abort mixed transition while {count} queue-storage runtime(s) are still live"
  | .abortRows count =>
    s!"cannot abort mixed transition while queue storage contains {count} row(s)"
  | .finalizeState => "storage finalize is only allowed from mixed_transition state"
  | .finalizeBacklog count => s!"cannot finalize while canonical live backlog is {count}"
  | .finalizeCanonicalLive count =>
    s!"cannot finalize while {count} canonical-only runtime(s) are still live"

namespace Cluster
variable (s : Cluster)

/-- Where a new job goes: a queue-storage schema, or the canonical tables. -/
def activeQueueStorageSchema : Option String :=
  if s.transition.activeStorageEngine = .queueStorage then
    some ((s.transition.details.schemaEntry.or s.backend).getD "awa")
  else none

def canonicalLive : List CanonicalJob :=
  (s.jobsHot.filter fun job => !job.state.isTerminal) ++ s.scheduledJobs

def canonicalLiveBacklog : Nat := s.canonicalLive.length

def liveRuntimes (wanted : RuntimeInstance → Bool) : Nat :=
  s.runtimes.countP fun runtime => wanted runtime && runtime.live s.now

def storagePrepare (engine : Option Engine) (details : Option TransitionDetails) :
    Except TransitionError Cluster :=
  match engine with
  | none => .error .blankEngine
  | some target =>
    if s.transition.currentEngine = target then .error (.alreadyActive target)
    else if s.transition.state = .canonical ∨ s.transition.state = .prepared then
      let given := details.getD {}
      let epoch := s.transition.transitionEpoch
      let again := s.transition.state = .prepared ∧ s.transition.preparedEngine = some target ∧
        s.transition.details = given
      .ok { s with
        transition :=
          { s.transition with
            preparedEngine := some target, state := .prepared
            transitionEpoch := if again then epoch else epoch + 1, details := given } }
    else .error .prepareState

def enterRefusal : Option TransitionError :=
  let schema := s.transition.details.schemaEntry.getD "awa"
  let canonicalOnly := s.liveRuntimes fun runtime => runtime.storageCapability = .canonical
  let targets := s.liveRuntimes fun runtime =>
    runtime.transitionRole = .queueStorageTarget && runtime.storageCapability = .queueStorage
  if s.transition.state ≠ .prepared then some .enterState
  else if s.transition.preparedEngine ≠ some .queueStorage then
    some (.unsupportedEngine s.transition.preparedEngine)
  else if schema ∉ s.installed then some (.schemaNotPrepared schema)
  else if 0 < canonicalOnly then some (.enterCanonicalLive canonicalOnly)
  else if targets = 0 then some .noTarget
  else none

def entered : Cluster :=
  { s with
    backend := some (s.transition.details.schemaEntry.getD "awa")
    transition :=
      { s.transition with state := .mixedTransition, transitionEpoch :=
        s.transition.transitionEpoch + 1 } }

/-- The schema in which `storage_abort` looks for rows. -/
def abortSchema : String := s.transition.details.schemaEntry.getD "awa_exp"

def abortRefusal : Option TransitionError :=
  let queueStorage := s.liveRuntimes fun runtime => runtime.storageCapability = .queueStorage
  let rows := if s.abortSchema ∈ s.installed then (s.queues s.abortSchema).rows else 0
  if s.transition.state ≠ .mixedTransition then none
  else if 0 < queueStorage then some (.abortQueueStorageLive queueStorage)
  else if 0 < rows then some (.abortRows rows)
  else none

/-- The writes of `storage_abort`; the update leaves an active row alone. -/
def aborted : Cluster :=
  let row := s.transition
  { s with
    backend := none
    transition :=
      match row.state with
      | .active => row
      | .canonical => { row with preparedEngine := none, details := {} }
      | .prepared | .mixedTransition =>
        { row with
          preparedEngine := none, state := .canonical, transitionEpoch := row.transitionEpoch + 1,
            details := {} } }

def finalizeRefusal : Option TransitionError :=
  let canonicalOnly := s.liveRuntimes fun runtime => runtime.storageCapability = .canonical
  if s.transition.state ≠ .mixedTransition then some .finalizeState
  else if s.transition.preparedEngine ≠ some .queueStorage then
    some (.unsupportedEngine s.transition.preparedEngine)
  else if 0 < s.canonicalLiveBacklog then some (.finalizeBacklog s.canonicalLiveBacklog)
  else if 0 < canonicalOnly then some (.finalizeCanonicalLive canonicalOnly)
  else none

def finalized : Cluster :=
  { s with
    transition :=
      { s.transition with
        currentEngine := s.transition.preparedEngine.getD s.transition.currentEngine,
          preparedEngine := none
        state := .active, transitionEpoch := s.transition.transitionEpoch + 1 } }

end Cluster

/-- The transition functions that take the row `FOR UPDATE`, check, write and commit. -/
inductive TransitionCall where
  | enterMixedTransition
  | abort
  | finalize
deriving DecidableEq

def TransitionCall.refusal : TransitionCall → Cluster → Option TransitionError
  | .enterMixedTransition => Cluster.enterRefusal
  | .abort => Cluster.abortRefusal
  | .finalize => Cluster.finalizeRefusal

def TransitionCall.write : TransitionCall → Cluster → Cluster
  | .enterMixedTransition => Cluster.entered
  | .abort => Cluster.aborted
  | .finalize => Cluster.finalized

namespace Cluster
variable (s : Cluster)

def storageTransition (call : TransitionCall) : Except TransitionError Cluster :=
  match call.refusal s with
  | some error => .error error
  | none => .ok (call.write s)

def storageEnterMixedTransition : Except TransitionError Cluster :=
  s.storageTransition .enterMixedTransition

def storageAbort : Except TransitionError Cluster := s.storageTransition .abort

def storageFinalize : Except TransitionError Cluster := s.storageTransition .finalize

def storageAutoFinalizeIfFresh (schema : Option String) : Cluster × Bool :=
  let target := (schema.filter fun name => name ≠ "").getD "awa"
  if s.transition.state = .canonical ∧ s.transition.preparedEngine = none ∧ s.jobsHot = [] ∧
      s.scheduledJobs = [] ∧
      s.runtimes.countP (fun runtime => s.now ≤ runtime.lastSeenAt + 90) = 0 then
    ({ s with
      backend := some target
      transition :=
        { currentEngine := .queueStorage, preparedEngine := none, state := .active
          transitionEpoch := s.transition.transitionEpoch + 1, details :=
            ⟨some target, "auto_finalized"⟩ } }, true)
  else (s, false)

def setQueue (schema : String) (tables : QueueTables) : Cluster :=
  { s with queues := Function.update s.queues schema tables }

def insertJobCompat (state : JobState) : Option Cluster :=
  match s.activeQueueStorageSchema with
  | none =>
    let job : CanonicalJob := ⟨s.nextId, state, 0, 0, false⟩
    if state = .scheduled ∨ state = .retryable then
      some { s with scheduledJobs := s.scheduledJobs ++ [job], nextId := s.nextId + 1 }
    else some { s with jobsHot := s.jobsHot ++ [job], nextId := s.nextId + 1 }
  | some schema =>
    let tables := s.queues schema
    if schema ∉ s.installed then none
    else match state with
      | .available =>
        some (s.setQueue schema { tables with
          nextJobId := tables.nextJobId + 1, readyEntries :=
            tables.readyEntries ++ [⟨tables.nextJobId, .unclaimed⟩] })
      | .scheduled | .retryable =>
        some (s.setQueue schema { tables with
          nextJobId := tables.nextJobId + 1, deferredJobs :=
            tables.deferredJobs ++ [tables.nextJobId] })
      | _ => none

end Cluster

/-- The reschedules: `Snooze`, and `RetryAfter` or `RetryBackoff`. -/
inductive Reschedule where
  | snooze
  | retry
deriving DecidableEq

def Reschedule.nextState : Reschedule → JobState
  | .snooze => .scheduled
  | .retry => .retryable

def Reschedule.nextAttempt (reschedule : Reschedule) (attempt : Nat) : Nat :=
  match reschedule with
  | .snooze => attempt - 1
  | .retry => attempt

def validateIdent (ident : String) : Bool :=
  match ident.toList with
  | [] => false
  | first :: rest =>
    (first.isLower || first == '_') && rest.all fun c => c.isLower || c.isDigit || c == '_'

/-- `insert_migrated_deferred_or_cancel_duplicate_tx`: a deferred job, or a cancelled terminal row
when a `duplicate` holds the unique claim. -/
def QueueTables.insertMigrated (tables : QueueTables) (jobId : Nat) (duplicate : Bool) :
    QueueTables :=
  if duplicate then { tables with doneEntries := tables.doneEntries ++ [jobId] }
  else { tables with deferredJobs := tables.deferredJobs ++ [jobId] }

def CanonicalJob.runs (job : CanonicalJob) (id lease : Nat) : Bool :=
  job.id = id && job.state = .running && job.runLease = lease

namespace Cluster
variable (s : Cluster)

/-- `reschedule_canonical`: the row moves from `jobs_hot` to `scheduled_jobs`; nothing happens to a
stale attempt. -/
def rescheduleCanonical (id lease : Nat) (reschedule : Reschedule) : Cluster :=
  match s.jobsHot.find? fun job => job.runs id lease with
  | none => s
  | some job =>
    { s with
      jobsHot := s.jobsHot.erase job
      scheduledJobs := s.scheduledJobs ++
        [{ job with state := reschedule.nextState, attempt := reschedule.nextAttempt job.attempt }]
          }

/-- `migrate_to_queue_storage`: the attempt leaves the canonical tables and continues in the schema
under a fresh id. A job with callback columns stays canonical. -/
def migrateToQueueStorage (schema : String) (id lease : Nat) (reschedule : Reschedule)
    (duplicate : Bool) : Option Cluster :=
  match s.jobsHot.find? fun job => job.runs id lease && !job.callback with
  | none => some (s.rescheduleCanonical id lease reschedule)
  | some job =>
    if validateIdent schema && schema ∈ s.installed then
      let tables := s.queues schema
      some { s with
        jobsHot := s.jobsHot.erase job
        queues := Function.update s.queues schema
          { tables.insertMigrated tables.nextJobId duplicate with nextJobId := tables.nextJobId +
            1 } }
    else none

def rescheduleCanonicalAttempt (id lease : Nat) (reschedule : Reschedule) (duplicate : Bool) :
    Option Cluster :=
  match s.activeQueueStorageSchema with
  | none => some (s.rescheduleCanonical id lease reschedule)
  | some schema => s.migrateToQueueStorage schema id lease reschedule duplicate

end Cluster

inductive ClusterOp where
  | storagePrepare (engine : Option Engine) (details : Option TransitionDetails)
  | storageEnterMixedTransition
  | storageAbort
  | storageFinalize
  | storageAutoFinalizeIfFresh (schema : Option String)
  | prepareSchema (schema : String)
  | report (runtimes : List RuntimeInstance)
  | tick (seconds : Nat)
  | insertJobCompat (state : JobState)
  | claim (id : Nat)
  | finish (id lease : Nat) (state : JobState)
  | registerCallback (id lease : Nat)
  | promote (id : Nat)
  | reschedule (id lease : Nat) (kind : Reschedule) (duplicate : Bool)
  | queueClaim (schema : String) (jobId : Nat)
  /-- A queue-storage attempt ends, in a terminal row or as a deferred job. -/
  | queueSettle (schema : String) (jobId : Nat) (retry : Bool)
  | queuePromote (schema : String) (jobId : Nat)
  /-- A prune removes the closed rows and the terminal rows of some jobs. -/
  | queuePrune (schema : String) (jobs : List Nat)

namespace QueueTables
variable (tables : QueueTables)

def advance (jobId : Nat) (before after : EntryState) : Option QueueTables :=
  if ⟨jobId, before⟩ ∈ tables.readyEntries then
    some { tables with readyEntries := tables.readyEntries.replace ⟨jobId, before⟩ ⟨jobId, after⟩ }
  else none

def settle (jobId : Nat) (retry : Bool) : Option QueueTables :=
  (tables.advance jobId .open .closed).map fun closed =>
    if retry then { closed with deferredJobs := closed.deferredJobs ++ [jobId] }
    else { closed with doneEntries := closed.doneEntries ++ [jobId] }

def promote (jobId : Nat) : Option QueueTables :=
  if jobId ∈ tables.deferredJobs then
    some { tables with
      deferredJobs := tables.deferredJobs.erase jobId
      readyEntries := tables.readyEntries ++ [⟨jobId, .unclaimed⟩] }
  else none

def prune (jobs : List Nat) : QueueTables :=
  { tables with
    readyEntries := tables.readyEntries.filter fun entry =>
      !(entry.state = .closed && entry.jobId ∈ jobs)
    doneEntries := tables.doneEntries.filter fun job => job ∉ jobs }

end QueueTables

def Cluster.updateHot (s : Cluster) (wanted : CanonicalJob → Bool)
    (change : CanonicalJob → CanonicalJob) : Option Cluster :=
  (s.jobsHot.find? wanted).map fun job => { s with jobsHot := s.jobsHot.replace job (change job) }

def clusterStep (op : ClusterOp) (s : Cluster) : Option Cluster :=
  match op with
  | .storagePrepare engine details => (s.storagePrepare engine details).toOption
  | .storageEnterMixedTransition => s.storageEnterMixedTransition.toOption
  | .storageAbort => s.storageAbort.toOption
  | .storageFinalize => s.storageFinalize.toOption
  | .storageAutoFinalizeIfFresh schema => some (s.storageAutoFinalizeIfFresh schema).1
  | .prepareSchema schema => some { s with installed := s.installed ++ [schema] }
  | .report runtimes => some { s with runtimes := runtimes }
  | .tick seconds => some { s with now := s.now + seconds }
  | .insertJobCompat state => s.insertJobCompat state
  | .claim id =>
    s.updateHot (fun job => job.id = id && job.state = .available) fun job =>
      { job with state := .running, attempt := job.attempt + 1, runLease := job.runLease + 1 }
  | .finish id lease state =>
    if state.isTerminal then s.updateHot (fun job => job.runs id lease) fun job =>
      { job with state := state }
    else none
  | .registerCallback id lease =>
    s.updateHot (fun job => job.runs id lease) fun job => { job with callback := true }
  | .promote id =>
    (s.scheduledJobs.find? fun job => job.id = id).map fun job =>
      { s with
        scheduledJobs := s.scheduledJobs.erase job
        jobsHot := s.jobsHot ++ [{ job with state := .available }] }
  | .reschedule id lease kind duplicate => s.rescheduleCanonicalAttempt id lease kind duplicate
  | .queueClaim schema jobId =>
    ((s.queues schema).advance jobId .unclaimed .open).map (s.setQueue schema)
  | .queueSettle schema jobId retry =>
    ((s.queues schema).settle jobId retry).map (s.setQueue schema)
  | .queuePromote schema jobId => ((s.queues schema).promote jobId).map (s.setQueue schema)
  | .queuePrune schema jobs => some (s.setQueue schema ((s.queues schema).prune jobs))

/-- Before the first transition: any canonical jobs, runtimes and installed schemas, and no job in
queue storage. -/
structure Cluster.Initial (s : Cluster) : Prop where
  transition : s.transition = ⟨.canonical, none, .canonical, 0, {}⟩
  backend : s.backend = none
  queues : s.queues = fun _ => {}

def clusterMachine : Machine Cluster ClusterOp := ⟨Cluster.Initial, clusterStep⟩

end AwaQueue
