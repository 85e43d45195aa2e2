import AwaQueue.Cron.Tables
import Mathlib.Data.List.Sort

/-! Owner-scoped reconciliation of schedules.

Runtimes report themselves and what schedules they want. All tables of evidence are written under
one advisory lock, so publications, reconciliations and operator actions come one after another;
writers of `cron_jobs` that do not take the lock go on in between. Times are milliseconds of the
database clock. -/

namespace AwaQueue.Cron
open Library

/-- A complete desired set; `canonical_manifest` refuses a name that occurs twice. -/
structure PeriodicManifest where
  jobs : List PeriodicJob
  names : (jobs.map PeriodicJob.name).Nodup
deriving DecidableEq

structure PeriodicReconciliation where
  ownerId : String
  revision : String
  graceMs : Nat
deriving DecidableEq

structure RuntimeInstance where
  instanceId : Nat
  cronProtocol : Option Nat
  lastSeenAt : Nat
  snapshotIntervalMs : Nat
  shuttingDown : Bool
deriving DecidableEq

def cronProtocolVersion : Nat := 1

variable {H : Type} [DecidableEq H]

structure CronOwner (H : Type) where
  ownerId : String
  syncedHash : Option H
  agreedHash : Option H
  agreedSince : Option Nat
  evidenceUntil : Option Nat
deriving DecidableEq

structure ManifestRow (H : Type) where
  ownerId : String
  desiredHash : H
  manifest : PeriodicManifest
deriving DecidableEq

structure DeclarationRow (H : Type) where
  instanceId : Nat
  ownerId : String
  revision : String
  desiredHash : H
  graceMs : Nat
  lastSeenAt : Nat
deriving DecidableEq

/-- The tables that are written under `cron_protocol_lock`. -/
structure Evidence (H : Type) where
  owners : List (CronOwner H)
  manifests : List (ManifestRow H)
  declarations : List (DeclarationRow H)
  runtimes : List RuntimeInstance
deriving DecidableEq

def RuntimeInstance.window (r : RuntimeInstance) : Nat := max 30000 (3 * r.snapshotIntervalMs)

def RuntimeInstance.blocks (r : RuntimeInstance) (now : Nat) : Bool :=
  now < r.lastSeenAt + r.window && r.cronProtocol ≠ some cronProtocolVersion

structure CronDeclaration (H : Type) where
  instanceId : Nat
  revision : String
  desiredHash : H
  graceMs : Nat
  expiresAt : Nat
deriving DecidableEq

def DeclarationRow.expiresAt (d : DeclarationRow H) (r : RuntimeInstance) : Nat :=
  min d.lastSeenAt r.lastSeenAt + r.window

def DeclarationRow.livesBy (d : DeclarationRow H) (r : RuntimeInstance) (now : Nat) : Bool :=
  r.instanceId = d.instanceId && now < d.expiresAt r && !r.shuttingDown

def DeclarationRow.declaration (d : DeclarationRow H) (r : RuntimeInstance) : CronDeclaration H :=
  ⟨d.instanceId, d.revision, d.desiredHash, d.graceMs, d.expiresAt r⟩

namespace Evidence
variable (ev : Evidence H)

def blockingInstances (now : Nat) : List Nat :=
  (ev.runtimes.filter fun r => r.blocks now).map RuntimeInstance.instanceId

def liveDeclarations (owner : String) (now : Nat) : List (CronDeclaration H) :=
  ev.declarations.flatMap fun d => ev.runtimes.filterMap fun r =>
    if d.ownerId = owner ∧ d.livesBy r now = true then some (d.declaration r) else none

def owner? (owner : String) : Option (CronOwner H) := ev.owners.find? fun o => o.ownerId = owner

def manifest? (owner : String) (hash : H) : Option PeriodicManifest :=
  (ev.manifests.find? fun m => m.ownerId = owner && m.desiredHash = hash).map ManifestRow.manifest

def insertOwner (owner : String) : Evidence H :=
  if (ev.owner? owner).isSome then ev else { ev with owners := ev.owners ++
    [⟨owner, none, none, none, none⟩] }

def updateOwners (matched : CronOwner H → Bool) (set : CronOwner H → CronOwner H) : Evidence H :=
  { ev with owners := ev.owners.map fun o => if matched o then set o else o }

def insertManifest (row : ManifestRow H) : Evidence H :=
  if (ev.manifest? row.ownerId row.desiredHash).isSome then ev
    else { ev with manifests := ev.manifests ++ [row] }

def upsertDeclaration (row : DeclarationRow H) : Evidence H :=
  { ev with declarations := (ev.declarations.filter fun d => d.instanceId ≠ row.instanceId) ++
    [row] }

/-- `upsert_runtime_snapshot` with the trigger `cron_unknown_runtime`: a runtime of another protocol
restarts every agreement. -/
def upsertRuntime (row : RuntimeInstance) : Evidence H :=
  let ev := { ev with runtimes := (ev.runtimes.filter fun r => r.instanceId ≠ row.instanceId) ++
    [row] }
  if row.cronProtocol = some cronProtocolVersion then ev
  else ev.updateOwners (fun _ => true) fun o =>
    { o with agreedSince := none, evidenceUntil := none }

end Evidence

inductive CronBlocker where
  | unsupportedRuntimeProtocol
  | zeroLiveDeclarations
  | mixedDesiredManifests
  | ownershipOrRetirementConflict
  | gracePeriod
deriving DecidableEq

structure CronPlan (H : Type) where
  now : Nat
  declarations : List (CronDeclaration H)
  blockingInstances : List Nat
  desiredHash : Option H
  additions : List String
  updates : List String
  retirements : List String
  conflicts : List String
deriving DecidableEq

def conflictDescription (row : CronJobRow) (owner : String) : String :=
  if row.ownerId ≠ some owner then
    row.name ++ ": owned by " ++ row.ownerId.getD "<unowned>" ++
      "; explicit adoption/transfer required"
  else row.name ++ ": retired; explicit restore required"

def CronJobRow.conflicts (row : CronJobRow) (owner : String) : Bool := row.ownerId ≠ some owner ||
    row.retired.isSome

def PeriodicManifest.has (manifest : PeriodicManifest) (name : String) : Bool :=
  manifest.jobs.any fun job => job.name = name

def describeChanges (owner : String) (manifest : PeriodicManifest) (rows : List CronJobRow)
    (plan : CronPlan H) : CronPlan H :=
  let rowOf (job : PeriodicJob) : Option CronJobRow := rows.find? fun row => row.name = job.name
  { plan with
    additions := (manifest.jobs.filter fun job => (rowOf job).isNone).map PeriodicJob.name
    conflicts := manifest.jobs.filterMap fun job =>
      ((rowOf job).filter fun row => row.conflicts owner).map fun row =>
        conflictDescription row owner
    updates := (manifest.jobs.filter fun job => (rowOf job).any fun row =>
      !row.conflicts owner && row.job ≠ job).map PeriodicJob.name
    retirements := (rows.filter fun row => row.ownerId = some owner && row.retired.isNone &&
      !manifest.has row.name).map CronJobRow.name }

def sharedHash : List (CronDeclaration H) → Option H
  | [] => none
  | d :: rest =>
    if rest.all fun other => other.desiredHash = d.desiredHash then some d.desiredHash else none

/-- The reading half of `evaluate_locked`; `none` if the manifest is missing. A publication looks
for conflicts only when its hash is not the synced one. -/
def readPlan (ev : Evidence H) (rows : List CronJobRow) (owner : String) (apply : Bool)
    (now : Nat) : Option (CronPlan H) :=
  let declarations := ev.liveDeclarations owner now
  let plan : CronPlan H := ⟨now, declarations, ev.blockingInstances now, sharedHash declarations,
    [], [], [], []⟩
  match sharedHash declarations with
  | none => some plan
  | some hash =>
    if apply then (ev.manifest? owner hash).map fun manifest =>
      describeChanges owner manifest rows plan
    else if (ev.owner? owner).bind CronOwner.syncedHash ≠ some hash then
      some { plan with
        conflicts := (rows.filter fun row =>
          (ev.manifest? owner hash).any (fun manifest => manifest.has row.name) &&
            row.conflicts owner).map fun row => conflictDescription row owner }
    else some plan

namespace CronPlan
variable (p : CronPlan H)

def blockers : List CronBlocker :=
  (if p.blockingInstances ≠ [] then [.unsupportedRuntimeProtocol] else []) ++
    (if p.declarations = [] then [.zeroLiveDeclarations] else []) ++
    (if p.declarations ≠ [] ∧ p.desiredHash = none then [.mixedDesiredManifests] else []) ++
    if p.conflicts ≠ [] then [.ownershipOrRetirementConflict] else []

def graceMs : Nat := (p.declarations.map CronDeclaration.graceMs).foldr max 0

def evidenceUntil : Option Nat := (p.declarations.map CronDeclaration.expiresAt).min?

def agreedSince (state : Option (CronOwner H)) : Nat :=
  if state.bind CronOwner.agreedHash = p.desiredHash ∧ (state.bind CronOwner.evidenceUntil).any
      (fun t => p.now < t) = true then
    (state.bind CronOwner.agreedSince).getD p.now
  else p.now

def graceRemainingMs (state : Option (CronOwner H)) : Nat :=
  p.graceMs - (p.now - p.agreedSince state)

def revisions : String :=
  String.intercalate ", " ((p.declarations.map CronDeclaration.revision).eraseDups.insertionSort
    fun a b => a ≤ b)

end CronPlan

def syncRows (owner : String) (manifest : PeriodicManifest) (now : Nat) (rows : List CronJobRow) :
    Option (List CronJobRow) :=
  let wanted (row : CronJobRow) : PeriodicJob :=
    (manifest.jobs.find? fun job => job.name = row.name).getD row.job
  (updateRows false (some owner) (fun row => row.ownerId = some owner && row.retired.isNone &&
    row.job ≠ wanted row) (fun row => { row with job := wanted row }) rows).map fun updated =>
      updated ++ (manifest.jobs.filter fun job => rows.all fun row => row.name ≠ job.name).map
        fun job => job.row (some owner) now

def retireRows (owner : String) (p : CronPlan H) : List CronJobRow → Option (List CronJobRow) :=
  updateRows true none (fun row => p.retirements.contains row.name && row.ownerId = some owner &&
    row.retired.isNone) fun row => { row with retired := some ⟨p.now, owner, p.revisions⟩ }

/-- `sync_definitions` if the hash is not the synced one; `none` if its manifest is missing. -/
def syncIfStale (ev : Evidence H) (owner : String) (hash : H) (clock : Nat)
    (rows : List CronJobRow) : Option (List CronJobRow) :=
  if (ev.owner? owner).bind CronOwner.syncedHash ≠ some hash then
    (ev.manifest? owner hash).bind fun manifest => syncRows owner manifest clock rows
  else some rows

def retireIfDue (ev : Evidence H) (owner : String) (apply : Bool) (p : CronPlan H)
    (rows : List CronJobRow) : Option (List CronJobRow) :=
  if apply ∧ p.graceRemainingMs (ev.owner? owner) = 0 then retireRows owner p rows else some rows

def applyPlan (ev : Evidence H) (rows : List CronJobRow) (owner : String) (apply : Bool)
    (p : CronPlan H) (clock : Nat) : Option (Evidence H × List CronJobRow) :=
  if p.blockers = [] then
    p.desiredHash.bind fun hash => (syncIfStale ev owner hash clock rows).bind fun synced =>
      (retireIfDue ev owner apply p synced).map fun retired =>
        (ev.updateOwners (fun o => o.ownerId = owner) fun o =>
          ⟨o.ownerId, some hash, some hash, some (p.agreedSince (ev.owner? owner)),
            p.evidenceUntil⟩, retired)
  else some (ev.updateOwners (fun o => o.ownerId = owner) (fun o =>
    { o with agreedHash := none, agreedSince := none, evidenceUntil := none }), rows)

structure CronTxn (H : Type) where
  owner : String
  apply : Bool
  evidence : Evidence H
  /-- The rows it has inserted into `cron_jobs`; a writer of the same name waits for it. -/
  inserted : List CronJobRow
  plan : Option (CronPlan H)
  /-- The moments since its evaluation; no statement reads them. -/
  times : List Nat
deriving DecidableEq

structure CronState (H : Type) where
  clock : Nat
  rows : List CronJobRow
  evidence : Evidence H
  txn : Option (CronTxn H)
  /-- Every moment of the run with the evidence in effect. That of a transaction is in effect from
  its evaluation on, if it commits. No statement reads it. -/
  moments : List (Nat × Evidence H)

/-- A writer of `cron_jobs` that does not take the lock. -/
inductive LegacyWrite where
  | upsert (job : PeriodicJob)
  | releasedUpsert (job : PeriodicJob)
  | delete (name : String)
  | pause (name : String) (pausedBy : Option String)
  | resume (name : String)
  | mark (name : String) (fireTime : Nat) (previous : Option Nat)
deriving DecidableEq

namespace LegacyWrite

def name : LegacyWrite → String
  | upsert job => job.name
  | releasedUpsert job => job.name
  | delete name => name
  | pause name _ => name
  | resume name => name
  | mark name _ _ => name

def run (now : Nat) : LegacyWrite → List CronJobRow → Option (List CronJobRow)
  | upsert job => upsertCronJob job now
  | releasedUpsert job => AwaQueue.Cron.releasedUpsert job now
  | delete name => deleteCronJob name
  | pause name pausedBy => pauseCronJob name pausedBy now
  | resume name => resumeCronJob name
  | mark name fireTime previous => markEnqueued name fireTime previous

end LegacyWrite

/-- What a runtime reports with a snapshot. `started` is `now()`, the start of its transaction. -/
structure RuntimeSnapshot where
  started : Nat
  snapshotIntervalMs : Nat
  shuttingDown : Bool
deriving DecidableEq

def RuntimeSnapshot.row (snapshot : RuntimeSnapshot) (instanceId : Nat)
    (cronProtocol : Option Nat) : RuntimeInstance :=
  ⟨instanceId, cronProtocol, snapshot.started, snapshot.snapshotIntervalMs, snapshot.shuttingDown⟩

inductive CronOp where
  | tick
  /-- A runtime that publishes no manifest, or one of another protocol. -/
  | snapshot (instanceId : Nat) (cronProtocol : Option Nat) (snapshot : RuntimeSnapshot)
  /-- `publish`, alone or in the transaction of a snapshot, up to its evaluation. -/
  | beginPublish (instanceId : Nat) (snapshot : Option RuntimeSnapshot)
  | beginReconcile (owner : String)
  | scan
  | finish
  | abort
  | operate (action : CronOwnerAction) (actor : String)
  | legacy (write : LegacyWrite)
deriving DecidableEq

abbrev CronClients := Nat → Option (PeriodicReconciliation × PeriodicManifest)

namespace CronState
variable (s : CronState H)

def observe : CronState H :=
  match s.txn with
  | some txn =>
    if txn.plan.isSome then { s with txn := some { txn with times := txn.times ++ [s.clock] } }
    else { s with moments := s.moments ++ [(s.clock, s.evidence)] }
  | none => { s with moments := s.moments ++ [(s.clock, s.evidence)] }

def settle (txn : CronTxn H) (evidence : Evidence H) (rows : List CronJobRow) : CronState H :=
  { s with rows, evidence, txn := none, moments := s.moments ++ txn.times.map fun time =>
    (time, evidence) }

end CronState

def publishEvidence (hash : PeriodicManifest → H) (ev : Evidence H) (instanceId : Nat)
    (config : PeriodicReconciliation) (manifest : PeriodicManifest) (clock : Nat) : Evidence H :=
  ((ev.insertOwner config.ownerId).insertManifest ⟨config.ownerId, hash manifest,
    manifest⟩).upsertDeclaration
    ⟨instanceId, config.ownerId, config.revision, hash manifest, config.graceMs, clock⟩

def publishRows (known : Bool) (owner : String) (manifest : PeriodicManifest) (clock : Nat)
    (rows : List CronJobRow) : List CronJobRow :=
  if known then [] else (manifest.jobs.filter fun job => rows.all fun row => row.name ≠
    job.name).map fun job => job.row (some owner) clock

/-- The tables with the snapshot of the publishing transaction, or those of a runtime that has
reported before. -/
def snapshotEvidence (s : CronState H) (instanceId : Nat) : Option RuntimeSnapshot →
    Option (Evidence H)
  | some snapshot =>
    if snapshot.started ≤ s.clock then
      some (s.evidence.upsertRuntime (snapshot.row instanceId (some cronProtocolVersion)))
    else none
  | none =>
    if s.evidence.runtimes.any fun r => r.instanceId = instanceId then some s.evidence else none

def publishTxn (hash : PeriodicManifest → H) (s : CronState H) (instanceId : Nat)
    (config : PeriodicReconciliation)
    (manifest : PeriodicManifest) (ev : Evidence H) : CronTxn H where
  owner := config.ownerId
  apply := false
  evidence := publishEvidence hash ev instanceId config manifest s.clock
  inserted := publishRows (ev.manifest? config.ownerId (hash manifest)).isSome config.ownerId
    manifest s.clock s.rows
  plan := none
  times := []

def beginPublish (clients : CronClients) (hash : PeriodicManifest → H) (s : CronState H)
    (instanceId : Nat) (snapshot : Option RuntimeSnapshot) : Option (CronState H) :=
  if s.txn.isNone then
    (clients instanceId).bind fun client => (snapshotEvidence s instanceId snapshot).map fun ev =>
      { s with txn := some (publishTxn hash s instanceId client.1 client.2 ev) }
  else none

def CronOwnerAction.adopter : CronOwnerAction → Option String
  | adopt _ ownerId _ => some ownerId
  | retire _ | retireOwner _ | restore _ | restoreOwner _ => none

def CronOwnerAction.affects (action : CronOwnerAction) (rows : List CronJobRow) (owner : String) :
    Bool :=
  (rows.any fun row => action.selects row && row.ownerId = some owner) ||
    action.adopter = some owner

def operateOwners (action : CronOwnerAction) (rows : List CronJobRow) (ev : Evidence H) :
    Evidence H :=
  (action.adopter.elim ev ev.insertOwner).updateOwners
      (fun o => action.affects rows o.ownerId) fun o =>
    ⟨o.ownerId, none, none, none, none⟩

def cronStep (clients : CronClients) (hash : PeriodicManifest → H) (op : CronOp) (s : CronState H) :
    Option (CronState H) :=
  match op with
  | .tick => some { s with clock := s.clock + 1 }.observe
  | .snapshot instanceId cronProtocol snapshot =>
    if s.txn.isNone ∧ snapshot.started ≤ s.clock ∧
        (cronProtocol = some cronProtocolVersion → (clients instanceId).isNone = true) then
      some { s with evidence := s.evidence.upsertRuntime (snapshot.row instanceId cronProtocol)
        }.observe
    else none
  | .beginPublish instanceId snapshot => beginPublish clients hash s instanceId snapshot
  | .beginReconcile owner =>
    if s.txn.isNone then some { s with txn := some ⟨owner, true, s.evidence, [], none, []⟩ }
      else none
  | .scan => s.txn.bind fun txn =>
    if txn.plan.isNone then
      (readPlan txn.evidence (s.rows ++ txn.inserted) txn.owner txn.apply s.clock).map fun plan =>
        { s with txn := some { txn with plan := some plan } }.observe
    else none
  | .finish => s.txn.bind fun txn => txn.plan.bind fun plan =>
      (applyPlan txn.evidence (s.rows ++ txn.inserted) txn.owner txn.apply plan s.clock).map
          fun result =>
        s.settle txn result.1 result.2
  | .abort => s.txn.map fun txn => s.settle txn s.evidence s.rows
  | .operate action actor =>
    if s.txn.isNone then
      (operateRows action actor s.clock s.rows).map fun rows =>
        { s with rows, evidence := operateOwners action s.rows s.evidence }.observe
    else none
  | .legacy write =>
    if s.txn.all fun txn => txn.inserted.all fun row => row.name ≠ write.name then
      (write.run s.clock s.rows).map fun rows => { s with rows }
    else none

def cronMachine (clients : CronClients) (hash : PeriodicManifest → H) :
    Machine (CronState H) CronOp where
  init s := (s.rows.map CronJobRow.name).Nodup ∧ s.evidence = ⟨[], [], [], []⟩ ∧ s.txn = none ∧
    s.moments = [(s.clock, s.evidence)]
  step := cronStep clients hash

end AwaQueue.Cron
