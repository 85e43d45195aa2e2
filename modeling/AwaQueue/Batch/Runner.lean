import AwaQueue.Library.Machine

/-! Batch operations: the operations and their items, and the runners that work through them chunk
by chunk.

A step of a runner is one statement. The transaction of an item locks the item's row from
`record_item_outcome_tx` on, and a runner that dies or loses the connection leaves it behind: it
holds its lock until the server ends it, by a commit that was already under way or by a rollback.
The lock on the operation's row, which it takes last and which only lets others wait, is left out.
The advisory lock belongs to a session of its own, which outlives a crash as well; a runner may lose
that session and go on. Of a job it only matters whether it is waiting and differs from what an
operation asks for; anything else that changes the job may change that. -/

namespace AwaQueue.Batch
open Function (update)
open Library

inductive OperationState where
  | pending
  | scanning
  | running
  | cancelling
  | completed
  | cancelled
  | failed
  deriving DecidableEq

def OperationState.active : OperationState → Bool
  | .pending | .scanning | .running | .cancelling => true
  | .completed | .cancelled | .failed => false

inductive ItemState where
  | pending
  | processed
  | skipped
  | errored
  deriving DecidableEq

/-- A row of `batch_operations` with its items, which are deleted with it. -/
structure Operation where
  state : OperationState
  items : List (Nat × ItemState)
  processed : Nat
  skipped : Nat
  errored : Nat
  deriving DecidableEq

namespace Operation
variable (o : Operation)

def pendingJobs : List Nat := (o.items.filter fun item => item.2 = .pending).map Prod.fst

def settled : Nat := o.items.countP fun item => item.2 ≠ .pending

def insertItem (job : Nat) : Operation :=
  if job ∈ o.items.map Prod.fst then o else { o with items := o.items ++ [(job, .pending)] }

def insertItems (jobs : List Nat) : Operation := jobs.foldl insertItem o

/-- `record_item_outcome_tx`: the item only while it is pending, the counters in any case. -/
def recordOutcome (job : Nat) (outcome : ItemState) : Operation where
  state := o.state
  items := o.items.map fun item => if item.1 = job ∧ item.2 = .pending then (item.1, outcome)
    else item
  processed := o.processed + if outcome = .processed then 1 else 0
  skipped := o.skipped + if outcome = .skipped then 1 else 0
  errored := o.errored + if outcome = .errored then 1 else 0

def skipPending : Operation :=
  { o with
    items := o.items.map fun item => if item.2 = .pending then (item.1, .skipped) else item
    skipped := o.skipped + o.pendingJobs.length }

end Operation

inductive Phase where
  | idle
  | locked
  /-- In `scan_operation`, before a page of ids or its last update. -/
  | scanning (op : Nat)
  /-- In `scan_operation`, before the state is read after a page. -/
  | scanned (op : Nat)
  | chunk (op : Nat)
  /-- In the loop over the items, with those that are left. -/
  | items (op : Nat) (jobs : List Nat)
  /-- In the transaction of an item, whose outcome is known. -/
  | applying (op job : Nat) (changed : Bool) (rest : List Nat)
  /-- The transaction of an item was rolled back; its error is about to be recorded. -/
  | erring (op job : Nat) (rest : List Nat)
  /-- Before the commit of an item. -/
  | recorded (op job : Nat) (outcome : ItemState) (rest : List Nat)
  /-- After the loop, with the number of pending items once that is read. -/
  | counting (op : Nat)
  | counted (op pending : Nat)
  | skipping (op : Nat)
  | finalizing (op : Nat) (state : OperationState)
  | unlocking
  deriving DecidableEq

/-- The transaction of an item after `record_item_outcome_tx`; `runner` is `none` once it is left
behind. -/
structure ItemTx where
  op : Nat
  job : Nat
  outcome : ItemState
  runner : Option Nat
  deriving DecidableEq

def ItemTx.item (tx : ItemTx) : Nat × Nat := (tx.op, tx.job)

/-- The tables, the jobs as an operation sees them, the holder of the advisory lock, the
transactions of items and the runners; and what has happened so far: the ids of operations, and the
items for which a job was changed. -/
structure BatchState where
  ops : Nat → Option Operation
  differs : Nat → Nat → Bool
  lock : Option Nat
  transactions : List ItemTx
  phase : Nat → Phase
  used : List Nat
  applied : List (Nat × Nat)

inductive BatchOp where
  | submit (op : Nat)
  | requestCancellation (op : Nat)
  /-- `cleanup_expired_batch_operations` or `purge_batch_operations_before`. -/
  | purge (op : Nat)
  | changeJob (op job : Nat) (differs : Bool)
  | tryLock (r : Nat)
  | claimNext (r : Nat) (found : Option Nat)
  | scanPage (r : Nat) (jobs : List Nat)
  | readScan (r : Nat)
  | endScan (r : Nat)
  | claimItems (r : Nat) (jobs : List Nat)
  | apply (r : Nat) (changed : Except Unit Bool)
  | record (r : Nat)
  | commit (r : Nat)
  /-- A commit of which the runner does not hear. -/
  | commitLate (tx : ItemTx)
  | rollback (tx : ItemTx)
  /-- The statement or transaction of an item fails, and `apply_item` with it. -/
  | dropItem (r : Nat)
  | endLoop (r : Nat)
  | countPending (r : Nat)
  | readState (r : Nat)
  | skipPending (r : Nat)
  | finalize (r : Nat)
  /-- A statement outside `apply_item` fails. -/
  | fail (r : Nat)
  | unlock (r : Nat)
  | crash (r : Nat)
  /-- The session with the lock ends. -/
  | loseLock (r : Nat)

namespace BatchState
variable (s : BatchState)

def setPhase (r : Nat) (phase : Phase) : BatchState := { s with phase := update s.phase r phase }

def modifyOp (op : Nat) (f : Operation → Operation) : BatchState :=
  { s with ops := update s.ops op ((s.ops op).map f) }

def release (r : Nat) : BatchState := { s with lock := if s.lock = some r then none else s.lock }

def setDiffers (op job : Nat) (differs : Bool) : BatchState :=
  { s with differs := update s.differs op (update (s.differs op) job differs) }

def stateOf (op : Nat) : Option OperationState := (s.ops op).map (·.state)

def pendingJobs (op : Nat) : List Nat := (s.ops op).elim [] (·.pendingJobs)

def locked : List (Nat × Nat) := s.transactions.map ItemTx.item

def orphan (r : Nat) : BatchState :=
  { s with transactions := s.transactions.map fun tx => if tx.runner = some r then
    { tx with runner := none } else tx }

def begin (tx : ItemTx) : BatchState := { s with transactions := s.transactions ++ [tx] }

/-- The first update of `record_item_outcome_tx`, which waits for the lock on the item. -/
def record (r op job : Nat) (outcome : ItemState) (rest : List Nat) : Option BatchState :=
  if (op, job) ∈ s.locked then none
  else some ((s.begin ⟨op, job, outcome, some r⟩).setPhase r (.recorded op job outcome rest))

def settled (tx : ItemTx) : BatchState :=
  { s with
    ops := update s.ops tx.op ((s.ops tx.op).map fun o => o.recordOutcome tx.job tx.outcome)
    differs := if tx.outcome = .processed then (s.setDiffers tx.op tx.job false).differs
      else s.differs
    applied := s.applied ++ if tx.outcome = .processed then [tx.item] else []
    transactions := s.transactions.erase tx }

/-- The job is locked since `apply_to_job_tx` saw it; a job that is locked by others is skipped. -/
def settle (tx : ItemTx) : Option BatchState :=
  if tx ∈ s.transactions ∧ (tx.outcome = .processed → s.differs tx.op tx.job = true) then
    some (s.settled tx) else none

end BatchState

def claimedPhase (op : Nat) : OperationState → Phase
  | .cancelling => .skipping op
  | .pending | .scanning => .scanning op
  | .running => .chunk op
  | .completed | .cancelled | .failed => .unlocking

def runnerStep (r : Nat) (op : BatchOp) (s : BatchState) : Option BatchState :=
  match op, s.phase r with
  | .claimNext _ none, .locked => some (s.setPhase r .unlocking)
  | .claimNext _ (some id), .locked =>
    match s.stateOf id with
    | some state =>
      if state.active then
        some ((s.modifyOp id fun o => if o.state = .pending then { o with state := .scanning }
          else o).setPhase r (claimedPhase id state))
      else none
    | none => none
  | .scanPage _ jobs, .scanning id =>
    some ((s.modifyOp id (·.insertItems jobs)).setPhase r (.scanned id))
  | .readScan _, .scanned id =>
    some (s.setPhase r (if s.stateOf id = some .cancelling then .unlocking else .scanning id))
  | .endScan _, .scanning id =>
    let moved := s.modifyOp id fun o => if o.state = .scanning then { o with state := .running }
      else o
    some (moved.setPhase r (if moved.stateOf id = some .running then .chunk id else .unlocking))
  | .claimItems _ jobs, .chunk id =>
    -- `SKIP LOCKED`
    if jobs.Nodup ∧ (∀ job ∈ jobs, job ∈ s.pendingJobs id ∧ (id, job) ∉ s.locked) ∧
        (jobs = [] → ∀ job ∈ s.pendingJobs id, (id, job) ∈ s.locked) then
      some (s.setPhase r (if jobs = [] then .finalizing id .completed else .items id jobs))
    else none
  | .apply _ (.ok changed), .items id (job :: rest) =>
    some (s.setPhase r (.applying id job changed rest))
  | .apply _ (.error _), .items id (job :: rest) => some (s.setPhase r (.erring id job rest))
  | .record _, .applying id job changed rest =>
    s.record r id job (if changed then .processed else .skipped) rest
  | .record _, .erring id job rest => s.record r id job .errored rest
  | .commit _, .recorded id job outcome rest =>
    (s.settle ⟨id, job, outcome, some r⟩).map fun s => s.setPhase r (.items id rest)
  | .dropItem _, .items id (_ :: rest) => some (s.setPhase r (.items id rest))
  | .dropItem _, .applying id _ _ rest => some (s.setPhase r (.items id rest))
  | .dropItem _, .erring id _ rest => some (s.setPhase r (.items id rest))
  | .dropItem _, .recorded id _ _ rest => some ((s.orphan r).setPhase r (.items id rest))
  | .endLoop _, .items id [] => some (s.setPhase r (.counting id))
  | .countPending _, .counting id => some (s.setPhase r (.counted id (s.pendingJobs id).length))
  | .readState _, .counted id pending =>
    some (s.setPhase r (if pending = 0 then if s.stateOf id = some .cancelling then .skipping id
      else .finalizing id .completed else .unlocking))
  | .skipPending _, .skipping id =>
    if ∀ item ∈ s.locked, item.1 ≠ id then
      some ((s.modifyOp id (·.skipPending)).setPhase r (.finalizing id .cancelled)) else none
  | .finalize _, .finalizing id state =>
    some ((s.modifyOp id fun o => { o with state := state }).setPhase r .unlocking)
  | .fail _, phase => if phase = .idle then none else some ((s.orphan r).setPhase r .unlocking)
  | .unlock _, .unlocking => some ((s.release r).setPhase r .idle)
  | _, _ => none

def batchStep (op : BatchOp) (s : BatchState) : Option BatchState :=
  match op with
  | .submit id =>
    if id ∈ s.used then none else some { s with
      ops := update s.ops id (some ⟨.pending, [], 0, 0, 0⟩), used := s.used ++ [id] }
  | .requestCancellation id =>
    some (s.modifyOp id fun o => if o.state = .pending ∨ o.state = .scanning ∨
      o.state = .running then { o with state := .cancelling } else o)
  | .purge id =>
    match s.stateOf id with
    | some state =>
      if state.active ∨ ∃ item ∈ s.locked, item.1 = id then none
        else some { s with ops := update s.ops id none }
    | none => none
  | .changeJob id job differs => some (s.setDiffers id job differs)
  | .tryLock r =>
    if s.phase r = .idle then
      if s.lock = none then some ({ s with lock := some r }.setPhase r .locked) else some s
    else none
  | .commitLate tx => if tx.runner = none then s.settle tx else none
  | .rollback tx => some { s with transactions := s.transactions.erase tx }
  | .crash r => some ((s.orphan r).setPhase r .idle)
  | .loseLock r => some (s.release r)
  | .claimNext r _ | .scanPage r _ | .readScan r | .endScan r | .claimItems r _ | .apply r _
  | .record r | .commit r
  | .dropItem r | .endLoop r | .countPending r | .readState r | .skipPending r | .finalize r
  | .fail r | .unlock r => runnerStep r op s

def batchMachine : Machine BatchState BatchOp where
  init s := s = ⟨fun _ => none, fun _ _ => false, none, [], fun _ => .idle, [], []⟩
  step := batchStep

/-- A session ends only after its runner has, and no runner takes the items that others have locked
for done. -/
def exclusive : BatchOp → BatchState → Bool
  | .loseLock r, s => s.phase r = .idle
  | .claimItems r [], s =>
    match s.phase r with
    | .chunk id => s.pendingJobs id = []
    | _ => true
  | _, _ => true

def Exclusive (op : BatchOp) (s : BatchState) : Prop := exclusive op s = true

instance (op : BatchOp) (s : BatchState) : Decidable (Exclusive op s) :=
  inferInstanceAs (Decidable (_ = true))

end AwaQueue.Batch
