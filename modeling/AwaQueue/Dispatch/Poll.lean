import AwaQueue.Dispatch.Bucket

/-! The dispatchers of a runtime: `poll_once` of any number of claimers of any number of queues,
step by step.

A step is one operation on something shared (one `try_acquire_owned` of a semaphore, one call on the
overflow pool or the limiter, one permit dropped, one task spawned), so that other dispatchers,
finishing jobs and the clock may come between any two of them. -/

namespace AwaQueue.Dispatch
open Function (update)
open Library

inductive PermitKind where
  | hard
  | localMin
  | overflow
  deriving DecidableEq

/-- A permit of a queue. The serial number tells the permits of a run apart. -/
structure Permit (Q : Type) where
  kind : PermitKind
  queue : Q
  serial : Nat
  deriving DecidableEq

/-- How far a dispatcher is in `poll_once`, with the permits of its vector and the jobs it has
claimed. -/
inductive Poll (Q Job : Type) where
  | idle
  /-- In the loop over the semaphore, with so many rounds left. -/
  | taking (left : Nat) (permits : List (Permit Q))
  /-- After that loop, before the call on the overflow pool. -/
  | overflowing (permits : List (Permit Q))
  | limiting (permits : List (Permit Q))
  /-- Tokens are taken; permits beyond the batch are being popped. -/
  | shedding (batch : Nat) (permits : List (Permit Q))
  /-- At the claim gate or in the claim. -/
  | claiming (batch : Nat) (permits : List (Permit Q))
  /-- The claim has returned and unused tokens are refunded; permits beyond the jobs are being
  popped. -/
  | settling (jobs : List Job) (permits : List (Permit Q))
  /-- No jobs were found: the overflow demand is about to be cleared. -/
  | clearing
  /-- Before the lock on the set of tasks. -/
  | waiting (jobs : List Job) (permits : List (Permit Q))
  /-- In the loop that zips jobs with permits. -/
  | spawning (jobs : List Job) (permits : List (Permit Q))
  /-- On the way out: the vector of permits is being dropped. -/
  | leaving (permits : List (Permit Q))
  deriving DecidableEq

namespace Poll
variable {Q Job : Type}

def permits : Poll Q Job → List (Permit Q)
  | idle | clearing => []
  | taking _ permits | overflowing permits | limiting permits | shedding _ permits
  | claiming _ permits | settling _ permits
  | waiting _ permits | spawning _ permits | leaving permits => permits

def jobs : Poll Q Job → List Job
  | settling jobs _ | waiting jobs _ | spawning jobs _ => jobs
  | _ => []

def tokens : Poll Q Job → Nat
  | shedding batch _ | claiming batch _ => batch
  | settling jobs _ | waiting jobs _ | spawning jobs _ => jobs.length
  | _ => 0

end Poll

/-- The overrides that matter here; the check constraints make both positive. -/
structure Overrides where
  claimBatchSize : Option Nat
  rateLimit : Option { rate : ℚ // 0 < rate }

/-- The builder's configuration of a runtime: the queue and the claim batch size of each dispatcher;
for each queue the size of its semaphore (`max_workers`, or `min_workers` in weighted mode) and its
rate limit; and in weighted mode the overflow pool. -/
structure Setup (Q D : Type) where
  queue : D → Q
  claimBatchSize : D → Nat
  workers : Q → Nat
  rateLimit : Q → Option RateLimit
  overflow : Option (PoolConfig Q)

structure Spawned (Q D Job : Type) where
  dispatcher : D
  job : Job
  permit : Permit Q
  deriving DecidableEq

/-- The shared objects, the dispatchers, the tasks that still run, and what has happened so far: the
permits granted, those that polls have returned, the jobs claimed and the jobs spawned. -/
structure Runtime (Q D Job : Type) where
  now : ℚ
  free : Q → Nat
  pool : PoolState Q
  limiter : Q → Option TokenBucket
  claimBatchSize : D → Nat
  polls : D → Poll Q Job
  running : List (Spawned Q D Job)
  granted : List (Permit Q)
  returned : List (Permit Q)
  claimed : List Job
  spawned : List (Spawned Q D Job)

section
variable {Q D Job : Type} [DecidableEq Q] [DecidableEq D]

namespace Runtime
variable (s : Runtime Q D Job)

def setPoll (d : D) (poll : Poll Q Job) : Runtime Q D Job :=
  { s with polls := update s.polls d poll }

def setLimiter (q : Q) (bucket : TokenBucket) : Runtime Q D Job :=
  { s with limiter := update s.limiter q (some bucket) }

def dropPermit (permit : Permit Q) : Runtime Q D Job :=
  if permit.kind = .overflow then { s with pool := s.pool.release permit.queue 1 }
  else { s with free := update s.free permit.queue (s.free permit.queue + 1) }

def giveBack (permit : Permit Q) : Runtime Q D Job :=
  { s.dropPermit permit with returned := s.returned ++ [permit] }

def refundRateLimit (q : Q) (n : Nat) : Runtime Q D Job :=
  if n = 0 then s
  else
    match s.limiter q with
    | some bucket => s.setLimiter q (bucket.refund n)
    | none => s

end Runtime

def grantedPermits (kind : PermitKind) (q : Q) (before n : Nat) : List (Permit Q) :=
  (List.range' before n).map fun serial => ⟨kind, q, serial⟩

namespace Setup
variable (setup : Setup Q D)

def ownKind : PermitKind := if setup.overflow.isSome then .localMin else .hard

def effectiveLimit (base : RateLimit) (overrides : Overrides) : RateLimit :=
  match overrides.rateLimit with
  | some rate => ⟨rate.1, 0, rate.2⟩
  | none => base

def refresh (d : D) (overrides : Overrides) (s : Runtime Q D Job) : Option (Runtime Q D Job) :=
  match s.polls d with
  | .idle =>
    let batchSize := (overrides.claimBatchSize.map (max · 1)).getD (setup.claimBatchSize d)
    let s := { s with claimBatchSize := update s.claimBatchSize d batchSize }
    match s.limiter (setup.queue d), setup.rateLimit (setup.queue d) with
    | some bucket, some base =>
      some (s.setLimiter (setup.queue d) (bucket.reconfigure (effectiveLimit base overrides)))
    | _, _ => some s
  | _ => none

def start (d : D) (s : Runtime Q D Job) : Option (Runtime Q D Job) :=
  match s.polls d with
  | .idle => some (s.setPoll d (.taking (s.claimBatchSize d) []))
  | _ => none

def take (d : D) (s : Runtime Q D Job) : Option (Runtime Q D Job) :=
  match s.polls d with
  | .taking 0 permits => some (s.setPoll d (.overflowing permits))
  | .taking (left + 1) permits =>
    let q := setup.queue d
    if 0 < s.free q then
      let permit := ⟨setup.ownKind, q, s.granted.length⟩
      some ({ s with free := update s.free q (s.free q - 1), granted := s.granted ++
        [permit] }.setPoll d
        (.taking left (permits ++ [permit])))
    else some (s.setPoll d (.overflowing permits))
  | _ => none

def acquired (permits : List (Permit Q)) : Poll Q Job := if permits.isEmpty then .idle
    else .limiting permits

def askOverflow [Fintype Q] (d : D) (s : Runtime Q D Job) : Option (Runtime Q D Job) :=
  match s.polls d with
  | .overflowing permits =>
    match setup.overflow with
    | none => some (s.setPoll d (acquired permits))
    | some config =>
      let q := setup.queue d
      let wanted := (s.claimBatchSize d - permits.length) % u32
      let result := config.tryAcquire s.pool q wanted
      let more := grantedPermits .overflow q s.granted.length result.1
      some ({ s with pool := result.2, granted := s.granted ++ more }.setPoll d
        (acquired (permits ++ more)))
  | _ => none

def limited (batch : Nat) (permits : List (Permit Q)) : Poll Q Job :=
  if batch = 0 then .leaving permits else .shedding batch permits

def limit (d : D) (s : Runtime Q D Job) : Option (Runtime Q D Job) :=
  match s.polls d with
  | .limiting permits =>
    match s.limiter (setup.queue d) with
    | none => some (s.setPoll d (limited (min permits.length (s.claimBatchSize d)) permits))
    | some bucket =>
      let available := bucket.available s.now
      let batch := min (min permits.length available.1) (s.claimBatchSize d)
      let bucket := if 0 < batch then available.2.consume batch else available.2
      some ((s.setLimiter (setup.queue d) bucket).setPoll d (limited batch permits))
  | _ => none

def settled (jobs : List Job) (permits : List (Permit Q)) : Poll Q Job :=
  match jobs with
  | [] => .clearing
  | _ => .waiting jobs permits

def shed (d : D) (s : Runtime Q D Job) : Option (Runtime Q D Job) :=
  match s.polls d with
  | .shedding batch permits =>
    if batch < permits.length then
      permits.getLast?.map fun last => (s.giveBack last).setPoll d
        (.shedding batch permits.dropLast)
    else some (s.setPoll d (.claiming batch permits))
  | .settling jobs permits =>
    if jobs.length < permits.length then
      permits.getLast?.map fun last => (s.giveBack last).setPoll d (.settling jobs permits.dropLast)
    else some (s.setPoll d (settled jobs permits))
  | .leaving (permit :: permits) => some ((s.giveBack permit).setPoll d (.leaving permits))
  | .leaving [] => some (s.setPoll d .idle)
  | _ => none

def claim (d : D) (jobs : List Job) (s : Runtime Q D Job) : Option (Runtime Q D Job) :=
  match s.polls d with
  | .claiming batch permits =>
    if jobs.length ≤ batch then
      let s := s.refundRateLimit (setup.queue d) (batch - jobs.length)
      some ({ s with claimed := s.claimed ++ jobs }.setPoll d (.settling jobs permits))
    else none
  | _ => none

def giveUp (d : D) (s : Runtime Q D Job) : Option (Runtime Q D Job) :=
  match s.polls d with
  | .claiming batch permits =>
    some ((s.refundRateLimit (setup.queue d) batch).setPoll d (.leaving permits))
  | _ => none

def clear [Fintype Q] (d : D) (s : Runtime Q D Job) : Option (Runtime Q D Job) :=
  match s.polls d with
  | .clearing =>
    match setup.overflow with
    | none => some (s.setPoll d .idle)
    | some config =>
      some ({ s with pool := (config.tryAcquire s.pool (setup.queue d) 0).2 }.setPoll d .idle)
  | _ => none

/-- The lock on the set of tasks is taken, or one job of the zip is spawned with its permit, or the
zip ends. -/
def spawn (d : D) (s : Runtime Q D Job) : Option (Runtime Q D Job) :=
  match s.polls d with
  | .waiting jobs permits => some (s.setPoll d (.spawning jobs permits))
  | .spawning (job :: jobs) (permit :: permits) =>
    let task := ⟨d, job, permit⟩
    some ({ s with running := s.running ++ [task], spawned := s.spawned ++ [task] }.setPoll d
      (.spawning jobs permits))
  | .spawning _ permits => some (s.setPoll d (.leaving permits))
  | _ => none

/-- `shutdown` past its deadline aborts the dispatcher, which drops the future of `poll_once` where
it waits. -/
def abort (d : D) (s : Runtime Q D Job) : Option (Runtime Q D Job) :=
  match s.polls d with
  | .claiming _ permits | .waiting _ permits => some (s.setPoll d (.leaving permits))
  | _ => none

end Setup

inductive DispatchOp (Q D Job : Type) where
  | tick (elapsed : ℚ)
  | refresh (d : D) (overrides : Overrides)
  | start (d : D)
  | take (d : D)
  | askOverflow (d : D)
  | limit (d : D)
  | shed (d : D)
  | claim (d : D) (jobs : List Job)
  | giveUp (d : D)
  | clear (d : D)
  | spawn (d : D)
  | finish (task : Spawned Q D Job)
  | abort (d : D)

variable [Fintype Q] [DecidableEq Job]

def dispatchMachine (setup : Setup Q D) : Machine (Runtime Q D Job) (DispatchOp Q D Job) where
  init s := s =
    { now := 0, free := setup.workers, pool := ⟨fun _ => 0, fun _ => 0⟩,
      limiter := fun q => (setup.rateLimit q).map (.new · 0), claimBatchSize :=
        setup.claimBatchSize, polls := fun _ => .idle, running := [], granted := [], returned :=
        [], claimed := [],
      spawned := [] }
  step op s :=
    match op with
    | .tick elapsed => if 0 ≤ elapsed then some { s with now := s.now + elapsed } else none
    | .refresh d overrides => setup.refresh d overrides s
    | .start d => Setup.start d s
    | .take d => setup.take d s
    | .askOverflow d => setup.askOverflow d s
    | .limit d => setup.limit d s
    | .shed d => Setup.shed d s
    | .claim d jobs => setup.claim d jobs s
    | .giveUp d => setup.giveUp d s
    | .clear d => setup.clear d s
    | .spawn d => Setup.spawn d s
    | .finish task =>
      if task ∈ s.running then some ({ s with running := s.running.erase task }.dropPermit
        task.permit) else none
    | .abort d => Setup.abort d s

end
end AwaQueue.Dispatch
