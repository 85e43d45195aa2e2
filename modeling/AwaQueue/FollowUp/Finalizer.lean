import AwaQueue.Attempt.Dispositions

/-! The completion of an attempt with follow-ups, and the finalizer that retries it.

`complete_queue_storage_with_followups` closes the attempt, inserts the follow-ups and commits in
one transaction. The finalizer runs it again after a deadlock or a lost connection. A connection
that is lost leaves its transaction to the server: if the `COMMIT` was on its way the transaction
may still commit, at any later time, and until then it keeps its locks. -/

namespace AwaQueue
open Function (update)
open Library

inductive FollowUp where
  | declined
  /-- Trigger arguments that do not decode, a panic of the closure, or an insert that fails for
  another reason than its unique key. -/
  | invalid
  | request (uniqueKey : Option Nat)
deriving DecidableEq

inductive Fate where
  | declined
  | inserted (jobId : Nat)
  | duplicate (holder : Nat)
deriving DecidableEq

structure FollowUpRow where
  trigger : Attempt
  index : Nat
  jobId : Nat
deriving DecidableEq

/-- The transaction of `complete_queue_storage_with_followups`, apart from what it has written to
close the attempt. -/
structure CompletionTx where
  attempt : Attempt
  released : Option Nat
  dispatching : Bool
  rest : List FollowUp
  fates : List Fate
  rows : List FollowUpRow
  claims : List (Nat × Nat)
  /-- The connection is lost, and whether the `COMMIT` was sent. -/
  lost : Option Bool
deriving DecidableEq

inductive FinalizeOutcome where
  | applied
  | ignoredStale
  | failed
  /-- `FinalizeError::Deadline`, or the runtime has stopped. -/
  | abandoned
deriving DecidableEq

/-- The locals of `finalize_with_retry`. With follow-ups both completion paths lead to the same
transaction. -/
structure Finalizer where
  claim : CloseTarget
  /-- The registered specs of the kind, then the staged rows. -/
  plan : List FollowUp
  /-- The key that the job holds while it runs and not once it is completed. -/
  uniqueKey : Option Nat
  trying : Option TxId := none
  deadlockRetries : Nat := 0
  reconnectRetries : Nat := 0
  schemaRetried : Bool := false
  outcome : Option FinalizeOutcome := none
deriving DecidableEq

structure FollowUpState where
  store : AttemptState
  uniqueClaims : List (Nat × Nat)
  /-- The keys with an uncommitted insert or delete. -/
  keyLock : Nat → Option TxId
  nextJobId : Nat
  jobs : List FollowUpRow
  tx : TxId → Option CompletionTx
  finalizer : Attempt → Option Finalizer
  /-- The committed completions in commit order; no statement reads it. -/
  completed : List (Attempt × List Fate)

namespace FollowUpState
variable (s : FollowUpState)

def setTx (t : TxId) (x : CompletionTx) : FollowUpState := { s with tx := update s.tx t (some x) }

def setFinalizer (a : Attempt) (f : Finalizer) : FollowUpState :=
  { s with finalizer := update s.finalizer a (some f) }

def endTx (t : TxId) : FollowUpState :=
  { s with
    tx := update s.tx t none
    keyLock := fun key => (s.keyLock key).filter fun holder => holder ≠ t }

def visibleClaims (x : CompletionTx) : List (Nat × Nat) :=
  (s.uniqueClaims.filter fun claim => ¬(x.released = some claim.1 ∧ claim.2 = x.attempt.jobId)) ++
    x.claims

def keyFree (t : TxId) (key : Nat) : Bool := s.keyLock key = none || s.keyLock key = some t

def conclude (t : TxId) (a : Attempt) (f : Finalizer → Finalizer) : FollowUpState :=
  match s.finalizer a with
  | some fin => if fin.trying = some t then s.setFinalizer a (f { fin with trying := none }) else s
  | none => s

end FollowUpState

/-- The errors that `finalize_with_retry` tells apart. -/
inductive FinalizeFault where
  | deadlock
  | connectionLost
  | undefinedColumn
  | other
deriving DecidableEq

/-- The arms of `finalize_with_retry` for an error; `COMPLETION_DEADLOCK_RETRIES` is 3. -/
def Finalizer.afterError (f : Finalizer) : FinalizeFault → Finalizer
  | .deadlock =>
    if f.deadlockRetries < 3 then { f with deadlockRetries := f.deadlockRetries + 1 }
    else { f with outcome := some .failed }
  | .connectionLost => { f with reconnectRetries := f.reconnectRetries + 1 }
  | .undefinedColumn =>
    if f.schemaRetried then { f with outcome := some .failed } else { f with schemaRetried := true }
  | .other => { f with outcome := some .failed }

def AttemptState.updated (store : AttemptState) (t : TxId) : Option Bool :=
  match store.tx t with
  | some (.closer x) => if x.script.isEmpty then some (!x.writes.won.isEmpty) else none
  | _ => none

/-- One follow-up, under a savepoint if it has a unique key; `none` when it has to wait or fails the
dispatch. -/
def insertFollowUp (s : FollowUpState) (t : TxId) (x : CompletionTx) : Option FollowUpState :=
  match x.rest with
  | [] => none
  | .invalid :: _ => none
  | .declined :: rest => some (s.setTx t { x with rest := rest, fates := x.fates ++ [.declined] })
  | .request uniqueKey :: rest =>
    let inserted := { x with
      rest := rest
      fates := x.fates ++ [.inserted s.nextJobId]
      rows := x.rows ++ [⟨x.attempt, x.fates.length, s.nextJobId⟩] }
    let numbered := { s with nextJobId := s.nextJobId + 1 }
    match uniqueKey with
    | none => some (numbered.setTx t inserted)
    | some key =>
      if s.keyFree t key then
        match (s.visibleClaims x).lookup key with
        -- `settle_follow_up_savepoint` rolls the savepoint back and goes on
        | some holder =>
          some (numbered.setTx t { x with rest := rest, fates := x.fates ++ [.duplicate holder] })
        | none =>
          some ({ numbered with keyLock := update s.keyLock key (some t) }.setTx t
            { inserted with claims := x.claims ++ [(key, s.nextJobId)] })
      else none

def commitCompletion (slots : Nat) (s : FollowUpState) (t : TxId) (x : CompletionTx) :
    Option FollowUpState :=
  (attemptStep slots (.commit t) s.store).map fun store =>
    { s.endTx t with
      store := store
      uniqueClaims := s.visibleClaims x
      jobs := s.jobs ++ x.rows
      completed := s.completed ++ [(x.attempt, x.fates)] }

def abortCompletion (slots : Nat) (s : FollowUpState) (t : TxId) : Option FollowUpState :=
  (attemptStep slots (.abort t) s.store).map fun store => { s.endTx t with store := store }

inductive FollowUpOp where
  /-- A step of any other transaction: claims, rescues, cancels, other completions, maintenance. -/
  | store (op : AttemptOp)
  | claimKey (key job : Nat)
  | releaseKey (key : Nat)
  | returned (claim : CloseTarget) (plan : List FollowUp) (uniqueKey : Option Nat)
  | begin (a : Attempt) (t : TxId)
  | statement (t : TxId)
  | dispatch (t : TxId)
  | rollbackStale (t : TxId)
  | insertFollowUp (t : TxId)
  | commit (t : TxId)
  | error (t : TxId) (fault : FinalizeFault)
  | disconnect (t : TxId) (commitSent : Bool)
  /-- The deadline passes, or the runtime stops; the transaction is dropped where it is. -/
  | abandon (a : Attempt) (commitSent : Bool)
  | resolve (t : TxId) (committed : Bool)

def CompletionTx.ready (x : CompletionTx) : Bool := x.dispatching && x.rest.isEmpty

def FollowUpState.live (s : FollowUpState) (t : TxId) : Option CompletionTx :=
  (s.tx t).filter fun x => x.lost.isNone

def FollowUpState.begin_ (slots : Nat) (s : FollowUpState) (a : Attempt) (t : TxId)
    (f : Finalizer) : Option FollowUpState :=
  (attemptStep slots (.beginClose t (.completeRuntimeBatchSlow [f.claim])) s.store).map fun store =>
    ({ s with store := store }.setTx t
      ⟨a, f.uniqueKey, false, f.plan, [], [], [], none⟩).setFinalizer a { f with trying := some t }

def FollowUpState.loseConnection (s : FollowUpState) (t : TxId) (x : CompletionTx)
    (commitSent : Bool) : Option FollowUpState :=
  if commitSent → x.ready then some (s.setTx t { x with lost := some commitSent }) else none

def followUpStep (slots : Nat) (op : FollowUpOp) (s : FollowUpState) : Option FollowUpState :=
  match op with
  | .store op =>
    if (op.transaction.bind s.tx).isNone then (attemptStep slots op s.store).map fun store =>
      { s with store := store }
    else none
  | .claimKey key job =>
    if s.keyLock key = none ∧ s.uniqueClaims.lookup key = none then
      some { s with uniqueClaims := s.uniqueClaims ++ [(key, job)] }
    else none
  | .releaseKey key =>
    if s.keyLock key = none then some { s with uniqueClaims := s.uniqueClaims.filter fun claim =>
      claim.1 ≠ key }
    else none
  | .returned claim plan uniqueKey =>
    if (s.finalizer claim.attempt).isNone ∧ claim.attempt ∈ s.store.emitted ∧ plan ≠ [] then
      some (s.setFinalizer claim.attempt { claim := claim, plan := plan, uniqueKey := uniqueKey })
    else none
  | .begin a t =>
    (s.finalizer a).bind fun f =>
      if f.trying = none ∧ f.outcome = none ∧ (s.tx t).isNone then s.begin_ slots a t f else none
  | .statement t =>
    (s.live t).bind fun x =>
      if x.dispatching then none
      else (attemptStep slots (.statement t) s.store).map fun store => { s with store := store }
  | .dispatch t =>
    (s.live t).bind fun x =>
      if !x.dispatching ∧ s.store.updated t = some true ∧ x.released.all (s.keyFree t) then
        some ({ s with keyLock := fun key => if x.released = some key then some t
          else s.keyLock key }.setTx t { x with dispatching := true })
      else none
  | .rollbackStale t =>
    (s.live t).bind fun x =>
      if s.store.updated t = some false then
        (abortCompletion slots s t).map fun s => s.conclude t x.attempt fun f =>
          { f with outcome := some .ignoredStale }
      else none
  | .insertFollowUp t =>
    (s.live t).bind fun x => if x.dispatching then insertFollowUp s t x else none
  | .commit t =>
    (s.live t).bind fun x =>
      if x.ready then
        (commitCompletion slots s t x).map fun s => s.conclude t x.attempt fun f =>
          { f with outcome := some .applied }
      else none
  | .error t fault =>
    (s.live t).bind fun x =>
      if fault = .connectionLost then none
      else (abortCompletion slots s t).map fun s => s.conclude t x.attempt fun f =>
        f.afterError fault
  | .disconnect t commitSent =>
    (s.live t).bind fun x =>
      (s.loseConnection t x commitSent).map fun s => s.conclude t x.attempt fun f =>
        f.afterError .connectionLost
  | .abandon a commitSent =>
    (s.finalizer a).bind fun f =>
      let gone := { f with trying := none, outcome := some .abandoned }
      if f.outcome.isSome then none
      else
        match f.trying with
        | none => some (s.setFinalizer a gone)
        | some t =>
          (s.live t).bind fun x => (s.loseConnection t x commitSent).map fun s =>
            s.setFinalizer a gone
  | .resolve t committed =>
    (s.tx t).bind fun x =>
      if x.lost = none then none
      else if committed then (if x.lost = some true then commitCompletion slots s t x else none)
      else abortCompletion slots s t

def FollowUpState.Initial (s : FollowUpState) : Prop :=
  s.store = .initial ∧ (∀ key, s.keyLock key = none) ∧ s.jobs = [] ∧ (∀ t, s.tx t = none) ∧
    (∀ a, s.finalizer a = none) ∧ s.completed = []

def followUpMachine (slots : Nat) : Machine FollowUpState FollowUpOp :=
  ⟨FollowUpState.Initial, followUpStep slots⟩

end AwaQueue
