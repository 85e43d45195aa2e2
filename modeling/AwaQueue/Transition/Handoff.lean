import AwaQueue.Transition.Stranding

/-! Canonical reschedules that run while the transition moves. A reschedule reads the route in the
statement that takes the transition row `FOR SHARE`; the transition functions take it `FOR UPDATE`.

Under READ COMMITTED the route is computed with the snapshot of that statement. When the statement
waits for the row, only the row is read again: the function it called has already answered. -/

namespace AwaQueue
open Option List Library

inductive Rewrite where
  | rescheduled (kind : Reschedule)
  | migrated (schema : String) (jobId : Nat) (duplicate : Bool)
deriving DecidableEq

def Rewrite.target : Rewrite → Option String
  | .rescheduled _ => none
  | .migrated schema _ _ => some schema

inductive HandoffPhase where
  | idle
  /-- The route is computed with the snapshot in which the transition row was `seen`. -/
  | asked (id lease : Nat) (kind : Reschedule) (seen : TransitionRow) (route : Option String)
  | routed (id lease : Nat) (kind : Reschedule) (route : Option String)
  | wrote (job : CanonicalJob) (rewrite : Rewrite)
  /-- The guard on the attempt matched no row. -/
  | stale
  | locked (call : TransitionCall)
  | checked (call : TransitionCall)
deriving DecidableEq

structure Handoff where
  cluster : Cluster
  /-- The transactions that hold the transition row `FOR SHARE`. -/
  sharers : List TxId
  /-- The transaction that holds it `FOR UPDATE`. -/
  updater : Option TxId
  /-- The canonical rows deleted by transactions that have not committed. -/
  taken : List Nat
  tx : TxId → HandoffPhase
  /-- Where each committed reschedule wrote and what the route was at its commit; no statement reads
  it. -/
  placements : List (Option String × Option String)
  /-- The schema that the last abort of a mixed transition found empty; no statement reads it. -/
  foundEmpty : Option String

inductive HandoffOp where
  /-- The statement of a reschedule starts: its snapshot is taken and the route computed. -/
  | ask (t : TxId) (id lease : Nat) (kind : Reschedule)
  /-- The same statement gets the share lock. -/
  | grant (t : TxId)
  | write (t : TxId) (duplicate : Bool)
  | lock (t : TxId) (call : TransitionCall)
  | check (t : TxId)
  | commit (t : TxId)
  | rollback (t : TxId)
  /-- A transaction of another kind, in one step. -/
  | other (op : ClusterOp)

namespace Handoff
variable (s : Handoff)

def setTx (t : TxId) (phase : HandoffPhase) : Handoff :=
  { s with tx := Function.update s.tx t phase }

def takenBy (t : TxId) : Option Nat :=
  match s.tx t with
  | .wrote job _ => some job.id
  | _ => none

def finish (t : TxId) : Handoff :=
  { s.setTx t .idle with
    sharers := s.sharers.filter fun u => u ≠ t
    updater := if s.updater = some t then none else s.updater
    taken := s.taken.filter fun id => s.takenBy t ≠ some id }

def Unlocked : Prop := s.sharers = [] ∧ s.updater = none

instance : Decidable s.Unlocked := inferInstanceAs (Decidable (_ ∧ _))

/-- Whether a transaction of another kind can run now: it waits for the transition row if it writes
it, and for a canonical row that a reschedule has deleted. -/
def Admits : ClusterOp → Prop
  | .storagePrepare _ _ | .storageAutoFinalizeIfFresh _ => s.Unlocked
  | .claim id | .finish id _ _ | .registerCallback id _ => id ∉ s.taken
  | .prepareSchema _ | .report _ | .tick _ | .promote _ | .queueClaim _ _ | .queueSettle _ _ _
  | .queuePromote _ _
  | .queuePrune _ _ => True
  | .storageEnterMixedTransition | .storageAbort | .storageFinalize | .insertJobCompat _
  | .reschedule _ _ _ _ => False

instance (op : ClusterOp) : Decidable (s.Admits op) := by
  cases op <;> unfold Admits <;> infer_instance

def wrote (t : TxId) (job : CanonicalJob) (rewrite : Rewrite) : Handoff :=
  { s.setTx t (.wrote job rewrite) with taken := job.id :: s.taken }

def writeCanonical (t : TxId) (id lease : Nat) (kind : Reschedule) : Handoff :=
  match s.cluster.jobsHot.find? fun job => job.runs id lease with
  | some job => s.wrote t job (.rescheduled kind)
  | none => s.setTx t .stale

def write (t : TxId) (duplicate : Bool) : Option Handoff :=
  match s.tx t with
  | .routed id lease kind route =>
    if id ∈ s.taken then none
    else match route with
      | none => some (s.writeCanonical t id lease kind)
      | some schema =>
        match s.cluster.jobsHot.find? fun job => job.runs id lease && !job.callback with
        | none => some (s.writeCanonical t id lease kind)
        | some job =>
          if validateIdent schema && schema ∈ s.cluster.installed then
            let tables := s.cluster.queues schema
            -- `nextval` is not undone by a rollback
            some { s.wrote t job (.migrated schema tables.nextJobId duplicate) with
              cluster := s.cluster.setQueue schema { tables with nextJobId := tables.nextJobId + 1 }
                }
          else some (s.finish t)
  | _ => none

def rewritten (job : CanonicalJob) (rewrite : Rewrite) : Cluster :=
  let taken := { s.cluster with jobsHot := s.cluster.jobsHot.erase job }
  match rewrite with
  | .rescheduled kind =>
    { taken with
      scheduledJobs := taken.scheduledJobs ++
        [{ job with state := kind.nextState, attempt := kind.nextAttempt job.attempt }] }
  | .migrated schema jobId duplicate =>
    taken.setQueue schema ((taken.queues schema).insertMigrated jobId duplicate)

def commit (t : TxId) : Handoff :=
  match s.tx t with
  | .wrote job rewrite =>
    { s.finish t with
      cluster := s.rewritten job rewrite
      placements := s.placements ++ [(rewrite.target, s.cluster.activeQueueStorageSchema)] }
  | .checked call =>
    { s.finish t with
      cluster := call.write s.cluster
      foundEmpty := if call = .abort ∧ s.cluster.transition.state = .mixedTransition then
        some s.cluster.abortSchema else s.foundEmpty }
  | _ => s.finish t

end Handoff

def handoffStep (op : HandoffOp) (s : Handoff) : Option Handoff :=
  match op with
  | .ask t id lease kind =>
    if s.tx t = .idle then
      some (s.setTx t (.asked id lease kind s.cluster.transition
        s.cluster.activeQueueStorageSchema))
    else none
  | .grant t =>
    match s.tx t with
    | .asked id lease kind _ route =>
      if s.updater = none then some { s.setTx t (.routed id lease kind route) with sharers :=
        t :: s.sharers }
      else none
    | _ => none
  | .write t duplicate => s.write t duplicate
  | .lock t call =>
    if s.tx t = .idle ∧ s.Unlocked then some { s.setTx t (.locked call) with updater := some t }
      else none
  | .check t =>
    match s.tx t with
    | .locked call =>
      if call.refusal s.cluster = none then some (s.setTx t (.checked call)) else some (s.finish t)
    | _ => none
  | .commit t => some (s.commit t)
  | .rollback t => some (s.finish t)
  | .other op =>
    if s.Admits op then (clusterStep op s.cluster).map fun cluster => { s with cluster := cluster }
      else none

def handoffMachine : Machine Handoff HandoffOp where
  init s := s.cluster.Initial ∧ s.sharers = [] ∧ s.updater = none ∧ s.taken = [] ∧
    (∀ t, s.tx t = .idle) ∧ s.placements = [] ∧ s.foundEmpty = none
  step := handoffStep

variable {s s' : Handoff} {t u : TxId} {phase : HandoffPhase}

/-- The share lock is granted on the row that the statement saw when it computed the route, and the
attempt has no callback columns. -/
def SeesCurrentRow (op : HandoffOp) (s : Handoff) : Prop :=
  match op with
  | .grant t =>
    match s.tx t with
    | .asked _ _ _ seen _ => s.cluster.transition = seen
    | _ => True
  | .write t _ =>
    match s.tx t with
    | .routed id lease _ _ =>
      ∀ job ∈ s.cluster.jobsHot, job.runs id lease = true → job.callback = false
    | _ => True
  | _ => True

instance (op : HandoffOp) (s : Handoff) : Decidable (SeesCurrentRow op s) := by
  unfold SeesCurrentRow
  split
  · split
    · exact instDecidableEqTransitionRow _ _
    · exact instDecidableTrue
  · split
    · exact List.decidableBAll _ _
    · exact instDecidableTrue
  · exact instDecidableTrue

def PhaseOk (s : Handoff) (t : TxId) : HandoffPhase → Prop
  | .idle => True
  | .asked _ _ _ seen route => route = seen.route
  | .routed _ _ _ route => t ∈ s.sharers ∧ route = s.cluster.transition.route
  | .wrote _ rewrite => t ∈ s.sharers ∧ rewrite.target = s.cluster.transition.route ∧
      ∀ schema ∈ rewrite.target, schema ∈ s.cluster.installed
  | .stale => t ∈ s.sharers
  | .locked _ => s.updater = some t
  | .checked call => s.updater = some t ∧ call.Admitted s.cluster.transition ∧
      (call = .abort → s.cluster.transition.state = .mixedTransition →
        (s.cluster.queues s.cluster.abortSchema).liveJobs = [])

structure HandoffInv (s : Handoff) : Prop where
  engine : s.cluster.EngineOk
  uninstalled : ∀ schema, schema ∉ s.cluster.installed → (s.cluster.queues schema).liveJobs = []
  exclusive : s.updater ≠ none → s.sharers = []
  phase : ∀ t, PhaseOk s t (s.tx t)
  placed : ∀ placement ∈ s.placements, placement.1 = placement.2
  emptied : s.cluster.transition.state = .canonical ∨ s.cluster.transition.state = .prepared →
    ∀ schema ∈ s.foundEmpty, (s.cluster.queues schema).liveJobs = []

/-- The facts a transaction relies on survive the steps of the others: the transition row stands
still while it holds a lock on it, and no job appears under an abort that has made its check. -/
theorem PhaseOk.mono (ok : PhaseOk s u phase) (sharers : u ∈ s.sharers → u ∈ s'.sharers)
    (updater : s.updater = some u → s'.updater = some u)
    (transition : u ∈ s.sharers ∨ s.updater = some u → s'.cluster.transition = s.cluster.transition)
    (installed : ∀ schema ∈ s.cluster.installed, schema ∈ s'.cluster.installed)
    (queues : s.updater = some u → ∀ schema, (s.cluster.queues schema).liveJobs = [] →
      (s'.cluster.queues schema).liveJobs = []) : PhaseOk s' u phase := by
  cases phase with
  | idle => trivial
  | asked id lease kind seen route => exact ok
  | routed id lease kind route =>
    obtain ⟨shares, same⟩ := ok
    exact ⟨sharers shares, same.trans (by rw [transition (.inl shares)])⟩
  | wrote job rewrite =>
    obtain ⟨shares, same, exists_⟩ := ok
    exact ⟨sharers shares, same.trans (by rw [transition (.inl shares)]), fun schema named =>
      installed schema (exists_ schema named)⟩
  | stale => exact sharers ok
  | locked call => exact updater ok
  | checked call =>
    obtain ⟨holds, admitted, empty⟩ := ok
    have row := transition (.inr holds)
    refine ⟨updater holds, row ▸ admitted, fun abort mixed => ?_⟩
    rw [Cluster.abortSchema, row]
    exact queues holds _ (empty abort (row ▸ mixed))

theorem phases_update (tx : s'.tx = Function.update s.tx t phase) (own : PhaseOk s' t phase)
    (others : ∀ u, u ≠ t → PhaseOk s' u (s.tx u)) : ∀ u, PhaseOk s' u (s'.tx u) := by
  intro u
  rw [tx]
  by_cases same : u = t
  · subst same
    rwa [Function.update_self]
  · rw [Function.update_of_ne same]
    exact others u same

namespace HandoffInv

section
variable (inv : HandoffInv s) {job : CanonicalJob} {rewrite : Rewrite} {cluster : Cluster}
    {call : TransitionCall}
include inv

theorem route : s.cluster.activeQueueStorageSchema = s.cluster.transition.route :=
  inv.engine.route_eq

theorem setTx (phase : HandoffPhase) (own : PhaseOk s t phase) : HandoffInv (s.setTx t phase) where
  __ := inv
  phase := phases_update rfl (own.mono (fun mem => mem) (fun holds => holds) (fun _ => rfl)
    (fun _ mem => mem) fun _ _ empty => empty) fun u _ =>
      (inv.phase u).mono (fun mem => mem) (fun holds => holds) (fun _ => rfl) (fun _ mem => mem)
        fun _ _ empty => empty

theorem finish_others (cluster : Cluster) (placements : List (Option String × Option String))
    (foundEmpty : Option String)
    (transition : ∀ u, u ≠ t → u ∈ s.sharers ∨ s.updater = some u → cluster.transition =
    s.cluster.transition)
    (installed : ∀ schema ∈ s.cluster.installed, schema ∈ cluster.installed)
    (queues : ∀ u, u ≠ t → s.updater = some u → ∀ schema, (s.cluster.queues schema).liveJobs = [] →
      (cluster.queues schema).liveJobs = []) :
    ∀ u, PhaseOk { s.finish t with cluster := cluster, placements := placements, foundEmpty :=
      foundEmpty } u
      ((s.finish t).tx u) := by
  refine phases_update (s := s) (t := t) rfl trivial fun u other =>
    (inv.phase u).mono (fun mem => ?_) (fun holds => ?_) (transition u other) installed
      (queues u other)
  · exact mem_filter.2 ⟨mem, decide_eq_true other⟩
  · have kept : s.updater ≠ some t := fun mine => other (some.inj (holds.symm.trans mine))
    exact (if_neg kept).trans holds

theorem finish_exclusive (updater : (s.finish t).updater ≠ none) : (s.finish t).sharers = [] := by
  have held : s.updater ≠ none := fun free => updater (by simp [Handoff.finish, free])
  simp [Handoff.finish, inv.exclusive held]

theorem finish : HandoffInv (s.finish t) where
  __ := inv
  exclusive := inv.finish_exclusive
  phase := inv.finish_others s.cluster s.placements s.foundEmpty (fun _ _ _ => rfl)
    (fun _ mem => mem) fun _ _ _ _ empty => empty

theorem wrote (shares : t ∈ s.sharers) (target : rewrite.target = s.cluster.transition.route)
    (exists_ : ∀ schema ∈ rewrite.target, schema ∈ s.cluster.installed) :
    HandoffInv (s.wrote t job rewrite) :=
  let moved := inv.setTx (.wrote job rewrite) ⟨shares, target, exists_⟩
  { moved with }

theorem keeps (kept : s.cluster.Keeps cluster) : HandoffInv { s with cluster := cluster } where
  __ := inv
  engine := inv.engine.congr kept.transition kept.backend
  uninstalled schema absent := kept.queues schema
    (inv.uninstalled schema fun mem => absent (kept.installed schema mem))
  phase u := (inv.phase u).mono (fun mem => mem) (fun holds => holds) (fun _ => kept.transition)
    kept.installed fun _ => kept.queues
  emptied early schema found :=
    kept.queues schema (inv.emptied (by rwa [← kept.transition]) schema found)

theorem write {duplicate : Bool} (sees : SeesCurrentRow (.write t duplicate) s)
    (step : s.write t duplicate = some s') : HandoffInv s' := by
  cases phase : s.tx t with
  | routed id lease kind route =>
    have own := inv.phase t
    rw [phase] at own
    obtain ⟨shares, routed⟩ := own
    simp only [Handoff.write, phase] at step
    simp only [SeesCurrentRow, phase] at sees
    split at step
    · cases step
    split at step
    · cases step
      rw [Handoff.writeCanonical]
      split
      · exact inv.wrote shares routed nofun
      · exact inv.setTx .stale shares
    · next schema =>
      split at step
      · next unfound =>
        -- without callback columns the attempt would have been found
        have gone : s.cluster.jobsHot.find? (fun job => job.runs id lease) = none := by
          refine find?_eq_none.2 fun job mem runs => ?_
          have skipped := find?_eq_none.1 unfound job mem
          rw [runs, sees job mem runs] at skipped
          exact skipped rfl
        rw [Handoff.writeCanonical, gone] at step
        cases step
        exact inv.setTx .stale shares
      · next job found =>
        split at step
        · next valid =>
          cases step
          have installed :
            schema ∈ s.cluster.installed := of_decide_eq_true (Bool.and_eq_true_iff.1 valid).2
          have numbered : HandoffInv { s with
              cluster := s.cluster.setQueue schema
                { s.cluster.queues schema with nextJobId := (s.cluster.queues schema).nextJobId +
                  1 } } :=
            inv.keeps (.setQueue fun empty => empty)
          exact numbered.wrote shares routed fun name named => some.inj named ▸ installed
        · cases step
          exact inv.finish
  | idle | asked | wrote | stale | locked | checked =>
    rw [Handoff.write, phase] at step
    cases step

theorem lock (unlocked : s.Unlocked) :
    HandoffInv { s.setTx t (.locked call) with updater := some t } where
  __ := inv
  exclusive _ := unlocked.1
  phase := phases_update rfl rfl fun u _ => (inv.phase u).mono (fun mem => mem)
    (fun holds => absurd (unlocked.2.symm.trans holds) nofun) (fun _ => rfl)
      (fun _ mem => mem) fun _ _ empty => empty

theorem check (phase : s.tx t = .locked call)
    (allowed : call.refusal s.cluster = none) : HandoffInv (s.setTx t (.checked call)) := by
  have holds : s.updater = some t := by
    have own := inv.phase t
    rwa [phase] at own
  refine inv.setTx _ ⟨holds, TransitionCall.admitted allowed, ?_⟩
  rintro rfl mixed
  by_cases installed : s.cluster.abortSchema ∈ s.cluster.installed
  · exact Cluster.abortRefusal_eq_none allowed mixed installed
  · exact inv.uninstalled _ installed

/-- The share lock keeps the route until the reschedule commits. -/
theorem commitWrote (phase : s.tx t = .wrote job rewrite) : HandoffInv (s.commit t) := by
  have own := inv.phase t
  rw [phase] at own
  obtain ⟨shares, target, exists_⟩ := own
  have free : s.updater = none := by
    by_contra held
    rw [inv.exclusive held] at shares
    cases shares
  have placed : ∀ placement ∈ s.placements ++ [(rewrite.target,
      s.cluster.activeQueueStorageSchema)], placement.1 = placement.2 :=
    forall_mem_append.2 ⟨inv.placed, forall_mem_singleton.2 (target.trans inv.route.symm)⟩
  simp only [Handoff.commit, phase]
  cases rewrite with
  | rescheduled kind =>
    exact ⟨inv.engine.congr rfl rfl, inv.uninstalled, inv.finish_exclusive,
      inv.finish_others _ _ _ (fun _ _ _ => rfl) (fun _ mem => mem) (fun _ _ _ _ empty => empty),
        placed, inv.emptied⟩
  | migrated schema jobId duplicate =>
    have elsewhere : ∀ other, other ≠ schema →
        ((s.rewritten job (.migrated schema jobId duplicate)).queues other) =
          s.cluster.queues other :=
      fun other different => Function.update_of_ne different _ _
    refine ⟨inv.engine.congr rfl rfl, fun other absent => ?_, inv.finish_exclusive,
      inv.finish_others _ _ _ (fun _ _ _ => rfl) (fun _ mem => mem)
        (fun _ _ holds => absurd (free.symm.trans holds) nofun), placed, fun early => ?_⟩
    · rw [elsewhere other fun same => absent (same ▸ exists_ schema rfl)]
      exact inv.uninstalled other absent
    · have unrouted := inv.engine.route_of_early early
      rw [inv.route, ← target] at unrouted
      cases unrouted

theorem commitChecked (phase : s.tx t = .checked call) : HandoffInv (s.commit t) := by
  have own := inv.phase t
  rw [phase] at own
  obtain ⟨holds, admitted, empty⟩ := own
  have alone : ∀ u, u ≠ t → ¬ (u ∈ s.sharers ∨ s.updater = some u) := by
    rintro u other (shares | also)
    · rw [inv.exclusive (by simp [holds])] at shares
      cases shares
    · exact other (some.inj (also.symm.trans holds))
  have queues : (call.write s.cluster).queues = s.cluster.queues := by cases call <;> rfl
  have installed : (call.write s.cluster).installed = s.cluster.installed := by cases call <;> rfl
  simp only [Handoff.commit, phase]
  refine ⟨inv.engine.write call admitted, ?_, inv.finish_exclusive, inv.finish_others _ _ _
    (fun u other locks => absurd locks (alone u other)) (fun _ mem => installed ▸ mem)
    (fun u other also => absurd (.inr also) (alone u other)), inv.placed, ?_⟩
  · dsimp only
    rw [queues, installed]
    exact inv.uninstalled
  · dsimp only
    rw [queues]
    cases call with
    | enterMixedTransition => simp [TransitionCall.write, Cluster.entered]
    | finalize => simp [TransitionCall.write, Cluster.finalized]
    | abort =>
      intro early schema found
      cases state : s.cluster.transition.state with
      | mixedTransition =>
        rw [if_pos ⟨rfl, state⟩] at found
        exact some.inj found ▸ empty rfl state
      | active => simp [TransitionCall.write, Cluster.aborted, state] at early
      | canonical =>
        rw [if_neg (by simp [state])] at found
        exact inv.emptied (.inl state) schema found
      | prepared =>
        rw [if_neg (by simp [state])] at found
        exact inv.emptied (.inr state) schema found

theorem rewriteRow (unlocked : s.Unlocked) (engine : cluster.EngineOk)
    (queues : cluster.queues = s.cluster.queues)
    (installed : cluster.installed = s.cluster.installed)
    (early : cluster.transition.state = .canonical ∨ cluster.transition.state = .prepared →
      s.cluster.transition.state = .canonical ∨ s.cluster.transition.state = .prepared) :
    HandoffInv { s with cluster := cluster } := by
  refine ⟨engine, ?_, inv.exclusive, fun u => (inv.phase u).mono (fun mem => mem)
    (fun holds => holds) ?_
    (fun _ mem => installed ▸ mem) fun _ _ empty => queues ▸ empty, inv.placed, fun now => ?_⟩
  · dsimp only
    rw [queues, installed]
    exact inv.uninstalled
  · rintro (shares | holds)
    · rw [unlocked.1] at shares
      cases shares
    · exact absurd (unlocked.2.symm.trans holds) nofun
  · dsimp only
    rw [queues]
    exact inv.emptied (early now)

theorem other {op : ClusterOp} (admits : s.Admits op)
    (step : clusterStep op s.cluster = some cluster) :
    HandoffInv { s with cluster := cluster } := by
  cases op with
  | storagePrepare engine details =>
    obtain ⟨early, written, -, queues, installed⟩ := inv.engine.prepare (toOption_eq_some step)
    exact inv.rewriteRow admits written queues installed fun _ => early
  | storageAutoFinalizeIfFresh target =>
    cases step
    have written := inv.engine.autoFinalize target
    rw [Cluster.storageAutoFinalizeIfFresh] at written ⊢
    split
    · next fresh =>
      rw [if_pos fresh] at written
      exact inv.rewriteRow admits written rfl rfl fun _ => .inl fresh.1
    · exact inv
  | storageEnterMixedTransition | storageAbort | storageFinalize | insertJobCompat | reschedule =>
    cases admits
  | prepareSchema | report | tick | claim | finish | registerCallback | promote | queueClaim
  | queueSettle
  | queuePromote | queuePrune => exact inv.keeps (.background step trivial)

theorem step {op : HandoffOp} (sees : SeesCurrentRow op s) (step : handoffStep op s = some s') :
    HandoffInv s' := by
  cases op with
  | ask t id lease kind =>
    obtain ⟨-, rfl⟩ := guard_eq_some step
    exact inv.setTx _ inv.route
  | grant t =>
    cases phase : s.tx t with
    | asked id lease kind seen route =>
      simp only [handoffStep, phase] at step
      simp only [SeesCurrentRow, phase] at sees
      obtain ⟨free, rfl⟩ := guard_eq_some step
      have own := inv.phase t
      rw [phase] at own
      refine ⟨inv.engine, inv.uninstalled, fun held => absurd free held, phases_update rfl
        ⟨mem_cons_self, own.trans (by rw [← sees]; rfl)⟩ fun u _ => ?_, inv.placed, inv.emptied⟩
      exact (inv.phase u).mono (fun mem => mem_cons_of_mem _ mem) (fun holds => holds)
        (fun _ => rfl) (fun _ mem => mem) fun _ _ empty => empty
    | idle | routed | wrote | stale | locked | checked =>
      simp only [handoffStep, phase] at step
      cases step
  | write t duplicate => exact inv.write sees step
  | lock t call =>
    obtain ⟨⟨-, unlocked⟩, rfl⟩ := guard_eq_some step
    exact inv.lock unlocked
  | check t =>
    cases phase : s.tx t with
    | locked call =>
      simp only [handoffStep, phase] at step
      split at step
      · next allowed =>
        cases step
        exact inv.check phase allowed
      · cases step
        exact inv.finish
    | idle | asked | routed | wrote | stale | checked =>
      simp only [handoffStep, phase] at step
      cases step
  | commit t =>
    cases step
    cases phase : s.tx t with
    | wrote job rewrite => exact inv.commitWrote phase
    | checked call => exact inv.commitChecked phase
    | idle | asked | routed | stale | locked =>
      simp only [Handoff.commit, phase]
      exact inv.finish
  | rollback t =>
    cases step
    exact inv.finish
  | other op =>
    obtain ⟨admits, step⟩ := ite_none_right_eq_some.1 step
    obtain ⟨cluster, stepped, rfl⟩ := map_eq_some_iff.1 step
    exact inv.other admits stepped

end

end HandoffInv

/-- Every reschedule writes where the route points when it commits, and an abort that found queue
storage empty leaves it empty until routing returns there. -/
structure Handoff.FollowsRoute (s : Handoff) : Prop where
  open_ : ∀ t job rewrite, s.tx t = .wrote job rewrite →
    rewrite.target = s.cluster.activeQueueStorageSchema
  committed : ∀ placement ∈ s.placements, placement.1 = placement.2
  aborted : s.cluster.transition.state = .canonical ∨ s.cluster.transition.state = .prepared →
    ∀ schema ∈ s.foundEmpty, (s.cluster.queues schema).liveJobs = []

/-- Reschedules follow the route, if each gets its share lock on the row it saw and takes an attempt
without callback columns. -/
theorem reschedules_follow_route (reached : handoffMachine.Reachable SeesCurrentRow s) :
    s.FollowsRoute := by
  have inv : HandoffInv s := by
    refine reached.invariant (fun s first => ?_) fun _ _ _ _ inv sees step => inv.step sees step
    obtain ⟨cluster, -, updater, -, idle, placements, foundEmpty⟩ := first
    refine ⟨.initial cluster, fun schema _ => ?_, fun held => absurd updater held,
      fun t => ?_, ?_, ?_⟩
    · simp [cluster.queues, QueueTables.liveJobs]
    · rw [idle t]
      trivial
    · simp [placements]
    · simp [foundEmpty]
  refine ⟨fun t job rewrite phase => ?_, inv.placed, inv.emptied⟩
  have own := inv.phase t
  rw [phase] at own
  exact own.2.1.trans inv.route.symm

def rolloutHandoff : Handoff where
  cluster := rollout
  sharers := []
  updater := none
  taken := []
  tx := fun _ => .idle
  placements := []
  foundEmpty := none

/-- The job is claimed, the mixed transition is entered, and the target falls silent. -/
def enterOps : List HandoffOp :=
  [.other (.claim 1), .other (.storagePrepare (some .queueStorage) (some ⟨some "awa_next", ""⟩)),
    .lock 2 .enterMixedTransition, .check 2, .commit 2, .other (.tick 60)]

theorem rolloutHandoff_initial : handoffMachine.init rolloutHandoff :=
  ⟨⟨rfl, rfl, rfl⟩, rfl, rfl, rfl, fun _ => rfl, rfl, rfl⟩

theorem reschedules_follow_route_snooze :
    ∃ s, handoffMachine.Reachable SeesCurrentRow s ∧
      s.placements = [(some "awa_next", some "awa_next")] ∧
      s.cluster.transition.state = .mixedTransition ∧ s.FollowsRoute := by
  obtain ⟨s, reached, placements, state⟩ := Machine.reachable_of_run handoffMachine SeesCurrentRow
    (enterOps ++ [.ask 1 1 1 .snooze, .grant 1, .write 1 false, .commit 1,
      .lock 2 .abort, .check 2])
    (s := rolloutHandoff) (fun s => s.placements = [(some "awa_next", some "awa_next")] ∧
      s.cluster.transition.state = .mixedTransition) rolloutHandoff_initial (by decide)
  exact ⟨s, reached, placements, state, reschedules_follow_route reached⟩

/-- A reschedule that waits for an abort has computed its route before, and migrates the job into
the schema that the abort just found empty. A job with callback columns is written to the canonical
backlog of a mixed transition. -/
theorem reschedule_misses_route :
    (∃ s, handoffMachine.Reachable Machine.Always s ∧ s.placements = [(some "awa_next", none)] ∧
      s.cluster.transition.state = .canonical ∧ s.foundEmpty = some "awa_next" ∧
      (s.cluster.queues "awa_next").liveJobs = [1] ∧ ¬ s.FollowsRoute) ∧
    ∃ s, handoffMachine.Reachable Machine.Always s ∧ s.placements = [(none, some "awa_next")] ∧
      ¬ s.FollowsRoute := by
  constructor
  · obtain ⟨s, reached, placements, state, empty, live⟩ :=
      Machine.reachable_of_run handoffMachine Machine.Always (enterOps ++ [.lock 2 .abort, .check 2,
        .ask 1 1 1 .snooze, .commit 2, .grant 1, .write 1 false, .commit 1])
      (s := rolloutHandoff) (fun s => s.placements = [(some "awa_next", none)] ∧
        s.cluster.transition.state = .canonical ∧ s.foundEmpty = some "awa_next" ∧
        (s.cluster.queues "awa_next").liveJobs = [1]) rolloutHandoff_initial (by decide)
    refine ⟨s, reached, placements, state, empty, live, fun follows => ?_⟩
    exact absurd (follows.committed (some "awa_next", none) (by simp [placements])) nofun
  · obtain ⟨s, reached, placements⟩ := Machine.reachable_of_run handoffMachine Machine.Always
      (enterOps ++ [.other (.registerCallback 1 1), .ask 1 1 1 .snooze, .grant 1,
        .write 1 false, .commit 1])
      (s := rolloutHandoff) (fun s => s.placements = [(none, some "awa_next")])
        rolloutHandoff_initial (by decide)
    refine ⟨s, reached, placements, fun follows => ?_⟩
    exact absurd (follows.committed (none, some "awa_next") (by simp [placements])) nofun

end AwaQueue
