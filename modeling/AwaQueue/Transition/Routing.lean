import AwaQueue.Transition.Cluster

/-! What the steps of a cluster keep. The route is a function of the transition row alone, since the
registered backend is the schema that the details resolve to. Work on the jobs of either plane
moves no row of the transition and makes no live job where there was none. -/

namespace AwaQueue

open List Option Library

variable {s s' : Cluster} {schema : String} {tables : QueueTables} {wanted : CanonicalJob → Bool}

def TransitionRow.route (row : TransitionRow) : Option String :=
  if row.activeStorageEngine = .queueStorage then some (row.details.schemaEntry.getD "awa")
    else none

theorem TransitionDetails.schemaEntry_some {name rest : String} (named : name ≠ "") :
    schemaEntry ⟨some name, rest⟩ = some name := by
  simp [schemaEntry, named]

structure Cluster.EngineOk (s : Cluster) : Prop where
  unflipped : s.transition.state ≠ .active → s.transition.currentEngine = .canonical
  mixed : s.transition.state = .mixedTransition → s.transition.preparedEngine = some .queueStorage
  flipped : s.transition.state = .active →
    s.transition.currentEngine = .queueStorage ∧ s.transition.preparedEngine = none
  registered : s.transition.activeStorageEngine = .queueStorage →
    ∀ name ∈ s.backend, name = s.transition.details.schemaEntry.getD "awa"

namespace Cluster.EngineOk

theorem route_eq (ok : s.EngineOk) : s.activeQueueStorageSchema = s.transition.route := by
  rw [activeQueueStorageSchema, TransitionRow.route]
  split
  · next flipped =>
    cases entry : s.transition.details.schemaEntry with
    | some name => rfl
    | none =>
      cases backend : s.backend with
      | none => rfl
      | some name => rw [none_or, getD_some, ok.registered flipped name backend, entry]
  · rfl

theorem route_of_early (ok : s.EngineOk) (early : s.transition.state = .canonical ∨
    s.transition.state = .prepared) : s.activeQueueStorageSchema = none := by
  have engine : s.transition.activeStorageEngine = .canonical := by
    rcases early with canonical | prepared
    · rw [TransitionRow.activeStorageEngine, canonical]
      exact ok.unflipped (by simp [canonical])
    · rw [TransitionRow.activeStorageEngine, prepared]
      exact ok.unflipped (by simp [prepared])
  rw [activeQueueStorageSchema, engine, if_neg (by decide)]

theorem route_of_late (ok : s.EngineOk) (late : s.transition.state = .mixedTransition ∨
    s.transition.state = .active) :
    s.activeQueueStorageSchema = some (s.transition.details.schemaEntry.getD "awa") := by
  rw [ok.route_eq, TransitionRow.route, if_pos]
  rcases late with mixed | active
  · simp only [TransitionRow.activeStorageEngine, mixed, ok.mixed mixed, getD_some]
  · simp only [TransitionRow.activeStorageEngine, active, ok.flipped active, getD_none]

theorem congr (ok : s.EngineOk) (transition : s'.transition = s.transition)
    (backend : s'.backend = s.backend) : s'.EngineOk := by
  obtain ⟨unflipped, mixed, flipped, registered⟩ := ok
  rw [← transition] at unflipped mixed flipped registered
  rw [← backend] at registered
  exact ⟨unflipped, mixed, flipped, registered⟩

theorem initial (first : s.Initial) : s.EngineOk := by
  constructor <;> simp [first.transition, first.backend]

end Cluster.EngineOk

theorem Cluster.EngineOk.prepare (ok : s.EngineOk) {engine : Option Engine}
    {details : Option TransitionDetails} (step : s.storagePrepare engine details = .ok s') :
    (s.transition.state = .canonical ∨ s.transition.state = .prepared) ∧ s'.EngineOk ∧
      s'.transition.state = .prepared ∧ s'.queues = s.queues ∧ s'.installed = s.installed := by
  cases engine with
  | none => cases step
  | some target =>
    simp only [Cluster.storagePrepare] at step
    split at step
    · cases step
    · split at step
      · next early =>
        cases step
        have canonical : s.transition.currentEngine = .canonical :=
          ok.unflipped (by rcases early with h | h <;> simp [h])
        refine ⟨early, ⟨fun _ => canonical, nofun, nofun, fun flipped => ?_⟩, rfl, rfl, rfl⟩
        exact absurd (canonical.symm.trans flipped) nofun
      · cases step

theorem Cluster.enterRefusal_eq_none (allowed : s.enterRefusal = none) :
    s.transition.state = .prepared ∧ s.transition.preparedEngine = some .queueStorage ∧
      s.transition.details.schemaEntry.getD "awa" ∈ s.installed := by
  simp only [Cluster.enterRefusal] at allowed
  split_ifs at allowed with state engine installed canonicalOnly targets
  exact ⟨not_not.1 state, not_not.1 engine, installed⟩

theorem Cluster.finalizeRefusal_eq_none (allowed : s.finalizeRefusal = none) :
    s.transition.state = .mixedTransition ∧ s.transition.preparedEngine = some .queueStorage ∧
      s.canonicalLive = [] := by
  simp only [Cluster.finalizeRefusal] at allowed
  split_ifs at allowed with state engine backlog canonicalOnly
  exact ⟨not_not.1 state, not_not.1 engine, length_eq_zero_iff.1 (Nat.eq_zero_of_not_pos backlog)⟩

theorem QueueTables.live_of_rows (none : tables.rows = 0) : tables.liveJobs = [] := by
  simp only [QueueTables.rows, Nat.add_eq_zero_iff, length_eq_zero_iff] at none
  simp [QueueTables.liveJobs, none]

theorem Cluster.abortRefusal_eq_none (allowed : s.abortRefusal = none)
    (mixed : s.transition.state = .mixedTransition)
    (installed : s.abortSchema ∈ s.installed) : (s.queues s.abortSchema).liveJobs = [] := by
  simp only [Cluster.abortRefusal, installed, mixed, if_true] at allowed
  split_ifs at allowed with other live rows
  · exact absurd rfl other
  · exact QueueTables.live_of_rows (Nat.eq_zero_of_not_pos rows)

/-- The facts about the transition row that the checks of a call establish; they last as long as the
row is locked. -/
def TransitionCall.Admitted : TransitionCall → TransitionRow → Prop
  | .enterMixedTransition, row => row.state = .prepared ∧ row.preparedEngine = some .queueStorage
  | .abort, _ => True
  | .finalize, row => row.state = .mixedTransition ∧ row.preparedEngine = some .queueStorage

theorem TransitionCall.admitted {call : TransitionCall} (allowed : call.refusal s = none) :
    call.Admitted s.transition := by
  cases call with
  | enterMixedTransition =>
    obtain ⟨state, engine, -⟩ := Cluster.enterRefusal_eq_none allowed
    exact ⟨state, engine⟩
  | abort => trivial
  | finalize =>
    obtain ⟨state, engine, -⟩ := Cluster.finalizeRefusal_eq_none allowed
    exact ⟨state, engine⟩

theorem Cluster.EngineOk.write (ok : s.EngineOk) (call : TransitionCall)
    (admitted : call.Admitted s.transition) : (call.write s).EngineOk := by
  cases call with
  | enterMixedTransition =>
    obtain ⟨state, engine⟩ := admitted
    have canonical := ok.unflipped (by simp [state])
    exact ⟨fun _ => canonical, fun _ => engine, nofun,
      fun _ name registered => (some.inj registered).symm⟩
  | finalize =>
    obtain ⟨state, engine⟩ := admitted
    have flips : s.transition.activeStorageEngine = .queueStorage := by
      simp only [TransitionRow.activeStorageEngine, state, engine, getD_some]
    have registered := ok.registered flips
    refine ⟨fun early => absurd rfl early, nofun, fun _ => ⟨?_, rfl⟩, fun _ => registered⟩
    simp only [TransitionCall.write, Cluster.finalized, engine, getD_some]
  | abort =>
    have canonical := ok.unflipped
    have flipped := ok.flipped
    simp only [TransitionCall.write, Cluster.aborted]
    cases state : s.transition.state with
    | active =>
      exact ⟨fun early => absurd state early, fun mixed => absurd (state.symm.trans mixed) nofun,
        flipped, nofun⟩
    | canonical | prepared | mixedTransition =>
      exact ⟨fun _ => canonical (by simp [state]), by simp, by simp, nofun⟩

theorem Cluster.EngineOk.autoFinalize (ok : s.EngineOk) (target : Option String) :
    (s.storageAutoFinalizeIfFresh target).1.EngineOk := by
  rw [Cluster.storageAutoFinalizeIfFresh]
  split
  · refine ⟨fun early => absurd rfl early, nofun, fun _ => ⟨rfl, rfl⟩, fun _ name registered => ?_⟩
    have named : (target.filter fun name => name ≠ "").getD "awa" ≠ "" := by
      cases given : target.filter fun name => name ≠ "" with
      | none => decide
      | some found => exact of_decide_eq_true (filter_eq_some_iff.1 given).2
    rw [TransitionDetails.schemaEntry_some named]
    exact (some.inj registered).symm
  · exact ok

def ClusterOp.Background : ClusterOp → Prop
  | .prepareSchema _ | .report _ | .tick _ | .claim _ | .finish _ _ _ | .registerCallback _ _
  | .promote _
  | .queueClaim _ _ | .queueSettle _ _ _ | .queuePromote _ _ | .queuePrune _ _ => True
  | _ => False

structure Cluster.Keeps (s s' : Cluster) : Prop where
  transition : s'.transition = s.transition
  backend : s'.backend = s.backend
  installed : ∀ schema ∈ s.installed, schema ∈ s'.installed
  queues : ∀ schema, (s.queues schema).liveJobs = [] → (s'.queues schema).liveJobs = []
  canonical : s.canonicalLive = [] → s'.canonicalLive = []

theorem Cluster.Keeps.jobs {hot scheduled : List CanonicalJob}
    (canonical : s.canonicalLive = [] → { s with jobsHot := hot, scheduledJobs := scheduled
      }.canonicalLive = []) :
    s.Keeps { s with jobsHot := hot, scheduledJobs := scheduled } :=
  ⟨rfl, rfl, fun _ mem => mem, fun _ empty => empty, canonical⟩

theorem Cluster.Keeps.setQueue
    (keeps : (s.queues schema).liveJobs = [] → tables.liveJobs = []) :
    s.Keeps (s.setQueue schema tables) := by
  refine ⟨rfl, rfl, fun _ mem => mem, fun other empty => ?_, fun drained => drained⟩
  by_cases same : other = schema
  · subst same
    simpa [Cluster.setQueue] using keeps empty
  · simpa [Cluster.setQueue, same] using empty

theorem Cluster.canonicalLive_eq_nil :
    s.canonicalLive = [] ↔ (∀ job ∈ s.jobsHot, job.state.isTerminal = true) ∧
      s.scheduledJobs = [] := by
  simp [Cluster.canonicalLive, filter_eq_nil_iff]

theorem Cluster.find_of_drained (drained : s.canonicalLive = [])
    (nonterminal : ∀ job, wanted job = true → job.state.isTerminal = false) :
    s.jobsHot.find? wanted = none := by
  refine find?_eq_none.2 fun job mem found => ?_
  have terminal := (canonicalLive_eq_nil.1 drained).1 job mem
  rw [nonterminal job found] at terminal
  cases terminal

theorem CanonicalJob.runs_nonterminal {job : CanonicalJob} {id lease : Nat}
    (runs : job.runs id lease = true) : job.state.isTerminal = false := by
  simp only [CanonicalJob.runs, Bool.and_eq_true, decide_eq_true_eq] at runs
  rw [runs.1.2]
  rfl

theorem Cluster.Keeps.updateHot {change : CanonicalJob → CanonicalJob}
    (nonterminal : ∀ job, wanted job = true → job.state.isTerminal = false)
    (step : s.updateHot wanted change = some s') : s.Keeps s' := by
  obtain ⟨job, found, rfl⟩ := map_eq_some_iff.1 step
  refine .jobs fun drained => ?_
  rw [Cluster.find_of_drained drained nonterminal] at found
  cases found

theorem Cluster.Keeps.rescheduleCanonical (id lease : Nat) (kind : Reschedule) :
    s.Keeps (s.rescheduleCanonical id lease kind) := by
  rw [Cluster.rescheduleCanonical]
  split
  · exact .jobs fun drained => drained
  · next job found =>
    refine .jobs fun drained => ?_
    rw [Cluster.find_of_drained drained fun _ => CanonicalJob.runs_nonterminal] at found
    cases found

theorem QueueTables.advance_empty {jobId : Nat} {before after : EntryState}
    (empty : tables.liveJobs = []) (live : before ≠ .closed) :
    tables.advance jobId before after = none := by
  refine if_neg fun mem => ?_
  have gone := (append_eq_nil_iff.1 empty).2
  rw [map_eq_nil_iff, filter_eq_nil_iff] at gone
  exact gone _ mem (decide_eq_true live)

theorem QueueTables.prune_empty (jobs : List Nat) (empty : tables.liveJobs = []) :
    (tables.prune jobs).liveJobs = [] := by
  obtain ⟨deferred, ready⟩ := append_eq_nil_iff.1 empty
  refine append_eq_nil_iff.2 ⟨deferred, ?_⟩
  rw [map_eq_nil_iff, filter_eq_nil_iff] at ready ⊢
  exact fun entry mem => ready entry (mem_filter.1 mem).1

theorem Cluster.Keeps.background {op : ClusterOp} (step : clusterStep op s = some s')
    (background : op.Background) : s.Keeps s' := by
  cases op with
  | prepareSchema schema =>
    cases step
    exact ⟨rfl, rfl, fun _ mem => mem_append_left _ mem, fun _ empty => empty,
      fun drained => drained⟩
  | report runtimes | tick seconds =>
    cases step
    exact ⟨rfl, rfl, fun _ mem => mem, fun _ empty => empty, fun drained => drained⟩
  | claim id =>
    refine .updateHot (fun job wanted => ?_) step
    simp only [Bool.and_eq_true, decide_eq_true_eq] at wanted
    rw [wanted.2]
    rfl
  | finish id lease state =>
    obtain ⟨-, step⟩ := ite_none_right_eq_some.1 step
    exact .updateHot (fun _ => CanonicalJob.runs_nonterminal) step
  | registerCallback id lease => exact .updateHot (fun _ => CanonicalJob.runs_nonterminal) step
  | promote id =>
    obtain ⟨job, found, rfl⟩ := map_eq_some_iff.1 step
    refine .jobs fun drained => ?_
    rw [(Cluster.canonicalLive_eq_nil.1 drained).2] at found
    cases found
  | queueClaim schema jobId =>
    obtain ⟨tables, advanced, rfl⟩ := map_eq_some_iff.1 step
    refine .setQueue fun empty => ?_
    rw [QueueTables.advance_empty empty (by decide)] at advanced
    cases advanced
  | queueSettle schema jobId retry =>
    obtain ⟨tables, settled, rfl⟩ := map_eq_some_iff.1 step
    refine .setQueue fun empty => ?_
    rw [QueueTables.settle, QueueTables.advance_empty empty (by decide)] at settled
    cases settled
  | queuePromote schema jobId =>
    obtain ⟨tables, promoted, rfl⟩ := map_eq_some_iff.1 step
    refine .setQueue fun empty => ?_
    obtain ⟨deferred, -⟩ := guard_eq_some promoted
    rw [(append_eq_nil_iff.1 empty).1] at deferred
    cases deferred
  | queuePrune schema jobs =>
    cases step
    exact .setQueue fun empty => QueueTables.prune_empty jobs empty
  | storagePrepare | storageEnterMixedTransition | storageAbort | storageFinalize
  | storageAutoFinalizeIfFresh
  | insertJobCompat | reschedule => cases background

end AwaQueue
