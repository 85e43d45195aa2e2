import AwaQueue.Transition.Routing

/-! No job is left behind on the plane that the route no longer names, in any run in which an abort
of a mixed transition looks into the schema that producers wrote to.

While the transition is mixed only the schema of the route has jobs, so the emptiness check of
`storage_abort` covers every queue-storage job when it resolves that same schema. -/

namespace AwaQueue
open Library

variable {s s' : Cluster} {schema : String}

/-- An abort of a mixed transition finds the schema in the details that `storage_prepare` was given.
-/
def NamesSchema (op : ClusterOp) (s : Cluster) : Prop :=
  match op with
  | .storageAbort => s.transition.state = .mixedTransition → s.transition.details.schemaEntry ≠ none
  | _ => True

instance (op : ClusterOp) (s : Cluster) : Decidable (NamesSchema op s) := by
  unfold NamesSchema
  split
  · exact inferInstanceAs (Decidable (_ → _))
  · exact instDecidableTrue

structure Cluster.RouteOk (s : Cluster) : Prop extends s.EngineOk where
  exists_ : s.transition.state = .mixedTransition → ∀ schema ∈ s.activeQueueStorageSchema,
    schema ∈ s.installed
  elsewhere : s.transition.state ≠ .active → ∀ schema, schema ∉ s.activeQueueStorageSchema →
    (s.queues schema).liveJobs = []
  drained : s.transition.state = .active → s.canonicalLive = []

namespace Cluster.RouteOk

theorem queues_empty (ok : s.RouteOk) (early : s.transition.state = .canonical ∨
    s.transition.state = .prepared) (schema : String) : (s.queues schema).liveJobs = [] := by
  refine ok.elsewhere ?_ schema (by simp [ok.route_of_early early])
  rcases early with canonical | prepared <;> simp [*]

theorem frame (ok : s.RouteOk) (transition : s'.transition = s.transition)
    (backend : s'.backend = s.backend) (installed : ∀ schema ∈ s.installed, schema ∈ s'.installed)
    (queues : ∀ schema, schema ∉ s.activeQueueStorageSchema → (s.queues schema).liveJobs = [] →
      (s'.queues schema).liveJobs = [])
    (canonical : s.activeQueueStorageSchema ≠ none → s.canonicalLive = [] → s'.canonicalLive = []) :
    s'.RouteOk := by
  have engine := ok.toEngineOk.congr transition backend
  have route : s'.activeQueueStorageSchema = s.activeQueueStorageSchema := by
    rw [engine.route_eq, ok.route_eq, transition]
  refine ⟨engine, ?_, ?_, ?_⟩
  · rw [transition, route]
    exact fun mixed schema named => installed schema (ok.exists_ mixed schema named)
  · rw [transition, route]
    exact fun early schema other => queues schema other (ok.elsewhere early schema other)
  · rw [transition]
    exact fun active => canonical (by simp [ok.route_of_late (.inr active)]) (ok.drained active)

theorem keeps (ok : s.RouteOk) (kept : s.Keeps s') : s'.RouteOk :=
  ok.frame kept.transition kept.backend kept.installed (fun schema _ => kept.queues schema) fun _ =>
    kept.canonical

theorem migrate (ok : s.RouteOk) {id lease : Nat} {kind : Reschedule} {duplicate : Bool}
    (route : s.activeQueueStorageSchema = some schema)
    (step : s.migrateToQueueStorage schema id lease kind duplicate = some s') : s'.RouteOk := by
  rw [Cluster.migrateToQueueStorage] at step
  split at step
  · cases step
    exact ok.keeps (.rescheduleCanonical id lease kind)
  · next job found =>
    obtain ⟨-, rfl⟩ := guard_eq_some step
    refine ok.frame rfl rfl (fun _ mem => mem) (fun other unnamed empty => ?_) fun _ drained => ?_
    · have different : other ≠ schema := fun same => unnamed (same ▸ route)
      simpa [different] using empty
    · rw [Cluster.find_of_drained drained fun _ runs =>
        CanonicalJob.runs_nonterminal (Bool.and_eq_true_iff.1 runs).1] at found
      cases found

theorem insertJobCompat (ok : s.RouteOk) {state : JobState}
    (step : s.insertJobCompat state = some s') : s'.RouteOk := by
  rw [Cluster.insertJobCompat] at step
  split at step
  · next route =>
    split at step <;> cases step <;>
      exact ok.frame rfl rfl (fun _ mem => mem) (fun _ _ empty => empty) fun routed =>
        absurd route routed
  · next schema route =>
    have stored : ∀ tables : QueueTables, (s.setQueue schema tables).RouteOk := by
      intro tables
      refine ok.frame rfl rfl (fun _ mem => mem) (fun other unnamed empty => ?_) fun _ drained =>
        drained
      have different : other ≠ schema := fun same => unnamed (same ▸ route)
      simpa [Cluster.setQueue, different] using empty
    split at step
    · cases step
    · split at step <;> cases step <;> exact stored _

theorem prepare (ok : s.RouteOk) {engine : Option Engine} {details : Option TransitionDetails}
    (step : s.storagePrepare engine details = .ok s') : s'.RouteOk := by
  obtain ⟨early, engine, state, queues, -⟩ := ok.toEngineOk.prepare step
  refine ⟨engine, ?_, ?_, ?_⟩
  · simp [state]
  · rw [queues]
    exact fun _ schema _ => ok.queues_empty early schema
  · simp [state]

theorem enter (ok : s.RouteOk) (allowed : s.enterRefusal = none) : s.entered.RouteOk := by
  obtain ⟨state, engine, installed⟩ := Cluster.enterRefusal_eq_none allowed
  have written : s.entered.EngineOk := ok.toEngineOk.write .enterMixedTransition ⟨state, engine⟩
  refine ⟨written, fun _ schema named => ?_,
    fun _ schema _ => ok.queues_empty (.inr state) schema, by simp [Cluster.entered]⟩
  rw [written.route_of_late (.inl rfl)] at named
  exact Option.some.inj named ▸ installed

/-- The check of the abort covers the only schema that can have jobs. -/
theorem abort (ok : s.RouteOk) (names : NamesSchema .storageAbort s)
    (allowed : s.abortRefusal = none) : s.aborted.RouteOk := by
  have empty : s.transition.state ≠ .active → ∀ schema, (s.queues schema).liveJobs = [] := by
    intro early schema
    cases state : s.transition.state with
    | active => exact absurd state early
    | canonical => exact ok.queues_empty (.inl state) schema
    | prepared => exact ok.queues_empty (.inr state) schema
    | mixedTransition =>
      by_cases named : schema ∈ s.activeQueueStorageSchema
      · obtain ⟨name, entry⟩ := Option.ne_none_iff_exists'.1 (names state)
        have route := ok.route_of_late (.inl state)
        rw [entry] at route
        have looked : s.abortSchema = schema := by
          rw [Cluster.abortSchema, entry]
          exact Option.some.inj (route.symm.trans named)
        rw [← looked]
        exact Cluster.abortRefusal_eq_none allowed state (looked ▸ ok.exists_ state schema named)
      · exact ok.elsewhere early schema named
  have written : s.aborted.EngineOk := ok.toEngineOk.write .abort trivial
  have drained := ok.drained
  rw [Cluster.aborted] at written ⊢
  cases state : s.transition.state with
  | active =>
    rw [state] at written
    exact ⟨written, fun mixed => absurd (state.symm.trans mixed) (by decide),
      fun early => absurd state early, drained⟩
  | canonical | prepared | mixedTransition =>
    rw [state] at written
    exact ⟨written, by simp, fun _ schema _ => empty (by simp [state]) schema, by simp⟩

theorem finalize (ok : s.RouteOk) (allowed : s.finalizeRefusal = none) : s.finalized.RouteOk := by
  obtain ⟨state, engine, drained⟩ := Cluster.finalizeRefusal_eq_none allowed
  have written : s.finalized.EngineOk := ok.toEngineOk.write .finalize ⟨state, engine⟩
  exact ⟨written, by simp [Cluster.finalized], fun early => absurd rfl early, fun _ => drained⟩

theorem autoFinalize (ok : s.RouteOk) (target : Option String) :
    (s.storageAutoFinalizeIfFresh target).1.RouteOk := by
  have written := ok.toEngineOk.autoFinalize target
  rw [Cluster.storageAutoFinalizeIfFresh] at written ⊢
  split
  · next fresh =>
    rw [if_pos fresh] at written
    have drained : s.canonicalLive = [] := by simp [Cluster.canonicalLive, fresh]
    exact ⟨written, by simp, fun early => absurd rfl early, fun _ => drained⟩
  · exact ok

end Cluster.RouteOk

theorem Cluster.storageTransition_eq_ok {call : TransitionCall}
    (step : s.storageTransition call = .ok s') : call.refusal s = none ∧ s' = call.write s := by
  rw [Cluster.storageTransition] at step
  split at step <;> cases step
  next allowed => exact ⟨allowed, rfl⟩

theorem Cluster.RouteOk.step {op : ClusterOp} (ok : s.RouteOk) (names : NamesSchema op s)
    (step : clusterStep op s = some s') : s'.RouteOk := by
  cases op with
  | storagePrepare engine details => exact ok.prepare (toOption_eq_some step)
  | storageEnterMixedTransition =>
    obtain ⟨allowed, rfl⟩ := storageTransition_eq_ok (toOption_eq_some step)
    exact ok.enter allowed
  | storageAbort =>
    obtain ⟨allowed, rfl⟩ := storageTransition_eq_ok (toOption_eq_some step)
    exact ok.abort names allowed
  | storageFinalize =>
    obtain ⟨allowed, rfl⟩ := storageTransition_eq_ok (toOption_eq_some step)
    exact ok.finalize allowed
  | storageAutoFinalizeIfFresh target =>
    cases step
    exact ok.autoFinalize target
  | insertJobCompat state => exact ok.insertJobCompat step
  | reschedule id lease kind duplicate =>
    simp only [clusterStep, Cluster.rescheduleCanonicalAttempt] at step
    split at step
    · cases step
      exact ok.keeps (.rescheduleCanonical id lease kind)
    · next schema route => exact ok.migrate route step
  | prepareSchema | report | tick | claim | finish | registerCallback | promote | queueClaim
  | queueSettle
  | queuePromote | queuePrune => exact ok.keeps (.background step trivial)

/-- No job is on a plane that the state of the transition has left. -/
structure Cluster.NoneStranded (s : Cluster) : Prop where
  queueStorage : s.transition.state = .canonical ∨ s.transition.state = .prepared →
    ∀ schema, (s.queues schema).liveJobs = []
  canonical : s.transition.state = .active → s.canonicalLive = []

/-- No job is stranded, if every abort of a mixed transition finds a schema entry in the details. -/
theorem none_stranded (reached : clusterMachine.Reachable NamesSchema s) : s.NoneStranded := by
  have ok : s.RouteOk := by
    refine reached.invariant (fun s initial => ?_) fun _ _ _ _ ok names step => ok.step names step
    have empty : ∀ schema, (s.queues schema).liveJobs = [] := by
      simp [initial.queues, QueueTables.liveJobs]
    refine ⟨.initial initial, ?_, fun _ schema _ => empty schema, ?_⟩ <;> simp [initial.transition]
  exact ⟨ok.queues_empty, ok.drained⟩

def rollout : Cluster where
  transition := ⟨.canonical, none, .canonical, 0, {}⟩
  backend := none
  runtimes := [⟨.queueStorage, .queueStorageTarget, 0, 1000⟩]
  now := 0
  jobsHot := [⟨1, .available, 0, 0, false⟩]
  scheduledJobs := []
  nextId := 2
  installed := ["awa", "awa_next"]
  queues := fun _ => {}

/-- The mixed transition is entered with the given details, the canonical job is snoozed into queue
storage, and the target falls silent. -/
def rolloutOps (details : TransitionDetails) : List ClusterOp :=
  [.claim 1, .storagePrepare (some .queueStorage) (some details), .storageEnterMixedTransition,
    .insertJobCompat .available, .reschedule 1 1 .snooze false, .tick 60]

theorem none_stranded_rollout :
      ∃ s, clusterMachine.Reachable NamesSchema s ∧ s.transition.state = .canonical ∧
      (s.queues "awa_next").nextJobId = 3 ∧ s.NoneStranded := by
  obtain ⟨s, reached, state, used⟩ := Machine.reachable_of_run clusterMachine NamesSchema
    (rolloutOps ⟨some "awa_next", ""⟩ ++ [.queuePromote "awa_next" 2, .queueClaim "awa_next" 1,
      .queueClaim "awa_next" 2, .queueSettle "awa_next" 1 false, .queueSettle "awa_next" 2 false,
        .queuePrune "awa_next" [1, 2], .storageAbort])
    (s := rollout) (fun s => s.transition.state = .canonical ∧ (s.queues "awa_next").nextJobId = 3)
    ⟨rfl, rfl, rfl⟩ (by decide)
  exact ⟨s, reached, state, used, none_stranded reached⟩

/-- Prepared without a schema entry, both jobs go to the schema `awa`; the abort looks into
`awa_exp`, and returns the cluster to the canonical tables over two live jobs. -/
theorem abort_strands_jobs :
      ∃ s, clusterMachine.Reachable Machine.Always s ∧ s.transition.state = .canonical ∧
        s.activeQueueStorageSchema = none ∧ (s.queues "awa").liveJobs = [2, 1] ∧
        ¬ s.NoneStranded := by
  obtain ⟨s, reached, state, route, live⟩ := Machine.reachable_of_run clusterMachine Machine.Always
    (rolloutOps {} ++ [.storageAbort]) (s := rollout)
    (fun s => s.transition.state = .canonical ∧ s.activeQueueStorageSchema = none ∧
      (s.queues "awa").liveJobs = [2, 1]) ⟨rfl, rfl, rfl⟩ (by decide)
  refine ⟨s, reached, state, route, live, fun none => ?_⟩
  have empty := none.queueStorage (.inl state) "awa"
  rw [live] at empty
  cases empty

end AwaQueue
