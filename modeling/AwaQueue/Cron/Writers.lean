import AwaQueue.Cron.Reconciliation

/-! What the writers of `cron_jobs` can do to its rows: those that only the fence holds back, and
the transactions that act for an owner. -/

namespace AwaQueue.Cron

open List Library

def CronJobRow.Keeps (new old : CronJobRow) : Prop := new.job = old.job ∧
    new.ownerId = old.ownerId ∧ new.retired = old.retired

def LegacyWrite.inserts (write : LegacyWrite) (rows : List CronJobRow) : Bool :=
  match write with
  | .upsert _ | .releasedUpsert _ => rows.all fun row => row.name ≠ write.name
  | .delete _ | .pause _ _ | .resume _ | .mark _ _ _ => false

inductive LegacyEffect (write : LegacyWrite) (rows rows' : List CronJobRow) : Prop where
  | rewritten (matched : CronJobRow → Bool) (set : CronJobRow → CronJobRow)
      (named : ∀ row, matched row = true → (set row).name = row.name)
      (written : rows' = rows.map (fenced false none matched set))
  | deleted (unowned : ∀ row ∈ rows, row.name = write.name → row.ownerId = none)
      (written : rows' = rows.filter fun row => row.name ≠ write.name)
  | inserted (row : CronJobRow) (named : row.name = write.name) (absent : write.inserts rows = true)
    (written : rows' = rows ++ [row])

section
variable {write : LegacyWrite} {rows rows' : List CronJobRow} {row : CronJobRow} {now : Nat}

theorem upsert_absent {name : String} (absent : ¬ (rows.any fun row => row.name = name) = true) :
    (rows.all fun row => row.name ≠ name) = true := by
  simpa using absent

theorem legacy_effect (ran : write.run now rows = some rows') : LegacyEffect write rows rows' := by
  cases write with
  | upsert job =>
    simp only [LegacyWrite.run, upsertCronJob] at ran
    split at ran
    · refine .rewritten _ _ ?_ (updateRows_eq ran)
      intro row hit
      simp only [Bool.and_eq_true, decide_eq_true_eq] at hit
      exact hit.1.1.symm
    next absent =>
      cases ran
      exact .inserted _ rfl (upsert_absent absent) rfl
  | releasedUpsert job =>
    simp only [LegacyWrite.run, AwaQueue.Cron.releasedUpsert] at ran
    split at ran
    · refine .rewritten _ _ ?_ (updateRows_eq ran)
      intro row hit
      exact (of_decide_eq_true hit).symm
    next absent =>
      cases ran
      exact .inserted _ rfl (upsert_absent absent) rfl
  | delete name =>
    simp only [LegacyWrite.run, deleteCronJob] at ran
    split at ran
    · cases ran
    next allowed =>
      cases ran
      refine .deleted ?_ rfl
      intro row mem named
      by_contra owned
      refine allowed (any_eq_true.2 ⟨row, mem, ?_⟩)
      simp [show row.name = name from named, Option.isSome_iff_ne_none.2 owned]
  | pause name pausedBy | resume name | mark name fireTime previous =>
    refine .rewritten _ _ ?_ (updateRows_eq ran)
    intro _ _
    rfl

theorem fenced_name {admin : Bool} {setting : Option String} {matched : CronJobRow → Bool}
    {set : CronJobRow → CronJobRow}
    (named : ∀ row, matched row = true → (set row).name = row.name) (row : CronJobRow) :
    (fenced admin setting matched set row).name = row.name := by
  obtain same | ⟨hit, same⟩ := fenced_cases admin setting matched set row
  · rw [same]
  · rw [same, named row hit]

section
variable (effect : LegacyEffect write rows rows')
include effect

theorem LegacyEffect.keeps (mem : row ∈ rows) (owned : row.ownerId.isSome = true) :
    ∃ new ∈ rows', new.Keeps row := by
  cases effect with
  | rewritten matched set _ written =>
    have lifecycle := fenced_lifecycle none matched set row
    have definition : (fenced false none matched set row).job = row.job := by
      apply fenced_definition (.inr ⟨owned, ?_⟩)
      intro none
      rw [← none] at owned
      cases owned
    exact ⟨_, written ▸ mem_map_of_mem mem, definition, lifecycle⟩
  | deleted unowned written =>
    have kept : row.name ≠ write.name := by
      intro named
      rw [unowned row mem named] at owned
      cases owned
    refine ⟨row, ?_, rfl, rfl, rfl⟩
    rw [written]
    exact mem_filter.2 ⟨mem, by simpa using kept⟩
  | inserted row' _ _ written => exact ⟨row, written ▸ mem_append_left _ mem, rfl, rfl, rfl⟩

theorem LegacyEffect.source (mem : row ∈ rows') :
    (∃ old ∈ rows, row.name = old.name ∧ row.ownerId = old.ownerId ∧ row.retired = old.retired) ∨
      (row.name = write.name ∧ write.inserts rows = true) := by
  cases effect with
  | rewritten matched set named written =>
    rw [written] at mem
    obtain ⟨old, present, rfl⟩ := mem_map.1 mem
    exact .inl ⟨old, present, fenced_name named old, fenced_lifecycle none matched set old⟩
  | deleted _ written =>
    rw [written] at mem
    exact .inl ⟨row, (mem_filter.1 mem).1, rfl, rfl, rfl⟩
  | inserted new named absent written =>
    rw [written] at mem
    rcases mem_append.1 mem with old | new
    · exact .inl ⟨row, old, rfl, rfl, rfl⟩
    · rw [mem_singleton.1 new]
      exact .inr ⟨named, absent⟩

theorem LegacyEffect.names {others : List String}
    (distinct : (rows.map CronJobRow.name ++ others).Nodup) (free : write.name ∉ others) :
    (rows'.map CronJobRow.name ++ others).Nodup := by
  cases effect with
  | rewritten matched set named written =>
    have same : rows'.map CronJobRow.name = rows.map CronJobRow.name := by
      rw [written, map_map]
      exact map_congr_left fun row _ => fenced_name named row
    rw [same]
    exact distinct
  | deleted _ written =>
    rw [written]
    exact distinct.sublist ((filter_sublist.map _).append (List.Sublist.refl _))
  | inserted new named absent written =>
    rw [written, map_append, map_singleton, append_assoc, singleton_append]
    apply perm_middle.nodup_iff.2
    refine nodup_cons.2 ⟨?_, distinct⟩
    rw [named]
    intro present
    rcases mem_append.1 present with old | other
    · obtain ⟨row, mem, same⟩ := mem_map.1 old
      cases write with
      | upsert | releasedUpsert => exact absurd same (by simpa using all_eq_true.1 absent row mem)
      | delete | pause | resume | mark => cases absent
    · exact free other

end

end

variable {H : Type} [DecidableEq H]

/-- Rows of other owners and of nobody stay, and new rows belong to the owner. -/
structure ChangesOwn (owner : String) (rows rows' : List CronJobRow) : Prop where
  kept : ∀ row ∈ rows, row.ownerId ≠ some owner → row ∈ rows'
  source : ∀ row ∈ rows', row ∈ rows ∨ row.ownerId = some owner

section
variable {owner : String} {rows rows' mid : List CronJobRow} {row : CronJobRow}
  {manifest : PeriodicManifest} {now : Nat} {job : PeriodicJob}

theorem ChangesOwn.refl (owner : String) (rows : List CronJobRow) : ChangesOwn owner rows rows :=
  ⟨fun _ mem _ => mem, fun _ mem => .inl mem⟩

theorem ChangesOwn.trans (first : ChangesOwn owner rows mid) (second : ChangesOwn owner mid rows') :
    ChangesOwn owner rows rows' where
  kept row mem other := second.kept row (first.kept row mem other) other
  source row mem := (second.source row mem).elim (first.source row) .inr

theorem ChangesOwn.append {added : List CronJobRow}
    (own : ∀ row ∈ added, row.ownerId = some owner) : ChangesOwn owner rows (rows ++ added) where
  kept _ mem _ := mem_append_left _ mem
  source row mem := (mem_append.1 mem).imp_right (own row)

theorem ChangesOwn.update {admin : Bool} {setting : Option String} {matched : CronJobRow → Bool}
    {set : CronJobRow → CronJobRow} (updated : updateRows admin setting matched set rows =
    some rows') (own : ∀ row, matched row = true → row.ownerId = some owner)
    (kept : ∀ row, (set row).ownerId = row.ownerId) : ChangesOwn owner rows rows' where
  kept row mem other := by
    rw [updateRows_eq updated]
    have out : matched row = false := Bool.eq_false_iff.2 fun hit => other (own row hit)
    exact mem_map.2 ⟨row, mem, fenced_of_not out⟩
  source row mem := by
    rw [updateRows_eq updated] at mem
    obtain ⟨old, present, rfl⟩ := mem_map.1 mem
    obtain same | ⟨hit, same⟩ := fenced_cases admin setting matched set old
    · exact .inl (same.symm ▸ present)
    · exact .inr (by rw [same, kept, own old hit])

def PeriodicManifest.wanted (manifest : PeriodicManifest) (row : CronJobRow) : PeriodicJob :=
  (manifest.jobs.find? fun job => job.name = row.name).getD row.job

theorem PeriodicManifest.wanted_eq (mem : job ∈ manifest.jobs) (named : row.name = job.name) :
    manifest.wanted row = job := by
  unfold wanted
  cases found : manifest.jobs.find? fun job => job.name = row.name with
  | none => exact absurd named.symm (by simpa using find?_eq_none.1 found job mem)
  | some other =>
    have same : other.name = job.name :=
      (by simpa using find?_some found : other.name = row.name).trans named
    exact inj_on_of_nodup_map manifest.names (mem_of_find?_eq_some found) mem same

theorem syncRows_eq (synced : syncRows owner manifest now rows = some rows') :
    ∃ updated, updateRows false (some owner)
        (fun row => row.ownerId = some owner && row.retired.isNone && row.job ≠ manifest.wanted row)
        (fun row => { row with job := manifest.wanted row }) rows = some updated ∧
      rows' = updated ++ (manifest.jobs.filter fun job => rows.all fun row => row.name ≠
        job.name).map fun job => job.row (some owner) now := by
  obtain ⟨updated, written, rfl⟩ := Option.map_eq_some_iff.1 synced
  exact ⟨updated, written, rfl⟩

theorem syncRows_own (synced : syncRows owner manifest now rows = some rows') :
    ChangesOwn owner rows rows' := by
  obtain ⟨updated, written, rfl⟩ := syncRows_eq synced
  have first : ChangesOwn owner rows updated := by
    apply ChangesOwn.update written
    · intro row hit
      simp only [Bool.and_eq_true, decide_eq_true_eq] at hit
      exact hit.1.1
    · exact fun _ => rfl
  apply first.trans (ChangesOwn.append _)
  intro row mem
  obtain ⟨job, -, rfl⟩ := mem_map.1 mem
  rfl

omit [DecidableEq H] in
theorem retireRows_own {p : CronPlan H} (retired : retireRows owner p rows = some rows') :
    ChangesOwn owner rows rows' := by
  apply ChangesOwn.update retired
  · intro row hit
    simp only [Bool.and_eq_true, decide_eq_true_eq] at hit
    exact hit.1.2
  · exact fun _ => rfl

theorem syncRows_row (synced : syncRows owner manifest now rows = some rows') (mem : row ∈ rows)
    (own : row.ownerId = some owner) (active : row.retired = none) :
    ∃ new ∈ rows', new.job = manifest.wanted row ∧ new.ownerId = some owner ∧
      new.retired = none := by
  obtain ⟨updated, written, rfl⟩ := syncRows_eq synced
  rw [updateRows_eq written]
  refine ⟨_, mem_append_left _ (mem_map_of_mem mem), ?_⟩
  by_cases same : row.job = manifest.wanted row
  · rw [fenced_of_not (by simp [same])]
    exact ⟨same, own, active⟩
  · simp [fenced, scheduleFence, own, active, same]

def Installed (manifest : PeriodicManifest) (owner : String) (rows : List CronJobRow) : Prop :=
  ∀ job ∈ manifest.jobs, ∃ row ∈ rows, row.job = job ∧ row.ownerId = some owner ∧ row.retired = none

theorem CronJobRow.conflicts_eq_false :
    row.conflicts owner = false ↔ row.ownerId = some owner ∧ row.retired = none := by
  simp [CronJobRow.conflicts]

theorem syncRows_installed (synced : syncRows owner manifest now rows = some rows')
    (free : ∀ row ∈ rows, manifest.has row.name = true → row.conflicts owner = false) :
    Installed manifest owner rows' := by
  intro job mem
  by_cases present : ∃ row ∈ rows, row.name = job.name
  · obtain ⟨row, there, named⟩ := present
    have has : manifest.has row.name = true := any_eq_true.2 ⟨job, mem, by simp [named]⟩
    obtain ⟨own, active⟩ := CronJobRow.conflicts_eq_false.1 (free row there has)
    obtain ⟨new, stored, definition, lifecycle⟩ := syncRows_row synced there own active
    exact ⟨new, stored, definition.trans (manifest.wanted_eq mem named), lifecycle⟩
  · obtain ⟨updated, -, rfl⟩ := syncRows_eq synced
    refine ⟨job.row (some owner) now, mem_append_right _ (mem_map_of_mem (mem_filter.2 ⟨mem, ?_⟩)),
      rfl, rfl, rfl⟩
    simpa using present

theorem Installed.mono (installed : Installed manifest owner rows)
    (kept : ∀ row ∈ rows, row.ownerId = some owner → row.retired = none →
      manifest.has row.name = true →
      ∃ new ∈ rows', new.Keeps row) : Installed manifest owner rows' := by
  intro job mem
  obtain ⟨row, present, rfl, own, active⟩ := installed job mem
  obtain ⟨new, stored, same, sameOwner, sameRetired⟩ :=
    kept row present own active (any_eq_true.2 ⟨row.job, mem, by simp [CronJobRow.name]⟩)
  exact ⟨new, stored, same, sameOwner.trans own, sameRetired.trans active⟩

end

omit [DecidableEq H] in
theorem CronPlan.blockers_eq_nil {p : CronPlan H} : p.blockers = [] ↔
    p.blockingInstances = [] ∧ p.declarations ≠ [] ∧ p.desiredHash ≠ none ∧ p.conflicts = [] := by
  unfold CronPlan.blockers
  by_cases blocking : p.blockingInstances = [] <;> by_cases dead : p.declarations = [] <;>
    by_cases mixed : p.desiredHash = none <;> by_cases free : p.conflicts = [] <;>
      simp [blocking, dead, mixed, free]

inductive PlanEffect (ev : Evidence H) (rows : List CronJobRow) (owner : String) (apply : Bool)
    (p : CronPlan H) (clock : Nat) (ev' : Evidence H) (rows' : List CronJobRow) : Prop where
  | blocked (blocked : p.blockers ≠ []) (written : rows' = rows)
      (cleared : ev' = ev.updateOwners (fun o => o.ownerId = owner) fun o =>
        { o with agreedHash := none, agreedSince := none, evidenceUntil := none })
  | agreed (hash : H) (synced : List CronJobRow) (free : p.blockers = [])
      (desired : p.desiredHash = some hash)
      (definitions : ((ev.owner? owner).bind CronOwner.syncedHash = some hash ∧ synced = rows) ∨
        ((ev.owner? owner).bind CronOwner.syncedHash ≠ some hash ∧
          ∃ manifest, ev.manifest? owner hash = some manifest ∧
          syncRows owner manifest clock rows = some synced))
      (agreement : ev' = ev.updateOwners (fun o => o.ownerId = owner) fun o =>
        ⟨o.ownerId, some hash, some hash, some (p.agreedSince (ev.owner? owner)), p.evidenceUntil⟩)
      (retired : rows' = synced ∨
        (apply = true ∧ p.graceRemainingMs (ev.owner? owner) = 0 ∧
          retireRows owner p synced = some rows'))

section
variable {ev ev' : Evidence H} {rows rows' : List CronJobRow} {owner : String} {apply : Bool}
    {p : CronPlan H} {clock : Nat}

theorem applyPlan_effect (applied : applyPlan ev rows owner apply p clock = some (ev', rows')) :
    PlanEffect ev rows owner apply p clock ev' rows' := by
  unfold applyPlan at applied
  split at applied
  next free =>
    obtain ⟨hash, desired, applied⟩ := Option.bind_eq_some_iff.1 applied
    obtain ⟨synced, definitions, applied⟩ := Option.bind_eq_some_iff.1 applied
    obtain ⟨retired, retirement, result⟩ := Option.map_eq_some_iff.1 applied
    cases result
    refine .agreed hash synced free desired ?_ rfl ?_
    · unfold syncIfStale at definitions
      split at definitions
      next stale =>
        obtain ⟨manifest, known, written⟩ := Option.bind_eq_some_iff.1 definitions
        exact .inr ⟨stale, manifest, known, written⟩
      next current =>
        cases definitions
        exact .inl ⟨not_not.1 current, rfl⟩
    · unfold retireIfDue at retirement
      split at retirement
      next due => exact .inr ⟨due.1, due.2, retirement⟩
      next =>
        cases retirement
        exact .inl rfl
  next blocked =>
    cases applied
    exact .blocked blocked rfl rfl

theorem PlanEffect.own (effect : PlanEffect ev rows owner apply p clock ev' rows') :
    ChangesOwn owner rows rows' := by
  cases effect with
  | blocked _ written => exact written ▸ .refl owner rows
  | agreed hash synced _ _ definitions _ retired =>
    have first : ChangesOwn owner rows synced := by
      rcases definitions with ⟨-, rfl⟩ | ⟨-, manifest, -, written⟩
      · exact .refl owner _
      · exact syncRows_own written
    rcases retired with rfl | ⟨-, -, written⟩
    · exact first
    · exact first.trans (retireRows_own written)

end

section
variable {rows rows' : List CronJobRow} {manifest : PeriodicManifest} {owner : String} {now : Nat}

theorem update_names {admin : Bool} {setting : Option String} {matched : CronJobRow → Bool}
    {set : CronJobRow → CronJobRow}
    (updated : updateRows admin setting matched set rows = some rows')
    (named : ∀ row, matched row = true → (set row).name = row.name) :
    rows'.map CronJobRow.name = rows.map CronJobRow.name := by
  rw [updateRows_eq updated, map_map]
  exact map_congr_left fun row _ => fenced_name named row

theorem missing_names (distinct : (rows.map CronJobRow.name).Nodup) :
    (rows.map CronJobRow.name ++ ((manifest.jobs.filter fun job => rows.all fun row => row.name ≠
      job.name).map fun job => job.row (some owner) now).map CronJobRow.name).Nodup := by
  rw [map_map]
  apply nodup_append.2
  refine ⟨distinct, manifest.names.sublist (filter_sublist.map _), ?_⟩
  rintro _ old _ new rfl
  obtain ⟨row, present, named⟩ := mem_map.1 old
  obtain ⟨job, missing, rfl⟩ := mem_map.1 new
  have absent := all_eq_true.1 (mem_filter.1 missing).2 row present
  have different : row.name ≠ job.name := by simpa using absent
  exact absurd named different

theorem syncRows_names (synced : syncRows owner manifest now rows = some rows')
    (distinct : (rows.map CronJobRow.name).Nodup) : (rows'.map CronJobRow.name).Nodup := by
  obtain ⟨updated, written, rfl⟩ := syncRows_eq synced
  have same : updated.map CronJobRow.name = rows.map CronJobRow.name := by
    apply update_names written
    intro row _
    change (manifest.wanted row).name = row.name
    unfold PeriodicManifest.wanted
    cases found : manifest.jobs.find? fun job => job.name = row.name with
    | none => rfl
    | some job => simpa using find?_some found
  rw [map_append, same]
  exact missing_names distinct

end

end AwaQueue.Cron
