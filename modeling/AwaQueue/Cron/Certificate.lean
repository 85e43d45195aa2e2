import AwaQueue.Cron.Writers

/-! The certificate `synced_hash`: every schedule of the manifest with this hash exists, belongs to
the owner, is active and has the definition of the manifest. A heartbeat that finds it looks for no
conflicts. -/

namespace AwaQueue.Cron

open List Option Library

variable {H : Type} [DecidableEq H]

section
variable {ev ev' : Evidence H} {rows rows' : List CronJobRow} {owner : String}
    {hash : PeriodicManifest → H}

def Certified (ev : Evidence H) (rows : List CronJobRow) : Prop :=
  ∀ o ∈ ev.owners, ∀ h, o.syncedHash = some h →
    ∃ manifest, ev.manifest? o.ownerId h = some manifest ∧ Installed manifest o.ownerId rows

def ManifestsOk (hash : PeriodicManifest → H) (ev : Evidence H) : Prop :=
  ∀ m ∈ ev.manifests, m.desiredHash = hash m.manifest

structure Extends (ev ev' : Evidence H) : Prop where
  synced : ∀ o' ∈ ev'.owners, ∀ h, o'.syncedHash = some h → ∃ o ∈ ev.owners, o.ownerId =
    o'.ownerId ∧ o.syncedHash = some h
  manifests : ∀ owner h manifest, ev.manifest? owner h = some manifest → ev'.manifest? owner h =
    some manifest

theorem Extends.trans {mid : Evidence H} (first : Extends ev mid) (second : Extends mid ev') :
    Extends ev ev' where
  synced o' mem h synced := by
    obtain ⟨o, present, same, kept⟩ := second.synced o' mem h synced
    obtain ⟨old, there, same', kept'⟩ := first.synced o present h kept
    exact ⟨old, there, same'.trans same, kept'⟩
  manifests owner h manifest known := second.manifests owner h manifest
    (first.manifests owner h manifest known)

theorem Extends.of_eq (owners : ev'.owners = ev.owners) (manifests : ev'.manifests = ev.manifests) :
    Extends ev ev' where
  synced o' mem h synced := ⟨o', owners ▸ mem, rfl, synced⟩
  manifests owner h manifest known := by
    rw [Evidence.manifest?, manifests]
    exact known

theorem insertOwner_extends : Extends ev (ev.insertOwner owner) := by
  unfold Evidence.insertOwner
  split
  · exact .of_eq rfl rfl
  · refine ⟨?_, fun _ _ _ known => known⟩
    intro o' mem h synced
    rcases mem_append.1 mem with old | new
    · exact ⟨o', old, rfl, synced⟩
    · rw [mem_singleton.1 new] at synced
      cases synced

theorem updateOwners_extends {matched : CronOwner H → Bool} {set : CronOwner H → CronOwner H}
    (named : ∀ o, (set o).ownerId = o.ownerId) (kept : ∀ o h, (set o).syncedHash = some h →
    o.syncedHash = some h) : Extends ev (ev.updateOwners matched set) where
  synced o' mem h synced := by
    obtain ⟨o, present, rfl⟩ := mem_map.1 mem
    split at synced
    next hit => exact ⟨o, present, by rw [if_pos hit, named], kept o h synced⟩
    next out => exact ⟨o, present, by rw [if_neg out], synced⟩
  manifests _ _ _ known := known

theorem insertManifest_extends (row : ManifestRow H) : Extends ev (ev.insertManifest row) := by
  unfold Evidence.insertManifest
  split
  · exact .of_eq rfl rfl
  · refine ⟨fun o mem h synced => ⟨o, mem, rfl, synced⟩, ?_⟩
    intro owner h manifest known
    obtain ⟨m, found, rfl⟩ := map_eq_some_iff.1 known
    exact map_eq_some_iff.2 ⟨m, by rw [find?_append, found, some_or], rfl⟩

theorem insertManifest_ok {row : ManifestRow H} (ok : ManifestsOk hash ev)
    (hashed : row.desiredHash = hash row.manifest) : ManifestsOk hash (ev.insertManifest row) := by
  unfold Evidence.insertManifest
  split
  · exact ok
  · intro m mem
    rcases mem_append.1 mem with old | new
    · exact ok m old
    · rw [mem_singleton.1 new]
      exact hashed

omit [DecidableEq H] in
theorem insertOwner_manifests : (ev.insertOwner owner).manifests = ev.manifests := by
  unfold Evidence.insertOwner
  split <;> rfl

omit [DecidableEq H] in
theorem upsertRuntime_manifests (row : RuntimeInstance) :
    (ev.upsertRuntime row).manifests = ev.manifests := by
  simp only [Evidence.upsertRuntime]
  split <;> rfl

theorem upsertRuntime_extends (row : RuntimeInstance) : Extends ev (ev.upsertRuntime row) := by
  simp only [Evidence.upsertRuntime]
  split
  · exact .of_eq rfl rfl
  · have first : Extends ev { ev with runtimes := (ev.runtimes.filter fun r => r.instanceId ≠
        row.instanceId) ++ [row] } :=
      .of_eq rfl rfl
    exact first.trans (updateOwners_extends (fun _ => rfl) fun _ _ => id)

theorem publishEvidence_extends (instanceId : Nat) (config : PeriodicReconciliation)
    (manifest : PeriodicManifest) (clock : Nat) :
    Extends ev (publishEvidence hash ev instanceId config manifest clock) :=
  (insertOwner_extends.trans (insertManifest_extends _)).trans (.of_eq rfl rfl)

theorem publishEvidence_ok (ok : ManifestsOk hash ev) (instanceId : Nat)
    (config : PeriodicReconciliation) (manifest : PeriodicManifest) (clock : Nat) :
    ManifestsOk hash (publishEvidence hash ev instanceId config manifest clock) := by
  have first : ManifestsOk hash (ev.insertOwner config.ownerId) := by
    rw [ManifestsOk, insertOwner_manifests]
    exact ok
  exact insertManifest_ok first rfl

theorem Certified.mono (certified : Certified ev rows) (extended : Extends ev ev')
    (kept : ∀ row ∈ rows, row.ownerId.isSome = true → ∃ new ∈ rows', new.Keeps row) :
    Certified ev' rows' := by
  intro o mem h synced
  obtain ⟨old, present, same, before⟩ := extended.synced o mem h synced
  obtain ⟨manifest, known, installed⟩ := certified old present h before
  rw [same] at known installed
  refine ⟨manifest, extended.manifests _ _ _ known, installed.mono ?_⟩
  intro row there own _ _
  exact kept row there (by rw [own]; rfl)

end

/-- What a plan has to have seen: no row stands in the way of the manifest it is about to sync, and
it retires none of its schedules. -/
def PlanSound (ev : Evidence H) (rows : List CronJobRow) (owner : String) (p : CronPlan H) : Prop :=
  p.blockers = [] → ∀ h manifest, p.desiredHash = some h → ev.manifest? owner h = some manifest →
    ((ev.owner? owner).bind CronOwner.syncedHash ≠ some h →
      ∀ row ∈ rows, manifest.has row.name = true → row.conflicts owner = false) ∧
    ∀ name ∈ p.retirements, manifest.has name = false

section
variable {ev ev' : Evidence H} {rows rows' inserted : List CronJobRow} {owner : String}
  {apply : Bool} {p plan : CronPlan H}
  {now clock : Nat} {manifest : PeriodicManifest} {row : CronJobRow}

omit [DecidableEq H] in
theorem describeChanges_free (distinct : (rows.map CronJobRow.name).Nodup)
    (free : (describeChanges owner manifest rows plan).conflicts = []) (mem : row ∈ rows)
    (has : manifest.has row.name = true) : row.conflicts owner = false := by
  obtain ⟨job, wanted, named⟩ := any_eq_true.1 has
  have found : (rows.find? fun row => row.name = job.name) = some row := by
    cases found : rows.find? fun row => row.name = job.name with
    | none =>
      exact absurd (of_decide_eq_true named).symm (by simpa using find?_eq_none.1 found row mem)
    | some other =>
      have same : other.name = row.name :=
        (by simpa using find?_some found : other.name = job.name).trans (of_decide_eq_true named)
      rw [inj_on_of_nodup_map distinct (mem_of_find?_eq_some found) mem same]
  have none : ((rows.find? fun row => row.name = job.name).filter fun row =>
      row.conflicts owner).map
      (fun row => conflictDescription row owner) = none := filterMap_eq_nil_iff.1 free job wanted
  rw [found] at none
  by_contra conflict
  rw [Bool.not_eq_false] at conflict
  simp [conflict] at none

theorem readPlan_sound (read : readPlan ev rows owner apply now = some p)
    (distinct : (rows.map CronJobRow.name).Nodup) : PlanSound ev rows owner p := by
  intro free h manifest desired known
  have conflicts := (CronPlan.blockers_eq_nil.1 free).2.2.2
  simp only [readPlan] at read
  split at read
  next mixed =>
    cases read
    rw [mixed] at desired
    cases desired
  next hash shared =>
    split at read
    · obtain ⟨manifest', known', rfl⟩ := map_eq_some_iff.1 read
      obtain rfl : hash = h := some_inj.1 (shared.symm.trans desired)
      cases known'.symm.trans known
      refine ⟨fun _ row mem has => describeChanges_free distinct conflicts mem has, ?_⟩
      intro name retired
      obtain ⟨row, mem, rfl⟩ := mem_map.1 retired
      have absent := (mem_filter.1 mem).2
      simp only [Bool.and_eq_true, Bool.not_eq_eq_eq_not, Bool.not_true] at absent
      exact absent.2
    · split at read
      · cases read
        obtain rfl : hash = h := some_inj.1 (shared.symm.trans desired)
        refine ⟨?_, fun _ retired => by cases retired⟩
        intro _ row mem has
        have out := filter_eq_nil_iff.1 (map_eq_nil_iff.1 conflicts) row mem
        rw [known, any_some, has, Bool.true_and, Bool.not_eq_true] at out
        exact out
      next current =>
        cases read
        obtain rfl : hash = h := some_inj.1 (shared.symm.trans desired)
        exact ⟨fun stale => absurd (not_not.1 current) stale, fun _ retired => by cases retired⟩

theorem PlanSound.legacy {write : LegacyWrite} (sound : PlanSound ev (rows ++ inserted) owner p)
    (effect : LegacyEffect write rows rows')
    (apart : ∀ h manifest, p.desiredHash = some h → ev.manifest? owner h = some manifest →
      write.inserts rows = true →
      manifest.has write.name = false) : PlanSound ev (rows' ++ inserted) owner p := by
  intro free h manifest desired known
  obtain ⟨unopposed, retirements⟩ := sound free h manifest desired known
  refine ⟨?_, retirements⟩
  intro stale row mem has
  rcases mem_append.1 mem with written | own
  · rcases effect.source written with ⟨old, present, named, sameOwner, sameRetired⟩ | ⟨named,
      inserts⟩
    · have before := unopposed stale old (mem_append_left _ present) (named ▸ has)
      rw [CronJobRow.conflicts_eq_false] at before ⊢
      exact ⟨sameOwner.trans before.1, sameRetired.trans before.2⟩
    · rw [named, apart h manifest desired known inserts] at has
      cases has
  · exact unopposed stale row (mem_append_right _ own) has

omit [DecidableEq H] in
theorem retireRows_installed (retired : retireRows owner p rows = some rows')
    (installed : Installed manifest owner rows)
    (spared : ∀ name ∈ p.retirements, manifest.has name = false) :
    Installed manifest owner rows' := by
  apply installed.mono
  intro row mem _ _ has
  have out : (p.retirements.contains row.name && row.ownerId = some owner && row.retired.isNone) =
      false := by
    have absent : ¬ row.name ∈ p.retirements :=
      fun listed => by rw [spared _ listed] at has; cases has
    simp [absent]
  refine ⟨row, ?_, rfl, rfl, rfl⟩
  rw [updateRows_eq retired]
  exact mem_map.2 ⟨row, mem, fenced_of_not out⟩

theorem PlanEffect.certified (effect : PlanEffect ev rows owner apply p clock ev' rows')
    (certified : Certified ev rows) (sound : PlanSound ev rows owner p) : Certified ev' rows' := by
  have own := effect.own
  cases effect with
  | blocked _ written cleared =>
    rw [cleared, written]
    exact certified.mono (updateOwners_extends (fun _ => rfl) fun _ _ => id) fun row mem _ =>
      ⟨row, mem, rfl, rfl, rfl⟩
  | agreed hash synced free desired definitions agreement retired =>
    rw [agreement]
    intro o' mem h certificate
    obtain ⟨o, present, rfl⟩ := mem_map.1 mem
    split at certificate
    next same =>
      cases certificate
      rw [if_pos same]
      obtain rfl : o.ownerId = owner := of_decide_eq_true same
      -- The manifest is installed already or by this plan, and its schedules are not retired.
      obtain ⟨manifest, known, installed⟩ :
          ∃ manifest, ev.manifest? o.ownerId hash = some manifest ∧
          Installed manifest o.ownerId synced := by
        rcases definitions with ⟨current, rfl⟩ | ⟨stale, manifest, known, written⟩
        · obtain ⟨found, there, before⟩ := bind_eq_some_iff.1 current
          have named : found.ownerId = o.ownerId := by simpa using find?_some there
          obtain ⟨manifest, known, installed⟩ :=
            certified found (mem_of_find?_eq_some there) hash before
          rw [named] at known installed
          exact ⟨manifest, known, installed⟩
        · exact ⟨manifest, known, syncRows_installed written
            ((sound free hash manifest desired known).1 stale)⟩
      refine ⟨manifest, known, ?_⟩
      rcases retired with rfl | ⟨-, -, written⟩
      · exact installed
      · exact retireRows_installed written installed (sound free hash manifest desired known).2
    next other =>
      rw [if_neg other]
      obtain ⟨manifest, known, installed⟩ := certified o present h certificate
      refine ⟨manifest, known, installed.mono ?_⟩
      intro row there owned _ _
      have foreign : row.ownerId ≠ some owner := by
        intro same
        rw [owned] at same
        exact other (by simpa using same)
      exact ⟨row, own.kept row there foreign, rfl, rfl, rfl⟩

theorem operate_certified {action : CronOwnerAction} {actor : String}
    (certified : Certified ev rows) (operated : operateRows action actor now rows = some rows') :
    Certified (operateOwners action rows ev) rows' := by
  unfold operateRows at operated
  split at operated
  · cases operated
  · have extended : Extends ev (action.adopter.elim ev ev.insertOwner) := by
      cases action.adopter with
      | none => exact .of_eq rfl rfl
      | some owner => exact insertOwner_extends
    intro o' mem h certificate
    obtain ⟨o, present, rfl⟩ := mem_map.1 mem
    split at certificate
    · cases certificate
    next unaffected =>
      rw [if_neg unaffected]
      obtain ⟨old, there, same, before⟩ := extended.synced o present h certificate
      obtain ⟨manifest, known, installed⟩ := certified old there h before
      rw [same] at known installed
      refine ⟨manifest, extended.manifests _ _ _ known, installed.mono ?_⟩
      intro row stored owned _ _
      have out : action.selects row = false := by
        refine Bool.eq_false_iff.2 fun selected => unaffected ?_
        have hit : (rows.any fun row => action.selects row && row.ownerId = some o.ownerId) =
            true :=
          any_eq_true.2 ⟨row, stored, by simp [selected, owned]⟩
        simp only [CronOwnerAction.affects, hit, Bool.true_or]
      refine ⟨row, ?_, rfl, rfl, rfl⟩
      rw [updateRows_eq operated]
      exact mem_map.2 ⟨row, stored, fenced_of_not out⟩

end

structure TxnInv (hash : PeriodicManifest → H) (rows : List CronJobRow) (txn : CronTxn H) :
    Prop where
  manifests : ManifestsOk hash txn.evidence
  certified : Certified txn.evidence rows
  inserted : ∀ row ∈ txn.inserted, row.ownerId = some txn.owner
  plan : ∀ p, txn.plan = some p → PlanSound txn.evidence (rows ++ txn.inserted) txn.owner p

def CronState.inserted (s : CronState H) : List CronJobRow := s.txn.elim [] CronTxn.inserted

structure CertificateInv (hash : PeriodicManifest → H) (s : CronState H) : Prop where
  names : (s.rows.map CronJobRow.name ++ s.inserted.map CronJobRow.name).Nodup
  manifests : ManifestsOk hash s.evidence
  certified : Certified s.evidence s.rows
  txn : ∀ txn, s.txn = some txn → TxnInv hash s.rows txn

/-- No write without the lock inserts a schedule of the manifest that an evaluation has checked and
is about to sync. -/
def insertsApart (op : CronOp) (s : CronState H) : Bool :=
  match op with
  | .legacy write => s.txn.all fun txn => txn.plan.all fun p => p.desiredHash.all fun h =>
      (txn.evidence.manifest? txn.owner h).all fun manifest =>
        !(write.inserts s.rows && manifest.has write.name)
  | _ => true

section
variable {hash : PeriodicManifest → H} {clients : CronClients} {s t : CronState H} {txn : CronTxn H}
  {op : CronOp} {rows : List CronJobRow} {ev : Evidence H} {p : CronPlan H} {apply : Bool}
    {owner : String} {clock : Nat}
  {ev' : Evidence H} {rows' : List CronJobRow}

theorem CertificateInv.names_rows (inv : CertificateInv hash s) :
    (s.rows.map CronJobRow.name).Nodup :=
  (nodup_append.1 inv.names).1

theorem CertificateInv.idle (idle : s.txn = none) (names : (s.rows.map CronJobRow.name).Nodup)
    (manifests : ManifestsOk hash s.evidence)
    (certified : Certified s.evidence s.rows) : CertificateInv hash s where
  names := by
    rw [CronState.inserted, idle]
    simpa using names
  manifests
  certified
  txn txn running := by
    rw [idle] at running
    cases running

theorem CertificateInv.observe (inv : CertificateInv hash s) : CertificateInv hash s.observe := by
  unfold CronState.observe
  split
  next txn running =>
    have ok := inv.txn txn running
    have names := inv.names
    rw [CronState.inserted, running] at names
    split
    · refine ⟨names, inv.manifests, inv.certified, ?_⟩
      rintro _ ⟨⟩
      exact { ok with }
    · exact { inv with }
  next => exact { inv with }

theorem CertificateInv.start (inv : CertificateInv hash s) (ok : TxnInv hash s.rows txn)
    (names : (s.rows.map CronJobRow.name ++ txn.inserted.map CronJobRow.name).Nodup) :
    CertificateInv hash { s with txn := some txn } where
  __ := inv
  names
  txn := by
    rintro _ ⟨⟩
    exact ok

theorem beginPublish_inv (inv : CertificateInv hash s) {instanceId : Nat}
    {snapshot : Option RuntimeSnapshot}
    (step : beginPublish clients hash s instanceId snapshot = some t) : CertificateInv hash t := by
  obtain ⟨-, step⟩ := ite_none_right_eq_some.1 step
  obtain ⟨⟨config, manifest⟩, -, step⟩ := bind_eq_some_iff.1 step
  obtain ⟨ev, read, rfl⟩ := map_eq_some_iff.1 step
  have extended : Extends s.evidence ev ∧ ev.manifests = s.evidence.manifests := by
    cases snapshot with
    | some snapshot =>
      obtain ⟨-, rfl⟩ := guard_eq_some read
      exact ⟨upsertRuntime_extends _, upsertRuntime_manifests _⟩
    | none =>
      obtain ⟨-, rfl⟩ := guard_eq_some read
      exact ⟨.of_eq rfl rfl, rfl⟩
  have manifests : ManifestsOk hash ev := by
    rw [ManifestsOk, extended.2]
    exact inv.manifests
  apply inv.start
  · refine ⟨publishEvidence_ok manifests _ _ _ _, ?_, ?_, fun _ planned => by cases planned⟩
    · exact inv.certified.mono (extended.1.trans (publishEvidence_extends _ _ _ _))
        fun row mem _ => ⟨row, mem, rfl, rfl, rfl⟩
    · intro row mem
      simp only [publishTxn, publishRows] at mem
      split at mem
      · cases mem
      · obtain ⟨job, -, rfl⟩ := mem_map.1 mem
        rfl
  · simp only [publishTxn, publishRows]
    split
    · simpa using inv.names_rows
    · exact missing_names inv.names_rows

theorem finish_names
    (effect : PlanEffect ev rows owner apply p clock ev' rows')
    (distinct : (rows.map CronJobRow.name).Nodup) : (rows'.map CronJobRow.name).Nodup := by
  cases effect with
  | blocked _ written => exact written ▸ distinct
  | agreed hash synced _ _ definitions _ retired =>
    have first : (synced.map CronJobRow.name).Nodup := by
      rcases definitions with ⟨-, rfl⟩ | ⟨-, manifest, -, written⟩
      · exact distinct
      · exact syncRows_names written distinct
    rcases retired with rfl | ⟨-, -, written⟩
    · exact first
    · rw [update_names written fun _ _ => rfl]
      exact first

omit [DecidableEq H] in
theorem updateOwners_manifests (matched : CronOwner H → Bool) (set : CronOwner H → CronOwner H) :
    (ev.updateOwners matched set).manifests = ev.manifests := rfl

theorem PlanEffect.manifests
    (effect : PlanEffect ev rows owner apply p clock ev' rows') : ev'.manifests = ev.manifests := by
  cases effect with
  | blocked _ _ cleared => rw [cleared, updateOwners_manifests]
  | agreed _ _ _ _ _ agreement => rw [agreement, updateOwners_manifests]

theorem finish_inv (inv : CertificateInv hash s) (running : s.txn = some txn)
    (planned : txn.plan = some p) {result : Evidence H × List CronJobRow}
    (applied : applyPlan txn.evidence (s.rows ++ txn.inserted) txn.owner txn.apply p s.clock =
    some result) : CertificateInv hash (s.settle txn result.1 result.2) := by
  have ok := inv.txn txn running
  have effect := applyPlan_effect applied
  have names := inv.names
  rw [CronState.inserted, running, ← map_append] at names
  have certified : Certified txn.evidence (s.rows ++ txn.inserted) :=
    ok.certified.mono (.of_eq rfl rfl) fun row mem _ => ⟨row, mem_append_left _ mem, rfl, rfl, rfl⟩
  apply CertificateInv.idle rfl (finish_names effect names)
  · change ManifestsOk hash result.1
    rw [ManifestsOk, effect.manifests]
    exact ok.manifests
  · exact effect.certified certified (ok.plan p planned)

theorem legacy_inv {write : LegacyWrite} (inv : CertificateInv hash s)
    (effect : LegacyEffect write s.rows rows)
    (free : (s.txn.all fun txn => txn.inserted.all fun row => row.name ≠ write.name) = true)
    (apart : insertsApart (.legacy write) s = true) : CertificateInv hash { s with rows } where
  names := by
    apply effect.names inv.names
    intro taken
    obtain ⟨row, mem, named⟩ := mem_map.1 taken
    cases running : s.txn with
    | none =>
      rw [CronState.inserted, running] at mem
      cases mem
    | some txn =>
      rw [CronState.inserted, running] at mem
      rw [running, all_some] at free
      exact absurd named (by simpa using all_eq_true.1 free row mem)
  manifests := inv.manifests
  certified := inv.certified.mono (.of_eq rfl rfl) fun row mem owned => effect.keeps mem owned
  txn txn running := by
    have ok := inv.txn txn running
    refine ⟨ok.manifests, ok.certified.mono (.of_eq rfl rfl) fun row mem owned =>
      effect.keeps mem owned, ok.inserted, ?_⟩
    intro p planned
    apply (ok.plan p planned).legacy effect
    intro h manifest desired known inserts
    rw [insertsApart, show s.txn = some txn from running, all_some, planned, all_some, desired,
      all_some, known, all_some, inserts] at apart
    simpa using apart

theorem certificateInv_step (inv : CertificateInv hash s) (apart : insertsApart op s = true)
    (step : cronStep clients hash op s = some t) : CertificateInv hash t := by
  cases op with
  | tick =>
    cases step
    exact CertificateInv.observe { inv with }
  | snapshot instanceId cronProtocol snapshot =>
    obtain ⟨⟨idle, -⟩, rfl⟩ := guard_eq_some step
    apply CertificateInv.observe
    refine .idle (isNone_iff_eq_none.1 idle) inv.names_rows ?_ ?_
    · rw [ManifestsOk, upsertRuntime_manifests]
      exact inv.manifests
    · exact inv.certified.mono (upsertRuntime_extends _) fun row mem _ => ⟨row, mem, rfl, rfl, rfl⟩
  | beginPublish instanceId snapshot => exact beginPublish_inv inv step
  | beginReconcile owner =>
    obtain ⟨-, rfl⟩ := guard_eq_some step
    apply inv.start
    · exact ⟨inv.manifests, inv.certified, forall_mem_nil _, fun _ planned => by cases planned⟩
    · simpa using inv.names_rows
  | scan =>
    obtain ⟨txn, running, step⟩ := bind_eq_some_iff.1 step
    split at step
    · obtain ⟨p, read, rfl⟩ := map_eq_some_iff.1 step
      have ok := inv.txn txn running
      have names := inv.names
      rw [CronState.inserted, running] at names
      apply CertificateInv.observe
      refine inv.start ?_ names
      refine ⟨ok.manifests, ok.certified, ok.inserted, ?_⟩
      rintro _ ⟨⟩
      exact readPlan_sound read (by rwa [map_append])
    · cases step
  | finish =>
    obtain ⟨txn, running, step⟩ := bind_eq_some_iff.1 step
    obtain ⟨p, planned, step⟩ := bind_eq_some_iff.1 step
    obtain ⟨result, applied, rfl⟩ := map_eq_some_iff.1 step
    exact finish_inv inv running planned applied
  | abort =>
    obtain ⟨txn, running, rfl⟩ := map_eq_some_iff.1 step
    exact CertificateInv.idle rfl inv.names_rows inv.manifests inv.certified
  | operate action actor =>
    obtain ⟨idle, step⟩ := ite_none_right_eq_some.1 step
    obtain ⟨rows, operated, rfl⟩ := map_eq_some_iff.1 step
    apply CertificateInv.observe
    refine .idle (isNone_iff_eq_none.1 idle) ?_ ?_ ?_
    · unfold operateRows at operated
      split at operated
      · cases operated
      · rw [update_names operated]
        · exact inv.names_rows
        · intro row _
          exact congrArg PeriodicJob.name (action.apply_job actor s.clock row)
    · have manifests :
          (operateOwners action s.rows s.evidence).manifests = s.evidence.manifests := by
        rw [operateOwners, updateOwners_manifests]
        cases action.adopter with
        | none => rfl
        | some owner => exact insertOwner_manifests
      rw [ManifestsOk, manifests]
      exact inv.manifests
    · exact operate_certified inv.certified operated
  | legacy write =>
    obtain ⟨free, step⟩ := ite_none_right_eq_some.1 step
    obtain ⟨rows, ran, rfl⟩ := map_eq_some_iff.1 step
    exact legacy_inv inv (legacy_effect ran) free apart

theorem certificateInv_reachable
    (reached : (cronMachine clients hash).Reachable (fun op s => insertsApart op s = true) s) :
    CertificateInv hash s := by
  apply reached.invariant
  · rintro s ⟨names, empty, idle, -⟩
    apply CertificateInv.idle idle names
    · rw [empty]
      intro m mem
      cases mem
    · rw [empty]
      intro o mem
      cases mem
  · intro op s t _ inv apart step
    exact certificateInv_step inv apart step

end

def CronState.HasSchedule (s : CronState H) (owner : String) (job : PeriodicJob) : Prop :=
  ∃ row ∈ s.rows, row.job = job ∧ row.ownerId = some owner ∧ row.retired = none ∧
    ∀ other ∈ s.rows, other.name = job.name → other = row

/-- A synced hash certifies the schedules of its manifest. -/
theorem synced_hash_certifies {clients : CronClients} {hash : PeriodicManifest → H}
    (injective : Function.Injective hash) {s : CronState H}
    (reached : (cronMachine clients hash).Reachable (fun op s => insertsApart op s = true) s) :
    ∀ o ∈ s.evidence.owners, ∀ manifest, o.syncedHash = some (hash manifest) →
      ∀ job ∈ manifest.jobs, s.HasSchedule o.ownerId job := by
  have inv := certificateInv_reachable reached
  intro o member manifest synced job wanted
  obtain ⟨stored, known, installed⟩ := inv.certified o member _ synced
  obtain ⟨m, found, rfl⟩ := map_eq_some_iff.1 known
  have hashed : m.desiredHash = hash manifest := by
    have hit := find?_some found
    simp only [Bool.and_eq_true, decide_eq_true_eq] at hit
    exact hit.2
  have same : m.manifest = manifest :=
    injective ((inv.manifests m (List.mem_of_find?_eq_some found)).symm.trans hashed)
  obtain ⟨row, present, rfl, own, active⟩ := installed job (same ▸ wanted)
  refine ⟨row, present, rfl, own, active, ?_⟩
  intro other there named
  exact List.inj_on_of_nodup_map inv.names_rows there present named

def reportJob : PeriodicJob := ⟨"report", "0 9 * * *", "UTC", "report", "default", "all", 2, 25, [],
    "none", .coalesce⟩

def reportManifest : PeriodicManifest := ⟨[reportJob], by decide⟩

def billingClients : CronClients := fun instanceId =>
  if instanceId = 1 then some (⟨"billing", "r1", 60000⟩, reportManifest) else none

def freshCron : CronState PeriodicManifest :=
  ⟨0, [], ⟨[], [], [], []⟩, none, [(0, ⟨[], [], [], []⟩)]⟩

def billingPublish : List CronOp := [.beginPublish 1 (some ⟨0, 1000, false⟩), .scan, .finish]

theorem synced_hash_certifies_report :
    ∃ s, (cronMachine billingClients id).Reachable (fun op s => insertsApart op s = true) s ∧
      (∃ o ∈ s.evidence.owners, o.syncedHash = some reportManifest ∧
      s.HasSchedule o.ownerId reportJob) := by
  obtain ⟨s, reached, hit⟩ := Machine.reachable_of_run (cronMachine billingClients id)
    (fun op s => insertsApart op s = true)
    (s := freshCron) (.legacy (.upsert { reportJob with name := "cleanup" }) :: billingPublish)
    (fun s => s.evidence.owners.any fun o => o.syncedHash = some reportManifest) ⟨by decide, rfl,
      rfl, rfl⟩ (by decide)
  obtain ⟨o, member, synced⟩ := any_eq_true.1 hit
  have certificate : o.syncedHash = some (id reportManifest) := of_decide_eq_true synced
  exact ⟨s, reached, o, member, certificate,
    synced_hash_certifies Function.injective_id reached o member reportManifest certificate
      reportJob (by decide)⟩

/-- An old binary registers `report`, so that the first publication finds a conflict, and deletes it
before that one commits; then it registers it again between the conflict scan and the sync of the
second one. -/
def overtakingOps : List CronOp :=
  [.legacy (.releasedUpsert reportJob), .beginPublish 1 (some ⟨0, 1000, false⟩), .scan,
    .legacy (.delete "report"), .finish,
    .beginPublish 1 (some ⟨0, 1000, false⟩), .scan, .legacy (.releasedUpsert reportJob), .finish]

/-- The hash is synced, and the schedule belongs to nobody. -/
theorem certificate_overtaken : ∃ s, (cronMachine billingClients id).Reachable Machine.Always s ∧
    (∃ o ∈ s.evidence.owners, o.ownerId = "billing" ∧ o.syncedHash = some (id reportManifest)) ∧
    (∃ row ∈ s.rows, row.job = reportJob ∧ row.ownerId = none) ∧
      ¬ s.HasSchedule "billing" reportJob := by
  obtain ⟨s, reached, hit⟩ := Machine.reachable_of_run (cronMachine billingClients id)
    Machine.Always (s := freshCron) overtakingOps
      (fun s => (s.evidence.owners.any fun o => o.ownerId = "billing" && o.syncedHash =
      some reportManifest) &&
      s.rows = [reportJob.row none 0]) ⟨by decide, rfl, rfl, rfl⟩ (by decide)
  obtain ⟨synced, rows⟩ := Bool.and_eq_true_iff.1 hit
  have only : s.rows = [reportJob.row none 0] := of_decide_eq_true rows
  refine ⟨s, reached, by simpa using synced, ⟨reportJob.row none
    0, by rw [only]; exact List.mem_singleton_self _, rfl, rfl⟩, ?_⟩
  rintro ⟨row, member, -, own, -⟩
  rw [only, mem_singleton] at member
  rw [member] at own
  cases own

end AwaQueue.Cron
