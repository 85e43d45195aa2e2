import AwaQueue.Callback.Protocol

/-! What holds of the tables in every state: where a job is, which rows stand behind a lease, who
owns a unique key and which callback ids are live. Each part is stated over the tables it needs, so
that a step that leaves these alone keeps it. -/

namespace AwaQueue

open List Library

def ReadyRow.carried (row : ReadyEntry) : Attempt := ⟨row.job.jobId, row.job.runLease⟩

def DeferredEntry.carried (entry : DeferredEntry) : Attempt := ⟨entry.job.jobId, entry.job.runLease⟩

def waitingAttempts (unclaimed : List ReadyEntry) (deferred : List DeferredEntry) : List Attempt :=
  unclaimed.map ReadyRow.carried ++ deferred.map DeferredEntry.carried

def claimAttempts (claims : List ClaimReceipt) : List Attempt := claims.map fun c => c.attempt

/-- A job waits or has one open attempt, and no attempt of it is newer. -/
structure ResidenceOk (waiting attempts closures : List Attempt) (nextJob : Nat) : Prop where
  distinct : attempts.Nodup
  alone : ((waiting ++ attempts.filter (· ∉ closures)).map Attempt.jobId).Nodup
  newest : ∀ p ∈ waiting ++ attempts.filter (· ∉ closures), ∀ a ∈ attempts, a.jobId = p.jobId →
    a.runLease ≤ p.runLease
  bounded : ∀ p ∈ waiting ++ attempts, p.jobId < nextJob

namespace ResidenceOk
variable {waiting waiting' attempts closures : List Attempt} {nextJob : Nat} {a p : Attempt}

theorem perm (ok : ResidenceOk waiting attempts closures nextJob) (moved : waiting'.Perm waiting) :
    ResidenceOk waiting' attempts closures nextJob where
  distinct := ok.distinct
  alone := (((moved.append_right _).map _).nodup_iff).2 ok.alone
  newest p mem := ok.newest p ((moved.append_right _).mem_iff.1 mem)
  bounded p mem := ok.bounded p ((moved.append_right _).mem_iff.1 mem)

theorem enqueue (ok : ResidenceOk waiting attempts closures nextJob) :
    ResidenceOk (⟨nextJob, 0⟩ :: waiting) attempts closures (nextJob + 1) where
  distinct := ok.distinct
  alone := by
    rw [cons_append, map_cons, nodup_cons]
    refine ⟨fun mem => ?_, ok.alone⟩
    obtain ⟨p, found, same⟩ := mem_map.1 mem
    have below := ok.bounded p (by
      rcases mem_append.1 found with here | here
      · exact mem_append_left _ here
      · exact mem_append_right _ (mem_filter.1 here).1)
    exact absurd same (Nat.ne_of_lt below)
  newest p mem b claimed same := by
    rcases mem_cons.1 mem with rfl | mem
    · exact absurd same (Nat.ne_of_lt (ok.bounded b (mem_append_right _ claimed)))
    · exact ok.newest p mem b claimed same
  bounded p mem := by
    rcases mem_cons.1 mem with rfl | mem
    · exact Nat.lt_succ_self nextJob
    · exact Nat.lt_succ_of_lt (ok.bounded p mem)

theorem next_fresh (ok : ResidenceOk (p :: waiting) attempts closures nextJob) :
    (⟨p.jobId, p.runLease + 1⟩ : Attempt) ∉ attempts := by
  intro mem
  have older := ok.newest p (by simp) _ mem rfl
  exact absurd older (by simp)

theorem claim (ok : ResidenceOk (p :: waiting) attempts closures nextJob)
    (unclosed : (⟨p.jobId, p.runLease + 1⟩ : Attempt) ∉ closures) :
    ResidenceOk waiting (attempts ++ [⟨p.jobId, p.runLease + 1⟩]) closures nextJob := by
  have reorder : (waiting ++ (attempts ++ [(⟨p.jobId, p.runLease + 1⟩ : Attempt)]).filter
      (· ∉ closures)).Perm
      ((⟨p.jobId, p.runLease + 1⟩ : Attempt) :: (waiting ++ attempts.filter (· ∉ closures))) := by
    have kept : [(⟨p.jobId, p.runLease + 1⟩ : Attempt)].filter (· ∉ closures) =
        [⟨p.jobId, p.runLease + 1⟩] :=
      filter_cons_of_pos (decide_eq_true unclosed)
    rw [filter_append, ← append_assoc, kept]
    exact perm_append_singleton _ _
  refine ⟨?_, ?_, ?_, ?_⟩
  · exact ok.distinct.append (nodup_singleton _) (by simpa using ok.next_fresh)
  · rw [(reorder.map _).nodup_iff]
    exact ok.alone
  · intro q mem b claimed same
    have alone := ok.alone
    rw [cons_append, map_cons, nodup_cons] at alone
    rcases mem_cons.1 (reorder.mem_iff.1 mem) with rfl | mem
    · rcases mem_append.1 claimed with old | new
      · exact Nat.le_succ_of_le (ok.newest p (by simp) b old same)
      · exact (mem_singleton.1 new) ▸ Nat.le_refl _
    · rcases mem_append.1 claimed with old | new
      · exact ok.newest q (mem_cons_of_mem _ mem) b old same
      · rw [mem_singleton.1 new] at same
        exact absurd (same ▸ mem_map_of_mem mem) alone.1
  · intro q mem
    have bound := ok.bounded p (by simp)
    rcases mem_append.1 mem with here | here
    · exact ok.bounded q (by simp [here])
    · rcases mem_append.1 here with old | new
      · exact ok.bounded q (by simp [old])
      · exact (mem_singleton.1 new) ▸ bound

theorem openAttempts_close (ok : ResidenceOk waiting attempts closures nextJob) (mem : a ∈ attempts)
    (unclosed : a ∉ closures) :
    (a :: attempts.filter (· ∉ closures ++ [a])).Perm (attempts.filter (· ∉ closures)) := by
  have split : attempts.filter (· ∉ closures ++ [a]) =
      (attempts.filter (· ∉ closures)).erase a := by
    rw [(ok.distinct.filter _).erase_eq_filter, filter_filter]
    refine filter_congr fun b _ => ?_
    by_cases same : b = a <;> simp [same]
  rw [split]
  exact (perm_cons_erase (mem_filter.2 ⟨mem, by simpa using unclosed⟩)).symm

theorem requeue (ok : ResidenceOk waiting attempts closures nextJob) (mem : a ∈ attempts)
    (unclosed : a ∉ closures) : ResidenceOk (a :: waiting) attempts (closures ++ [a]) nextJob := by
  have reorder : (a :: waiting ++ attempts.filter (· ∉ closures ++ [a])).Perm
      (waiting ++ attempts.filter (· ∉ closures)) :=
    perm_middle.symm.trans ((ok.openAttempts_close mem unclosed).append_left waiting)
  refine ⟨ok.distinct, ((reorder.map _).nodup_iff).2 ok.alone,
    fun p here => ok.newest p (reorder.mem_iff.1 here), ?_⟩
  intro p here
  rcases mem_append.1 here with here | here
  · rcases mem_cons.1 here with rfl | here
    · exact ok.bounded p (mem_append_right _ mem)
    · exact ok.bounded p (mem_append_left _ here)
  · exact ok.bounded p (mem_append_right _ here)

theorem drop (ok : ResidenceOk (p :: waiting) attempts closures nextJob) :
    ResidenceOk waiting attempts closures nextJob where
  distinct := ok.distinct
  alone := by
    have alone := ok.alone
    rw [cons_append, map_cons, nodup_cons] at alone
    exact alone.2
  newest q mem := ok.newest q (mem_cons_of_mem _ mem)
  bounded q mem := ok.bounded q (mem_cons_of_mem _ mem)

theorem finish (ok : ResidenceOk waiting attempts closures nextJob) (mem : a ∈ attempts)
    (unclosed : a ∉ closures) : ResidenceOk waiting attempts (closures ++ [a]) nextJob :=
  (ok.requeue mem unclosed).drop

end ResidenceOk

structure LeasesOk (ready unclaimed : List ReadyEntry) (claims : List ClaimReceipt)
    (closures : List Attempt) (leases : List LiveLease) : Prop where
  keys : (ready.map ReadyRow.key).Nodup
  waiting : ∀ row ∈ unclaimed, row ∈ ready
  claimed : ∀ c ∈ claims, c.source ∈ ready ∧ ∃ priority, c.toAttemptColumns =
    c.source.columns priority
  distinct : (leases.map fun lease => lease.attempt).Nodup
  backed : ∀ lease ∈ leases, lease.attempt ∉ closures ∧ ∃ c ∈ claims, c.toAttemptColumns =
    lease.toAttemptColumns
  state : ∀ lease ∈ leases, lease.state = .running ∨ lease.state = .waitingExternal

namespace LeasesOk
variable {ready unclaimed : List ReadyEntry} {claims : List ClaimReceipt} {closures : List Attempt}
  {leases : List LiveLease}

section
variable (ok : LeasesOk ready unclaimed claims closures leases)
include ok

theorem lease_eq {l l' : LiveLease} (mem : l ∈ leases)
    (mem' : l' ∈ leases) (same : l.attempt = l'.attempt) : l = l' :=
  inj_on_of_nodup_map ok.distinct mem mem' same

theorem insertReady {row : ReadyEntry} (fresh : row.key ∉ ready.map ReadyRow.key) :
    LeasesOk (ready ++ [row]) (unclaimed ++ [row]) claims closures leases where
  __ := ok
  keys := by
    rw [map_append, nodup_append]
    refine ⟨ok.keys, by simp, ?_⟩
    intro key mem key' last
    obtain rfl : key' = row.key := by simpa using last
    rintro rfl
    exact fresh mem
  waiting other mem := by
    rcases mem_append.1 mem with here | here
    · exact mem_append_left _ (ok.waiting other here)
    · exact mem_append_right _ here
  claimed c mem := (ok.claimed c mem).imp_left (mem_append_left _)

theorem close (a : Attempt) :
    LeasesOk ready unclaimed claims (closures ++ [a])
    (leases.filter fun lease => lease.attempt ≠ a) where
  __ := ok
  distinct := ok.distinct.sublist (filter_sublist.map _)
  backed lease mem := by
    obtain ⟨kept, other⟩ := mem_filter.1 mem
    obtain ⟨unclosed, backing⟩ := ok.backed lease kept
    exact ⟨by simpa [unclosed] using other, backing⟩
  state lease mem := ok.state lease (mem_filter.1 mem).1

theorem replace {rows : List LiveLease} {f : LiveLease → LiveLease}
    (distinct : (rows.map fun lease => lease.attempt).Nodup)
    (backed : ∀ lease ∈ rows, lease.attempt ∉ closures ∧ ∃ c ∈ claims, c.toAttemptColumns =
    lease.toAttemptColumns)
    (columns : ∀ lease ∈ rows, (f lease).toAttemptColumns = lease.toAttemptColumns)
    (state : ∀ lease ∈ rows, (f lease).state = .running ∨ (f lease).state = .waitingExternal) :
    LeasesOk ready unclaimed claims closures
      ((leases.filter fun lease => lease.attempt ∉ rows.map (fun row => row.attempt)) ++
        rows.map f) where
  __ := ok
  distinct := by
    have renamed : (rows.map f).map (fun lease => lease.attempt) = rows.map fun lease =>
        lease.attempt := by
      rw [map_map]
      exact map_congr_left fun lease mem => congrArg AttemptColumns.attempt (columns lease mem)
    rw [map_append, renamed]
    refine List.Nodup.append (ok.distinct.sublist (filter_sublist.map _)) distinct ?_
    intro a kept replaced
    obtain ⟨lease, mem, rfl⟩ := mem_map.1 kept
    have apart := (mem_filter.1 mem).2
    exact (of_decide_eq_true apart) replaced
  backed lease mem := by
    rcases mem_append.1 mem with kept | new
    · exact ok.backed lease (mem_filter.1 kept).1
    · obtain ⟨row, here, rfl⟩ := mem_map.1 new
      rw [columns row here]
      exact backed row here
  state lease mem := by
    rcases mem_append.1 mem with kept | new
    · exact ok.state lease (mem_filter.1 kept).1
    · obtain ⟨row, here, rfl⟩ := mem_map.1 new
      exact state row here

theorem exists_hydrate {c : ClaimReceipt} (mem : c ∈ claims) :
    ∃ row ∈ ready, row.ref = c.ref ∧ row.lane.queue = c.lane.queue ∧ row.lane.enqueueShard =
      c.lane.enqueueShard ∧ row.laneSeq = c.laneSeq ∧ row.job.jobId = c.attempt.jobId := by
  obtain ⟨source, priority, columns⟩ := ok.claimed c mem
  refine ⟨c.source, source, ?_⟩
  rw [columns]
  exact ⟨rfl, rfl, rfl, rfl, rfl⟩

end

end LeasesOk

def uniqueSpecs (ready : List ReadyEntry) (deferred : List DeferredEntry) :
    List (Nat × UniqueColumns) :=
  ready.map (fun row => (row.job.jobId, row.job.unique)) ++ deferred.map fun entry =>
    (entry.job.jobId, entry.job.unique)

/-- The jobs that are not over, with the state that `job_unique_claims` was last told. -/
def residents (unclaimed : List ReadyEntry) (deferred : List DeferredEntry)
    (openAttempts : List Attempt) : List (Nat × JobState) :=
  unclaimed.map (fun row => (row.job.jobId, .available)) ++ deferred.map
    (fun entry => (entry.job.jobId, entry.state)) ++ openAttempts.map fun a => (a.jobId, .running)

def Owns (table : List UniqueClaim) (jobId : Nat) (columns : UniqueColumns) : Prop :=
  ∀ key, columns.key = some key → ⟨key, jobId⟩ ∈ table

/-- A key that is claimed while its job runs belongs to the job in every state that claims it.
Parking an attempt does not tell `job_unique_claims`, so a mask that leaves out `running` says
nothing here. -/
structure UniqueOk (table : List UniqueClaim) (specs : List (Nat × UniqueColumns))
    (residents : List (Nat × JobState)) (nextJob : Nat) : Prop where
  keys : (table.map UniqueClaim.key).Nodup
  same : ∀ x ∈ specs, ∀ y ∈ specs, x.1 = y.1 → x.2 = y.2
  bounded : ∀ x ∈ specs, x.1 < nextJob
  held : ∀ r ∈ residents, ∀ x ∈ specs, x.1 = r.1 → x.2.claims (some .running) = true →
    x.2.claims (some r.2) = true → Owns table x.1 x.2

namespace UniqueOk
variable {table table' : List UniqueClaim} {specs specs' : List (Nat × UniqueColumns)}
  {res res' : List (Nat × JobState)} {nextJob nextJob' jobId : Nat} {columns : UniqueColumns}
    {old : Option JobState}
  {new : JobState}

theorem mono (ok : UniqueOk table specs res nextJob) (fewer : ∀ r ∈ res', r ∈ res)
    (known : ∀ x ∈ specs', x ∈ specs) : UniqueOk table specs' res' nextJob where
  keys := ok.keys
  same x mem y mem' := ok.same x (known x mem) y (known y mem')
  bounded x mem := ok.bounded x (known x mem)
  held r mem x here := ok.held r (fewer r mem) x (known x here)

theorem arrive (ok : UniqueOk table specs res nextJob)
    (agree : ∀ x ∈ specs, x.1 = jobId → x.2 = columns)
    (absent : ∀ r ∈ res, r.1 ≠ jobId) (grows : nextJob ≤ nextJob') (below : jobId < nextJob')
    (synced : syncUniqueClaim table jobId columns old (some new) = some table')
    (owned : columns.claims (some .running) = true → columns.claims old = true →
    Owns table jobId columns) (placed : ∀ r ∈ res', r ∈ res ∨ r = (jobId, new))
    (copied : ∀ x ∈ specs', x ∈ specs ∨ x = (jobId, columns)) :
    UniqueOk table' specs' res' nextJob' := by
  have own (x : Nat × UniqueColumns) (here : x ∈ specs') (same : x.1 = jobId) : x.2 = columns := by
    rcases copied x here with earlier | rfl
    · exact agree x earlier same
    · rfl
  have other (x : Nat × UniqueColumns) (here : x ∈ specs') (different : x.1 ≠ jobId) :
      x ∈ specs := by
    rcases copied x here with earlier | rfl
    · exact earlier
    · exact absurd rfl different
  refine ⟨syncUniqueClaim_keys_nodup synced ok.keys, ?_, ?_, ?_⟩
  · intro x here y here' same
    by_cases mine : x.1 = jobId
    · rw [own x here mine, own y here' (same.symm.trans mine)]
    · exact ok.same x (other x here mine) y (other y here' fun its => mine (same.trans its)) same
  · intro x here
    rcases copied x here with earlier | rfl
    · exact Nat.lt_of_lt_of_le (ok.bounded x earlier) grows
    · exact below
  · intro r mem x here same running claiming key keyed
    rcases placed r mem with earlier | rfl
    · have different : x.1 ≠ jobId := fun mine => absent r earlier (same.symm.trans mine)
      exact (mem_syncUniqueClaim_of_ne synced different).2
        (ok.held r earlier x (other x here different) same running claiming key keyed)
    · rw [own x here same] at running claiming keyed
      rw [same]
      exact mem_syncUniqueClaim synced keyed claiming fun before => owned running before key keyed

end UniqueOk

structure CallbacksOk (leases : List LiveLease) (closures : List Attempt)
    (registered : List (Nat × Attempt))
    (retired : List Nat) (resolved : List (Nat × Attempt)) (nextCallback : Nat) : Prop where
  ids : (registered.map Prod.fst).Nodup
  below : ∀ e ∈ registered, e.1 < nextCallback
  retiredBelow : ∀ callbackId ∈ retired, callbackId < nextCallback
  once : (resolved.map Prod.fst).Nodup
  owner : ∀ e ∈ resolved, e ∈ registered
  apart : ∀ callbackId ∈ retired, callbackId ∉ resolved.map Prod.fst
  live : ∀ lease ∈ leases, ∀ callbackId, lease.callbackId = some callbackId →
    (callbackId, lease.attempt) ∈ registered ∧ callbackId ∉ retired ∧
      callbackId ∉ resolved.map Prod.fst
  found : ∀ e ∈ registered, e.2 ∉ closures → e.1 ∉ retired → e.1 ∉ resolved.map Prod.fst →
    ∃ lease ∈ leases, lease.attempt = e.2 ∧ lease.callbackId = some e.1

namespace CallbacksOk
variable {leases leases' : List LiveLease} {closures : List Attempt}
  {registered resolved : List (Nat × Attempt)}
  {retired : List Nat} {nextCallback : Nat} {a : Attempt}

section
variable (ok : CallbacksOk leases closures registered retired resolved nextCallback)
    {callbackId : Nat}
include ok

theorem attempt_eq {l l' : LiveLease}
    (mem : l ∈ leases) (mem' : l' ∈ leases) (here : l.callbackId = some callbackId)
    (here' : l'.callbackId = some callbackId) : l.attempt = l'.attempt :=
  congrArg Prod.snd (inj_on_of_nodup_map ok.ids (ok.live l mem callbackId here).1
    (ok.live l' mem' callbackId here').1 rfl)

theorem close (a : Attempt) :
    CallbacksOk (leases.filter fun lease => lease.attempt ≠ a) (closures ++ [a]) registered retired
      resolved nextCallback where
  __ := ok
  live lease mem := ok.live lease (mem_filter.1 mem).1
  found e mem unclosed current unresolved := by
    obtain ⟨lease, here, attempt, carries⟩ :=
      ok.found e mem (fun closed => unclosed (mem_append_left _ closed)) current unresolved
    have other : lease.attempt ≠ a := fun same => unclosed (by simp [← attempt, same])
    exact ⟨lease, mem_filter.2 ⟨here, decide_eq_true other⟩, attempt, carries⟩

theorem keep (old : ∀ l' ∈ leases', ∃ l ∈ leases, l.attempt = l'.attempt ∧
    l.callbackId = l'.callbackId)
    (new : ∀ l ∈ leases, ∃ l' ∈ leases', l'.attempt = l.attempt ∧ l'.callbackId = l.callbackId) :
    CallbacksOk leases' closures registered retired resolved nextCallback where
  __ := ok
  live l' mem callbackId carries := by
    obtain ⟨l, here, attempt, same⟩ := old l' mem
    exact attempt ▸ ok.live l here callbackId (same.trans carries)
  found e mem unclosed current unresolved := by
    obtain ⟨l, here, attempt, carries⟩ := ok.found e mem unclosed current unresolved
    obtain ⟨l', here', attempt', same⟩ := new l here
    exact ⟨l', here', attempt'.trans attempt, same.trans carries⟩

theorem retire {given : List Nat}
    (carried : ∀ callbackId ∈ given, ∃ l ∈ leases, l.attempt = a ∧ l.callbackId = some callbackId)
    (all : ∀ l ∈ leases, l.attempt = a → ∀ callbackId, l.callbackId = some callbackId →
    callbackId ∈ given) : CallbacksOk (leases.filter fun l => l.attempt ≠ a) closures registered
      (retired ++ given) resolved nextCallback where
  __ := ok
  retiredBelow callbackId mem := by
    rcases mem_append.1 mem with earlier | now
    · exact ok.retiredBelow callbackId earlier
    · obtain ⟨l, here, -, carries⟩ := carried callbackId now
      exact ok.below _ (ok.live l here callbackId carries).1
  apart callbackId mem := by
    rcases mem_append.1 mem with earlier | now
    · exact ok.apart callbackId earlier
    · obtain ⟨l, here, -, carries⟩ := carried callbackId now
      exact (ok.live l here callbackId carries).2.2
  live l' mem callbackId carries := by
    obtain ⟨here, other⟩ := mem_filter.1 mem
    obtain ⟨registered, current, unresolved⟩ := ok.live l' here callbackId carries
    refine ⟨registered, fun now => ?_, unresolved⟩
    rcases mem_append.1 now with earlier | now
    · exact current earlier
    · obtain ⟨l, there, own, same⟩ := carried callbackId now
      exact of_decide_eq_true other ((ok.attempt_eq here there carries same).trans own)
  found e mem unclosed current unresolved := by
    obtain ⟨l, here, attempt, carries⟩ :=
      ok.found e mem unclosed (fun earlier => current (mem_append_left _ earlier)) unresolved
    have other : l.attempt ≠ a := fun own => current (mem_append_right _ (all l here own _ carries))
    exact ⟨l, mem_filter.2 ⟨here, decide_eq_true other⟩, attempt, carries⟩

theorem resolve {lease : LiveLease}
    {closures' : List Attempt} (mem : lease ∈ leases) (carries : lease.callbackId = some callbackId)
    (own : ∀ l ∈ leases, l.attempt = lease.attempt → l = lease)
    (closed : ∀ b ∈ closures, b ∈ closures') :
    CallbacksOk (leases.filter fun l => l.attempt ≠ lease.attempt) closures' registered retired
      (resolved ++ [(callbackId, lease.attempt)]) nextCallback where
  __ := ok
  once := by
    rw [map_append, nodup_append]
    refine ⟨ok.once, by simp, ?_⟩
    intro earlier before new last
    obtain rfl : new = callbackId := by simpa using last
    rintro rfl
    exact (ok.live lease mem _ carries).2.2 before
  owner e here := by
    rcases mem_append.1 here with earlier | now
    · exact ok.owner e earlier
    · rw [mem_singleton.1 now]
      exact (ok.live lease mem _ carries).1
  apart other given resolvedNow := by
    rw [map_append, mem_append] at resolvedNow
    rcases resolvedNow with earlier | now
    · exact ok.apart other given earlier
    · obtain rfl : other = callbackId := by simpa using now
      exact (ok.live lease mem _ carries).2.1 given
  live l' here other same := by
    obtain ⟨kept, different⟩ := mem_filter.1 here
    obtain ⟨registered, current, unresolved⟩ := ok.live l' kept other same
    refine ⟨registered, current, fun resolvedNow => ?_⟩
    rw [map_append, mem_append] at resolvedNow
    rcases resolvedNow with earlier | now
    · exact unresolved earlier
    · obtain rfl : other = callbackId := by simpa using now
      exact of_decide_eq_true different (ok.attempt_eq kept mem same carries)
  found e here unclosed current unresolved := by
    rw [map_append, mem_append, not_or] at unresolved
    obtain ⟨l, kept, attempt, same⟩ := ok.found e here (fun b => unclosed (closed _ b))
      current unresolved.1
    have different : l.attempt ≠ lease.attempt := by
      intro equal
      rw [own l kept equal, carries] at same
      exact unresolved.2 (by simpa using (Option.some_inj.1 same).symm)
    exact ⟨l, mem_filter.2 ⟨kept, decide_eq_true different⟩, attempt, same⟩

theorem insert (new : ∀ l ∈ leases', l ∈ leases ∨ l.callbackId = none)
    (kept : ∀ l ∈ leases, l ∈ leases') :
    CallbacksOk leases' closures registered retired resolved nextCallback where
  __ := ok
  live l mem callbackId carries := by
    rcases new l mem with old | none
    · exact ok.live l old callbackId carries
    · rw [none] at carries
      cases carries
  found e mem unclosed current unresolved := by
    obtain ⟨l, here, carries⟩ := ok.found e mem unclosed current unresolved
    exact ⟨l, kept l here, carries⟩

theorem register
    (new : ∀ l ∈ leases', l ∈ leases ∨ (l.attempt = a ∧ l.callbackId = some nextCallback))
    (kept : ∀ l ∈ leases, l ∈ leases')
    (present : ∃ l ∈ leases', l.attempt = a ∧ l.callbackId = some nextCallback) :
    CallbacksOk leases' closures (registered ++ [(nextCallback, a)]) retired resolved
      (nextCallback + 1) where
  __ := ok
  ids := by
    rw [map_append, nodup_append]
    refine ⟨ok.ids, by simp, ?_⟩
    intro callbackId earlier new last
    obtain ⟨e, mem, rfl⟩ := mem_map.1 earlier
    obtain rfl : new = nextCallback := by simpa using last
    exact Nat.ne_of_lt (ok.below e mem)
  below e mem := by
    rcases mem_append.1 mem with earlier | now
    · exact Nat.lt_succ_of_lt (ok.below e earlier)
    · rw [mem_singleton.1 now]
      exact Nat.lt_succ_self _
  retiredBelow callbackId mem := Nat.lt_succ_of_lt (ok.retiredBelow callbackId mem)
  owner e mem := mem_append_left _ (ok.owner e mem)
  live l mem callbackId carries := by
    rcases new l mem with old | ⟨attempt, fresh⟩
    · exact (ok.live l old callbackId carries).imp_left (mem_append_left _)
    · cases carries.symm.trans fresh
      refine ⟨by simp [attempt], fun earlier => ?_, fun earlier => ?_⟩
      · exact Nat.lt_irrefl _ (ok.retiredBelow _ earlier)
      · obtain ⟨e, mem, same⟩ := mem_map.1 earlier
        exact absurd same (Nat.ne_of_lt (ok.below e (ok.owner e mem)))
  found e mem unclosed current unresolved := by
    rcases mem_append.1 mem with earlier | now
    · obtain ⟨l, here, carries⟩ := ok.found e earlier unclosed current unresolved
      exact ⟨l, kept l here, carries⟩
    · rw [mem_singleton.1 now]
      exact present

end

end CallbacksOk

end AwaQueue
