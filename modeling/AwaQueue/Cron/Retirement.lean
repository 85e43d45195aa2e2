import AwaQueue.Cron.Agreement

/-! When a schedule is retired: reconciliation takes its own owner's schedules only, and one of them
only when the owner's live declarations have left it out for the whole grace period. -/

namespace AwaQueue.Cron

open List Option Library

variable {H : Type} [DecidableEq H]

section
variable {ev ev' : Evidence H} {rows rows' : List CronJobRow} {owner : String} {apply : Bool}
  {p : CronPlan H} {clock : Nat} {row : CronJobRow} {manifest : PeriodicManifest}

theorem syncRows_retired (synced : syncRows owner manifest clock rows = some rows')
    (mem : row ∈ rows') (retired : row.retired.isSome = true) : row ∈ rows := by
  obtain ⟨updated, written, rfl⟩ := syncRows_eq synced
  rcases mem_append.1 mem with old | added
  · rw [updateRows_eq written] at old
    obtain ⟨row', present, rfl⟩ := mem_map.1 old
    obtain same | ⟨hit, same⟩ := fenced_cases false (some owner) (fun row => row.ownerId =
      some owner && row.retired.isNone &&
      row.job ≠ manifest.wanted row) (fun row => { row with job := manifest.wanted row }) row'
    · rw [same]
      exact present
    · rw [same] at retired
      simp only [Bool.and_eq_true] at hit
      rw [isNone_iff_eq_none.1 hit.1.2] at retired
      cases retired
  · obtain ⟨job, -, rfl⟩ := mem_map.1 added
    cases retired

omit [DecidableEq H] in
theorem retireRows_retired (written : retireRows owner p rows = some rows') (mem : row ∈ rows') :
    row ∈ rows ∨ (row.name ∈ p.retirements ∧ row.ownerId = some owner) := by
  rw [updateRows_eq written] at mem
  obtain ⟨old, present, rfl⟩ := mem_map.1 mem
  obtain same | ⟨hit, same⟩ := fenced_cases true none
    (fun row => p.retirements.contains row.name && row.ownerId = some owner && row.retired.isNone)
    (fun row => { row with retired := some ⟨p.now, owner, p.revisions⟩ }) old
  · rw [same]
    exact .inl present
  · rw [same]
    simp only [Bool.and_eq_true, contains_iff_mem, decide_eq_true_eq] at hit
    exact .inr hit.1

theorem PlanEffect.retired (effect : PlanEffect ev rows owner apply p clock ev' rows')
    (mem : row ∈ rows') (retired : row.retired.isSome = true) : row ∈ rows ∨
      (apply = true ∧ p.blockers = [] ∧ p.graceRemainingMs (ev.owner? owner) = 0 ∧
        row.name ∈ p.retirements ∧ row.ownerId = some owner) := by
  cases effect with
  | blocked _ written => exact .inl (written ▸ mem)
  | agreed hash synced free _ definitions _ retirement =>
    have kept : row ∈ synced → row ∈ rows := by
      intro present
      rcases definitions with ⟨-, rfl⟩ | ⟨-, manifest, -, written⟩
      · exact present
      · exact syncRows_retired written present retired
    rcases retirement with rfl | ⟨applies, due, written⟩
    · exact .inl (kept mem)
    · rcases retireRows_retired written mem with old | new
      · exact .inl (kept old)
      · exact .inr ⟨applies, free, due, new⟩

theorem ReadFrom.lasts (read : ReadFrom ev owner p.now p) (live : p.declarations ≠ []) :
    ∃ expiry, p.evidenceUntil = some expiry ∧ p.now < expiry := by
  have some' : p.evidenceUntil ≠ none := by simpa [CronPlan.evidenceUntil] using live
  obtain ⟨expiry, lasts⟩ := ne_none_iff_exists'.1 some'
  refine ⟨expiry, lasts, ?_⟩
  obtain ⟨d, mem, rfl⟩ := mem_map.1 (min?_mem lasts)
  rw [read.declarations] at mem
  obtain ⟨row, -, r, -, -, lives, rfl⟩ := mem_liveDeclarations.1 mem
  simp only [DeclarationRow.livesBy, Bool.and_eq_true, decide_eq_true_eq] at lives
  exact lives.1.2

end

def CronState.AgreedThroughout (s : CronState H) (owner : String) (hash : H) (since now : Nat) :
    Prop :=
  ∀ time, since < time → time ≤ now →
    (∃ ev, (time, ev) ∈ s.moments) ∧ ∀ ev, (time, ev) ∈ s.moments → AgreesOn ev owner hash time

/-- What must be the case for a schedule to be retired by an evaluation: its owner's live
declarations share a manifest without it, no live runtime has another protocol, and this has been so
for the grace of each of them. -/
structure CronState.MayRetire (s : CronState H) (owner : String) (now : Nat) (row : CronJobRow) :
    Prop where
  own : row.ownerId = some owner
  agreed : ∃ hash manifest since, s.evidence.manifest? owner hash = some manifest ∧
    manifest.has row.name = false ∧ AgreesOn s.evidence owner hash now ∧
      (∀ d ∈ s.evidence.liveDeclarations owner now, since + d.graceMs ≤ now) ∧
    s.AgreedThroughout owner hash since now

def CronOp.acting (clients : CronClients) (s : CronState H) : CronOp → Option String
  | beginPublish instanceId _ => (clients instanceId).map fun client => client.1.ownerId
  | beginReconcile owner => some owner
  | scan | finish | abort => s.txn.map CronTxn.owner
  | tick | snapshot _ _ _ | operate _ _ | legacy _ => none

section
variable {clients : CronClients} {hash : PeriodicManifest → H} {s t : CronState H} {op : CronOp}
  {owner : String} {txn : CronTxn H} {row : CronJobRow} {start : Nat}

theorem AgreementInv.mayRetire (inv : AgreementInv clients start s) (running : s.txn = some txn)
    {p : CronPlan H}
    (planned : txn.plan = some p) (applies : txn.apply = true) (free : p.blockers = [])
    (due : p.graceRemainingMs (txn.evidence.owner? txn.owner) = 0)
    (listed : row.name ∈ p.retirements)
    (own : row.ownerId = some txn.owner) : s.MayRetire txn.owner p.now row := by
  have ok := inv.txn txn running
  have read := ok.plan p planned
  obtain ⟨h, manifest, desired, known, absent⟩ := read.retirements row.name listed
  obtain ⟨expiry, lasts, beyond⟩ := read.lasts (CronPlan.blockers_eq_nil.1 free).2.1
  have holds := inv.agreed running planned free desired lasts
  have agrees := read.agrees free desired
  have declarations := read.declarations
  have stamp := stamp_planned running planned
  rw [CronPlan.graceRemainingMs] at due
  rw [ok.reconciles applies] at known agrees declarations
  have past : p.agreedSince (txn.evidence.owner? txn.owner) ≤ p.now := stamp ▸ holds.past
  refine ⟨own, h, manifest, p.agreedSince (txn.evidence.owner? txn.owner), known, absent,
    agrees, ?_, ?_⟩
  · intro d live
    rw [← declarations] at live
    have grace := p.le_graceMs live
    omega
  · intro time after before
    refine ⟨inv.line.covered time (holds.began.trans after.le) (stamp ▸ before), ?_⟩
    intro ev recorded
    exact holds.recorded (time, ev) recorded after (before.trans_lt beyond)

/-- The steps of a publication or reconciliation change no schedule of another owner or of nobody,
and they retire a schedule only at the end of a reconciliation and when its owner has done without
it for long enough. -/
theorem reconciliation_keeps_to_owner (reached : (cronMachine clients hash).Reachable
    Machine.Always s) (stepped : (cronMachine clients hash).step op s = some t)
    (acting : op.acting clients s = some owner) :
    ChangesOwn owner s.rows t.rows ∧ ∀ row ∈ t.rows, row.retired.isSome = true → row ∈ s.rows ∨
      ∃ txn p, s.txn = some txn ∧ txn.apply = true ∧ txn.plan = some p ∧
        s.MayRetire owner p.now row := by
  obtain ⟨start, inv⟩ := agreementInv_reachable reached
  have unchanged : t.rows = s.rows → ChangesOwn owner s.rows t.rows ∧
      ∀ row ∈ t.rows, row.retired.isSome = true → row ∈ s.rows ∨ ∃ txn p, s.txn = some txn ∧
        txn.apply = true ∧ txn.plan = some p ∧ s.MayRetire owner p.now row := by
    intro same
    rw [same]
    exact ⟨.refl owner s.rows, fun row member _ => .inl member⟩
  cases op with
  | beginPublish instanceId snapshot =>
    obtain ⟨-, stepped⟩ := Option.ite_none_right_eq_some.1 stepped
    obtain ⟨client, -, stepped⟩ := bind_eq_some_iff.1 stepped
    obtain ⟨ev, -, rfl⟩ := map_eq_some_iff.1 stepped
    exact unchanged rfl
  | beginReconcile =>
    obtain ⟨-, rfl⟩ := guard_eq_some stepped
    exact unchanged rfl
  | scan =>
    obtain ⟨txn, -, stepped⟩ := bind_eq_some_iff.1 stepped
    obtain ⟨-, stepped⟩ := Option.ite_none_right_eq_some.1 stepped
    obtain ⟨p, -, rfl⟩ := map_eq_some_iff.1 stepped
    rw [observe_planned (p := p) rfl rfl] at unchanged ⊢
    exact unchanged rfl
  | finish =>
    obtain ⟨txn, running, stepped⟩ := bind_eq_some_iff.1 stepped
    obtain ⟨p, planned, stepped⟩ := bind_eq_some_iff.1 stepped
    obtain ⟨result, applied, rfl⟩ := map_eq_some_iff.1 stepped
    have effect := applyPlan_effect applied
    have ok := inv.txn txn running
    obtain rfl : txn.owner = owner := by
      rw [CronOp.acting, running, Option.map_some] at acting
      exact Option.some_inj.1 acting
    refine ⟨(ChangesOwn.append fun row member => (ok.inserted row member).1).trans effect.own, ?_⟩
    intro row member retired
    obtain old | ⟨applies, free, due, listed, own⟩ := effect.retired member retired
    · rcases List.mem_append.1 old with present | inserted
      · exact .inl present
      · rw [(ok.inserted row inserted).2] at retired
        cases retired
    · exact .inr ⟨txn, p, running, applies, planned,
        inv.mayRetire running planned applies free due listed own⟩
  | abort =>
    obtain ⟨txn, -, rfl⟩ := map_eq_some_iff.1 stepped
    exact unchanged rfl
  | tick | snapshot | operate | legacy => cases acting

end

/-- A rolling deploy of `billing`: instance 2 no longer has the schedule of instance 1. -/
def deployClients : CronClients
  | 1 => some (⟨"billing", "r1", 2⟩, reportManifest)
  | 2 => some (⟨"billing", "r2", 2⟩, ⟨[], List.nodup_nil⟩)
  | _ => none

/-- Instance 1 installs the schedule and shuts down, instance 2 takes its place, and the grace
passes. -/
def deployOps : List CronOp :=
  [.beginPublish 1 (some ⟨0, 1000, false⟩), .scan, .finish, .beginPublish 1 (some ⟨0, 1000, true⟩),
    .scan, .finish, .beginPublish 2 (some ⟨0, 1000, false⟩), .scan, .finish, .tick, .tick,
      .beginReconcile "billing", .scan]

theorem reconciliation_keeps_to_owner_deploy :
    ∃ (s t : CronState PeriodicManifest) (row : CronJobRow),
    (cronMachine deployClients id).Reachable Machine.Always s ∧
    (cronMachine deployClients id).step .finish s = some t ∧
    row ∈ t.rows ∧ row.retired.isSome = true ∧
    ∃ txn p, s.txn = some txn ∧ txn.apply = true ∧ txn.plan = some p ∧
      s.MayRetire "billing" p.now row := by
  obtain ⟨s, reached, hit⟩ := Machine.reachable_of_run (cronMachine deployClients id) Machine.Always
    (s := freshCron) deployOps (fun s => (CronOp.finish.acting deployClients s = some "billing") &&
        (cronStep deployClients id .finish s).any fun t =>
      t.rows.any fun row => row.retired.isSome && !s.rows.contains row) ⟨by decide, rfl, rfl,
        rfl⟩ (by decide)
  obtain ⟨acting, retires⟩ := Bool.and_eq_true_iff.1 hit
  cases stepped : cronStep deployClients id .finish s with
  | none =>
    rw [stepped] at retires
    cases retires
  | some t =>
    rw [stepped, Option.any_some] at retires
    obtain ⟨row, member, new⟩ := List.any_eq_true.1 retires
    obtain ⟨retired, fresh⟩ := Bool.and_eq_true_iff.1 new
    refine ⟨s, t, row, reached, stepped, member, retired, ?_⟩
    have safe := reconciliation_keeps_to_owner (t := t) reached
      (show (cronMachine deployClients id).step .finish s = some t from stepped)
      (of_decide_eq_true acting)
    rcases safe.2 row member retired with old | justified
    · simp [old] at fresh
    · exact justified

end AwaQueue.Cron
