import AwaQueue.Cron.Certificate

/-! What the agreement of an owner's row means.

The row remembers since when the owner's live declarations have agreed on one hash and until when
that evidence lasts. Until its next evaluation this evidence can only run out, and whatever could
break the agreement unseen ends it, so the row speaks of every moment in between. -/

namespace AwaQueue.Cron

open List Option Library

variable {H : Type}

section
variable {ev ev' : Evidence H} {owner : String} {now time : Nat} {d : CronDeclaration H} {hash : H}
  {row : DeclarationRow H}

theorem mem_liveDeclarations : d ∈ ev.liveDeclarations owner now ↔
    ∃ row ∈ ev.declarations, ∃ r ∈ ev.runtimes, row.ownerId = owner ∧ row.livesBy r now = true ∧
      d = row.declaration r := by
  simp only [Evidence.liveDeclarations, mem_flatMap, mem_filterMap, ite_none_right_eq_some,
    some_inj]
  constructor
  · rintro ⟨row, declared, r, present, ⟨own, lives⟩, rfl⟩
    exact ⟨row, declared, r, present, own, lives, rfl⟩
  · rintro ⟨row, declared, r, present, own, lives, rfl⟩
    exact ⟨row, declared, r, present, ⟨own, lives⟩, rfl⟩

theorem blockingInstances_eq_nil :
    ev.blockingInstances now = [] ↔ ∀ r ∈ ev.runtimes, r.blocks now = false := by
  simp [Evidence.blockingInstances, filter_eq_nil_iff]

structure AgreesOn (ev : Evidence H) (owner : String) (hash : H) (now : Nat) : Prop where
  live : ev.liveDeclarations owner now ≠ []
  shared : ∀ d ∈ ev.liveDeclarations owner now, d.desiredHash = hash
  known : ev.blockingInstances now = []

theorem livesBy_later {r : RuntimeInstance} (after : now ≤ time)
    (lives : row.livesBy r time = true) : row.livesBy r now = true := by
  simp only [DeclarationRow.livesBy, Bool.and_eq_true, decide_eq_true_eq] at lives ⊢
  exact ⟨⟨lives.1.1, lives.1.2.trans_le' after⟩, lives.2⟩

/-- Agreement lasts until the first declaration expires. -/
theorem AgreesOn.later (agrees : AgreesOn ev owner hash now) (after : now ≤ time)
    (unexpired : ∀ d ∈ ev.liveDeclarations owner now, time < d.expiresAt) :
    AgreesOn ev owner hash time where
  live := by
    obtain ⟨d, mem⟩ := exists_mem_of_ne_nil _ agrees.live
    obtain ⟨row, declared, r, present, own, lives, rfl⟩ := mem_liveDeclarations.1 mem
    have still : row.livesBy r time = true := by
      have lasts := unexpired _ mem
      simp only [DeclarationRow.livesBy, Bool.and_eq_true, decide_eq_true_eq] at lives ⊢
      exact ⟨⟨lives.1.1, lasts⟩, lives.2⟩
    exact ne_nil_of_mem (mem_liveDeclarations.2 ⟨row, declared, r, present, own, still, rfl⟩)
  shared d mem := by
    obtain ⟨row, declared, r, present, own, lives, rfl⟩ := mem_liveDeclarations.1 mem
    exact agrees.shared _ (mem_liveDeclarations.2 ⟨row, declared, r, present, own,
      livesBy_later after lives, rfl⟩)
  known := by
    rw [blockingInstances_eq_nil]
    intro r present
    have before := blockingInstances_eq_nil.1 agrees.known r present
    simp only [RuntimeInstance.blocks, Bool.and_eq_false_iff, decide_eq_false_iff_not] at before ⊢
    exact before.imp_left fun expired alive => expired (alive.trans_le' after)

/-- Tables in which the declarations of an owner live as before and no runtime of another protocol
is new. -/
structure Unmoved (owner : String) (ev ev' : Evidence H) : Prop where
  live : ∀ now d, d ∈ ev'.liveDeclarations owner now ↔ d ∈ ev.liveDeclarations owner now
  known : ∀ now, ev.blockingInstances now = [] → ev'.blockingInstances now = []

theorem Unmoved.of_eq (declarations : ev'.declarations = ev.declarations)
    (runtimes : ev'.runtimes = ev.runtimes) : Unmoved owner ev ev' := by
  constructor
  · intro now d
    rw [mem_liveDeclarations, mem_liveDeclarations, declarations, runtimes]
  · intro now known
    rw [Evidence.blockingInstances, runtimes]
    exact known

theorem Unmoved.trans {mid : Evidence H} (first : Unmoved owner ev mid)
    (second : Unmoved owner mid ev') : Unmoved owner ev ev' where
  live now d := (second.live now d).trans (first.live now d)
  known now known := second.known now (first.known now known)

theorem AgreesOn.transfer (agrees : AgreesOn ev owner hash now) (unmoved : Unmoved owner ev ev') :
    AgreesOn ev' owner hash now where
  live := by
    obtain ⟨d, mem⟩ := exists_mem_of_ne_nil _ agrees.live
    exact ne_nil_of_mem ((unmoved.live now d).2 mem)
  shared d mem := agrees.shared d ((unmoved.live now d).1 mem)
  known := unmoved.known now agrees.known

theorem upsertRuntime_unmoved {row : RuntimeInstance}
    (known : row.cronProtocol = some cronProtocolVersion)
    (apart : ∀ d ∈ ev.declarations, d.ownerId = owner → d.instanceId ≠ row.instanceId) :
    Unmoved owner ev (ev.upsertRuntime row) := by
  have written : ev.upsertRuntime row =
      { ev with runtimes := (ev.runtimes.filter fun r => r.instanceId ≠ row.instanceId) ++
        [row] } := by
    simp only [Evidence.upsertRuntime, if_pos known]
  rw [written]
  constructor
  · intro now d
    rw [mem_liveDeclarations, mem_liveDeclarations]
    constructor
    · rintro ⟨declaration, declared, r, present, own, lives, rfl⟩
      rcases mem_append.1 present with old | new
      · exact ⟨declaration, declared, r, (mem_filter.1 old).1, own, lives, rfl⟩
      · rw [mem_singleton.1 new] at lives
        simp only [DeclarationRow.livesBy, Bool.and_eq_true, decide_eq_true_eq] at lives
        exact absurd lives.1.1.symm (apart declaration declared own)
    · rintro ⟨declaration, declared, r, present, own, lives, rfl⟩
      have joined : r.instanceId = declaration.instanceId := by
        simp only [DeclarationRow.livesBy, Bool.and_eq_true, decide_eq_true_eq] at lives
        exact lives.1.1
      have other : r.instanceId ≠ row.instanceId := joined ▸ apart declaration declared own
      exact ⟨declaration, declared, r, mem_append_left _
        (mem_filter.2 ⟨present, by simpa using other⟩), own, lives, rfl⟩
  · intro now free
    rw [blockingInstances_eq_nil] at free ⊢
    intro r present
    rcases mem_append.1 present with old | new
    · exact free r (mem_filter.1 old).1
    · rw [mem_singleton.1 new]
      simp [RuntimeInstance.blocks, known]

theorem upsertDeclaration_unmoved (foreign : row.ownerId ≠ owner)
    (apart : ∀ d ∈ ev.declarations, d.ownerId = owner → d.instanceId ≠ row.instanceId) :
    Unmoved owner ev (ev.upsertDeclaration row) := by
  refine ⟨?_, fun _ known => known⟩
  intro now d
  rw [mem_liveDeclarations, mem_liveDeclarations]
  constructor
  · rintro ⟨declaration, declared, r, present, own, lives, rfl⟩
    rcases mem_append.1 declared with old | new
    · exact ⟨declaration, (mem_filter.1 old).1, r, present, own, lives, rfl⟩
    · rw [mem_singleton.1 new] at own
      exact absurd own foreign
  · rintro ⟨declaration, declared, r, present, own, lives, rfl⟩
    have other := apart declaration declared own
    exact ⟨declaration, mem_append_left _ (mem_filter.2 ⟨declared, by simpa using other⟩), r,
      present, own, lives, rfl⟩

end

def CronOwner.Agreement (o : CronOwner H) (hash : H) (since expiry : Nat) : Prop :=
  o.agreedHash = some hash ∧ o.agreedSince = some since ∧ o.evidenceUntil = some expiry

def Declares (clients : CronClients) (ev : Evidence H) : Prop :=
  ∀ d ∈ ev.declarations, ∃ client, clients d.instanceId = some client ∧ d.ownerId = client.1.ownerId

/-- What an agreement says: it was true at the recorded moments since, and stays true from a moment
on until it expires. -/
structure Holds (start : Nat) (moments : List (Nat × Evidence H)) (first : Nat) (ev : Evidence H)
    (owner : String) (hash : H) (since expiry : Nat) : Prop where
  began : start ≤ since
  past : since ≤ first
  recorded : ∀ moment ∈ moments, since < moment.1 → moment.1 < expiry →
    AgreesOn moment.2 owner hash moment.1
  lasts : ∀ time, first ≤ time → time < expiry → AgreesOn ev owner hash time

def Truthful (start : Nat) (moments : List (Nat × Evidence H)) (first : Nat) (ev : Evidence H) :
    Prop :=
  ∀ o ∈ ev.owners, ∀ hash since expiry, o.Agreement hash since expiry →
    Holds start moments first ev o.ownerId hash since expiry

/-- The tables have no new agreements, and the declarations behind those that they keep are unmoved,
except those of the owner that a transaction acts for. -/
def Carries (acting : Option String) (ev ev' : Evidence H) : Prop :=
  ∀ o ∈ ev'.owners, ∀ hash since expiry, o.Agreement hash since expiry →
    o ∈ ev.owners ∧ (acting ≠ some o.ownerId → Unmoved o.ownerId ev ev')

section
variable {ev ev' : Evidence H} {moments : List (Nat × Evidence H)} {start first later : Nat}
  {acting : Option String}
  {owner : String} {clients : CronClients} {hash : PeriodicManifest → H} {instanceId : Nat}
  {client : PeriodicReconciliation × PeriodicManifest} {row : RuntimeInstance}

theorem Holds.transfer {h : H} {since expiry : Nat}
    (holds : Holds start moments first ev owner h since expiry)
    (unmoved : Unmoved owner ev ev') : Holds start moments first ev' owner h since expiry where
  __ := holds
  lasts time reached unexpired := (holds.lasts time reached unexpired).transfer unmoved

theorem Truthful.carries (true' : Truthful start moments first ev) (carries : Carries none ev ev') :
    Truthful start moments first ev' := by
  intro o mem h since expiry agreement
  obtain ⟨old, unmoved⟩ := carries o mem h since expiry agreement
  exact (true' o old h since expiry agreement).transfer (unmoved (some_ne_none _).symm)

theorem Truthful.mono (true' : Truthful start moments first ev) (after : first ≤ later) :
    Truthful start moments later ev := by
  intro o mem h since expiry agreement
  have holds := true' o mem h since expiry agreement
  exact ⟨holds.began, holds.past.trans after, holds.recorded,
    fun time reached => holds.lasts time (after.trans reached)⟩

theorem Truthful.note (true' : Truthful start moments first ev) (times : List Nat)
    (late : ∀ time ∈ times, first ≤ time) :
    Truthful start (moments ++ times.map fun time => (time, ev)) first ev := by
  intro o mem h since expiry agreement
  have holds := true' o mem h since expiry agreement
  refine ⟨holds.began, holds.past, ?_, holds.lasts⟩
  intro moment listed after unexpired
  rcases mem_append.1 listed with old | new
  · exact holds.recorded moment old after unexpired
  · obtain ⟨time, within, rfl⟩ := mem_map.1 new
    exact holds.lasts time (late time within) unexpired

theorem Carries.refl (acting : Option String) (ev : Evidence H) : Carries acting ev ev :=
  fun _ mem _ _ _ _ => ⟨mem, fun _ => .of_eq rfl rfl⟩

theorem Carries.trans {mid : Evidence H} (first : Carries acting ev mid)
    (second : Carries acting mid ev') : Carries acting ev ev' := by
  intro o mem h since expiry agreement
  obtain ⟨present, unmoved⟩ := second o mem h since expiry agreement
  obtain ⟨old, before⟩ := first o present h since expiry agreement
  exact ⟨old, fun other => (before other).trans (unmoved other)⟩

theorem Carries.of_owners (owners : ev'.owners = ev.owners)
    (unmoved : ∀ owner, acting ≠ some owner → Unmoved owner ev ev') : Carries acting ev ev' := by
  intro o mem h since expiry _
  rw [owners] at mem
  exact ⟨mem, unmoved o.ownerId⟩

theorem insertOwner_carries : Carries acting ev (ev.insertOwner owner) := by
  unfold Evidence.insertOwner
  split
  · exact .refl acting ev
  · intro o mem h since expiry agreement
    rcases mem_append.1 mem with old | new
    · exact ⟨old, fun _ => .of_eq rfl rfl⟩
    · rw [mem_singleton.1 new] at agreement
      cases agreement.1

theorem insertManifest_carries [DecidableEq H] (row : ManifestRow H) :
    Carries acting ev (ev.insertManifest row) := by
  unfold Evidence.insertManifest
  split
  · exact .refl acting ev
  · exact .of_owners rfl fun _ _ => .of_eq rfl rfl

theorem updateOwners_carries {matched : CronOwner H → Bool} {set : CronOwner H → CronOwner H}
    (ends : ∀ o, (set o).agreedSince = none) : Carries acting ev (ev.updateOwners matched set) := by
  intro o' mem h since expiry agreement
  obtain ⟨o, present, rfl⟩ := mem_map.1 mem
  split at agreement
  · rw [CronOwner.Agreement, ends] at agreement
    cases agreement.2.1
  next out =>
    rw [if_neg out]
    exact ⟨present, fun _ => .of_eq rfl rfl⟩

theorem Declares.apart (declares : Declares clients ev)
    (configured : clients instanceId = some client) (other : client.1.ownerId ≠ owner) :
    ∀ d ∈ ev.declarations, d.ownerId = owner → d.instanceId ≠ instanceId := by
  rintro d mem own rfl
  obtain ⟨client', configured', same⟩ := declares d mem
  cases configured.symm.trans configured'
  exact other (same.symm.trans own)

theorem Declares.of_eq (declares : Declares clients ev)
    (same : ev'.declarations = ev.declarations) : Declares clients ev' := by
  rw [Declares, same]
  exact declares

theorem insertOwner_declarations : (ev.insertOwner owner).declarations = ev.declarations := by
  unfold Evidence.insertOwner
  split <;> rfl

theorem insertManifest_declarations [DecidableEq H] (row : ManifestRow H) :
    (ev.insertManifest row).declarations = ev.declarations := by
  unfold Evidence.insertManifest
  split <;> rfl

theorem upsertRuntime_declarations (row : RuntimeInstance) :
    (ev.upsertRuntime row).declarations = ev.declarations := by
  simp only [Evidence.upsertRuntime]
  split <;> rfl

theorem upsertRuntime_owners (known : row.cronProtocol = some cronProtocolVersion) :
    (ev.upsertRuntime row).owners = ev.owners := by
  simp only [Evidence.upsertRuntime, if_pos known]

theorem upsertRuntime_carries (declares : Declares clients ev)
    (unconfigured : row.cronProtocol = some cronProtocolVersion → clients row.instanceId = none) :
    Carries none ev (ev.upsertRuntime row) := by
  by_cases known : row.cronProtocol = some cronProtocolVersion
  · refine .of_owners (upsertRuntime_owners known) fun owner _ => upsertRuntime_unmoved known ?_
    rintro d mem - same
    obtain ⟨client, configured, -⟩ := declares d mem
    rw [same, unconfigured known] at configured
    cases configured
  · simp only [Evidence.upsertRuntime, if_neg known]
    intro o' mem h since expiry agreement
    obtain ⟨o, present, rfl⟩ := mem_map.1 mem
    cases agreement.2.1

theorem publishEvidence_declares [DecidableEq H] (declares : Declares clients ev)
    (configured : clients instanceId = some client) (clock : Nat) :
    Declares clients (publishEvidence hash ev instanceId client.1 client.2 clock) := by
  intro d mem
  rcases mem_append.1 mem with old | new
  · have present := (mem_filter.1 old).1
    rw [insertManifest_declarations, insertOwner_declarations] at present
    exact declares d present
  · rw [mem_singleton.1 new]
    exact ⟨client, configured, rfl⟩

theorem publishEvidence_carries [DecidableEq H] (declares : Declares clients ev)
    (configured : clients instanceId = some client) (clock : Nat) :
    Carries (some client.1.ownerId) ev (publishEvidence hash ev instanceId client.1
      client.2 clock) := by
  refine (insertOwner_carries.trans (insertManifest_carries _)).trans (.of_owners rfl ?_)
  intro owner other
  have foreign : client.1.ownerId ≠ owner := fun same => other (congrArg some same)
  refine upsertDeclaration_unmoved foreign (Declares.apart (declares.of_eq ?_) configured foreign)
  rw [insertManifest_declarations, insertOwner_declarations]

end

section
variable {ev : Evidence H} {rows : List CronJobRow} {owner : String} {apply : Bool} {now : Nat}
  {p : CronPlan H} {hash : H} {d : CronDeclaration H}

theorem sharedHash_eq_some [DecidableEq H] {ds : List (CronDeclaration H)}
    (shared : sharedHash ds = some hash) : ds ≠ [] ∧ ∀ d ∈ ds, d.desiredHash = hash := by
  cases ds with
  | nil => cases shared
  | cons d rest =>
    obtain ⟨same, rfl⟩ := guard_eq_some shared
    refine ⟨cons_ne_nil d rest, forall_mem_cons.2 ⟨rfl, ?_⟩⟩
    simpa using same

theorem CronPlan.evidenceUntil_le {expiry : Nat} (first : p.evidenceUntil = some expiry)
    (mem : d ∈ p.declarations) : expiry ≤ d.expiresAt :=
  (min?_eq_some_iff.1 first).2 _ (mem_map_of_mem mem)

theorem CronPlan.le_graceMs (mem : d ∈ p.declarations) : d.graceMs ≤ p.graceMs := by
  unfold CronPlan.graceMs
  generalize p.declarations = ds at mem
  induction ds with
  | nil => cases mem
  | cons e rest ih =>
    rw [map_cons, foldr_cons]
    rcases mem_cons.1 mem with rfl | later
    · exact le_max_left _ _
    · exact (ih later).trans (le_max_right _ _)

structure ReadFrom [DecidableEq H] (ev : Evidence H) (owner : String) (now : Nat) (p : CronPlan H) :
    Prop where
  moment : p.now = now
  declarations : p.declarations = ev.liveDeclarations owner now
  blocking : p.blockingInstances = ev.blockingInstances now
  desired : p.desiredHash = sharedHash p.declarations
  retirements : ∀ name ∈ p.retirements, ∃ h manifest, p.desiredHash = some h ∧
    ev.manifest? owner h = some manifest ∧ manifest.has name = false

theorem readPlan_from [DecidableEq H] (read : readPlan ev rows owner apply now = some p) :
    ReadFrom ev owner now p := by
  simp only [readPlan] at read
  split at read
  · cases read
    exact ⟨rfl, rfl, rfl, rfl, forall_mem_nil _⟩
  next h shared =>
    split at read
    · obtain ⟨manifest, known, rfl⟩ := map_eq_some_iff.1 read
      refine ⟨rfl, rfl, rfl, rfl, ?_⟩
      intro name retired
      obtain ⟨row, mem, rfl⟩ := mem_map.1 retired
      have absent := (mem_filter.1 mem).2
      simp only [Bool.and_eq_true, Bool.not_eq_eq_eq_not, Bool.not_true] at absent
      exact ⟨h, manifest, shared, known, absent.2⟩
    · split at read <;> cases read <;> exact ⟨rfl, rfl, rfl, rfl, forall_mem_nil _⟩

theorem ReadFrom.agrees [DecidableEq H] (from' : ReadFrom ev owner now p) (free : p.blockers = [])
    (desired : p.desiredHash = some hash) : AgreesOn ev owner hash now := by
  have shared := sharedHash_eq_some (from'.desired.symm.trans desired)
  rw [from'.declarations] at shared
  exact ⟨shared.1, shared.2, from'.blocking.symm.trans (CronPlan.blockers_eq_nil.1 free).1⟩

end

def CronState.stamp (s : CronState H) : Nat := (s.txn.bind CronTxn.plan).elim s.clock CronPlan.now

structure Timeline (start : Nat) (s : CronState H) : Prop where
  start_le : start ≤ s.stamp
  stamp_le : s.stamp ≤ s.clock
  past : ∀ moment ∈ s.moments, moment.1 ≤ s.stamp
  covered : ∀ time, start ≤ time → time ≤ s.stamp → ∃ ev, (time, ev) ∈ s.moments
  times : ∀ txn p, s.txn = some txn → txn.plan = some p → ∀ time, time ∈ txn.times ↔ p.now ≤ time ∧
    time ≤ s.clock
  fresh : ∀ txn, s.txn = some txn → txn.plan = none → txn.times = []

section
variable {clients : CronClients} {hash : PeriodicManifest → H} {start : Nat} {s t : CronState H}
  {txn : CronTxn H} {op : CronOp} {p : CronPlan H}

theorem observe_unplanned (unplanned : s.txn.bind CronTxn.plan = none) :
    s.observe = { s with moments := s.moments ++ [(s.clock, s.evidence)] } := by
  unfold CronState.observe
  split
  next txn running =>
    rw [running, bind_some] at unplanned
    rw [unplanned]
    rfl
  next => rfl

theorem observe_planned (running : s.txn = some txn) (planned : txn.plan = some p) :
    s.observe = { s with txn := some { txn with times := txn.times ++ [s.clock] } } := by
  simp only [CronState.observe, running, planned, isSome_some, if_true]

theorem stamp_unplanned (unplanned : s.txn.bind CronTxn.plan = none) : s.stamp = s.clock := by
  rw [CronState.stamp, unplanned, elim_none]

theorem stamp_planned (running : s.txn = some txn) (planned : txn.plan = some p) :
    s.stamp = p.now := by
  rw [CronState.stamp, running, bind_some, planned, elim_some]

theorem unplanned_of_idle (idle : s.txn.isNone = true) : s.txn.bind CronTxn.plan = none := by
  rw [isNone_iff_eq_none.1 idle, bind_none]

theorem Timeline.unplanned (unplanned : t.txn.bind CronTxn.plan = none) (start_le : start ≤ t.clock)
    (past : ∀ moment ∈ t.moments, moment.1 ≤ t.clock)
    (covered : ∀ time, start ≤ time → time ≤ t.clock → ∃ ev, (time, ev) ∈ t.moments)
    (fresh : ∀ txn, t.txn = some txn → txn.times = []) : Timeline start t where
  start_le := by rw [stamp_unplanned unplanned]; exact start_le
  stamp_le := by rw [stamp_unplanned unplanned]
  past := by rw [stamp_unplanned unplanned]; exact past
  covered := by rw [stamp_unplanned unplanned]; exact covered
  times txn p running planned := by
    rw [running, bind_some, planned] at unplanned
    cases unplanned
  fresh txn running _ := fresh txn running

theorem Timeline.planned (running : t.txn = some txn) (planned : txn.plan = some p)
    (start_le : start ≤ p.now)
    (now_le : p.now ≤ t.clock) (past : ∀ moment ∈ t.moments, moment.1 ≤ p.now)
    (covered : ∀ time, start ≤ time → time ≤ p.now → ∃ ev, (time, ev) ∈ t.moments)
    (times : ∀ time, time ∈ txn.times ↔ p.now ≤ time ∧ time ≤ t.clock) : Timeline start t where
  start_le := by rw [stamp_planned running planned]; exact start_le
  stamp_le := by rw [stamp_planned running planned]; exact now_le
  past := by rw [stamp_planned running planned]; exact past
  covered := by rw [stamp_planned running planned]; exact covered
  times txn' p' same same' := by
    cases running.symm.trans same
    cases planned.symm.trans same'
    exact times
  fresh txn' same none := by
    cases running.symm.trans same
    cases planned.symm.trans none

theorem Timeline.note (line : Timeline start s) (unplanned : s.txn.bind CronTxn.plan = none)
    (txn : t.txn = s.txn) (clock : t.clock = s.clock ∨ t.clock = s.clock + 1) {ev : Evidence H}
    (moments : t.moments = s.moments ++ [(t.clock, ev)]) : Timeline start t := by
  have stamp := stamp_unplanned unplanned
  have monotone : s.clock ≤ t.clock := by omega
  apply Timeline.unplanned
  · rw [txn]
    exact unplanned
  · exact (stamp ▸ line.start_le).trans monotone
  · intro moment listed
    rw [moments] at listed
    rcases mem_append.1 listed with old | new
    · exact (stamp ▸ line.past moment old).trans monotone
    · rw [mem_singleton.1 new]
  · intro time after before
    rw [moments]
    by_cases last : time = t.clock
    · exact ⟨ev, mem_append_right _ (by simp [last])⟩
    · obtain ⟨ev', old⟩ := line.covered time after (by omega)
      exact ⟨ev', mem_append_left _ old⟩
  · intro running same
    rw [txn] at same
    apply line.fresh running same
    rw [same, bind_some] at unplanned
    exact unplanned

theorem Timeline.opened (line : Timeline start s) (idle : s.txn.isNone = true)
    (plan : txn.plan = none) (times : txn.times = []) :
    Timeline start { s with txn := some txn } := by
  have stamp := stamp_unplanned (unplanned_of_idle idle)
  apply Timeline.unplanned
  · exact plan
  · exact stamp ▸ line.start_le
  · exact stamp ▸ line.past
  · exact stamp ▸ line.covered
  · rintro _ ⟨⟩
    exact times

theorem Timeline.settle (line : Timeline start s) (running : s.txn = some txn) (ev : Evidence H)
    (rows : List CronJobRow) : Timeline start (s.settle txn ev rows) := by
  have within : ∀ time ∈ txn.times, time ≤ s.clock := by
    intro time listed
    cases planned : txn.plan with
    | none =>
      rw [line.fresh txn running planned] at listed
      cases listed
    | some p => exact ((line.times txn p running planned time).1 listed).2
  apply Timeline.unplanned
  · rfl
  · exact line.start_le.trans line.stamp_le
  · intro moment listed
    rcases mem_append.1 listed with old | new
    · exact (line.past moment old).trans line.stamp_le
    · obtain ⟨time, since, rfl⟩ := mem_map.1 new
      exact within time since
  · intro time after before
    by_cases settled : time ≤ s.stamp
    · obtain ⟨ev', old⟩ := line.covered time after settled
      exact ⟨ev', mem_append_left _ old⟩
    · refine ⟨ev, mem_append_right _ (mem_map.2 ⟨time, ?_, rfl⟩)⟩
      have recent := Nat.not_le.1 settled
      cases planned : txn.plan with
      | none =>
        rw [stamp_unplanned (by rw [running, bind_some, planned])] at recent
        exact absurd before (Nat.not_le.2 recent)
      | some p =>
        rw [stamp_planned running planned] at recent
        exact (line.times txn p running planned time).2 ⟨recent.le, before⟩
  · rintro _ ⟨⟩

theorem timeline_step [DecidableEq H] (line : Timeline start s)
    (step : cronStep clients hash op s = some t) : Timeline start t := by
  cases op with
  | tick =>
    cases step
    cases evaluated : s.txn.bind CronTxn.plan with
    | none =>
      rw [observe_unplanned (s := { s with clock := s.clock + 1 }) evaluated]
      exact line.note evaluated rfl (.inr rfl) rfl
    | some p =>
      obtain ⟨txn, running, planned⟩ := bind_eq_some_iff.1 evaluated
      rw [observe_planned (s := { s with clock := s.clock + 1 }) running planned]
      have stamp := stamp_planned running planned
      have reached : p.now ≤ s.clock := stamp ▸ line.stamp_le
      refine .planned rfl planned (stamp ▸ line.start_le) (reached.trans (Nat.le_succ _))
        (stamp ▸ line.past) (stamp ▸ line.covered) ?_
      intro time
      change time ∈ txn.times ++ [s.clock + 1] ↔ p.now ≤ time ∧ time ≤ s.clock + 1
      rw [mem_append, line.times txn p running planned, mem_singleton]
      omega
  | snapshot instanceId cronProtocol snapshot =>
    obtain ⟨⟨idle, -⟩, rfl⟩ := guard_eq_some step
    rw [observe_unplanned]
    · exact line.note (unplanned_of_idle idle) rfl (.inl rfl) rfl
    · exact unplanned_of_idle idle
  | beginPublish instanceId snapshot =>
    obtain ⟨idle, step⟩ := ite_none_right_eq_some.1 step
    obtain ⟨client, -, step⟩ := bind_eq_some_iff.1 step
    obtain ⟨ev, -, rfl⟩ := map_eq_some_iff.1 step
    exact line.opened idle rfl rfl
  | beginReconcile owner =>
    obtain ⟨idle, rfl⟩ := guard_eq_some step
    exact line.opened idle rfl rfl
  | scan =>
    obtain ⟨txn, running, step⟩ := bind_eq_some_iff.1 step
    obtain ⟨unread, step⟩ := ite_none_right_eq_some.1 step
    obtain ⟨p, read, rfl⟩ := map_eq_some_iff.1 step
    have unplanned : txn.plan = none := isNone_iff_eq_none.1 unread
    have stamp : s.stamp = s.clock := stamp_unplanned (by rw [running, bind_some, unplanned])
    have now : p.now = s.clock := (readPlan_from read).moment
    rw [observe_planned (p := p) rfl rfl]
    have clock : s.stamp = p.now := stamp.trans now.symm
    refine .planned rfl rfl (clock ▸ line.start_le) now.le (clock ▸ line.past)
      (clock ▸ line.covered) ?_
    intro time
    change time ∈ txn.times ++ [s.clock] ↔ p.now ≤ time ∧ time ≤ s.clock
    rw [line.fresh txn running unplanned, nil_append, mem_singleton, now]
    omega
  | finish =>
    obtain ⟨txn, running, step⟩ := bind_eq_some_iff.1 step
    obtain ⟨p, -, step⟩ := bind_eq_some_iff.1 step
    obtain ⟨result, -, rfl⟩ := map_eq_some_iff.1 step
    exact line.settle running result.1 result.2
  | abort =>
    obtain ⟨txn, running, rfl⟩ := map_eq_some_iff.1 step
    exact line.settle running s.evidence s.rows
  | operate action actor =>
    obtain ⟨idle, step⟩ := ite_none_right_eq_some.1 step
    obtain ⟨rows, -, rfl⟩ := map_eq_some_iff.1 step
    rw [observe_unplanned]
    · exact line.note (unplanned_of_idle idle) rfl (.inl rfl) rfl
    · exact unplanned_of_idle idle
  | legacy write =>
    obtain ⟨-, step⟩ := ite_none_right_eq_some.1 step
    obtain ⟨rows, -, rfl⟩ := map_eq_some_iff.1 step
    exact { line with }

end

structure TxnEvidence [DecidableEq H] (clients : CronClients) (s : CronState H) (txn : CronTxn H) :
    Prop where
  declares : Declares clients txn.evidence
  carries : Carries (some txn.owner) s.evidence txn.evidence
  inserted : ∀ row ∈ txn.inserted, row.ownerId = some txn.owner ∧ row.retired = none
  reconciles : txn.apply = true → txn.evidence = s.evidence
  plan : ∀ p, txn.plan = some p → ReadFrom txn.evidence txn.owner p.now p

structure AgreementInv [DecidableEq H] (clients : CronClients) (start : Nat) (s : CronState H) :
    Prop where
  line : Timeline start s
  declares : Declares clients s.evidence
  agreements : Truthful start s.moments s.stamp s.evidence
  txn : ∀ txn, s.txn = some txn → TxnEvidence clients s txn

section
variable [DecidableEq H] {clients : CronClients} {hash : PeriodicManifest → H} {start : Nat}
  {s t : CronState H} {txn : CronTxn H} {op : CronOp} {ev : Evidence H} {rows : List CronJobRow}

theorem AgreementInv.of_stamp {first : Nat} (line : Timeline start t)
    (declares : Declares clients t.evidence)
    (stamp : t.stamp = first) (agreements : Truthful start t.moments first t.evidence)
    (txn : ∀ txn, t.txn = some txn → TxnEvidence clients t txn) : AgreementInv clients start t :=
  ⟨line, declares, stamp ▸ agreements, txn⟩

theorem AgreementInv.write (inv : AgreementInv clients start s) (idle : s.txn.isNone = true)
    (carries : Carries none s.evidence ev) (declares : Declares clients ev)
    (line : Timeline start { s with rows, evidence := ev }.observe) :
    AgreementInv clients start { s with rows, evidence := ev }.observe := by
  have unplanned := unplanned_of_idle idle
  rw [observe_unplanned (s := { s with rows, evidence := ev }) unplanned] at line ⊢
  refine ⟨line, declares, ?_, ?_⟩
  · apply (inv.agreements.carries carries).note [s.clock]
    intro time now
    exact mem_singleton.1 now ▸ inv.line.stamp_le
  · intro txn running
    rw [show s.txn = none from isNone_iff_eq_none.1 idle] at running
    cases running

theorem AgreementInv.settle (inv : AgreementInv clients start s) (running : s.txn = some txn)
    (declares : Declares clients ev) (agreements : Truthful start s.moments s.stamp ev) :
    AgreementInv clients start (s.settle txn ev rows) where
  line := inv.line.settle running ev rows
  declares := declares
  agreements := by
    refine (agreements.note txn.times ?_).mono inv.line.stamp_le
    intro time listed
    cases planned : txn.plan with
    | none =>
      rw [inv.line.fresh txn running planned] at listed
      cases listed
    | some p =>
      rw [stamp_planned running planned]
      exact ((inv.line.times txn p running planned time).1 listed).1
  txn := by rintro _ ⟨⟩

/-- An agreement goes back to the evaluation or to an agreement on the same hash that has not
expired. -/
theorem agreedSince_cases (p : CronPlan H) (state : Option (CronOwner H)) :
    p.agreedSince state = p.now ∨ ∃ o expiry, state = some o ∧ o.agreedHash = p.desiredHash ∧
      o.agreedSince = some (p.agreedSince state) ∧
      o.evidenceUntil = some expiry ∧ p.now < expiry := by
  cases state with
  | none => exact .inl (by simp [CronPlan.agreedSince])
  | some o =>
    by_cases same : o.agreedHash = p.desiredHash ∧ (o.evidenceUntil.any fun t => p.now < t) = true
    · have kept : p.agreedSince (some o) = o.agreedSince.getD p.now := if_pos same
      rw [kept]
      cases since : o.agreedSince with
      | none => exact .inl rfl
      | some since =>
        cases unexpired : o.evidenceUntil with
        | none =>
          rw [unexpired] at same
          cases same.2
        | some expiry =>
          rw [unexpired, any_some, decide_eq_true_eq] at same
          exact .inr ⟨o, expiry, rfl, same.1, since, unexpired, same.2⟩
    · exact .inl (if_neg same)

section
variable (inv : AgreementInv clients start s) {expiry : Nat} {p : CronPlan H}
include inv

theorem AgreementInv.others (running : s.txn = some txn) {o : CronOwner H}
    (mem : o ∈ txn.evidence.owners) (other : o.ownerId ≠ txn.owner) {h : H} {since : Nat}
    (agreement : o.Agreement h since expiry) :
    Holds start s.moments s.stamp txn.evidence o.ownerId h since expiry := by
  obtain ⟨old, unmoved⟩ := (inv.txn txn running).carries o mem h since expiry agreement
  exact (inv.agreements o old h since expiry agreement).transfer
    (unmoved fun same => other (some_inj.1 same).symm)

theorem AgreementInv.agreed (running : s.txn = some txn)
    (planned : txn.plan = some p) (free : p.blockers = []) {h : H}
    (desired : p.desiredHash = some h) (lasts : p.evidenceUntil = some expiry) :
    Holds start s.moments s.stamp txn.evidence txn.owner h
      (p.agreedSince (txn.evidence.owner? txn.owner)) expiry := by
  have ok := inv.txn txn running
  have read := ok.plan p planned
  have stamp := stamp_planned running planned
  have lasting : ∀ time, s.stamp ≤ time → time < expiry →
      AgreesOn txn.evidence txn.owner h time := by
    intro time reached unexpired
    apply (read.agrees free desired).later (stamp ▸ reached)
    intro d live
    rw [← read.declarations] at live
    exact unexpired.trans_le (p.evidenceUntil_le lasts live)
  obtain now | ⟨o, until', found, same, since, unexpired, before⟩ :=
    agreedSince_cases p (txn.evidence.owner? txn.owner)
  · rw [now, ← stamp]
    refine ⟨inv.line.start_le, le_rfl, ?_, lasting⟩
    intro moment listed after
    exact absurd (inv.line.past moment listed) (Nat.not_le.2 after)
  · -- The old agreement covers the record, the evaluation what follows.
    have named : o.ownerId = txn.owner := by simpa using find?_some found
    have agreement : o.Agreement h (p.agreedSince (txn.evidence.owner? txn.owner)) until' :=
      ⟨same.trans desired, since, unexpired⟩
    have old := (ok.carries o (mem_of_find?_eq_some found) _ _ _ agreement).1
    have holds := inv.agreements o old _ _ _ agreement
    rw [named] at holds
    refine ⟨holds.began, holds.past, ?_, lasting⟩
    intro moment listed after _
    apply holds.recorded moment listed after
    exact (stamp ▸ inv.line.past moment listed).trans_lt before

theorem finish_agreement (running : s.txn = some txn) (planned : txn.plan = some p)
    {all : List CronJobRow} (effect : PlanEffect txn.evidence all txn.owner txn.apply p s.clock ev
      rows) : AgreementInv clients start (s.settle txn ev rows) := by
  have ok := inv.txn txn running
  cases effect with
  | blocked _ _ cleared =>
    subst cleared
    refine inv.settle running (ok.declares.of_eq rfl) ?_
    intro o' mem h since expiry agreement
    obtain ⟨o, present, rfl⟩ := mem_map.1 mem
    split at agreement
    · cases agreement.1
    next other =>
      rw [if_neg other]
      exact (inv.others running present (by simpa using other) agreement).transfer (.of_eq rfl rfl)
  | agreed hash synced free desired _ written =>
    subst written
    refine inv.settle running (ok.declares.of_eq rfl) ?_
    intro o' mem h since expiry agreement
    obtain ⟨o, present, rfl⟩ := mem_map.1 mem
    split at agreement
    next own =>
      rw [if_pos own]
      obtain ⟨⟨⟩, ⟨⟩, lasts⟩ := agreement
      rw [show o.ownerId = txn.owner by simpa using own]
      exact (inv.agreed running planned free desired lasts).transfer (.of_eq rfl rfl)
    next other =>
      rw [if_neg other]
      exact (inv.others running present (by simpa using other) agreement).transfer (.of_eq rfl rfl)

theorem AgreementInv.opened (idle : s.txn.isNone = true) (plan : txn.plan = none)
    (times : txn.times = []) (ok : TxnEvidence clients s txn) :
    AgreementInv clients start { s with txn := some txn } where
  line := inv.line.opened idle plan times
  declares := inv.declares
  agreements := by
    have stamp : CronState.stamp { s with txn := some txn } = s.stamp := by
      rw [stamp_unplanned (unplanned_of_idle idle), stamp_unplanned (by exact plan)]
    rw [stamp]
    exact inv.agreements
  txn := by
    rintro _ ⟨⟩
    exact { ok with }

theorem beginPublish_agreement {instanceId : Nat} {snapshot : Option RuntimeSnapshot}
    (step : beginPublish clients hash s instanceId snapshot = some t) :
    AgreementInv clients start t := by
  obtain ⟨idle, step⟩ := ite_none_right_eq_some.1 step
  obtain ⟨client, configured, step⟩ := bind_eq_some_iff.1 step
  obtain ⟨ev, read, rfl⟩ := map_eq_some_iff.1 step
  have reported : Carries (some client.1.ownerId) s.evidence ev ∧ Declares clients ev := by
    cases snapshot with
    | some snapshot =>
      obtain ⟨-, rfl⟩ := guard_eq_some read
      refine ⟨.of_owners (upsertRuntime_owners rfl) ?_,
        inv.declares.of_eq (upsertRuntime_declarations _)⟩
      intro owner other
      exact upsertRuntime_unmoved rfl (inv.declares.apart configured fun same =>
        other (congrArg some same))
    | none =>
      obtain ⟨-, rfl⟩ := guard_eq_some read
      exact ⟨.refl _ _, inv.declares⟩
  refine inv.opened idle rfl rfl ⟨publishEvidence_declares reported.2 configured _,
    reported.1.trans (publishEvidence_carries reported.2 configured _), ?_, ?_, ?_⟩
  · intro row mem
    simp only [publishTxn, publishRows] at mem
    split at mem
    · cases mem
    · obtain ⟨job, -, rfl⟩ := mem_map.1 mem
      exact ⟨rfl, rfl⟩
  · rintro ⟨⟩
  · rintro p ⟨⟩

theorem agreementInv_step (step : cronStep clients hash op s = some t) :
    AgreementInv clients start t := by
  have line := timeline_step inv.line step
  cases op with
  | tick =>
    cases step
    cases evaluated : s.txn.bind CronTxn.plan with
    | none =>
      rw [observe_unplanned (s := { s with clock := s.clock + 1 }) evaluated] at line ⊢
      have stamp := stamp_unplanned evaluated
      refine .of_stamp line inv.declares (stamp_unplanned evaluated) ?_ fun txn running => ?_
      · refine (inv.agreements.mono (stamp.le.trans (Nat.le_succ _))).note [s.clock + 1] ?_
        intro time now
        exact (mem_singleton.1 now).ge
      · have ok := inv.txn txn running
        exact { ok with }
    | some p =>
      obtain ⟨txn, running, planned⟩ := bind_eq_some_iff.1 evaluated
      rw [observe_planned (s := { s with clock := s.clock + 1 }) running planned] at line ⊢
      refine .of_stamp line inv.declares (stamp_planned rfl planned) ?_ ?_
      · exact stamp_planned running planned ▸ inv.agreements
      · rintro _ ⟨⟩
        have ok := inv.txn txn running
        exact { ok with }
  | snapshot instanceId cronProtocol snapshot =>
    obtain ⟨⟨idle, -, unconfigured⟩, rfl⟩ := guard_eq_some step
    refine inv.write idle ?_ (inv.declares.of_eq (upsertRuntime_declarations _)) line
    exact upsertRuntime_carries inv.declares fun known => isNone_iff_eq_none.1 (unconfigured known)
  | beginPublish instanceId snapshot => exact beginPublish_agreement inv step
  | beginReconcile owner =>
    obtain ⟨idle, rfl⟩ := guard_eq_some step
    refine inv.opened idle rfl rfl ⟨inv.declares, .refl _ _, forall_mem_nil _, fun _ => rfl, ?_⟩
    rintro p ⟨⟩
  | scan =>
    obtain ⟨txn, running, step⟩ := bind_eq_some_iff.1 step
    obtain ⟨unread, step⟩ := ite_none_right_eq_some.1 step
    obtain ⟨p, read, rfl⟩ := map_eq_some_iff.1 step
    have unplanned : txn.plan = none := isNone_iff_eq_none.1 unread
    have now := (readPlan_from read).moment
    rw [observe_planned (p := p) rfl rfl] at line ⊢
    have stamp : s.stamp = s.clock := stamp_unplanned (by rw [running, bind_some, unplanned])
    refine .of_stamp line inv.declares (stamp_planned (p := p) rfl rfl) ?_ ?_
    · exact stamp.trans now.symm ▸ inv.agreements
    · rintro _ ⟨⟩
      have ok := inv.txn txn running
      refine ⟨ok.declares, ok.carries, ok.inserted, ok.reconciles, ?_⟩
      rintro _ ⟨⟩
      rw [now]
      exact readPlan_from read
  | finish =>
    obtain ⟨txn, running, step⟩ := bind_eq_some_iff.1 step
    obtain ⟨p, planned, step⟩ := bind_eq_some_iff.1 step
    obtain ⟨result, applied, rfl⟩ := map_eq_some_iff.1 step
    exact finish_agreement inv running planned (applyPlan_effect applied)
  | abort =>
    obtain ⟨txn, running, rfl⟩ := map_eq_some_iff.1 step
    exact inv.settle running inv.declares inv.agreements
  | operate action actor =>
    obtain ⟨idle, step⟩ := ite_none_right_eq_some.1 step
    obtain ⟨rows, -, rfl⟩ := map_eq_some_iff.1 step
    have adopted : Carries none s.evidence (action.adopter.elim s.evidence s.evidence.insertOwner) ∧
        (action.adopter.elim s.evidence s.evidence.insertOwner).declarations =
          s.evidence.declarations := by
      cases action.adopter with
      | none => exact ⟨.refl _ _, rfl⟩
      | some owner => exact ⟨insertOwner_carries, insertOwner_declarations⟩
    exact inv.write idle (adopted.1.trans (updateOwners_carries fun _ => rfl))
      (inv.declares.of_eq adopted.2) line
  | legacy write =>
    obtain ⟨-, step⟩ := ite_none_right_eq_some.1 step
    obtain ⟨rows, -, rfl⟩ := map_eq_some_iff.1 step
    refine ⟨line, inv.declares, inv.agreements, fun txn running => ?_⟩
    have ok := inv.txn txn running
    exact { ok with }

end

theorem agreementInv_reachable (reached : (cronMachine clients hash).Reachable Machine.Always s) :
    ∃ start, AgreementInv clients start s := by
  apply reached.invariant
  · rintro s ⟨-, empty, idle, moments⟩
    have unplanned : s.txn.bind CronTxn.plan = none := by rw [idle, bind_none]
    refine ⟨s.clock, .unplanned unplanned le_rfl ?_ ?_ ?_, ?_, ?_, ?_⟩
    · rw [moments]
      intro moment listed
      rw [mem_singleton.1 listed]
    · intro time after before
      obtain rfl := le_antisymm before after
      exact ⟨s.evidence, moments ▸ mem_singleton_self _⟩
    · intro txn running
      rw [idle] at running
      cases running
    · rw [Declares, empty]
      exact forall_mem_nil _
    · rw [Truthful, empty]
      exact forall_mem_nil _
    · intro txn running
      rw [idle] at running
      cases running
  · rintro op s t - ⟨start, inv⟩ - step
    exact ⟨start, agreementInv_step inv step⟩

end

end AwaQueue.Cron
