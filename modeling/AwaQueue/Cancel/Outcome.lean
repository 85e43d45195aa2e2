import AwaQueue.Cancel.Tries
import AwaQueue.Attempt.Dispositions

/-! What a try of a cancel leaves. Under the attempt lock no other transaction materializes or
closes an attempt without a lease, and under the lock of its lease nobody closes an attempt with
one; so a try that has begun to write gets to its end with the rows as it found them, and one that
returns before has written nothing. -/

namespace AwaQueue.Cancel

open List
open Option (map_eq_some_iff some_inj)
open Library
variable {slots : Nat} {t u : TxId} {job : Nat} {unique : UniqueColumns} {s s' : CancelState}
  {b b' : AttemptState} {a : Attempt} {x : Closer} {viaLease : Bool} {op : AttemptOp}
    {ops : List AttemptOp} {c : ReceiptClaim} {phase next : Phase}
  {base : AttemptState} {lease : Option JobState}

/-- A lease appears only under the attempt lock of a materializer. -/
theorem leased_frame (inv : AttemptInv b) (running : b.tx t = some (.closer x))
    (locked : b.attemptLock a = some t)
    (absent : a ∉ b.tables.leased) (step : TableStep b b') : a ∉ b'.tables.leased := by
  cases step with
  | quiet same => rwa [same.tables]
  | closer closing => exact fun leased => absent ((inv.closer closing).leased_commit.1 leased).1
  | @materializer u leases inserting =>
    intro leased
    have rows : (commitMaterializer b u leases).tables.leased = b.tables.leased ++
      leases.map LeaseRow.attempt := map_append
    rw [rows] at leased
    rcases mem_append.1 leased with old | new
    · exact absent old
    · -- its lock is held by `t`, which is no materializer
      have held := ((inv.materializer inserting).2 a new).1
      obtain rfl : t = u := some_inj.1 (locked.symm.trans held)
      rw [running] at inserting
      cases inserting
  | claim | successors | attemptState | prune => exact absent

theorem attemptSteps_cons (step : attemptSteps slots (op :: ops) b = some b') :
    ∃ mid, attemptStep slots op b = some mid ∧ attemptSteps slots ops mid = some b' :=
  Option.bind_eq_some_iff.1 step

theorem attemptSteps_reachable (reached : (attemptMachine slots).Reachable Machine.Always b)
    (step : attemptSteps slots ops b = some b') :
    (attemptMachine slots).Reachable Machine.Always b' := by
  induction ops generalizing b with
  | nil =>
    cases step
    exact reached
  | cons op ops ih =>
    obtain ⟨mid, first, rest⟩ := attemptSteps_cons step
    exact ih (.next reached trivial first) rest

def afterLock (a : Attempt) : List AttemptStmt :=
  [.deleteLeases [a] false, .closeReceiptPairs false, .closeReceipts .cancel [⟨a, none⟩],
    .insertSuccessors (fun _ => .done) false]

/-- The try has the attempt lock and has written nothing. -/
structure Locked (b : AttemptState) (t : TxId) (a : Attempt) : Prop where
  running : b.tx t = some (.closer { script := afterLock a })
  lock : b.attemptLock a = some t

structure Taken (a : Attempt) (viaLease : Bool) (script : List AttemptStmt) (cleared : List Attempt)
    (x : Closer) : Prop where
  script : x.script = script
  won : x.writes.won = [a]
  deleted : x.writes.deletedLeases = if viaLease then [a] else []
  cleared : x.writes.clearedState = cleared
  unsettled : x.unsettled = [a]
  successors : x.writes.successors = []

structure Written (a : Attempt) (viaLease : Bool) (x : Closer) : Prop where
  script : x.script = []
  won : x.writes.won = [a]
  cleared : x.writes.clearedState = if viaLease then [a] else []
  successors : x.writes.successors = [⟨a, .done⟩]

theorem statement_eq {stmt : AttemptStmt} {rest : List AttemptStmt}
    (running : b.tx t = some (.closer x)) (shape : x.script = stmt :: rest) :
    attemptStep slots (.statement t) b = closeStatement b t { x with script := rest } stmt := by
  simp only [attemptStep, running, shape]

theorem setTx_tx (tx : AttemptTx) : (b.setTx t tx).tx t = some tx := by
  simp [AttemptState.setTx]

theorem matchedLeases_eq (inv : AttemptInv b) (script : List AttemptStmt) :
    Closer.matchedLeases { script } b [a] = if a ∈ b.tables.leased then [a] else [] := by
  have rows : Closer.matchedLeases { script } b [a] = b.tables.leased.filter fun other =>
      other = a := by
    simp [Closer.matchedLeases, Closer.view, AttemptTables.apply, AttemptTables.leased]
  rw [rows]
  split
  · next leased =>
    have distinct : ((b.tables.leased.filter fun other => other = a).map id).Nodup := by
      rw [map_id]
      exact inv.leases.filter _
    obtain ⟨other, single, rfl⟩ := eq_singleton_of_nodup_map (b := a) distinct
      (ne_nil_of_mem (mem_filter.2 ⟨leased, decide_eq_true rfl⟩)) fun other mem =>
        of_decide_eq_true (mem_filter.1 mem).2
    exact single
  · next absent =>
    refine filter_eq_nil_iff.2 fun other mem => ?_
    rw [decide_eq_true_eq]
    rintro rfl
    exact absent mem

section
variable (step : attemptStep slots (.statement t) b = some b')
include step

theorem Locked.deleteLease (locked : Locked b t a) (inv : AttemptInv b)
    (leased : a ∈ b.tables.leased) :
    ∃ x, b'.tx t = some (.closer x) ∧ Taken a true (afterLock a).tail [] x := by
  rw [statement_eq locked.running rfl, closeStatement, matchedLeases_eq inv, if_pos leased] at step
  obtain ⟨free, rfl⟩ := guard_eq_some step
  rw [Bool.false_or] at free
  have taken := filter_eq_self.2 (all_eq_true.1 free)
  refine ⟨_, setTx_tx _, ?_⟩
  rw [taken]
  exact ⟨rfl, rfl, rfl, rfl, rfl, rfl⟩

theorem Taken.closePairs (taken : Taken a true (afterLock a).tail [] x)
    (running : b.tx t = some (.closer x)) :
    ∃ x, b'.tx t = some (.closer x) ∧ Taken a true (afterLock a).tail.tail [a] x := by
  rw [statement_eq running taken.script] at step
  cases step
  exact ⟨_, setTx_tx _, rfl, taken.won, taken.deleted, taken.won, taken.unsettled, taken.successors⟩

theorem Taken.closeReceipt (taken : Taken a true (afterLock a).tail.tail [a] x) (inv : AttemptInv b)
    (running : b.tx t = some (.closer x)) :
    ∃ x, b'.tx t = some (.closer x) ∧ Taken a true (afterLock a).tail.tail.tail [a] x := by
  have ok := inv.closer running
  obtain ⟨locked, owing, settling, script⟩ := ok.script
  have apart := (script.closable (ok.viewLedger inv.ledger) taken.script).1
  have none : openTargets .cancel (x.view b) [⟨a, none⟩] = [] := by
    refine eq_nil_iff_forall_not_mem.2 fun c found => apart c found ?_
    rw [taken.deleted]
    exact (mem_openTargets found).2.1
  rw [statement_eq running taken.script] at step
  cases step
  refine ⟨_, setTx_tx _, rfl, ?_, taken.deleted, ?_, ?_, taken.successors⟩
  · change x.writes.won ++ (openTargets .cancel (x.view b) [⟨a, .none⟩]).map ReceiptClaim.attempt =
      [a]
    rw [none, taken.won]
    rfl
  · change x.writes.clearedState ++ [] = [a]
    rw [append_nil, taken.cleared]
  · change x.unsettled ++ (openTargets .cancel (x.view b) [⟨a, .none⟩]).map ReceiptClaim.attempt =
      [a]
    rw [none, taken.unsettled]
    rfl

end

theorem view_fresh (script : List AttemptStmt) (b : AttemptState) :
    Closer.view { script } b = b.tables := by
  simp [Closer.view, AttemptTables.apply]

theorem openTargets_eq {T : AttemptTables} (ledger : LedgerOk T) (mem : c ∈ T.claims)
    (unclosed : T.closedEvidence c = false) (absent : c.attempt ∉ T.leased) :
    (openTargets .cancel T [⟨c.attempt, none⟩]).map ReceiptClaim.attempt = [c.attempt] := by
  have free : T.leaseManaged c.attempt = false := Bool.eq_false_iff.2 fun managed =>
    absent (AttemptTables.leaseManaged_iff.1 managed)
  have found : openTargets .cancel T [⟨c.attempt, none⟩] ≠ [] := by
    refine ne_nil_of_mem (a := c) (mem_flatMap.2 ⟨_, mem_singleton_self _, mem_filter.2 ⟨mem, ?_⟩⟩)
    simp [CloseTarget.matches, CloseForm.closedProbe, unclosed, free]
  have distinct : ((openTargets .cancel T [⟨c.attempt, none⟩]).map ReceiptClaim.attempt).Nodup := by
    rw [openTargets, flatMap_singleton]
    exact (filter_sublist.map _).nodup ledger.attempts
  obtain ⟨d, single, same⟩ := eq_singleton_of_nodup_map (b := c.attempt) distinct found fun d mem =>
    mem_singleton.1 (mem_openTargets mem).2.1
  rw [single, map_singleton, same]

theorem Locked.closeReceipt (locked : Locked b t c.attempt) (inv : AttemptInv b)
    (absent : c.attempt ∉ b.tables.leased)
    (mem : c ∈ b.tables.claims) (unclosed : b.tables.closedEvidence c = false)
    (step : attemptSteps slots [.statement t, .statement t, .statement t] b = some b') :
    ∃ x, b'.tx t = some (.closer x) ∧ Taken c.attempt false (afterLock c.attempt).tail.tail.tail
      [] x := by
  obtain ⟨b₁, first, step⟩ := attemptSteps_cons step
  obtain ⟨b₂, second, step⟩ := attemptSteps_cons step
  obtain ⟨b₃, third, step⟩ := attemptSteps_cons step
  cases step
  rw [statement_eq locked.running rfl, closeStatement, matchedLeases_eq inv, if_neg absent] at first
  obtain ⟨-, rfl⟩ := guard_eq_some first
  rw [statement_eq (setTx_tx _) rfl] at second
  cases second
  rw [statement_eq (setTx_tx _) rfl] at third
  cases third
  have found := openTargets_eq inv.ledger mem unclosed absent
  rw [← view_fresh (afterLock c.attempt).tail.tail.tail b] at found
  exact ⟨_, setTx_tx _, rfl, found, rfl, rfl, found, rfl⟩

theorem Taken.insertSuccessor {cleared : List Attempt}
    (taken : Taken a viaLease (afterLock a).tail.tail.tail cleared x)
    (running : b.tx t = some (.closer x)) (step : attemptStep slots (.statement t) b = some b') :
    ∃ x, b'.tx t = some (.closer x) ∧ x.script = [] ∧ x.writes.won = [a] ∧
      x.writes.clearedState = cleared ∧ x.writes.successors = [⟨a, .done⟩] := by
  rw [statement_eq running taken.script] at step
  obtain ⟨rows, inserted, rfl⟩ := map_eq_some_iff.1 step
  rw [taken.unsettled, taken.successors] at inserted
  cases inserted
  exact ⟨_, setTx_tx _, rfl, taken.won, taken.cleared, rfl⟩

def LeaseStage (a : Attempt) (x : Closer) : Prop :=
  Taken a true (afterLock a).tail [] x ∨ Taken a true (afterLock a).tail.tail [a] x ∨
    Taken a true (afterLock a).tail.tail.tail [a] x

def StageOk (b : AttemptState) (t : TxId) (job : Nat) : Phase → Prop
  | .idle | .findLease | .findReceipt | .lookAgain => b.tx t = none
  | .tryLock a => a.jobId = job ∧ b.tx t = none
  | .leaseNow a | .lockLease a => a.jobId = job ∧ Locked b t a
  | .lockReceipt a | .recheck a => a.jobId = job ∧ Locked b t a ∧ a ∉ b.tables.leased
  | .lease a _ => a.jobId = job ∧ ∃ x, b.tx t = some (.closer x) ∧ LeaseStage a x
  | .readyRow a | .receipt a =>
    a.jobId = job ∧ ∃ x, b.tx t = some (.closer x) ∧ Taken a false (afterLock a).tail.tail.tail [] x
  | .returned (.cancelled a lease) =>
    a.jobId = job ∧ ∃ x, b.tx t = some (.closer x) ∧ Written a lease.isSome x
  | .returned _ => True

theorem StageOk.other (stage : StageOk b t job phase) (inv : AttemptInv b)
    (other : op.transaction ≠ some t)
    (step : attemptStep slots op b = some b') : StageOk b' t job phase := by
  obtain ⟨same, locks⟩ := attemptStep_frame step other
  have kept {a : Attempt} (locked : Locked b t a) :
    Locked b' t a := ⟨same.trans locked.running, locks a locked.lock⟩
  cases phase with
  | idle | findLease | findReceipt | lookAgain => exact same.trans stage
  | tryLock a => exact ⟨stage.1, same.trans stage.2⟩
  | leaseNow a | lockLease a => exact ⟨stage.1, kept stage.2⟩
  | lockReceipt a | recheck a =>
    obtain ⟨mine, locked, absent⟩ := stage
    exact ⟨mine, kept locked, leased_frame inv locked.running locked.lock absent (tableStep step)⟩
  | lease a state | readyRow a | receipt a =>
    obtain ⟨mine, x, running, taken⟩ := stage
    exact ⟨mine, x, same.trans running, taken⟩
  | returned result =>
    cases result with
    | cancelled a lease =>
      obtain ⟨mine, x, running, written⟩ := stage
      exact ⟨mine, x, same.trans running, written⟩
    | notRunning | left | again | busy | failed => trivial

structure CancelInv (slots : Nat) (t : TxId) (job : Nat) (s : CancelState) : Prop where
  base : (attemptMachine slots).Reachable Machine.Always s.base
  stage : StageOk s.base t job s.phase

theorem CancelInv.attempt (inv : CancelInv slots t job s) :
    AttemptInv s.base := (attemptInv_reachable inv.base).toAttemptInv

theorem leaseOf_job (found : s.leaseOf job = some a) : a.jobId = job :=
  of_decide_eq_true (mem_filter.1 (argmax_mem found)).2

theorem openReceipt_claim (found : s.openReceipt job = some a) :
    a.jobId = job ∧ ∃ c ∈ s.tables.claims, c.attempt = a ∧ s.tables.closedEvidence c = false := by
  obtain ⟨c, chosen, rfl⟩ := mem_map.1 (argmax_mem found)
  obtain ⟨mem, open_⟩ := mem_filter.1 chosen
  simp only [Bool.and_eq_true, decide_eq_true_eq, Bool.not_eq_true'] at open_
  exact ⟨open_.1.1, c, mem, rfl, open_.1.2⟩

theorem locked_of_begin (step : attemptSteps slots [.beginClose t (.cancelRunningAttempt [a]),
    .statement t] b = some b') : Locked b' t a := by
  obtain ⟨b₁, first, step⟩ := attemptSteps_cons step
  obtain ⟨b₂, second, step⟩ := attemptSteps_cons step
  cases step
  obtain ⟨-, rfl⟩ := guard_eq_some first
  rw [statement_eq (setTx_tx _) rfl] at second
  obtain ⟨-, rfl⟩ := guard_eq_some second
  exact ⟨setTx_tx _, if_pos (mem_singleton_self a)⟩

theorem scriptEnded_eq (running : b.tx t = some (.closer x)) :
    scriptEnded b t = x.script.isEmpty := by
  simp only [scriptEnded, running]

/-- The statements of `cancel_materialized_lease_tx` follow each other up to the done row. -/
theorem LeaseStage.write (stage : LeaseStage a x) (inv : AttemptInv b)
    (running : b.tx t = some (.closer x)) (step : attemptStep slots (.statement t) b = some b') :
    ∃ y, b'.tx t = some (.closer y) ∧ (y.script.isEmpty = false ∧ LeaseStage a y ∨
      y.script.isEmpty = true ∧ Written a true y) := by
  rcases stage with first | second | third
  · obtain ⟨y, runs, taken⟩ := first.closePairs step running
    exact ⟨y, runs, .inl ⟨by rw [taken.script]; rfl, .inr (.inl taken)⟩⟩
  · obtain ⟨y, runs, taken⟩ := second.closeReceipt step inv running
    exact ⟨y, runs, .inl ⟨by rw [taken.script]; rfl, .inr (.inr taken)⟩⟩
  · obtain ⟨y, runs, ended, won, cleared, successors⟩ := third.insertSuccessor running step
    exact ⟨y, runs, .inr ⟨by rw [ended]; rfl, ended, won, cleared, successors⟩⟩

theorem release_tx (b : AttemptState) (t : TxId) :
    (b.release t).tx t = none := Function.update_self ..

theorem statement_tables (step : attemptStep slots (.statement t) b = some b') :
    b'.tables = b.tables := by
  obtain ⟨_, moves⟩ := statement_moves step
  exact moves.same.tables

theorem attemptSteps_tables (silent : ∀ op ∈ ops, ∀ b b', attemptStep slots op b = some b' →
    b'.tables = b.tables) (step : attemptSteps slots ops b = some b') : b'.tables = b.tables := by
  induction ops generalizing b with
  | nil =>
    cases step
    rfl
  | cons op ops ih =>
    obtain ⟨mid, first, rest⟩ := attemptSteps_cons step
    have later := ih (fun op mem => silent op (mem_cons_of_mem _ mem)) rest
    exact later.trans (silent op mem_cons_self b mid first)

/-- A step that leaves the tables as they are, on the way to cancel the attempt that the try has
found. -/
structure Silent (s s' : CancelState) : Prop where
  tables : s'.tables = s.tables
  unique : s'.uniqueClaims = s.uniqueClaims
  found : ∀ a b, s.phase.found = some a → s'.phase.found = some b → b = a

theorem Silent.keeps {waiting : List Attempt} (same : s.phase = phase)
    (tables : base.tables = s.tables)
    (found : next.found = phase.found) : Silent s ⟨base, s.uniqueClaims, waiting, next⟩ :=
  ⟨tables, rfl, fun a b old new => by
    have here : next.found = some a := by rw [found, ← same, old]
    exact some_inj.1 (new.symm.trans here)⟩

theorem Silent.finds (same : s.phase = phase) (fresh : phase.found = none) (next : Phase) :
    Silent s (s.enter next) :=
  ⟨rfl, rfl, fun a b old _ => by
    rw [same, fresh] at old
    cases old⟩

theorem Silent.drops {waiting : List Attempt} (tables : base.tables = s.tables)
    (none : next.found = none) : Silent s ⟨base, s.uniqueClaims, waiting, next⟩ :=
  ⟨tables, rfl, fun a b _ new => by
    rw [none] at new
    cases new⟩

/-- What a step of the try itself does, apart from the commit of a cancelled attempt. -/
structure Advances (slots : Nat) (t : TxId) (job : Nat) (s s' : CancelState) : Prop where
  inv : CancelInv slots t job s'
  silent : Silent s s'

section
variable (inv : CancelInv slots t job s)
include inv

theorem CancelInv.stage_of (same : s.phase = phase) : StageOk s.base t job phase := same ▸ inv.stage

theorem CancelInv.takes (took : attemptStep slots op s.base = some b') :
    (attemptMachine slots).Reachable Machine.Always b' := .next inv.base trivial took

theorem CancelInv.gives {result : TryResult} (none : (Phase.returned result).found = none) :
    Advances slots t job s (s.give result) := by
  refine ⟨⟨inv.base, ?_⟩, .drops rfl none⟩
  cases result with
  | cancelled a lease => cases none
  | notRunning | left | again | busy | failed => trivial

theorem CancelInv.findLease (phase : s.phase = .findLease) :
    Advances slots t job s (s.enter ((s.leaseOf job).elim .findReceipt .tryLock)) := by
  have stage := inv.stage_of phase
  refine ⟨⟨inv.base, ?_⟩, .finds phase rfl _⟩
  cases found : s.leaseOf job with
  | none => exact stage
  | some a => exact ⟨leaseOf_job found, stage⟩

theorem CancelInv.findReceipt (phase : s.phase = .findReceipt) :
    Advances slots t job s (s.enter ((s.openReceipt job).elim .lookAgain .tryLock)) := by
  have stage := inv.stage_of phase
  refine ⟨⟨inv.base, ?_⟩, .finds phase rfl _⟩
  cases found : s.openReceipt job with
  | none => exact stage
  | some a => exact ⟨(openReceipt_claim found).1, stage⟩

theorem CancelInv.leaseNow (phase : s.phase = .leaseNow a) :
    Advances slots t job s (s.enter (if s.tables.leaseManaged a then .lockLease a
      else .lockReceipt a)) := by
  have stage := inv.stage_of phase
  refine ⟨⟨inv.base, ?_⟩, .keeps phase rfl (by split <;> rfl)⟩
  cases managed : s.tables.leaseManaged a with
  | true => exact stage
  | false =>
    have absent := fun leased => Bool.false_ne_true
      (managed.symm.trans (AttemptTables.leaseManaged_iff.2 leased))
    exact ⟨stage.1, stage.2, absent⟩

theorem CancelInv.tryLock (phase : s.phase = .tryLock a)
    (step : cancelStep slots t job unique .tryLock s = some s') : Advances slots t job s s' := by
  have stage := inv.stage_of phase
  simp only [cancelStep, phase] at step
  split at step
  · obtain ⟨b', took, rfl⟩ := map_eq_some_iff.1 step
    refine ⟨⟨attemptSteps_reachable inv.base took, stage.1, locked_of_begin took⟩,
      .keeps phase (attemptSteps_tables (fun op mem b b' first => ?_) took) rfl⟩
    rcases mem_cons.1 mem with rfl | mem
    · obtain ⟨-, rfl⟩ := guard_eq_some first
      rfl
    · obtain rfl := mem_singleton.1 mem
      exact statement_tables first
  · cases step
    exact inv.gives rfl

theorem CancelInv.lockLease (phase : s.phase = .lockLease a)
    (step : cancelStep slots t job unique .lockLease s = some s') : Advances slots t job s s' := by
  have stage := inv.stage_of phase
  simp only [cancelStep, phase] at step
  split at step
  · cases step
    exact inv.gives rfl
  · next managed =>
    split at step
    · obtain ⟨b', took, rfl⟩ := map_eq_some_iff.1 step
      rw [Bool.not_eq_true, Bool.not_eq_false'] at managed
      obtain ⟨x, running, taken⟩ := stage.2.deleteLease took inv.attempt
        (AttemptTables.leaseManaged_iff.1 managed)
      exact ⟨⟨inv.takes took, stage.1, x, running, .inl taken⟩,
        .keeps phase (statement_tables took) rfl⟩
    · cases step
      exact inv.gives rfl

theorem CancelInv.lockReceipt {granted : Bool} (phase : s.phase = .lockReceipt a)
    (step : cancelStep slots t job unique (.lockReceipt granted) s = some s') :
    Advances slots t job s s' := by
  obtain ⟨mine, locked, absent⟩ := inv.stage_of phase
  simp only [cancelStep, phase] at step
  split at step
  · cases step
    exact inv.gives rfl
  · split at step
    · cases step
      exact ⟨⟨inv.base, mine, locked, absent⟩, .keeps phase rfl rfl⟩
    · next found =>
      split at step
      · next same =>
        obtain rfl := same
        obtain ⟨-, c, mem, rfl, unclosed⟩ := openReceipt_claim found
        obtain ⟨b', took, rfl⟩ := map_eq_some_iff.1 step
        refine ⟨⟨attemptSteps_reachable inv.base took, mine,
          locked.closeReceipt inv.attempt absent mem unclosed took⟩,
          .keeps phase (attemptSteps_tables (fun op mem b b' first => ?_) took) rfl⟩
        have same : op = .statement t := eq_of_mem_replicate (n := 3) mem
        rw [same] at first
        exact statement_tables first
      · cases step
        exact inv.gives rfl

theorem CancelInv.readyRow {found : Bool} (phase : s.phase = .readyRow a) :
    Advances slots t job s (if found then s.enter (.receipt a) else s.give .left) := by
  cases found with
  | true =>
    have stage := inv.stage_of phase
    exact ⟨⟨inv.base, stage⟩, .keeps phase rfl rfl⟩
  | false => exact inv.gives rfl

theorem CancelInv.writeLease {state : JobState} (phase : s.phase = .lease a state)
    (step : cancelStep slots t job unique .write s = some s') : Advances slots t job s s' := by
  obtain ⟨mine, x, running, left⟩ := inv.stage_of phase
  simp only [cancelStep, phase] at step
  obtain ⟨b', took, rfl⟩ := map_eq_some_iff.1 step
  refine ⟨⟨inv.takes took, ?_⟩, .keeps phase (statement_tables took) (by split <;> rfl)⟩
  obtain ⟨y, runs, ⟨more, later⟩ | ⟨ended, written⟩⟩ := left.write inv.attempt running took
  · rw [scriptEnded_eq runs, more]
    exact ⟨mine, y, runs, later⟩
  · rw [scriptEnded_eq runs, ended]
    exact ⟨mine, y, runs, written⟩

theorem CancelInv.writeReceipt (phase : s.phase = .receipt a)
    (step : cancelStep slots t job unique .write s = some s') : Advances slots t job s s' := by
  obtain ⟨mine, x, running, taken⟩ := inv.stage_of phase
  simp only [cancelStep, phase] at step
  obtain ⟨b', took, rfl⟩ := map_eq_some_iff.1 step
  obtain ⟨y, runs, ended, won, cleared, successors⟩ := taken.insertSuccessor running took
  exact ⟨⟨inv.takes took, mine, y, runs, ended, won, cleared, successors⟩,
    .keeps phase (statement_tables took) rfl⟩

theorem CancelInv.aborts (running : (s.base.tx t).isSome = true) :
    Advances slots t job s { s with base := s.base.release t, phase := .idle } := by
  have took : attemptStep slots (.abort t) s.base = some (s.base.release t) := if_pos running
  exact ⟨⟨inv.takes took, release_tx _ t⟩, .drops rfl rfl⟩

theorem CancelInv.givesUp : Advances slots t job s
    { s with base := if (s.base.tx t).isSome then s.base.release t
      else s.base, phase := .idle } := by
  cases running : (s.base.tx t).isSome with
  | true => exact inv.aborts running
  | false =>
    exact ⟨⟨inv.base, Option.not_isSome_iff_eq_none.1 (Bool.eq_false_iff.1 running)⟩,
    .drops rfl rfl⟩

theorem CancelInv.finishes (phase : s.phase = .returned (.cancelled a lease))
    (step : cancelStep slots t job unique .finish s = some s') : CancelInv slots t job s' := by
  obtain ⟨mine, x, running, written⟩ := inv.stage_of phase
  simp only [cancelStep, phase] at step
  split at step
  · obtain ⟨b', took, rfl⟩ := map_eq_some_iff.1 step
    obtain ⟨-, rfl⟩ := commit_closer running took
    exact ⟨inv.takes took, release_tx _ t⟩
  · cases step
    exact (inv.aborts (by rw [running]; rfl)).inv

theorem CancelInv.step {op : CancelOp} (step : cancelStep slots t job unique op s = some s') :
    CancelInv slots t job s' ∧
      (op.own = true → Silent s s' ∨ op = .finish ∧ ∃ a lease, s.phase =
        .returned (.cancelled a lease)) := by
  have advance (advances : Advances slots t job s s') : CancelInv slots t job s' ∧
      (op.own = true → Silent s s' ∨ op = .finish ∧ ∃ a lease, s.phase =
        .returned (.cancelled a lease)) :=
    ⟨advances.inv, fun _ => .inl advances.silent⟩
  have taken := step
  unfold cancelStep at step
  split at step
  · split at step
    · cases step
    · next foreign =>
      obtain ⟨b', took, rfl⟩ := map_eq_some_iff.1 step
      exact ⟨⟨inv.takes took, inv.stage.other inv.attempt foreign took⟩,
        fun own => Bool.noConfusion own⟩
  · cases step
    exact ⟨⟨inv.base, inv.stage⟩, fun own => Bool.noConfusion own⟩
  · cases step
    exact ⟨⟨inv.base, inv.stage⟩, fun own => Bool.noConfusion own⟩
  · obtain ⟨free, rfl⟩ := guard_eq_some step
    exact advance ⟨⟨inv.base, Option.isNone_iff_eq_none.1 free⟩, .drops rfl rfl⟩
  · next phase =>
    cases step
    exact advance (inv.findLease phase)
  · next phase =>
    cases step
    exact advance (inv.findReceipt phase)
  · cases step
    exact advance (inv.gives (by split <;> rfl))
  · next phase => exact advance (inv.tryLock phase taken)
  · next phase =>
    cases step
    exact advance (inv.leaseNow phase)
  · next phase => exact advance (inv.lockLease phase taken)
  · next phase => exact advance (inv.lockReceipt phase taken)
  · cases step
    exact advance (inv.gives (by split <;> rfl))
  · next phase =>
    cases step
    exact advance (inv.readyRow phase)
  · next phase => exact advance (inv.writeLease phase taken)
  · next phase => exact advance (inv.writeReceipt phase taken)
  · cases step
  · cases step
  · cases step
    exact advance (inv.gives rfl)
  · next a lease phase => exact ⟨inv.finishes phase taken, fun _ => .inr ⟨rfl, a, lease, phase⟩⟩
  · cases step
    exact advance inv.givesUp
  · cases step

end

theorem cancelInv_reachable (reached : (cancelMachine slots t job unique).Reachable Machine.Always
    s) : CancelInv slots t job s := by
  refine reached.invariant (fun s first => ?_) fun op s s' _ inv _ step => (inv.step step).1
  rw [show s = _ from first]
  exact ⟨.start rfl, rfl⟩

/-- The attempt is cancelled, with its receipt, its lease, its attempt state and its unique claim,
and nothing else is touched. -/
structure Cancels (job : Nat) (unique : UniqueColumns) (a : Attempt) (s s' : CancelState) :
    Prop where
  mine : a.jobId = job
  receipt : ∀ c ∈ s.tables.claims, c.attempt = a → s.tables.closeCount c = 0 ∧
    s'.tables.closeCount c = 1
  lease : a ∉ s'.tables.leased
  state : a ∉ s'.tables.attemptState.map AttemptStateRow.attempt
  unique : ∀ key ∈ unique.key, ⟨key, job⟩ ∉ s'.uniqueClaims
  done : s'.tables.successors = s.tables.successors ++ [⟨a, .done⟩]
  others : ∀ b, b ≠ a → s'.tables.rowsOf b = s.tables.rowsOf b
  otherUnique : ∀ claim, claim.jobId ≠ job → (claim ∈ s'.uniqueClaims ↔ claim ∈ s.uniqueClaims)

/-- The sync from the old state of the job to `cancelled` leaves the job without its key. -/
structure GivesUpKey (uniqueClaims : List UniqueClaim) (job : Nat) (unique : UniqueColumns)
    (old : JobState) : Prop where
  held : ∀ key ∈ unique.key, ⟨key, job⟩ ∈ uniqueClaims →
    unique.claims (some old) = true ∧ unique.claims (some .cancelled) = false
  stays : ¬unique.Enters (some old) (some .cancelled)

section
variable {old : JobState} {uniqueClaims uniqueClaims' : List UniqueClaim}

theorem GivesUpKey.isSome (gives : GivesUpKey uniqueClaims job unique old) :
    (syncUniqueClaim uniqueClaims job unique (some old) (some .cancelled)).isSome = true := by
  have stays := gives.stays
  unfold syncUniqueClaim
  cases keyed : unique.key with
  | none => rfl
  | some key =>
    dsimp only
    split
    · rfl
    · split
      · next enters =>
        simp only [Bool.and_eq_true, Bool.not_eq_true'] at enters
        exact absurd ⟨Option.isSome_iff_exists.2 ⟨key, keyed⟩, enters.2, enters.1⟩ stays
      · rfl

theorem givesUpKey_iff (synced : syncUniqueClaim uniqueClaims job unique (some old)
    (some .cancelled) = some uniqueClaims') :
    (∀ key ∈ unique.key, ⟨key, job⟩ ∉ uniqueClaims') ↔ GivesUpKey uniqueClaims job unique old := by
  constructor
  · refine fun gone => ⟨fun key keyed held => ?_, fun enters => ?_⟩
    · obtain ⟨rfl, -⟩ | ⟨_, -, before, after, -⟩ | ⟨other, named, -, -, inserted⟩ :=
        syncUniqueClaim_cases synced
      · exact absurd held (gone key keyed)
      · exact ⟨before, after⟩
      · exact absurd (mem_insertUniqueClaim inserted) (gone other named)
    · obtain ⟨keyed, before, after⟩ := enters
      obtain ⟨-, unkeyed | same⟩ | ⟨_, -, claimed, -, -⟩ | ⟨other, named, -, -, inserted⟩ :=
        syncUniqueClaim_cases synced
      · rw [unkeyed] at keyed
        cases keyed
      · exact Bool.noConfusion (before.symm.trans (same.trans after))
      · exact Bool.noConfusion (before.symm.trans claimed)
      · exact gone other named (mem_insertUniqueClaim inserted)
  · intro gives key keyed
    obtain ⟨rfl, unkeyed | same⟩ | ⟨other, named, -, -, rfl⟩ | ⟨other, named, before, after, -⟩ :=
      syncUniqueClaim_cases synced
    · rw [unkeyed] at keyed
      cases keyed
    · intro held
      obtain ⟨before, after⟩ := gives.held key keyed held
      exact Bool.noConfusion (before.symm.trans (same.trans after))
    · rw [some_inj.1 (keyed.symm.trans named), mem_filter]
      exact fun kept => of_decide_eq_true kept.2 rfl
    · exact absurd ⟨Option.isSome_iff_exists.2 ⟨other, named⟩, before, after⟩ gives.stays

end

theorem mem_attemptState_commit :
    a ∈ (commitCloser b t x).tables.attemptState.map AttemptStateRow.attempt ↔
    a ∈ b.tables.attemptState.map AttemptStateRow.attempt ∧ a ∉ x.writes.clearedState := by
  simp only [commitCloser, AttemptTables.apply, mem_map, mem_filter, decide_eq_true_eq]
  constructor
  · rintro ⟨row, ⟨mem, kept⟩, rfl⟩
    exact ⟨⟨row, mem, rfl⟩, kept⟩
  · rintro ⟨⟨row, mem, rfl⟩, kept⟩
    exact ⟨row, ⟨mem, kept⟩, rfl⟩

section
variable (inv : CancelInv slots t job s) (returned : s.phase = .returned (.cancelled a lease))
include inv returned

/-- What the commit leaves, if the sync of the unique claim goes through. -/
theorem CancelInv.finish {uniqueClaims : List UniqueClaim}
    (synced : syncUniqueClaim s.uniqueClaims job unique (some (lease.getD .running))
    (some .cancelled) = some uniqueClaims) :
    ∃ s', cancelStep slots t job unique .finish s = some s' ∧ s'.uniqueClaims = uniqueClaims ∧
      (a ∈ s'.tables.attemptState.map AttemptStateRow.attempt ↔
        lease = none ∧ a ∈ s.tables.attemptState.map AttemptStateRow.attempt) ∧
      (a ∉ s'.tables.attemptState.map AttemptStateRow.attempt →
        (∀ key ∈ unique.key, ⟨key, job⟩ ∉ uniqueClaims) → Cancels job unique a s s') := by
  obtain ⟨mine, x, running, written⟩ := inv.stage_of returned
  have committed : attemptStep slots (.commit t) s.base = some (commitCloser s.base t x) := by
    simp [attemptStep, commitAttempt, running, written.script]
  have ok := inv.attempt.closer running
  have after := inv.attempt.commitCloser running written.script
  have won : a ∈ x.writes.won := written.won ▸ mem_singleton_self a
  have ended : a ∈ (commitCloser s.base t x).ended := by
    rw [ended_commitCloser, written.successors]
    exact mem_append_right _ (mem_singleton_self a)
  refine ⟨{ s with base := commitCloser s.base t x, uniqueClaims, phase := .idle }, ?_, rfl, ?_,
    fun state gone => ?_⟩
  · simp only [cancelStep, returned, synced, committed, Option.map_some]
  · refine mem_attemptState_commit.trans ?_
    rw [written.cleared]
    cases lease with
    | none => exact ⟨fun kept => ⟨rfl, kept.1⟩, fun kept => ⟨kept.2, not_mem_nil⟩⟩
    | some state =>
      exact ⟨fun kept => absurd (mem_singleton_self a) kept.2,
      fun kept => absurd kept.1 (Option.some_ne_none state)⟩
  · exact {
      mine := mine
      receipt := fun c mem same => ⟨(ok.won a won).open_ c mem same,
        (after.ended a ended).2 c mem same⟩
      lease := fun leased => (after.live a leased).unsettled ended
      state := state
      unique := gone
      done := congrArg (s.tables.successors ++ ·) written.successors
      others := fun b different => ok.rowsOf_commit inv.attempt.ledger fun taken => by
        rw [written.won] at taken
        exact different (mem_singleton.1 taken)
      otherUnique := fun claim different => mem_syncUniqueClaim_of_ne synced different }

theorem CancelInv.finish_conflict
    (conflict : syncUniqueClaim s.uniqueClaims job unique (some (lease.getD .running))
    (some .cancelled) = none) :
    ∃ s', cancelStep slots t job unique .finish s = some s' ∧ Silent s s' ∧
      s'.base.tx t = none := by
  obtain ⟨mine, x, running, written⟩ := inv.stage_of returned
  refine ⟨{ s with base := s.base.release t, phase := .idle }, ?_,
    (inv.aborts (by rw [running]; rfl)).silent, release_tx _ t⟩
  simp only [cancelStep, returned, conflict]

theorem CancelInv.cancels_iff :
    (∃ s', cancelStep slots t job unique .finish s = some s' ∧ Cancels job unique a s s') ↔
    (lease.isSome = true ∨ a ∉ s.tables.attemptState.map AttemptStateRow.attempt) ∧
      GivesUpKey s.uniqueClaims job unique (lease.getD .running) := by
  constructor
  · rintro ⟨s', stepped, cancels⟩
    cases synced : syncUniqueClaim s.uniqueClaims job unique (some (lease.getD .running))
      (some .cancelled) with
    | none =>
      obtain ⟨s'', again, silent, -⟩ := inv.finish_conflict returned synced
      obtain rfl := some_inj.1 (again.symm.trans stepped)
      have same := congrArg AttemptTables.successors silent.tables
      rw [cancels.done] at same
      exact absurd same (by simp)
    | some uniqueClaims =>
      obtain ⟨s'', again, rfl, state, -⟩ := inv.finish returned synced
      obtain rfl := some_inj.1 (again.symm.trans stepped)
      refine ⟨?_, (givesUpKey_iff synced).1 cancels.unique⟩
      cases lease with
      | some _ => exact .inl rfl
      | none => exact .inr fun before => cancels.state (state.2 ⟨rfl, before⟩)
  · rintro ⟨cleared, gives⟩
    obtain ⟨uniqueClaims, synced⟩ := Option.isSome_iff_exists.1 gives.isSome
    obtain ⟨s', stepped, rfl, state, cancels⟩ := inv.finish returned synced
    refine ⟨s', stepped, cancels (fun kept => ?_) ((givesUpKey_iff synced).2 gives)⟩
    obtain ⟨rfl, before⟩ := state.1 kept
    exact cleared.elim Bool.noConfusion fun absent => absent before

end

theorem giveUp {result : TryResult} (returned : s.phase = .returned result)
    (gave : s.phase.found = none) :
    ∃ s', cancelStep slots t job unique .finish s = some s' ∧ Silent s s' ∧
      s'.base.tx t = none := by
  refine ⟨{ s with base := if (s.base.tx t).isSome then s.base.release t else s.base, phase :=
    .idle }, ?_, ?_, ?_⟩
  · cases result with
    | cancelled a lease =>
      rw [returned] at gave
      cases gave
    | notRunning | left | again | busy | failed => simp only [cancelStep, returned]
  · exact .drops (by split <;> rfl) rfl
  · dsimp only
    split
    · exact release_tx _ t
    · next idle => exact Option.not_isSome_iff_eq_none.1 idle

/-- Every try that is not the last takes the pause or is followed by it. -/
theorem cancelLoop_ends {holdsAttemptLock : Bool} {deadline pause : Nat}
    (least : pause ≤ lastBackoff) {tries : List Try}
    (takes : ∀ attempt ∈ tries, attempt.result = .again → pause ≤ attempt.elapsed)
    {now backoff n : Nat} (waits : pause ≤ backoff)
    (reach : deadline ≤ now + pause * n) (many : n < tries.length) :
    (cancelLoop holdsAttemptLock deadline tries now backoff).isSome = true := by
  induction tries generalizing now backoff n with
  | nil => exact absurd many (Nat.not_lt_zero n)
  | cons attempt rest ih =>
    have later := fun other mem => takes other (mem_cons_of_mem attempt mem)
    have goesOn {next backoff : Nat} (early : now < deadline) (passed : now + pause ≤ next)
        (waits : pause ≤ backoff) :
        (cancelLoop holdsAttemptLock deadline rest next backoff).isSome = true := by
      cases n with
      | zero => omega
      | succ n =>
        rw [Nat.mul_add, Nat.mul_one] at reach
        exact ih later waits (by omega) (Nat.lt_of_succ_lt_succ many)
    rw [cancelLoop]
    cases outcome : attempt.result with
    | again =>
      have took := takes attempt mem_cons_self outcome
      dsimp only
      split
      · rfl
      · exact goesOn (by omega) (by omega) waits
    | busy =>
      dsimp only
      split
      · rfl
      · next early =>
        simp only [Bool.or_eq_true, decide_eq_true_eq, not_or] at early
        exact goesOn (by omega) (by omega) (by omega)
    | cancelled a lease | notRunning | left | failed => rfl

/-- A try writes nothing and cancels no other attempt than the one it has found, up to its end: if
it has cancelled the attempt, its commit closes the receipt and takes the lease, the attempt state
and the unique claim with it, and otherwise, a conflict of unique keys included, nothing is left of
it. The commit does so exactly if the attempt is cancelled through its lease or without attempt
state, and if the sync from the state of the lease to cancelled leaves the job without its key. The
loop ends: if every try that has to be made again takes a `pause` of time, after the tries whose
pauses fill the budget, and one more. -/
theorem cancel_try_all_or_nothing (reached : (cancelMachine slots t job unique).Reachable
    Machine.Always s) : (∀ op s', op.own = true → cancelStep slots t job unique op s = some s' →
      Silent s s' ∨ op = .finish ∧ ∃ a lease, s.phase = .returned (.cancelled a lease)) ∧
    (∀ result, s.phase = .returned result → s.phase.found = none →
      ∃ s', cancelStep slots t job unique .finish s = some s' ∧ Silent s s' ∧ s'.base.tx t = none) ∧
    (∀ a lease, s.phase = .returned (.cancelled a lease) →
      (syncUniqueClaim s.uniqueClaims job unique (some (lease.getD .running)) (some .cancelled) =
        none → ∃ s', cancelStep slots t job unique .finish s = some s' ∧ Silent s s' ∧
      s'.base.tx t = none) ∧
      ((∃ s', cancelStep slots t job unique .finish s = some s' ∧ Cancels job unique a s s') ↔
        (lease.isSome = true ∨ a ∉ s.tables.attemptState.map AttemptStateRow.attempt) ∧
          GivesUpKey s.uniqueClaims job unique (lease.getD .running))) ∧
    ∀ holdsAttemptLock start pause n tries, pause ≤ firstBackoff → cancelBusyBudget ≤ pause * n →
      n < tries.length → (∀ attempt ∈ tries, attempt.result = .again → pause ≤ attempt.elapsed) →
      (cancelLoop holdsAttemptLock (start + cancelBusyBudget) tries start firstBackoff).isSome =
        true := by
  have inv := cancelInv_reachable reached
  refine ⟨fun op s' own stepped => (inv.step stepped).2 own,
    fun result returned gave => giveUp returned gave,
    fun a lease returned => ⟨inv.finish_conflict returned, inv.cancels_iff returned⟩,
    fun holdsAttemptLock start pause n tries short fills many takes => ?_⟩
  have least : pause ≤ lastBackoff := short.trans (by decide)
  exact cancelLoop_ends least takes short (Nat.add_le_add_left fills start) many

/-- An attempt of job 7 that has sent a heartbeat, and its unique claim. -/
def startedJob : List CancelOp :=
  [.other (.claim [⟨7, 0, some 1, ⟨0, 0⟩, 5, none⟩]), .other (.heartbeat ⟨⟨7, 1⟩, some 6⟩),
    .setUnique [⟨"order", 7⟩]]

def cancelThroughLease : List CancelOp :=
  startedJob ++ [.other (.beginMaterialize 2 [⟨7, 1⟩]), .other (.statement 2),
    .other (.statement 2), .other (.commit 2),
    .setWaiting [⟨7, 1⟩], .begin, .read, .tryLock, .read, .lockLease, .write, .write, .write]

def untilTerminal : UniqueColumns := ⟨some "order", some "11101001"⟩

theorem cancel_through_lease :
    ∃ s s', (cancelMachine 2 1 7 untilTerminal).Reachable Machine.Always s ∧
    ⟨7, 1⟩ ∈ s.tables.leased ∧ ⟨7, 1⟩ ∈ s.tables.attemptState.map AttemptStateRow.attempt ∧
    ⟨"order", 7⟩ ∈ s.uniqueClaims ∧ s.leaseState ⟨7, 1⟩ = .waitingExternal ∧
    cancelStep 2 1 7 untilTerminal .finish s = some s' ∧ Cancels 7 untilTerminal ⟨7, 1⟩ s s' := by
  obtain ⟨s, reached, returned, leased, state, claimed, waits⟩ :=
    Machine.reachable_of_run (cancelMachine 2 1 7 untilTerminal) Machine.Always cancelThroughLease
    (fun s => s.phase = .returned (.cancelled ⟨7, 1⟩ (some .waitingExternal)) ∧
      ⟨7, 1⟩ ∈ s.tables.leased ∧
      ⟨7, 1⟩ ∈ s.tables.attemptState.map AttemptStateRow.attempt ∧ ⟨"order", 7⟩ ∈ s.uniqueClaims ∧
      s.leaseState ⟨7, 1⟩ = .waitingExternal) rfl (by decide +kernel)
  obtain ⟨s', stepped, cancelled⟩ := ((cancel_try_all_or_nothing reached).2.2.1 ⟨7,
    1⟩ _ returned).2.2
    ⟨.inl rfl, ⟨fun _ _ _ => ⟨rfl, rfl⟩, fun enters => Bool.noConfusion enters.2.1⟩⟩
  exact ⟨s, s', reached, leased, state, claimed, waits, stepped, cancelled⟩

/-- The mask a job has by default. -/
def untilRunning : UniqueColumns := ⟨some "order", some "11101000"⟩

/-- Cancelled through its receipt, the attempt leaves its row of `attempt_state` behind; cancelled
while it waits for a callback, with the default mask, it leaves its unique claim behind. -/
theorem attempt_state_left_behind :
    (∃ s s', (cancelMachine 2 1 7 untilRunning).Reachable Machine.Always s ∧
    s.phase = .returned (.cancelled ⟨7, 1⟩ none) ∧ cancelStep 2 1 7 untilRunning .finish s =
    some s' ∧ ⟨⟨7, 1⟩, .done⟩ ∈ s'.tables.successors ∧
    ⟨7, 1⟩ ∈ s'.tables.attemptState.map AttemptStateRow.attempt) ∧
    ∃ s s', (cancelMachine 2 1 7 untilRunning).Reachable Machine.Always s ∧
      s.phase = .returned (.cancelled ⟨7, 1⟩ (some .waitingExternal)) ∧
      cancelStep 2 1 7 untilRunning .finish s = some s' ∧
      ⟨⟨7, 1⟩, .done⟩ ∈ s'.tables.successors ∧ ⟨"order", 7⟩ ∈ s'.uniqueClaims := by
  have ends (result : TryResult) (left : CancelState → Prop) [DecidablePred left]
      (ops : List CancelOp) (hits : ((cancelMachine 2 1 7 untilRunning).run Machine.Always ops
          ⟨AttemptState.initial, [], [], .idle⟩).map (fun s =>
        decide (s.phase = .returned result ∧
          (cancelStep 2 1 7 untilRunning .finish s).any (fun s' => decide (left s')) =
            true)) = some true) :
      ∃ s s', (cancelMachine 2 1 7 untilRunning).Reachable Machine.Always s ∧
        s.phase = .returned result ∧ cancelStep 2 1 7 untilRunning .finish s = some s' ∧
          left s' := by
    obtain ⟨s, reached, returned, ended⟩ := Machine.reachable_of_run _ Machine.Always ops
      (fun s => s.phase = .returned result ∧
      (cancelStep 2 1 7 untilRunning .finish s).any (fun s' => decide (left s')) = true) rfl hits
    obtain ⟨s', stepped, there⟩ := (Option.any_eq_true _ _).1 ended
    exact ⟨s, s', reached, returned, stepped, of_decide_eq_true there⟩
  exact ⟨ends _ (fun s' => ⟨⟨7, 1⟩, .done⟩ ∈ s'.tables.successors ∧
      ⟨7, 1⟩ ∈ s'.tables.attemptState.map AttemptStateRow.attempt)
        (startedJob ++ [.begin, .read, .read, .tryLock, .read, .lockReceipt true, .readyRow true,
        .write]) (by decide +kernel),
    ends _ (fun s' => ⟨⟨7, 1⟩, .done⟩ ∈ s'.tables.successors ∧ ⟨"order", 7⟩ ∈ s'.uniqueClaims)
      cancelThroughLease (by decide +kernel)⟩

end AwaQueue.Cancel
