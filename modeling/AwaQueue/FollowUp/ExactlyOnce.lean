import AwaQueue.FollowUp.Finalizer

/-! Follow-ups are inserted exactly once. The transaction that closes an attempt is the one that
inserts its follow-ups, and an attempt is closed once: a retry after a commit that was applied finds
the attempt closed, and one after a commit still under way waits for its locks. -/

namespace AwaQueue

open List Option
open Function (update_of_ne update_self)
open Library

section Store
variable {s s' : AttemptState} {t : TxId} {a : Attempt} {slots : Nat} {op : AttemptOp}

def AttemptStmt.OnlyFor (a : Attempt) : AttemptStmt → Prop
  | .closeReceipts _ targets => ∀ target ∈ targets, target.attempt = a
  | .deleteLeases attempts _ => ∀ b ∈ attempts, b = a
  | .scanReceipts .. | .closeScanned .. => False
  | .lockAttempts _ | .closeReceiptPairs _ | .insertSuccessors .. => True

def Completing (s : AttemptState) (t : TxId) (a : Attempt) : Prop :=
  ∃ x, s.tx t = some (.closer x) ∧ (∀ stmt ∈ x.script, stmt.OnlyFor a) ∧ ∀ b ∈ x.writes.won, b = a

theorem completing_begin {claim : CloseTarget}
    (step : attemptStep slots (.beginClose t (.completeRuntimeBatchSlow [claim])) s = some s') :
    Completing s' t claim.attempt := by
  obtain ⟨-, rfl⟩ := guard_eq_some step
  refine ⟨_, update_self .., ?_, by simp⟩
  simp [CloseOp.script, AttemptStmt.OnlyFor]

theorem Completing.statement (completing : Completing s t a)
    (step : attemptStep slots (.statement t) s = some s') : Completing s' t a := by
  obtain ⟨x, running, only, won⟩ := completing
  simp only [attemptStep, running] at step
  cases script : x.script with
  | nil => simp [script] at step
  | cons stmt rest =>
    simp only [script] at step only
    have later : ∀ stmt ∈ rest, stmt.OnlyFor a := fun stmt mem => only stmt (mem_cons_of_mem _ mem)
    have first := only stmt mem_cons_self
    cases stmt with
    | lockAttempts attempts =>
      obtain ⟨-, rfl⟩ := guard_eq_some step
      exact ⟨_, update_self .., later, won⟩
    | closeReceipts form targets =>
      cases step
      refine ⟨_, update_self .., later, fun b taken => ?_⟩
      rcases mem_append.1 taken with old | new
      · exact won b old
      · obtain ⟨c, found, rfl⟩ := mem_map.1 new
        obtain ⟨target, mem, found⟩ := mem_flatMap.1 found
        have same := (mem_filter.1 found).2
        simp only [Bool.and_eq_true, CloseTarget.matches, decide_eq_true_eq] at same
        rw [same.1.1.1]
        exact first target mem
    | scanReceipts | closeScanned => exact first.elim
    | deleteLeases attempts skipLocked =>
      obtain ⟨-, rfl⟩ := guard_eq_some step
      refine ⟨_, update_self .., later, fun b taken => ?_⟩
      rcases mem_append.1 taken with old | new
      · exact won b old
      · have matched := (mem_filter.1 (mem_filter.1 new).1).2
        simp only [Bool.and_eq_true, decide_eq_true_eq] at matched
        exact first b matched.1
    | closeReceiptPairs checked =>
      cases step
      exact ⟨_, update_self .., later, won⟩
    | insertSuccessors kinds rescue =>
      obtain ⟨rows, -, rfl⟩ := map_eq_some_iff.1 step
      exact ⟨_, update_self .., later, won⟩

theorem ended_subset (step : attemptStep slots op s = some s') : s.ended ⊆ s'.ended := by
  cases tableStep step with
  | quiet same => rw [same.ended]; exact fun _ => id
  | closer running ended =>
    rw [ended_commitCloser]
    exact subset_append_left _ _
  | _ => exact fun _ => id

theorem Completing.won (completing : Completing s t a) (updated : s.updated t = some true) :
    ∃ x, s.tx t = some (.closer x) ∧ x.script = [] ∧ a ∈ x.writes.won := by
  obtain ⟨x, running, -, won⟩ := completing
  simp only [AttemptState.updated, running] at updated
  split at updated
  next ended =>
    refine ⟨x, running, isEmpty_iff.1 ended, ?_⟩
    obtain ⟨b, mem⟩ := exists_mem_of_ne_nil x.writes.won (by simpa using updated)
    exact won b mem ▸ mem
  next => cases updated

theorem Completing.commit (slots : Nat) (completing : Completing s t a)
    (updated : s.updated t = some true) (inv : AttemptInv s) :
    a ∉ s.ended ∧ ∃ s', attemptStep slots (.commit t) s = some s' ∧ a ∈ s'.ended := by
  obtain ⟨x, running, ended, mem⟩ := completing.won updated
  have ok := inv.closer running
  refine ⟨(ok.won a mem).unsettled, commitCloser s t x, ?_, ?_⟩
  · simp [attemptStep, commitAttempt, running, ended]
  · have accounted := ok.accounted a mem
    rw [ok.settled ended] at accounted
    rw [ended_commitCloser]
    exact mem_append_right _ (accounted.resolve_left not_mem_nil)

end Store

def FollowUp.Admits : FollowUp → Fate → Prop
  | .declined, .declined => True
  | .request _, .inserted _ => True
  | .request (some _), .duplicate _ => True
  | _, _ => False

def Fate.isInserted : Fate → Bool
  | .inserted _ => true
  | .declined | .duplicate _ => false

def Fate.rows (a : Attempt) (index : Nat) : Fate → List FollowUpRow
  | .inserted jobId => [⟨a, index, jobId⟩]
  | .declined | .duplicate _ => []

def fateRows (a : Attempt) (fates : List Fate) : List FollowUpRow :=
  fates.zipIdx.flatMap fun fate => fate.1.rows a fate.2

theorem fateRows_concat (a : Attempt) (fates : List Fate) (fate : Fate) :
    fateRows a (fates ++ [fate]) = fateRows a fates ++ fate.rows a fates.length := by
  simp [fateRows, zipIdx_append]

structure TxInv (store : AttemptState) (finalizer : Attempt → Option Finalizer) (t : TxId)
    (x : CompletionTx) : Prop where
  completing : Completing store t x.attempt
  closed : x.dispatching = true → store.updated t = some true
  plan : ∃ f done, finalizer x.attempt = some f ∧ f.plan = done ++ x.rest ∧
    List.Forall₂ FollowUp.Admits done x.fates
  rows : x.rows = fateRows x.attempt x.fates
  sent : x.lost = some true → x.ready = true

structure FollowUpInv (slots : Nat) (s : FollowUpState) : Prop where
  reached : (attemptMachine slots).Reachable Machine.Always s.store
  tx : ∀ t x, s.tx t = some x → TxInv s.store s.finalizer t x
  closed : ∀ r ∈ s.completed, r.1 ∈ s.store.ended
  plans : ∀ r ∈ s.completed, ∃ f, s.finalizer r.1 = some f ∧ List.Forall₂ FollowUp.Admits f.plan r.2
  once : (s.completed.map Prod.fst).Nodup
  jobs : s.jobs = s.completed.flatMap fun r => fateRows r.1 r.2
  applied : ∀ a f, s.finalizer a = some f → f.outcome = some .applied → a ∈ s.completed.map Prod.fst
  claims : ∀ a f, s.finalizer a = some f → f.claim.attempt = a

theorem followUpInv_initial {slots : Nat} {s : FollowUpState} (initial : s.Initial) :
    FollowUpInv slots s := by
  obtain ⟨store, -, jobs, tx, finalizer, completed⟩ := initial
  refine ⟨.start store, fun t x running => ?_, ?_, ?_, ?_, ?_, fun a f known => ?_,
    fun a f known => ?_⟩
  · rw [tx t] at running
    cases running
  · simp [completed]
  · simp [completed]
  · simp [completed]
  · simp [completed, jobs]
  · rw [finalizer a] at known
    cases known
  · rw [finalizer a] at known
    cases known

section Steps
variable {s s' : FollowUpState} {t u : TxId} {x y : CompletionTx} {a : Attempt} {f g : Finalizer}
  {slots : Nat} {op : AttemptOp} {store : AttemptState} {followUp : FollowUp} {rest : List FollowUp}
    {fates : List Fate}

theorem FollowUpInv.attempts (inv : FollowUpInv slots s) : AttemptInv s.store :=
  (attemptInv_reachable inv.reached).toAttemptInv

section
variable (step : attemptStep slots op s.store = some store)
include step

theorem FollowUpInv.reach (inv : FollowUpInv slots s) :
    (attemptMachine slots).Reachable Machine.Always store :=
  .next inv.reached trivial step

theorem TxInv.store_step (ok : TxInv s.store s.finalizer t x)
    (other : op.transaction ≠ some t) : TxInv store s.finalizer t x := by
  have same := (attemptStep_frame step other).1
  have updated : store.updated t = s.store.updated t := by
    unfold AttemptState.updated
    rw [same]
  refine ⟨?_, ?_, ok.plan, ok.rows, ok.sent⟩
  · unfold Completing
    rw [same]
    exact ok.completing
  · rw [updated]
    exact ok.closed

theorem FollowUpInv.withStore (inv : FollowUpInv slots s)
    (txs : ∀ t x, s.tx t = some x → TxInv store s.finalizer t x) :
    FollowUpInv slots { s with store := store } :=
  ⟨inv.reach step, txs, fun r mem => ended_subset step (inv.closed r mem), inv.plans, inv.once,
    inv.jobs, inv.applied, inv.claims⟩

end

theorem FollowUpInv.setTx (inv : FollowUpInv slots s) (ok : TxInv s.store s.finalizer t x) :
    FollowUpInv slots (s.setTx t x) := by
  refine { inv with tx := fun u y running => ?_ }
  rcases update_eq_some running with ⟨rfl, same⟩ | ⟨-, old⟩
  · cases same
    exact ok
  · exact inv.tx u y old

theorem FollowUpInv.setFinalizer (inv : FollowUpInv slots s)
    (plan : ∀ f, s.finalizer a = some f → g.plan = f.plan) (claimed : g.claim.attempt = a)
    (applied : g.outcome = some .applied → a ∈ s.completed.map Prod.fst) :
    FollowUpInv slots (s.setFinalizer a g) := by
  have kept b h (present : s.finalizer b = some h) :
      ∃ h', (s.setFinalizer a g).finalizer b = some h' ∧ h'.plan = h.plan := by
    by_cases same : b = a
    · subst same
      exact ⟨g, update_self .., plan h present⟩
    · exact ⟨h, (update_of_ne same ..).trans present, rfl⟩
  refine { inv with
    tx := fun u y running => ?_, plans := fun r mem => ?_, applied := fun b h present outcome =>
      ?_, claims := fun b h present => ?_ }
  · have ok := inv.tx u y running
    obtain ⟨h, done, present, split, fates⟩ := ok.plan
    obtain ⟨h', present', same⟩ := kept _ h present
    exact { ok with plan := ⟨h', done, present', same.trans split, fates⟩ }
  · obtain ⟨h, present, fates⟩ := inv.plans r mem
    obtain ⟨h', present', same⟩ := kept _ h present
    exact ⟨h', present', same ▸ fates⟩
  · rcases update_eq_some present with ⟨rfl, same⟩ | ⟨-, old⟩
    · cases same
      exact applied outcome
    · exact inv.applied b h old outcome
  · rcases update_eq_some present with ⟨rfl, same⟩ | ⟨-, old⟩
    · cases same
      exact claimed
    · exact inv.claims b h old

def Finalizer.Follows (f g : Finalizer) : Prop := g.plan = f.plan ∧ g.claim = f.claim

theorem FollowUpInv.follow (inv : FollowUpInv slots s) (known : s.finalizer a = some f)
    (follows : f.Follows g) (applied : g.outcome = some .applied → a ∈ s.completed.map Prod.fst) :
    FollowUpInv slots (s.setFinalizer a g) := by
  refine inv.setFinalizer (fun h present => ?_) (follows.2 ▸ inv.claims a f known) applied
  cases known.symm.trans present
  exact follows.1

theorem FollowUpInv.conclude (inv : FollowUpInv slots s) {note : Finalizer → Finalizer}
    (follows : ∀ f : Finalizer, f.Follows (note f))
    (applied : ∀ f, (note f).outcome = some .applied → f.outcome = some .applied ∨
    a ∈ s.completed.map Prod.fst) : FollowUpInv slots (s.conclude t a note) := by
  unfold FollowUpState.conclude
  split
  next fin known =>
    split
    · refine inv.follow known (follows _) fun outcome => ?_
      rcases applied _ outcome with old | done
      · exact inv.applied a fin known old
      · exact done
    · exact inv
  next => exact inv

theorem Finalizer.afterError_follows (f : Finalizer) (fault : FinalizeFault) :
    f.Follows (f.afterError fault) := by
  cases fault with
  | connectionLost | other => exact ⟨rfl, rfl⟩
  | deadlock | undefinedColumn =>
    simp only [Finalizer.afterError]
    split <;> exact ⟨rfl, rfl⟩

theorem Finalizer.afterError_applied (f : Finalizer) (fault : FinalizeFault)
    (applied : (f.afterError fault).outcome = some .applied) : f.outcome = some .applied := by
  cases fault with
  | connectionLost => exact applied
  | other => cases applied
  | deadlock | undefinedColumn =>
    simp only [Finalizer.afterError] at applied
    split at applied
    · first | exact applied | cases applied
    · first | exact applied | cases applied

theorem FollowUpInv.endTx (inv : FollowUpInv slots s)
    (step : attemptStep slots op s.store = some store) (acting : op.transaction = some t)
    (running : (s.endTx t).tx u = some y) : TxInv store s.finalizer u y := by
  rcases update_eq_some running with ⟨-, gone⟩ | ⟨actor, old⟩
  · cases gone
  · refine (inv.tx u y old).store_step step fun same => actor ?_
    exact some_inj.1 (same.symm.trans acting)

theorem FollowUpInv.abort (inv : FollowUpInv slots s)
    (aborted : abortCompletion slots s t = some s') : FollowUpInv slots s' := by
  obtain ⟨store, step, rfl⟩ := map_eq_some_iff.1 aborted
  exact ⟨inv.reach step, fun u y => inv.endTx step rfl,
    fun r mem => ended_subset step (inv.closed r mem), inv.plans,
    inv.once, inv.jobs, inv.applied, inv.claims⟩

theorem FollowUpInv.commit (inv : FollowUpInv slots s) (running : s.tx t = some x)
    (ready : x.ready = true) (committed : commitCompletion slots s t x = some s') :
    FollowUpInv slots s' ∧ x.attempt ∈ s'.completed.map Prod.fst := by
  obtain ⟨store, step, rfl⟩ := map_eq_some_iff.1 committed
  have ok := inv.tx t x running
  obtain ⟨dispatching, finished⟩ := Bool.and_eq_true_iff.1 ready
  obtain ⟨open_, after, again, ended⟩ :=
    ok.completing.commit slots (ok.closed dispatching) inv.attempts
  obtain rfl := some_inj.1 (step.symm.trans again)
  refine ⟨⟨inv.reach step, fun u y => inv.endTx step rfl, ?_, ?_, ?_, ?_,
    fun b f known outcome => ?_, inv.claims⟩, by simp⟩
  · intro r mem
    rcases mem_append.1 mem with old | new
    · exact ended_subset step (inv.closed r old)
    · obtain rfl := mem_singleton.1 new
      exact ended
  · intro r mem
    rcases mem_append.1 mem with old | new
    · exact inv.plans r old
    · obtain rfl := mem_singleton.1 new
      obtain ⟨f, done, known, split, fates⟩ := ok.plan
      rw [isEmpty_iff.1 finished, append_nil] at split
      exact ⟨f, known, split ▸ fates⟩
  · rw [map_append]
    refine inv.once.append (nodup_singleton _) ?_
    simp only [map_cons, map_nil, disjoint_singleton]
    intro before
    obtain ⟨r, mem, same⟩ := mem_map.1 before
    exact open_ (same ▸ inv.closed r mem)
  · rw [flatMap_append, ← inv.jobs]
    simp [ok.rows]
  · rw [map_append]
    exact mem_append_left _ (inv.applied b f known outcome)

theorem TxInv.extend (ok : TxInv s.store s.finalizer t x) {fate : Fate}
    {rows : List FollowUpRow} {claims : List (Nat × Nat)} (next : x.rest = followUp :: rest)
    (live : x.lost = none) (admits : followUp.Admits fate)
    (written : rows = x.rows ++ fate.rows x.attempt x.fates.length) : TxInv s.store s.finalizer t
      { x with rest := rest, fates := x.fates ++ [fate], rows := rows, claims := claims } := by
  refine ⟨ok.completing, ok.closed, ?_, ?_, ?_⟩
  · obtain ⟨f, done, known, split, fates⟩ := ok.plan
    refine ⟨f, done ++ [followUp], known, ?_, rel_append fates (.cons admits .nil)⟩
    rw [split, next, append_assoc]
    rfl
  · change rows = fateRows x.attempt (x.fates ++ [fate])
    rw [written, ok.rows, fateRows_concat]
  · intro sent
    rw [live] at sent
    cases sent

/-- A follow-up gets its fate, with its row if it is inserted; it is a duplicate only if its key is
held, by a job that the transaction sees. -/
theorem insertFollowUp_cases (step : insertFollowUp s t x = some s') :
    ∃ followUp rest fate nextJobId keyLock claims, x.rest = followUp :: rest ∧
      followUp.Admits fate ∧
      s' = { s with nextJobId, keyLock }.setTx t
        { x with rest, fates := x.fates ++ [fate], rows := x.rows ++
          fate.rows x.attempt x.fates.length, claims } ∧
      ∀ holder, fate = .duplicate holder → ∃ key, followUp = .request (some key) ∧
        (s.visibleClaims x).lookup key = some holder := by
  unfold insertFollowUp at step
  split at step
  next => cases step
  next => cases step
  next rest next_ =>
    cases step
    exact ⟨_, rest, .declined, _, _, _, next_,
      trivial, by rw [Fate.rows, append_nil], by rintro _ ⟨⟩⟩
  next uniqueKey rest next_ =>
    dsimp only at step
    split at step
    · cases step
      exact ⟨_, rest, .inserted _, _, _, _, next_, trivial, rfl, by rintro _ ⟨⟩⟩
    · split at step
      · split at step
        · next holder held =>
          cases step
          refine ⟨_, rest, .duplicate holder, _, _, _, next_,
            trivial, by rw [Fate.rows, append_nil], fun other same => ?_⟩
          cases same
          exact ⟨_, rfl, held⟩
        · cases step
          exact ⟨_, rest, .inserted _, _, _, _, next_, trivial, rfl, by rintro _ ⟨⟩⟩
      · cases step

theorem FollowUpInv.insertFollowUp (inv : FollowUpInv slots s) (running : s.tx t = some x)
    (live : x.lost = none) (step : insertFollowUp s t x = some s') : FollowUpInv slots s' := by
  obtain ⟨followUp, rest, fate, nextJobId, keyLock, claims, next, admits, rfl, -⟩ :=
    insertFollowUp_cases step
  have plain : FollowUpInv slots { s with nextJobId, keyLock } := { inv with }
  exact plain.setTx ((inv.tx t x running).extend next live admits rfl)

theorem live_eq_some : s.live t = some x ↔ s.tx t = some x ∧ x.lost = none := by
  simp [FollowUpState.live, filter_eq_some_iff]

theorem FollowUpInv.loseConnection (inv : FollowUpInv slots s) (running : s.tx t = some x)
    {commitSent : Bool} (step : s.loseConnection t x commitSent = some s') :
    FollowUpInv slots s' ∧ s'.finalizer = s.finalizer := by
  unfold FollowUpState.loseConnection at step
  obtain ⟨ready, rfl⟩ := guard_eq_some step
  have ok := inv.tx t x running
  exact ⟨inv.setTx ⟨ok.completing, ok.closed, ok.plan, ok.rows,
    fun sent => ready (some_inj.1 sent)⟩, rfl⟩

theorem FollowUpInv.begin_ (inv : FollowUpInv slots s) (known : s.finalizer a = some f)
    (free : s.tx t = none) (step : s.begin_ slots a t f = some s') : FollowUpInv slots s' := by
  obtain ⟨store, began, rfl⟩ := map_eq_some_iff.1 step
  have others : FollowUpInv slots { s with store := store } := by
    refine inv.withStore began fun u y running => (inv.tx u y running).store_step began fun same =>
      ?_
    obtain rfl : t = u := some_inj.1 same
    rw [free] at running
    cases running
  have completing : Completing store t a := inv.claims a f known ▸ completing_begin began
  refine (others.setTx (x := ⟨a, f.uniqueKey, false, f.plan, [], [], [], none⟩)
    ⟨completing, by simp, ⟨f, [], known, rfl, .nil⟩, rfl, by simp⟩).follow known ⟨rfl, rfl⟩ ?_
  exact inv.applied a f known

section
variable (inv : FollowUpInv slots s)
include inv

theorem FollowUpInv.storeStep {op : AttemptOp} (step : followUpStep slots (.store op) s = some s') :
    FollowUpInv slots s' := by
  simp only [followUpStep] at step
  split at step
  next foreign =>
    obtain ⟨store, moved, rfl⟩ := map_eq_some_iff.1 step
    refine inv.withStore moved fun u y running =>
      (inv.tx u y running).store_step moved fun acting => ?_
    rw [acting, bind_some, running] at foreign
    cases foreign
  next => cases step

theorem FollowUpInv.begins (step : followUpStep slots (.begin a t) s = some s') :
    FollowUpInv slots s' := by
  obtain ⟨f, known, began⟩ := bind_eq_some_iff.1 step
  split at began
  next idle => exact inv.begin_ known (isNone_iff_eq_none.1 idle.2.2) began
  next => cases began

theorem FollowUpInv.statement (step : followUpStep slots (.statement t) s = some s') :
    FollowUpInv slots s' := by
  obtain ⟨x, live, moved⟩ := bind_eq_some_iff.1 step
  obtain ⟨running, -⟩ := live_eq_some.1 live
  split at moved
  · cases moved
  next closing =>
    obtain ⟨store, ran, rfl⟩ := map_eq_some_iff.1 moved
    refine inv.withStore ran fun u y mine => ?_
    by_cases actor : u = t
    · subst actor
      rw [running] at mine
      cases mine
      have ok := inv.tx u x running
      exact ⟨ok.completing.statement ran, fun dispatching => absurd dispatching closing, ok.plan,
        ok.rows, ok.sent⟩
    · exact (inv.tx u y mine).store_step ran fun acting => actor (some_inj.1 acting).symm

theorem FollowUpInv.dispatch (step : followUpStep slots (.dispatch t) s = some s') :
    FollowUpInv slots s' := by
  obtain ⟨x, live, moved⟩ := bind_eq_some_iff.1 step
  obtain ⟨running, connected⟩ := live_eq_some.1 live
  obtain ⟨⟨-, updated, -⟩, rfl⟩ := guard_eq_some moved
  have ok := inv.tx t x running
  have locked : ∀ keyLock, FollowUpInv slots { s with keyLock := keyLock } :=
    fun _ => { inv with }
  refine (locked _).setTx ⟨ok.completing, fun _ => updated, ok.plan, ok.rows, fun sent => ?_⟩
  rw [connected] at sent
  cases sent

theorem FollowUpInv.rollbackStale (step : followUpStep slots (.rollbackStale t) s = some s') :
    FollowUpInv slots s' := by
  obtain ⟨x, -, moved⟩ := bind_eq_some_iff.1 step
  split at moved
  · obtain ⟨after, aborted, rfl⟩ := map_eq_some_iff.1 moved
    refine (inv.abort aborted).conclude (fun _ => ⟨rfl, rfl⟩) fun f outcome => ?_
    cases outcome
  · cases moved

theorem FollowUpInv.commits (step : followUpStep slots (.commit t) s = some s') :
    FollowUpInv slots s' := by
  obtain ⟨x, live, moved⟩ := bind_eq_some_iff.1 step
  obtain ⟨running, -⟩ := live_eq_some.1 live
  split at moved
  next ready =>
    obtain ⟨after, committed, rfl⟩ := map_eq_some_iff.1 moved
    obtain ⟨kept, done⟩ := inv.commit running ready committed
    exact kept.conclude (fun _ => ⟨rfl, rfl⟩) fun _ _ => .inr done
  next => cases moved

theorem FollowUpInv.error {fault : FinalizeFault}
    (step : followUpStep slots (.error t fault) s = some s') : FollowUpInv slots s' := by
  obtain ⟨x, -, moved⟩ := bind_eq_some_iff.1 step
  split at moved
  · cases moved
  · obtain ⟨after, aborted, rfl⟩ := map_eq_some_iff.1 moved
    exact (inv.abort aborted).conclude (fun f => f.afterError_follows fault) fun f outcome =>
      .inl (f.afterError_applied fault outcome)

theorem FollowUpInv.disconnect {commitSent : Bool}
    (step : followUpStep slots (.disconnect t commitSent) s = some s') : FollowUpInv slots s' := by
  obtain ⟨x, live, moved⟩ := bind_eq_some_iff.1 step
  obtain ⟨running, -⟩ := live_eq_some.1 live
  obtain ⟨after, lost, rfl⟩ := map_eq_some_iff.1 moved
  exact (inv.loseConnection running lost).1.conclude (fun f => f.afterError_follows _)
      fun f outcome =>
    .inl (f.afterError_applied _ outcome)

theorem FollowUpInv.abandon {commitSent : Bool}
    (step : followUpStep slots (.abandon a commitSent) s = some s') : FollowUpInv slots s' := by
  obtain ⟨f, known, moved⟩ := bind_eq_some_iff.1 step
  simp only at moved
  split at moved
  · cases moved
  · split at moved
    · cases moved
      exact inv.follow known ⟨rfl, rfl⟩ fun outcome => by cases outcome
    · obtain ⟨x, live, moved⟩ := bind_eq_some_iff.1 moved
      obtain ⟨after, lost, rfl⟩ := map_eq_some_iff.1 moved
      obtain ⟨kept, same⟩ := inv.loseConnection (live_eq_some.1 live).1 lost
      exact kept.follow ((congrFun same a).trans known) ⟨rfl, rfl⟩ fun outcome => by cases outcome

theorem FollowUpInv.resolve {committed : Bool}
    (step : followUpStep slots (.resolve t committed) s = some s') : FollowUpInv slots s' := by
  obtain ⟨x, running, moved⟩ := bind_eq_some_iff.1 step
  split at moved
  · cases moved
  · split at moved
    · split at moved
      next sent => exact (inv.commit running ((inv.tx t x running).sent sent) moved).1
      next => cases moved
    · exact inv.abort moved

theorem FollowUpInv.step {op : FollowUpOp} (step : followUpStep slots op s = some s') :
    FollowUpInv slots s' := by
  cases op with
  | store op => exact inv.storeStep step
  | claimKey key job | releaseKey key =>
    obtain ⟨-, rfl⟩ := guard_eq_some step
    exact { inv with }
  | returned claim plan uniqueKey =>
    obtain ⟨⟨new, -⟩, rfl⟩ := guard_eq_some step
    refine inv.setFinalizer (fun f present => ?_) rfl fun outcome => by cases outcome
    rw [isNone_iff_eq_none.1 new] at present
    cases present
  | begin a t => exact inv.begins step
  | statement t => exact inv.statement step
  | dispatch t => exact inv.dispatch step
  | rollbackStale t => exact inv.rollbackStale step
  | insertFollowUp t =>
    obtain ⟨x, live, moved⟩ := bind_eq_some_iff.1 step
    obtain ⟨running, connected⟩ := live_eq_some.1 live
    split at moved
    · exact inv.insertFollowUp running connected moved
    · cases moved
  | commit t => exact inv.commits step
  | error t fault => exact inv.error step
  | disconnect t commitSent => exact inv.disconnect step
  | abandon a commitSent => exact inv.abandon step
  | resolve t committed => exact inv.resolve step

end

theorem followUpInv_reachable (reached : (followUpMachine slots).Reachable Machine.Always s) :
    FollowUpInv slots s :=
  reached.invariant (fun _ initial => followUpInv_initial initial) fun _ _ _ _ inv _ step =>
    inv.step step

theorem index_lt_of_mem_fateRows {row : FollowUpRow} (mem : row ∈ fateRows a fates) :
    row.trigger = a ∧ row.index < fates.length := by
  obtain ⟨⟨fate, index⟩, present, written⟩ := mem_flatMap.1 mem
  have bound := snd_lt_of_mem_zipIdx present
  cases fate with
  | inserted jobId =>
    obtain rfl := mem_singleton.1 written
    exact ⟨rfl, bound⟩
  | declined | duplicate => cases written

theorem countP_fateRows (a : Attempt) (fates : List Fate) (i : Nat) :
    ((fateRows a fates).countP fun row => row.index = i) = if fates[i]?.any Fate.isInserted then
      1 else 0 := by
  induction fates using reverseRecOn with
  | nil => simp [fateRows]
  | append_singleton fates fate ih =>
    rw [fateRows_concat, countP_append, ih]
    by_cases last : i = fates.length
    · subst last
      have none : ((fateRows a fates).countP fun row => row.index = fates.length) = 0 := by
        refine countP_eq_zero.2 fun row mem => ?_
        have bound := (index_lt_of_mem_fateRows mem).2
        simp only [decide_eq_true_eq]
        omega
      rw [← ih, none]
      cases fate <;> simp [Fate.rows, Fate.isInserted]
    · have same : (fates ++ [fate])[i]? = fates[i]? := by
        rcases Nat.lt_or_gt_of_ne last with before | after
        · exact getElem?_append_left before
        · rw [getElem?_eq_none (by simp; omega), getElem?_eq_none (by omega)]
      have other : ((fate.rows a fates.length).countP fun row => row.index = i) = 0 := by
        cases fate <;> simp [Fate.rows, Ne.symm last]
      rw [same, other, Nat.add_zero]

theorem FollowUpInv.countP_jobs (inv : FollowUpInv slots s) (mem : (a, fates) ∈ s.completed)
    (i : Nat) : (s.jobs.countP fun row => row.trigger = a && row.index = i) =
      (fateRows a fates).countP fun row => row.index = i := by
  obtain ⟨before, after, split⟩ := append_of_mem mem
  have once := inv.once
  rw [split, map_append, map_cons, nodup_middle, nodup_cons, ← map_append] at once
  have others : ∀ r ∈ before ++ after, ∀ row ∈ fateRows r.1 r.2, row.trigger ≠ a := by
    intro r present row written same
    have key : r.1 = a := (index_lt_of_mem_fateRows written).1.symm.trans same
    have other : r.1 ∈ (before ++ after).map Prod.fst := mem_map_of_mem present
    rw [key] at other
    exact once.1 other
  have none : ∀ completed : List (Attempt × List Fate), completed ⊆ before ++ after →
      ((completed.flatMap fun r => fateRows r.1 r.2).countP fun row => row.trigger = a &&
        row.index = i) = 0 := by
    intro completed part
    refine countP_eq_zero.2 fun row written => ?_
    obtain ⟨r, present, written⟩ := mem_flatMap.1 written
    simp [others r (part present) row written]
  rw [inv.jobs, split, flatMap_append, flatMap_cons, countP_append, countP_append,
    none before (subset_append_left _ _), none after (subset_append_right _ _), Nat.zero_add,
      Nat.add_zero]
  refine countP_congr fun row written => ?_
  simp [(index_lt_of_mem_fateRows written).1]

/-- What an attempt with follow-ups comes to: its completion takes effect at most once; if it does,
each follow-up is inserted once, or declined, or skipped as a duplicate; and if not, no follow-up is
inserted. -/
structure FollowUpState.ExactlyOnce (s : FollowUpState) (a : Attempt) (f : Finalizer) : Prop where
  once : (s.completed.map Prod.fst).count a ≤ 1
  closed : a ∈ s.completed.map Prod.fst → a ∈ s.store.ended
  inserted : ∀ fates, (a, fates) ∈ s.completed → List.Forall₂ FollowUp.Admits f.plan fates ∧
    ∀ i, (s.jobs.countP fun row => row.trigger = a && row.index = i) =
      if fates[i]?.any Fate.isInserted then 1 else 0
  otherwise : a ∉ s.completed.map Prod.fst → ∀ row ∈ s.jobs, row.trigger ≠ a
  acknowledged : f.outcome = some .applied → a ∈ s.completed.map Prod.fst

theorem FollowUpInv.exactlyOnce (inv : FollowUpInv slots s) (known : s.finalizer a = some f) :
    s.ExactlyOnce a f where
  once := nodup_iff_count_le_one.1 inv.once a
  closed := by
    intro mem
    obtain ⟨r, present, rfl⟩ := mem_map.1 mem
    exact inv.closed r present
  inserted := by
    intro fates mem
    obtain ⟨g, known', admits⟩ := inv.plans _ mem
    obtain rfl := some_inj.1 (known.symm.trans known')
    refine ⟨admits, fun i => ?_⟩
    rw [inv.countP_jobs mem, countP_fateRows]
  otherwise := by
    intro never row mem same
    rw [inv.jobs] at mem
    obtain ⟨r, present, written⟩ := mem_flatMap.1 mem
    exact never (same ▸ (index_lt_of_mem_fateRows written).1 ▸ mem_map_of_mem present)
  acknowledged := inv.applied a f known

theorem duplicate_of_insertFollowUp {holder : Nat} (step : insertFollowUp s t x = some s')
    (after : s'.tx t = some y) (skipped : y.fates = x.fates ++ [.duplicate holder]) :
    ∃ key rest, x.rest = .request (some key) :: rest ∧ (s.visibleClaims x).lookup key =
      some holder := by
  obtain ⟨followUp, rest, fate, _, _, _, next, -, rfl, held⟩ := insertFollowUp_cases step
  rcases update_eq_some after with ⟨-, same⟩ | ⟨other, -⟩
  · cases same
    obtain ⟨key, rfl, here⟩ := held holder (by simpa using skipped)
    exact ⟨key, rest, next, here⟩
  · exact absurd rfl other

def Insertable (s : FollowUpState) (t : TxId) : FollowUp → Prop
  | .invalid => False
  | .request (some key) => s.keyFree t key = true
  | _ => True

theorem keyFree_iff {key : Nat} :
    s.keyFree t key = true ↔ s.keyLock key = none ∨ s.keyLock key = some t := by
  simp [FollowUpState.keyFree]

theorem Insertable.mono (able : Insertable s t followUp)
    (keys : ∀ key, s.keyFree t key = true → s'.keyFree t key = true) :
    Insertable s' t followUp := by
  cases followUp with
  | declined => trivial
  | invalid => exact able
  | request uniqueKey =>
    cases uniqueKey with
    | none => trivial
    | some key => exact keys key able

theorem insertFollowUp_goes_on (next_ : x.rest = followUp :: rest)
    (able : Insertable s t followUp) :
      ∃ s' y, insertFollowUp s t x = some s' ∧ s'.tx t = some y ∧ y.rest = rest ∧
      y.attempt = x.attempt ∧ y.dispatching = x.dispatching ∧ y.lost = x.lost ∧ s'.store = s.store ∧
      ∀ key, s.keyFree t key = true → s'.keyFree t key = true := by
  unfold insertFollowUp
  rw [next_]
  cases followUp with
  | declined => exact ⟨_, _, rfl, update_self .., rfl, rfl, rfl, rfl, rfl, fun _ => id⟩
  | invalid => cases able
  | request uniqueKey =>
    cases uniqueKey with
    | none => exact ⟨_, _, rfl, update_self .., rfl, rfl, rfl, rfl, rfl, fun _ => id⟩
    | some key =>
      have free : s.keyFree t key = true := able
      simp only [free, if_true]
      cases (s.visibleClaims x).lookup key with
      | some holder => exact ⟨_, _, rfl, update_self .., rfl, rfl, rfl, rfl, rfl, fun _ => id⟩
      | none =>
        refine ⟨_, _, rfl, update_self .., rfl, rfl, rfl, rfl, rfl, fun other mine => ?_⟩
        rw [keyFree_iff] at mine ⊢
        simp only [FollowUpState.setTx]
        by_cases same : other = key
        · subst same
          exact .inr (update_self ..)
        · rwa [update_of_ne same]

theorem conclude_completed (s : FollowUpState) (t : TxId) (a : Attempt)
    (note : Finalizer → Finalizer) : (s.conclude t a note).completed = s.completed := by
  unfold FollowUpState.conclude
  split
  · split <;> rfl
  · rfl

/-- From the closing of the attempt, the statements of the transaction lead to its commit. -/
theorem FollowUpInv.completes (inv : FollowUpInv slots s) (live : s.live t = some x)
    (dispatching : x.dispatching = true) (able : ∀ followUp ∈ x.rest, Insertable s t followUp) :
        ∃ s', (followUpMachine slots).run Machine.Always
        (replicate x.rest.length (.insertFollowUp t) ++ [.commit t]) s = some s' ∧
      x.attempt ∈ s'.completed.map Prod.fst := by
  generalize rest_eq : x.rest = rest at able ⊢
  -- one follow-up a step; the commit comes when none is left
  induction rest generalizing s x with
  | nil =>
    have ok := inv.tx t x (live_eq_some.1 live).1
    obtain ⟨-, store, stored, -⟩ := ok.completing.commit slots (ok.closed dispatching) inv.attempts
    have ready : x.ready = true := by simp [CompletionTx.ready, dispatching, rest_eq]
    obtain ⟨after, committed⟩ : ∃ after, commitCompletion slots s t x = some after := by
      rw [commitCompletion, stored]
      exact ⟨_, rfl⟩
    have done := (inv.commit (live_eq_some.1 live).1 ready committed).2
    have step : followUpStep slots (.commit t) s =
        some (after.conclude t x.attempt fun f => { f with outcome := some .applied }) := by
      simp only [followUpStep, live, bind_some, ready, if_true, committed, map_some]
    rw [← conclude_completed after t x.attempt fun f => { f with outcome := some .applied }] at done
    exact ⟨_, Machine.run_of_step trivial step rfl, done⟩
  | cons followUp rest ih =>
    obtain ⟨after, y, inserted, running, left, attempt, phase, lost, -, keys⟩ :=
      insertFollowUp_goes_on rest_eq (able followUp mem_cons_self)
    have step : followUpStep slots (.insertFollowUp t) s = some after := by
      simp only [followUpStep, live, bind_some, dispatching, if_true, inserted]
    have live' : after.live t = some y :=
      live_eq_some.2 ⟨running, lost.trans (live_eq_some.1 live).2⟩
    obtain ⟨s', ran, done⟩ := ih (inv.step step) live' (phase.trans dispatching) left
        fun other mem =>
      (able other (mem_cons_of_mem _ mem)).mono keys
    refine ⟨s', ?_, attempt ▸ done⟩
    rw [length_cons, replicate_succ, cons_append]
    exact Machine.run_of_step trivial step ran

/-- Every attempt with follow-ups comes to its follow-ups exactly once; a follow-up is skipped only
for a key that is held; and a held key never keeps the transaction from its commit. -/
theorem follow_ups_exactly_once (reached : (followUpMachine slots).Reachable Machine.Always s) :
    (∀ a f, s.finalizer a = some f → s.ExactlyOnce a f) ∧
    (∀ t x y s' holder, s.live t = some x → followUpStep slots (.insertFollowUp t) s = some s' →
      s'.tx t = some y → y.fates = x.fates ++ [.duplicate holder] →
      ∃ key rest, x.rest = .request (some key) :: rest ∧ (s.visibleClaims x).lookup key =
    some holder) ∧ ∀ t x, s.live t = some x → x.dispatching = true →
      (∀ followUp ∈ x.rest, Insertable s t followUp) →
      ∃ s', (followUpMachine slots).run Machine.Always
          (List.replicate x.rest.length (.insertFollowUp t) ++ [.commit t]) s = some s' ∧
        x.attempt ∈ s'.completed.map Prod.fst := by
  have inv := followUpInv_reachable reached
  refine ⟨fun a f => inv.exactlyOnce, fun t x y s' holder live stepped after skipped => ?_,
    fun t x => inv.completes⟩
  simp only [followUpStep, live, bind_some] at stepped
  split at stepped
  · exact duplicate_of_insertFollowUp stepped after skipped
  · cases stepped

/-- One attempt with four follow-ups: two of one key, one without a key and one that is declined. -/
def followUpSample : List FollowUpOp :=
  [.store (.claim [⟨7, 0, some 1, ⟨0, 0⟩, 5, none⟩]),
    .returned ⟨⟨7, 1⟩, some 0⟩ [.request (some 3), .request (some 3), .request none,
      .declined] none]

def followUpTry (t : TxId) : List FollowUpOp :=
  .begin ⟨7, 1⟩ t :: List.replicate 6 (.statement t) ++ .dispatch t :: List.replicate 4
    (.insertFollowUp t)

/-- The first try loses its connection with the `COMMIT` on its way; the second waits for its locks,
and finds the attempt closed once the commit is applied. -/
theorem follow_ups_exactly_once_lost_commit :
    ∃ s f, (followUpMachine 2).Reachable Machine.Always s ∧ s.finalizer ⟨7, 1⟩ = some f ∧
      f.outcome = some .ignoredStale ∧ s.jobs.length = 2 ∧ s.ExactlyOnce ⟨7, 1⟩ f := by
  obtain ⟨s, reached, hit⟩ := Machine.reachable_of_run (followUpMachine 2) Machine.Always
    (followUpSample ++ followUpTry 1 ++ [.disconnect 1 true, .begin ⟨7, 1⟩ 2, .resolve 1 true] ++
      List.replicate 6 (.statement 2) ++ [.rollbackStale 2])
    (s := ⟨.initial, [], fun _ => none, 100, [], fun _ => none, fun _ => none, []⟩)
    (fun s => ((s.finalizer ⟨7, 1⟩).bind Finalizer.outcome == some .ignoredStale) &&
      decide (s.jobs.length = 2))
    ⟨rfl, fun _ => rfl, rfl, fun _ => rfl, fun _ => rfl, rfl⟩ (by decide)
  obtain ⟨stale, jobs⟩ := Bool.and_eq_true_iff.1 hit
  obtain ⟨f, known, outcome⟩ := bind_eq_some_iff.1 (beq_iff_eq.1 stale)
  exact ⟨s, f, reached, known, outcome, of_decide_eq_true jobs,
    (follow_ups_exactly_once reached).1 _ f known⟩

end Steps
end AwaQueue
