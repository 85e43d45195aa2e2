import AwaQueue.Dispatch.Poll

/-! What a step of the dispatchers can do to permits, tokens and jobs. -/

namespace AwaQueue.Dispatch
open List Library

section
variable {Q D Job : Type}

def Poll.Ok : Poll Q Job → Prop
  | .shedding batch permits => batch ≤ permits.length
  | .claiming batch permits => batch = permits.length
  | .settling jobs permits => jobs.length ≤ permits.length
  | .waiting jobs permits | .spawning jobs permits => jobs.length = permits.length
  | _ => True

def keepsClaims : DispatchOp Q D Job → Runtime Q D Job → Bool
  | .abort d, s => (s.polls d).jobs.isEmpty
  | _, _ => true

def KeepsClaims (op : DispatchOp Q D Job) (s : Runtime Q D Job) : Prop := keepsClaims op s = true

instance (op : DispatchOp Q D Job) (s : Runtime Q D Job) : Decidable (KeepsClaims op s) :=
  inferInstanceAs (Decidable (_ = true))

variable [DecidableEq Q] [DecidableEq D]

inductive Change (setup : Setup Q D) (op : DispatchOp Q D Job) (s : Runtime Q D Job) :
    Runtime Q D Job → Prop where
  | tick {elapsed : ℚ} (forward : 0 ≤ elapsed) : Change setup op s { s with now := s.now + elapsed }
  /-- Only a refresh reconfigures, and only its own queue's limiter. -/
  | retune {d : D} {overrides : Overrides} (batchSize : D → Nat) (limiter : Q → Option TokenBucket)
      (refreshed : op = .refresh d overrides) (others : ∀ q, q ≠ setup.queue d →
        limiter q = s.limiter q)
      (own : limiter (setup.queue d) = s.limiter (setup.queue d) ∨ ∃ bucket limit,
        s.limiter (setup.queue d) = some bucket ∧ limiter (setup.queue d) =
          some (bucket.reconfigure limit)) :
      Change setup op s { s with claimBatchSize := batchSize, limiter := limiter }
  | stage {d : D} {poll : Poll Q Job} (ok : poll.Ok) (permits : poll.permits = (s.polls d).permits)
      (jobs : poll.jobs = (s.polls d).jobs) (tokens : poll.tokens = (s.polls d).tokens) :
        Change setup op s (s.setPoll d poll)
  | take {d : D} {poll : Poll Q Job} {permit : Permit Q} (ok : poll.Ok)
      (free : 0 < s.free (setup.queue d))
      (granted : permit = ⟨setup.ownKind, setup.queue d, s.granted.length⟩)
      (permits : poll.permits = (s.polls d).permits ++ [permit])
        (jobs : poll.jobs = (s.polls d).jobs)
      (tokens : poll.tokens = (s.polls d).tokens) :
      Change setup op s ({ s with free := Function.update s.free (setup.queue d) (s.free
                                  (setup.queue d) - 1),
                                  granted := s.granted ++ [permit] }.setPoll d poll)
  /-- A call on the overflow pool, with the permits it grants. -/
  | pool {d : D} {poll : Poll Q Job} {pool : PoolState Q} (n : Nat) (ok : poll.Ok)
      (held : pool.held = Function.update s.pool.held (setup.queue d)
        (s.pool.held (setup.queue d) + n))
      (permits : poll.permits = (s.polls d).permits ++ grantedPermits .overflow (setup.queue d)
        s.granted.length n)
      (jobs : poll.jobs = (s.polls d).jobs) (tokens : poll.tokens = (s.polls d).tokens) :
      Change setup op s ({ s with pool := pool,
                                  granted := s.granted ++ grantedPermits .overflow
                                    (setup.queue d) s.granted.length n }.setPoll d poll)
  | unlimited {d : D} {poll : Poll Q Job} (ok : poll.Ok)
      (without : s.limiter (setup.queue d) = none)
      (permits : poll.permits = (s.polls d).permits) (jobs : poll.jobs = (s.polls d).jobs) :
        Change setup op s (s.setPoll d poll)
  | limit {d : D} {poll : Poll Q Job} {bucket after : TokenBucket} (batch : Nat) (ok : poll.Ok)
      (limiter : s.limiter (setup.queue d) = some bucket)
        (covered : batch ≤ (bucket.available s.now).1)
      (taken : after = (bucket.refill s.now).consume batch)
      (permits : poll.permits = (s.polls d).permits) (jobs : poll.jobs = (s.polls d).jobs)
      (tokens : poll.tokens = (s.polls d).tokens + batch) :
        Change setup op s ((s.setLimiter (setup.queue d) after).setPoll d poll)
  | giveBack {d : D} {poll : Poll Q Job} {permit : Permit Q} (ok : poll.Ok)
      (permits : (s.polls d).permits.Perm (permit :: poll.permits))
        (jobs : poll.jobs = (s.polls d).jobs)
      (tokens : poll.tokens = (s.polls d).tokens) :
        Change setup op s ((s.giveBack permit).setPoll d poll)
  /-- A claim ends with jobs, or without any. -/
  | claim {d : D} {poll : Poll Q Job} {unused : Nat} (ok : poll.Ok) (permits : poll.permits =
      (s.polls d).permits)
      (jobs : (s.polls d).jobs = []) (tokens : poll.tokens + unused = (s.polls d).tokens) :
      Change setup op s ({ s.refundRateLimit (setup.queue d) unused with claimed := s.claimed ++
        poll.jobs }.setPoll d poll)
  | spawn {task : Spawned Q D Job} {poll : Poll Q Job} (ok : poll.Ok)
      (permits : (s.polls task.dispatcher).permits = task.permit :: poll.permits)
      (jobs : (s.polls task.dispatcher).jobs = task.job :: poll.jobs)
        (tokens : (s.polls task.dispatcher).tokens = poll.tokens + 1) :
      Change setup op s ({ s with running := s.running ++ [task], spawned := s.spawned ++
        [task] }.setPoll task.dispatcher poll)
  | finish {task : Spawned Q D Job} [DecidableEq Job] (runs : task ∈ s.running) :
      Change setup op s ({ s with running := s.running.erase task }.dropPermit task.permit)
  | abort {d : D} {poll : Poll Q Job} (ok : poll.Ok) (permits : poll.permits = (s.polls d).permits)
      (jobs : (s.polls d).jobs = []) (none : poll.jobs = [])
        (tokens : poll.tokens ≤ (s.polls d).tokens) :
      Change setup op s (s.setPoll d poll)

end

section
variable {Q D Job : Type} [DecidableEq Q] [DecidableEq D] {setup : Setup Q D}
    {op : DispatchOp Q D Job} {s t : Runtime Q D Job} {d : D}

theorem refresh_change {overrides : Overrides} (step : setup.refresh d overrides s = some t) :
    Change setup (.refresh d overrides) s t := by
  unfold Setup.refresh at step
  split at step
  · dsimp only at step
    split at step
    · next bucket base held limited =>
      cases step
      exact .retune _ _ rfl (fun q other => Function.update_of_ne other _ _)
        (.inr ⟨bucket, _, held, Function.update_self _ _ _⟩)
    · cases step
      exact .retune _ _ rfl (fun q other => rfl) (.inl rfl)
  · cases step

theorem start_change (step : Setup.start d s = some t) : Change setup op s t := by
  unfold Setup.start at step
  split at step <;> cases step
  next idle => exact .stage trivial (by rw [idle]; rfl) (by rw [idle]; rfl) (by rw [idle]; rfl)

theorem take_change (step : setup.take d s = some t) : Change setup op s t := by
  unfold Setup.take at step
  split at step
  · next permits taking =>
    cases step
    exact .stage trivial (by rw [taking]; rfl) (by rw [taking]; rfl) (by rw [taking]; rfl)
  · next left permits taking =>
    dsimp only at step
    split at step
    · next free =>
      cases step
      exact .take trivial free rfl (by rw [taking]; rfl) (by rw [taking]; rfl) (by rw [taking]; rfl)
    · cases step
      exact .stage trivial (by rw [taking]; rfl) (by rw [taking]; rfl) (by rw [taking]; rfl)
  · cases step

omit [DecidableEq Q] in
theorem acquired_keeps (Job : Type) (permits : List (Permit Q)) :
    (Setup.acquired permits : Poll Q Job).Ok ∧ (Setup.acquired permits : Poll Q Job).permits =
      permits ∧ (Setup.acquired permits : Poll Q Job).jobs = [] ∧
        (Setup.acquired permits : Poll Q Job).tokens = 0 := by
  cases permits with
  | nil | cons permit permits => exact ⟨trivial, rfl, rfl, rfl⟩

theorem askOverflow_change [Fintype Q] (step : setup.askOverflow d s = some t) :
    Change setup op s t := by
  unfold Setup.askOverflow at step
  split at step
  · next permits asking =>
    split at step
    · cases step
      obtain ⟨ok, kept, jobs, tokens⟩ := acquired_keeps Job permits
      exact .stage ok (by rw [asking, kept]; rfl) (by rw [asking, jobs]; rfl)
        (by rw [asking, tokens]; rfl)
    · next config weighted =>
      cases step
      obtain ⟨ok, kept, jobs, tokens⟩ :=
        acquired_keeps Job (permits ++ grantedPermits .overflow (setup.queue d) s.granted.length
          (config.tryAcquire s.pool (setup.queue d)
          ((s.claimBatchSize d - permits.length) % u32)).1)
      exact .pool _ ok (by rw [tryAcquire_state]; rfl) (by rw [asking, kept]; rfl)
        (by rw [asking, jobs]; rfl) (by rw [asking, tokens]; rfl)
  · cases step

omit [DecidableEq Q] in
theorem limited_keeps (Job : Type) {batch : Nat} {permits : List (Permit Q)}
    (within : batch ≤ permits.length) :
      (Setup.limited batch permits : Poll Q Job).Ok ∧
      (Setup.limited batch permits : Poll Q Job).permits = permits ∧
        (Setup.limited batch permits : Poll Q Job).jobs = [] ∧
        (Setup.limited batch permits : Poll Q Job).tokens = batch := by
  unfold Setup.limited
  split
  · next none => exact ⟨trivial, rfl, rfl, none.symm⟩
  · exact ⟨within, rfl, rfl, rfl⟩

theorem limit_change (step : setup.limit d s = some t) : Change setup op s t := by
  unfold Setup.limit at step
  split at step
  · next permits limiting =>
    split at step
    · next without =>
      cases step
      obtain ⟨ok, kept, jobs, -⟩ := limited_keeps Job
        (min_le_left permits.length (s.claimBatchSize d))
      exact .unlimited ok without (by rw [limiting, kept]; rfl) (by rw [limiting, jobs]; rfl)
    · next bucket limiter =>
      cases step
      obtain ⟨ok, kept, jobs, tokens⟩ := limited_keeps Job
        ((min_le_left (min permits.length (bucket.available s.now).1) (s.claimBatchSize d)).trans
          (min_le_left _ _))
      refine .limit _ ok limiter ((min_le_left _ _).trans (min_le_right _ _)) ?_
        (by rw [limiting, kept]; rfl)
        (by rw [limiting, jobs]; rfl) (by rw [limiting, tokens]; exact (Nat.zero_add _).symm)
      split
      · rfl
      · next none =>
        rw [Nat.eq_zero_of_not_pos none, TokenBucket.consume, Nat.cast_zero, sub_zero]
        rfl
  · cases step

theorem perm_dropLast {α : Type} {xs : List α} {x : α} (last : xs.getLast? = some x) :
    xs.Perm (x :: xs.dropLast) := by
  obtain ⟨rest, rfl⟩ := getLast?_eq_some_iff.1 last
  rw [dropLast_concat]
  exact perm_append_singleton x rest

theorem shed_change (ok : (s.polls d).Ok) (step : Setup.shed d s = some t) :
    Change setup op s t := by
  unfold Setup.shed at step
  split at step
  · next batch permits shedding =>
    rw [shedding] at ok
    split at step
    · next more =>
      obtain ⟨last, popped, rfl⟩ := Option.map_eq_some_iff.1 step
      refine .giveBack ?_ (by rw [shedding]; exact perm_dropLast popped) (by rw [shedding]; rfl)
        (by rw [shedding]; rfl)
      change batch ≤ permits.dropLast.length
      rw [length_dropLast]
      omega
    · next done =>
      cases step
      exact .stage (le_antisymm ok (not_lt.1 done)) (by rw [shedding]; rfl) (by rw [shedding]; rfl)
        (by rw [shedding]; rfl)
  · next jobs permits settling =>
    rw [settling] at ok
    split at step
    · next more =>
      obtain ⟨last, popped, rfl⟩ := Option.map_eq_some_iff.1 step
      refine .giveBack ?_ (by rw [settling]; exact perm_dropLast popped) (by rw [settling]; rfl)
        (by rw [settling]; rfl)
      change jobs.length ≤ permits.dropLast.length
      rw [length_dropLast]
      omega
    · next done =>
      have same : jobs.length = permits.length := le_antisymm ok (not_lt.1 done)
      cases step
      cases jobs with
      | nil =>
        have none : permits = [] := length_eq_zero_iff.1 same.symm
        exact .stage trivial (by rw [settling, none]; rfl) (by rw [settling]; rfl)
          (by rw [settling]; rfl)
      | cons job jobs =>
        exact .stage same (by rw [settling]; rfl) (by rw [settling]; rfl) (by rw [settling]; rfl)
  · next permit permits leaving =>
    cases step
    exact .giveBack trivial (by rw [leaving]; exact .refl _) (by rw [leaving]; rfl)
      (by rw [leaving]; rfl)
  · next leaving =>
    cases step
    exact .stage trivial (by rw [leaving]; rfl) (by rw [leaving]; rfl) (by rw [leaving]; rfl)
  · cases step

omit [DecidableEq D] in
theorem refundRateLimit_claimed (q : Q) (n : Nat) :
    (s.refundRateLimit q n).claimed = s.claimed := by
  unfold Runtime.refundRateLimit
  split
  · rfl
  · split <;> rfl

theorem claim_change {jobs : List Job} (ok : (s.polls d).Ok)
    (step : setup.claim d jobs s = some t) : Change setup op s t := by
  unfold Setup.claim at step
  split at step
  · next batch permits claiming =>
    rw [claiming] at ok
    obtain ⟨within, rfl⟩ := guard_eq_some step
    rw [refundRateLimit_claimed]
    refine .claim (within.trans_eq ok) (by rw [claiming]; rfl) (by rw [claiming]; rfl) ?_
    rw [claiming]
    exact Nat.add_sub_cancel' within
  · cases step

theorem giveUp_change (step : setup.giveUp d s = some t) : Change setup op s t := by
  unfold Setup.giveUp at step
  split at step <;> cases step
  next batch permits claiming =>
    have none : s.refundRateLimit (setup.queue d) batch =
        { s.refundRateLimit (setup.queue d) batch with claimed := s.claimed ++
          (Poll.leaving permits : Poll Q Job).jobs } := by
      rw [show s.claimed ++ (Poll.leaving permits : Poll Q Job).jobs = s.claimed from append_nil _,
        ← refundRateLimit_claimed (setup.queue d) batch]
    rw [none]
    exact .claim trivial (by rw [claiming]; rfl) (by rw [claiming]; rfl)
      (by rw [claiming]; exact Nat.zero_add _)

theorem clear_change [Fintype Q] (step : setup.clear d s = some t) : Change setup op s t := by
  unfold Setup.clear at step
  split at step
  · next clearing =>
    split at step
    · cases step
      exact .stage trivial (by rw [clearing]; rfl) (by rw [clearing]; rfl) (by rw [clearing]; rfl)
    · next config weighted =>
      cases step
      have none : s.granted = s.granted ++ grantedPermits .overflow (setup.queue d) s.granted.length
        0 := (append_nil _).symm
      have state : { s with pool := (config.tryAcquire s.pool (setup.queue d) 0).2 } =
          { s with pool := (config.tryAcquire s.pool (setup.queue d) 0).2,
                   granted := s.granted ++ grantedPermits .overflow (setup.queue d) s.granted.length
                     0 } := by rw [← none]
      rw [state]
      exact .pool 0 trivial (by rw [tryAcquire_state]; rfl) (by rw [clearing]; rfl)
        (by rw [clearing]; rfl) (by rw [clearing]; rfl)
  · cases step

theorem spawn_change (ok : (s.polls d).Ok) (step : Setup.spawn d s = some t) :
    Change setup op s t := by
  unfold Setup.spawn at step
  split at step
  · next jobs permits waiting =>
    rw [waiting] at ok
    cases step
    exact .stage ok (by rw [waiting]; rfl) (by rw [waiting]; rfl) (by rw [waiting]; rfl)
  · next job jobs permit permits spawning =>
    rw [spawning] at ok
    cases step
    exact .spawn (Nat.succ.inj ok) (by rw [spawning]; rfl) (by rw [spawning]; rfl)
      (by rw [spawning]; rfl)
  · next jobs permits both spawning =>
    rw [spawning] at ok
    cases step
    -- as many permits as jobs: the zip ends with the jobs
    have none : jobs = [] := by
      cases jobs with
      | nil => rfl
      | cons job jobs =>
        cases permits with
        | nil => cases ok
        | cons permit permits => exact (both job jobs permit permits rfl rfl).elim
    subst none
    exact .stage trivial (by rw [spawning]; rfl) (by rw [spawning]; rfl) (by rw [spawning]; rfl)
  · cases step

theorem abort_change (keeps : (s.polls d).jobs = []) (step : Setup.abort d s = some t) :
    Change setup op s t := by
  unfold Setup.abort at step
  split at step
  · next batch permits claiming =>
    cases step
    exact .abort trivial (by rw [claiming]; rfl) keeps rfl (Nat.zero_le _)
  · next jobs permits waiting =>
    cases step
    exact .abort trivial (by rw [waiting]; rfl) keeps rfl (Nat.zero_le _)
  · cases step

/-- Every step is one of the changes, if the polls have the permits of their stage and no claim is
thrown away. -/
theorem step_change [Fintype Q] [DecidableEq Job] (polls : ∀ d, (s.polls d).Ok)
    (keeps : KeepsClaims op s)
    (step : (dispatchMachine setup).step op s = some t) : Change setup op s t := by
  cases op with
  | tick elapsed =>
    obtain ⟨forward, rfl⟩ := guard_eq_some step
    exact .tick forward
  | refresh d overrides => exact refresh_change step
  | start d => exact start_change step
  | take d => exact take_change step
  | askOverflow d => exact askOverflow_change step
  | limit d => exact limit_change step
  | shed d => exact shed_change (polls d) step
  | claim d jobs => exact claim_change (polls d) step
  | giveUp d => exact giveUp_change step
  | clear d => exact clear_change step
  | spawn d => exact spawn_change (polls d) step
  | finish task =>
    obtain ⟨runs, rfl⟩ := guard_eq_some step
    exact .finish runs
  | abort d => exact abort_change (isEmpty_iff.1 keeps) step

end
end AwaQueue.Dispatch
