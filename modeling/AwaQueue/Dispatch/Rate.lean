import AwaQueue.Dispatch.Permits

/-! The claimed jobs and the tokens of a run, and what the limiter bounds. -/

namespace AwaQueue.Dispatch

open List
open Function (update update_of_ne update_self)
open Library

section
variable {Q D Job : Type} [DecidableEq Q] [DecidableEq D] {setup : Setup Q D}
  {op : DispatchOp Q D Job} {s t : Runtime Q D Job}
  {q : Q} {after : TokenBucket} {d : D} {poll : Poll Q Job} {limiter : Q → Option TokenBucket}

section
variable [Fintype D] [DecidableEq Job]

def JobsOk (s : Runtime Q D Job) : Prop :=
  ∀ job, s.claimed.count job = total s.polls (fun _ poll => poll.jobs.count job) +
    (s.spawned.map (·.job)).count job

omit [DecidableEq Q] in
theorem JobsOk.quiet {d : D} {poll : Poll Q Job} (ok : JobsOk s)
    (jobs : poll.jobs = (s.polls d).jobs) (polls : t.polls = update s.polls d poll)
    (claimed : t.claimed = s.claimed) (spawned : t.spawned = s.spawned) : JobsOk t := by
  intro job
  rw [polls, claimed, spawned, total_update_same (congrArg (count job) jobs)]
  exact ok job

theorem Change.jobs_ok (change : Change setup op s t) (ok : JobsOk s) : JobsOk t := by
  cases change with
  | tick | retune => exact ok
  | stage _ _ jobs | take _ _ _ _ jobs | pool n _ _ _ jobs | unlimited _ _ _ jobs
  | limit n _ _ _ _ _ jobs =>
    exact ok.quiet jobs rfl rfl rfl
  | @giveBack d poll permit _ _ jobs =>
    obtain ⟨free, pool, same, -⟩ := dropPermit_eq s permit
    unfold Runtime.giveBack
    rw [same]
    exact ok.quiet jobs rfl rfl rfl
  | @claim d poll unused _ _ jobs =>
    obtain ⟨limiter, same⟩ := refundRateLimit_eq s (setup.queue d) unused
    rw [same]
    intro job
    have sum := total_update s.polls d poll fun _ poll => poll.jobs.count job
    have before := ok job
    rw [jobs, count_nil] at sum
    dsimp only [Runtime.setPoll]
    rw [count_append]
    omega
  | @spawn task poll _ _ jobs =>
    intro job
    have sum := total_update s.polls task.dispatcher poll fun _ poll => poll.jobs.count job
    have before := ok job
    have head : (task.job :: poll.jobs).count job = [task.job].count job + poll.jobs.count job := by
      rw [← count_append]
      rfl
    rw [jobs, head] at sum
    dsimp only [Runtime.setPoll]
    rw [map_append, count_append]
    change _ = _ + (_ + [task.job].count job)
    omega
  | @finish task _ runs =>
    obtain ⟨free, pool, same, -⟩ := dropPermit_eq
      { s with running := s.running.erase task } task.permit
    rw [same]
    exact ok
  | abort _ _ jobs none => exact ok.quiet (none.trans jobs.symm) rfl rfl rfl

end

omit [DecidableEq D] in
theorem refundRateLimit_limiter {q' : Q} {n : Nat} {bucket : TokenBucket}
    (held : s.limiter q' = some bucket) :
    (s.refundRateLimit q n).limiter q' = some bucket ∧ (q' = q → n = 0) ∨
      q' = q ∧ (s.refundRateLimit q n).limiter q' = some (bucket.refund n) := by
  unfold Runtime.refundRateLimit
  split
  · next none => exact .inl ⟨held, fun _ => none⟩
  · by_cases here : q' = q
    · subst here
      rw [held]
      exact .inr ⟨rfl, update_self _ _ _⟩
    · refine .inl ⟨?_, fun same => absurd same here⟩
      split
      · exact (update_of_ne here _ _).trans held
      · exact held

omit [DecidableEq D] in
theorem refundRateLimit_none {q' : Q} {n : Nat} (without : s.limiter q' = none) :
    (s.refundRateLimit q n).limiter q' = none := by
  unfold Runtime.refundRateLimit
  split
  · exact without
  · split
    · next bucket held =>
      have other : q' ≠ q := by
        rintro rfl
        rw [held] at without
        cases without
      exact (update_of_ne other _ _).trans without
    · exact without

theorem Change.limiter_none (change : Change setup op s t) (without : s.limiter q = none) :
    t.limiter q = none := by
  cases change with
  | tick | stage | take | pool | unlimited | spawn | abort => exact without
  | @retune d overrides batchSize limiter _ others own =>
    by_cases here : q = setup.queue d
    · subst here
      rcases own with same | ⟨bucket, limit, held, -⟩
      · exact same.trans without
      · rw [held] at without
        cases without
    · exact (others q here).trans without
  | @limit d poll bucket after batch _ held =>
    have other : q ≠ setup.queue d := by
      rintro rfl
      rw [held] at without
      cases without
    exact (update_of_ne other _ _).trans without
  | @giveBack d poll permit =>
    obtain ⟨free, pool, same, -⟩ := dropPermit_eq s permit
    unfold Runtime.giveBack
    rw [same]
    exact without
  | claim => exact refundRateLimit_none without
  | @finish task =>
    obtain ⟨free, pool, same, -⟩ := dropPermit_eq
      { s with running := s.running.erase task } task.permit
    rw [same]
    exact without

variable [Fintype D]

def Runtime.inFlight (setup : Setup Q D) (s : Runtime Q D Job) (q : Q) : Nat :=
  total s.polls fun d poll => if setup.queue d = q then poll.tokens else 0

def Runtime.dispatched (setup : Setup Q D) (s : Runtime Q D Job) (q : Q) : Nat :=
  s.spawned.countP fun task => setup.queue task.dispatcher = q

/-- Tokens in the bucket and in flight and jobs dispatched grow no faster than the rate. -/
structure Paced (setup : Setup Q D) (q : Q) (s t : Runtime Q D Job) (bucket after : TokenBucket) :
    Prop where
  burst : after.maxTokens = bucket.maxTokens
  rate : after.refillRate = bucket.refillRate
  slow : after.level t.now + t.inFlight setup q + t.dispatched setup q ≤
    bucket.level s.now + s.inFlight setup q + s.dispatched setup q + bucket.refillRate *
      (t.now - s.now)

omit [DecidableEq D] in
theorem Paced.of_sum {bucket : TokenBucket} (burst : after.maxTokens = bucket.maxTokens)
    (rate : after.refillRate = bucket.refillRate) (now : t.now = s.now)
    (sum : after.level s.now + (t.inFlight setup q + t.dispatched setup q : Nat) ≤
      bucket.level s.now + (s.inFlight setup q + s.dispatched setup q : Nat)) :
      Paced setup q s t bucket after := by
  refine ⟨burst, rate, ?_⟩
  push_cast at sum
  rw [now, sub_self, mul_zero]
  linarith

theorem Paced.quiet {bucket : TokenBucket}
    (tokens : setup.queue d = q → poll.tokens ≤ (s.polls d).tokens)
    (polls : t.polls = update s.polls d poll)
    (spawned : t.spawned = s.spawned) (now : t.now = s.now) : Paced setup q s t bucket bucket := by
  have sum := total_update s.polls d poll fun d poll => if setup.queue d = q then poll.tokens else 0
  have flight : t.inFlight setup q ≤ s.inFlight setup q := by
    unfold Runtime.inFlight
    rw [polls]
    split at sum
    · next here =>
      have fewer := tokens here
      omega
    · omega
  have same : t.dispatched setup q = s.dispatched setup q := by
    unfold Runtime.dispatched
    rw [spawned]
  refine .of_sum rfl rfl now ?_
  rw [same]
  gcongr

theorem Paced.limit {bucket : TokenBucket} {batch : Nat} (here : setup.queue d = q)
    (tokens : poll.tokens = (s.polls d).tokens + batch) :
    Paced setup q s ({ s with limiter := limiter }.setPoll d poll) bucket
      ((bucket.refill s.now).consume batch) := by
  have sum := total_update s.polls d poll fun d poll => if setup.queue d = q then poll.tokens else 0
  have flight : ({ s with limiter := limiter }.setPoll d poll).inFlight setup q =
      s.inFlight setup q + batch := by
    dsimp only [Runtime.inFlight, Runtime.setPoll]
    rw [if_pos here, if_pos here, tokens] at sum
    omega
  refine .of_sum rfl rfl rfl ?_
  rw [TokenBucket.level_consume, flight]
  change _ + ((_ + s.dispatched setup q : Nat) : ℚ) ≤ _
  push_cast
  linarith

theorem Paced.refund {bucket : TokenBucket} {unused : Nat} (here : setup.queue d = q)
    (tokens : poll.tokens + unused = (s.polls d).tokens) {claimed : List Job} :
    Paced setup q s ({ s with limiter := limiter, claimed := claimed }.setPoll d poll) bucket
      (bucket.refund unused) := by
  have sum := total_update s.polls d poll fun d poll => if setup.queue d = q then poll.tokens else 0
  have flight : ({ s with limiter := limiter, claimed := claimed }.setPoll d poll).inFlight
      setup q + unused = s.inFlight setup q := by
    dsimp only [Runtime.inFlight, Runtime.setPoll]
    rw [if_pos here, if_pos here, ← tokens] at sum
    omega
  have level : (bucket.refund unused).level s.now ≤ bucket.level s.now + unused :=
    TokenBucket.level_refund
  refine .of_sum rfl rfl rfl ?_
  rw [← flight]
  change _ + ((_ + s.dispatched setup q : Nat) : ℚ) ≤ _
  push_cast
  linarith

theorem Paced.spawn {bucket : TokenBucket} {task : Spawned Q D Job}
    (tokens : (s.polls task.dispatcher).tokens = poll.tokens + 1) :
    Paced setup q s ({ s with running := s.running ++ [task], spawned := s.spawned ++
      [task] }.setPoll task.dispatcher poll)
      bucket bucket := by
  have sum := total_update s.polls task.dispatcher poll fun d poll => if setup.queue d = q then
    poll.tokens else 0
  refine .of_sum rfl rfl rfl ?_
  dsimp only [Runtime.inFlight, Runtime.setPoll, Runtime.dispatched]
  rw [countP_append, countP_singleton]
  gcongr _ + (?_ : ℚ)
  by_cases here : setup.queue task.dispatcher = q
  · rw [if_pos here, if_pos here, tokens] at sum
    rw [if_pos (decide_eq_true here)]
    exact_mod_cast (by omega)
  · rw [if_neg here, if_neg here] at sum
    rw [if_neg (by simpa using here)]
    exact_mod_cast (by omega)

omit [DecidableEq D] in
theorem Paced.refl (q : Q) (bucket : TokenBucket) :
    Paced setup q s s bucket bucket := .of_sum rfl rfl rfl le_rfl

omit [DecidableEq D] in
theorem Paced.trans {u : Runtime Q D Job} {bucket last : TokenBucket}
    (first : Paced setup q s t bucket after)
    (rest : Paced setup q t u after last) : Paced setup q s u bucket last := by
  refine ⟨rest.burst.trans first.burst, rest.rate.trans first.rate, ?_⟩
  have early := first.slow
  have late := rest.slow
  rw [first.rate] at late
  have time : bucket.refillRate * (u.now - s.now) =
      bucket.refillRate * (t.now - s.now) + bucket.refillRate * (u.now - t.now) := by ring
  linarith

theorem Change.bucket {bucket : TokenBucket} (change : Change setup op s t)
    (held : s.limiter q = some bucket)
    (ok : bucket.Ok s.now) : ∃ after, t.limiter q = some after ∧ after.Ok t.now ∧
      ((∀ d overrides, op = .refresh d overrides → setup.queue d ≠ q) →
        Paced setup q s t bucket after) := by
  cases change with
  | @tick elapsed forward =>
    refine ⟨bucket, held, ok.later forward, fun _ => ⟨rfl, rfl, ?_⟩⟩
    have level : bucket.level (s.now + elapsed) ≤ bucket.level s.now +
        bucket.refillRate * elapsed :=
      TokenBucket.level_later ok.rate forward
    have same : s.now + elapsed - s.now = elapsed := by ring
    dsimp only [Runtime.inFlight, Runtime.dispatched]
    rw [same]
    linarith
  | @retune d overrides batchSize limiter refreshed others own =>
    by_cases here : setup.queue d = q
    · subst here
      rcases own with same | ⟨old, limit, was, is⟩
      · exact ⟨bucket, same.trans held, ok, fun steady => absurd rfl (steady d overrides refreshed)⟩
      · rw [held] at was
        cases was
        exact ⟨_, is, ok.reconfigure limit, fun steady => absurd rfl (steady d overrides refreshed)⟩
    · exact ⟨bucket, (others q (Ne.symm here)).trans held, ok, fun _ => .of_sum rfl rfl rfl le_rfl⟩
  | stage _ _ _ tokens | take _ _ _ _ _ tokens | pool n _ _ _ _ tokens =>
    exact ⟨bucket, held, ok, fun _ => .quiet (fun _ => tokens.le) rfl rfl rfl⟩
  | @unlimited d poll _ without =>
    refine ⟨bucket, held, ok, fun _ => .quiet (fun here => ?_) rfl rfl rfl⟩
    rw [here, held] at without
    cases without
  | @limit d poll old after batch _ limiter covered taken _ _ tokens =>
    by_cases here : setup.queue d = q
    · subst here
      rw [held] at limiter
      cases limiter
      subst taken
      exact ⟨_, update_self _ _ _, ok.consume covered, fun _ => .limit rfl tokens⟩
    · exact ⟨bucket, (update_of_ne (Ne.symm here) _ _).trans held, ok,
        fun _ => .quiet (fun same => absurd same here) rfl rfl rfl⟩
  | @giveBack d poll permit _ _ _ tokens =>
    obtain ⟨free, pool, same, -⟩ := dropPermit_eq s permit
    unfold Runtime.giveBack
    rw [same]
    exact ⟨bucket, held, ok, fun _ => .quiet (fun _ => tokens.le) rfl rfl rfl⟩
  | @claim d poll unused _ _ _ tokens =>
    have refunded := refundRateLimit_limiter (q := setup.queue d) (n := unused) held
    obtain ⟨limiter, same⟩ := refundRateLimit_eq s (setup.queue d) unused
    rw [same] at refunded ⊢
    rcases refunded with ⟨kept, none⟩ | ⟨here, changed⟩
    · refine ⟨bucket, kept, ok, fun _ => .quiet (fun here => ?_) rfl rfl rfl⟩
      have nothing := none here.symm
      omega
    · exact ⟨_, changed, ok.refund unused, fun _ => .refund here.symm tokens⟩
  | spawn _ _ _ tokens => exact ⟨bucket, held, ok, fun _ => .spawn tokens⟩
  | @finish task =>
    obtain ⟨free, pool, same, -⟩ := dropPermit_eq
      { s with running := s.running.erase task } task.permit
    rw [same]
    exact ⟨bucket, held, ok, fun _ => .of_sum rfl rfl rfl le_rfl⟩
  | abort _ _ _ _ tokens => exact ⟨bucket, held, ok, fun _ => .quiet (fun _ => tokens) rfl rfl rfl⟩

def TokensOk (s : Runtime Q D Job) : Prop := ∀ q bucket, s.limiter q = some bucket → bucket.Ok s.now

theorem Change.tokens_ok (change : Change setup op s t) (ok : TokensOk s) : TokensOk t := by
  intro q bucket limiter
  cases before : s.limiter q with
  | none =>
    rw [change.limiter_none before] at limiter
    cases limiter
  | some old =>
    obtain ⟨after, is, fine, -⟩ := change.bucket before (ok q old before)
    rw [limiter] at is
    cases is
    exact fine

end

section
variable {Q D Job : Type} [DecidableEq Q] [DecidableEq D] [Fintype Q] [Fintype D] [DecidableEq Job]
  {setup : Setup Q D} {s t : Runtime Q D Job}

omit [Fintype D] in
theorem polls_ok_reachable (reached : (dispatchMachine setup).Reachable KeepsClaims s) :
    ∀ d, (s.polls d).Ok := by
  apply reached.invariant
  · rintro s rfl d
    trivial
  · intro op s t _ ok keeps step
    exact (step_change ok keeps step).polls_ok ok

omit [Fintype D] in
theorem change_of_step {op : DispatchOp Q D Job}
    (reached : (dispatchMachine setup).Reachable KeepsClaims s) (keeps : KeepsClaims op s)
    (step : (dispatchMachine setup).step op s = some t) : Change setup op s t :=
  step_change (polls_ok_reachable reached) keeps step

theorem permitsOk_reachable (reached : (dispatchMachine setup).Reachable KeepsClaims s) :
    PermitsOk setup s := by
  apply reached.invariant
  · rintro s rfl
    have none (p : Permit Q → Bool) :
      inPolls (fun _ : D => (Poll.idle : Poll Q Job)) p = 0 := by
      simp [inPolls, total, Poll.permits]
    constructor
    · rfl
    · intro p
      rw [none]
      rfl
    · intro q
      unfold Runtime.out
      rw [none]
      rfl
    · intro q
      unfold Runtime.out
      rw [none]
      rfl
  · intro op s t before ok keeps step
    exact (change_of_step before keeps step).permits_ok ok

theorem jobsOk_reachable (reached : (dispatchMachine setup).Reachable KeepsClaims s) :
    JobsOk s := by
  apply reached.invariant
  · rintro s rfl job
    simp [total, Poll.jobs]
  · intro op s t before ok keeps step
    exact (change_of_step before keeps step).jobs_ok ok

theorem tokensOk_reachable (reached : (dispatchMachine setup).Reachable KeepsClaims s) :
    TokensOk s := by
  apply reached.invariant
  · rintro s rfl q bucket limiter
    obtain ⟨limit, -, rfl⟩ := Option.map_eq_some_iff.1 limiter
    exact TokenBucket.new_ok limit 0
  · intro op s t before ok keeps step
    exact (change_of_step before keeps step).tokens_ok ok

theorem paced_of_run {q : Q} {bucket : TokenBucket} {ops : List (DispatchOp Q D Job)}
    (reached : (dispatchMachine setup).Reachable KeepsClaims s) (held : s.limiter q = some bucket)
    (steady : ∀ d overrides, .refresh d overrides ∈ ops → setup.queue d ≠ q)
    (ran : (dispatchMachine setup).run KeepsClaims ops s = some t) :
    ∃ after, t.limiter q = some after ∧ Paced setup q s t bucket after := by
  induction ops generalizing s bucket with
  | nil =>
    cases ran
    exact ⟨bucket, held, .refl q bucket⟩
  | cons op ops ih =>
    obtain ⟨keeps, mid, first, rest⟩ := Machine.run_cons ran
    obtain ⟨after, limiter, -, paced⟩ := (change_of_step reached keeps first).bucket held
      (tokensOk_reachable reached q bucket held)
    obtain ⟨last, final, later⟩ := ih (.next reached keeps first) limiter
      (fun d overrides there => steady d overrides (mem_cons_of_mem _ there)) rest
    refine ⟨last, final, (paced fun d overrides same => ?_).trans later⟩
    exact steady d overrides (same ▸ mem_cons_self)

/-- Every permit that was granted is with one poll under way or with one spawned job or was
returned, and the semaphores and the pool miss just those that polls and running jobs have; a
claimed job is spawned, or its poll is under way; the level of a bucket is between nothing and its
burst; and from a moment at which no token is in flight, a queue whose limiter is not reconfigured
dispatches at most its burst and what the rate gives for the time. -/
theorem poll_once_resources (setup : Setup Q D) {s : Runtime Q D Job}
    (reached : (dispatchMachine setup).Reachable KeepsClaims s) :
    (s.granted.Nodup ∧ ∀ permit, s.granted.count permit =
      total s.polls (fun _ poll => poll.permits.count permit) +
      (s.spawned.map (·.permit)).count permit + s.returned.count permit) ∧
    (∀ q, s.free q + s.out (Permit.ownOf q) = setup.workers q ∧
    s.pool.held q = s.out (Permit.overflowOf q)) ∧ (∀ job, s.claimed.count job =
      total s.polls (fun _ poll => poll.jobs.count job) + (s.spawned.map (·.job)).count job) ∧
    ∀ q bucket, s.limiter q = some bucket → (0 ≤ bucket.tokens ∧ bucket.tokens ≤ bucket.maxTokens) ∧
      (s.inFlight setup q = 0 → ∀ ops t, (∀ d overrides, .refresh d overrides ∈ ops →
        setup.queue d ≠ q) → (dispatchMachine setup).run KeepsClaims ops s = some t →
        (t.dispatched setup q : ℚ) - s.dispatched setup q ≤ bucket.maxTokens + bucket.refillRate *
          (t.now - s.now)) := by
  have permits := permitsOk_reachable reached
  refine ⟨⟨?_, fun permit => permits.placed (· == permit)⟩,
    fun q => ⟨permits.own q, permits.overflow q⟩, jobsOk_reachable reached,
    fun q bucket held => ⟨?_, fun none ops t steady ran => ?_⟩⟩
  · exact .of_map (·.serial) (permits.serials ▸ List.nodup_range)
  · have ok := tokensOk_reachable reached q bucket held
    exact ⟨ok.nonneg, ok.within⟩
  · obtain ⟨after, limiter, paced⟩ := paced_of_run reached held steady ran
    have final := tokensOk_reachable (Machine.run_reachable reached ran) q after limiter
    have level : bucket.level s.now ≤ bucket.maxTokens := TokenBucket.level_le
    have rest := final.level_nonneg
    have flight : (0 : ℚ) ≤ t.inFlight setup q := Nat.cast_nonneg _
    have slow := paced.slow
    rw [none, Nat.cast_zero] at slow
    linarith

end

/-- One queue with two claimers, a batch of one, and one job a second. -/
def twoClaimers : Setup Unit Bool where
  queue _ := ()
  claimBatchSize _ := 1
  workers _ := 2
  rateLimit _ := some ⟨1, 1, one_pos⟩
  overflow := none

def pollUntilClaim (d : Bool) : List (DispatchOp Unit Bool Nat) :=
  [.start d, .take d, .take d, .askOverflow d, .limit d, .shed d]

def claimAndSpawn (d : Bool) (job : Nat) : List (DispatchOp Unit Bool Nat) :=
  [.claim d [job], .shed d, .spawn d, .spawn d, .spawn d, .shed d]

/-- From a moment after the first claimer has dispatched its job, with another job two seconds
later. -/
theorem poll_once_resources_two : ∃ s t : Runtime Unit Bool Nat,
    (dispatchMachine twoClaimers).Reachable KeepsClaims s ∧ s.spawned.length = 1 ∧ s.granted.Nodup ∧
      s.free () = 1 ∧ (dispatchMachine twoClaimers).run KeepsClaims
      (.tick 2 :: pollUntilClaim true ++ claimAndSpawn true 8) s = some t ∧
      t.spawned.length = 2 ∧ ∃ bucket, s.limiter () = some bucket ∧
        (t.dispatched twoClaimers () : ℚ) - s.dispatched twoClaimers () ≤ bucket.maxTokens +
          bucket.refillRate * (t.now - s.now) := by
  obtain ⟨s, reached, one, free, still, limited, later⟩ :=
    Machine.reachable_of_run (dispatchMachine twoClaimers) KeepsClaims
    (pollUntilClaim false ++ claimAndSpawn false 7)
    (fun s => s.spawned.length = 1 ∧ s.free () = 1 ∧ s.inFlight twoClaimers () = 0 ∧
      (s.limiter ()).isSome = true ∧ ((dispatchMachine twoClaimers).run KeepsClaims
        (.tick 2 :: pollUntilClaim true ++ claimAndSpawn true 8) s).map
        (fun t => t.spawned.length) = some 2) rfl (by decide +kernel)
  obtain ⟨bucket, held⟩ := Option.isSome_iff_exists.1 limited
  obtain ⟨t, ran, two⟩ := Option.map_eq_some_iff.1 later
  obtain ⟨⟨nodup, -⟩, -, -, limits⟩ := poll_once_resources twoClaimers reached
  refine ⟨s, t, reached, one, nodup, free, ran, two, bucket, held,
    (limits () bucket held).2 still _ t ?_ ran⟩
  intro d overrides there
  simp [pollUntilClaim, claimAndSpawn] at there

/-- The first claimer takes the only token and its claim takes a second; then the second claimer
dispatches with the token that was refilled, the first claim returns nothing and refunds, and the
first claimer polls again and dispatches: two jobs at one moment, with a burst of one. And a claimer
that is aborted before it gets the lock loses the job it has claimed. -/
theorem refund_exceeds_burst :
    (∃ s t : Runtime Unit Bool Nat, ∃ bucket, (dispatchMachine twoClaimers).Reachable KeepsClaims
      s ∧ s.limiter () = some bucket ∧ bucket.maxTokens = 1 ∧ t.now = s.now ∧
      t.dispatched twoClaimers () = s.dispatched twoClaimers () + 2 ∧
      (dispatchMachine twoClaimers).run KeepsClaims (pollUntilClaim true ++ claimAndSpawn true 7 ++
        [.claim false [], .shed false, .shed false, .clear false] ++ pollUntilClaim false ++
    claimAndSpawn false 8) s = some t) ∧
      ∃ s : Runtime Unit Bool Nat, (dispatchMachine twoClaimers).Reachable Machine.Always s ∧
      s.claimed = [7] ∧ s.spawned = [] ∧ s.polls false = .idle ∧ s.polls true = .idle := by
  constructor
  · obtain ⟨s, reached, burst, later⟩ :=
      Machine.reachable_of_run (dispatchMachine twoClaimers) KeepsClaims
      (pollUntilClaim false ++ [.tick 1])
      (fun s => (s.limiter ()).map (·.maxTokens) = some 1 ∧
        ((dispatchMachine twoClaimers).run KeepsClaims (pollUntilClaim true ++
          claimAndSpawn true 7 ++ [.claim false [], .shed false, .shed false, .clear false] ++
            pollUntilClaim false ++ claimAndSpawn false 8) s).map
          (fun t => decide (t.now = s.now ∧ t.dispatched twoClaimers () =
            s.dispatched twoClaimers () + 2)) = some true)
      rfl (by decide +kernel)
    obtain ⟨bucket, held, one⟩ := Option.map_eq_some_iff.1 burst
    obtain ⟨t, ran, both⟩ := Option.map_eq_some_iff.1 later
    obtain ⟨now, two⟩ := of_decide_eq_true both
    exact ⟨s, t, bucket, reached, held, one, now, two, ran⟩
  · obtain ⟨s, reached, hit⟩ := Machine.reachable_of_run (dispatchMachine twoClaimers)
      Machine.Always (pollUntilClaim false ++ [.claim false [7], .shed false, .abort false,
        .shed false, .shed false])
      (fun s => s.claimed = [7] ∧ s.spawned = [] ∧ s.polls false = .idle ∧ s.polls true = .idle) rfl
        (by decide +kernel)
    exact ⟨s, reached, hit⟩

end AwaQueue.Dispatch
