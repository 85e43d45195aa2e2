import AwaQueue.Dispatch.Change

/-! Where the permits and the claimed jobs of a run are. -/

namespace AwaQueue.Dispatch

open List
open Function (comp_def update update_of_ne update_self)
open Library

section
variable {Q D Job : Type} [DecidableEq D] [Fintype D]

def total (polls : D → Poll Q Job) (f : D → Poll Q Job → Nat) : Nat := ∑ d, f d (polls d)

theorem total_update (polls : D → Poll Q Job) (d : D) (poll : Poll Q Job)
    (f : D → Poll Q Job → Nat) :
    total (update polls d poll) f + f d (polls d) = total polls f + f d poll := by
  have sum := sum_update (fun d => f d (polls d)) d (f d poll)
  have same : (fun d' => f d' (update polls d poll d')) = update (fun d => f d (polls d)) d
      (f d poll) := by
    funext d'
    by_cases here : d' = d
    · subst here
      rw [update_self, update_self]
    · rw [update_of_ne here, update_of_ne here]
  unfold total
  rw [same]
  exact sum

theorem total_update_same {polls : D → Poll Q Job} {d : D} {poll : Poll Q Job}
    {f : D → Poll Q Job → Nat}
    (same : f d poll = f d (polls d)) : total (update polls d poll) f = total polls f := by
  have sum := total_update polls d poll f
  omega

def inPolls (polls : D → Poll Q Job) (p : Permit Q → Bool) : Nat := total polls fun _ poll =>
    poll.permits.countP p

variable {polls : D → Poll Q Job} {d : D} {poll : Poll Q Job}

theorem inPolls_same (permits : poll.permits = (polls d).permits) (p : Permit Q → Bool) :
    inPolls (update polls d poll) p = inPolls polls p :=
  total_update_same (congrArg (countP p) permits)

theorem inPolls_gain {more : List (Permit Q)} (permits : poll.permits = (polls d).permits ++ more)
    (p : Permit Q → Bool) : inPolls (update polls d poll) p = inPolls polls p + more.countP p := by
  have sum := total_update polls d poll fun _ poll => poll.permits.countP p
  rw [permits, countP_append] at sum
  unfold inPolls
  omega

theorem inPolls_loss {permit : Permit Q} (permits : (polls d).permits.Perm (permit :: poll.permits))
    (p : Permit Q → Bool) :
    inPolls (update polls d poll) p + [permit].countP p = inPolls polls p := by
  have sum := total_update polls d poll fun _ poll => poll.permits.countP p
  have split : (permit :: poll.permits).countP p = [permit].countP p + poll.permits.countP p := by
    rw [← countP_append]
    rfl
  rw [permits.countP_eq, split] at sum
  unfold inPolls
  omega

end

section
variable {Q : Type} [DecidableEq Q]

def Permit.ownOf (q : Q) (permit : Permit Q) : Bool := permit.kind ≠ .overflow && permit.queue = q

def Permit.overflowOf (q : Q) (permit : Permit Q) : Bool := permit.kind = .overflow &&
    permit.queue = q

variable {D Job : Type} {s : Runtime Q D Job}

theorem dropPermit_eq (s : Runtime Q D Job) (permit : Permit Q) :
    ∃ free pool, s.dropPermit permit = { s with free := free, pool := pool } ∧
      (∀ q, free q = s.free q + [permit].countP (Permit.ownOf q)) ∧
      ∀ q, pool.held q = s.pool.held q - [permit].countP (Permit.overflowOf q) := by
  obtain ⟨kind, queue, serial⟩ := permit
  by_cases shared : kind = .overflow
  · subst shared
    refine ⟨s.free, s.pool.release queue 1, rfl, fun q => rfl, fun q => ?_⟩
    change update s.pool.held queue (s.pool.held queue - 1) q = _
    by_cases here : q = queue
    · subst here
      simp [Permit.overflowOf]
    · simp [Permit.overflowOf, update_of_ne here, Ne.symm here]
  · refine ⟨update s.free queue (s.free queue + 1), s.pool, if_neg shared, fun q => ?_, fun q => ?_⟩
    · by_cases here : q = queue
      · subst here
        simp [Permit.ownOf, shared]
      · simp [Permit.ownOf, update_of_ne here, Ne.symm here]
    · simp [Permit.overflowOf, shared]

theorem refundRateLimit_eq (s : Runtime Q D Job) (q : Q) (n : Nat) :
    ∃ limiter, s.refundRateLimit q n = { s with limiter := limiter } := by
  unfold Runtime.refundRateLimit
  split
  · exact ⟨_, rfl⟩
  · split
    · exact ⟨_, rfl⟩
    · exact ⟨_, rfl⟩

theorem countP_grantedPermits (q queue : Q) (before n : Nat) :
    (grantedPermits .overflow queue before n).countP (Permit.ownOf q) = 0 ∧
      (grantedPermits .overflow queue before n).countP (Permit.overflowOf q) = if queue = q then
        n else 0 := by
  unfold grantedPermits
  constructor
  · simp [countP_map, comp_def, Permit.ownOf]
  · by_cases here : queue = q
    · simp [countP_map, comp_def, Permit.overflowOf, here]
    · simp [countP_map, comp_def, Permit.overflowOf, here]

end

section
variable {Q D Job : Type} [DecidableEq Q] [DecidableEq D] {setup : Setup Q D}
    {op : DispatchOp Q D Job} {s t : Runtime Q D Job}

theorem Change.polls_ok (change : Change setup op s t) (ok : ∀ d, (s.polls d).Ok) :
    ∀ d, (t.polls d).Ok := by
  have update (d : D) {poll : Poll Q Job} (fine : poll.Ok) :
      ∀ d', (update s.polls d poll d').Ok := by
    intro d'
    by_cases here : d' = d
    · rw [here, update_self]
      exact fine
    · rw [update_of_ne here]
      exact ok d'
  cases change with
  | tick | retune => exact ok
  | stage fine | take fine | pool n fine | unlimited fine | limit n fine | spawn fine
  | abort fine => exact update _ fine
  | @giveBack d poll permit fine =>
    obtain ⟨free, pool, same, -⟩ := dropPermit_eq s permit
    unfold Runtime.giveBack
    rw [same]
    exact update d fine
  | @claim d poll unused fine =>
    obtain ⟨limiter, same⟩ := refundRateLimit_eq s (setup.queue d) unused
    rw [same]
    exact update d fine
  | @finish task =>
    obtain ⟨free, pool, same, -⟩ := dropPermit_eq
      { s with running := s.running.erase task } task.permit
    rw [same]
    exact ok

variable [Fintype D]

def Runtime.out (s : Runtime Q D Job) (p : Permit Q → Bool) : Nat :=
  inPolls s.polls p + (s.running.map (·.permit)).countP p

/-- Every granted permit is in one place: with a poll, with a job that was spawned, or returned.
Those that a poll or a running job has are what the semaphores and the overflow pool miss. -/
structure PermitsOk (setup : Setup Q D) (s : Runtime Q D Job) : Prop where
  serials : s.granted.map (·.serial) = List.range s.granted.length
  placed : ∀ p, s.granted.countP p = inPolls s.polls p + (s.spawned.map (·.permit)).countP p +
    s.returned.countP p
  own : ∀ q, s.free q + s.out (Permit.ownOf q) = setup.workers q
  overflow : ∀ q, s.pool.held q = s.out (Permit.overflowOf q)

theorem PermitsOk.quiet {d : D} {poll : Poll Q Job} (ok : PermitsOk setup s)
    (permits : poll.permits = (s.polls d).permits) (polls : t.polls = update s.polls d poll)
    (running : t.running = s.running) (granted : t.granted = s.granted)
    (returned : t.returned = s.returned) (spawned : t.spawned = s.spawned) (free : t.free = s.free)
    (pool : t.pool = s.pool) : PermitsOk setup t := by
  have out (p : Permit Q → Bool) : t.out p = s.out p := by
    unfold Runtime.out
    rw [polls, inPolls_same permits, running]
  constructor
  · rw [granted]
    exact ok.serials
  · intro p
    rw [granted, polls, inPolls_same permits, spawned, returned]
    exact ok.placed p
  · intro q
    rw [free, out]
    exact ok.own q
  · intro q
    rw [pool, out]
    exact ok.overflow q

omit [DecidableEq Q] in
theorem serials_concat {granted : List (Permit Q)}
    (serials : granted.map (·.serial) = range granted.length) (kind : PermitKind) (q : Q)
      (n : Nat) : (granted ++ grantedPermits kind q granted.length n).map (·.serial) =
      range (granted ++ grantedPermits kind q granted.length n).length := by
  have numbers : (grantedPermits kind q granted.length n).map (·.serial) =
      range' granted.length n := by
    simp [grantedPermits, comp_def]
  have length : (grantedPermits kind q granted.length n).length = n := by simp [grantedPermits]
  rw [map_append, serials, numbers, length_append, length, range_eq_range', range_eq_range',
    ← range'_append_1, Nat.zero_add]

section
variable (ok : PermitsOk setup s) {permit : Permit Q} {task : Spawned Q D Job} {d : D}
    {poll : Poll Q Job}
include ok

theorem PermitsOk.take (free : 0 < s.free (setup.queue d))
    (granted : permit = ⟨setup.ownKind, setup.queue d, s.granted.length⟩)
    (permits : poll.permits = (s.polls d).permits ++ [permit]) :
    PermitsOk setup ({ s with free := update s.free (setup.queue d) (s.free (setup.queue d) - 1),
                              granted := s.granted ++ [permit] }.setPoll d poll) := by
  have polls (p : Permit Q → Bool) := inPolls_gain permits p
  have single : [permit] = grantedPermits setup.ownKind (setup.queue d) s.granted.length 1 := by
    rw [granted]; rfl
  have kind : setup.ownKind ≠ .overflow := by
    unfold Setup.ownKind
    split <;> decide
  constructor
  · change (s.granted ++ [permit]).map _ = range (s.granted ++ [permit]).length
    rw [single]
    exact serials_concat ok.serials _ _ _
  · intro p
    dsimp only [Runtime.setPoll]
    rw [countP_append, polls, ok.placed p]
    omega
  · intro q
    have before := ok.own q
    dsimp only [Runtime.out, Runtime.setPoll] at before ⊢
    rw [polls]
    by_cases here : q = setup.queue d
    · have one : [permit].countP (Permit.ownOf q) = 1 := by simp [granted, Permit.ownOf, kind, here]
      subst here
      rw [update_self, one]
      omega
    · have none : [permit].countP (Permit.ownOf q) = 0 := by simp [granted, Permit.ownOf,
        Ne.symm here]
      rw [update_of_ne here, none]
      exact before
  · intro q
    have none : [permit].countP (Permit.overflowOf q) = 0 := by
      simp [granted, Permit.overflowOf, kind]
    have before := ok.overflow q
    dsimp only [Runtime.out, Runtime.setPoll] at before ⊢
    rw [polls, none]
    exact before

theorem PermitsOk.pool {pool : PoolState Q} {n : Nat}
    (held : pool.held = update s.pool.held (setup.queue d) (s.pool.held (setup.queue d) + n))
    (permits : poll.permits = (s.polls d).permits ++ grantedPermits .overflow (setup.queue d)
    s.granted.length n) :
    PermitsOk setup ({ s with pool := pool,
                              granted := s.granted ++ grantedPermits .overflow
                                (setup.queue d) s.granted.length n }.setPoll d poll) := by
  have polls (p : Permit Q → Bool) := inPolls_gain permits p
  constructor
  · exact serials_concat ok.serials _ _ _
  · intro p
    dsimp only [Runtime.setPoll]
    rw [countP_append, polls, ok.placed p]
    omega
  · intro q
    have before := ok.own q
    dsimp only [Runtime.out, Runtime.setPoll] at before ⊢
    rw [polls, (countP_grantedPermits q _ _ _).1]
    exact before
  · intro q
    have before := ok.overflow q
    dsimp only [Runtime.out, Runtime.setPoll] at before ⊢
    rw [polls, (countP_grantedPermits q _ _ _).2, held]
    by_cases here : q = setup.queue d
    · subst here
      rw [update_self, if_pos rfl]
      omega
    · rw [update_of_ne here, if_neg (Ne.symm here)]
      exact before

theorem PermitsOk.giveBack
    (permits : (s.polls d).permits.Perm (permit :: poll.permits)) :
    PermitsOk setup ((s.giveBack permit).setPoll d poll) := by
  have polls (p : Permit Q → Bool) := inPolls_loss permits p
  obtain ⟨free, pool, same, own, shared⟩ := dropPermit_eq s permit
  unfold Runtime.giveBack
  rw [same]
  constructor
  · exact ok.serials
  · intro p
    have before := ok.placed p
    rw [← polls p] at before
    dsimp only [Runtime.setPoll]
    rw [countP_append, before]
    omega
  · intro q
    have before := ok.own q
    dsimp only [Runtime.out, Runtime.setPoll] at before ⊢
    rw [← polls] at before
    rw [own]
    omega
  · intro q
    have before := ok.overflow q
    dsimp only [Runtime.out, Runtime.setPoll] at before ⊢
    rw [← polls] at before
    rw [shared]
    omega

theorem PermitsOk.spawn (permits : (s.polls task.dispatcher).permits =
    task.permit :: poll.permits) : PermitsOk setup
      ({ s with running := s.running ++ [task], spawned := s.spawned ++ [task] }.setPoll
      task.dispatcher poll) := by
  have polls (p : Permit Q → Bool) := inPolls_loss (List.Perm.of_eq permits) p
  have moved (tasks : List (Spawned Q D Job)) (p : Permit Q → Bool) :
      ((tasks ++ [task]).map (·.permit)).countP p = (tasks.map (·.permit)).countP p +
        [task.permit].countP p := by
    rw [map_append, countP_append]
    rfl
  have out (p : Permit Q → Bool) :
      ({ s with running := s.running ++ [task], spawned := s.spawned ++ [task] }.setPoll
        task.dispatcher poll).out p = s.out p := by
    unfold Runtime.out
    dsimp only [Runtime.setPoll]
    rw [moved, ← polls]
    omega
  constructor
  · exact ok.serials
  · intro p
    have before := ok.placed p
    rw [← polls] at before
    dsimp only [Runtime.setPoll]
    rw [moved, before]
    omega
  · intro q
    rw [out]
    exact ok.own q
  · intro q
    rw [out]
    exact ok.overflow q

theorem PermitsOk.finish [DecidableEq Job] (runs : task ∈ s.running) :
    PermitsOk setup ({ s with running := s.running.erase task }.dropPermit task.permit) := by
  obtain ⟨free, pool, same, own, shared⟩ :=
    dropPermit_eq { s with running := s.running.erase task } task.permit
  have erased (p : Permit Q → Bool) :
      (s.running.map (·.permit)).countP p = [task.permit].countP p +
        ((s.running.erase task).map (·.permit)).countP p := by
    rw [((perm_cons_erase runs).map (·.permit)).countP_eq, ← countP_append]
    rfl
  rw [same]
  constructor
  · exact ok.serials
  · exact ok.placed
  · intro q
    have before := ok.own q
    dsimp only [Runtime.out] at before own ⊢
    rw [erased] at before
    rw [own]
    omega
  · intro q
    have before := ok.overflow q
    dsimp only [Runtime.out] at before shared ⊢
    rw [erased] at before
    rw [shared]
    omega

theorem Change.permits_ok (change : Change setup op s t) : PermitsOk setup t := by
  cases change with
  | tick | retune => exact { ok with }
  | stage _ permits => exact ok.quiet permits rfl rfl rfl rfl rfl rfl rfl
  | take _ free granted permits => exact ok.take free granted permits
  | pool n _ held permits => exact ok.pool held permits
  | unlimited _ _ permits | limit n _ _ _ _ permits =>
    exact ok.quiet permits rfl rfl rfl rfl rfl rfl rfl
  | giveBack _ permits => exact ok.giveBack permits
  | @claim d poll unused _ permits =>
    obtain ⟨limiter, same⟩ := refundRateLimit_eq s (setup.queue d) unused
    rw [same]
    exact ok.quiet permits rfl rfl rfl rfl rfl rfl rfl
  | spawn _ permits => exact ok.spawn permits
  | finish runs => exact ok.finish runs
  | abort _ permits => exact ok.quiet permits rfl rfl rfl rfl rfl rfl rfl

end

end
end AwaQueue.Dispatch
