import AwaQueue.Library.Machine
import Mathlib.Algebra.BigOperators.Group.Finset.Piecewise
import Mathlib.Algebra.Order.BigOperators.Group.Finset
import Mathlib.Algebra.Order.Floor.Semiring
import Mathlib.Data.Rat.Floor

/-! `OverflowPool`: the permits that the queues of a runtime share in weighted mode.

The queues are the configured ones, which alone have dispatchers. Shares are exact rationals where
the code has `f64`; sums of counters and of weights are `u32`. -/

namespace AwaQueue.Dispatch
open Function (update update_of_ne update_self)
open Library

def u32 : Nat := 4294967296

structure PoolConfig (Q : Type) where
  total : Nat
  weights : Q → Nat
  fits : total < u32
  positive : ∀ q, 0 < weights q

structure PoolState (Q : Type) where
  held : Q → Nat
  demand : Q → Nat

section
variable {Q : Type} [Fintype Q] [DecidableEq Q]

namespace PoolState
variable (s : PoolState Q)

def contends (q : Q) : Bool := 0 < s.demand q || 0 < s.held q

def currentlyUsed : Nat := (∑ q, s.held q) % u32

def declare (q : Q) (wanted : Nat) : PoolState Q := { s with demand := update s.demand q wanted }

def hold (q : Q) (granted : Nat) : PoolState Q :=
  { s with held := update s.held q (s.held q + granted) }

def release (q : Q) (n : Nat) : PoolState Q := { s with held := update s.held q (s.held q - n) }

end PoolState

def PoolConfig.contendingSum (config : PoolConfig Q) (s : PoolState Q) : Nat :=
  ∑ q with s.contends q = true, config.weights q

def PoolConfig.contendingWeight (config : PoolConfig Q) (s : PoolState Q) : Nat :=
  config.contendingSum s % u32

def PoolConfig.fairShare (config : PoolConfig Q) (s : PoolState Q) (q : Q) : Nat :=
  min ⌈(config.total : ℚ) * (config.weights q / config.contendingWeight s)⌉₊ (u32 - 1)

def PoolConfig.tryAcquire (config : PoolConfig Q) (s : PoolState Q) (q : Q) (wanted : Nat) :
    Nat × PoolState Q :=
  let s := s.declare q wanted
  if wanted = 0 then (0, s)
  else
    let available := config.total - s.currentlyUsed
    if available = 0 then (0, s)
    else if config.contendingWeight s = 0 then (0, s)
    else
      let room := config.fairShare s q - s.held q
      let granted := min (min wanted available) room
      (granted, if 0 < granted then s.hold q granted else s)

structure PoolRun (Q : Type) where
  pool : PoolState Q
  permits : List Q

inductive PoolOp (Q : Type) where
  | acquire (q : Q) (wanted : Nat)
  | drop (q : Q)

def poolMachine (config : PoolConfig Q) : Machine (PoolRun Q) (PoolOp Q) where
  init s := s = ⟨⟨fun _ => 0, fun _ => 0⟩, []⟩
  step op s :=
    match op with
    | .acquire q wanted =>
      let result := config.tryAcquire s.pool q wanted
      some ⟨result.2, s.permits ++ List.replicate result.1 q⟩
    | .drop q => if q ∈ s.permits then some ⟨s.pool.release q 1, s.permits.erase q⟩ else none

def PoolConfig.weightedShare (config : PoolConfig Q) (s : PoolState Q) (q : Q) : ℚ :=
  config.total * (config.weights q / config.contendingSum s)

section
variable {config : PoolConfig Q} {s : PoolState Q} {q : Q} {wanted : Nat}

omit [DecidableEq Q] in
theorem contendingSum_le : config.contendingSum s ≤ ∑ q, config.weights q :=
  Finset.sum_le_sum_of_subset (Finset.filter_subset _ _)

omit [DecidableEq Q] in
theorem weight_le_contendingSum (contends : s.contends q = true) :
    config.weights q ≤ config.contendingSum s :=
  Finset.single_le_sum (fun _ _ => Nat.zero_le _)
    (Finset.mem_filter.2 ⟨Finset.mem_univ q, contends⟩)

section
variable (small : ∑ q, config.weights q < u32)
include small

omit [DecidableEq Q] in
theorem contendingWeight_eq : config.contendingWeight s = config.contendingSum s :=
  Nat.mod_eq_of_lt (contendingSum_le.trans_lt small)

omit [DecidableEq Q] in
/-- The share of a queue that contends is at most the pool, so its ceiling is not cut. -/
theorem fairShare_eq (contends : s.contends q = true) :
    config.fairShare s q = ⌈config.weightedShare s q⌉₊ := by
  have sum : config.weights q ≤ config.contendingSum s := weight_le_contendingSum contends
  have weight : (0 : ℚ) < config.contendingSum s := by
    exact_mod_cast (config.positive q).trans_le sum
  have portion : (config.weights q : ℚ) / config.contendingSum s ≤ 1 := by
    rw [div_le_one weight]
    exact_mod_cast sum
  have bound : ⌈config.weightedShare s q⌉₊ ≤ config.total := by
    apply Nat.ceil_le.2
    calc (config.total : ℚ) * (config.weights q / config.contendingSum s)
        ≤ config.total * 1 := mul_le_mul_of_nonneg_left portion (Nat.cast_nonneg _)
      _ = config.total := mul_one _
  have fits := config.fits
  rw [PoolConfig.fairShare, contendingWeight_eq small]
  exact min_eq_left (bound.trans (by omega))

end

/-- What `try_acquire` grants: nothing, or as much as is wanted, available and within the share. -/
theorem tryAcquire_granted (config : PoolConfig Q) (s : PoolState Q) (q : Q) (wanted : Nat) :
    (config.tryAcquire s q wanted).1 = 0 ∨ (config.tryAcquire s q wanted).1 =
        min (min wanted (config.total - s.currentlyUsed))
        (config.fairShare (s.declare q wanted) q - s.held q) := by
  unfold PoolConfig.tryAcquire
  dsimp only
  split
  · exact .inl rfl
  · split
    · exact .inl rfl
    · split
      · exact .inl rfl
      · exact .inr rfl

theorem tryAcquire_state (config : PoolConfig Q) (s : PoolState Q) (q : Q) (wanted : Nat) :
    (config.tryAcquire s q wanted).2 = (s.declare q wanted).hold q
      (config.tryAcquire s q wanted).1 := by
  have nothing : s.declare q wanted = (s.declare q wanted).hold q 0 := by
    simp [PoolState.hold, PoolState.declare]
  unfold PoolConfig.tryAcquire
  dsimp only
  split
  · exact nothing
  · split
    · exact nothing
    · split
      · exact nothing
      · split
        · rfl
        next none =>
          rw [Nat.eq_zero_of_not_pos none]
          exact nothing

omit [Fintype Q] in
theorem contends_declare (positive : 0 < wanted) : (s.declare q wanted).contends q = true := by
  simp [PoolState.contends, PoolState.declare, positive]

theorem tryAcquire_le_wanted : (config.tryAcquire s q wanted).1 ≤ wanted := by
  rcases tryAcquire_granted config s q wanted with none | some_
  · omega
  · omega

theorem tryAcquire_le_available (config : PoolConfig Q) (s : PoolState Q) (q : Q) (wanted : Nat) :
    (config.tryAcquire s q wanted).1 ≤ config.total - s.currentlyUsed := by
  rcases tryAcquire_granted config s q wanted with none | some_
  · omega
  · omega

theorem tryAcquire_share (small : ∑ q, config.weights q < u32)
    (grants : 0 < (config.tryAcquire s q wanted).1) :
    (config.tryAcquire s q wanted).2.held q ≤ ⌈config.weightedShare (s.declare q wanted) q⌉₊ := by
  have positive : 0 < wanted := grants.trans_le tryAcquire_le_wanted
  rw [← fairShare_eq small (contends_declare positive), tryAcquire_state]
  have held : ((s.declare q wanted).hold q (config.tryAcquire s q wanted).1).held q =
      s.held q + (config.tryAcquire s q wanted).1 := update_self _ _ _
  rw [held]
  rcases tryAcquire_granted config s q wanted with none | some_
  · omega
  · omega

theorem tryAcquire_pos (small : ∑ q, config.weights q < u32) (positive : 0 < wanted)
    (below : (s.held q : ℚ) < config.weightedShare (s.declare q wanted) q)
    (free : ∑ q, s.held q < config.total) : 0 < (config.tryAcquire s q wanted).1 := by
  have contends := contends_declare (s := s) (q := q) positive
  have weight : config.contendingWeight (s.declare q wanted) ≠ 0 := by
    rw [contendingWeight_eq small]
    exact ((config.positive q).trans_le (weight_le_contendingSum contends)).ne'
  have share : s.held q < config.fairShare (s.declare q wanted) q := by
    rw [fairShare_eq small contends]
    exact Nat.lt_ceil.2 below
  have used : (s.declare q wanted).currentlyUsed < config.total :=
    (Nat.mod_le _ _).trans_lt free
  unfold PoolConfig.tryAcquire
  dsimp only
  rw [if_neg positive.ne', if_neg (by omega), if_neg weight]
  have same : (s.declare q wanted).held q = s.held q := rfl
  dsimp only
  omega

end

/-- The counters say what is out. -/
structure PoolOk (config : PoolConfig Q) (s : PoolRun Q) : Prop where
  within : ∑ q, s.pool.held q ≤ config.total
  counted : ∀ q, s.pool.held q = s.permits.count q

variable {config : PoolConfig Q} {s t : PoolRun Q} {q : Q}

theorem sum_update (f : Q → Nat) (q : Q) (n : Nat) : ∑ p, update f q n p + f q = ∑ p, f p + n := by
  rw [Finset.sum_update_of_mem (Finset.mem_univ q), ← Finset.sum_sdiff (Finset.subset_univ {q}),
    Finset.sum_singleton]
  omega

theorem PoolOk.acquire (ok : PoolOk config s) (wanted : Nat) :
    PoolOk config ⟨(config.tryAcquire s.pool q wanted).2,
      s.permits ++ List.replicate (config.tryAcquire s.pool q wanted).1 q⟩ where
  within := by
    have sum := sum_update s.pool.held q (s.pool.held q + (config.tryAcquire s.pool q wanted).1)
    have available := tryAcquire_le_available config s.pool q wanted
    have used : s.pool.currentlyUsed = ∑ q, s.pool.held q :=
      Nat.mod_eq_of_lt (ok.within.trans_lt config.fits)
    have within := ok.within
    dsimp only
    rw [tryAcquire_state]
    change ∑ p, update s.pool.held q (s.pool.held q + (config.tryAcquire s.pool q wanted).1) p ≤
      config.total
    omega
  counted p := by
    dsimp only
    rw [tryAcquire_state, List.count_append, List.count_replicate, ← ok.counted p]
    change update s.pool.held q (s.pool.held q + (config.tryAcquire s.pool q wanted).1) p = _
    by_cases same : p = q
    · subst same
      rw [update_self, if_pos (beq_self_eq_true p)]
    · rw [update_of_ne same, if_neg (by simpa using Ne.symm same), Nat.add_zero]

theorem PoolOk.drop (ok : PoolOk config s) (out : q ∈ s.permits) :
    PoolOk config ⟨s.pool.release q 1, s.permits.erase q⟩ where
  within := by
    have sum := sum_update s.pool.held q (s.pool.held q - 1)
    have within := ok.within
    change ∑ p, update s.pool.held q (s.pool.held q - 1) p ≤ config.total
    omega
  counted p := by
    change update s.pool.held q (s.pool.held q - 1) p = _
    dsimp only
    by_cases same : p = q
    · subst same
      rw [update_self, List.count_erase_self, ok.counted p]
    · rw [update_of_ne same, List.count_erase_of_ne same, ok.counted p]

theorem poolOk_reachable (reached : (poolMachine config).Reachable (fun _ _ => True) s) :
    PoolOk config s := by
  apply reached.invariant
  · rintro s rfl
    exact ⟨by simp, fun q => rfl⟩
  · intro op s t _ ok _ step
    cases op with
    | acquire q wanted =>
      cases step
      exact ok.acquire wanted
    | drop q =>
      obtain ⟨out, rfl⟩ := guard_eq_some step
      exact ok.drop out

/-- If the weights of all queues fit in `u32`: the pool never gives out more than it has, its
counters are the permits that are out, a grant stays under the ceiling of the share, and a queue
below its share is not turned away while the pool has a permit. -/
theorem overflow_pool_shares (config : PoolConfig Q) (small : ∑ q, config.weights q < u32)
    {s : PoolRun Q} (reached : (poolMachine config).Reachable (fun _ _ => True) s) :
    ∑ q, s.pool.held q ≤ config.total ∧ (∀ q, s.pool.held q = s.permits.count q) ∧
    ∀ q wanted, (0 < (config.tryAcquire s.pool q wanted).1 →
        (config.tryAcquire s.pool q wanted).2.held q ≤ ⌈config.weightedShare
      (s.pool.declare q wanted) q⌉₊) ∧ (0 < wanted →
        (s.pool.held q : ℚ) < config.weightedShare (s.pool.declare q wanted) q →
        ∑ q, s.pool.held q < config.total → 0 < (config.tryAcquire s.pool q wanted).1) := by
  have ok := poolOk_reachable reached
  refine ⟨ok.within, ok.counted, fun q wanted => ⟨?_, ?_⟩⟩
  · exact tryAcquire_share small
  · exact tryAcquire_pos small

end

def poolOfTwo (first second : Nat) (positive : 0 < first ∧ 0 < second) : PoolConfig (Fin 2) where
  total := 10
  weights := Fin.cases first fun _ => second
  fits := by decide
  positive := Fin.cases positive.1 fun _ => positive.2

/-- Weights 1 and 2: the first queue takes three permits, the second the seven that are left and
drops one, and the first, which is below its share of a third, gets that one. -/
theorem overflow_pool_shares_two : ∃ s : PoolRun (Fin 2),
    (poolMachine (poolOfTwo 1 2 (by decide))).Reachable (fun _ _ => True) s ∧
      s.permits = [0, 0, 0, 1, 1, 1, 1, 1, 1] ∧ s.pool.held 0 = 3 ∧ s.pool.held 1 = 6 ∧
      0 < ((poolOfTwo 1 2 (by decide)).tryAcquire s.pool 0 1).1 := by
  obtain ⟨s, reached, permits, below, free⟩ :=
    Machine.reachable_of_run (poolMachine (poolOfTwo 1 2 (by decide))) (fun _ _ => True)
    [.acquire 0 3, .acquire 1 9, .drop 1]
    (fun s => s.permits = [0, 0, 0, 1, 1, 1, 1, 1, 1] ∧
      (s.pool.held 0 : ℚ) < (poolOfTwo 1 2 (by decide)).weightedShare (s.pool.declare 0 1) 0 ∧
        ∑ q, s.pool.held q < 10)
    rfl (by decide +kernel)
  obtain ⟨-, counted, calls⟩ := overflow_pool_shares (poolOfTwo 1 2 (by decide)) (by decide) reached
  refine ⟨s, reached, permits, ?_, ?_, (calls 0 1).2 (by decide) below free⟩
  · rw [counted, permits]
    decide
  · rw [counted, permits]
    decide

/-- Two weights of 2³¹: with both queues contending their sum is 0 as a `u32`, and the second queue,
which has a share of five permits and holds none, gets none of the nine that are free. -/
theorem overflow_pool_weights_wrap : ∃ s : PoolRun (Fin 2),
    (poolMachine (poolOfTwo 2147483648 2147483648 (by decide))).Reachable (fun _ _ => True) s ∧
      s.pool.held 1 = 0 ∧ ∑ q, s.pool.held q = 1 ∧
      (poolOfTwo 2147483648 2147483648 (by decide)).weightedShare (s.pool.declare 1 1) 1 = 5 ∧
      ((poolOfTwo 2147483648 2147483648 (by decide)).tryAcquire s.pool 1 1).1 = 0 := by
  obtain ⟨s, reached, hit⟩ := Machine.reachable_of_run
    (poolMachine (poolOfTwo 2147483648 2147483648 (by decide))) (fun _ _ => True) [.acquire 0 1]
    (fun s => s.pool.held 1 = 0 ∧ ∑ q, s.pool.held q = 1 ∧
      (poolOfTwo 2147483648 2147483648 (by decide)).weightedShare (s.pool.declare 1 1) 1 = 5 ∧
      ((poolOfTwo 2147483648 2147483648 (by decide)).tryAcquire s.pool 1 1).1 =
        0) rfl (by decide +kernel)
  exact ⟨s, reached, hit⟩

end AwaQueue.Dispatch
