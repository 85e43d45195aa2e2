import AwaQueue.Dispatch.Pool
import Mathlib.Tactic.Linarith

/-! `TokenBucket`: the limiter that the claimers of a queue share. Tokens and times (in seconds) are
exact rationals. -/

namespace AwaQueue.Dispatch

/-- `RateLimit`, as the builder and the check on the override column allow it. -/
structure RateLimit where
  maxRate : ℚ
  burst : Nat
  positive : 0 < maxRate

/-- The burst of a bucket: a configured zero stands for the ceiling of the rate, at least one. -/
def RateLimit.size (limit : RateLimit) : Nat :=
  if limit.burst = 0 then max (min ⌈limit.maxRate⌉₊ (u32 - 1)) 1 else limit.burst

structure TokenBucket where
  tokens : ℚ
  maxTokens : Nat
  refillRate : ℚ
  lastRefill : ℚ

namespace TokenBucket

def new (limit : RateLimit) (now : ℚ) : TokenBucket := ⟨limit.size, limit.size, limit.maxRate, now⟩

variable (b : TokenBucket)

def refill (now : ℚ) : TokenBucket :=
  { b with tokens := min (b.tokens + (now - b.lastRefill) * b.refillRate) b.maxTokens, lastRefill :=
    now }

def available (now : ℚ) : Nat × TokenBucket :=
  (min ⌊(b.refill now).tokens⌋₊ (u32 - 1), b.refill now)

def consume (n : Nat) : TokenBucket := { b with tokens := b.tokens - n }

def refund (n : Nat) : TokenBucket := { b with tokens := min (b.tokens + n) b.maxTokens }

def reconfigure (limit : RateLimit) : TokenBucket :=
  { b with maxTokens := limit.size, tokens := min b.tokens limit.size, refillRate := limit.maxRate }

def level (now : ℚ) : ℚ := (b.refill now).tokens

structure Ok (now : ℚ) : Prop where
  nonneg : 0 ≤ b.tokens
  within : b.tokens ≤ b.maxTokens
  rate : 0 < b.refillRate
  past : b.lastRefill ≤ now

variable {b} {now : ℚ} {n : Nat} {elapsed : ℚ}

theorem level_le : b.level now ≤ b.maxTokens := min_le_right _ _

theorem Ok.level_nonneg (ok : b.Ok now) : 0 ≤ b.level now :=
  le_min (add_nonneg ok.nonneg (mul_nonneg (sub_nonneg.2 ok.past) ok.rate.le)) (Nat.cast_nonneg _)

theorem new_ok (limit : RateLimit) (now : ℚ) : (new limit now).Ok now :=
  ⟨Nat.cast_nonneg _, le_rfl, limit.positive, le_rfl⟩

theorem Ok.later (ok : b.Ok now) (forward : 0 ≤ elapsed) : b.Ok (now + elapsed) :=
  { ok with past := ok.past.trans (le_add_of_nonneg_right forward) }

/-- The caller of `consume` takes no more than `available` has said. -/
theorem Ok.consume (ok : b.Ok now) (covered : n ≤ (b.available now).1) :
    ((b.refill now).consume n).Ok now := by
  have whole : n ≤ ⌊b.level now⌋₊ := covered.trans (min_le_left _ _)
  have enough : (n : ℚ) ≤ b.level now := (Nat.cast_le.2 whole).trans (Nat.floor_le ok.level_nonneg)
  constructor
  · exact sub_nonneg.2 enough
  · exact (sub_le_self _ (Nat.cast_nonneg n)).trans level_le
  · exact ok.rate
  · exact le_rfl

theorem Ok.refund (ok : b.Ok now) (n : Nat) : (b.refund n).Ok now where
  __ := ok
  nonneg := le_min (add_nonneg ok.nonneg (Nat.cast_nonneg n)) (Nat.cast_nonneg _)
  within := min_le_right _ _

theorem Ok.reconfigure (ok : b.Ok now) (limit : RateLimit) : (b.reconfigure limit).Ok now where
  nonneg := le_min ok.nonneg (Nat.cast_nonneg _)
  within := min_le_right _ _
  rate := limit.positive
  past := ok.past

theorem level_consume : ((b.refill now).consume n).level now = b.level now - n := by
  have full : b.level now ≤ b.maxTokens := level_le
  change min (b.level now - n + (now - now) * b.refillRate) b.maxTokens = _
  rw [sub_self, zero_mul, add_zero, min_eq_left]
  exact (sub_le_self _ (Nat.cast_nonneg n)).trans full

theorem level_refund : (b.refund n).level now ≤ b.level now + n := by
  change min (min (b.tokens + n) b.maxTokens + (now - b.lastRefill) * b.refillRate) b.maxTokens ≤
    min (b.tokens + (now - b.lastRefill) * b.refillRate) b.maxTokens + n
  rw [← min_add_add_right _ _ (n : ℚ)]
  refine le_min ?_ ?_
  · calc min (min (b.tokens + n) b.maxTokens + (now - b.lastRefill) * b.refillRate) b.maxTokens
        ≤ min (b.tokens + n) b.maxTokens + (now - b.lastRefill) * b.refillRate := min_le_left _ _
      _ ≤ b.tokens + n + (now - b.lastRefill) * b.refillRate := add_le_add_left (min_le_left _ _) _
      _ = b.tokens + (now - b.lastRefill) * b.refillRate + n := by ring
  · exact (min_le_right _ _).trans (le_add_of_nonneg_right (Nat.cast_nonneg n))

theorem level_later (rate : 0 < b.refillRate) (forward : 0 ≤ elapsed) :
    b.level (now + elapsed) ≤ b.level now + b.refillRate * elapsed := by
  change min (b.tokens + (now + elapsed - b.lastRefill) * b.refillRate) b.maxTokens ≤
    min (b.tokens + (now - b.lastRefill) * b.refillRate) b.maxTokens + b.refillRate * elapsed
  rw [← min_add_add_right]
  refine le_min ?_ ?_
  · exact (min_le_left _ _).trans_eq (by ring)
  · exact (min_le_right _ _).trans (le_add_of_nonneg_right (mul_nonneg rate.le forward))

end TokenBucket
end AwaQueue.Dispatch
