import AwaQueue.Counts.Backing

/-! Jobs and run leases along a run: no call loses a job or makes two of one, and the claims of a
job are numbered. -/

namespace AwaQueue.Counts

open List
open Library

def LookOp.emits (j : Nat) (op : LookOp) : Option Nat := op.call.emits j

/-- The claims of the job so far got the run leases up to `n`. -/
structure Numbered (j n : Nat) (s : CountState) : Prop where
  life : ∀ a ∈ s.life j, a = n
  unused : s.jobs ≤ j → n = 0

section
variable {s t : LookState} {op : LookOp} {slots j n : Nat}

theorem Numbered.step (count : Numbered j n s.counts) (inv : ReadsInv s) (meets : KeepsReads op s)
    (step : lookStep slots op s = some t) :
    op.emits j = none ∧ Numbered j n t.counts ∨
      op.emits j = some (n + 1) ∧ Numbered j (n + 1) t.counts := by
  obtain ⟨-, later, next⟩ := inv.next meets step
  have takes := (next j).2
  have unused (late : t.counts.jobs ≤ j) : n = 0 := count.unused (later.trans late)
  rcases op.call.turn_cases s.counts j with ⟨row, receipts, claim⟩ | ⟨silent, turn⟩
  · obtain ⟨-, life, -⟩ := inv.of_claim meets step claim
    obtain rfl : row.runLease = n := count.life _ life
    rw [claim, CountOp.turn_claim, life] at takes
    refine .inr ⟨by rw [LookOp.emits, claim]; exact if_pos rfl, fun a is => ?_, fun late => ?_⟩
    · rw [Option.mem_def.1 is] at takes
      cases takes
      rfl
    · cases life.symm.trans (inv.counts.life_late (later.trans late))
  · refine .inl ⟨silent, fun a is => ?_, unused⟩
    have life := count.life
    rw [Option.mem_def.1 is] at takes
    generalize s.counts.life j = before at takes life
    rcases turn with ⟨created, first⟩ | kept | removed
    · rw [created] at takes
      cases takes
      exact (count.unused first).symm
    · rw [kept] at takes
      cases takes
      exact life a rfl
    · rw [removed] at takes
      cases takes

theorem Numbered.run {ops : List LookOp} (count : Numbered j n s.counts)
    (from_ : (lookMachine slots).Reachable KeepsReads s)
    (ran : (lookMachine slots).run KeepsReads ops s = some t) :
    ∃ k, ops.filterMap (LookOp.emits j) = range' (n + 1) k ∧
      Numbered j (n + k) t.counts := by
  induction ops generalizing s n with
  | nil =>
    cases ran
    exact ⟨0, rfl, count⟩
  | cons op ops ih =>
    obtain ⟨meets, mid, first, rest⟩ := Machine.run_cons ran
    rcases count.step (readsInv_reachable from_) meets first with ⟨silent, same⟩ | ⟨emits, more⟩
    · obtain ⟨k, later, ends⟩ := ih same (.next from_ meets first) rest
      exact ⟨k, (filterMap_cons_none silent).trans later, ends⟩
    · obtain ⟨k, later, ends⟩ := ih more (.next from_ meets first) rest
      refine ⟨k + 1, ?_, Nat.add_right_comm n k 1 ▸ ends⟩
      rw [filterMap_cons_some emits, later, range'_succ]

end

/-- A job that fails, is retried and then snoozed. -/
def retriedOps : List LookOp :=
  [lookCall (.enqueue someLane), lookCall (.claim 0 (someRow 1) true),
    lookCall (.materialize 0 ⟨1, 7⟩), lookCall (.finish 0 1 .deferred), lookCall .rotate,
    lookCall (.promote 0 1 someLane), lookCall (.claim 0 ⟨⟨someLane, 2, ⟨0, 0⟩⟩, 1⟩ true),
    lookCall (.finish 0 2 .deferred)]

end AwaQueue.Counts
