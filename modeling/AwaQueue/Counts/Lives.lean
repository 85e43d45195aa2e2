import AwaQueue.Counts.Exact
import Mathlib.Data.List.Dedup

/-! The tables against the life of a job: it is created, claimed and taken away, and no other call
changes its run lease. -/

namespace AwaQueue.Counts

open List
open Function (update update_of_ne update_self)
open Library

/-- The run leases of the places where the rows of a job put it. A receipt and a lease of one
attempt are one place. -/
def JobRows.places (r : JobRows) : List Nat :=
  r.unspent.map WaitingRow.runLease ++ (r.unclosed.map Claim.runLease ++
    r.leases.map LeaseRow.runLease).dedup ++ r.evidence

def CountState.life (s : CountState) (j : Nat) : Option Nat := (s.rows j).places.head?

inductive Turn where
  | created
  | claimed
  /-- Completed into a receipt completion batch, deleted, discarded, purged or pruned. -/
  | removed
  | kept
deriving DecidableEq

inductive Turn.Takes : Turn → Option Nat → Option Nat → Prop where
  | created : Takes .created none (some 0)
  | claimed (n : Nat) : Takes .claimed (some n) (some (n + 1))
  | removed (n : Nat) : Takes .removed (some n) none
  | kept (life : Option Nat) : Takes .kept life life

def CountOp.turn (s : CountState) (j : Nat) : CountOp → Turn
  | .enqueue _ | .schedule => if j = s.jobs then .created else .kept
  | .claim i _ _ => if j = i then .claimed else .kept
  | .finish i _ .compacted => if j = i then .removed else .kept
  | .delete i row _ =>
    if j = i then
      if row = none ∧ (s.rows i).deferred = [] ∧ (s.rows i).leases = [] ∧ (s.rows i).done = [] ∧
        (s.rows i).dlq = [] then .kept
      else .removed
    else .kept
  | .discard i =>
    if j = i then if (s.rows i).done = [] ∧ (s.rows i).dlq = [] then .kept else .removed else .kept
  | .prune _ lost => if lost j = true ∧ (s.rows j).done ≠ [] then .removed else .kept
  | _ => .kept

def Stage.lease : Stage → Option Nat
  | .waiting row => some row.runLease
  | .running a _ | .parked a _ => some a
  | .away => none

section
variable {s t : CountState} {i j n a : Nat} {r : JobRows} {stage : Stage} {lane : Lane}
    {row : WaitingRow}

theorem dedup_of_forall_eq {xs : List Nat} (some : xs ≠ []) (all : ∀ x ∈ xs, x = n) :
    xs.dedup = [n] := by
  rw [eq_replicate_of_mem all]
  exact replicate_dedup (length_eq_zero_iff.not.2 some)

theorem dedup_leased {lease : LeaseRow} (claims : ∀ c ∈ r.unclosed, c.runLease = n)
    (leases : r.leases = [lease]) (own : lease.runLease = n) :
    (r.unclosed.map Claim.runLease ++ r.leases.map LeaseRow.runLease).dedup = [n] := by
  rw [leases]
  refine dedup_of_forall_eq (append_ne_nil_of_right_ne_nil _ (cons_ne_nil _ _)) fun a mem => ?_
  rcases mem_append.1 mem with old | new
  · obtain ⟨c, inside, rfl⟩ := mem_map.1 old
    exact claims c inside
  · rw [mem_singleton.1 new, own]

theorem Standing.places_eq (at_ : Standing r n stage) :
    r.places = stage.lease.toList ++ r.evidence := by
  cases at_ with
  | waiting row lease rows claims leases =>
    rw [JobRows.places, rows, claims, leases]
    rfl
  | received queue rows claims leases =>
    rw [JobRows.places, rows, claims, leases]
    rfl
  | leased queue rows claims leases | parked queue rows claims leases =>
    rw [JobRows.places, rows, dedup_leased claims leases rfl]
    rfl
  | away rows claims leases =>
    rw [JobRows.places, rows, claims, leases]
    rfl

theorem Standing.places_length (at_ : Standing r n stage) : r.places.length ≤ 1 := by
  rw [at_.places_eq]
  cases at_ with
  | away _ _ _ _ single => exact single
  | waiting _ _ _ _ _ evidence | received _ _ _ _ evidence | leased _ _ _ _ evidence
  | parked _ _ _ _ evidence =>
    rw [evidence]
    exact le_rfl

section
variable (inv : CountInv s)
include inv

theorem CountInv.life_eq (j : Nat) :
    s.life j = ((s.stage j).lease.toList ++ (s.rows j).evidence).head? := by
  obtain ⟨n, ok⟩ := inv.jobs j
  rw [CountState.life, ok.standing.places_eq]

theorem CountInv.life_of_stage (is : (s.stage j).lease = some a) : s.life j = some a := by
  rw [inv.life_eq, is]
  rfl

theorem CountInv.lease_of_evidence (mem : a ∈ (s.rows j).evidence) : (s.stage j).lease = none := by
  obtain ⟨n, standing, -⟩ := inv.jobs j
  generalize s.stage j = stage at standing
  cases standing with
  | away => rfl
  | waiting _ _ _ _ _ evidence | received _ _ _ _ evidence | leased _ _ _ _ evidence
  | parked _ _ _ _ evidence =>
    rw [evidence] at mem
    cases mem

theorem CountInv.life_of_evidence (mem : a ∈ (s.rows j).evidence) : s.life j = some a := by
  obtain ⟨n, ok⟩ := inv.jobs j
  obtain ⟨-, -, -, -, only⟩ := ok.of_evidence mem
  rw [inv.life_eq, inv.lease_of_evidence mem, only]
  rfl

theorem CountInv.life_of_open (opened : (s.rows j).isOpen a = true) : s.life j = some a := by
  obtain ⟨n, ok⟩ := inv.jobs j
  obtain ⟨rfl, -⟩ := ok.of_isOpen opened
  obtain ⟨standing, -⟩ := ok
  refine inv.life_of_stage ?_
  generalize s.stage j = stage at standing
  cases standing with
  | received | leased | parked => rfl
  | waiting _ _ _ claims leases | away _ claims leases =>
    rw [JobRows.isOpen, openClaims_nil claims, leases] at opened
    cases opened

theorem CountInv.life_of_unspent (mem : row ∈ (s.rows j).unspent) :
    s.life j = some row.runLease := by
  obtain ⟨n, ok⟩ := inv.jobs j
  obtain ⟨-, -, -, -, -, at_⟩ := ok.of_unspent mem
  exact inv.life_of_stage (by rw [at_]; rfl)

theorem CountInv.life_of_live (there : row ∈ (s.rows j).ready)
    (live : (s.rows j).live s.cursor row = true)
    (unclaimed : row.key ∉ (s.rows j).attempts) : s.life j = some row.runLease :=
  inv.life_of_unspent (mem_unspent.2 ⟨there, of_decide_eq_true (Bool.and_eq_true_iff.1 live).2,
    unclaimed⟩)

theorem CountInv.life_late (late : s.jobs ≤ j) : s.life j = none := by
  rw [CountState.life, inv.late j late]
  rfl

end

section
variable (after : CountInv t) (rows : t.rows = update s.rows i r)
    (stages : t.stage = update s.stage i stage)
include after rows stages

theorem Turn.Takes.change {turn : Turn} (own : turn.Takes (s.life i)
    (stage.lease.toList ++ r.evidence).head?) :
    (if j = i then turn else .kept).Takes (s.life j) (t.life j) := by
  split
  next same =>
    subst same
    rwa [after.life_eq, rows, stages, update_self, update_self]
  next apart =>
    rw [CountState.life, CountState.life, rows, update_of_ne apart]
    exact .kept _

theorem Turn.Takes.keep (before : s.life i = some a)
    (own : (stage.lease.toList ++ r.evidence).head? = some a) :
    Turn.kept.Takes (s.life j) (t.life j) := by
  have kept : (if j = i then Turn.kept else .kept).Takes (s.life j) (t.life j) := by
    refine .change after rows stages ?_
    rw [before, own]
    exact .kept _
  rwa [ite_self] at kept

end

section
variable (inv : CountInv s)
include inv

theorem CountInv.turn_finish (opened : (s.rows i).isOpen a = true) (outcome : Outcome) :
    ((CountOp.finish i a outcome).turn s j).Takes (s.life j) ((s.finish i a outcome).life j) := by
  have after := inv.finish opened outcome
  have before := inv.life_of_open opened
  obtain ⟨n, ok⟩ := inv.jobs i
  obtain ⟨-, -, -, -, evidence⟩ := ok.of_isOpen opened
  obtain ⟨rest, dlq⟩ := append_eq_nil_iff.1 evidence
  obtain ⟨done, deferred⟩ := append_eq_nil_iff.1 rest
  cases outcome with
  | compacted =>
    refine .change after rfl rfl ?_
    rw [before, show ((s.rows i).endAttempt a).evidence = [] from evidence]
    exact .removed a
  | done | deferred | dlq =>
    refine .keep after rfl rfl before ?_
    simp [Stage.lease, JobRows.evidence, JobRows.endAttempt, done, deferred, dlq]
  | ready lane => exact .keep after rfl rfl before rfl

theorem CountInv.turn_delete {row : Option WaitingRow} {joined : Bool}
    (meets : KeepsCounts (.delete i row joined) s)
    (found : ∀ row' ∈ row, row' ∈ (s.rows i).ready ∧ (s.rows i).live s.cursor row' = true) :
    ((CountOp.delete i row joined).turn s j).Takes (s.life j)
    ((s.deleteJob i row joined).life j) := by
  have after := inv.delete joined found meets
  cases row with
  | some row =>
    obtain ⟨there, live⟩ := found row rfl
    have unclaimed : row.key ∉ (s.rows i).attempts := of_decide_eq_true meets
    obtain ⟨-, -, -, evidence, -⟩ := inv.of_live there live unclaimed
    refine .change after rfl rfl ?_
    rw [if_neg (fun none => nomatch none.1), inv.life_of_live there live unclaimed,
      show ((s.rows i).tombstone row).evidence = [] from evidence]
    exact .removed _
  | none =>
    refine .change after rfl rfl ?_
    by_cases nothing : (s.rows i).deferred = [] ∧ (s.rows i).leases = [] ∧ (s.rows i).done = [] ∧
      (s.rows i).dlq = []
    · rw [if_pos ⟨rfl, nothing⟩, if_pos nothing, deleteRest_nothing joined nothing, ← inv.life_eq]
      exact .kept _
    · rw [if_neg fun all => nothing all.2, if_neg nothing]
      rcases found_of_some nothing with ⟨a, held⟩ | ⟨lease, mem⟩
      · rw [inv.life_of_evidence held, (inv.deleteRest_of_evidence joined held).2]
        exact .removed a
      · rw [inv.life_of_open (isOpen_of_lease mem), (inv.deleteRest_of_lease joined mem).2]
        exact .removed _

theorem CountInv.turn_discard :
    ((CountOp.discard i).turn s j).Takes (s.life j)
      ((s.setJob i { s.rows i with done := [], dlq := [] } (s.stage i)).life j) := by
  refine .change inv.discard rfl rfl ?_
  split
  next none =>
    rw [inv.life_eq, JobRows.evidence, JobRows.evidence, none.1, none.2]
    exact .kept _
  next some =>
    obtain ⟨a, held, deferred⟩ : ∃ a, a ∈ (s.rows i).evidence ∧ (s.rows i).deferred = [] := by
      by_cases done : (s.rows i).done = []
      · obtain ⟨a, dead⟩ := exists_mem_of_ne_nil _ fun dlq => some ⟨done, dlq⟩
        obtain ⟨held, -, deferred, -⟩ := inv.of_dlq dead
        exact ⟨a, held, deferred⟩
      · obtain ⟨a, ended⟩ := exists_mem_of_ne_nil _ done
        obtain ⟨held, -, deferred, -⟩ := inv.of_done ended
        exact ⟨a, held, deferred⟩
    rw [inv.life_of_evidence held, inv.lease_of_evidence held, JobRows.evidence, deferred]
    exact .removed a

theorem CountInv.turn_prune {slot : Nat} {lost : Nat → Bool}
    (after : CountInv { s with rows := fun j => (s.rows j).prune slot (lost j) }) :
    ((CountOp.prune slot lost).turn s j).Takes (s.life j)
      (CountState.life { s with rows := fun j => (s.rows j).prune slot (lost j) } j) := by
  rw [after.life_eq, CountOp.turn]
  split
  next gone =>
    obtain ⟨a, ended⟩ := exists_mem_of_ne_nil _ gone.2
    obtain ⟨held, -, deferred, dlq⟩ := inv.of_done ended
    have none : ((s.rows j).prune slot (lost j)).evidence = [] := by
      simp [JobRows.evidence, JobRows.prune, gone.1, deferred, dlq]
    rw [inv.life_of_evidence held, inv.lease_of_evidence held, none]
    exact .removed a
  next stays =>
    have same : ((s.rows j).prune slot (lost j)).evidence = (s.rows j).evidence := by
      have done : (if lost j then [] else (s.rows j).done) = (s.rows j).done := by
        rw [ite_eq_right_iff]
        intro is
        by_contra some
        exact stays ⟨is, fun none => some none.symm⟩
      rw [JobRows.evidence, JobRows.prune, done]
      rfl
    rw [same, ← inv.life_eq]
    exact .kept _

theorem CountInv.turn {slots : Nat} {op : CountOp} (meets : KeepsCounts op s)
    (step : countStep slots op s = some t) (j : Nat) :
    (op.turn s j).Takes (s.life j) (t.life j) := by
  have after := countInv_step inv meets step
  cases op with
  | enqueue lane | schedule =>
    cases step
    refine .change after rfl rfl ?_
    rw [inv.life_late le_rfl]
    exact .created
  | promote i a lane =>
    obtain ⟨mem, rfl⟩ := guard_eq_some step
    exact .keep after rfl rfl (inv.life_of_evidence (inv.of_deferred mem).1) rfl
  | claim i row receipts =>
    obtain ⟨⟨there, free, -⟩, rfl⟩ := guard_eq_some step
    refine .change after rfl rfl ?_
    rw [inv.life_of_unspent (mem_filter.2 ⟨there, by rw [free]; rfl⟩)]
    exact .claimed row.runLease
  | advance i key | skip lane =>
    obtain ⟨-, rfl⟩ := guard_eq_some step
    exact .kept _
  | materialize i c =>
    obtain ⟨mem, rfl⟩ := guard_eq_some step
    exact .keep after rfl rfl (inv.life_of_open (isOpen_of_claim mem)) rfl
  | setWaiting i lease waiting =>
    obtain ⟨mem, rfl⟩ := guard_eq_some step
    refine .keep after rfl rfl (inv.life_of_open (isOpen_of_lease mem)) ?_
    cases waiting <;> rfl
  | finish i a outcome =>
    obtain ⟨opened, rfl⟩ := guard_eq_some step
    exact inv.turn_finish opened outcome
  | cancelWaiting i row =>
    obtain ⟨⟨there, live⟩, rfl⟩ := guard_eq_some step
    obtain ⟨-, -, -, evidence, -⟩ := inv.of_live there live (of_decide_eq_true meets)
    refine .keep after rfl rfl (inv.life_of_live there live (of_decide_eq_true meets)) ?_
    simp_all [JobRows.evidence, Stage.lease]
  | cancelDeferred i a =>
    obtain ⟨mem, rfl⟩ := guard_eq_some step
    obtain ⟨held, done, deferred, dlq⟩ := inv.of_deferred mem
    refine .keep after rfl rfl (inv.life_of_evidence held) ?_
    simp [JobRows.evidence, Stage.lease, done, deferred, dlq]
  | move i row lane =>
    obtain ⟨⟨there, live⟩, rfl⟩ := guard_eq_some step
    exact .keep after rfl rfl (inv.life_of_live there live (of_decide_eq_true meets)) rfl
  | delete i row joined =>
    obtain ⟨found, rfl⟩ := guard_eq_some step
    exact inv.turn_delete meets found
  | retry i a lane =>
    obtain ⟨mem, rfl⟩ := guard_eq_some step
    exact .keep after rfl rfl (inv.life_of_evidence (inv.of_done mem).1) rfl
  | moveFailedToDlq i a =>
    obtain ⟨mem, rfl⟩ := guard_eq_some step
    obtain ⟨held, done, deferred, dlq⟩ := inv.of_done mem
    refine .keep after rfl rfl (inv.life_of_evidence held) ?_
    simp [JobRows.evidence, Stage.lease, done, deferred, dlq]
  | retryFromDlq i a lane =>
    obtain ⟨mem, moved⟩ := Option.ite_none_right_eq_some.1 step
    obtain ⟨held, done, deferred, dlq⟩ := inv.of_dlq mem
    cases lane with
    | some lane =>
      cases moved
      exact .keep after rfl rfl (inv.life_of_evidence held) rfl
    | none =>
      cases moved
      refine .keep after rfl rfl (inv.life_of_evidence held) ?_
      simp [JobRows.evidence, Stage.lease, done, deferred, dlq]
  | discard i =>
    cases step
    exact inv.turn_discard
  | rotate =>
    cases step
    exact .kept _
  | prune slot lost =>
    obtain ⟨-, rfl⟩ := guard_eq_some step
    exact inv.turn_prune after
  | pruneClaims i gone =>
    obtain ⟨-, rfl⟩ := guard_eq_some step
    have kept : (if j = i then Turn.kept else .kept).Takes (s.life j)
        ((s.setJob i ((s.rows i).pruneClaims gone) (s.stage i)).life j) := by
      refine .change after rfl rfl ?_
      rw [inv.life_eq]
      exact .kept _
    rwa [ite_self] at kept

end

/-- The run lease that a claim gives to the job. -/
def CountOp.emits (j : Nat) : CountOp → Option Nat
  | .claim i row _ => if j = i then some (row.runLease + 1) else none
  | _ => none

theorem jobs_le {slots : Nat} {op : CountOp} (step : countStep slots op s = some t) :
    s.jobs ≤ t.jobs := by
  cases op with
  | enqueue | schedule =>
    cases step
    exact Nat.le_succ _
  | discard | rotate =>
    cases step
    exact le_rfl
  | finish i a outcome =>
    obtain ⟨-, rfl⟩ := guard_eq_some step
    cases outcome <;> exact le_rfl
  | delete i row joined =>
    obtain ⟨-, rfl⟩ := guard_eq_some step
    cases row <;> exact le_rfl
  | retryFromDlq i a lane =>
    obtain ⟨-, moved⟩ := Option.ite_none_right_eq_some.1 step
    cases lane <;> cases moved <;> exact le_rfl
  | promote | claim | advance | skip | materialize | setWaiting | cancelWaiting | cancelDeferred
  | move | retry | moveFailedToDlq
    | prune | pruneClaims =>
    obtain ⟨-, rfl⟩ := guard_eq_some step
    exact le_rfl

theorem CountOp.turn_claim (s : CountState) (j : Nat) (row : WaitingRow) (receipts : Bool) :
    (CountOp.claim j row receipts).turn s j = .claimed := if_pos rfl

theorem CountOp.turn_cases (s : CountState) (j : Nat) (op : CountOp) :
    (∃ row receipts, op = .claim j row receipts) ∨
      op.emits j = none ∧ (op.turn s j = .created ∧ s.jobs ≤ j ∨ op.turn s j = .kept ∨
        op.turn s j = .removed) := by
  cases op with
  | finish i a outcome => cases outcome <;> grind [CountOp.turn, CountOp.emits]
  | _ => grind [CountOp.turn, CountOp.emits]

end
end AwaQueue.Counts
