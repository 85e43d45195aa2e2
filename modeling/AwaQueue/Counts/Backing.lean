import AwaQueue.Counts.Reads

/-! What stands behind the attempt or the completion of a job: one claim, and a ready row that no
prune takes before the attempt has ended. -/

namespace AwaQueue.Counts

open List
open Function (update update_of_ne update_self)
open Library

/-- The run lease and the queue of the attempt that is open. -/
def Stage.attempt : Stage → Option (Nat × Nat)
  | .running a queue | .parked a queue => some (a, queue)
  | .waiting _ | .away => none

/-- What a call does to the ready rows and the attempt of a job. -/
structure Follows (op : CountOp) (s t : CountState) (j : Nat) : Prop where
  ready : ∀ row ∈ (t.rows j).ready, row ∈ (s.rows j).ready ∨ t.stage j = .waiting row
  kept : ∀ row ∈ (s.rows j).ready,
    row ∈ (t.rows j).ready ∨ ∃ lost, op = .prune row.key.ref.slot lost
  attempt : ∀ open_, (t.stage j).attempt = some open_ → (s.stage j).attempt = some open_ ∨
    ∃ row receipts, op = .claim j row receipts ∧ open_ = (row.runLease + 1, row.queue)

section
variable {s t : CountState} {op : CountOp} {i j a : Nat} {r : JobRows} {stage : Stage}
  {slots : Nat} {row : WaitingRow}

theorem Follows.same (rows : t.rows = s.rows) (stages : t.stage = s.stage) : Follows op s t j where
  ready row mem := .inl (by rwa [rows] at mem)
  kept row mem := .inl (by rwa [rows])
  attempt open_ is := .inl (by rwa [stages] at is)

theorem Follows.change (rows : t.rows = update s.rows i r)
    (stages : t.stage = update s.stage i stage) (ready : r.ready = (s.rows i).ready)
    (attempt : ∀ open_, stage.attempt = some open_ →
      (s.stage i).attempt = some open_ ∨
        ∃ row receipts, op = .claim i row receipts ∧ open_ = (row.runLease + 1, row.queue)) :
    Follows op s t j := by
  have same : (t.rows j).ready = (s.rows j).ready := by
    rw [rows]
    by_cases own : j = i
    · rw [own, update_self, ready]
    · rw [update_of_ne own]
  refine ⟨fun row mem => .inl (same ▸ mem), fun row mem => .inl (same ▸ mem), fun open_ is => ?_⟩
  rw [stages] at is
  by_cases own : j = i
  · subst own
    rw [update_self] at is
    exact attempt open_ is
  · rw [update_of_ne own] at is
    exact .inl is

theorem Follows.settle (rows : t.rows = update s.rows i r)
    (stages : t.stage = update s.stage i .away) (ready : r.ready = (s.rows i).ready) :
    Follows op s t j :=
  .change rows stages ready fun _ is => (nomatch is)

theorem Follows.insert {key : ReadyTombstone}
    (rows : t.rows = update s.rows i (r.insertReady key a))
    (stages : t.stage = update s.stage i (.waiting ⟨key, a⟩)) (ready : r.ready = (s.rows i).ready) :
    Follows op s t j := by
  by_cases own : j = i
  · subst own
    have rows : (t.rows j).ready = (s.rows j).ready ++ [⟨key, a⟩] := by
      rw [rows, update_self, ← ready]
      rfl
    have stage : t.stage j = .waiting ⟨key, a⟩ := by rw [stages, update_self]
    refine ⟨fun row mem => ?_, fun row mem => .inl ?_, fun open_ is => ?_⟩
    · rw [rows] at mem
      rcases mem_append.1 mem with old | new
      · exact .inl old
      · exact .inr (by rw [stage, mem_singleton.1 new])
    · rw [rows]
      exact mem_append_left _ mem
    · rw [stage] at is
      cases is
  · refine ⟨fun row mem => .inl ?_, fun row mem => .inl ?_, fun open_ is => .inl ?_⟩
    · rwa [rows, update_of_ne own] at mem
    · rwa [rows, update_of_ne own]
    · rwa [stages, update_of_ne own] at is

theorem CountInv.attempt_of_open (inv : CountInv s) (opened : (s.rows j).isOpen a = true) :
    ∃ queue, (s.stage j).attempt = some (a, queue) := by
  obtain ⟨n, ok⟩ := inv.jobs j
  obtain ⟨rfl, -⟩ := ok.of_isOpen opened
  obtain ⟨standing, -⟩ := ok
  generalize s.stage j = stage at standing
  cases standing with
  | received queue | leased queue | parked queue => exact ⟨queue, rfl⟩
  | waiting _ _ _ claims leases | away _ claims leases =>
    rw [JobRows.isOpen, openClaims_nil claims, leases] at opened
    cases opened

theorem CountInv.attempt_of_lease (inv : CountInv s) {lease : LeaseRow}
    (mem : lease ∈ (s.rows j).leases) :
    (s.stage j).attempt = some (lease.runLease, lease.queue) := by
  obtain ⟨n, standing, -⟩ := inv.jobs j
  generalize s.stage j = stage at standing
  cases standing with
  | leased _ _ _ leases | parked _ _ _ leases =>
    rw [leases, mem_singleton] at mem
    rw [mem]
    rfl
  | waiting _ _ _ _ leases | received _ _ _ leases | away _ _ leases =>
    rw [leases] at mem
    cases mem

theorem CountInv.attempt_of_claim (inv : CountInv s) {c : Claim}
    (mem : c ∈ (s.rows j).openClaims) : (s.stage j).attempt = some (c.runLease, c.queue) := by
  obtain ⟨n, standing, -⟩ := inv.jobs j
  generalize s.stage j = stage at standing
  cases standing with
  | received _ _ claims leases evidence =>
    rw [openClaims_received claims leases evidence, mem_singleton] at mem
    rw [mem]
    rfl
  | leased _ _ claims leases | parked _ _ claims leases =>
    rw [openClaims_leased claims leases] at mem
    cases mem
  | waiting _ _ _ claims | away _ claims =>
    rw [openClaims_nil claims] at mem
    cases mem

theorem CountInv.holds_of_attempt (inv : CountInv s) {queue : Nat}
    (attempt : (s.stage j).attempt = some (a, queue)) : (s.rows j).holds a = true := by
  obtain ⟨n, standing, -⟩ := inv.jobs j
  generalize s.stage j = stage at standing attempt
  cases standing with
  | received _ _ claims =>
    cases attempt
    simp [JobRows.holds, claims]
  | leased _ _ _ leases | parked _ _ _ leases =>
    cases attempt
    simp [JobRows.holds, leases]
  | waiting | away => cases attempt

theorem CountInv.follows (inv : CountInv s) (step : countStep slots op s = some t) (j : Nat) :
    Follows op s t j := by
  cases op with
  | enqueue lane =>
    cases step
    exact .insert rfl rfl (by rw [inv.late _ le_rfl])
  | schedule =>
    cases step
    exact .settle rfl rfl (by rw [inv.late _ le_rfl])
  | promote i a lane | retry i a lane =>
    obtain ⟨-, rfl⟩ := guard_eq_some step
    exact .insert rfl rfl rfl
  | claim i row receipts =>
    obtain ⟨-, rfl⟩ := guard_eq_some step
    refine .change rfl rfl (by cases receipts <;> rfl) fun open_ is => .inr ⟨row, receipts, rfl, ?_⟩
    exact (Option.some.inj is).symm
  | advance i key | skip lane =>
    obtain ⟨-, rfl⟩ := guard_eq_some step
    exact .same rfl rfl
  | materialize i c =>
    obtain ⟨mem, rfl⟩ := guard_eq_some step
    exact .change rfl rfl rfl fun open_ is => .inl ((inv.attempt_of_claim mem).trans is)
  | setWaiting i lease waiting =>
    obtain ⟨mem, rfl⟩ := guard_eq_some step
    refine .change rfl rfl rfl fun open_ is => .inl ((inv.attempt_of_lease mem).trans ?_)
    cases waiting <;> exact is
  | finish i a outcome =>
    obtain ⟨-, rfl⟩ := guard_eq_some step
    cases outcome with
    | compacted | done | deferred | dlq => exact .settle rfl rfl rfl
    | ready lane => exact .insert rfl rfl rfl
  | cancelWaiting i row | cancelDeferred i a | moveFailedToDlq i a =>
    obtain ⟨-, rfl⟩ := guard_eq_some step
    exact .settle rfl rfl rfl
  | move i row lane =>
    obtain ⟨-, rfl⟩ := guard_eq_some step
    exact .insert rfl rfl rfl
  | delete i row joined =>
    obtain ⟨-, rfl⟩ := guard_eq_some step
    cases row with
    | some row => exact .settle rfl rfl rfl
    | none =>
      refine .change rfl rfl (deleteRest_keeps _ joined).1 fun open_ is => .inl ?_
      split at is
      · exact is
      · cases is
  | retryFromDlq i a lane =>
    obtain ⟨-, moved⟩ := Option.ite_none_right_eq_some.1 step
    cases lane with
    | some lane =>
      cases moved
      exact .insert rfl rfl rfl
    | none =>
      cases moved
      exact .settle rfl rfl rfl
  | discard i =>
    cases step
    exact .change rfl rfl rfl fun _ is => .inl is
  | rotate =>
    cases step
    exact .same rfl rfl
  | prune slot lost =>
    obtain ⟨-, rfl⟩ := guard_eq_some step
    refine ⟨fun row mem => .inl (mem_filter.1 mem).1, fun row mem => ?_, fun _ is => .inl is⟩
    by_cases inside : row.key.ref.slot = slot
    · exact .inr ⟨lost, by rw [inside]⟩
    · exact .inl (mem_filter.2 ⟨mem, decide_eq_true inside⟩)
  | pruneClaims i gone =>
    obtain ⟨-, rfl⟩ := guard_eq_some step
    exact .change rfl rfl rfl fun _ is => .inl is

end

/-- The key is that of a ready row of the job, and all its ready rows are from before the lease. -/
structure Backed (s : LookState) (j : Nat) (key : ReadyTombstone) (n : Nat) : Prop where
  row : ∃ row ∈ (s.counts.rows j).ready, row.key = key
  before : ∀ row ∈ (s.counts.rows j).ready, row.runLease < n

structure ReadsInv (s : LookState) : Prop where
  counts : CountInv s.counts
  late : ∀ j, s.counts.jobs ≤ j → s.sources j = [] ∧ s.completions j = []
  rows : ∀ j, ∀ n ∈ s.counts.life j, ∀ row ∈ (s.counts.rows j).ready, row.runLease ≤ n
  sources : ∀ j, ∀ n ∈ s.counts.life j, ∀ source ∈ s.sources j, source.runLease ≤ n
  running : ∀ j a queue, (s.counts.stage j).attempt = some (a, queue) →
    ∃ source, s.attemptSources j a = [source] ∧ source.key.lane.queue = queue ∧
      Backed s j source.key a
  completed : ∀ j, ∀ c ∈ s.completions j,
    s.counts.life j = none ∧ s.completions j = [c] ∧ Backed s j c.key c.runLease

section
variable {s t : LookState} {op : LookOp} {slots j a n : Nat} {key : ReadyTombstone}

theorem lookStep_eq_some (step : lookStep slots op s = some t) : s.gate op = true ∧
    s.countsAfter slots op = some t.counts ∧
    t.sources = s.sourcesAfter op ∧ t.completions = s.completionsAfter op := by
  obtain ⟨gate, rest⟩ := Option.ite_none_right_eq_some.1 step
  obtain ⟨counts, ran, rfl⟩ := Option.map_eq_some_iff.1 rest
  exact ⟨gate, ran, rfl, rfl⟩

/-- The gates of a prune that finds one generation in its slot are those of the counts. -/
theorem lookStep_counts (meets : KeepsReads op s) (step : lookStep slots op s = some t) :
    countStep slots op.call { s.counts with ring := op.ring } = some t.counts := by
  obtain ⟨gate, ran, -⟩ := lookStep_eq_some step
  unfold LookState.countsAfter at ran
  split at ran
  next slot lost pruned =>
    have one := (Bool.and_eq_true_iff.1 meets).2
    rw [pruned] at one ⊢
    rw [LookState.gate, pruned, Bool.and_eq_true_iff, Bool.and_eq_true_iff] at gate
    have idle := any_eq_false.1 ((Bool.not_eq_true' _).mp gate.1.2)
    refine (if_pos (all_eq_true.2 fun j early => all_eq_true.2 fun row mem => ?_)).trans ran
    have placed := all_eq_true.1 (all_eq_true.1 one j early) row mem
    have passed := any_eq_false.1 (Bool.eq_false_iff.2 (idle j early)) row mem
    simp only [Bool.or_eq_true, decide_eq_true_eq, Bool.and_eq_true, not_and, not_le]
      at placed passed ⊢
    exact placed.imp_right passed
  next => exact ran

theorem keepsCounts_ring (op : CountOp) (s : CountState) (ring : RingRef) :
    keepsCounts op { s with ring } = keepsCounts op s := by
  cases op with
  | delete j row joined => cases row <;> rfl
  | _ => rfl

theorem turn_ring (op : CountOp) (s : CountState) (ring : RingRef) :
    op.turn { s with ring } j = op.turn s j := by
  cases op with
  | finish i a outcome => cases outcome <;> rfl
  | _ => rfl

theorem Backed.step (backed : Backed s j key n) (follows : Follows op.call s.counts t.counts j)
    (fresh : ∀ row, t.counts.stage j ≠ .waiting row)
    (kept : ∀ lost, op.call ≠ .prune key.ref.slot lost) : Backed t j key n where
  row := by
    obtain ⟨row, mem, rfl⟩ := backed.row
    rcases follows.kept row mem with stays | ⟨lost, pruned⟩
    · exact ⟨row, stays, rfl⟩
    · exact absurd pruned (kept lost)
  before row mem := by
    rcases follows.ready row mem with old | new
    · exact backed.before row old
    · exact absurd new (fresh row)

section
variable (inv : ReadsInv s) (meets : KeepsReads op s) (step : lookStep slots op s = some t)
include inv

include meets step in
theorem ReadsInv.next : CountInv t.counts ∧ s.counts.jobs ≤ t.counts.jobs ∧ ∀ j,
    Follows op.call s.counts t.counts j ∧
      (op.call.turn s.counts j).Takes (s.counts.life j) (t.counts.life j) := by
  have ran := lookStep_counts meets step
  have placed : CountInv { s.counts with ring := op.ring } :=
    ⟨inv.counts.jobs, inv.counts.late, inv.counts.lanes⟩
  have keeps : KeepsCounts op.call { s.counts with ring := op.ring } :=
    (keepsCounts_ring op.call s.counts op.ring).trans (Bool.and_eq_true_iff.1 meets).1
  have later := jobs_le ran
  refine ⟨countInv_step placed keeps ran, later, fun j => ⟨?_, ?_⟩⟩
  · have follows := placed.follows ran j
    exact ⟨follows.ready, follows.kept, follows.attempt⟩
  · have takes := placed.turn keeps ran j
    rwa [turn_ring] at takes

/-- A prune finds no row of an open attempt in its slot. -/
theorem ReadsInv.backing (meets : KeepsReads op s) (gate : s.gate op = true) {queue : Nat}
    (attempt : (s.counts.stage j).attempt = some (a, queue)) {source : Source}
    (own : s.attemptSources j a = [source]) (backed : Backed s j source.key a) (lost : Nat → Bool) :
    op.call ≠ .prune source.key.ref.slot lost := by
  intro pruned
  obtain ⟨row, mem, same⟩ := backed.row
  have early : j ∈ range s.counts.jobs :=
    mem_range.2 (inv.counts.early (by rintro none; rw [none] at mem; cases mem))
  have there : source ∈ s.attemptSources j a := own ▸ mem_singleton_self source
  obtain ⟨known, lease⟩ := mem_filter.1 there
  rw [LookState.gate, pruned, Bool.and_eq_true_iff] at gate
  have free := all_eq_true.1 (all_eq_true.1 gate.2 j early) source known
  rw [of_decide_eq_true lease, inv.counts.holds_of_attempt attempt] at free
  have one := (Bool.and_eq_true_iff.1 meets).2
  rw [pruned] at one
  have found := all_eq_true.1 (all_eq_true.1 one j early) row mem
  have placed : source.key.ref = op.ring := by simpa [same] using found
  simp [placed] at free

theorem ReadsInv.of_claim (meets : KeepsReads op s) (step : lookStep slots op s = some t)
    {row : WaitingRow} {receipts : Bool} (is : op.call = .claim j row receipts) :
    row ∈ (s.counts.rows j).ready ∧ s.counts.life j = some row.runLease ∧ s.counts.stage j = .waiting row := by
  have ran := lookStep_counts meets step
  rw [is] at ran
  obtain ⟨⟨there, free, -⟩, -⟩ := guard_eq_some ran
  have mem : row ∈ (s.counts.rows j).unspent := mem_filter.2 ⟨there, by rw [free]; rfl⟩
  obtain ⟨n, ok⟩ := inv.counts.jobs j
  obtain ⟨-, -, -, -, -, waiting⟩ := ok.of_unspent mem
  exact ⟨there, inv.counts.life_of_unspent mem, waiting⟩

theorem ReadsInv.not_claim (meets : KeepsReads op s) (step : lookStep slots op s = some t)
    (late : s.counts.jobs ≤ j) (row : WaitingRow) (receipts : Bool) :
    op.call ≠ .claim j row receipts := by
  intro claim
  obtain ⟨mem, -⟩ := inv.of_claim meets step claim
  rw [inv.counts.late j late] at mem
  cases mem

theorem ReadsInv.completions_of_life (life : s.counts.life j = some n) : s.completions j = [] := by
  refine eq_nil_iff_forall_not_mem.2 fun c mem => ?_
  rw [(inv.completed j c mem).1] at life
  cases life

end

theorem sourcesAfter_claim {row : WaitingRow} {receipts : Bool}
    (is : op.call = .claim j row receipts) : s.sourcesAfter op j =
      s.sources j ++ [⟨row.runLease + 1, row.key, op.priority, op.compact⟩] := by
  rw [LookState.sourcesAfter, is]
  exact update_self _ _ _

theorem sourcesAfter_of_ne (other : ∀ row receipts, op.call ≠ .claim j row receipts) :
    s.sourcesAfter op j = s.sources j := by
  generalize after : s.sourcesAfter op = sources
  unfold LookState.sourcesAfter at after
  split at after <;> subst after
  next i row receipts is =>
    refine update_of_ne ?_ _ _
    rintro rfl
    exact other row receipts is
  next => rfl

theorem completionsAfter_finish (is : op.call = .finish j a .compacted) : s.completionsAfter op j =
    s.completions j ++ (s.attemptSources j a).map fun source => ⟨a, source.key⟩ := by
  rw [LookState.completionsAfter, is]
  exact update_self _ _ _

theorem completionsAfter_sublist (other : ∀ a, op.call ≠ .finish j a .compacted) :
    (s.completionsAfter op j).Sublist (s.completions j) ∧
      ∀ c ∈ s.completionsAfter op j, ∀ lost, op.call ≠ .prune c.key.ref.slot lost := by
  generalize after : s.completionsAfter op = completions
  unfold LookState.completionsAfter at after
  split at after <;> subst after
  next i a is =>
    have apart : j ≠ i := by
      rintro rfl
      exact other a is
    rw [update_of_ne apart, is]
    exact ⟨List.Sublist.refl _, fun _ _ _ => CountOp.noConfusion⟩
  next i joined is =>
    refine ⟨?_, fun _ _ _ => by rw [is]; exact CountOp.noConfusion⟩
    split
    · by_cases own : j = i
      · rw [own, update_self]
        exact nil_sublist _
      · rw [update_of_ne own]
    · exact List.Sublist.refl _
  next slot lost is =>
    refine ⟨filter_sublist, fun c mem lost' pruned => ?_⟩
    cases is.symm.trans pruned
    exact of_decide_eq_true (mem_filter.1 mem).2 rfl
  next _ _ notPrune => exact ⟨List.Sublist.refl _, fun c _ lost => notPrune _ lost⟩

section
variable (inv : ReadsInv s) (meets : KeepsReads op s) (step : lookStep slots op s = some t)
include inv meets step

theorem ReadsInv.life_before (is : t.counts.life j = some n) : s.counts.jobs ≤ j ∨
    s.counts.life j = some n ∧ (∀ row receipts, op.call ≠ .claim j row receipts) ∨
    ∃ row receipts, op.call = .claim j row receipts ∧ s.counts.life j = some row.runLease ∧
      n = row.runLease + 1 := by
  obtain ⟨-, -, next⟩ := inv.next meets step
  have takes := (next j).2
  rw [is] at takes
  rcases op.call.turn_cases s.counts j with ⟨row, receipts, claim⟩ | ⟨silent, turn⟩
  · obtain ⟨-, life, -⟩ := inv.of_claim meets step claim
    rw [claim, CountOp.turn_claim, life] at takes
    cases takes
    exact .inr (.inr ⟨row, receipts, claim, life, rfl⟩)
  · have other (row : WaitingRow) (receipts : Bool) : op.call ≠ .claim j row receipts := by
      intro claim
      rw [claim] at silent
      simp [CountOp.emits] at silent
    generalize before : s.counts.life j = life at takes
    rcases turn with ⟨-, late⟩ | kept | removed
    · exact .inl late
    · rw [kept] at takes
      cases takes
      exact .inr (.inl ⟨rfl, other⟩)
    · rw [removed] at takes
      cases takes

theorem ReadsInv.step_late (late : t.counts.jobs ≤ j) :
    t.sources j = [] ∧ t.completions j = [] := by
  obtain ⟨-, -, sources, completions⟩ := lookStep_eq_some step
  obtain ⟨-, later, -⟩ := inv.next meets step
  obtain ⟨noSource, noCompletion⟩ := inv.late j (later.trans late)
  constructor
  · rw [sources, sourcesAfter_of_ne (inv.not_claim meets step (later.trans late)), noSource]
  · rw [completions]
    by_cases finish : ∃ a, op.call = .finish j a .compacted
    · obtain ⟨a, finish⟩ := finish
      rw [completionsAfter_finish finish, LookState.attemptSources, noSource, noCompletion]
      rfl
    · have short := (completionsAfter_sublist (s := s) (not_exists.1 finish)).1
      rw [noCompletion] at short
      exact sublist_nil.1 short

theorem ReadsInv.step_rows (is : t.counts.life j = some n) {row : WaitingRow}
    (mem : row ∈ (t.counts.rows j).ready) : row.runLease ≤ n := by
  obtain ⟨counts, -, next⟩ := inv.next meets step
  rcases (next j).1.ready row mem with old | new
  · rcases inv.life_before meets step is with late | ⟨life, -⟩ | ⟨_, _, -, life, rfl⟩
    · rw [inv.counts.late j late] at old
      cases old
    · exact inv.rows j n life row old
    · exact (inv.rows j _ life row old).trans (Nat.le_succ _)
  · have life := counts.life_of_stage (j := j) (a := row.runLease) (by rw [new]; rfl)
    exact (Option.some.inj (life.symm.trans is)).le

theorem ReadsInv.step_sources (is : t.counts.life j = some n) {source : Source}
    (mem : source ∈ t.sources j) : source.runLease ≤ n := by
  obtain ⟨-, -, sources, -⟩ := lookStep_eq_some step
  rw [sources] at mem
  rcases inv.life_before meets step is with late | ⟨life, other⟩ | ⟨row, receipts, claim, life, rfl⟩
  · rw [sourcesAfter_of_ne (inv.not_claim meets step late), (inv.late j late).1] at mem
    cases mem
  · rw [sourcesAfter_of_ne other] at mem
    exact inv.sources j n life source mem
  · rw [sourcesAfter_claim claim] at mem
    rcases mem_append.1 mem with old | new
    · exact (inv.sources j _ life source old).trans (Nat.le_succ _)
    · rw [mem_singleton.1 new]

theorem ReadsInv.step_running {queue : Nat}
    (attempt : (t.counts.stage j).attempt = some (a, queue)) :
    ∃ source, t.attemptSources j a = [source] ∧ source.key.lane.queue = queue ∧
      Backed t j source.key a := by
  obtain ⟨gate, -, sources, -⟩ := lookStep_eq_some step
  obtain ⟨-, -, next⟩ := inv.next meets step
  have follows := (next j).1
  have fresh (row : WaitingRow) : t.counts.stage j ≠ .waiting row := by
    intro waiting
    rw [waiting] at attempt
    cases attempt
  rcases follows.attempt _ attempt with before | ⟨row, receipts, claim, same⟩
  · obtain ⟨source, own, place, backed⟩ := inv.running j a queue before
    have other (row : WaitingRow) (receipts : Bool) : op.call ≠ .claim j row receipts := by
      intro claim
      obtain ⟨-, -, waiting⟩ := inv.of_claim meets step claim
      rw [waiting] at before
      cases before
    refine ⟨source, ?_, place, backed.step follows fresh (inv.backing meets gate before own backed)⟩
    rw [LookState.attemptSources, sources, sourcesAfter_of_ne other]
    exact own
  · cases same
    obtain ⟨there, life, -⟩ := inv.of_claim meets step claim
    have old : (s.sources j).filter (fun source => source.runLease = row.runLease + 1) = [] := by
      refine filter_eq_nil_iff.2 fun source mem => ?_
      have := inv.sources j _ life source mem
      simp only [decide_eq_true_eq]
      omega
    have backed : Backed s j row.key (row.runLease + 1) :=
      ⟨⟨row, there, rfl⟩, fun old mem => Nat.lt_succ_of_le (inv.rows j _ life old mem)⟩
    refine ⟨⟨row.runLease + 1, row.key, op.priority, op.compact⟩, ?_, rfl,
      backed.step follows fresh fun _ => by rw [claim]; exact CountOp.noConfusion⟩
    rw [LookState.attemptSources, sources, sourcesAfter_claim claim, filter_append, old]
    simp

theorem ReadsInv.life_none (life : s.counts.life j = none) (early : j < s.counts.jobs) :
    t.counts.life j = none := by
  by_contra some
  obtain ⟨n, is⟩ := Option.ne_none_iff_exists'.1 some
  rcases inv.life_before meets step is with late | ⟨before, -⟩ | ⟨_, _, -, before, -⟩
  · exact absurd early late.not_gt
  · rw [life] at before
    cases before
  · rw [life] at before
    cases before

theorem ReadsInv.step_completed {c : Completion} (mem : c ∈ t.completions j) :
    t.counts.life j = none ∧ t.completions j = [c] ∧ Backed t j c.key c.runLease := by
  obtain ⟨-, -, -, completions⟩ := lookStep_eq_some step
  have ran := lookStep_counts meets step
  obtain ⟨counts, -, next⟩ := inv.next meets step
  obtain ⟨follows, takes⟩ := next j
  -- a job that is gone has no new row
  have fresh (life : t.counts.life j = none) (row : WaitingRow) :
      t.counts.stage j ≠ .waiting row := by
    intro waiting
    rw [counts.life_of_stage (j := j) (a := row.runLease) (by rw [waiting]; rfl)] at life
    cases life
  rw [completions] at mem ⊢
  by_cases finish : ∃ a, op.call = .finish j a .compacted
  · obtain ⟨a, finish⟩ := finish
    rw [finish] at ran takes
    obtain ⟨opened, -⟩ := guard_eq_some ran
    have before : s.counts.life j = some a := inv.counts.life_of_open opened
    have gone : t.counts.life j = none := by
      rw [show (CountOp.finish j a .compacted).turn s.counts j = .removed from if_pos rfl,
        before] at takes
      generalize t.counts.life j = after at takes
      cases takes
      rfl
    obtain ⟨queue, attempt⟩ := inv.counts.attempt_of_open opened
    obtain ⟨source, own, -, backed⟩ := inv.running j a queue attempt
    rw [completionsAfter_finish finish, inv.completions_of_life before, own] at mem ⊢
    cases mem_singleton.1 mem
    exact ⟨gone, rfl, backed.step follows (fresh gone) fun _ => by
      rw [finish]
      exact CountOp.noConfusion⟩
  · obtain ⟨short, unpruned⟩ := completionsAfter_sublist (s := s) (not_exists.1 finish)
    obtain ⟨life, only, backed⟩ := inv.completed j c (short.subset mem)
    have early : j < s.counts.jobs := by
      by_contra late
      rw [(inv.late j (not_lt.1 late)).2] at only
      cases only
    have gone := inv.life_none meets step life early
    refine ⟨gone, ?_, backed.step follows (fresh gone) (unpruned c mem)⟩
    rw [only] at short
    rcases sublist_singleton.1 short with none | one
    · rw [none] at mem
      cases mem
    · exact one

end

theorem ReadsInv.step (inv : ReadsInv s) (meets : KeepsReads op s)
    (step : lookStep slots op s = some t) : ReadsInv t where
  counts := (inv.next meets step).1
  late _ := inv.step_late meets step
  rows _ _ is _ := inv.step_rows meets step is
  sources _ _ is _ := inv.step_sources meets step is
  running _ _ _ := inv.step_running meets step
  completed _ _ := inv.step_completed meets step

end

theorem readsInv_reachable {slots : Nat} {s : LookState}
    (reached : (lookMachine slots).Reachable KeepsReads s) : ReadsInv s := by
  apply reached.invariant
  · rintro s rfl
    exact ⟨countInv_initial, fun _ _ => ⟨rfl, rfl⟩, fun _ _ _ _ mem => absurd mem not_mem_nil,
      fun _ _ _ _ mem => absurd mem not_mem_nil, fun _ _ _ attempt => (nomatch attempt),
      fun _ _ mem => absurd mem not_mem_nil⟩
  · intro op s t _ inv meets step
    exact inv.step meets step

end AwaQueue.Counts
