import AwaQueue.Counts.Tables
import Mathlib.Data.List.Nodup

/-! Where the rows of a job say that it is. Every job is in one place: it has one row that can be
claimed, or one attempt that is not closed, or neither. -/

namespace AwaQueue.Counts

open List Library

namespace JobRows
variable (r : JobRows)

def unspent : List WaitingRow := r.ready.filter fun row => !r.spent row

def unclosed : List Claim := r.claims.filter fun c => c.runLease ∉ r.closures

def evidence : List Nat := r.done ++ r.deferred ++ r.dlq

end JobRows

/-- The rows of a job with the last run lease `n`, and where it is. -/
inductive Standing (r : JobRows) (n : Nat) : Stage → Prop where
  | waiting (row : WaitingRow) (lease : row.runLease = n) (rows : r.unspent = [row])
      (claims : r.unclosed = [])
      (leases : r.leases = []) (evidence : r.evidence = []) : Standing r n (.waiting row)
  | received (queue : Nat) (rows : r.unspent = []) (claims : r.unclosed = [⟨n, queue⟩])
      (leases : r.leases = []) (evidence : r.evidence = []) : Standing r n (.running n queue)
  | leased (queue : Nat) (rows : r.unspent = []) (claims : ∀ c ∈ r.unclosed, c.runLease = n)
      (leases : r.leases = [⟨n, queue, false⟩])
      (evidence : r.evidence = []) : Standing r n (.running n queue)
  | parked (queue : Nat) (rows : r.unspent = []) (claims : ∀ c ∈ r.unclosed, c.runLease = n)
      (leases : r.leases = [⟨n, queue, true⟩])
      (evidence : r.evidence = []) : Standing r n (.parked n queue)
  | away (rows : r.unspent = []) (claims : r.unclosed = []) (leases : r.leases = [])
      (evidence : ∀ e ∈ r.evidence, e = n) (single : r.evidence.length ≤ 1) : Standing r n .away

structure JobOk (r : JobRows) (stage : Stage) (n : Nat) : Prop where
  standing : Standing r n stage
  closures : ∀ a ∈ r.closures, a ≤ n

section
variable {r r' : JobRows} {n a : Nat} {stage : Stage} {row : WaitingRow} {queues : List Nat}

theorem mem_unspent :
    row ∈ r.unspent ↔ row ∈ r.ready ∧ row.key ∉ r.tombstones ∧ row.key ∉ r.attempts := by
  simp [JobRows.unspent, JobRows.spent]

theorem mem_unclosed {c : Claim} : c ∈ r.unclosed ↔ c ∈ r.claims ∧ c.runLease ∉ r.closures := by
  simp [JobRows.unclosed]

theorem openClaims_eq :
    r.openClaims = r.unclosed.filter fun c =>
    decide (c.runLease ∉ r.leases.map LeaseRow.runLease) && decide (c.runLease ∉ r.evidence) := by
  rw [JobRows.openClaims, JobRows.unclosed, filter_filter]
  refine filter_congr fun c _ => ?_
  simp only [JobRows.evidence, mem_append, not_or, Bool.decide_and, Bool.and_assoc, decide_not]
  grind

theorem openClaims_nil (claims : r.unclosed = []) : r.openClaims = [] := by
  rw [openClaims_eq, claims]
  rfl

theorem openClaims_leased {lease : LeaseRow}
    (claims : ∀ c ∈ r.unclosed, c.runLease = lease.runLease) (leases : r.leases = [lease]) :
    r.openClaims = [] := by
  rw [openClaims_eq, filter_eq_nil_iff]
  intro c mem
  simp [leases, claims c mem]

theorem openClaims_received {c : Claim} (claims : r.unclosed = [c]) (leases : r.leases = [])
    (evidence : r.evidence = []) : r.openClaims = [c] := by
  rw [openClaims_eq, claims, leases, evidence]
  rfl

theorem Standing.running_eq (at_ : Standing r n stage) :
    r.running queues = if stage.isRunning queues then 1 else 0 := by
  cases at_ with
  | waiting row _ _ claims leases =>
    simp [JobRows.running, leases, openClaims_nil claims, Stage.isRunning]
  | received queue _ claims leases evidence =>
    simp [JobRows.running, leases, openClaims_received claims leases evidence,
      Stage.isRunning, countP_cons]
  | leased queue _ claims leases =>
    simp [JobRows.running, openClaims_leased claims leases, leases, Stage.isRunning, countP_cons]
  | parked queue _ claims leases =>
    simp [JobRows.running, openClaims_leased claims leases, leases, Stage.isRunning]
  | away _ claims leases => simp [JobRows.running, leases, openClaims_nil claims, Stage.isRunning]

theorem Standing.unspent_eq (at_ : Standing r n stage) :
    (r.unspent.countP fun row => row.queue ∈ queues) = if stage.isWaiting queues then 1 else 0 := by
  cases at_ with
  | waiting row _ rows => simp [rows, Stage.isWaiting, countP_cons]
  | received _ rows | leased _ rows | parked _ rows | away rows => simp [rows, Stage.isWaiting]

/-- The counted rows are those that can be claimed and those that trail, if the cursor has passed
spent rows only. -/
theorem available_eq {cursor : Lane → Nat}
    (reached : ∀ row ∈ r.unspent, cursor row.key.lane ≤ row.key.laneSeq) :
    r.available cursor queues = (r.unspent.countP fun row => row.queue ∈ queues) +
      r.ready.countP fun row => decide (row.queue ∈ queues) && r.live cursor row &&
        decide (row.key ∈ r.attempts) := by
  rw [JobRows.available, JobRows.unspent, countP_filter,
    countP_eq_countP_filter_add _ _ fun row => decide (row.key ∉ r.attempts), countP_filter,
      countP_filter]
  congr 1
  · refine countP_congr fun row mem => ?_
    have reach : row.key ∉ r.tombstones → row.key ∉ r.attempts →
        cursor row.key.lane ≤ row.key.laneSeq := fun untombed unclaimed =>
      reached row (mem_unspent.2 ⟨mem, untombed, unclaimed⟩)
    simp only [JobRows.live, JobRows.spent, Bool.and_eq_true, decide_eq_true_eq, Bool.not_eq_true',
      Bool.or_eq_false_iff, decide_eq_false_iff_not]
    tauto
  · refine countP_congr fun row _ => ?_
    simp

theorem unspent_insertReady {key : ReadyTombstone} (fresh : key ∉ r.tombstones ∧ key ∉ r.attempts) :
    (r.insertReady key a).unspent = r.unspent ++ [⟨key, a⟩] := by
  change (r.ready ++ [(⟨key, a⟩ : WaitingRow)]).filter (fun row => !r.spent row) = _
  rw [filter_append]
  simp [JobRows.unspent, JobRows.spent, fresh]

theorem unspent_tombstone (only : r.unspent = [row]) : (r.tombstone row).unspent = [] := by
  rw [eq_nil_iff_forall_not_mem]
  intro other mem
  obtain ⟨there, untombed, unclaimed⟩ := mem_unspent.1 mem
  have inside : other ∈ r.unspent := mem_unspent.2 ⟨there,
    fun old => untombed (mem_append_left _ old), unclaimed⟩
  rw [only, mem_singleton] at inside
  rw [inside] at untombed
  exact untombed (mem_append_right _ (mem_singleton.2 rfl))

theorem unspent_claim (only : r.unspent = [row]) (receipts : Bool) :
    (r.claim row receipts).unspent = [] := by
  have same : (r.claim row receipts).ready = r.ready ∧ (r.claim row receipts).tombstones =
      r.tombstones ∧ (r.claim row receipts).attempts = r.attempts ++ [row.key] := by
    cases receipts <;> exact ⟨rfl, rfl, rfl⟩
  rw [eq_nil_iff_forall_not_mem]
  intro other mem
  rw [mem_unspent, same.1, same.2.1, same.2.2] at mem
  obtain ⟨there, untombed, unclaimed⟩ := mem
  have inside : other ∈ r.unspent := mem_unspent.2 ⟨there, untombed,
    fun old => unclaimed (mem_append_left _ old)⟩
  rw [only, mem_singleton] at inside
  rw [inside] at unclaimed
  exact unclaimed (mem_append_right _ (mem_singleton.2 rfl))

theorem unclosed_endAttempt (claims : ∀ c ∈ r.unclosed, c.runLease = a) :
    (r.endAttempt a).unclosed = [] := by
  rw [eq_nil_iff_forall_not_mem]
  intro c mem
  obtain ⟨there, outside⟩ := mem_unclosed.1 mem
  have before : c ∈ r.unclosed := mem_unclosed.2 ⟨there, fun old => outside (mem_append_left _ old)⟩
  refine outside (mem_append_right _ (mem_map.2 ⟨c, mem_filter.2 ⟨there, ?_⟩, rfl⟩))
  exact decide_eq_true (claims c before)

theorem closures_endAttempt (bounded : ∀ b ∈ r.closures, b ≤ a) :
    ∀ b ∈ (r.endAttempt a).closures, b ≤ a := by
  intro b mem
  rcases mem_append.1 mem with old | new
  · exact bounded b old
  · obtain ⟨c, there, rfl⟩ := mem_map.1 new
    exact (of_decide_eq_true (mem_filter.1 there).2).le

theorem isOpen_of_claim {c : Claim} (mem : c ∈ r.openClaims) : r.isOpen c.runLease = true :=
  Bool.or_eq_true_iff.2 (.inl (any_eq_true.2 ⟨c, mem, decide_eq_true rfl⟩))

theorem isOpen_of_lease {lease : LeaseRow} (mem : lease ∈ r.leases) :
    r.isOpen lease.runLease = true :=
  Bool.or_eq_true_iff.2 (.inr (any_eq_true.2 ⟨lease, mem, decide_eq_true rfl⟩))

theorem found_of_some (some : ¬(r.deferred = [] ∧ r.leases = [] ∧ r.done = [] ∧ r.dlq = [])) :
    (∃ a, a ∈ r.evidence) ∨ ∃ lease, lease ∈ r.leases := by
  by_cases leased : r.leases = []
  · refine .inl (exists_mem_of_ne_nil _ fun none => ?_)
    obtain ⟨rest, dlq⟩ := append_eq_nil_iff.1 none
    obtain ⟨done, deferred⟩ := append_eq_nil_iff.1 rest
    exact some ⟨deferred, leased, done, dlq⟩
  · exact .inr (exists_mem_of_ne_nil _ leased)

section
variable (ok : JobOk r stage n)
include ok

theorem JobOk.fewer (rows : r'.unspent = r.unspent) (claims : r'.unclosed = r.unclosed)
    (leases : r'.leases = r.leases) (evidence : r'.evidence.Sublist r.evidence)
    (closures : r'.closures ⊆ r.closures) : JobOk r' stage n := by
  refine ⟨?_, fun b mem => ok.closures b (closures mem)⟩
  have none (was : r.evidence = []) : r'.evidence = [] := sublist_nil.1 (was ▸ evidence)
  cases ok.standing with
  | waiting row lease only closed unleased empty =>
    exact .waiting row lease (rows.trans only) (claims.trans closed) (leases.trans unleased)
      (none empty)
  | received queue only one unleased empty =>
    exact .received queue (rows.trans only) (claims.trans one) (leases.trans unleased) (none empty)
  | leased queue only own one empty =>
    exact .leased queue (rows.trans only) (claims ▸ own) (leases.trans one) (none empty)
  | parked queue only own one empty =>
    exact .parked queue (rows.trans only) (claims ▸ own) (leases.trans one) (none empty)
  | away only closed unleased all single =>
    exact .away (rows.trans only) (claims.trans closed) (leases.trans unleased)
      (fun e mem => all e (evidence.subset mem)) (evidence.length_le.trans single)

theorem JobOk.of_isOpen (opened : r.isOpen a = true) :
    a = n ∧ r.unspent = [] ∧ (∀ c ∈ r.unclosed, c.runLease = n) ∧
      (∀ lease ∈ r.leases, lease.runLease = n) ∧ r.evidence = [] := by
  have found := Bool.or_eq_true_iff.1 opened
  cases ok.standing with
  | waiting row lease rows claims leases evidence =>
    rw [openClaims_nil claims, leases] at found
    simp at found
  | received queue rows claims leases evidence =>
    rw [openClaims_received claims leases evidence, leases] at found
    have same : n = a := by simpa using found
    refine ⟨same.symm, rows, fun c mem => ?_, fun lease mem => ?_, evidence⟩
    · rw [claims, mem_singleton] at mem
      rw [mem]
    · rw [leases] at mem
      cases mem
  | leased queue rows claims leases evidence | parked queue rows claims leases evidence =>
    rw [openClaims_leased claims leases, leases] at found
    have same : n = a := by simpa using found
    refine ⟨same.symm, rows, claims, fun lease mem => ?_, evidence⟩
    rw [leases, mem_singleton] at mem
    rw [mem]
  | away rows claims leases =>
    rw [openClaims_nil claims, leases] at found
    simp at found

theorem JobOk.of_lease {lease : LeaseRow} (mem : lease ∈ r.leases) : r.leases = [lease] := by
  cases ok.standing with
  | leased _ _ _ leases | parked _ _ _ leases =>
    rw [leases, mem_singleton] at mem
    rw [leases, mem]
  | waiting _ _ _ _ leases | received _ _ _ leases | away _ _ leases =>
    rw [leases] at mem
    cases mem

theorem JobOk.of_unspent (mem : row ∈ r.unspent) :
    row.runLease = n ∧ r.unspent = [row] ∧ r.unclosed = [] ∧ r.leases = [] ∧ r.evidence = [] ∧
      stage = .waiting row := by
  cases ok.standing with
  | waiting row' lease rows claims leases evidence =>
    rw [rows, mem_singleton] at mem
    subst mem
    exact ⟨lease, rows, claims, leases, evidence, rfl⟩
  | received _ rows | leased _ rows | parked _ rows | away rows =>
    rw [rows] at mem
    cases mem

theorem JobOk.of_evidence (mem : a ∈ r.evidence) :
    a = n ∧ r.unspent = [] ∧ r.unclosed = [] ∧ r.leases = [] ∧ r.evidence = [a] := by
  cases ok.standing with
  | away rows claims leases all single =>
    refine ⟨all a mem, rows, claims, leases, ?_⟩
    obtain ⟨e, only⟩ := length_eq_one_iff.1 (le_antisymm single (length_pos_of_mem mem))
    rw [only, mem_singleton] at mem
    rw [only, mem]
  | waiting _ _ _ _ _ evidence | received _ _ _ _ evidence | leased _ _ _ _ evidence
  | parked _ _ _ _ evidence =>
    rw [evidence] at mem
    cases mem

end

end
end AwaQueue.Counts
