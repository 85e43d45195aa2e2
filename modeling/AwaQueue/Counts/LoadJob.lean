import AwaQueue.Counts.Backing

/-! What `load_job` returns in every reachable state. -/

namespace AwaQueue.Counts

open List
open Library

/-- What the read needs of the columns and of the priorities of claims: an attempt whose receipt or
lease is joined by the effective priority was not claimed at an aged one, and ready rows that were
left behind with the run lease of the waiting, deferred or terminal row are older than it. -/
def LookState.Readable (s : LookState) (columns : Columns) (j : Nat) : Prop :=
  (∀ source ∈ s.sources j, source.runLease ∈ (s.counts.rows j).leases.map LeaseRow.runLease ∨
      source.compact = false ∧
        source.runLease ∈ (s.counts.rows j).openClaims.map Claim.runLease →
    source.priority = source.key.lane.priority) ∧
  ∀ old ∈ (s.counts.rows j).ready,
    ∀ row ∈ (s.counts.rows j).unspent.map columns.waiting ++ columns.ended (s.counts.rows j),
      row.runLease = old.runLease → columns.waiting old = row ∨
        (columns.waiting old).transitionTimestamp < row.transitionTimestamp

instance (s : LookState) (columns : Columns) (j : Nat) : Decidable (s.Readable columns j) :=
  inferInstanceAs (Decidable (_ ∧ _))

section
variable {s : LookState} {columns : Columns} {j n : Nat} {result : Option Candidate}
  {best row : Candidate} {view : JobView} {source : Source}

theorem Candidate.key_lt_of_runLease (lower : row.runLease < best.runLease) : row.key < best.key :=
  Prod.Lex.toLex_lt_toLex.2 (.inl lower)

theorem Candidate.key_lt_of_timestamp (same : row.runLease = best.runLease)
    (older : row.transitionTimestamp < best.transitionTimestamp) : row.key < best.key :=
  Prod.Lex.toLex_lt_toLex.2 (.inr ⟨same, Prod.Lex.toLex_lt_toLex.2 (.inl older)⟩)

theorem mem_candidates : row ∈ s.candidates columns j ↔
    (∃ old ∈ (s.counts.rows j).ready, columns.waiting old = row) ∨
      row ∈ columns.ended (s.counts.rows j) ∨ row ∈ s.leaseCandidates columns j ++
        s.claimCandidates columns j ++ s.completionCandidates columns j := by
  simp only [LookState.candidates, mem_append, mem_map, or_assoc]

theorem loads_view (loads : s.Loads columns j result) (mem : best ∈ s.candidates columns j)
    (others : ∀ row ∈ s.candidates columns j, row.view = view ∨ row.key < best.key) :
    result.map Candidate.view = some view := by
  cases result with
  | none =>
    rw [show s.candidates columns j = [] from loads] at mem
    cases mem
  | some row =>
    rcases others row loads.1 with same | lower
    · exact congrArg some same
    · exact absurd lower (loads.2 best mem).not_gt

/-- A row that needs no other row. -/
theorem ReadsInv.shows_row (inv : ReadsInv s) (readable : s.Readable columns j)
    (loads : s.Loads columns j result) (life : s.counts.life j = some best.runLease)
    (mem : best ∈ (s.counts.rows j).unspent.map columns.waiting ++ columns.ended (s.counts.rows j))
    (ended : ∀ row ∈ columns.ended (s.counts.rows j), row = best)
    (joined : s.leaseCandidates columns j ++ s.claimCandidates columns j ++
      s.completionCandidates columns j = []) :
    result.map Candidate.view = some best.view := by
  have there : best ∈ s.candidates columns j := by
    refine mem_candidates.2 ((mem_append.1 mem).imp (fun waits => ?_) .inl)
    obtain ⟨row, unspent, same⟩ := mem_map.1 waits
    exact ⟨row, (mem_unspent.1 unspent).1, same⟩
  refine loads_view loads there fun row listed => ?_
  rcases mem_candidates.1 listed with ⟨old, left, rfl⟩ | other | other
  · rcases (inv.rows j _ life old left).lt_or_eq with lower | same
    · exact .inr (Candidate.key_lt_of_runLease lower)
    · rcases readable.2 old left best mem same.symm with itself | older
      · exact .inl (congrArg Candidate.view itself)
      · exact .inr (Candidate.key_lt_of_timestamp same older)
  · exact .inl (congrArg Candidate.view (ended row other))
  · rw [joined] at other
    cases other

/-- Rows joined with a ready row, all for one attempt. -/
theorem loads_joined (best : Candidate) (loads : s.Loads columns j result)
    (before : ∀ row ∈ (s.counts.rows j).ready, row.runLease < best.runLease)
    (ended : columns.ended (s.counts.rows j) = [])
    (mem : best ∈ s.leaseCandidates columns j ++ s.claimCandidates columns j ++
      s.completionCandidates columns j)
    (joined : ∀ row ∈ s.leaseCandidates columns j ++ s.claimCandidates columns j ++
      s.completionCandidates columns j, row.view = view) :
    result.map Candidate.view = some view := by
  refine loads_view loads (mem_candidates.2 (.inr (.inr mem))) fun row listed => ?_
  rcases mem_candidates.1 listed with ⟨old, left, rfl⟩ | other | other
  · exact .inr (Candidate.key_lt_of_runLease (before old left))
  · rw [ended] at other
    cases other
  · exact .inl (joined row other)

theorem leaseCandidates_nil (leases : (s.counts.rows j).leases = []) :
    s.leaseCandidates columns j = [] := by
  rw [LookState.leaseCandidates, leases]
  rfl

theorem claimCandidates_nil (claims : (s.counts.rows j).openClaims = []) :
    s.claimCandidates columns j = [] := by
  rw [LookState.claimCandidates, claims]
  rfl

theorem completionCandidates_nil (none : s.completions j = []) :
    s.completionCandidates columns j = [] := by
  rw [LookState.completionCandidates, none]
  rfl

theorem leaseCandidates_one {lease : LeaseRow} (leases : (s.counts.rows j).leases = [lease])
    (own : s.attemptSources j lease.runLease = [source]) : s.leaseCandidates columns j =
      (s.ready.filter source.joins).map (columns.running lease.state source) := by
  simp [LookState.leaseCandidates, leases, own]

theorem claimCandidates_one {c : Claim} (claims : (s.counts.rows j).openClaims = [c])
    (own : s.attemptSources j c.runLease = [source]) : s.claimCandidates columns j =
      (if source.compact then (s.counts.rows j).ready.filter source.joinsItem
        else s.ready.filter source.joins).map (columns.running .running source) := by
  simp [LookState.claimCandidates, claims, own]

theorem completionCandidates_one {c : Completion} (only : s.completions j = [c]) :
    s.completionCandidates columns j =
      ((s.counts.rows j).ready.filter fun row => row.key = c.key).map (columns.completed c) := by
  simp [LookState.completionCandidates, only]

theorem ended_runLease (columns : Columns) (r : JobRows) :
    (columns.ended r).map Candidate.runLease = r.evidence := by
  simp [Columns.ended, JobRows.evidence, Function.comp_def, RowColumns.candidate]

theorem ended_nil (evidence : (s.counts.rows j).evidence = []) :
    columns.ended (s.counts.rows j) = [] :=
  map_eq_nil_iff.1 ((ended_runLease columns _).trans evidence)

theorem queue_of_joins {ready : WaitingRow} (joins : source.joins ready = true) :
    ready.queue = source.key.lane.queue := by
  rw [WaitingRow.queue, of_decide_eq_true joins]

theorem queue_of_joinsItem {ready : WaitingRow} (joins : source.joinsItem ready = true) :
    ready.queue = source.key.lane.queue := by
  simp only [Source.joinsItem, Bool.and_eq_true, decide_eq_true_eq] at joins
  exact joins.1.1.2

theorem view_running {state : JobState} {ready : WaitingRow} {queue : Nat}
    (busy : state ∉ [.scheduled, .available, .retryable]) (place : ready.queue = queue) :
    (columns.running state source ready).view =
      ⟨state, queue, (columns.attempt source.runLease).attempt, source.runLease, none⟩ := by
  rw [Candidate.view, if_neg (show (columns.running state source ready).state ∉ _ from busy),
    ← place]
  rfl

theorem LeaseRow.busy (lease : LeaseRow) :
    lease.state ∉ [JobState.scheduled, .available, .retryable] := by
  rw [LeaseRow.state]
  split <;> decide

theorem joins_of_key {row : WaitingRow} (unaged : source.priority = source.key.lane.priority)
    (key : row.key = source.key) : source.joins row = true := by
  rw [Source.joins, unaged, key]
  exact decide_eq_true rfl

theorem joinsItem_of_key {row : WaitingRow} (key : row.key = source.key) :
    source.joinsItem row = true := by
  simp [Source.joinsItem, WaitingRow.queue, key]

/-- The source of the attempt with the ready rows that it is joined with. -/
theorem loads_attempt (loads : s.Loads columns j result) {a queue : Nat} {state : JobState}
    (busy : state ∉ [.scheduled, .available, .retryable])
    (evidence : (s.counts.rows j).evidence = []) (own : s.attemptSources j a = [source])
    (place : source.key.lane.queue = queue) (backed : Backed s j source.key a)
    (joined : List WaitingRow) (all : s.leaseCandidates columns j ++ s.claimCandidates columns j ++
      s.completionCandidates columns j = joined.map (columns.running state source))
    (found : ∃ row, row ∈ joined) (met : ∀ row ∈ joined, row.queue = source.key.lane.queue) :
    result.map Candidate.view =
      some ⟨state, queue, (columns.attempt a).attempt, a, none⟩ := by
  obtain ⟨row, found⟩ := found
  obtain ⟨-, same⟩ := mem_filter.1 (own ▸ mem_singleton_self source)
  cases of_decide_eq_true same
  refine loads_joined (columns.running state source row) loads backed.before (ended_nil evidence)
    (all ▸ mem_map_of_mem found) fun shown listed => ?_
  rw [all] at listed
  obtain ⟨ready, there, rfl⟩ := mem_map.1 listed
  exact view_running busy ((met ready there).trans place)

section
variable (inv : ReadsInv s)
include inv

theorem ReadsInv.mem_ready {row : WaitingRow} (mem : row ∈ (s.counts.rows j).ready) :
    row ∈ s.ready :=
  mem_flatMap.2 ⟨j, mem_range.2 (inv.counts.early (by rintro none; rw [none] at mem; cases mem)),
    mem⟩

variable (readable : s.Readable columns j) (loads : s.Loads columns j result)
include readable loads

theorem ReadsInv.shows_lease {lease : LeaseRow}
    (leases : (s.counts.rows j).leases = [lease]) (claims : (s.counts.rows j).openClaims = [])
    (evidence : (s.counts.rows j).evidence = []) :
    result.map Candidate.view = some ⟨lease.state, lease.queue,
      (columns.attempt lease.runLease).attempt, lease.runLease, none⟩ := by
  have held : lease ∈ (s.counts.rows j).leases := leases ▸ mem_singleton_self lease
  have life := inv.counts.life_of_open (isOpen_of_lease held)
  obtain ⟨source, own, place, backed⟩ := inv.running j _ _ (inv.counts.attempt_of_lease held)
  obtain ⟨known, same⟩ := mem_filter.1 (own ▸ mem_singleton_self source)
  have unaged := readable.1 source known
    (.inl (mem_map.2 ⟨lease, held, (of_decide_eq_true same).symm⟩))
  obtain ⟨row, mem, key⟩ := backed.row
  refine loads_attempt loads lease.busy evidence own place backed _ ?_
    ⟨row, mem_filter.2 ⟨inv.mem_ready mem, joins_of_key unaged key⟩⟩
    fun row met => queue_of_joins (mem_filter.1 met).2
  rw [leaseCandidates_one leases own, claimCandidates_nil claims,
    completionCandidates_nil (inv.completions_of_life life), append_nil, append_nil]

theorem ReadsInv.shows_claim {c : Claim}
    (claims : (s.counts.rows j).openClaims = [c]) (leases : (s.counts.rows j).leases = [])
    (evidence : (s.counts.rows j).evidence = []) :
    result.map Candidate.view = some ⟨.running, c.queue,
      (columns.attempt c.runLease).attempt, c.runLease, none⟩ := by
  have held : c ∈ (s.counts.rows j).openClaims := claims ▸ mem_singleton_self c
  have life := inv.counts.life_of_open (isOpen_of_claim held)
  obtain ⟨source, own, place, backed⟩ := inv.running j _ _ (inv.counts.attempt_of_claim held)
  obtain ⟨known, same⟩ := mem_filter.1 (own ▸ mem_singleton_self source)
  obtain ⟨row, mem, key⟩ := backed.row
  refine loads_attempt loads (by decide) evidence own place backed
    (if source.compact then (s.counts.rows j).ready.filter source.joinsItem
      else s.ready.filter source.joins) ?_ ⟨row, ?_⟩ fun row met => ?_
  · rw [claimCandidates_one claims own, leaseCandidates_nil leases,
      completionCandidates_nil (inv.completions_of_life life), nil_append, append_nil]
  · split
    next => exact mem_filter.2 ⟨mem, joinsItem_of_key key⟩
    next local_ =>
      have unaged := readable.1 source known (.inr ⟨Bool.eq_false_iff.2 local_,
        mem_map.2 ⟨c, held, (of_decide_eq_true same).symm⟩⟩)
      exact mem_filter.2 ⟨inv.mem_ready mem, joins_of_key unaged key⟩
  · split at met
    next => exact queue_of_joinsItem (mem_filter.1 met).2
    next => exact queue_of_joins (mem_filter.1 met).2

end

theorem ReadsInv.shows_completion (inv : ReadsInv s) (loads : s.Loads columns j result)
    {c : Completion} (mem : c ∈ s.completions j) (claims : (s.counts.rows j).openClaims = [])
    (leases : (s.counts.rows j).leases = []) (evidence : (s.counts.rows j).evidence = []) :
    result.map Candidate.view = some ⟨.completed, c.key.lane.queue,
      (columns.completion c.runLease).attempt, c.runLease, none⟩ := by
  obtain ⟨-, only, backed⟩ := inv.completed j c mem
  obtain ⟨row, there, key⟩ := backed.row
  have all : s.leaseCandidates columns j ++ s.claimCandidates columns j ++
      s.completionCandidates columns j =
      ((s.counts.rows j).ready.filter fun row => row.key = c.key).map (columns.completed c) := by
    rw [leaseCandidates_nil leases, claimCandidates_nil claims, completionCandidates_one only]
    rfl
  refine loads_joined (columns.completed c row) loads backed.before (ended_nil evidence) ?_
    fun shown listed => ?_
  · rw [all]
    exact mem_map_of_mem (mem_filter.2 ⟨there, decide_eq_true key⟩)
  · rw [all] at listed
    obtain ⟨ready, -, rfl⟩ := mem_map.1 listed
    rfl

theorem loads_left (loads : s.Loads columns j result)
    (left : s.candidates columns j = (s.counts.rows j).ready.map columns.waiting) :
    result = none ↔ (s.counts.rows j).ready = [] := by
  cases result with
  | none =>
    have empty : s.candidates columns j = [] := loads
    exact iff_of_true rfl (map_eq_nil_iff.1 (left.symm.trans empty))
  | some row =>
    refine iff_of_false nofun fun empty => ?_
    have mem := loads.1
    rw [left, empty] at mem
    cases mem

theorem ReadsInv.represented (inv : ReadsInv s) (readable : s.Readable columns j)
    (loads : s.Loads columns j result) :
    (∃ view, s.represent columns j = [view] ∧ result.map Candidate.view = some view) ∨
      s.represent columns j = [] ∧ (result = none ↔ (s.counts.rows j).ready = []) := by
  obtain ⟨n, standing, -⟩ := inv.counts.jobs j
  generalize at_ : s.counts.stage j = stage at standing
  cases standing with
  | waiting row lease rows claims leases evidence =>
    have life : s.counts.life j = some row.runLease :=
      inv.counts.life_of_stage (by rw [at_]; rfl)
    have done := inv.completions_of_life life
    refine .inl ⟨(columns.waiting row).view, ?_, inv.shows_row readable loads life ?_ ?_ ?_⟩
    · simp [LookState.represent, rows, openClaims_nil claims, leases, ended_nil evidence, done]
    · simp [rows]
    · simp [ended_nil evidence]
    · rw [leaseCandidates_nil leases, claimCandidates_nil (openClaims_nil claims),
        completionCandidates_nil done]
      rfl
  | received queue rows claims leases evidence =>
    have life : s.counts.life j = some n := inv.counts.life_of_stage (by rw [at_]; rfl)
    have one := openClaims_received claims leases evidence
    refine .inl ⟨_, ?_, inv.shows_claim readable loads one leases evidence⟩
    simp [LookState.represent, rows, one, leases, ended_nil evidence, inv.completions_of_life life]
  | leased queue rows claims leases evidence | parked queue rows claims leases evidence =>
    have life : s.counts.life j = some n := inv.counts.life_of_stage (by rw [at_]; rfl)
    have closed := openClaims_leased claims leases
    refine .inl ⟨_, ?_, inv.shows_lease readable loads leases closed evidence⟩
    simp [LookState.represent, rows, closed, leases, ended_nil evidence,
      inv.completions_of_life life]
  | away rows claims leases evidence single =>
    have closed := openClaims_nil claims
    by_cases gone : (s.counts.rows j).evidence = []
    · by_cases none : s.completions j = []
      · refine .inr ⟨?_, loads_left loads ?_⟩
        · simp [LookState.represent, rows, closed, leases, ended_nil gone, none]
        · simp [LookState.candidates, ended_nil gone, leaseCandidates_nil leases,
            claimCandidates_nil closed, completionCandidates_nil none]
      · obtain ⟨c, mem⟩ := exists_mem_of_ne_nil _ none
        have only := (inv.completed j c mem).2.1
        refine .inl ⟨_, ?_, inv.shows_completion loads mem closed leases gone⟩
        simp [LookState.represent, rows, closed, leases, ended_nil gone, only]
    · obtain ⟨row, ended⟩ : ∃ row, columns.ended (s.counts.rows j) = [row] := by
        rw [← length_eq_one_iff, ← length_map Candidate.runLease, ended_runLease]
        exact le_antisymm single (length_pos_iff.2 gone)
      have held : row.runLease ∈ (s.counts.rows j).evidence := by
        rw [← ended_runLease columns, ended]
        exact mem_singleton_self _
      have life := inv.counts.life_of_evidence held
      have done := inv.completions_of_life life
      refine .inl ⟨row.view, ?_, inv.shows_row readable loads life ?_ ?_ ?_⟩
      · simp [LookState.represent, rows, closed, leases, ended, done]
      · simp [ended]
      · simp [ended]
      · rw [leaseCandidates_nil leases, claimCandidates_nil closed, completionCandidates_nil done]
        rfl

end

/-- The columns of a job that was enqueued at 10, retried at 13 and cancelled at 14. -/
def someColumns : Columns where
  ready key := ⟨0, if key.laneSeq = 1 then 10 else 13, none⟩
  attempt _ := ⟨1, none, none, some 11⟩
  completion _ := ⟨1, some 11, 12⟩
  deferred _ := ⟨.retryable, 7, 2, 1, 10, none, none⟩
  done _ := ⟨.cancelled, 7, 2, 0, 13, none, some 14⟩
  dlq _ := ⟨.failed, 7, 2, 1, 10, none, some 12⟩

end AwaQueue.Counts
