import AwaQueue.Lane.Tables
import AwaQueue.Library.Machine
import Mathlib.Data.List.Nodup
import Mathlib.Data.List.Sort

/-! `job_unique_claims`, the table that says which job owns a unique key, and `sync_unique_claim`,
by which queue storage keeps it in step with the state of a job. -/

namespace AwaQueue
open List Library

def JobState.bitPosition : JobState → Nat
  | .scheduled => 0
  | .available => 1
  | .running => 2
  | .completed => 3
  | .retryable => 4
  | .failed => 5
  | .cancelled => 6
  | .waitingExternal => 7

def uniqueStateClaims (uniqueStates : Option String) (state : JobState) : Bool :=
  uniqueStates.any fun bitmask => bitmask.toList[state.bitPosition]? = some '1'

structure UniqueClaim where
  key : String
  jobId : Nat
deriving DecidableEq

structure UniqueColumns where
  key : Option String
  states : Option String
deriving DecidableEq

def UniqueColumns.claims (columns : UniqueColumns) (state : Option JobState) : Bool :=
  state.any (uniqueStateClaims columns.states)

/-- `INSERT ... ON CONFLICT (unique_key) DO UPDATE ... WHERE` the job is the same; `none` is
`UniqueConflict`. -/
def insertUniqueClaim (table : List UniqueClaim) (claim : UniqueClaim) :
    Option (List UniqueClaim) :=
  match table.find? fun held => held.key = claim.key with
  | none => some (table ++ [claim])
  | some held => if held.jobId = claim.jobId then some table else none

def syncUniqueClaim (table : List UniqueClaim) (jobId : Nat) (columns : UniqueColumns)
    (old new : Option JobState) : Option (List UniqueClaim) :=
  match columns.key with
  | none => some table
  | some key =>
    if columns.claims old && !columns.claims new then
      some (table.filter fun claim => claim ≠ ⟨key, jobId⟩)
    else if columns.claims new && !columns.claims old then insertUniqueClaim table ⟨key, jobId⟩
    else some table

def UniqueColumns.Enters (columns : UniqueColumns) (old new : Option JobState) : Prop :=
  columns.key.isSome = true ∧ columns.claims old = false ∧ columns.claims new = true

def UniqueColumns.Clashes (columns : UniqueColumns) (table : List UniqueClaim) (jobId : Nat)
    (old new : Option JobState) : Prop :=
  columns.Enters old new ∧ ∃ held ∈ table, columns.key = some held.key ∧ held.jobId ≠ jobId

structure UniqueSync where
  jobId : Nat
  columns : UniqueColumns
  new : JobState

def UniqueSync.le (a b : UniqueSync) : Bool :=
  match a.columns.key, b.columns.key with
  | none, none => a.jobId ≤ b.jobId
  | none, some _ => true
  | some _, none => false
  | some k, some l => k < l || (k = l && a.jobId ≤ b.jobId)

def syncUniqueClaims (table : List UniqueClaim) (old : Option JobState) (rows : List UniqueSync) :
    Option (List UniqueClaim) :=
  (rows.insertionSort fun a b => a.le b).foldlM
    (fun table row => syncUniqueClaim table row.jobId row.columns old (some row.new)) table

def UniqueSync.Clashes (row : UniqueSync) (table : List UniqueClaim) (old : Option JobState) :
    Prop :=
  row.columns.Clashes table row.jobId old (some row.new)

def UniqueSync.Apart (old : Option JobState) (a b : UniqueSync) : Prop :=
  a.columns.Enters old (some a.new) → b.columns.Enters old (some b.new) →
    a.columns.key ≠ b.columns.key

section
variable {table table' : List UniqueClaim} {claim : UniqueClaim} {jobId : Nat}
  {columns : UniqueColumns} {old new : Option JobState} {key : String} {rows : List UniqueSync}

theorem insertUniqueClaim_cases (inserted : insertUniqueClaim table claim = some table') :
    (table' = table ∧ ∃ held ∈ table, held.key = claim.key ∧ held.jobId = claim.jobId) ∨
      (table' = table ++ [claim] ∧ ∀ held ∈ table, held.key ≠ claim.key) := by
  unfold insertUniqueClaim at inserted
  split at inserted
  next absent =>
    cases inserted
    exact .inr ⟨rfl, by simpa using find?_eq_none.1 absent⟩
  next held found =>
    obtain ⟨same, rfl⟩ := guard_eq_some inserted
    exact .inl ⟨rfl, held, mem_of_find?_eq_some found, by simpa using find?_some found, same⟩

theorem mem_insertUniqueClaim (inserted : insertUniqueClaim table claim = some table') :
    claim ∈ table' := by
  obtain ⟨rfl, held, mem, sameKey, sameJob⟩ | ⟨rfl, -⟩ := insertUniqueClaim_cases inserted
  · have same : held = claim := by
      cases held
      cases claim
      simp_all
    exact same ▸ mem
  · simp

section
variable (synced : syncUniqueClaim table jobId columns old new = some table')
include synced

theorem syncUniqueClaim_cases :
      (table' = table ∧ (columns.key = none ∨ columns.claims old = columns.claims new)) ∨
      (∃ key, columns.key = some key ∧ columns.claims old = true ∧ columns.claims new = false ∧
        table' = table.filter fun claim => claim ≠ ⟨key, jobId⟩) ∨
      (∃ key, columns.key = some key ∧ columns.claims old = false ∧ columns.claims new = true ∧
        insertUniqueClaim table ⟨key, jobId⟩ = some table') := by
  unfold syncUniqueClaim at synced
  cases keyed : columns.key with
  | none =>
    rw [keyed] at synced
    cases synced
    exact .inl ⟨rfl, .inl rfl⟩
  | some key =>
    rw [keyed] at synced
    cases before : columns.claims old <;> cases after : columns.claims new <;>
      simp only [before, after, Bool.not_true, Bool.not_false, Bool.and_self, Bool.false_eq_true,
        Bool.and_false, Bool.and_true, if_true, if_false] at synced
    · cases synced
      exact .inl ⟨rfl, .inr rfl⟩
    · exact .inr (.inr ⟨key, rfl, rfl, rfl, synced⟩)
    · cases synced
      exact .inr (.inl ⟨key, rfl, rfl, rfl, rfl⟩)
    · cases synced
      exact .inl ⟨rfl, .inr rfl⟩

theorem syncUniqueClaim_keys_nodup
    (distinct : (table.map UniqueClaim.key).Nodup) : (table'.map UniqueClaim.key).Nodup := by
  obtain ⟨rfl, -⟩ | ⟨key, -, -, -, rfl⟩ | ⟨key, -, -, -, inserted⟩ := syncUniqueClaim_cases synced
  · exact distinct
  · exact distinct.sublist (filter_sublist.map _)
  · obtain ⟨rfl, -⟩ | ⟨rfl, absent⟩ := insertUniqueClaim_cases inserted
    · exact distinct
    · rw [map_append, nodup_append]
      refine ⟨distinct, by simp, ?_⟩
      intro k held k' last
      obtain ⟨other, mem, rfl⟩ := mem_map.1 held
      obtain rfl : k' = key := by simpa using last
      exact absent other mem

theorem mem_syncUniqueClaim_of_ne (other : claim.jobId ≠ jobId) :
    claim ∈ table' ↔ claim ∈ table := by
  have apart (key : String) : claim ≠ ⟨key, jobId⟩ := by
    rintro rfl
    exact other rfl
  obtain ⟨rfl, -⟩ | ⟨key, -, -, -, rfl⟩ | ⟨key, -, -, -, inserted⟩ := syncUniqueClaim_cases synced
  · exact Iff.rfl
  · simp [apart key]
  · obtain ⟨rfl, -⟩ | ⟨rfl, -⟩ := insertUniqueClaim_cases inserted
    · exact Iff.rfl
    · simp [apart key]

/-- A job that owned its key wherever its old state claims it owns it wherever the new one does. -/
theorem mem_syncUniqueClaim (keyed : columns.key = some key) (claiming : columns.claims new = true)
    (owned : columns.claims old = true → ⟨key, jobId⟩ ∈ table) : ⟨key, jobId⟩ ∈ table' := by
  obtain ⟨rfl, free | same⟩ | ⟨_, -, -, none, -⟩ | ⟨key', keyed', -, -, inserted⟩ :=
    syncUniqueClaim_cases synced
  · rw [free] at keyed
    cases keyed
  · exact owned (same.trans claiming)
  · rw [none] at claiming
    cases claiming
  · cases keyed.symm.trans keyed'
    exact mem_insertUniqueClaim inserted

end

theorem mem_of_syncUniqueClaim (synced : syncUniqueClaim table jobId columns old new = some table')
    (mem : claim ∈ table') :
    claim ∈ table ∨ columns.Enters old new ∧ columns.key = some claim.key ∧
      claim.jobId = jobId := by
  obtain ⟨rfl, -⟩ | ⟨key, -, -, -, rfl⟩ | ⟨key, keyed, before, after, inserted⟩ :=
    syncUniqueClaim_cases synced
  · exact .inl mem
  · exact .inl (mem_filter.1 mem).1
  · obtain ⟨rfl, -⟩ | ⟨rfl, -⟩ := insertUniqueClaim_cases inserted
    · exact .inl mem
    · rcases mem_append.1 mem with old | new
      · exact .inl old
      · obtain rfl := mem_singleton.1 new
        exact .inr ⟨⟨by simp [keyed], before, after⟩, keyed, rfl⟩

theorem insertUniqueClaim_isSome (distinct : (table.map UniqueClaim.key).Nodup) :
    (insertUniqueClaim table claim).isSome = true ↔
      ∀ held ∈ table, held.key = claim.key → held.jobId = claim.jobId := by
  unfold insertUniqueClaim
  split
  next absent =>
    have free : ∀ held ∈ table, held.key ≠ claim.key := by simpa using find?_eq_none.1 absent
    simp only [Option.isSome_some, true_iff]
    exact fun held mem same => absurd same (free held mem)
  next first found =>
    have mem := mem_of_find?_eq_some found
    have keyed : first.key = claim.key := by simpa using find?_some found
    constructor
    · intro inserted held present same
      obtain rfl : held = first := inj_on_of_nodup_map distinct present mem (same.trans keyed.symm)
      exact of_not_not fun other => by simp [other] at inserted
    · intro own
      simp [own first mem keyed]

/-- The claims of a job are synced unless it enters a key that another job holds. -/
theorem syncUniqueClaim_isSome (distinct : (table.map UniqueClaim.key).Nodup) :
    (syncUniqueClaim table jobId columns old new).isSome = true ↔
      ¬ columns.Clashes table jobId old new := by
  unfold syncUniqueClaim UniqueColumns.Clashes UniqueColumns.Enters
  cases keyed : columns.key with
  | none => simp
  | some key =>
    cases before : columns.claims old <;> cases after : columns.claims new <;>
      simp [insertUniqueClaim_isSome distinct, eq_comm]

theorem syncUniqueClaim_of_owned (distinct : (table.map UniqueClaim.key).Nodup)
    (owned : ∀ key, columns.key = some key → columns.claims new = true → ⟨key, jobId⟩ ∈ table) :
    ∃ table', syncUniqueClaim table jobId columns old new = some table' := by
  refine Option.isSome_iff_exists.1 ((syncUniqueClaim_isSome distinct).2 ?_)
  rintro ⟨⟨-, -, claiming⟩, held, mem, keyed, other⟩
  have same := inj_on_of_nodup_map distinct mem (owned held.key keyed claiming) rfl
  exact other (congrArg UniqueClaim.jobId same)

theorem foldlM_syncUniqueClaim_isSome (distinct : (table.map UniqueClaim.key).Nodup)
    (free : ∀ row ∈ rows, ¬ row.Clashes table old) (apart : rows.Pairwise (UniqueSync.Apart old)) :
    (rows.foldlM (fun table row => syncUniqueClaim table row.jobId row.columns old (some row.new))
      table).isSome = true := by
  induction rows generalizing table with
  | nil => rfl
  | cons row rows ih =>
    obtain ⟨table', synced⟩ := Option.isSome_iff_exists.1
      ((syncUniqueClaim_isSome distinct).2 (free row mem_cons_self))
    obtain ⟨first, rest⟩ := pairwise_cons.1 apart
    rw [foldlM_cons, synced]
    refine ih (syncUniqueClaim_keys_nodup synced distinct) (fun other mem clash => ?_) rest
    obtain ⟨enters, held, stored, keyed, different⟩ := clash
    rcases mem_of_syncUniqueClaim synced stored with before | ⟨entered, same, -⟩
    · exact free other (mem_cons_of_mem _ mem) ⟨enters, held, before, keyed, different⟩
    · exact first other mem entered enters (same.trans keyed.symm)

theorem syncUniqueClaims_isSome (distinct : (table.map UniqueClaim.key).Nodup)
    (free : ∀ row ∈ rows, ¬ row.Clashes table old) (apart : rows.Pairwise (UniqueSync.Apart old)) :
    (syncUniqueClaims table old rows).isSome = true := by
  have sorted := perm_insertionSort (fun a b : UniqueSync => a.le b = true) rows
  refine foldlM_syncUniqueClaim_isSome distinct (fun row mem => free row (sorted.mem_iff.1 mem)) ?_
  exact (sorted.pairwise_iff fun two enters enters' same => two enters' enters same.symm).2 apart

theorem foldlM_syncUniqueClaim (synced : rows.foldlM
      (fun table row => syncUniqueClaim table row.jobId row.columns old (some row.new)) table =
    some table') : ((table.map UniqueClaim.key).Nodup → (table'.map UniqueClaim.key).Nodup) ∧
      ∀ claim ∈ table', claim ∈ table ∨
      ∃ row ∈ rows, row.columns.Enters old (some row.new) ∧ row.columns.key = some claim.key ∧
        claim.jobId = row.jobId := by
  induction rows generalizing table with
  | nil =>
    cases synced
    exact ⟨id, fun _ => .inl⟩
  | cons row rows ih =>
    rw [foldlM_cons] at synced
    obtain ⟨between, first, rest⟩ := Option.bind_eq_some_iff.1 synced
    obtain ⟨keys, held⟩ := ih rest
    refine ⟨fun distinct => keys (syncUniqueClaim_keys_nodup first distinct), fun claim mem => ?_⟩
    rcases held claim mem with old | ⟨other, there, entered⟩
    · exact (mem_of_syncUniqueClaim first old).imp_right fun entered =>
        ⟨row, mem_cons_self, entered⟩
    · exact .inr ⟨other, mem_cons_of_mem _ there, entered⟩

/-- Syncs keep the keys apart and add only claims that their rows enter. -/
theorem syncUniqueClaims_eq_some (synced : syncUniqueClaims table old rows = some table') :
    ((table.map UniqueClaim.key).Nodup → (table'.map UniqueClaim.key).Nodup) ∧
      ∀ claim ∈ table', claim ∈ table ∨
      ∃ row ∈ rows, row.columns.Enters old (some row.new) ∧ row.columns.key = some claim.key ∧
        claim.jobId = row.jobId := by
  obtain ⟨keys, held⟩ := foldlM_syncUniqueClaim synced
  refine ⟨keys, fun claim mem => (held claim mem).imp_right fun ⟨row, there, entered⟩ => ⟨row,
    ?_, entered⟩⟩
  exact (mem_insertionSort _).1 there

theorem syncUniqueClaims_singleton (row : UniqueSync) : syncUniqueClaims table old [row] =
    syncUniqueClaim table row.jobId row.columns old (some row.new) := by
  simp [syncUniqueClaims]

end

end AwaQueue
