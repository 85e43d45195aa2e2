import Mathlib.Algebra.BigOperators.Group.List.Basic
import Mathlib.Data.Int.Order.Basic
import Mathlib.Data.List.Dedup
import Mathlib.Tactic.Abel

/-! Accounts: amounts booked under keys, in a table or in an append-only journal. The balance of an
account over a set of keys does not change when entries are grouped by key, when entries that cancel
are dropped, or when a journal is moved into a table of one row a key. -/

namespace AwaQueue.Library

open List
variable {κ ι M : Type*} [AddCommMonoid M] {entries : List (κ × M)} {p : κ → Bool}

def balance (entries : List (κ × M)) (p : κ → Bool) : M :=
  ((entries.filter fun entry => p entry.1).map Prod.snd).sum

@[simp] theorem balance_nil (p : κ → Bool) : balance ([] : List (κ × M)) p = 0 := rfl

@[simp] theorem balance_cons (entry : κ × M) (entries : List (κ × M)) (p : κ → Bool) :
    balance (entry :: entries) p = (if p entry.1 then entry.2 else 0) + balance entries p := by
  unfold balance
  cases holds : p entry.1 <;> simp [holds]

@[simp] theorem balance_append (first second : List (κ × M)) (p : κ → Bool) :
    balance (first ++ second) p = balance first p + balance second p := by
  simp [balance]

theorem balance_mapKey (f : κ → ι) (entries : List (κ × M)) (p : ι → Bool) :
    balance (entries.map fun entry => (f entry.1, entry.2)) p = balance entries fun key =>
      p (f key) := by
  induction entries with
  | nil => rfl
  | cons entry entries ih => simp only [map_cons, balance_cons, ih]

theorem balance_filter (entries : List (κ × M)) (q p : κ → Bool) :
    balance (entries.filter fun entry => q entry.1) p = balance entries fun key =>
      q key && p key := by
  simp only [balance, filter_filter, Bool.and_comm]

theorem balance_congr {q : κ → Bool} (agree : ∀ entry ∈ entries, p entry.1 = q entry.1) :
    balance entries p = balance entries q := by
  unfold balance
  rw [filter_congr agree]

theorem balance_eq_zero (none : ∀ entry ∈ entries, p entry.1 = false) : balance entries p = 0 := by
  rw [balance_congr (q := fun _ => false) none]
  simp [balance]

theorem balance_split (entries : List (κ × M)) (q p : κ → Bool) :
    balance entries p = balance entries (fun key => q key && p key) + balance entries fun key =>
      !q key && p key := by
  induction entries with
  | nil => simp
  | cons entry entries ih =>
    simp only [balance_cons, ih]
    cases q entry.1 <;> simp <;> abel

theorem balance_nonzero [DecidableEq M] (entries : List (κ × M)) (p : κ → Bool) :
    balance (entries.filter fun entry => entry.2 ≠ 0) p = balance entries p := by
  induction entries with
  | nil => rfl
  | cons entry entries ih =>
    by_cases zero : entry.2 = 0
    · rw [filter_cons_of_neg (by simpa using zero), ih, balance_cons, zero, ite_self, zero_add]
    · rw [filter_cons_of_pos (by simpa using zero), balance_cons, ih, balance_cons]

theorem balance_zeros (keys : List κ) (p : κ → Bool) :
    balance (keys.map fun key => (key, (0 : M))) p = 0 := by
  induction keys with
  | nil => rfl
  | cons key keys ih => rw [map_cons, balance_cons, ih, ite_self, zero_add]

theorem balance_addRows (table : List (κ × M)) (f : κ → M) (p : κ → Bool) :
    balance (table.map fun row => (row.1, row.2 + f row.1)) p =
      balance table p + balance ((table.map Prod.fst).map fun key => (key, f key)) p := by
  induction table with
  | nil => simp
  | cons row table ih =>
    simp only [map_cons, balance_cons, ih]
    cases p row.1
    · simp
    · simp only [if_true]
      abel

section Regroup
variable [DecidableEq κ] {entries table : List (κ × M)} {keys : List κ} {combine : M → M → M}
    {row : κ × M}

/-- `SELECT key, sum(amount) ... GROUP BY key`. -/
def regroup (entries : List (κ × M)) : List (κ × M) :=
  (entries.map Prod.fst).dedup.map fun key => (key, balance entries fun other => other = key)

theorem regroup_keys (entries : List (κ × M)) :
    (regroup entries).map Prod.fst = (entries.map Prod.fst).dedup := by
  rw [regroup, map_map]
  exact map_id _

theorem regroup_keys_nodup (entries : List (κ × M)) : ((regroup entries).map Prod.fst).Nodup := by
  rw [regroup_keys]
  exact nodup_dedup _

theorem mem_regroup {entry : κ × M} (mem : entry ∈ regroup entries) :
    entry.2 = balance entries fun other => other = entry.1 := by
  obtain ⟨key, -, rfl⟩ := mem_map.1 mem
  rfl

theorem balance_single (distinct : keys.Nodup) {key : κ} (mem : key ∈ keys) (amount : M)
    (p : κ → Bool) : balance (keys.map fun other => (other, if key = other then amount else 0)) p =
      if p key then amount else 0 := by
  induction keys with
  | nil => cases mem
  | cons first keys ih =>
    obtain ⟨absent, distinct⟩ := nodup_cons.1 distinct
    simp only [map_cons, balance_cons]
    rcases mem_cons.1 mem with same | later
    · subst same
      have zeros : (keys.map fun other => (other, if key = other then amount else 0)) =
          keys.map fun other => (other, (0 : M)) := by
        refine map_congr_left fun other present => ?_
        have different : key ≠ other := fun same => absent (same ▸ present)
        rw [if_neg different]
      rw [zeros, balance_zeros, if_pos rfl, add_zero]
    · have other : key ≠ first := fun same => absent (same ▸ later)
      rw [ih distinct later, if_neg other, ite_self, zero_add]

theorem balance_by_key (entries : List (κ × M)) (distinct : keys.Nodup)
    (covered : ∀ entry ∈ entries, entry.1 ∈ keys) (p : κ → Bool) :
    balance (keys.map fun key => (key, balance entries fun other => other = key)) p =
      balance entries p := by
  induction entries with
  | nil => exact balance_zeros keys p
  | cons entry entries ih =>
    have first := covered entry mem_cons_self
    have rest := ih fun other mem => covered other (mem_cons_of_mem _ mem)
    simp only [balance_cons, decide_eq_true_eq]
    have split := balance_addRows (keys.map fun key => (key, if entry.1 = key then entry.2 else 0))
      (fun key => balance entries fun other => other = key) p
    simp only [map_map, Function.comp_def, map_id'] at split
    rw [split, rest, balance_single distinct first]

theorem balance_regroup (entries : List (κ × M)) (p : κ → Bool) :
    balance (regroup entries) p = balance entries p :=
  balance_by_key entries (nodup_dedup _) (fun _ mem => mem_dedup.2 (mem_map_of_mem mem)) p

def netted [DecidableEq M] (entries : List (κ × M)) : List (κ × M) :=
  (regroup entries).filter fun entry => entry.2 ≠ 0

theorem balance_netted [DecidableEq M] (entries : List (κ × M)) (p : κ → Bool) :
    balance (netted entries) p = balance entries p := by
  rw [netted, balance_nonzero, balance_regroup]

theorem netted_keys_nodup [DecidableEq M] (entries : List (κ × M)) :
    ((netted entries).map Prod.fst).Nodup :=
  (filter_sublist.map _).nodup (regroup_keys_nodup entries)

def creditRows (combine : M → M → M) (table entries : List (κ × M)) : List (κ × M) :=
  table.map fun row => (row.1, ((entries.lookup row.1).map fun amount => combine row.2 amount).getD
    row.2)

def unbooked (table entries : List (κ × M)) : List (κ × M) :=
  entries.filter fun entry => entry.1 ∉ table.map Prod.fst

omit [AddCommMonoid M] in
theorem creditRows_keys (combine : M → M → M) (table entries : List (κ × M)) :
    (creditRows combine table entries).map Prod.fst = table.map Prod.fst := by
  simp [creditRows]

omit [AddCommMonoid M] in
theorem mem_creditRows (mem : row ∈ creditRows combine table entries) :
    row ∈ table ∨ ∃ old ∈ table, ∃ amount, row = (old.1, combine old.2 amount) := by
  obtain ⟨old, present, rfl⟩ := mem_map.1 mem
  cases entries.lookup old.1 with
  | none => exact .inl present
  | some amount => exact .inr ⟨old, present, amount, rfl⟩

omit [AddCommMonoid M] in
theorem unbooked_disjoint (table entries : List (κ × M)) :
    List.Disjoint (table.map Prod.fst) ((unbooked table entries).map Prod.fst) := by
  intro key booked fresh
  obtain ⟨entry, present, rfl⟩ := mem_map.1 fresh
  exact of_decide_eq_true (mem_filter.1 present).2 booked

theorem balance_lookup (distinct : (entries.map Prod.fst).Nodup) (key : κ) :
    balance entries (fun other => other = key) = (entries.lookup key).getD 0 := by
  induction entries with
  | nil => rfl
  | cons entry entries ih =>
    obtain ⟨absent, distinct⟩ := nodup_cons.1 distinct
    rw [balance_cons, lookup_cons]
    by_cases same : entry.1 = key
    · have rest : balance entries (fun other => other = key) = 0 :=
        balance_eq_zero fun other mem => decide_eq_false fun again =>
          absent (same.trans again.symm ▸ mem_map_of_mem mem)
      simp [same, rest]
    · have other : (key == entry.1) = false := beq_eq_false_iff_ne.2 (Ne.symm same)
      simp [same, other, ih distinct]

theorem balance_row (rows : (table.map Prod.fst).Nodup) (mem : row ∈ table) :
    balance table (fun key => key = row.1) = row.2 := by
  induction table with
  | nil => cases mem
  | cons first table ih =>
    obtain ⟨absent, rows⟩ := nodup_cons.1 rows
    rw [balance_cons]
    rcases mem_cons.1 mem with same | later
    · have rest : balance table (fun key => key = first.1) = 0 :=
        balance_eq_zero fun other present => decide_eq_false fun again =>
          absent (again ▸ mem_map_of_mem present)
      rw [same, rest, add_zero]
      simp
    · have other : first.1 ≠ row.1 := fun again => absent (again ▸ mem_map_of_mem later)
      simp [other, ih rows later]

/-- A journal moves into a table: every amount is added to the row of its key, or becomes a row. -/
theorem balance_credit (rows : (table.map Prod.fst).Nodup) (distinct : (entries.map Prod.fst).Nodup)
    (adds : ∀ row ∈ table, ∀ amount, (row.1, amount) ∈ entries → combine row.2 amount =
    row.2 + amount) (p : κ → Bool) :
    balance (creditRows combine table entries ++ unbooked table entries) p = balance table p +
      balance entries p := by
  have credited : creditRows combine table entries =
      table.map fun row => (row.1, row.2 + balance entries fun other => other = row.1) := by
    refine map_congr_left fun row mem => ?_
    rw [balance_lookup distinct]
    cases found : entries.lookup row.1 with
    | none => simp
    | some amount =>
      obtain ⟨before, after, split, -⟩ := lookup_eq_some_iff.1 found
      have booked : (row.1, amount) ∈ entries := by simp [split]
      simp [adds row mem amount booked]
  let booked := entries.filter fun entry => entry.1 ∈ table.map Prod.fst
  have same : ∀ key ∈ table.map Prod.fst,
      (balance entries fun other => other = key) = balance booked fun other => other = key := by
    intro key mem
    rw [balance_filter entries (fun key => key ∈ table.map Prod.fst)]
    refine balance_congr fun entry _ => ?_
    by_cases hit : entry.1 = key <;> simp_all
  have byKey : balance ((table.map Prod.fst).map fun key => (key, balance entries fun other =>
      other = key)) p = balance booked p := by
    rw [map_congr_left fun key mem => by rw [same key mem]]
    exact balance_by_key booked rows (fun entry mem => of_decide_eq_true (mem_filter.1 mem).2) p
  calc balance (creditRows combine table entries ++ unbooked table entries) p
      = balance table p + balance booked p + balance (unbooked table entries) p := by
        rw [balance_append, credited, balance_addRows table fun key => balance entries fun other =>
          other = key, byKey]
    _ = balance table p + balance entries p := by
        rw [balance_split entries (fun key => key ∈ table.map Prod.fst) p, ← add_assoc, unbooked,
          balance_filter entries (fun key => key ∈ table.map Prod.fst) p,
          balance_filter entries (fun key => key ∉ table.map Prod.fst) p]
        simp only [← decide_not]

/-- A journal moves into a table whose rows collapse: the rows that `f` takes to a key of the
journal become one row under that key. -/
theorem balance_collapse (f : κ → κ) (distinct : (entries.map Prod.fst).Nodup)
    {p : κ → Bool} (stable : ∀ key, p (f key) = p key) :
    balance ((table.filter fun row => f row.1 ∉ entries.map Prod.fst) ++
        entries.map fun entry => (entry.1, entry.2 + balance table fun key => f key = entry.1)) p =
      balance table p + balance entries p := by
  let booked := (table.filter fun row => f row.1 ∈ entries.map Prod.fst).map fun row =>
    (f row.1, row.2)
  have same : ∀ key ∈ entries.map Prod.fst,
      (balance table fun other => f other = key) = balance booked fun other => other = key := by
    intro key mem
    rw [balance_mapKey f, balance_filter table fun key => f key ∈ entries.map Prod.fst]
    refine balance_congr fun row _ => ?_
    by_cases hit : f row.1 = key <;> simp_all
  have covered : ∀ entry ∈ booked, entry.1 ∈ entries.map Prod.fst := by
    intro entry mem
    obtain ⟨row, present, rfl⟩ := mem_map.1 mem
    exact of_decide_eq_true (mem_filter.1 present).2
  have collapsed : balance ((entries.map Prod.fst).map fun key =>
      (key, balance table fun other => f other = key)) p =
      balance table fun key => f key ∈ entries.map Prod.fst && p key := by
    rw [map_congr_left fun key mem => by rw [same key mem], balance_by_key booked distinct covered,
      balance_mapKey f, balance_filter table fun key => f key ∈ entries.map Prod.fst]
    simp only [stable]
  rw [balance_append, balance_addRows entries fun key => balance table fun other => f other = key,
    collapsed, balance_filter table fun key => f key ∉ entries.map Prod.fst,
    balance_split table (fun key => f key ∈ entries.map Prod.fst) p]
  simp only [decide_not]
  abel

end Regroup
end AwaQueue.Library
