import Mathlib.Data.List.Sort

/-! `ORDER BY key LIMIT n` over a table kept as a list. -/

namespace AwaQueue.Library

open List
variable {α : Type*} (key : α → Nat)

def orderBy (rows : List α) : List α := rows.insertionSort (fun a b => key a ≤ key b)

/-- `ORDER BY key LIMIT n`. -/
def select (n : Nat) (rows : List α) : List α := (orderBy key rows).take n

def first (rows : List α) : Option α := (orderBy key rows).head?

variable {key} {rows : List α} {n : Nat} {values : List Nat}

@[simp] theorem mem_orderBy {rows : List α} {row : α} : row ∈ orderBy key rows ↔ row ∈ rows :=
  mem_insertionSort _

theorem orderBy_sorted (key : α → Nat) (rows : List α) :
    (orderBy key rows).Pairwise (fun a b => key a ≤ key b) := by
  have total : Std.Total (fun a b : α => key a ≤ key b) := ⟨fun a b => Nat.le_total (key a) (key b)⟩
  have transitive : IsTrans α (fun a b => key a ≤ key b) := ⟨fun _ _ _ => Nat.le_trans⟩
  exact pairwise_insertionSort _ rows

theorem orderBy_eq {sorted : List α} (strict : sorted.Pairwise fun a b => key a < key b)
    (same : sorted.Perm rows) : orderBy key rows = sorted := by
  apply ((perm_insertionSort _ rows).trans same.symm).eq_of_pairwise _ (orderBy_sorted key rows)
    (strict.imp Nat.le_of_lt)
  intro a b _ listed le ge
  have mem : a ∈ sorted := same.mem_iff.2 (mem_orderBy.1 ‹_›)
  exact inj_on_of_nodup_map (pairwise_map.2 (strict.imp Nat.ne_of_lt)) mem listed
    (Nat.le_antisymm le ge)

theorem mem_of_mem_select {row : α} (chosen : row ∈ select key n rows) : row ∈ rows :=
  mem_orderBy.1 (mem_of_mem_take chosen)

theorem mem_select_of_lt {low high : α} (chosen : high ∈ select key n rows)
    (mem : low ∈ rows) (below : key low < key high) : low ∈ select key n rows := by
  have split := take_append_drop n (orderBy key rows)
  have sorted := orderBy_sorted key rows
  rw [← split, pairwise_append] at sorted
  have present : low ∈ (orderBy key rows).take n ++ (orderBy key rows).drop n := by
    rw [split]
    exact mem_orderBy.2 mem
  rcases mem_append.1 present with kept | dropped
  · exact kept
  · exact absurd (sorted.2.2 high chosen low dropped) (by omega)

theorem first_eq_some {row : α} (found : first key rows = some row) :
    row ∈ rows ∧ ∀ other ∈ rows, key row ≤ key other := by
  obtain ⟨rest, shape⟩ := head?_eq_some_iff.1 found
  have sorted := orderBy_sorted key rows
  rw [shape] at sorted
  refine ⟨mem_orderBy.1 (shape ▸ mem_cons_self), fun other mem => ?_⟩
  have placed : other ∈ row :: rest := shape ▸ mem_orderBy.2 mem
  rcases mem_cons.1 placed with same | later
  · exact same ▸ Nat.le_refl _
  · exact rel_of_pairwise_cons sorted later

theorem select_strict (distinct : rows.Pairwise fun a b => key a ≠ key b) :
    (select key n rows).Pairwise fun a b => key a < key b := by
  have apart : (orderBy key rows).Pairwise fun a b => key a ≠ key b :=
    (perm_insertionSort (fun a b => key a ≤ key b) rows).pairwise_iff Ne.symm |>.2 distinct
  exact ((orderBy_sorted key rows).and apart).imp (fun both => lt_of_le_of_ne both.1 both.2) |>.take

theorem add_sub_le_of_strict (strict : values.Pairwise (· < ·)) {i j : Nat}
    (hi : i < values.length) (hj : j < values.length) (le : i ≤ j) :
    values[i] + (j - i) ≤ values[j] := by
  induction j with
  | zero =>
    obtain rfl : i = 0 := by omega
    simp
  | succ j ih =>
    rcases Nat.eq_or_lt_of_le le with rfl | below
    · simp
    · have before := ih (by omega) (by omega)
      have next := pairwise_iff_getElem.1 strict j (j + 1) (by omega) hj (by omega)
      omega

/-- A strictly increasing list from `low` on that is at `low + k` in position `k` has no gap
before that position. -/
theorem getElem_eq_add_of_strict {low k : Nat} (strict : values.Pairwise (· < ·))
    (above : ∀ value ∈ values, low ≤ value) (hk : k < values.length) (at_ : values[k] = low + k)
    {i : Nat} (le : i ≤ k) : values[i] = low + i := by
  have upper := add_sub_le_of_strict strict (by omega) hk le
  have lower := add_sub_le_of_strict strict (i := 0) (by omega) (by omega : i < values.length)
    (Nat.zero_le i)
  have start := above values[0] (getElem_mem _)
  omega

end AwaQueue.Library
