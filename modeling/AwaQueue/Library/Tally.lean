import Mathlib.Algebra.BigOperators.Group.List.Basic
import Mathlib.Algebra.Order.BigOperators.Group.List
import Mathlib.Algebra.Order.Ring.Nat
import Mathlib.Data.List.Count
import Mathlib.Data.List.Nodup

/-! Counting a ledger against the items it is about: when every entry belongs to exactly one
item and no item has two entries, equal totals leave no item without its entry. -/

namespace AwaQueue.Library

open List
variable {ι ε : Type*} {items : List ι} {κ : Type*} {item : ι}

theorem sum_indicator (items : List ι) (holds : ι → Bool) :
    (items.map fun item => if holds item then 1 else 0).sum = items.countP holds := by
  induction items with
  | nil => rfl
  | cons item items ih => rw [map_cons, sum_cons, ih, countP_cons, Nat.add_comm]

theorem sum_countP_of_unique (items : List ι) (entries : List ε) (about : ε → ι → Bool)
    (unique : ∀ entry ∈ entries, items.countP (about entry) = 1) :
    (items.map fun item => entries.countP fun entry => about entry item).sum = entries.length := by
  induction entries with
  | nil => simp
  | cons entry entries ih =>
    have split : (items.map fun item => (entry :: entries).countP fun e => about e item) =
        items.map fun item => (entries.countP fun e => about e item) + if about entry item then
          1 else 0 := by
      simp only [countP_cons]
    have single : (items.map fun item => if about entry item then 1 else 0).sum = 1 := by
      rw [sum_indicator]
      exact unique entry mem_cons_self
    rw [split, sum_map_add, ih fun e mem => unique e (mem_cons_of_mem entry mem), single,
      length_cons]

/-- Items with at most one entry each, and as many entries as items: each has one. -/
theorem eq_one_of_sum_eq_length {count : ι → Nat} (once : ∀ item ∈ items, count item ≤ 1)
    (full : (items.map count).sum = items.length) : ∀ item ∈ items, count item = 1 := by
  induction items with
  | nil => simp
  | cons item items ih =>
    have bounded : (items.map count).sum ≤ items.length := by
      simpa using sum_le_card_nsmul (items.map count) 1 fun n mem => by
        obtain ⟨other, present, rfl⟩ := mem_map.1 mem
        exact once other (mem_cons_of_mem item present)
    have head := once item mem_cons_self
    simp only [map_cons, sum_cons, length_cons] at full
    intro other mem
    rcases mem_cons.1 mem with rfl | later
    · omega
    · exact ih (fun o present => once o (mem_cons_of_mem item present)) (by omega) other later

theorem countP_key_eq_one [DecidableEq κ] {key : ι → κ} (distinct : (items.map key).Nodup)
    (mem : item ∈ items) : (items.countP fun other => key other = key item) = 1 := by
  have counted := count_eq_one_of_mem distinct (mem_map_of_mem mem)
  rw [count_eq_countP, countP_map] at counted
  exact counted

theorem nodup_map_concat {key : ι → κ} (distinct : (items.map key).Nodup)
    (fresh : ∀ other ∈ items, key other ≠ key item) : ((items ++ [item]).map key).Nodup := by
  rw [map_append, map_singleton]
  refine nodup_append.2 ⟨distinct, nodup_singleton _, ?_⟩
  rintro old mem new single rfl
  obtain ⟨other, present, same⟩ := mem_map.1 mem
  exact fresh other present (same.trans (mem_singleton.1 single))

theorem eq_singleton_of_nodup_map {α β : Type*} {f : α → β} {xs : List α} {b : β}
    (distinct : (xs.map f).Nodup)
    (nonempty : xs ≠ []) (same : ∀ x ∈ xs, f x = b) : ∃ x, xs = [x] ∧ f x = b := by
  obtain ⟨x, rest, rfl⟩ := exists_cons_of_ne_nil nonempty
  cases rest with
  | nil => exact ⟨x, rfl, same x mem_cons_self⟩
  | cons y rest =>
    rw [map_cons, nodup_cons] at distinct
    refine absurd ?_ distinct.1
    rw [same x mem_cons_self, ← same y (by simp)]
    simp

end AwaQueue.Library
