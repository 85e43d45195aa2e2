import Mathlib.Data.List.Sort
import Mathlib.Data.List.Count

/-! A cursor that sweeps over keys in cyclic order. How far a key is ahead of the cursor is counted
in keys, so that a sweep that always passes some keys reaches every key. -/

namespace AwaQueue.Library

open List
variable {κ : Type*} [LinearOrder κ]

/-- Going up from the cursor, and over the end to the start, `k` comes no later than `last`. -/
def Within (cursor k last : κ) : Prop := (cursor < k ∧ k ≤ last) ∨
    (last ≤ cursor ∧ (cursor < k ∨ k ≤ last))

instance (cursor k last : κ) : Decidable (Within cursor k last) :=
  inferInstanceAs (Decidable (_ ∨ _))

def rotate (cursor : κ) (keys : List κ) : List κ :=
  (keys.filter fun k => cursor < k) ++ keys.filter fun k => k ≤ cursor

def ahead (cursor last : κ) (keys : List κ) : Nat := keys.countP fun k => Within cursor k last

variable {cursor k last next : κ} {keys : List κ} {α : Type*}

theorem within_self (cursor k : κ) : Within cursor k k := by
  unfold Within
  grind

theorem Within.trans (first : Within cursor k next) (second : Within cursor next last) :
    Within cursor k last := by
  unfold Within at *
  grind

theorem Within.of_next (between : Within cursor next last) (other : next ≠ last)
    (still : Within next k last) : Within cursor k last := by
  unfold Within at *
  grind

theorem Within.passed (between : Within cursor next last) (other : next ≠ last)
    (still : Within next k last) : ¬ Within cursor k next := by
  unfold Within at *
  grind

theorem mem_rotate : k ∈ rotate cursor keys ↔ k ∈ keys := by
  rw [rotate, mem_append, mem_filter, mem_filter, decide_eq_true_eq, decide_eq_true_eq,
    ← and_or_left]
  exact and_iff_left (lt_or_ge cursor k)

theorem rotate_nodup (distinct : keys.Nodup) : (rotate cursor keys).Nodup := by
  refine nodup_append.2 ⟨distinct.filter _, distinct.filter _, ?_⟩
  intro a after b before same
  have above : cursor < a := by simpa using (mem_filter.1 after).2
  have below : b ≤ cursor := by simpa using (mem_filter.1 before).2
  exact absurd (same ▸ above) (not_lt.2 below)

theorem rotate_pairwise (sorted : keys.Pairwise (· ≤ ·)) :
    (rotate cursor keys).Pairwise fun a b => Within cursor a b := by
  refine pairwise_append.2 ⟨?_, ?_, ?_⟩
  · refine (sorted.filter _).imp_of_mem ?_
    intro a b memberA _ below
    have above : cursor < a := by simpa using (mem_filter.1 memberA).2
    exact .inl ⟨above, below⟩
  · refine (sorted.filter _).imp_of_mem ?_
    intro a b _ memberB below
    have before : b ≤ cursor := by simpa using (mem_filter.1 memberB).2
    exact .inr ⟨before, .inr below⟩
  · intro a memberA b memberB
    have above : cursor < a := by simpa using (mem_filter.1 memberA).2
    have before : b ≤ cursor := by simpa using (mem_filter.1 memberB).2
    exact .inr ⟨before, .inl above⟩

theorem ahead_pos (mem : k ∈ keys) : 0 < ahead cursor k keys :=
  countP_pos_iff.2 ⟨k, mem, by simpa using within_self cursor k⟩

theorem ahead_le : ahead cursor last keys ≤ keys.length := countP_le_length

theorem ahead_split (between : Within cursor next last) (other : next ≠ last) :
    ahead cursor next keys + ahead next last keys ≤ ahead cursor last keys := by
  induction keys with
  | nil => exact le_rfl
  | cons k rest ih =>
    simp only [ahead, countP_cons, decide_eq_true_eq] at ih ⊢
    by_cases still : Within next k last
    · have before := between.of_next other still
      have behind := between.passed other still
      simp only [if_pos still, if_pos before, if_neg behind]
      omega
    · by_cases behind : Within cursor k next
      · have before := behind.trans between
        simp only [if_neg still, if_pos before, if_pos behind]
        omega
      · simp only [if_neg still, if_neg behind]
        omega

theorem length_le_ahead {passed : List κ} (distinct : passed.Nodup)
    (members : ∀ k ∈ passed, k ∈ keys ∧ Within cursor k last) :
    passed.length ≤ ahead cursor last keys := by
  rw [ahead, countP_eq_length_filter]
  refine (subperm_of_subset distinct ?_).length_le
  intro k mem
  exact mem_filter.2 ⟨(members k mem).1, by simpa using (members k mem).2⟩

/-- When the cursor moves over the first keys of a scan, they are no longer ahead of a key that
comes later in it. -/
theorem ahead_passed {scan passed tail : List κ} (sorted : scan.Pairwise (· ≤ ·))
    (distinct : scan.Nodup) (order : passed ++ tail = rotate cursor scan)
    (moved : passed.getLast? = some next) (later : last ∈ tail) (known : ∀ k ∈ passed, k ∈ keys) :
    passed.length + ahead next last keys ≤ ahead cursor last keys := by
  have pairs : (passed ++ tail).Pairwise fun a b => Within cursor a b :=
    order ▸ rotate_pairwise sorted
  have nodup : (passed ++ tail).Nodup := order ▸ rotate_nodup distinct
  obtain ⟨within, -, across⟩ := pairwise_append.1 pairs
  obtain ⟨nodupPassed, -, apart⟩ := nodup_append.1 nodup
  obtain ⟨front, shape⟩ := getLast?_eq_some_iff.1 moved
  have mem : next ∈ passed := shape ▸ mem_append_right _ mem_cons_self
  have upTo : ∀ k ∈ passed, k ∈ keys ∧ Within cursor k next := by
    intro k here
    refine ⟨known k here, ?_⟩
    rw [shape] at here within
    rcases mem_append.1 here with early | final
    · exact (pairwise_append.1 within).2.2 k early next mem_cons_self
    · rw [mem_singleton.1 final]
      exact within_self cursor next
  calc passed.length + ahead next last keys ≤ ahead cursor next keys + ahead next last keys :=
        Nat.add_le_add_right (length_le_ahead nodupPassed upTo) _
    _ ≤ ahead cursor last keys := ahead_split (across next mem last later)
      (apart next mem last later)

theorem flatMap_key {κ : Type*} [DecidableEq κ] {f : α → κ} {rows : List α} {keys : List κ}
    (distinct : (rows.map f).Nodup) (known : ∀ k ∈ keys, k ∈ rows.map f) :
    (keys.flatMap fun k => rows.filter fun row => f row = k).map f = keys := by
  induction keys with
  | nil => rfl
  | cons k rest ih =>
    have one : (rows.filter fun row => f row = k).map f = [k] := by
      have filtered : (rows.filter fun row => f row = k).map f = (rows.map f).filter fun key =>
          key = k := by
        rw [filter_map]
        rfl
      rw [filtered, filter_eq, count_eq_one_of_mem distinct (known k mem_cons_self)]
      rfl
    rw [flatMap_cons, map_append, one, ih fun key mem => known key (mem_cons_of_mem _ mem)]
    rfl

theorem takeWhile_split (p : α → Bool) (xs : List α) :
    xs.takeWhile p = xs ∨ ∃ a after, xs = xs.takeWhile p ++ a :: after ∧ p a = false := by
  induction xs with
  | nil => exact .inl rfl
  | cons a rest ih =>
    cases passes : p a with
    | false => exact .inr ⟨a, rest, by rw [takeWhile_cons_of_neg (by simp [passes])]; rfl, passes⟩
    | true =>
      rw [takeWhile_cons_of_pos passes]
      refine ih.imp (congrArg _) ?_
      rintro ⟨b, after, split, stops⟩
      exact ⟨b, after, congrArg (a :: ·) split, stops⟩

theorem mem_take_filter {p : α → Bool} (before after : List α) {a : α} (passes : p a = true)
    (limit : Nat) : a ∈ ((before ++ a :: after).filter p).take limit ∨ limit ≤ before.length := by
  rw [filter_append, filter_cons_of_pos passes]
  by_cases few : (before.filter p).length < limit
  · refine .inl ?_
    rw [take_append, mem_append]
    refine .inr ?_
    obtain ⟨n, left⟩ := Nat.exists_eq_add_of_lt few
    rw [show limit - (before.filter p).length = n + 1 by omega, take_succ_cons]
    exact mem_cons_self
  · exact .inr ((not_lt.1 few).trans (length_filter_le _ _))

end AwaQueue.Library
