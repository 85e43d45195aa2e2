import AwaQueue.Counts.Tables
import Mathlib.Order.MinMax

/-! The lanes: no cursor ever passes a row that can still be claimed. -/

namespace AwaQueue.Counts

open List
open Function (forall_update_iff update update_self)
open Library

def SpentBelow (rows : Nat → JobRows) (lane : Lane) (bound : Nat) : Prop :=
  ∀ j, ∀ row ∈ (rows j).ready, row.key.lane = lane → row.key.laneSeq < bound →
    (rows j).spent row = true

/-- The cursors and the claimed rows have spent rows only before them, and new rows come after all.
-/
structure LanesOk (rows : Nat → JobRows) (cursor nextSeq : Lane → Nat) : Prop where
  ready : ∀ j, ∀ row ∈ (rows j).ready, row.key.laneSeq < nextSeq row.key.lane
  distinct : ∀ i j, ∀ row ∈ (rows i).ready, ∀ other ∈ (rows j).ready, row.key.lane =
    other.key.lane → row.key.laneSeq = other.key.laneSeq → i = j ∧ row.key = other.key
  tombstones : ∀ j, ∀ key ∈ (rows j).tombstones, key.laneSeq < nextSeq key.lane
  attempts : ∀ j, ∀ key ∈ (rows j).attempts, key.laneSeq < nextSeq key.lane
  bounded : ∀ lane, cursor lane ≤ nextSeq lane
  passed : ∀ lane, SpentBelow rows lane (cursor lane)
  claimed : ∀ j, ∀ key ∈ (rows j).attempts, SpentBelow rows key.lane (key.laneSeq + 1)

section
variable {rows : Nat → JobRows} {cursor nextSeq : Lane → Nat} {j : Nat} {r : JobRows} {lane : Lane}

theorem forall_ready_update {P : Nat → WaitingRow → Prop} (here : ∀ row ∈ r.ready, P j row)
    (others : ∀ i, ∀ row ∈ (rows i).ready, P i row) :
    ∀ i, ∀ row ∈ (update rows j r i).ready, P i row :=
  (forall_update_iff rows fun i r => ∀ row ∈ r.ready, P i row).2 ⟨here, fun i _ => others i⟩

theorem SpentBelow.change {bound : Nat} (below : SpentBelow rows lane bound)
    (ready : ∀ row ∈ r.ready, row ∈ (rows j).ready)
    (spent : ∀ row ∈ r.ready, (rows j).spent row = true → r.spent row = true) :
    SpentBelow (update rows j r) lane bound := by
  refine (forall_update_iff rows fun _ r => ∀ row ∈ r.ready, row.key.lane = lane →
    row.key.laneSeq < bound →
    r.spent row = true).2 ⟨fun row mem here before => ?_, fun i _ => below i⟩
  exact spent row mem (below j row (ready row mem) here before)

section
variable (ok : LanesOk rows cursor nextSeq) {row : WaitingRow}
include ok

theorem LanesOk.change (ready : ∀ row ∈ r.ready, row ∈ (rows j).ready)
    (spent : ∀ row ∈ r.ready, (rows j).spent row = true → r.spent row = true)
    (tombstones : ∀ key ∈ r.tombstones, key ∈ (rows j).tombstones ∨
    key ∈ (rows j).ready.map WaitingRow.key)
      (attempts : ∀ key ∈ r.attempts, key ∈ (rows j).attempts ∨
      key ∈ (rows j).ready.map WaitingRow.key ∧
      SpentBelow (update rows j r) key.lane (key.laneSeq + 1)) :
    LanesOk (update rows j r) cursor nextSeq := by
  have old : ∀ i, ∀ row ∈ (update rows j r i).ready, row ∈ (rows i).ready :=
    forall_ready_update ready fun _ _ mem => mem
  have known {key : ReadyTombstone} (new : key ∈ (rows j).ready.map WaitingRow.key) :
      key.laneSeq < nextSeq key.lane := by
    obtain ⟨row, there, rfl⟩ := mem_map.1 new
    exact ok.ready j row there
  constructor
  · exact fun i row mem => ok.ready i row (old i row mem)
  · exact fun i k row mem other mem' => ok.distinct i k row (old i row mem) other (old k other mem')
  · exact (forall_update_iff rows fun _ r => ∀ key ∈ r.tombstones, key.laneSeq < nextSeq key.lane).2
      ⟨fun key mem => (tombstones key mem).elim (ok.tombstones j key) known,
        fun i _ => ok.tombstones i⟩
  · exact (forall_update_iff rows fun _ r => ∀ key ∈ r.attempts, key.laneSeq < nextSeq key.lane).2
      ⟨fun key mem => (attempts key mem).elim (ok.attempts j key) fun new => known new.1,
        fun i _ => ok.attempts i⟩
  · exact ok.bounded
  · exact fun lane => (ok.passed lane).change ready spent
  · refine (forall_update_iff rows fun _ job => ∀ key ∈ job.attempts,
      SpentBelow (update rows j r) key.lane (key.laneSeq + 1)).2 ⟨fun key mem => ?_,
        fun i _ key mem => ?_⟩
    · exact (attempts key mem).elim (fun was => (ok.claimed j key was).change ready spent)
        fun new => new.2
    · exact (ok.claimed i key mem).change ready spent

theorem LanesOk.keep (ready : r.ready = (rows j).ready)
    (tombstones : r.tombstones = (rows j).tombstones) (attempts : r.attempts = (rows j).attempts) :
    LanesOk (update rows j r) cursor nextSeq := by
  apply ok.change
  · intro row mem
    rwa [ready] at mem
  · intro row _ was
    rwa [JobRows.spent, tombstones, attempts]
  · intro key mem
    rw [tombstones] at mem
    exact .inl mem
  · intro key mem
    rw [attempts] at mem
    exact .inl mem

theorem LanesOk.tombstone (there : row ∈ (rows j).ready)
    (ready : r.ready = (rows j).ready) (tombstones : r.tombstones =
    (rows j).tombstones ++ [row.key])
    (attempts : r.attempts = (rows j).attempts) : LanesOk (update rows j r) cursor nextSeq := by
  apply ok.change
  · intro row mem
    rwa [ready] at mem
  · intro other _ was
    rw [JobRows.spent, tombstones, attempts]
    rw [JobRows.spent, Bool.or_eq_true, decide_eq_true_eq, decide_eq_true_eq] at was
    rw [Bool.or_eq_true, decide_eq_true_eq, decide_eq_true_eq]
    exact was.imp_left (mem_append_left _)
  · intro key mem
    rw [tombstones] at mem
    rcases mem_append.1 mem with old | new
    · exact .inl old
    · rw [mem_singleton.1 new]
      exact .inr (mem_map_of_mem there)
  · intro key mem
    rw [attempts] at mem
    exact .inl mem

theorem LanesOk.claim (receipts : Bool) (there : row ∈ (rows j).ready)
    (before : SpentBelow rows row.key.lane row.key.laneSeq) :
    LanesOk (update rows j ((rows j).claim row receipts)) cursor nextSeq := by
  have same : ((rows j).claim row receipts).ready = (rows j).ready ∧
      ((rows j).claim row receipts).tombstones = (rows j).tombstones ∧
      ((rows j).claim row receipts).attempts = (rows j).attempts ++ [row.key] := by
    cases receipts <;> exact ⟨rfl, rfl, rfl⟩
  obtain ⟨ready, tombstones, attempts⟩ := same
  have spent : ∀ other ∈ ((rows j).claim row receipts).ready, (rows j).spent other = true →
      ((rows j).claim row receipts).spent other = true := by
    intro other _ was
    rw [JobRows.spent, tombstones, attempts]
    rw [JobRows.spent, Bool.or_eq_true, decide_eq_true_eq, decide_eq_true_eq] at was
    rw [Bool.or_eq_true, decide_eq_true_eq, decide_eq_true_eq]
    exact was.imp_right (mem_append_left _)
  apply ok.change
  · intro other mem
    rwa [ready] at mem
  · exact spent
  · intro key mem
    rw [tombstones] at mem
    exact .inl mem
  · intro key mem
    rw [attempts] at mem
    rcases mem_append.1 mem with old | new
    · exact .inl old
    · rw [mem_singleton.1 new]
      refine .inr ⟨mem_map_of_mem there, fun i other among lane below => ?_⟩
      have was : other ∈ (rows i).ready :=
        forall_ready_update (fun _ mem => by rwa [ready] at mem) (fun _ _ mem => mem) i other among
      rcases Nat.lt_succ_iff_lt_or_eq.1 below with earlier | at_
      · have changed :
            SpentBelow (update rows j ((rows j).claim row receipts)) row.key.lane row.key.laneSeq :=
          before.change (fun other mem => by rwa [ready] at mem) spent
        exact changed i other among lane earlier
      · obtain ⟨here, key⟩ := ok.distinct i j other was row there lane at_
        subst here
        rw [update_self, JobRows.spent, attempts, key]
        simp

theorem LanesOk.insertReady (ref : RingRef) (a : Nat) :
    LanesOk (update rows j ((rows j).insertReady ⟨lane, nextSeq lane, ref⟩ a)) cursor
      (update nextSeq lane (nextSeq lane + 1)) := by
  have more : ∀ other, nextSeq other ≤ update nextSeq lane (nextSeq lane + 1) other :=
    (forall_update_iff nextSeq fun other seq => nextSeq other ≤ seq).2 ⟨Nat.le_succ _,
      fun _ _ => le_rfl⟩
  -- no bound that the lanes know of lies above the new row
  have below {other : Lane} {bound : Nat} (was : SpentBelow rows other bound)
      (known : bound ≤ nextSeq other) : SpentBelow
        (update rows j ((rows j).insertReady ⟨lane, nextSeq lane, ref⟩ a)) other bound := by
    refine (forall_update_iff rows fun _ r => ∀ row ∈ r.ready, row.key.lane = other →
      row.key.laneSeq < bound →
      r.spent row = true).2 ⟨forall_mem_concat (was j) ?_, fun i _ => was i⟩
    rintro rfl before
    exact absurd before (Nat.not_lt.2 known)
  have claims : ∀ i, ∀ key ∈ (update rows j ((rows j).insertReady ⟨lane, nextSeq lane,
      ref⟩ a) i).attempts, key ∈ (rows i).attempts :=
    (forall_update_iff rows fun i r => ∀ key ∈ r.attempts, key ∈ (rows i).attempts).2
      ⟨fun _ mem => mem, fun _ _ _ mem => mem⟩
  constructor
  · refine forall_ready_update (forall_mem_concat (fun row old => (ok.ready j row old).trans_le
        (more _)) ?_) fun i row mem =>
      (ok.ready i row mem).trans_le (more _)
    change nextSeq lane < update nextSeq lane (nextSeq lane + 1) lane
    rw [update_self]
    exact Nat.lt_succ_self _
  · have old : ∀ i, ∀ row ∈ (update rows j ((rows j).insertReady ⟨lane, nextSeq lane,
        ref⟩ a) i).ready, row ∈ (rows i).ready ∨ i = j ∧ row = ⟨⟨lane, nextSeq lane, ref⟩, a⟩ :=
      forall_ready_update (forall_mem_concat (fun _ mem => .inl mem) (.inr ⟨rfl, rfl⟩))
        fun _ _ mem => .inl mem
    -- an old row lies below the new one
    have apart {i : Nat} {row : WaitingRow} (there : row ∈ (rows i).ready)
        (here : row.key.lane = lane) (seq : row.key.laneSeq = nextSeq lane) : False := by
      have lower := ok.ready i row there
      rw [here, seq] at lower
      exact lt_irrefl _ lower
    intro i k row mem other mem' here seq
    rcases old i row mem with there | ⟨rfl, rfl⟩
    · rcases old k other mem' with there' | ⟨rfl, rfl⟩
      · exact ok.distinct i k row there other there' here seq
      · exact (apart there here seq).elim
    · rcases old k other mem' with there' | ⟨rfl, rfl⟩
      · exact (apart there' here.symm seq.symm).elim
      · exact ⟨rfl, rfl⟩
  · exact (forall_update_iff rows fun _ r => ∀ key ∈ r.tombstones,
      key.laneSeq < update nextSeq lane (nextSeq lane + 1) key.lane).2
      ⟨fun key mem => (ok.tombstones j key mem).trans_le (more _),
        fun i _ key mem => (ok.tombstones i key mem).trans_le (more _)⟩
  · exact fun i key mem => (ok.attempts i key (claims i key mem)).trans_le (more _)
  · exact fun other => (ok.bounded other).trans (more other)
  · exact fun other => below (ok.passed other) (ok.bounded other)
  · exact fun i key mem => below (ok.claimed i key (claims i key mem))
      (ok.attempts i key (claims i key mem))

theorem LanesOk.moveCursor {next : Nat} (known : next ≤ nextSeq lane)
    (spent : SpentBelow rows lane next) :
    LanesOk rows (update cursor lane (max next (cursor lane))) nextSeq := by
  refine { ok with
    bounded := (forall_update_iff cursor fun other bound => bound ≤ nextSeq other).2
      ⟨max_le known (ok.bounded lane), fun other _ => ok.bounded other⟩
    passed := (forall_update_iff cursor fun other bound => SpentBelow rows other bound).2
      ⟨fun i row mem here below => ?_, fun other _ => ok.passed other⟩ }
  rcases lt_max_iff.1 below with new | old
  · exact spent i row mem here new
  · exact ok.passed lane i row mem here old

theorem LanesOk.prune (slot : Nat) (lost : Nat → Bool) :
    LanesOk (fun i => (rows i).prune slot (lost i)) cursor nextSeq := by
  have below {other : Lane} {bound : Nat} (was : SpentBelow rows other bound) :
      SpentBelow (fun i => (rows i).prune slot (lost i)) other bound := by
    intro i row mem here before
    obtain ⟨there, kept⟩ := mem_filter.1 mem
    have spent := was i row there here before
    rw [JobRows.spent, Bool.or_eq_true, decide_eq_true_eq, decide_eq_true_eq] at spent ⊢
    exact spent.imp (fun tomb => mem_filter.2 ⟨tomb, kept⟩) fun attempt =>
      mem_filter.2 ⟨attempt, kept⟩
  constructor
  · exact fun i row mem => ok.ready i row (mem_filter.1 mem).1
  · exact fun i k row mem other mem' => ok.distinct i k row (mem_filter.1 mem).1 other
      (mem_filter.1 mem').1
  · exact fun i key mem => ok.tombstones i key (mem_filter.1 mem).1
  · exact fun i key mem => ok.attempts i key (mem_filter.1 mem).1
  · exact ok.bounded
  · exact fun other => below (ok.passed other)
  · exact fun i key mem => below (ok.claimed i key (mem_filter.1 mem).1)

end

end
end AwaQueue.Counts
