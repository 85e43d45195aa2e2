import AwaQueue.Ring.Protocol

/-! Rotations are consecutive, and the ledger keeps their last wrap, under every interleaving of
rotators, the authority flip and folds. -/

namespace AwaQueue

open List
open Option (ite_none_right_eq_some map_some some_ne_none)
open Function (update_of_ne update_self)
open Library
variable {n : Nat} {s s' : RingState} {t u : TxId} {phase : RingPhase}

section Ledger
variable {base top : Nat} {ledger : List RingRotation}

def rotationAt (n generation : Nat) : RingRotation := ⟨generation, generation % n⟩

/-- The ledger of a ring whose last shadowed generation is `top`: no gap above `low`, which lies at
most one wrap below `top`, and below `low` at most the genesis row of an upgrade. -/
structure LedgerSpan (n : Nat) (ledger : List RingRotation) (base top : Nat) : Prop where
  slots : ∀ row ∈ ledger, row = rotationAt n row.generation
  distinct : (ledger.map RingRotation.generation).Nodup
  bounded : ∀ row ∈ ledger, row.generation ≤ top
  gapFree : ∃ low, low ≤ max base (top + 1 - n) ∧
    (∀ g, low ≤ g → g ≤ top → rotationAt n g ∈ ledger) ∧
    ∀ row ∈ ledger, low ≤ row.generation ∨ row.generation = 0 ∧ 0 < base

theorem LedgerSpan.last (span : LedgerSpan n ledger base top) (positive : 0 < n)
    (started : base ≤ top) : lastRotation ledger = some (rotationAt n top) := by
  obtain ⟨low, near, full, -⟩ := span.gapFree
  have present : rotationAt n top ∈ ledger := full top (by omega) (Nat.le_refl top)
  cases found : lastRotation ledger with
  | none =>
    rw [argmax_eq_none.1 found] at present
    exact absurd present not_mem_nil
  | some row =>
    have mem : row ∈ ledger := argmax_mem found
    have above : top ≤ row.generation := le_of_mem_argmax present found
    rw [span.slots row mem, Nat.le_antisymm (span.bounded row mem) above]

def rotationsFrom (n first count : Nat) : List RingRotation :=
  (List.range' first count).map (rotationAt n)

theorem mem_rotationsFrom {first count : Nat} {row : RingRotation} :
      row ∈ rotationsFrom n first count ↔ row = rotationAt n row.generation ∧
        first ≤ row.generation ∧ row.generation < first + count := by
  simp only [rotationsFrom, mem_map, mem_range'_1]
  constructor
  · rintro ⟨g, bounds, rfl⟩
    exact ⟨rfl, bounds⟩
  · rintro ⟨same, bounds⟩
    exact ⟨row.generation, bounds, same.symm⟩

section
variable (span : LedgerSpan n ledger base top)
include span

theorem LedgerSpan.missing (positive : 0 < n) (started : base ≤ top)
    (generation : Nat) :
    missingRotations n ledger generation = rotationsFrom n (top + 1) (generation - top) := by
  simp only [missingRotations, span.last positive started, map_some, Option.getD_some,
    Int.toNat_natCast, rotationsFrom]
  rw [show (rotationAt n top).generation = top from rfl, show generation + 1 - (top + 1) =
    generation - top by omega]
  rfl

theorem LedgerSpan.insert_fresh (count : Nat) :
    insertRotations ledger (rotationsFrom n (top + 1) count) = ledger ++ rotationsFrom n
      (top + 1) count := by
  rw [insertRotations, filter_eq_self.2]
  intro row new
  refine decide_eq_true fun old => ?_
  obtain ⟨other, mem, same⟩ := mem_map.1 old
  have below := span.bounded other mem
  have above := (mem_rotationsFrom.1 new).2.1
  omega

theorem LedgerSpan.extend (positive : 0 < n) (started : base ≤ top) (count : Nat) :
    LedgerSpan n (insertRotations ledger (rotationsFrom n (top + 1) count)) base (top + count) := by
  rw [span.insert_fresh]
  obtain ⟨low, near, full, only⟩ := span.gapFree
  refine ⟨fun row mem => ?_, ?_, fun row mem => ?_, low, by omega, fun g above below => ?_,
    fun row mem => ?_⟩
  · rcases mem_append.1 mem with old | new
    · exact span.slots row old
    · exact (mem_rotationsFrom.1 new).1
  · rw [map_append]
    refine span.distinct.append ?_ fun g old new => ?_
    · rw [rotationsFrom, map_map]
      have identity : (RingRotation.generation ∘ rotationAt n) = id := rfl
      rw [identity, map_id]
      exact nodup_range'
    · obtain ⟨row, mem, rfl⟩ := mem_map.1 old
      obtain ⟨other, mem', same⟩ := mem_map.1 new
      have below := span.bounded row mem
      have above := (mem_rotationsFrom.1 mem').2.1
      omega
  · rcases mem_append.1 mem with old | new
    · exact Nat.le_trans (span.bounded row old) (Nat.le_add_right ..)
    · have below := (mem_rotationsFrom.1 new).2.2
      omega
  · by_cases old : g ≤ top
    · exact mem_append_left _ (full g above old)
    · refine mem_append_right _ (mem_rotationsFrom.2 ⟨rfl, ?_⟩)
      show top + 1 ≤ g ∧ g < top + 1 + count
      omega
  · rcases mem_append.1 mem with old | new
    · exact only row old
    · have above := (mem_rotationsFrom.1 new).2.1
      exact .inl (by omega)

theorem LedgerSpan.fold {below : Nat} (near : below ≤ top + 1 - n) :
    LedgerSpan n (ledger.filter fun row => below ≤ row.generation) base top := by
  obtain ⟨low, lowNear, full, only⟩ := span.gapFree
  refine ⟨fun row mem => span.slots row (mem_filter.1 mem).1,
    (filter_sublist.map _).nodup span.distinct, fun row mem =>
      span.bounded row (mem_filter.1 mem).1, max low below, by omega, fun g above bounded => ?_,
    fun row mem => ?_⟩
  · refine mem_filter.2 ⟨full g (by omega) bounded, decide_eq_true ?_⟩
    show below ≤ g
    omega
  · obtain ⟨old, kept⟩ := mem_filter.1 mem
    have kept := of_decide_eq_true kept
    rcases only row old with above | genesis
    · exact .inl (by omega)
    · exact .inr genesis

end

end Ledger

namespace RingState
variable (s : RingState)

def head : Nat := s.base + s.rotated.length

/-- The last generation of the ledger: under column authority that of the last rotation that knew
the ledger. -/
def top : Nat :=
  match s.authority with
  | .ledger => s.head
  | .columns =>
    ((s.rotated.filter fun entry => entry.2 ≠ .preLedger).getLast?.map Prod.fst).getD s.base

end RingState

def RingTxOk (n : Nat) (s : RingState) (t : TxId) : RingPhase → Prop
  | .idle | .began | .sawColumns => True
  | .locked | .flipLocked => s.rowLock = some t
  | .sawLedger => s.authority = .ledger
  | .serialized .columns => s.rowLock = some t ∧ s.authority = .columns
  | .serialized .ledger => s.advisory = some t ∧ s.authority = .ledger
  | .sawColumnCursor slot generation =>
    s.rowLock = some t ∧ s.authority = .columns ∧ s.columns = ⟨slot, generation⟩
  | .sawLedgerCursor slot generation =>
    s.advisory = some t ∧ s.authority = .ledger ∧ slot = s.head % n ∧ generation = s.head
  | .advanced slot generation | .preUpdated slot generation =>
    s.rowLock = some t ∧ s.authority = .columns ∧ slot = ((s.head + 1) % n : Nat) ∧
      generation = (s.head + 1 : Nat)
  | .shadowed slot generation rows =>
    s.rowLock = some t ∧ s.authority = .columns ∧ slot = ((s.head + 1) % n : Nat) ∧
      generation = (s.head + 1 : Nat) ∧ rows = rotationsFrom n (s.top + 1) (s.head + 1 - s.top)
  | .appended row => s.advisory = some t ∧ s.authority = .ledger ∧ row = rotationAt n (s.head + 1)
  | .preRead slot generation =>
    (∃ g : Nat, slot = (g % n : Nat) ∧ generation = g) ∨ slot = -1 ∧ generation = -1
  | .flipping rows =>
    s.rowLock = some t ∧ s.authority = .columns ∧ rows = rotationsFrom n (s.top + 1)
      (s.head - s.top)
  | .folding below => below ≤ s.top + 1 - n

structure RingInv (n : Nat) (s : RingState) : Prop where
  span : LedgerSpan n s.ledger s.base s.top
  started : s.base ≤ s.top
  within : s.top ≤ s.head
  log : s.rotated.map Prod.fst = List.range' (s.base + 1) s.rotated.length
  columns : s.authority = .columns → s.columns = ⟨(s.head % n : Nat), s.head⟩
  poisoned : s.authority = .ledger → s.columns = .poisoned
  tx : ∀ t, RingTxOk n s t (s.tx t)

structure RingFrame (s s' : RingState) : Prop where
  authority : s'.authority = s.authority
  columns : s'.columns = s.columns
  ledger : s'.ledger = s.ledger
  base : s'.base = s.base
  rotated : s'.rotated = s.rotated

theorem RingFrame.head (same : RingFrame s s') : s'.head = s.head := by
  rw [RingState.head, RingState.head, same.base, same.rotated]

theorem RingFrame.top (same : RingFrame s s') : s'.top = s.top := by
  simp only [RingState.top, same.head, same.authority, same.base, same.rotated]

theorem RingTxOk.frame (ok : RingTxOk n s t phase) (same : RingFrame s s')
    (row : s.rowLock = some t → s'.rowLock = some t)
    (advisory : s.advisory = some t → s'.advisory = some t) : RingTxOk n s' t phase := by
  cases phase with
  | serialized authority =>
    cases authority <;> simp only [RingTxOk, same.authority] at ok ⊢ <;> simp_all
  | _ =>
    simp only [RingTxOk, same.authority, same.columns, same.head, same.top] at ok ⊢ <;> simp_all

theorem RingInv.local (inv : RingInv n s) (same : RingFrame s s') (own : RingTxOk n s' t (s'.tx t))
    (others : ∀ u, u ≠ t → s'.tx u = s.tx u)
    (row : ∀ u, u ≠ t → s.rowLock = some u → s'.rowLock = some u)
    (advisory : ∀ u, u ≠ t → s.advisory = some u → s'.advisory = some u) : RingInv n s' where
  span := by rw [same.ledger, same.base, same.top]; exact inv.span
  started := by rw [same.base, same.top]; exact inv.started
  within := by rw [same.top, same.head]; exact inv.within
  log := by rw [same.rotated, same.base]; exact inv.log
  columns := by rw [same.authority, same.columns, same.head]; exact inv.columns
  poisoned := by rw [same.authority, same.columns]; exact inv.poisoned
  tx u := by
    by_cases self : u = t
    · exact self ▸ own
    · rw [others u self]
      exact (inv.tx u).frame same (row u self) (advisory u self)

theorem RingInv.setTx (inv : RingInv n s) (ok : RingTxOk n s t phase) :
    RingInv n (s.setTx t phase) := by
  refine inv.local (t := t) ⟨rfl, rfl, rfl, rfl, rfl⟩ ?_ (fun u other => update_of_ne other ..)
    (fun _ _ => id) fun _ _ => id
  rw [show (s.setTx t phase).tx t = phase from update_self ..]
  exact ok.frame ⟨rfl, rfl, rfl, rfl, rfl⟩ id id

theorem finish_rowLock (other : u ≠ t) (held : s.rowLock = some u) :
    (s.finish t).rowLock = some u := by
  have different : some u ≠ some t := fun same => other (Option.some.inj same)
  simp only [RingState.finish, held, if_neg different]

theorem finish_advisory (other : u ≠ t) (held : s.advisory = some u) :
    (s.finish t).advisory = some u := by
  have different : some u ≠ some t := fun same => other (Option.some.inj same)
  simp only [RingState.finish, held, if_neg different]

theorem finish_tx_other (other : u ≠ t) : (s.finish t).tx u = s.tx u := update_of_ne other ..

theorem finish_tx_self : (s.finish t).tx t = .idle := update_self ..

theorem RingInv.finish (inv : RingInv n s) : RingInv n (s.finish t) := by
  refine inv.local (t := t) ⟨rfl, rfl, rfl, rfl, rfl⟩ ?_ (fun _ => finish_tx_other)
    (fun _ => finish_rowLock) fun _ => finish_advisory
  rw [finish_tx_self]
  trivial

/-- While a transaction holds the singleton row under column authority, the others rely on nothing
that its commit changes. -/
theorem RingTxOk.behind_row (ok : RingTxOk n s u phase) (other : u ≠ t)
    (held : s.rowLock = some t) (authority : s.authority = .columns) (later : s.top ≤ s'.top) :
    RingTxOk n s' u phase := by
  have free : s.rowLock ≠ some u := fun own => other (Option.some.inj (own.symm.trans held))
  have columns : s.authority ≠ .ledger := fun ledger => nomatch authority.symm.trans ledger
  cases phase with
  | idle | began | sawColumns => trivial
  | preRead slot generation => exact ok
  | folding below => exact Nat.le_trans ok (Nat.sub_le_sub_right (Nat.succ_le_succ later) n)
  | serialized mode =>
    cases mode with
    | columns => exact absurd ok.1 free
    | ledger => exact absurd ok.2 columns
  | locked | flipLocked => exact absurd ok free
  | sawLedger => exact absurd ok columns
  | sawLedgerCursor slot generation | appended row => exact absurd ok.2.1 columns
  | sawColumnCursor slot generation | advanced slot generation | preUpdated slot generation
  | shadowed slot generation rows | flipping rows => exact absurd ok.1 free

/-- While a transaction holds the advisory lock under ledger authority, the others rely on the
authority and on their row locks at most. -/
theorem RingTxOk.behind_advisory (ok : RingTxOk n s u phase) (other : u ≠ t)
    (held : s.advisory = some t) (authority : s.authority = .ledger) (kept : s'.authority = .ledger)
    (row : s.rowLock = some u → s'.rowLock = some u) (later : s.top ≤ s'.top) :
    RingTxOk n s' u phase := by
  have free : s.advisory ≠ some u := fun own => other (Option.some.inj (own.symm.trans held))
  have ledger : s.authority ≠ .columns := fun columns => nomatch authority.symm.trans columns
  cases phase with
  | idle | began | sawColumns => trivial
  | preRead slot generation => exact ok
  | folding below => exact Nat.le_trans ok (Nat.sub_le_sub_right (Nat.succ_le_succ later) n)
  | serialized mode =>
    cases mode with
    | columns => exact absurd ok.2 ledger
    | ledger => exact absurd ok.1 free
  | locked | flipLocked => exact row ok
  | sawLedger => exact kept
  | sawLedgerCursor slot generation | appended row => exact absurd ok.1 free
  | sawColumnCursor slot generation | advanced slot generation | preUpdated slot generation
  | shadowed slot generation rows | flipping rows => exact absurd ok.2.1 ledger

theorem RingInv.log_concat (inv : RingInv n s) (by_ : Rotator) :
      (s.rotated ++ [(s.head + 1, by_)]).map Prod.fst =
      range' (s.base + 1) (s.rotated ++ [(s.head + 1, by_)]).length := by
  rw [map_append, length_append, length_singleton, range'_1_concat, inv.log, RingState.head]
  simp [Nat.add_assoc, Nat.add_comm, Nat.add_left_comm]

theorem top_of_ledger (authority : s.authority = .ledger) :
    s.top = s.head := by rw [RingState.top, authority]

theorem top_of_columns (authority : s.authority = .columns) :
    s.top = ((s.rotated.filter fun entry => entry.2 ≠ .preLedger).getLast?.map Prod.fst).getD
      s.base := by
  rw [RingState.top, authority]

theorem head_concat {entry : Nat × Rotator} (base : s'.base = s.base)
    (rotated : s'.rotated = s.rotated ++ [entry]) : s'.head = s.head + 1 := by
  rw [RingState.head, RingState.head, base, rotated, length_append, length_singleton, Nat.add_assoc]

theorem RingInv.moved (inv : RingInv n s) (positive : 0 < n) (base : s'.base = s.base)
    (later : s.top ≤ s'.top) (within : s'.top ≤ s'.head)
    (ledger : s'.ledger = insertRotations s.ledger (rotationsFrom n (s.top + 1) (s'.top - s.top)))
    (log : s'.rotated.map Prod.fst = range' (s'.base + 1) s'.rotated.length)
    (columns : s'.authority = .columns → s'.columns = ⟨(s'.head % n : Nat), s'.head⟩)
    (poisoned : s'.authority = .ledger → s'.columns = .poisoned)
    (tx : ∀ u, RingTxOk n s' u (s'.tx u)) : RingInv n s' := by
  have extended := inv.span.extend positive inv.started (s'.top - s.top)
  rw [Nat.add_sub_cancel' later] at extended
  exact ⟨by rw [ledger, base]; exact extended, base ▸ Nat.le_trans inv.started later, within, log,
    columns, poisoned, tx⟩

theorem forall_tx_finish {P : TxId → RingPhase → Prop} (idle : P t .idle)
    (others : ∀ u, u ≠ t → P u (s.tx u)) : ∀ u, P u ((s.finish t).tx u) := by
  intro u
  by_cases self : u = t
  · rw [self, finish_tx_self]
    exact idle
  · rw [finish_tx_other self]
    exact others u self

section
variable (inv : RingInv n s) {generation : Int} {rows : List RingRotation} {slot : Int}
include inv

theorem RingInv.shadowed (positive : 0 < n)
    (phase : s.tx t = .shadowed slot generation rows) : RingInv n (commitRing s t) := by
  have own := inv.tx t
  rw [phase] at own
  obtain ⟨held, authority, rfl, rfl, rfl⟩ := own
  simp only [commitRing, phase, Int.toNat_natCast]
  let s' : RingState := { s.finish t with
    columns := ⟨((s.head + 1) % n : Nat), (s.head + 1 : Nat)⟩
    ledger := insertRotations s.ledger (rotationsFrom n (s.top + 1) (s.head + 1 - s.top))
    rotated := s.rotated ++ [(s.head + 1, .compat)] }
  have head : s'.head = s.head + 1 := head_concat rfl rfl
  have top : s'.top = s.head + 1 := by
    rw [top_of_columns (s := s') authority, filter_append]
    simp
  have within := inv.within
  have moved : RingInv n s' := by
    refine inv.moved positive rfl (by omega) (by omega) ?_ (inv.log_concat .compat) (fun _ => ?_)
      (fun ledger => nomatch authority.symm.trans ledger) ?_
    · rw [top]
    · rw [head]
    · exact forall_tx_finish (P := RingTxOk n s') trivial fun u other =>
        (inv.tx u).behind_row other held authority (by omega)
  exact moved

theorem RingInv.preUpdated (positive : 0 < n)
    (phase : s.tx t = .preUpdated slot generation) : RingInv n (commitRing s t) := by
  have own := inv.tx t
  rw [phase] at own
  obtain ⟨held, authority, rfl, rfl⟩ := own
  simp only [commitRing, phase, Int.toNat_natCast]
  let s' : RingState := { s.finish t with
    columns := ⟨((s.head + 1) % n : Nat), (s.head + 1 : Nat)⟩
    rotated := s.rotated ++ [(s.head + 1, .preLedger)] }
  have head : s'.head = s.head + 1 := head_concat rfl rfl
  have top : s'.top = s.top := by
    rw [top_of_columns (s := s') authority, top_of_columns authority, filter_append]
    simp [s', RingState.finish, RingState.setTx]
  have within := inv.within
  have moved : RingInv n s' := by
    refine inv.moved positive rfl (by omega) (by omega) ?_ (inv.log_concat .preLedger) (fun _ => ?_)
      (fun ledger => nomatch authority.symm.trans ledger) ?_
    · rw [top, Nat.sub_self]
      simp [insertRotations, rotationsFrom, s', RingState.finish, RingState.setTx]
    · rw [head]
    · exact forall_tx_finish (P := RingTxOk n s') trivial fun u other =>
        (inv.tx u).behind_row other held authority (by omega)
  exact moved

theorem RingInv.flipping (positive : 0 < n) (phase : s.tx t = .flipping rows) :
    RingInv n (commitRing s t) := by
  have own := inv.tx t
  rw [phase] at own
  obtain ⟨held, authority, rfl⟩ := own
  simp only [commitRing, phase]
  let s' : RingState := { s.finish t with
    authority := .ledger, columns := .poisoned
    ledger := insertRotations s.ledger (rotationsFrom n (s.top + 1) (s.head - s.top)) }
  have top : s'.top = s.head := top_of_ledger rfl
  have within := inv.within
  have moved : RingInv n s' := by
    refine inv.moved positive rfl (by omega) (top ▸ Nat.le_refl _) ?_ inv.log nofun
      (fun _ => rfl) ?_
    · rw [top]
    · exact forall_tx_finish (P := RingTxOk n s') trivial fun u other =>
        (inv.tx u).behind_row other held authority (by omega)
  exact moved

theorem RingInv.appended (positive : 0 < n) {row : RingRotation}
    (phase : s.tx t = .appended row) : RingInv n (commitRing s t) := by
  have own := inv.tx t
  rw [phase] at own
  obtain ⟨held, authority, rfl⟩ := own
  simp only [commitRing, phase]
  let s' : RingState := { s.finish t with
    ledger := insertRotations s.ledger [rotationAt n (s.head + 1)]
    rotated := s.rotated ++ [(s.head + 1, .ledger)] }
  have head : s'.head = s.head + 1 := head_concat rfl rfl
  have before : s.top = s.head := top_of_ledger authority
  have top : s'.top = s.head + 1 := (top_of_ledger (s := s') authority).trans head
  have moved : RingInv n s' := by
    refine inv.moved positive rfl (by omega) (by omega) ?_ (inv.log_concat .ledger)
      (fun columns => nomatch authority.symm.trans columns) (fun _ => inv.poisoned authority) ?_
    · rw [top, before, Nat.add_sub_cancel_left]
      rfl
    · exact forall_tx_finish (P := RingTxOk n s') trivial fun u other =>
        (inv.tx u).behind_advisory other held authority authority (finish_rowLock other) (by omega)
  exact moved

theorem RingInv.folding {below : Nat} (phase : s.tx t = .folding below) :
    RingInv n (commitRing s t) := by
  have own := inv.tx t
  rw [phase] at own
  simp only [commitRing, phase]
  have after := inv.finish (t := t)
  exact ⟨after.span.fold own, after.started, after.within, after.log, after.columns,
    after.poisoned, after.tx⟩

theorem RingInv.commit (positive : 0 < n) (t : TxId) : RingInv n (commitRing s t) := by
  cases phase : s.tx t with
  | shadowed slot generation rows => exact inv.shadowed positive phase
  | preUpdated slot generation => exact inv.preUpdated positive phase
  | flipping rows => exact inv.flipping positive phase
  | appended row => exact inv.appended positive phase
  | folding below => exact inv.folding phase
  | idle | began | sawColumns | locked | sawLedger | serialized authority
  | sawColumnCursor slot generation
  | sawLedgerCursor slot generation | advanced slot generation | preRead slot generation
  | flipLocked =>
    simp only [commitRing, phase]
    exact inv.finish

end

theorem RingInv.takeRow (inv : RingInv n s) (free : s.rowLock = none)
    (ok : RingTxOk n { s with rowLock := some t } t phase) :
    RingInv n { s.setTx t phase with rowLock := some t } := by
  refine inv.local (t := t) ⟨rfl, rfl, rfl, rfl, rfl⟩ ?_ (fun u other => update_of_ne other ..)
    (fun u _ held => nomatch free.symm.trans held) fun _ _ => id
  rw [show RingState.tx _ t = phase from update_self ..]
  exact ok.frame ⟨rfl, rfl, rfl, rfl, rfl⟩ id id

theorem RingInv.takeAdvisory (inv : RingInv n s) (free : s.advisory = none)
    (ok : RingTxOk n { s with advisory := some t } t phase) :
    RingInv n { s.setTx t phase with advisory := some t } := by
  refine inv.local (t := t) ⟨rfl, rfl, rfl, rfl, rfl⟩ ?_ (fun u other => update_of_ne other ..)
    (fun _ _ => id) fun u _ held => nomatch free.symm.trans held
  rw [show RingState.tx _ t = phase from update_self ..]
  exact ok.frame ⟨rfl, rfl, rfl, rfl, rfl⟩ id id

theorem succ_mod_cast (n generation : Nat) :
    (((generation % n : Nat) : Int) + 1) % n = (((generation + 1) % n : Nat) : Int) := by
  rw [← Nat.mod_add_mod generation n 1]
  push_cast
  rfl

section
variable (inv : RingInv n s)
include inv

theorem RingInv.readAuthority (step : ringStep n (.readAuthority t) s = some s') :
    RingInv n s' := by
  have own := inv.tx t
  simp only [ringStep] at step
  split at step
  · cases step
    exact inv.setTx trivial
  · next phase authority =>
    cases step
    rw [phase] at own
    exact inv.setTx ⟨own, authority⟩
  · next authority =>
    cases step
    exact inv.setTx authority
  · next authority =>
    cases step
    exact inv.setTx authority
  · exact absurd step.symm (some_ne_none _)

theorem RingInv.readCursor (positive : 0 < n) (step : ringStep n (.readCursor t) s = some s') :
    RingInv n s' := by
  have own := inv.tx t
  simp only [ringStep] at step
  split at step
  · next phase =>
    cases step
    rw [phase] at own
    exact inv.setTx ⟨own.1, own.2, rfl⟩
  · next phase =>
    rw [inv.span.last positive inv.started, map_some] at step
    cases step
    rw [phase] at own
    have top := top_of_ledger own.2
    exact inv.setTx ⟨own.1, own.2, by rw [top]; rfl, by rw [top]; rfl⟩
  · exact absurd step.symm (some_ne_none _)

theorem RingInv.append (step : ringStep n (.append t) s = some s') : RingInv n s' := by
  have own := inv.tx t
  simp only [ringStep] at step
  split at step
  · next slot generation phase =>
    rw [phase] at own
    obtain ⟨held, authority, rfl, rfl⟩ := own
    split at step
    · exact Option.some.inj step ▸ inv.finish
    · cases step
      refine inv.setTx ⟨held, authority, ?_⟩
      rw [Nat.mod_add_mod]
      rfl
  · next slot generation phase =>
    rw [phase] at own
    obtain ⟨held, authority, columns⟩ := own
    obtain ⟨rfl, rfl⟩ := RingColumns.mk.inj ((inv.columns authority).symm.trans columns)
    split at step
    · split at step
      · exact Option.some.inj step ▸ inv.finish
      · cases step
        exact inv.setTx ⟨held, authority, succ_mod_cast n s.head, rfl⟩
    · exact Option.some.inj step ▸ inv.finish
  · exact absurd step.symm (some_ne_none _)

theorem RingInv.preUpdate (step : ringStep n (.preUpdate t) s = some s') : RingInv n s' := by
  have own := inv.tx t
  simp only [ringStep] at step
  split at step
  · next slot generation phase =>
    rw [phase] at own
    obtain ⟨free, step⟩ := ite_none_right_eq_some.1 step
    split at step
    · next current =>
      split at step
      · exact Option.some.inj step ▸ inv.finish
      · next compat =>
        cases step
        have authority : s.authority = .columns := by
          cases authority : s.authority with
          | columns => rfl
          | ledger => exact absurd authority compat
        have columns := inv.columns authority
        rw [columns] at current
        -- the generation it read is the current one, so the slot it read is too
        obtain ⟨g, rfl, rfl⟩ | ⟨-, rfl⟩ := own
        · obtain rfl : s.head = g := Int.ofNat.inj current
          exact inv.takeRow free ⟨rfl, authority, succ_mod_cast n s.head, rfl⟩
        · exact absurd current (by show (s.head : Int) ≠ -1; omega)
    · exact Option.some.inj step ▸ inv.finish
  · exact absurd step.symm (some_ne_none _)

theorem RingInv.flip (positive : 0 < n) (step : ringStep n (.flip t) s = some s') :
    RingInv n s' := by
  have own := inv.tx t
  obtain ⟨phase, step⟩ := ite_none_right_eq_some.1 step
  rw [phase] at own
  split at step
  · next rows authority reconciled =>
    cases step
    obtain ⟨-, rfl⟩ := guard_eq_some reconciled
    refine inv.setTx ⟨own, authority, ?_⟩
    rw [inv.columns authority]
    exact inv.span.missing positive inv.started s.head
  · exact Option.some.inj step ▸ inv.finish

theorem RingInv.step {op : RingOp} (positive : 0 < n) (step : ringStep n op s = some s') :
    RingInv n s' := by
  cases op with
  | begin t =>
    obtain ⟨-, rfl⟩ := guard_eq_some step
    exact inv.setTx trivial
  | readAuthority t => exact inv.readAuthority step
  | lockRow t =>
    obtain ⟨⟨-, free⟩, rfl⟩ := guard_eq_some step
    exact inv.takeRow free rfl
  | tryAdvisory t =>
    obtain ⟨phase, step⟩ := ite_none_right_eq_some.1 step
    have own := inv.tx t
    rw [phase] at own
    split at step
    · next free =>
      cases step
      exact inv.takeAdvisory free ⟨rfl, own⟩
    · exact Option.some.inj step ▸ inv.finish
  | readCursor t => exact inv.readCursor positive step
  | append t => exact inv.append step
  | shadow t =>
    have own := inv.tx t
    simp only [ringStep] at step
    split at step
    · next phase =>
      cases step
      rw [phase] at own
      obtain ⟨held, authority, rfl, rfl⟩ := own
      exact inv.setTx ⟨held, authority, rfl, rfl,
        inv.span.missing positive inv.started (s.head + 1)⟩
    · exact absurd step.symm (some_ne_none _)
  | preRead t =>
    obtain ⟨-, rfl⟩ := guard_eq_some step
    refine inv.setTx ?_
    cases authority : s.authority with
    | columns => exact .inl ⟨s.head, by rw [inv.columns authority], by rw [inv.columns authority]⟩
    | ledger =>
      exact .inr ⟨by rw [inv.poisoned authority]; rfl, by rw [inv.poisoned authority]; rfl⟩
  | preUpdate t => exact inv.preUpdate step
  | flipLock t =>
    obtain ⟨⟨-, free⟩, rfl⟩ := guard_eq_some step
    exact inv.takeRow free rfl
  | flip t => exact inv.flip positive step
  | fold t =>
    obtain ⟨-, step⟩ := ite_none_right_eq_some.1 step
    rw [inv.span.last positive inv.started, map_some] at step
    cases step
    refine inv.setTx ?_
    show s.top - (n - 1) ≤ s.top + 1 - n
    omega
  | commit t => exact Option.some.inj step ▸ inv.commit positive t
  | abort t => exact Option.some.inj step ▸ inv.finish

end

theorem RingInv.fresh (n : Nat) : RingInv n .fresh where
  span := by
    refine ⟨?_, nodup_singleton _, ?_, 0, Nat.zero_le _, ?_, fun _ _ => .inl (Nat.zero_le _)⟩
    · intro row mem
      rw [mem_singleton.1 mem, rotationAt, Nat.zero_mod]
    · intro row mem
      rw [mem_singleton.1 mem]
      exact Nat.zero_le _
    · intro g _ bounded
      rw [Nat.le_zero.1 bounded, rotationAt, Nat.zero_mod]
      exact mem_singleton_self _
  started := Nat.le_refl 0
  within := Nat.le_refl 0
  log := rfl
  columns := nofun
  poisoned _ := rfl
  tx _ := trivial

theorem mem_upgraded (n generation : Nat) {row : RingRotation} :
    row ∈ (RingState.upgraded n generation).ledger ↔ row = rotationAt n 0 ∨
      row = rotationAt n generation := by
  simp only [RingState.upgraded, insertRotations, rotationAt, Nat.zero_mod, mem_append,
    mem_singleton, mem_filter, map_cons, map_nil, decide_eq_true_eq]
  constructor
  · exact Or.imp_right And.left
  · rintro (rfl | rfl)
    · exact .inl rfl
    · by_cases zero : generation = 0
      · exact .inl (by rw [zero, Nat.zero_mod])
      · exact .inr ⟨rfl, zero⟩

theorem RingInv.upgraded (n generation : Nat) : RingInv n (.upgraded n generation) where
  span := by
    refine ⟨?_, ?_, ?_, generation, Nat.le_max_left .., ?_, ?_⟩
    · intro row mem
      rcases (mem_upgraded n generation).1 mem with rfl | rfl <;> rfl
    · simp only [RingState.upgraded, insertRotations]
      by_cases zero : generation = 0 <;> simp [zero, Ne.symm]
    · intro row mem
      rcases (mem_upgraded n generation).1 mem with rfl | rfl
      · exact Nat.zero_le _
      · exact Nat.le_refl _
    · intro g above below
      rw [Nat.le_antisymm below above]
      exact (mem_upgraded n generation).2 (.inr rfl)
    · intro row mem
      rcases (mem_upgraded n generation).1 mem with rfl | rfl
      · exact (Nat.eq_zero_or_pos generation).imp (fun zero => Nat.le_of_eq zero) fun positive =>
          ⟨rfl, positive⟩
      · exact .inl (Nat.le_refl _)
  started := Nat.le_refl _
  within := Nat.le_refl _
  log := rfl
  columns _ := rfl
  poisoned := nofun
  tx _ := trivial

theorem ringInv_reachable (positive : 0 < n)
    (reached : (ringMachine n).Reachable Machine.Always s) : RingInv n s := by
  refine reached.invariant ?_ fun _ _ _ _ inv _ step => inv.step positive step
  rintro s (rfl | ⟨generation, rfl⟩)
  · exact RingInv.fresh n
  · exact RingInv.upgraded n generation

def RingState.KeepsSuffix (s : RingState) : Prop :=
  ∃ low ≤ s.head, ∀ g, g ∈ s.ledger.map RingRotation.generation ↔ low ≤ g ∧ g ≤ s.head

structure RingSound (n : Nat) (s : RingState) : Prop where
  /-- The current generation is that of the last committed rotation, in the slot it belongs to. -/
  cursor : s.cursor = some ⟨(s.head % n : Nat), s.head⟩
  consecutive : s.rotated.map Prod.fst = List.range' (s.base + 1) s.rotated.length
  ledger : LedgerSpan n s.ledger s.base s.top
  last : lastRotation s.ledger = some (rotationAt n s.top)
  suffix : s.base = 0 → s.top = s.head → s.KeepsSuffix

/-- Committed rotations are consecutive and each applies once, across the flip too; the ledger ends
at the current generation, or under column authority at the last rotation that knew the ledger, and
has no gap in its last wrap back to the generation it was installed at. -/
theorem rotations_consecutive_and_kept {n : Nat} {s : RingState} (slots : 2 ≤ n)
    (reached : (ringMachine n).Reachable Machine.Always s) : RingSound n s := by
  have positive : 0 < n := by omega
  have inv := ringInv_reachable positive reached
  have last := inv.span.last positive inv.started
  refine ⟨?_, inv.log, inv.span, last, fun fresh complete => ?_⟩
  · rw [RingState.cursor]
    cases authority : s.authority with
    | columns => exact congrArg some (inv.columns authority)
    | ledger => rw [last, top_of_ledger authority]; rfl
  · have span := inv.span
    rw [complete] at span
    obtain ⟨low, near, full, only⟩ := span.gapFree
    refine ⟨low, by omega, fun g => ⟨fun member => ?_, fun bounds => ?_⟩⟩
    · obtain ⟨row, present, rfl⟩ := mem_map.1 member
      exact ⟨(only row present).resolve_right (by omega), span.bounded row present⟩
    · exact mem_map.2 ⟨rotationAt n g, full g bounds.1 bounds.2, rfl⟩

/-- Two rotations in compat mode, the flip and one rotation of the ledger mode on a ring upgraded at
generation 6. -/
def flipOps : List RingOp :=
  let compat : List RingOp :=
    [.begin 1, .readAuthority 1, .lockRow 1, .readAuthority 1, .readCursor 1, .append 1,
      .shadow 1, .commit 1]
  compat ++ [.preRead 2, .preUpdate 2, .commit 2] ++ [.flipLock 3, .flip 3, .commit 3] ++
    [.begin 1, .readAuthority 1, .tryAdvisory 1, .readCursor 1, .append 1, .commit 1,
      .fold 4, .commit 4]

theorem rotations_consecutive_and_kept_flip :
    ∃ s, (ringMachine 4).Reachable Machine.Always s ∧ s.authority = .ledger ∧
      s.rotated.map Prod.fst = [7, 8, 9] ∧
      s.ledger.map RingRotation.generation = [6, 7, 8, 9] ∧ RingSound 4 s := by
  obtain ⟨s, reached, authority, rotated, ledger⟩ :=
    Machine.reachable_of_run (ringMachine 4) Machine.Always flipOps
    (fun s => s.authority = .ledger ∧ s.rotated.map Prod.fst = [7, 8, 9] ∧
      s.ledger.map RingRotation.generation = [6, 7, 8, 9]) (.inr ⟨6, rfl⟩) (by decide)
  exact ⟨s, reached, authority, rotated, ledger, rotations_consecutive_and_kept (by decide) reached⟩

/-- An upgrade at generation 2 leaves the genesis row below a gap, and a rotator from before the
ledger leaves the ledger behind the columns; a fold keeps both. -/
theorem folded_ledger_not_suffix :
    (∃ s, (ringMachine 4).Reachable Machine.Always s ∧ s.tx 1 = .folding 0 ∧
    ¬ (commitRing s 1).KeepsSuffix) ∧
    ∃ s, (ringMachine 4).Reachable Machine.Always s ∧ s.tx 1 = .folding 0 ∧ s.cursor = some ⟨1, 1⟩ ∧
      ¬ (commitRing s 1).KeepsSuffix := by
  constructor
  · obtain ⟨s, reached, phase, ledger, head⟩ :=
      Machine.reachable_of_run (ringMachine 4) Machine.Always [.fold 1]
      (fun s => s.tx 1 = .folding 0 ∧ (commitRing s 1).ledger.map RingRotation.generation = [0, 2] ∧
        (commitRing s 1).head = 2) (.inr ⟨2, rfl⟩) (by decide)
    refine ⟨s, reached, phase, fun ⟨low, _, exactly⟩ => ?_⟩
    rw [ledger, head] at exactly
    have genesis := (exactly 0).1 (by decide)
    exact absurd ((exactly 1).2 ⟨by omega, by omega⟩) (by decide)
  · obtain ⟨s, reached, phase, cursor, ledger, head⟩ :=
      Machine.reachable_of_run (ringMachine 4) Machine.Always
      [.preRead 2, .preUpdate 2, .commit 2, .fold 1]
      (fun s => s.tx 1 = .folding 0 ∧ s.cursor = some ⟨1, 1⟩ ∧
        (commitRing s 1).ledger.map RingRotation.generation = [0] ∧ (commitRing s 1).head =
          1) (.inr ⟨0, rfl⟩) (by decide)
    refine ⟨s, reached, phase, cursor, fun ⟨low, bounded, exactly⟩ => ?_⟩
    rw [ledger, head] at exactly
    rw [head] at bounded
    exact absurd ((exactly 1).2 ⟨bounded, Nat.le_refl 1⟩) (by decide)

end AwaQueue
