import AwaQueue.Lane.Stability
import AwaQueue.Lane.Segments

/-! Enqueueing, tombstoning, rotation, truncation and the end of a transaction keep the
lane invariant. -/

namespace AwaQueue

open List
open Function (update update_of_ne update_self)
open Library
variable {α : Type} {slots : Nat} {s s' : LaneState α} {t : TxId} {w : Writer α}
  {staged : List (StagedRow α)} {ref : RingRef}

theorem LaneInv.of_step (inv : LaneInv slots s) (others : ∀ u, u ≠ t → s'.tx u = s.tx u)
    (rely : ∀ u, u ≠ t → ClaimRely u s s') (rows : RowsOk slots s') (claims : ClaimsOk s')
    (ownWriter : ∀ w, s'.tx t = some (.writer w) → WriterOk slots s' t w)
    (ownClaimer : ∀ c, s'.tx t = some (.claimer c) → ClaimerOk s' t c) : LaneInv slots s' where
  rows := rows
  claims := claims
  writers u w running := by
    by_cases mine : u = t
    · exact mine ▸ ownWriter w (mine ▸ running)
    · exact (inv.writers u w (others u mine ▸ running)).stable (rely u mine).toRely
  claimers u c running := by
    by_cases mine : u = t
    · exact mine ▸ ownClaimer c (mine ▸ running)
    · exact (inv.claimers u c (others u mine ▸ running)).stable inv.rows (rely u mine)

/-- A step that touches only cursors, claim locks, table locks and transaction-local state. -/
structure Quiet (s s' : LaneState α) : Prop where
  tables : s'.tables = s.tables
  ring : s'.ring = s.ring
  nextSeq : s'.nextSeq = s.nextSeq
  laneLock : s'.laneLock = s.laneLock
  history : s'.history = s.history
  advances : s'.advances = s.advances

namespace Quiet

section
variable (quiet : Quiet s s')
include quiet

theorem floor (lane : Lane) : s'.floor lane = s.floor lane := by
  simp only [LaneState.floor, quiet.laneLock, quiet.nextSeq]

theorem growth : Growth s s' where
  floor lane := (quiet.floor lane).ge
  ring := by rw [quiet.ring]
  appear _ mem := .inl (quiet.tables ▸ mem)

theorem evidence : EvidenceGrows s.tables s'.tables := by
  rw [quiet.tables]
  exact ⟨List.Subset.refl _, List.Subset.refl _⟩

theorem rows (ok : RowsOk slots s) : RowsOk slots s' where
  below row mem := by
    rw [quiet.floor]
    exact ok.below row (quiet.tables ▸ mem)
  distinct := quiet.tables ▸ ok.distinct
  ordered := quiet.tables ▸ ok.ordered
  current row mem := by
    rw [quiet.ring]
    exact ok.current row (quiet.tables ▸ mem)
  placed row mem := ok.placed row (quiet.tables ▸ mem)
  ring := quiet.ring ▸ ok.ring
  cover := quiet.tables ▸ ok.cover
  locks lane lock held := by
    rw [quiet.nextSeq]
    exact ok.locks lane lock (quiet.laneLock ▸ held)

theorem claims (ok : ClaimsOk s)
    (cursor : ∀ lane, SpentBelow s lane (s'.claimSeq lane) ∧ s'.claimSeq lane ≤ s.floor lane) :
    ClaimsOk s' where
  cursor lane := (cursor lane).1.stable quiet.growth quiet.evidence (cursor lane).2
  cursorFloor lane := (cursor lane).2.trans (quiet.floor lane).ge
  closed claim mem row rowMember := by
    have before := quiet.history ▸ mem
    exact (ok.closed claim before row rowMember).stable quiet.growth quiet.evidence
      (ok.below claim before row rowMember)
  below claim mem row rowMember := by
    rw [quiet.floor]
    exact ok.below claim (quiet.history ▸ mem) row rowMember
  faithful claim mem := ok.faithful claim (quiet.history ▸ mem)
  recorded batch mem := by
    rw [quiet.history]
    exact ok.recorded batch (quiet.tables ▸ mem)
  ordered := quiet.history ▸ ok.ordered
  advances advance mem :=
    (ok.advances advance (quiet.advances ▸ mem)).stable quiet.growth quiet.evidence

theorem sameCursor (ok : ClaimsOk s) (same : s'.claimSeq = s.claimSeq) : ClaimsOk s' :=
  quiet.claims ok fun lane => by
    rw [same]
    exact ⟨ok.cursor lane, ok.cursorFloor lane⟩

theorem rely (ok : ClaimsOk s) (cursor : ∀ lane, s.claimSeq lane ≤ s'.claimSeq lane)
    (claimLocks : ∀ lane, s.claimLock lane = some t → s'.claimLock lane = some t)
    (childLocks : ∀ slot, (t, slot) ∈ s.childLocks → (t, slot) ∈ s'.childLocks) :
    ClaimRely t s s' where
  toGrowth := quiet.growth
  locks lane _ held _ := ⟨quiet.laneLock ▸ held, congrFun quiet.nextSeq lane⟩
  heldRows _ mem _ _ _ := quiet.tables ▸ mem
  evidence := quiet.evidence
  ready := quiet.tables ▸ List.Subset.refl _
  segments := quiet.tables ▸ List.Subset.refl _
  cursor := cursor
  claimLocks := claimLocks
  history _ mem := .inl (quiet.history ▸ mem)
  faithful claim mem := ok.faithful claim (quiet.history ▸ mem)
  childLocks := childLocks

end

end Quiet

theorem ClaimRely.setTx {u : TxId} {tx : LaneTx α} (rely : ClaimRely u s s') :
    ClaimRely u s (s'.setTx t tx) :=
  { rely with }

theorem LaneInv.local_step (inv : LaneInv slots s) (tx : LaneTx α)
    {childLocks : List (TxId × Option Nat)} (grows : s.childLocks ⊆ childLocks)
    (ownWriter : ∀ w, tx = .writer w → WriterOk slots ({ s with childLocks }.setTx t tx) t w)
    (ownClaimer : ∀ c, tx = .claimer c → ClaimerOk ({ s with childLocks }.setTx t tx) t c) :
    LaneInv slots ({ s with childLocks }.setTx t tx) := by
  have quiet : Quiet s ({ s with childLocks }.setTx t tx) := ⟨rfl, rfl, rfl, rfl, rfl, rfl⟩
  refine inv.of_step (t := t) (fun u other => update_of_ne other _ _) ?_
    (quiet.rows inv.rows) (quiet.sameCursor inv.claims rfl) ?_ ?_
  · exact fun u _ => quiet.rely inv.claims (fun _ => Nat.le_refl _) (fun _ held => held)
      (fun _ mem => grows mem)
  · intro w running
    exact ownWriter w (by simpa [LaneState.setTx] using running)
  · intro c running
    exact ownClaimer c (by simpa [LaneState.setTx] using running)

theorem WriterOk.quiet (ok : WriterOk slots s t w) (quiet : Quiet s s') : WriterOk slots s' t w :=
  ok.stable { quiet.growth with
    locks := fun lane _ held _ => ⟨quiet.laneLock ▸ held, congrFun quiet.nextSeq lane⟩
    heldRows := fun _ mem _ _ _ => quiet.tables ▸ mem }

theorem Writer.fresh_ok : WriterOk slots s t (Writer.fresh : Writer α) := by
  constructor <;> simp [Writer.fresh, Writer.reserved, InsertCall.keys, InsertCall.ref,
    InsertCall.rows, GenerationsOrdered]
  exact ⟨by simp, by simp, by simp⟩

section Reserve
variable {lane : Lane}

def reserved (s : LaneState α) (t : TxId) (lane : Lane) (count : Nat) : LaneState α :=
  { s with
    nextSeq := update s.nextSeq lane (s.nextSeq lane + count)
    laneLock := update s.laneLock lane (some ((s.laneLock lane).getD ⟨t, s.nextSeq lane⟩)) }

theorem reserved_floor (count : Nat) (other : Lane) :
    (reserved s t lane count).floor other = s.floor other := by
  by_cases same : other = lane
  · subst same
    simp only [LaneState.floor, reserved, update_self, Option.map_some, Option.getD_some]
    cases s.laneLock other <;> rfl
  · simp [LaneState.floor, reserved, update_of_ne same]

theorem reserved_lock (mine : ∀ lock ∈ s.laneLock lane, lock.holder = t) (rows : RowsOk slots s)
    (count : Nat) : ∃ lock, (reserved s t lane count).laneLock lane = some lock ∧ lock.holder = t ∧
      lock.base ≤ s.nextSeq lane ∧ ∀ old, s.laneLock lane = some old → lock = old := by
  refine ⟨_, update_self .., ?_⟩
  cases held : s.laneLock lane with
  | none => exact ⟨rfl, Nat.le_refl _, by simp⟩
  | some lock => exact ⟨mine lock held, rows.locks lane lock held, by simp⟩

theorem reserved_rows (ok : RowsOk slots s) (mine : ∀ lock ∈ s.laneLock lane, lock.holder = t)
    (count : Nat) : RowsOk slots (reserved s t lane count) where
  __ := ok
  below row mem := by
    rw [reserved_floor]
    exact ok.below row mem
  locks other lock held := by
    by_cases same : other = lane
    · subst same
      obtain ⟨own, ownHeld, -, base, -⟩ := reserved_lock mine ok count
      obtain rfl := Option.some.inj (ownHeld.symm.trans held)
      simp only [reserved, update_self]
      omega
    · simp only [reserved, update_of_ne same] at held ⊢
      exact ok.locks other lock held

theorem reserved_growth (count : Nat) : Growth s (reserved s t lane count) where
  floor other := (reserved_floor count other).ge
  ring := Nat.le_refl _
  appear _ mem := .inl mem

theorem reserved_claims (ok : ClaimsOk s) (count : Nat) : ClaimsOk (reserved s t lane count) where
  __ := ok
  cursorFloor other := by
    rw [reserved_floor]
    exact ok.cursorFloor other
  below claim mem row rowMember := by
    rw [reserved_floor]
    exact ok.below claim mem row rowMember
  advances advance mem := (ok.advances advance mem).stable (reserved_growth count)
    ⟨List.Subset.refl _, List.Subset.refl _⟩

theorem reserved_rely {u : TxId} (ok : ClaimsOk s)
    (mine : ∀ lock ∈ s.laneLock lane, lock.holder = t)
    (other : u ≠ t) (count : Nat) : ClaimRely u s (reserved s t lane count) where
  toGrowth := reserved_growth count
  locks target lock held own := by
    have apart : target ≠ lane := fun same => other (own ▸ mine lock (same ▸ held))
    simp only [reserved, update_of_ne apart]
    exact ⟨held, trivial⟩
  heldRows _ mem _ _ _ := mem
  evidence := ⟨List.Subset.refl _, List.Subset.refl _⟩
  ready := List.Subset.refl _
  segments := List.Subset.refl _
  cursor _ := Nat.le_refl _
  claimLocks _ held := held
  history _ mem := .inl mem
  faithful := ok.faithful
  childLocks _ mem := mem

theorem reserved_writer {w : Writer α} {staged : List (StagedRow α)} (jobs : List (Nat × α))
    (rows : RowsOk slots s) (ok : WriterOk slots s t w) (call : w.call = .reserving staged)
    (mine : ∀ lock ∈ s.laneLock lane, lock.holder = t) :
      WriterOk slots (reserved s t lane jobs.length) t
      { w with call := .reserving (staged ++ stageRows lane (s.nextSeq lane) jobs) } := by
  obtain ⟨lock, held, holder, base, unchanged⟩ := reserved_lock mine rows jobs.length
  have keys : w.call.keys = staged.map StagedRow.slotKey := by rw [call, InsertCall.keys]
  have oldBelow : ∀ key ∈ w.reserved, key.1 = lane → key.2 < s.nextSeq lane := by
    intro key mem same
    obtain ⟨_, -, -, -, high⟩ := ok.held key mem
    exact same ▸ high
  have newKeys : ∀ key ∈ (stageRows lane (s.nextSeq lane) jobs).map StagedRow.slotKey,
      key.1 = lane ∧ s.nextSeq lane ≤ key.2 ∧ key.2 < s.nextSeq lane + jobs.length := by
    intro key mem
    obtain ⟨row, rowMember, rfl⟩ := mem_map.1 mem
    exact mem_stageRows rowMember
  refine {
    held := ?_, distinct := ?_, ordered := ok.ordered, after := ok.after, current := ok.current
    placed := ok.placed, cover := ok.cover, later := ?_, ref := by simp [InsertCall.ref]
    stamped := by simp [InsertCall.rows], tombstones := ?_, advances := ok.advances }
  · intro key mem
    simp only [Writer.reserved, InsertCall.keys, map_append, ← append_assoc] at mem
    rcases mem_append.1 mem with old | new
    · have before : key ∈ w.reserved := by simpa only [Writer.reserved, keys] using old
      obtain ⟨oldLock, oldHeld, oldHolder, low, high⟩ := ok.held key before
      by_cases same : key.1 = lane
      · refine ⟨lock, same ▸ held, holder, ?_, ?_⟩
        · rw [unchanged oldLock (same ▸ oldHeld)]
          exact low
        · have bound := oldBelow key before same
          simp only [reserved, same, update_self]
          omega
      · refine ⟨oldLock, ?_, oldHolder, low, ?_⟩
        · simpa only [reserved, update_of_ne same] using oldHeld
        · simpa only [reserved, update_of_ne same] using high
    · obtain ⟨same, low, high⟩ := newKeys key new
      refine ⟨lock, same ▸ held, holder, base.trans low, ?_⟩
      simpa only [reserved, same, update_self] using high
  · simp only [Writer.reserved, InsertCall.keys, map_append, ← append_assoc]
    refine List.Nodup.append ?_ (stageRows_nodup ..) ?_
    · simpa only [Writer.reserved, keys] using ok.distinct
    · intro key old new
      have before : key ∈ w.reserved := by simpa only [Writer.reserved, keys] using old
      obtain ⟨same, low, -⟩ := newKeys key new
      have bound := oldBelow key before same
      omega
  · intro row mem key keyMember sameLane
    simp only [InsertCall.keys, map_append] at keyMember
    rcases mem_append.1 keyMember with old | new
    · exact ok.later row mem key (keys ▸ old) sameLane
    · obtain ⟨same, low, -⟩ := newKeys key new
      have bound := oldBelow row.slotKey (mem_append_left _ (mem_map_of_mem mem))
        (sameLane.trans same)
      exact bound.trans_le low
  · intro tomb mem
    rw [reserved_floor]
    exact ok.tombstones tomb mem

end Reserve

theorem LaneInv.reserve {lane : Lane} {jobs : List (Nat × α)}
    (inv : LaneInv slots s) (running : s.tx t = some (.writer w))
    (call : w.call = .reserving staged) (mine : ∀ lock ∈ s.laneLock lane, lock.holder = t) :
      LaneInv slots ((reserved s t lane jobs.length).setTx t
        (.writer { w with call := .reserving (staged ++ stageRows lane (s.nextSeq lane) jobs)
        })) := by
  have own := reserved_writer jobs inv.rows (inv.writers t w running) call mine
  have quiet : Quiet (reserved s t lane jobs.length) ((reserved s t lane jobs.length).setTx t
      (.writer { w with call := .reserving (staged ++ stageRows lane (s.nextSeq lane) jobs) })) :=
    ⟨rfl, rfl, rfl, rfl, rfl, rfl⟩
  refine inv.of_step (t := t) (fun u other => update_of_ne other _ _) ?_
    (quiet.rows (reserved_rows inv.rows mine _))
    (quiet.sameCursor (reserved_claims inv.claims _) rfl) ?_ ?_
  · intro u other
    exact (reserved_rely inv.claims mine other jobs.length).setTx
  · intro w' running'
    obtain rfl : _ = w' := by simpa [LaneState.setTx] using running'
    exact own.quiet quiet
  · intro c running'
    simp [LaneState.setTx] at running'

theorem WriterOk.recall {call : InsertCall α} (ok : WriterOk slots s t w)
    (keys : call.keys = w.call.keys) (ref : ∀ ref ∈ call.ref, RefOk slots s w ref)
    (stamped : ∀ row ∈ call.rows, call.ref = some row.ref) :
    WriterOk slots s t { w with call } := by
  have same : ({ w with call } : Writer α).reserved = w.reserved := by
    unfold Writer.reserved
    rw [keys]
  refine { ok with
    held := same ▸ ok.held, distinct := same ▸ ok.distinct, later := ?_, ref :=
      ?_, stamped := stamped }
  · intro row mem key keyMember sameLane
    exact ok.later row mem key (keys ▸ keyMember) sameLane
  · intro position mem
    have known := ref position mem
    exact { known with afterCommitted := fun key keyMember =>
      known.afterCommitted key (keys ▸ keyMember) }

section
variable (inv : LaneInv slots s) (running : s.tx t = some (.writer w))
include inv running

theorem LaneInv.currentQueueRing
    (call : w.call = .reserving staged) :
    LaneInv slots (s.setTx t (.writer { w with call := .routed staged s.ring })) := by
  have ok := inv.writers t w running
  refine inv.local_step _ (List.Subset.refl _) (fun w' same => ?_) (fun _ same => by cases same)
  cases same
  refine WriterOk.quiet (s := s) ?_ ⟨rfl, rfl, rfl, rfl, rfl, rfl⟩
  refine ok.recall (by rw [call]; rfl) ?_ (by simp [InsertCall.rows])
  intro ref mem
  obtain rfl : s.ring = ref := by simpa [InsertCall.ref] using mem
  exact ⟨Nat.le_refl _, inv.rows.ring, ok.current,
    fun _ _ old oldMember _ => inv.rows.current old oldMember⟩

theorem LaneInv.insertReadyRows
    (call : w.call = .routed staged ref) :
    LaneInv slots ({ s with childLocks := (t, some ref.slot) :: s.childLocks }.setTx t
      (.writer { w with call := .inserted (staged.map (StagedRow.stamp ref)) ref })) := by
  have ok := inv.writers t w running
  refine inv.local_step _ (subset_cons_self _ _) (fun w' same => ?_) (fun _ same => by cases same)
  cases same
  refine WriterOk.quiet (s := s) ?_ ⟨rfl, rfl, rfl, rfl, rfl, rfl⟩
  refine ok.recall ?_ ?_ ?_
  · rw [call, InsertCall.keys, InsertCall.keys, map_map]
    rfl
  · intro ref' mem
    exact ok.ref ref' (by simpa [call, InsertCall.ref] using mem)
  · intro row mem
    obtain ⟨staged, -, rfl⟩ := mem_map.1 mem
    rfl

theorem LaneInv.insertReadySegments {rows : List (ReadyRow α)}
    (call : w.call = .inserted rows ref) :
    LaneInv slots (s.setTx t (.writer { w with
      call := .reserving []
      rows := w.rows ++ rows
      segments := w.segments ++ readySegmentsFromRows ref rows })) := by
  have ok := inv.writers t w running
  have keys : w.call.keys = rows.map ReadyRow.slotKey := by rw [call, InsertCall.keys]
  have known := ok.ref ref (by simp [call, InsertCall.ref])
  have stamped : ∀ row ∈ rows, row.ref = ref := by
    intro row mem
    have found := ok.stamped row (by simpa [call, InsertCall.rows] using mem)
    simpa [call, InsertCall.ref] using found.symm
  have rowKey : ∀ row ∈ rows, row.slotKey ∈ w.call.keys := fun row mem =>
    keys ▸ mem_map_of_mem mem
  refine inv.local_step _ (List.Subset.refl _) (fun w' same => ?_) (fun _ same => by cases same)
  cases same
  refine WriterOk.quiet (s := s) ?_ ⟨rfl, rfl, rfl, rfl, rfl, rfl⟩
  have reservedSame : ({ w with
      call := .reserving []
      rows := w.rows ++ rows
      segments := w.segments ++ readySegmentsFromRows ref rows } : Writer α).reserved =
        w.reserved := by
    unfold Writer.reserved
    rw [keys]
    simp [InsertCall.keys]
  refine {
    held := by simpa only [reservedSame] using ok.held
    distinct := by simpa only [reservedSame] using ok.distinct
    ordered := ?_, after := ?_, current := ?_, placed := ?_
    cover := ok.cover.append (readySegmentsFromRows_cover ref rows stamped)
    later := by simp [InsertCall.keys], ref := by simp [InsertCall.ref]
    stamped := by simp [InsertCall.rows], tombstones := ok.tombstones, advances := ok.advances }
  · intro low lowMember high highMember sameLane le
    rcases mem_append.1 lowMember with oldLow | newLow <;>
      rcases mem_append.1 highMember with oldHigh | newHigh
    · exact ok.ordered low oldLow high oldHigh sameLane le
    · rw [stamped high newHigh]
      exact known.afterOwn low oldLow
    · have order := ok.later high oldHigh low.slotKey (rowKey low newLow) sameLane.symm
      simp only [ReadyRow.slotKey] at order
      omega
    · rw [stamped low newLow, stamped high newHigh]
  · intro row mem old oldMember sameLane
    rcases mem_append.1 mem with before | new
    · exact ok.after row before old oldMember sameLane
    · rw [stamped row new]
      exact known.afterCommitted row.slotKey (rowKey row new) old oldMember sameLane
  · intro row mem
    rcases mem_append.1 mem with before | new
    · exact ok.current row before
    · rw [stamped row new]
      exact known.current
  · intro row mem
    rcases mem_append.1 mem with before | new
    · exact ok.placed row before
    · rw [stamped row new]
      exact known.placed

end

end AwaQueue
