import AwaQueue.Attempt.Protocol
import AwaQueue.Library.Sweep
import Mathlib.Data.Prod.Lex
import Mathlib.Data.List.TakeWhile

/-! The sweep for stale receipts over the claims of one slot: what a tick closes, and that its
cursor leaves out no claim for good.

Between the ticks, and between the two statements of one, closers add evidence, materializers add
leases and workers send heartbeats. -/

namespace AwaQueue

open List (any_append length_map mem_append mem_filter mem_map)
open Bool (and_eq_true_iff eq_false_iff or_eq_true)
open Library

instance : LinearOrder ScanKey := LinearOrder.lift'
  (fun k : ScanKey => toLex (k.time, toLex (k.id, k.runLease))) (by
  rintro ⟨time, id, lease⟩ ⟨time', id', lease'⟩ same
  simp only [EmbeddingLike.apply_eq_iff_eq, Prod.mk.injEq] at same
  obtain ⟨rfl, rfl, rfl⟩ := same
  rfl)

theorem ScanKey.le_iff {a b : ScanKey} : a.le b = true ↔ a ≤ b := by
  change _ ↔ toLex (a.time, toLex (a.id, a.runLease)) ≤ toLex (b.time, toLex (b.id, b.runLease))
  simp only [ScanKey.le, Prod.Lex.toLex_le_toLex, or_eq_true, Bool.and_eq_true, decide_eq_true_eq]

structure SlotSweep where
  now : Nat
  limit : Nat
  locked : List Attempt
deriving DecidableEq

structure SlotState where
  tables : AttemptTables
  sweep : Option SlotSweep
  /-- The claims that ticks have closed, and how many ticks there were; no statement reads them. -/
  rescued : List ReceiptClaim
  ticks : Nat

inductive ClosingRow where
  | closure (row : ReceiptClosure)
  | receipt (row : ClosedReceipt)
  | successor (row : SuccessorRow)
deriving DecidableEq

namespace ClosingRow

def closes (c : ReceiptClaim) : ClosingRow → Bool
  | closure row => row = c.closure
  | receipt row => row.receiptId = c.receiptId
  | successor row => row.attempt = c.attempt && row.kind.isEvidence

def insert (T : AttemptTables) : ClosingRow → AttemptTables
  | closure row => { T with closures := T.closures ++ [row] }
  | receipt row => { T with closedReceipts := T.closedReceipts ++ [row] }
  | successor row => { T with successors := T.successors ++ [row] }

end ClosingRow

inductive SlotOp where
  | heartbeat (attempt : Attempt) (time : Nat)
  | clearState (attempt : Attempt)
  /-- A closer commits; it has to wait for the lock of a tick, and so does a materializer. -/
  | close (row : ClosingRow)
  | materialize (lease : LeaseRow)
  | deleteLease (attempt : Attempt)
  /-- The done, deferred and DLQ rows of an attempt are pruned, promoted or purged. -/
  | deleteSuccessors (attempt : Attempt)
  /-- First statement of a tick. `busy` are the attempts whose advisory lock another transaction
  has. -/
  | scan (now limit : Nat) (busy : List Attempt)
  /-- Second statement; `skipped` are those whose claim row another transaction has locked. -/
  | decide (skipped : List Attempt)
  | abort
deriving DecidableEq

namespace AttemptTables
variable (T : AttemptTables)

def lastSign (c : ReceiptClaim) : Nat :=
  ((T.attemptState.find? fun row => row.attempt = c.attempt).bind AttemptStateRow.heartbeatAt).getD
    c.claimedAt

def openStale (now : Nat) (c : ReceiptClaim) : Bool :=
  !T.closedEvidence c && !T.leaseManaged c.attempt && RescueKind.heartbeat.due T now c

def slotClaims (slot : Nat) : List ReceiptClaim := T.claims.filter fun c => c.claimSlot = slot

def rescue (slot now : Nat) (found : List ReceiptClaim) : AttemptTables :=
  T.apply { ({} : AttemptWrites).addClosures T.closures .slow found with
    cursors := ((RescueKind.heartbeat.advanceTarget T slot now found).map fun key => (.heartbeat,
      slot, key)).toList }

end AttemptTables

namespace SlotState
variable (s : SlotState)

def locked (a : Attempt) : Bool := s.sweep.any fun sweep => sweep.locked.contains a

def found (slot : Nat) (sweep : SlotSweep) (skipped : List Attempt) : List ReceiptClaim :=
  (RescueKind.heartbeat.rescuable s.tables slot sweep.now sweep.limit).filter fun c =>
    sweep.locked.contains c.attempt && !skipped.contains c.attempt

end SlotState

def slotStep (slot : Nat) (op : SlotOp) (s : SlotState) : Option SlotState :=
  match op with
  | .heartbeat a time =>
    if s.tables.claims.all fun c => c.attempt ≠ a || c.claimedAt ≤ time then
      some { s with tables := { s.tables with
        attemptState := ⟨a, some time⟩ :: s.tables.attemptState.filter fun row =>
          row.attempt ≠ a } }
    else none
  | .clearState a =>
    some { s with tables := { s.tables with attemptState := s.tables.attemptState.filter fun row =>
      row.attempt ≠ a } }
  | .close row =>
    if s.tables.claims.all fun c => !row.closes c || !s.locked c.attempt then
      some { s with tables := row.insert s.tables }
    else none
  | .materialize lease =>
    if s.locked lease.attempt then none
    else some { s with tables := { s.tables with leases := s.tables.leases ++ [lease] } }
  | .deleteLease a =>
    some { s with tables := { s.tables with leases := s.tables.leases.filter fun lease =>
      lease.attempt ≠ a } }
  | .deleteSuccessors a =>
    some { s with tables := { s.tables with successors := s.tables.successors.filter fun row =>
      row.attempt ≠ a } }
  | .scan now limit busy =>
    if s.sweep.isNone then
      some { s with sweep := some ⟨now, limit,
        ((RescueKind.heartbeat.rescuable s.tables slot now limit).map ReceiptClaim.attempt).filter
          fun a => !busy.contains a⟩ }
    else none
  | .decide skipped => s.sweep.map fun sweep =>
    let found := s.found slot sweep skipped
    { tables := s.tables.rescue slot sweep.now found, sweep := none, rescued := s.rescued ++ found,
      ticks := s.ticks + 1 }
  | .abort => if s.sweep.isSome then some { s with sweep := none } else none

/-- Any claims of any age, closed or not, with leases or not, and any cursor. -/
def slotMachine (slot : Nat) : Machine SlotState SlotOp where
  init s := (s.tables.claims.map ReceiptClaim.attempt).Nodup ∧
    (s.tables.claims.map ReceiptClaim.receiptId).Nodup ∧
      (∀ c ∈ s.tables.claims, c.claimedAt ≤ s.tables.lastSign c) ∧ s.sweep = none ∧
      s.rescued = [] ∧ s.ticks = 0
  step := slotStep slot

/-- What the bound on the number of ticks is under: no other transaction has a lock that a tick
wants, no claim comes back to a tick that has tried its locks, and the claim stays open and stale
until a tick has it. -/
def undisturbed (least : Nat) (x : ReceiptClaim) (op : SlotOp) (s : SlotState) : Prop :=
  match op with
  | .scan now limit busy =>
    least ≤ limit ∧ busy = [] ∧ (x ∈ s.rescued ∨ s.tables.openStale now x = true)
  | .decide skipped =>
    skipped = [] ∧ (x ∈ s.rescued ∨ ∀ sweep ∈ s.sweep, s.tables.openStale sweep.now x = true)
  | .heartbeat a time =>
    s.sweep = none ∨ ∀ c ∈ s.tables.claims, c.attempt = a → s.tables.lastSign c ≤ time
  | .clearState a | .deleteLease a | .deleteSuccessors a =>
    s.sweep = none ∨ ∀ c ∈ s.tables.claims, c.attempt = a → s.tables.ledgerClosed c = true
  | .close _ | .materialize _ | .abort => True

instance (least : Nat) (x : ReceiptClaim) (op : SlotOp) (s : SlotState) :
    Decidable (undisturbed least x op s) := by
  unfold undisturbed
  split <;> infer_instance

namespace AttemptTables
variable {T T' : AttemptTables} {c : ReceiptClaim} {a : Attempt} {now time : Nat} {row : ClosingRow}

theorem openStale_iff :
    T.openStale now c = true ↔ T.closedEvidence c = false ∧ T.leaseManaged c.attempt = false ∧
      T.lastSign c < now := by
  simp [openStale, RescueKind.due, lastSign, and_assoc]

theorem filter_attempt_ne {ρ : Type} {f : ρ → Attempt} {p : ρ → Bool} {b : Attempt} (other : b ≠ a)
    (only : ∀ row, p row = true → f row = b) (row : ρ) : (decide (f row ≠ a) && p row) = p row := by
  cases here : p row with
  | false => exact Bool.and_false _
  | true => simp [only row here, other]

theorem lastSign_clearState :
      lastSign { T with attemptState := T.attemptState.filter fun row => row.attempt ≠ a } c =
      if a = c.attempt then c.claimedAt else T.lastSign c := by
  by_cases same : a = c.attempt
  · have absent : (T.attemptState.filter fun row => row.attempt ≠ a).find? (fun row => row.attempt =
        c.attempt) = none := by
      simp [same]
    rw [lastSign, absent, if_pos same]
    rfl
  · have kept := filter_attempt_ne (f := AttemptStateRow.attempt)
      (p := fun row => row.attempt = c.attempt)
      (Ne.symm same) fun row here => of_decide_eq_true here
    simp only [lastSign, List.find?_filter, Bool.decide_and, Bool.decide_eq_true, kept, if_neg same]

theorem lastSign_heartbeat :
    lastSign { T with attemptState := ⟨a, some time⟩ :: T.attemptState.filter fun row =>
      row.attempt ≠ a } c = if a = c.attempt then time else T.lastSign c := by
  by_cases same : a = c.attempt
  · simp [lastSign, same]
  · have kept := lastSign_clearState (T := T) (c := c) (a := a)
    rw [if_neg same] at kept ⊢
    rw [← kept]
    simp only [lastSign, List.find?_cons, same, decide_false]

structure Kept (T T' : AttemptTables) : Prop where
  claims : T'.claims = T.claims
  cursors : T'.cursors = T.cursors
  closed : ∀ c, T.ledgerClosed c = true → T'.ledgerClosed c = true
  signs : ∀ c ∈ T.claims, c.claimedAt ≤ T.lastSign c → c.claimedAt ≤ T'.lastSign c

def Fewer (T T' : AttemptTables) : Prop := ∀ c ∈ T.claims, ∀ now, T'.openStale now c = true →
    T.openStale now c = true

theorem Fewer.of_each (each : ∀ c ∈ T.claims, T'.closedEvidence c = false →
    T.closedEvidence c = false ∧ (T'.leaseManaged c.attempt = false → T.leaseManaged c.attempt =
      false) ∧ T.lastSign c ≤ T'.lastSign c) : Fewer T T' := by
  intro c mem now stale
  obtain ⟨unclosed, unmanaged, old⟩ := openStale_iff.1 stale
  obtain ⟨open_, free, signs⟩ := each c mem unclosed
  exact openStale_iff.2 ⟨open_, free unmanaged, signs.trans_lt old⟩

theorem closedEvidence_of_ledger (closed : T.ledgerClosed c = true) :
    T.closedEvidence c = true := by
  rw [closedEvidence, closed, Bool.true_or]

theorem ledgerClosed_insert (closed : T.ledgerClosed c = true) :
    (row.insert T).ledgerClosed c = true := by
  rw [ledgerClosed, or_eq_true] at closed ⊢
  refine closed.imp ?_ ?_
  · intro found
    have mem := of_decide_eq_true found
    cases row with
    | closure new => exact decide_eq_true (List.mem_append_left _ mem)
    | receipt new | successor new => exact found
  · intro found
    cases row with
    | receipt new =>
      rw [ClosingRow.insert, any_append, found, Bool.true_or]
    | closure new | successor new => exact found

theorem closedEvidence_insert (closed : T.closedEvidence c = true) :
    (row.insert T).closedEvidence c = true := by
  rw [closedEvidence, or_eq_true] at closed ⊢
  refine closed.imp ledgerClosed_insert ?_
  intro found
  cases row with
  | successor new =>
    rw [successorEvidence] at found
    rw [ClosingRow.insert, successorEvidence, any_append, found, Bool.true_or]
  | closure new | receipt new => exact found

end AttemptTables

open AttemptTables

inductive SlotEffect (slot : Nat) (s : SlotState) : SlotOp → SlotState → Prop where
  | other {op : SlotOp} {T : AttemptTables} (kept : Kept s.tables T)
      (fewer : ∀ least x, undisturbed least x op s → s.sweep = none ∨ Fewer s.tables T) :
      SlotEffect slot s op { s with tables := T }
  | scan {now limit : Nat} {busy : List Attempt} (idle : s.sweep = none) :
      SlotEffect slot s (.scan now limit busy) { s with sweep := some ⟨now, limit,
        ((RescueKind.heartbeat.rescuable s.tables slot now limit).map ReceiptClaim.attempt).filter
          fun a => !busy.contains a⟩ }
  | decide {skipped : List Attempt} {sweep : SlotSweep} (running : s.sweep = some sweep) :
      SlotEffect slot s (.decide skipped)
        { tables := s.tables.rescue slot sweep.now (s.found slot sweep skipped), sweep := none,
          rescued := s.rescued ++ s.found slot sweep skipped, ticks := s.ticks + 1 }
  | abort : SlotEffect slot s .abort { s with sweep := none }

variable {slot : Nat} {op : SlotOp} {s s' : SlotState} {c : ReceiptClaim} {T T' : AttemptTables}

theorem slotStep_effect (step : slotStep slot op s = some s') : SlotEffect slot s op s' := by
  cases op with
  | heartbeat a time =>
    obtain ⟨recent, rfl⟩ := guard_eq_some step
    have recent' : ∀ c ∈ s.tables.claims, a = c.attempt → c.claimedAt ≤ time := by
      intro c mem same
      simpa [same] using List.all_eq_true.1 recent c mem
    refine .other ⟨rfl, rfl, fun c closed => closed, ?_⟩ ?_
    · intro c mem before
      rw [lastSign_heartbeat]
      split
      · exact recent' c mem ‹_›
      · exact before
    · intro least x calm
      refine calm.imp_right fun later => .of_each fun c mem unclosed => ⟨unclosed, id, ?_⟩
      rw [lastSign_heartbeat]
      split
      · exact later c mem (Eq.symm ‹_›)
      · exact le_rfl
  | clearState a =>
    cases step
    refine .other ⟨rfl, rfl, fun c closed => closed, ?_⟩ ?_
    · intro c mem before
      rw [lastSign_clearState]
      split
      · exact le_rfl
      · exact before
    · intro least x calm
      refine calm.imp_right fun settled => .of_each fun c mem unclosed => ⟨unclosed, id, ?_⟩
      rw [lastSign_clearState]
      split
      · have closed := closedEvidence_of_ledger (settled c mem (Eq.symm ‹_›))
        cases closed.symm.trans unclosed
      · exact le_rfl
  | close row =>
    obtain ⟨-, rfl⟩ := guard_eq_some step
    refine .other ⟨?_, ?_, ?_, ?_⟩ ?_
    · cases row <;> rfl
    · cases row <;> rfl
    · intro c closed
      exact ledgerClosed_insert closed
    · intro c mem before
      cases row <;> exact before
    · intro least x calm
      refine .inr (.of_each fun c mem unclosed => ⟨?_, ?_, ?_⟩)
      · refine eq_false_iff.2 fun closed => ?_
        rw [closedEvidence_insert closed] at unclosed
        cases unclosed
      · cases row <;> exact id
      · cases row <;> exact le_rfl
  | materialize lease =>
    simp only [slotStep] at step
    split at step <;> cases step
    refine .other ⟨rfl, rfl, fun c closed => closed, fun c _ before => before⟩ ?_
    intro least x calm
    refine .inr (.of_each fun c mem unclosed => ⟨unclosed, fun unmanaged => ?_, le_rfl⟩)
    simp_all [leaseManaged]
  | deleteLease a =>
    cases step
    refine .other ⟨rfl, rfl, fun c closed => closed, fun c _ before => before⟩ ?_
    intro least x calm
    refine calm.imp_right fun settled => .of_each fun c mem unclosed =>
      ⟨unclosed, fun unmanaged => ?_, le_rfl⟩
    by_cases same : c.attempt = a
    · have closed := closedEvidence_of_ledger (settled c mem same)
      cases closed.symm.trans unclosed
    · have kept := filter_attempt_ne (f := LeaseRow.attempt) (p := fun lease => lease.attempt =
        c.attempt) same fun lease here => of_decide_eq_true here
      simpa only [leaseManaged, List.any_filter, kept] using unmanaged
  | deleteSuccessors a =>
    cases step
    refine .other ⟨rfl, rfl, fun c closed => closed, fun c _ before => before⟩ ?_
    intro least x calm
    refine calm.imp_right fun settled => .of_each fun c mem unclosed => ⟨?_, id, le_rfl⟩
    by_cases same : c.attempt = a
    · have closed := closedEvidence_of_ledger (T := { s.tables with
        successors := s.tables.successors.filter fun row => row.attempt ≠ a }) (settled c mem same)
      cases closed.symm.trans unclosed
    · have kept := filter_attempt_ne (f := SuccessorRow.attempt)
        (p := fun row => row.attempt = c.attempt && row.kind.isEvidence) same
        fun row here => of_decide_eq_true (and_eq_true_iff.1 here).1
      simpa only [closedEvidence, ledgerClosed, successorEvidence, List.any_filter,
        kept] using unclosed
  | scan now limit busy =>
    obtain ⟨idle, rfl⟩ := guard_eq_some step
    exact .scan (Option.isNone_iff_eq_none.1 idle)
  | decide skipped =>
    obtain ⟨sweep, running, rfl⟩ := Option.map_eq_some_iff.1 step
    exact .decide running
  | abort =>
    obtain ⟨-, rfl⟩ := guard_eq_some step
    exact .abort

namespace RescueKind
variable {T : AttemptTables} {slot now limit : Nat} {c x : ReceiptClaim} {kind : RescueKind}
  {rescued : List ReceiptClaim}

def scanKeys (kind : RescueKind) (T : AttemptTables) (slot now : Nat) : List ScanKey :=
  (((T.claims.filter (kind.scans slot now)).map kind.key).dedup).insertionSort fun a b => a.le b

theorem scanKeys_nodup (kind : RescueKind) : (kind.scanKeys T slot now).Nodup :=
  (List.perm_insertionSort _ _).nodup_iff.2 (List.nodup_dedup _)

theorem scanKeys_sorted (kind : RescueKind) : (kind.scanKeys T slot now).Pairwise (· ≤ ·) := by
  have total : Std.Total fun a b : ScanKey => a.le b = true :=
    ⟨fun a b => by simpa only [ScanKey.le_iff] using le_total a b⟩
  have trans : IsTrans ScanKey fun a b => a.le b = true :=
    ⟨fun a b c => by simpa only [ScanKey.le_iff] using le_trans⟩
  refine (List.pairwise_insertionSort _ _).imp ?_
  intro a b
  exact ScanKey.le_iff.1

theorem mem_scanKeys {k : ScanKey} :
    k ∈ kind.scanKeys T slot now ↔ ∃ c ∈ T.claims, kind.scans slot now c = true ∧
      kind.key c = k := by
  rw [scanKeys, (List.perm_insertionSort _ _).mem_iff, List.mem_dedup, mem_map]
  simp only [mem_filter, and_assoc]

/-- Where no two claims share a key, the scan is the rotation of the keys, up to the limit. -/
theorem candidates_keys (distinct : ((T.claims.filter (kind.scans slot now)).map kind.key).Nodup) :
    (kind.candidates T slot now).map kind.key =
      (rotate (T.cursors kind slot) (kind.scanKeys T slot now)).take scanLimit := by
  have selected : rotate (T.cursors kind slot) (kind.scanKeys T slot now) =
      (kind.scanKeys T slot now).filter (fun k => !k.le (T.cursors kind slot)) ++
        (kind.scanKeys T slot now).filter fun k => k.le (T.cursors kind slot) := by
    rw [rotate]
    congr 2
    · funext k
      rw [Bool.eq_iff_iff, Bool.not_eq_true', eq_false_iff, Ne, ScanKey.le_iff,
        decide_eq_true_eq, not_le]
    · funext k
      rw [Bool.eq_iff_iff, ScanKey.le_iff, decide_eq_true_eq]
  have known : ∀ k ∈ (rotate (T.cursors kind slot) (kind.scanKeys T slot now)).take scanLimit,
      k ∈ (T.claims.filter (kind.scans slot now)).map kind.key := by
    intro k mem
    obtain ⟨c, claimed, scanned, same⟩ := mem_scanKeys.1 (mem_rotate.1 (List.mem_of_mem_take mem))
    exact mem_map.2 ⟨c, mem_filter.2 ⟨claimed, scanned⟩, same⟩
  refine Eq.trans (congrArg (List.map kind.key) ?_) (flatMap_key distinct known)
  have rest (n : Nat) : scanLimit - min scanLimit n = scanLimit - n := by omega
  rw [selected, List.take_append, ← rest, ← List.length_take]
  rfl

def blocked (kind : RescueKind) (T : AttemptTables) (slot now : Nat) (rescued : List ReceiptClaim) :
    List ScanKey :=
  ((kind.candidates T slot now).filter fun c =>
    !(T.closedEvidence c || T.leaseManaged c.attempt || !kind.due T now c ||
      decide (c ∈ rescued))).map kind.key

def passed (kind : RescueKind) (T : AttemptTables) (slot now : Nat) (rescued : List ReceiptClaim) :
    List ReceiptClaim :=
  (kind.candidates T slot now).takeWhile fun c => kind.key c ∉ kind.blocked T slot now rescued

theorem advanceTarget_eq :
    kind.advanceTarget T slot now rescued = (kind.passed T slot now rescued).getLast?.map
      kind.key := rfl

section
variable {rescued : List ReceiptClaim} (distinct : (T.claims.map ReceiptClaim.attempt).Nodup)
include distinct

theorem heartbeat_keys_nodup (p : ReceiptClaim → Bool) :
    ((T.claims.filter p).map heartbeat.key).Nodup := by
  refine List.Nodup.of_map (fun k => (⟨k.id, k.runLease⟩ : Attempt)) ?_
  rw [List.map_map]
  exact distinct.sublist (List.filter_sublist.map _)

theorem eq_of_heartbeat_key (claimed : c ∈ T.claims) (claimed' : x ∈ T.claims)
    (same : heartbeat.key c = heartbeat.key x) : c = x := by
  refine List.inj_on_of_nodup_map distinct claimed claimed' ?_
  simp only [key, ScanKey.mk.injEq] at same
  cases hc : c.attempt
  cases hx : x.attempt
  simp_all

end

theorem candidate_scanned (mem : c ∈ kind.candidates T slot now) :
    c ∈ T.claims ∧ kind.scans slot now c = true := by
  obtain ⟨k, -, found⟩ := List.mem_flatMap.1 mem
  exact mem_filter.1 (mem_filter.1 found).1

theorem mem_of_passed (mem : c ∈ kind.passed T slot now rescued) :
    c ∈ kind.candidates T slot now := (List.takeWhile_sublist _).subset mem

/-- A stale claim is scanned, since it was claimed before its last sign of life. -/
theorem scans_of_openStale (claimed : c ∈ T.slotClaims slot) (signs : c.claimedAt ≤ T.lastSign c)
    (stale : T.openStale now c = true) : heartbeat.scans slot now c = true := by
  have inSlot := (mem_filter.1 claimed).2
  have old : c.claimedAt < now := signs.trans_lt (AttemptTables.openStale_iff.1 stale).2.2
  simp [scans, of_decide_eq_true inSlot, old]

section
variable {rescued : List ReceiptClaim} (distinct : (T.claims.map ReceiptClaim.attempt).Nodup)
include distinct

theorem candidates_heartbeat : (heartbeat.candidates T slot now).map heartbeat.key =
      (rotate (T.cursors heartbeat slot) (heartbeat.scanKeys T slot now)).take scanLimit :=
  candidates_keys (heartbeat_keys_nodup distinct _)

theorem mem_blocked (claimed : c ∈ T.claims) :
      heartbeat.key c ∈ heartbeat.blocked T slot now rescued ↔
      c ∈ heartbeat.candidates T slot now ∧ T.openStale now c = true ∧ c ∉ rescued := by
  have left (c : ReceiptClaim) :
      (!(T.closedEvidence c || T.leaseManaged c.attempt || !heartbeat.due T now c ||
      decide (c ∈ rescued))) = true ↔ T.openStale now c = true ∧ c ∉ rescued := by
    simp [AttemptTables.openStale]
  simp only [blocked, mem_map, mem_filter, left]
  constructor
  · rintro ⟨b, ⟨candidate, stays⟩, same⟩
    cases eq_of_heartbeat_key distinct (candidate_scanned candidate).1 claimed same
    exact ⟨candidate, stays⟩
  · intro stays
    exact ⟨c, stays, rfl⟩

theorem key_not_passed (claimed : x ∈ T.claims) (stale : T.openStale now x = true)
    (unrescued : x ∉ rescued) :
    heartbeat.key x ∉ (heartbeat.passed T slot now rescued).map heartbeat.key := by
  intro mem
  obtain ⟨c, passes, same⟩ := mem_map.1 mem
  have candidate := mem_of_passed passes
  have free : heartbeat.key x ∉ heartbeat.blocked T slot now rescued := by
    rw [← same]
    simpa only [decide_eq_true_eq] using List.mem_takeWhile_imp passes
  cases eq_of_heartbeat_key distinct (candidate_scanned candidate).1 claimed same
  exact free ((mem_blocked distinct claimed).2 ⟨candidate, stale, unrescued⟩)

section
variable (claimed : x ∈ T.slotClaims slot)
  (signs : x.claimedAt ≤ T.lastSign x)
  (stale : T.openStale now x = true)
  (unrescued : x ∉ rescued)
include claimed signs stale unrescued

/-- The candidates are passed up to the scan limit, or up to an open one that has enough of them
before it. -/
theorem le_passed_length
    (enough : ∀ before c after, heartbeat.candidates T slot now = before ++ c :: after →
      T.openStale now c = true → c ∉ rescued → limit ≤ before.length) :
      min limit scanLimit ≤ (heartbeat.passed T slot now rescued).length := by
  have claim := (mem_filter.1 claimed).1
  rcases takeWhile_split (fun c => decide (heartbeat.key c ∉ heartbeat.blocked T slot now rescued))
    (heartbeat.candidates T slot now) with all | ⟨c, after, found, stops⟩
  · change heartbeat.passed T slot now rescued = _ at all
    have missed : heartbeat.key x ∉ (heartbeat.passed T slot now rescued).map heartbeat.key :=
      key_not_passed distinct claim stale unrescued
    have keyed : heartbeat.key x ∈ rotate (T.cursors heartbeat slot)
        (heartbeat.scanKeys T slot now) :=
      mem_rotate.2 (mem_scanKeys.2 ⟨x, claim, scans_of_openStale claimed signs stale, rfl⟩)
    rw [all, candidates_heartbeat distinct] at missed
    have long : scanLimit < (rotate (T.cursors heartbeat slot)
        (heartbeat.scanKeys T slot now)).length := by
      refine not_le.1 fun short => missed ?_
      rwa [List.take_of_length_le short]
    have length : (heartbeat.candidates T slot now).length = scanLimit := by
      rw [← length_map heartbeat.key, candidates_heartbeat distinct, List.length_take,
        min_eq_left long.le]
    rw [all, length]
    exact min_le_right _ _
  · have candidate : c ∈ heartbeat.candidates T slot now := by
      rw [found]
      exact List.mem_append_right _ List.mem_cons_self
    have blocks : heartbeat.key c ∈ heartbeat.blocked T slot now rescued := by simpa using stops
    obtain ⟨-, open_, left⟩ := (mem_blocked distinct (candidate_scanned candidate).1).1 blocks
    exact (min_le_left _ _).trans (enough _ c after found open_ left)

/-- What a tick has passed is no longer ahead of an open claim. -/
theorem ahead_advance
    (some_ : heartbeat.passed T slot now rescued ≠ []) :
    ∃ next, heartbeat.advanceTarget T slot now rescued = some next ∧
      (heartbeat.passed T slot now rescued).length + ahead next (heartbeat.key x)
        ((T.slotClaims slot).map heartbeat.key) ≤ ahead (T.cursors heartbeat slot) (heartbeat.key x)
        ((T.slotClaims slot).map heartbeat.key) := by
  have claim := (mem_filter.1 claimed).1
  have ahead_ : heartbeat.key x ∉ (heartbeat.passed T slot now rescued).map heartbeat.key :=
    key_not_passed distinct claim stale unrescued
  have keyed : heartbeat.key x ∈ rotate (T.cursors heartbeat slot)
      (heartbeat.scanKeys T slot now) :=
    mem_rotate.2 (mem_scanKeys.2 ⟨x, claim, scans_of_openStale claimed signs stale, rfl⟩)
  have isPrefix : (heartbeat.passed T slot now rescued).map heartbeat.key <+:
      rotate (T.cursors heartbeat slot) (heartbeat.scanKeys T slot now) := by
    refine ((List.takeWhile_prefix _).map _).trans ?_
    rw [candidates_heartbeat distinct]
    exact List.take_prefix _ _
  obtain ⟨tail, rotation⟩ := isPrefix
  rw [← rotation] at keyed
  obtain ⟨last, moved⟩ : ∃ last, (heartbeat.passed T slot now rescued).getLast? = some last :=
    ⟨_, List.getLast?_eq_some_getLast some_⟩
  refine ⟨heartbeat.key last, by rw [advanceTarget_eq, moved]; rfl, ?_⟩
  have known : ∀ k ∈ (heartbeat.passed T slot now rescued).map heartbeat.key,
      k ∈ (T.slotClaims slot).map heartbeat.key := by
    intro k mem
    obtain ⟨c, passes, same⟩ := mem_map.1 mem
    obtain ⟨there, scanned⟩ := candidate_scanned (mem_of_passed passes)
    exact mem_map.2 ⟨c, mem_filter.2 ⟨there, (and_eq_true_iff.1 scanned).1⟩, same⟩
  have step := ahead_passed heartbeat.scanKeys_sorted heartbeat.scanKeys_nodup rotation
    (by rw [List.getLast?_map, moved]; rfl) ((mem_append.1 keyed).resolve_left ahead_) known
  rwa [length_map] at step

end

end

end RescueKind

namespace AttemptTables
variable {T : AttemptTables} {slot now : Nat} {found : List ReceiptClaim} {c : ReceiptClaim}

theorem ledgerClosed_rescue :
      (T.rescue slot now found).ledgerClosed c = true ↔ T.ledgerClosed c = true ∨
      ∃ f ∈ found, if f.isCompact then f.receiptId = c.receiptId else f.closure = c.closure := by
  have closures : c.closure ∈ (T.rescue slot now found).closures ↔
      c.closure ∈ T.closures ∨ ∃ f ∈ found, f.isCompact = false ∧ f.closure = c.closure := by
    by_cases before : c.closure ∈ T.closures
    · simp [rescue, apply, before]
    · simp [rescue, apply, AttemptWrites.addClosures, onConflictDoNothing, CloseForm.explicit,
        before, and_assoc]
  have receipts : (T.rescue slot now found).closedReceipts.any
      (fun e => e.receiptId = c.receiptId) = true ↔
      T.closedReceipts.any (fun e => e.receiptId = c.receiptId) = true ∨
        ∃ f ∈ found, f.isCompact = true ∧ f.receiptId = c.receiptId := by
    change (T.closedReceipts ++ (found.filter fun f => !CloseForm.slow.explicit f).map
      ReceiptClaim.closed).any _ = true ↔ _
    rw [any_append, or_eq_true]
    refine or_congr_right ?_
    simp only [List.any_eq_true, mem_map, mem_filter, decide_eq_true_eq]
    constructor
    · rintro ⟨_, ⟨f, ⟨mem, compact⟩, rfl⟩, same⟩
      exact ⟨f, mem, by simpa [CloseForm.explicit] using compact, same⟩
    · rintro ⟨f, mem, compact, same⟩
      exact ⟨f.closed, ⟨f, ⟨mem, by simp [CloseForm.explicit, compact]⟩, rfl⟩, same⟩
  rw [ledgerClosed, ledgerClosed, or_eq_true, or_eq_true, decide_eq_true_eq, decide_eq_true_eq,
    closures, receipts]
  constructor
  · rintro ((before | ⟨f, mem, row, same⟩) | before | ⟨f, mem, compact, same⟩)
    · exact .inl (.inl before)
    · exact .inr ⟨f, mem, by rwa [row]⟩
    · exact .inl (.inr before)
    · exact .inr ⟨f, mem, by rwa [if_pos compact]⟩
  · rintro ((before | before) | ⟨f, mem, same⟩)
    · exact .inl (.inl before)
    · exact .inr (.inl before)
    · split at same
      · exact .inr (.inr ⟨f, mem, ‹_›, same⟩)
      · exact .inl (.inr ⟨f, mem, eq_false_iff.2 ‹_›, same⟩)

theorem rescue_slotClaims : (T.rescue slot now found).slotClaims slot = T.slotClaims slot := rfl

theorem rescue_lastSign : (T.rescue slot now found).lastSign c = T.lastSign c := by
  simp [lastSign, rescue, apply, AttemptWrites.addClosures]

theorem rescue_cursor {next : ScanKey} (moved : RescueKind.heartbeat.advanceTarget T slot now
    found = some next) : (T.rescue slot now found).cursors .heartbeat slot = next := by
  simp [rescue, apply, moved, setCursor]

end AttemptTables

variable {sweep : SlotSweep} {skipped : List Attempt}

theorem SlotState.mem_found (mem : c ∈ s.found slot sweep skipped) :
    c ∈ s.tables.slotClaims slot ∧ s.tables.openStale sweep.now c = true ∧
      c.attempt ∈ sweep.locked := by
  obtain ⟨chosen, locked⟩ := mem_filter.1 mem
  obtain ⟨candidate, stale⟩ := mem_filter.1 (List.mem_of_mem_take chosen)
  obtain ⟨claimed, scanned⟩ := RescueKind.candidate_scanned candidate
  have inSlot := (and_eq_true_iff.1 scanned).1
  refine ⟨mem_filter.2 ⟨claimed, inSlot⟩, stale, ?_⟩
  simpa using (and_eq_true_iff.1 locked).1

/-- What holds after any steps: no two claims share an attempt or a receipt, and what ticks closed
is closed. -/
structure SlotOk (s : SlotState) : Prop where
  attempts : (s.tables.claims.map ReceiptClaim.attempt).Nodup
  receipts : (s.tables.claims.map ReceiptClaim.receiptId).Nodup
  signs : ∀ c ∈ s.tables.claims, c.claimedAt ≤ s.tables.lastSign c
  closed : ∀ c ∈ s.rescued, s.tables.ledgerClosed c = true

theorem SlotOk.of_kept (ok : SlotOk s) (kept : Kept s.tables T) :
    SlotOk { s with tables := T } where
  attempts := by
    rw [kept.claims]
    exact ok.attempts
  receipts := by
    rw [kept.claims]
    exact ok.receipts
  signs := by
    intro c mem
    rw [kept.claims] at mem
    exact kept.signs c mem (ok.signs c mem)
  closed c mem := kept.closed c (ok.closed c mem)

theorem slotOk_step (ok : SlotOk s) (effect : SlotEffect slot s op s') : SlotOk s' := by
  cases effect with
  | other kept fewer => exact ok.of_kept kept
  | scan idle | abort => exact { ok with }
  | decide running =>
    refine ⟨ok.attempts, ok.receipts, ?_, ?_⟩
    · intro c mem
      rw [rescue_lastSign]
      exact ok.signs c mem
    · intro c mem
      rw [ledgerClosed_rescue]
      rcases mem_append.1 mem with before | new
      · exact .inl (ok.closed c before)
      · exact .inr ⟨c, new, by split <;> rfl⟩

theorem slotOk_reachable {ok : SlotOp → SlotState → Prop}
    (reached : (slotMachine slot).Reachable ok s) : SlotOk s := by
  refine reached.invariant ?_ ?_
  · rintro s ⟨attempts, receipts, signs, -, nothing, -⟩
    refine ⟨attempts, receipts, signs, ?_⟩
    rw [nothing]
    exact List.forall_mem_nil _
  · intro op s s' _ inv _ step
    exact slotOk_step inv (slotStep_effect step)

theorem SlotOk.mem_found_of_closed (ok : SlotOk s) (claimed : c ∈ s.tables.claims)
    (closed : (s.tables.rescue slot sweep.now (s.found slot sweep skipped)).ledgerClosed c = true) :
    s.tables.ledgerClosed c = true ∨ c ∈ s.found slot sweep skipped := by
  refine (ledgerClosed_rescue.1 closed).imp_right ?_
  rintro ⟨f, mem, same⟩
  have there := (mem_filter.1 (SlotState.mem_found mem).1).1
  have here : f = c := by
    split at same
    · exact List.inj_on_of_nodup_map ok.receipts there claimed same
    · exact List.inj_on_of_nodup_map ok.attempts there claimed
        (congrArg ReceiptClosure.attempt same)
  exact here ▸ mem

/-- A tick between its statements has the lock of every open candidate, unless enough candidates
come before it. -/
def SweepOk (slot least : Nat) (s : SlotState) : Prop :=
  ∀ sweep, s.sweep = some sweep → least ≤ sweep.limit ∧
    ∀ before c after, RescueKind.heartbeat.candidates s.tables slot sweep.now =
      before ++ c :: after →
      s.tables.openStale sweep.now c = true → c.attempt ∈ sweep.locked ∨ sweep.limit ≤ before.length

def Covered (slot least : Nat) (x : ReceiptClaim) (s : SlotState) : Prop :=
  x ∈ s.tables.slotClaims slot → x ∈ s.rescued ∨
    s.ticks * min least RescueKind.scanLimit + ahead (s.tables.cursors .heartbeat slot)
      (RescueKind.heartbeat.key x)
      ((s.tables.slotClaims slot).map RescueKind.heartbeat.key) ≤ (s.tables.slotClaims slot).length

theorem AttemptTables.Kept.candidates (kept : Kept T T') (kind : RescueKind) (slot now : Nat) :
    kind.candidates T' slot now = kind.candidates T slot now := by
  unfold RescueKind.candidates
  rw [kept.claims, kept.cursors]

theorem AttemptTables.Kept.slotClaims (kept : Kept T T') (slot : Nat) :
    T'.slotClaims slot = T.slotClaims slot := by
  rw [AttemptTables.slotClaims, kept.claims, AttemptTables.slotClaims]

section
variable {slot least : Nat} {x : ReceiptClaim} {op : SlotOp} {s s' : SlotState}

theorem sweepOk_step (inv : SweepOk slot least s) (calm : undisturbed least x op s)
    (effect : SlotEffect slot s op s') : SweepOk slot least s' := by
  cases effect with
  | other kept fewer =>
    intro sweep running
    obtain ⟨bound, holds⟩ := inv sweep running
    refine ⟨bound, ?_⟩
    intro before c after split stale
    rw [kept.candidates] at split
    have candidate : c ∈ RescueKind.heartbeat.candidates s.tables slot sweep.now := by
      rw [split]
      exact List.mem_append_right _ List.mem_cons_self
    have still : Fewer s.tables _ := (fewer least x calm).resolve_left
      fun none => by cases none.symm.trans running
    exact holds before c after split (still c (RescueKind.candidate_scanned candidate).1 _ stale)
  | @scan now limit busy idle =>
    obtain ⟨bound, rfl, -⟩ := calm
    intro sweep running
    cases running
    refine ⟨bound, ?_⟩
    intro before c after split stale
    refine (mem_take_filter before after stale limit).imp_left ?_
    intro chosen
    rw [← split] at chosen
    exact mem_filter.2 ⟨List.mem_map_of_mem chosen, rfl⟩
  | decide running | abort =>
    intro sweep none
    cases none

theorem covered_step (positive : 0 < least) (ok : SlotOk s) (sweeping : SweepOk slot least s)
    (inv : Covered slot least x s) (calm : undisturbed least x op s)
    (effect : SlotEffect slot s op s') : Covered slot least x s' := by
  cases effect with
  | other kept fewer =>
    unfold Covered
    rw [kept.slotClaims, kept.cursors]
    exact inv
  | scan idle | abort => exact inv
  | @decide skipped sweep running =>
    intro claimed
    obtain ⟨rfl, stale⟩ := calm
    by_cases taken : x ∈ s.rescued ++ s.found slot sweep []
    · exact .inl taken
    have missed := not_or.1 (mem_append.not.1 taken)
    have stale' := (stale.resolve_left missed.1) sweep running
    have signs := ok.signs x (mem_filter.1 claimed).1
    obtain ⟨bound, holds⟩ := sweeping sweep running
    have enough : ∀ before c after, RescueKind.heartbeat.candidates s.tables slot sweep.now =
        before ++ c :: after → s.tables.openStale sweep.now c = true → c ∉ s.found slot sweep [] →
          least ≤ before.length := by
      intro before c after split open_ unfound
      refine bound.trans ?_
      refine (holds before c after split open_).elim ?_ id
      intro locked
      refine (mem_take_filter before after open_ sweep.limit).resolve_left ?_
      intro chosen
      rw [← split] at chosen
      exact unfound (mem_filter.2 ⟨chosen, by simpa using locked⟩)
    have share := RescueKind.le_passed_length ok.attempts claimed signs stale' missed.2 enough
    have some_ : RescueKind.heartbeat.passed s.tables slot sweep.now
        (s.found slot sweep []) ≠ [] := by
      intro none
      rw [none] at share
      have zero := le_antisymm share (Nat.zero_le _)
      exact absurd zero (lt_min positive (by decide)).ne'
    obtain ⟨next, moved, less⟩ := RescueKind.ahead_advance ok.attempts claimed signs stale'
      missed.2 some_
    refine .inr ?_
    have before := (inv claimed).resolve_left missed.1
    simp only [rescue_slotClaims, rescue_cursor moved]
    calc (s.ticks + 1) * min least RescueKind.scanLimit + ahead next _ _
        = s.ticks * min least RescueKind.scanLimit +
            (min least RescueKind.scanLimit + ahead next _ _) := by
          rw [Nat.add_mul, Nat.one_mul, Nat.add_assoc]
      _ ≤ s.ticks * min least RescueKind.scanLimit + ahead (s.tables.cursors .heartbeat slot) _ _ :=
          Nat.add_le_add_left ((Nat.add_le_add_right share _).trans less) _
      _ ≤ (s.tables.slotClaims slot).length := before

theorem sweepOk_reachable (reached : (slotMachine slot).Reachable (undisturbed least x) s) :
    SweepOk slot least s := by
  refine reached.invariant ?_ ?_
  · rintro s ⟨-, -, -, idle, -, -⟩ sweep running
    cases idle.symm.trans running
  · intro op s s' _ inv calm step
    exact sweepOk_step inv calm (slotStep_effect step)

theorem covered_reachable (positive : 0 < least)
    (reached : (slotMachine slot).Reachable (undisturbed least x) s) : Covered slot least x s := by
  refine reached.invariant ?_ ?_
  · rintro s ⟨-, -, -, -, -, zero⟩ claimed
    refine .inr ?_
    rw [zero, Nat.zero_mul, Nat.zero_add]
    exact ahead_le.trans_eq (length_map _)
  · intro op s s' before inv calm step
    exact covered_step positive (slotOk_reachable before) (sweepOk_reachable before) inv calm
      (slotStep_effect step)

end

/-- A tick closes claims of its slot that are open, stale and not lease managed when it decides,
with their locks held; and left undisturbed, ticks that each may rescue `least` claims rescue a
claim that stays open and stale once their shares add up to the claims of the slot. -/
theorem stale_sweep_covers_slot (slot : Nat) :
    (∀ s, (slotMachine slot).Reachable Machine.Always s →
      ∀ skipped s', slotStep slot (.decide skipped) s = some s' →
      ∀ c ∈ s.tables.claims, s'.tables.ledgerClosed c = true → s.tables.ledgerClosed c = true ∨
        ∃ sweep, s.sweep = some sweep ∧ c.claimSlot = slot ∧ c.attempt ∈ sweep.locked ∧
          s.tables.closedEvidence c = false ∧ s.tables.leaseManaged c.attempt = false ∧
    s.tables.lastSign c < sweep.now) ∧ ∀ least x s, (slotMachine slot).Reachable
      (undisturbed least x) s → x ∈ s.tables.slotClaims slot →
      (s.tables.slotClaims slot).length ≤ s.ticks * min least RescueKind.scanLimit →
        x ∈ s.rescued ∧ s.tables.ledgerClosed x = true := by
  refine ⟨?_, ?_⟩
  · intro s reached skipped s' stepped c claimed closed
    obtain ⟨sweep, running, rfl⟩ := Option.map_eq_some_iff.1 stepped
    refine ((slotOk_reachable reached).mem_found_of_closed claimed closed).imp_right ?_
    intro found
    obtain ⟨inSlot, stale, locked⟩ := SlotState.mem_found found
    exact ⟨sweep, running, of_decide_eq_true (mem_filter.1 inSlot).2, locked, openStale_iff.1 stale⟩
  · intro least x s reached claimed enough
    have positive : 0 < least := by
      refine Nat.pos_of_ne_zero ?_
      rintro rfl
      rw [Nat.zero_min, Nat.mul_zero] at enough
      exact absurd (List.length_pos_of_mem claimed) (not_lt.2 enough)
    have rescued : x ∈ s.rescued := by
      refine (covered_reachable positive reached claimed).resolve_right ?_
      have left : 0 < ahead (s.tables.cursors .heartbeat slot) (RescueKind.heartbeat.key x)
          ((s.tables.slotClaims slot).map RescueKind.heartbeat.key) :=
            ahead_pos (List.mem_map_of_mem claimed)
      omega
    exact ⟨rescued, (slotOk_reachable reached).closed x rescued⟩

theorem stale_sweep_covers_slot_three :
    ∃ s, (slotMachine 0).Reachable (undisturbed 1 ⟨⟨1, 1⟩, 1, 0, none, ⟨0, 0⟩, 1, none⟩) s ∧
      (s.tables.slotClaims 0).length ≤ s.ticks * min 1 RescueKind.scanLimit ∧
        (⟨⟨1, 1⟩, 1, 0, none, ⟨0, 0⟩, 1, none⟩ : ReceiptClaim) ∈ s.rescued := by
  -- The cursor stands behind the first claim; the second is lease managed, and the third has to be
  -- rescued before the wrap.
  obtain ⟨s, reached, claimed, enough⟩ := Machine.reachable_of_run (slotMachine 0)
    (undisturbed 1 ⟨⟨1, 1⟩, 1, 0, none, ⟨0, 0⟩, 1, none⟩)
    [.scan 9 1 [], .decide [], .scan 9 1 [], .close (.successor ⟨⟨2, 1⟩, .done⟩), .decide [],
      .scan 9 1 [], .decide []]
    (s := ⟨⟨[⟨⟨1, 1⟩, 1, 0, none, ⟨0, 0⟩, 1, none⟩, ⟨⟨2, 1⟩, 2, 0, some 4, ⟨0, 0⟩, 2, none⟩,
      ⟨⟨3, 1⟩, 3, 0, some 4, ⟨0, 0⟩, 3, none⟩], [], [], [⟨⟨2, 1⟩, ⟨0, 0⟩⟩], [], [], fun _ _ =>
        ⟨1, 1, 1⟩⟩, none, [], 0⟩)
    (fun s => (⟨⟨1, 1⟩, 1, 0, none, ⟨0, 0⟩, 1, none⟩ : ReceiptClaim) ∈ s.tables.slotClaims 0 ∧
      (s.tables.slotClaims 0).length ≤ s.ticks * min 1 RescueKind.scanLimit)
    ⟨by decide, by decide, by decide, rfl, rfl, rfl⟩ (by decide)
  exact ⟨s, reached, enough, ((stale_sweep_covers_slot 0).2 1 _ s reached claimed enough).1⟩

end AwaQueue
