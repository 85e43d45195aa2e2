import AwaQueue.Attempt.Protocol
import AwaQueue.Library.Tally

/-! The attempt invariant. The right to close an attempt belongs to one transaction at a
time: the holder of the advisory lock while there is no lease, the deleter of the lease while
there is one. -/

namespace AwaQueue
open Library

structure LedgerOk (T : AttemptTables) : Prop where
  attempts : (T.claims.map ReceiptClaim.attempt).Nodup
  receipts : (T.claims.map ReceiptClaim.receiptId).Nodup
  closures : T.closures.Nodup
  closureOwner : ∀ k ∈ T.closures, ∃ c ∈ T.claims, c.closure = k ∧ c.isCompact = false
  receiptOwner : ∀ e ∈ T.closedReceipts, ∃ c ∈ T.claims, c.closed = e
  once : ∀ c ∈ T.claims, T.closeCount c ≤ 1

def AttemptTables.leased (T : AttemptTables) : List Attempt := T.leases.map LeaseRow.attempt

def AttemptState.ended (s : AttemptState) : List Attempt := s.settled.map SuccessorRow.attempt

def AttemptWrites.closeCount (w : AttemptWrites) (c : ReceiptClaim) : Nat :=
  w.closures.count c.closure + w.closedReceipts.countP fun e => e.receiptId = c.receiptId

def Counted (T : AttemptTables) (count : ReceiptClaim → Nat) (a : Attempt) (n : Nat) : Prop :=
  ∀ c ∈ T.claims, c.attempt = a → count c = n

structure Unclosed (s : AttemptState) (a : Attempt) : Prop where
  emitted : a ∈ s.emitted
  unsettled : a ∉ s.ended
  open_ : Counted s.tables s.tables.closeCount a 0

def Held (s : AttemptState) (t : TxId) (a : Attempt) : Prop :=
  s.attemptLock a = some t ∧ a ∉ s.tables.leased ∨ s.leaseLock a = some t ∧ a ∈ s.tables.leased

/-- The lock and ordering discipline of a closing script: a receipt is closed under the
attempt lock and not while the closure of a deleted lease is owed, successors are written when
nothing is owed, and at the end nothing is owed and every attempt taken is settled. -/
def disciplined (locked : List Attempt) (owing settling : Bool) : List AttemptStmt → Bool
  | [] => !owing && !settling
  | .lockAttempts attempts :: rest => disciplined (locked ++ attempts) owing settling rest
  | .closeReceipts _ targets :: rest =>
    !owing && (targets.all fun target => target.attempt ∈ locked) &&
      decide (targets.map CloseTarget.attempt).Nodup && disciplined locked owing true rest
  | .scanReceipts .. :: rest => disciplined locked owing settling rest
  | .closeScanned .. :: rest => disciplined locked owing true rest
  | .deleteLeases .. :: rest => disciplined locked true true rest
  | .closeReceiptPairs _ :: rest => disciplined locked false settling rest
  | .insertSuccessors .. :: rest => !owing && disciplined locked owing false rest

structure ScriptOk (s : AttemptState) (t : TxId) (x : Closer) (locked : List Attempt)
    (owing settling : Bool) : Prop where
  typed : disciplined locked owing settling x.script = true
  locked : ∀ a ∈ locked, s.attemptLock a = some t
  owing : owing = false → ∀ a ∈ x.writes.deletedLeases, Counted s.tables x.writes.closeCount a 1
  settling : settling = false → x.unsettled = []

structure ClosuresOk (T : AttemptTables) (w : AttemptWrites) : Prop where
  nodup : w.closures.Nodup
  closureOwner : ∀ k ∈ w.closures, ∃ c ∈ T.claims, c.closure = k ∧ c.isCompact = false ∧
    c.attempt ∈ w.won
  receiptOwner : ∀ e ∈ w.closedReceipts, ∃ c ∈ T.claims, c.closed = e ∧ c.attempt ∈ w.won
  once : ∀ c ∈ T.claims, w.closeCount c ≤ 1

structure WritesOk (s : AttemptState) (t : TxId) (x : Closer) : Prop where
  scanned : ∀ a ∈ x.scanned, s.attemptLock a = some t
  won : ∀ a ∈ x.writes.won, Unclosed s a
  deleted : ∀ a ∈ x.writes.deletedLeases, a ∈ x.writes.won ∧ s.leaseLock a = some t ∧
    a ∈ s.tables.leased
  deletedNodup : x.writes.deletedLeases.Nodup
  receipt : ∀ a ∈ x.writes.won, a ∉ x.writes.deletedLeases →
    s.attemptLock a = some t ∧ a ∉ s.tables.leased ∧ Counted s.tables x.writes.closeCount a 1
  closures : ClosuresOk s.tables x.writes
  /-- The receipt of a deleted lease is closed in the form `hydrate_deleted_leases_tx` uses. -/
  explicit : ∀ c ∈ s.tables.claims, c.attempt ∈ x.writes.deletedLeases → c.isCompact = false →
    ∀ e ∈ x.writes.closedReceipts, e.receiptId ≠ c.receiptId
  leases : x.writes.leases = []
  cleared : ∀ a ∈ x.writes.clearedState, a ∈ x.writes.won
  children : ∀ c ∈ s.tables.claims, 0 < x.writes.closeCount c → (t, c.claimSlot) ∈ s.childLocks
  unsettled : ∀ a ∈ x.unsettled, a ∈ x.writes.won
  successors : ∀ row ∈ x.writes.successors, row.attempt ∈ x.writes.won
  accounted : ∀ a ∈ x.writes.won, a ∈ x.unsettled ∨ a ∈ x.writes.successors.map SuccessorRow.attempt
  order : ∀ row ∈ x.writes.successors, Counted s.tables x.writes.closeCount row.attempt 1

structure CloserOk (s : AttemptState) (t : TxId) (x : Closer) : Prop extends WritesOk s t x where
  script : ∃ locked owing settling, ScriptOk s t x locked owing settling

def MaterializerOk (s : AttemptState) (t : TxId) : Materializer → Prop
  | .locking attempts => attempts.Nodup
  | .inserting attempts => attempts.Nodup ∧ ∀ a ∈ attempts, s.attemptLock a = some t
  | .inserted leases => (leases.map LeaseRow.attempt).Nodup ∧ ∀ a ∈ leases.map LeaseRow.attempt,
      s.attemptLock a = some t ∧ a ∉ s.tables.leased ∧ Unclosed s a

structure DataOk (s : AttemptState) : Prop where
  ledger : LedgerOk s.tables
  emitted : ∀ c ∈ s.tables.claims, c.attempt ∈ s.emitted
  numbered : ∀ c ∈ s.tables.claims, c.receiptId < s.nextReceipt
  leases : s.tables.leased.Nodup
  live : ∀ a ∈ s.tables.leased, Unclosed s a
  ended : ∀ a ∈ s.ended, a ∈ s.emitted ∧ Counted s.tables s.tables.closeCount a 1
  closed : ∀ c ∈ s.tables.claims, s.tables.closeCount c = 1 → c.attempt ∈ s.ended
  evidence : ∀ row ∈ s.tables.successors, row.attempt ∈ s.ended ∨ row.attempt ∉ s.emitted
  pruned : ∀ a ∈ s.pruned, a ∈ s.ended ∧ ∀ c ∈ s.tables.claims, c.attempt ≠ a

def TxOk (s : AttemptState) (t : TxId) : AttemptTx → Prop
  | .closer x => CloserOk s t x
  | .materializer m => MaterializerOk s t m

structure AttemptInv (s : AttemptState) : Prop extends DataOk s where
  running : ∀ t tx, s.tx t = some tx → TxOk s t tx

variable {s : AttemptState} {t : TxId}

theorem AttemptInv.closer {x : Closer} (inv : AttemptInv s) (running : s.tx t = some (.closer x)) :
    CloserOk s t x :=
  inv.running t _ running

theorem AttemptInv.materializer {m : Materializer} (inv : AttemptInv s)
    (running : s.tx t = some (.materializer m)) : MaterializerOk s t m :=
  inv.running t _ running

end AwaQueue
