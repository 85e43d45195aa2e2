import AwaQueue.Lane.Tables
import AwaQueue.Library.Machine
import Mathlib.Data.List.MinMax
import Mathlib.Logic.Function.Basic

/-! The cursor of one storage ring and the transactions that move it, one SQL statement a step.

The cursor has two representations: the columns of `{ring}_ring_state`, which binaries before the
ledger update in place, and the append-only `{ring}_ring_rotations`. The authority row says which
one counts; `flip_ring_authority` moves it from the columns to the ledger, once. -/

namespace AwaQueue
open Library

inductive RingAuthority where
  | columns
  | ledger
deriving DecidableEq

/-- `current_slot` and `generation` of the singleton; the flip stores -1 in both. -/
structure RingColumns where
  slot : Int
  generation : Int
deriving DecidableEq

def RingColumns.poisoned : RingColumns := ⟨-1, -1⟩

structure RingRotation where
  generation : Nat
  slot : Nat
deriving DecidableEq

/-- The rotators: a binary that knows only the columns, and the two modes of one that knows both. -/
inductive Rotator where
  | preLedger
  | compat
  | ledger
deriving DecidableEq

inductive RingPhase where
  | idle
  | began
  /-- It read `columns` and waits for the singleton row. -/
  | sawColumns
  /-- It holds the singleton row and has to read the authority again. -/
  | locked
  /-- It read `ledger` and tries the advisory lock. -/
  | sawLedger
  | serialized (authority : RingAuthority)
  | sawColumnCursor (slot generation : Int)
  | sawLedgerCursor (slot generation : Nat)
  /-- The columns are updated, the shadow ledger is not yet reconciled. -/
  | advanced (slot generation : Int)
  | shadowed (slot generation : Int) (rows : List RingRotation)
  | appended (row : RingRotation)
  /-- A rotator of a binary before the ledger. -/
  | preRead (slot generation : Int)
  | preUpdated (slot generation : Int)
  | flipLocked
  /-- The ledger rows the flip inserts; the poisoned columns and the authority follow at once. -/
  | flipping (rows : List RingRotation)
  /-- A fold that deletes the rows below a generation. -/
  | folding (below : Nat)
deriving DecidableEq

structure RingState where
  authority : RingAuthority
  columns : RingColumns
  ledger : List RingRotation
  rowLock : Option TxId
  /-- `pg_try_advisory_xact_lock` on the rotation lock of the ring. -/
  advisory : Option TxId
  tx : TxId → RingPhase
  /-- The generation of the cursor when the ledger was installed; no statement reads it. -/
  base : Nat
  /-- The committed rotations in commit order; no statement reads it. -/
  rotated : List (Nat × Rotator)

def lastRotation (ledger : List RingRotation) : Option RingRotation :=
  ledger.argmax RingRotation.generation

/-- The rows that bring the ledger up to a generation: `generate_series(max(generation) + 1,
generation)`. -/
def missingRotations (slotCount : Nat) (ledger : List RingRotation) (generation : Int) :
    List RingRotation :=
  let first := ((lastRotation ledger).map fun row => row.generation + 1).getD 0
  (List.range' first (generation.toNat + 1 - first)).map fun g => ⟨g, g % slotCount⟩

def insertRotations (ledger rows : List RingRotation) : List RingRotation :=
  ledger ++ rows.filter fun row => row.generation ∉ ledger.map RingRotation.generation

def RingState.cursor (s : RingState) : Option RingColumns :=
  match s.authority with
  | .columns => some s.columns
  | .ledger => (lastRotation s.ledger).map fun row => ⟨row.slot, row.generation⟩

namespace RingState
variable (s : RingState)

def setTx (t : TxId) (phase : RingPhase) : RingState :=
  { s with tx := Function.update s.tx t phase }

def finish (t : TxId) : RingState :=
  { s.setTx t .idle with
    rowLock := if s.rowLock = some t then none else s.rowLock
    advisory := if s.advisory = some t then none else s.advisory }

end RingState

/-- What a commit makes visible. A transaction that has written nothing only ends: a tick that was
skipped by a gate, or a lost race. -/
def commitRing (s : RingState) (t : TxId) : RingState :=
  match s.tx t with
  | .shadowed slot generation rows =>
    { s.finish t with
      columns := ⟨slot, generation⟩, ledger := insertRotations s.ledger rows
      rotated := s.rotated ++ [(generation.toNat, .compat)] }
  | .appended row =>
    { s.finish t with
      ledger := insertRotations s.ledger [row], rotated :=
        s.rotated ++ [(row.generation, .ledger)] }
  | .preUpdated slot generation =>
    { s.finish t with
      columns := ⟨slot, generation⟩, rotated := s.rotated ++ [(generation.toNat, .preLedger)] }
  | .flipping rows =>
    { s.finish t with
      authority := .ledger, columns := .poisoned, ledger := insertRotations s.ledger rows }
  | .folding below =>
    { s.finish t with ledger := s.ledger.filter fun row => below ≤ row.generation }
  | _ => s.finish t

def reconcile (slotCount : Nat) (s : RingState) : Option (List RingRotation) :=
  let rows := missingRotations slotCount s.ledger s.columns.generation
  if 0 ≤ s.columns.generation ∧ 0 ≤ s.columns.slot ∧ s.columns.slot < slotCount ∧
      s.columns.slot = s.columns.generation % slotCount ∧
      (∀ row ∈ lastRotation s.ledger, (row.generation : Int) ≤ s.columns.generation) ∧
      (lastRotation (insertRotations s.ledger rows)).map
        (fun row => (⟨row.slot, row.generation⟩ : RingColumns)) = some s.columns then some rows
  else none

inductive RingOp where
  | begin (t : TxId)
  | readAuthority (t : TxId)
  | lockRow (t : TxId)
  | tryAdvisory (t : TxId)
  | readCursor (t : TxId)
  /-- The first statement of `append_ring_rotation_tx`: the insert or the update of the columns. -/
  | append (t : TxId)
  | shadow (t : TxId)
  | preRead (t : TxId)
  | preUpdate (t : TxId)
  | flipLock (t : TxId)
  | flip (t : TxId)
  | fold (t : TxId)
  | commit (t : TxId)
  | abort (t : TxId)

/-- One statement. An `UPDATE` of the columns under ledger authority is rejected by the trigger,
which aborts its transaction. -/
def ringStep (slotCount : Nat) (op : RingOp) (s : RingState) : Option RingState :=
  match op with
  | .begin t => if s.tx t = .idle then some (s.setTx t .began) else none
  | .readAuthority t =>
    match s.tx t, s.authority with
    | .began, .columns => some (s.setTx t .sawColumns)
    | .locked, .columns => some (s.setTx t (.serialized .columns))
    | .began, .ledger | .locked, .ledger => some (s.setTx t .sawLedger)
    | _, _ => none
  | .lockRow t =>
    if s.tx t = .sawColumns ∧ s.rowLock = none then
      some { s.setTx t .locked with rowLock := some t } else none
  | .tryAdvisory t =>
    if s.tx t = .sawLedger then
      if s.advisory = none then some { s.setTx t (.serialized .ledger) with advisory := some t }
      else some (s.finish t)
    else none
  | .readCursor t =>
    match s.tx t with
    | .serialized .columns =>
      some (s.setTx t (.sawColumnCursor s.columns.slot s.columns.generation))
    | .serialized .ledger =>
      (lastRotation s.ledger).map fun row => s.setTx t (.sawLedgerCursor row.slot row.generation)
    | _ => none
  | .append t =>
    match s.tx t with
    | .sawLedgerCursor slot generation =>
      if generation + 1 ∈ s.ledger.map RingRotation.generation then some (s.finish t)
      else some (s.setTx t (.appended ⟨generation + 1, (slot + 1) % slotCount⟩))
    | .sawColumnCursor slot generation =>
      if s.columns.generation = generation then
        if s.authority = .ledger then some (s.finish t)
        else some (s.setTx t (.advanced ((slot + 1) % slotCount) (generation + 1)))
      else some (s.finish t)
    | _ => none
  | .shadow t =>
    match s.tx t with
    | .advanced slot generation =>
      some (s.setTx t (.shadowed slot generation (missingRotations slotCount s.ledger generation)))
    | _ => none
  | .preRead t =>
    if s.tx t = .idle then some (s.setTx t (.preRead s.columns.slot s.columns.generation)) else none
  | .preUpdate t =>
    match s.tx t with
    | .preRead slot generation =>
      if s.rowLock = none then
        if s.columns.generation = generation then
          if s.authority = .ledger then some (s.finish t)
          else some { s.setTx t (.preUpdated ((slot + 1) % slotCount) (generation + 1)) with
            rowLock := some t }
        else some (s.finish t)
      else none
    | _ => none
  | .flipLock t =>
    if s.tx t = .idle ∧ s.rowLock = none then some { s.setTx t .flipLocked with rowLock := some t }
      else none
  | .flip t =>
    if s.tx t = .flipLocked then
      match s.authority, reconcile slotCount s with
      | .columns, some rows => some (s.setTx t (.flipping rows))
      | _, _ => some (s.finish t)
    else none
  | .fold t =>
    if s.tx t = .idle then
      (lastRotation s.ledger).map fun row => s.setTx t (.folding (row.generation - (slotCount - 1)))
    else none
  | .commit t => some (commitRing s t)
  | .abort t => some (s.finish t)

/-- A fresh schema starts under ledger authority with poisoned columns. -/
def RingState.fresh : RingState where
  authority := .ledger
  columns := .poisoned
  ledger := [⟨0, 0⟩]
  rowLock := none
  advisory := none
  tx := fun _ => .idle
  base := 0
  rotated := []

/-- An upgraded schema keeps its columns; the new ledger gets the genesis row and the current one.
-/
def RingState.upgraded (slotCount generation : Nat) : RingState where
  authority := .columns
  columns := ⟨(generation % slotCount : Nat), generation⟩
  ledger := insertRotations [⟨0, 0⟩] [⟨generation, generation % slotCount⟩]
  rowLock := none
  advisory := none
  tx := fun _ => .idle
  base := generation
  rotated := []

def ringMachine (slotCount : Nat) : Machine RingState RingOp :=
  ⟨fun s => s = .fresh ∨ ∃ generation, s = .upgraded slotCount generation, ringStep slotCount⟩

end AwaQueue
