import Mathlib.Data.List.Basic
import AwaQueue.Library.Machine

/-! The progress of one open attempt, between the worker's memory and the database.

The handler updates a buffer and counts its generations. `flush_progress` writes the latest value at
once; the heartbeat writes it in the background, one write at a time. Both overwrite the same row,
and a write that was sent may commit at any later time, or fail, or lose its connection and still
commit. While the handler waits for a callback the attempt is parked, and some writes then match no
row. -/

namespace AwaQueue

open Option List Library
variable {V : Type}

structure ProgressState (V : Type) where
  latest : Option V
  generation : Nat
  ackedGeneration : Nat
  inFlight : Option (Nat × V)

namespace ProgressState
variable (p : ProgressState V)

def hasPending : Bool := p.ackedGeneration < p.generation

def update (value : V) : ProgressState V :=
  { p with latest := some value, generation := p.generation + 1 }

def pendingSnapshot : Option (V × Nat) :=
  if p.generation ≤ p.ackedGeneration then none else p.latest.map fun value => (value, p.generation)

def ack (generation : Nat) : ProgressState V :=
  if p.ackedGeneration < generation then { p with ackedGeneration := generation } else p

def ackProgress (generation : Nat) : ProgressState V :=
  if p.inFlight.any fun entry => entry.1 = generation then
    { p with ackedGeneration := max p.ackedGeneration generation, inFlight := none }
  else p

def clearInFlight (generation : Nat) : ProgressState V :=
  if p.inFlight.any fun entry => entry.1 = generation then { p with inFlight := none } else p

end ProgressState

inductive Flusher where
  | flushProgress
  | heartbeat
deriving DecidableEq

/-- `RuntimeStorage::Canonical`, and queue storage with and without receipts. -/
inductive ProgressStorage where
  | canonical
  | receipts
  | leases
deriving DecidableEq

/-- Whether the write matches the row of an open attempt. An open receipt is found whatever the
state; the others ask for `running`, only the flush of a lease takes `waiting_external` too. -/
def ProgressStorage.finds : ProgressStorage → Flusher → (parked : Bool) → Bool
  | .receipts, _, _ | .leases, .flushProgress, _ => true
  | _, _, parked => !parked

/-- Where a write is: on its way, decided (`missed` is a commit that matched no row) with its
flusher waiting for the answer, or given up by a flusher that has lost the connection. -/
inductive WriteStatus where
  | sent
  | committed
  | missed
  | failed
  | adrift
deriving DecidableEq

structure ProgressWrite (V : Type) where
  flusher : Flusher
  generation : Nat
  value : V
  status : WriteStatus
deriving DecidableEq

structure FlushState (V : Type) where
  memory : ProgressState V
  durable : Option V
  /-- The state of the attempt is `waiting_external`. -/
  parked : Bool
  writes : List (ProgressWrite V)
  /-- The value of each generation; no step reads it. -/
  history : List (Option V)
  /-- The generation that the last commit wrote; no step reads it. -/
  durableGeneration : Nat
  /-- The generations for which `flush_progress` returned success; no step reads it. -/
  flushed : List Nat

def FlushState.initial (progress : Option V) : FlushState V :=
  ⟨⟨progress, 0, 0, none⟩, progress, false, [], [progress], 0, []⟩

inductive FlushOp (V : Type) where
  | update (value : V)
  | flushProgress
  | heartbeat
  /-- `wait_for_callback` and the resume of the handler. -/
  | park (parked : Bool)
  | commit (w : ProgressWrite V)
  | fail (w : ProgressWrite V)
  | disconnect (w : ProgressWrite V)
  | answer (w : ProgressWrite V)
deriving DecidableEq

namespace FlushState
variable [DecidableEq V] (s : FlushState V)

def setStatus (w : ProgressWrite V) (status : WriteStatus) : FlushState V :=
  { s with writes := s.writes.erase w ++ [{ w with status }] }

def drop (w : ProgressWrite V) : FlushState V := { s with writes := s.writes.erase w }

def send (flusher : Flusher) (generation : Nat) (value : V) : FlushState V :=
  { s with writes := s.writes ++ [⟨flusher, generation, value, .sent⟩] }

def store (w : ProgressWrite V) : FlushState V :=
  { s with durable := some w.value, durableGeneration := w.generation }

def succeeded (w : ProgressWrite V) : FlushState V :=
  match w.flusher with
  | .flushProgress =>
    { s with memory := s.memory.ack w.generation, flushed := s.flushed ++ [w.generation] }
  | .heartbeat => { s with memory := s.memory.ackProgress w.generation }

/-- The answer to a commit that matched no row: only the canonical `flush_progress` looks at
`rows_affected`. -/
def unmatched (w : ProgressWrite V) : FlushState V :=
  match w.flusher with
  | .flushProgress => { s with flushed := s.flushed ++ [w.generation] }
  | .heartbeat => { s with memory := s.memory.ackProgress w.generation }

def errored (w : ProgressWrite V) : FlushState V :=
  match w.flusher with
  | .flushProgress => s
  | .heartbeat => { s with memory := s.memory.clearInFlight w.generation }

end FlushState

def flushStep [DecidableEq V] (storage : ProgressStorage) (op : FlushOp V) (s : FlushState V) :
    Option (FlushState V) :=
  match op with
  | .update value =>
    some { s with memory := s.memory.update value, history := s.history ++ [some value] }
  | .flushProgress =>
    match s.memory.pendingSnapshot with
    | some (value, generation) => some (s.send .flushProgress generation value)
    | none => some { s with flushed := s.flushed ++ [s.memory.generation] }
  | .heartbeat =>
    if s.memory.hasPending && s.memory.inFlight.isNone then
      s.memory.latest.map fun value =>
        { s with memory := { s.memory with inFlight := some (s.memory.generation, value) } }.send
          .heartbeat s.memory.generation value
    else none
  | .park parked => some { s with parked }
  | .commit w =>
    let found := storage.finds w.flusher s.parked
    if w ∈ s.writes then
      match w.status with
      | .sent => some (if found then (s.store w).setStatus w .committed else s.setStatus w .missed)
      | .adrift => some (if found then (s.store w).drop w else s.drop w)
      | .committed | .missed | .failed => none
    else none
  | .fail w =>
    if w ∈ s.writes then
      match w.status with
      | .sent => some (s.setStatus w .failed)
      | .adrift => some (s.drop w)
      | .committed | .missed | .failed => none
    else none
  | .disconnect w =>
    if w ∈ s.writes then
      match w.status with
      | .sent => some ((s.errored w).setStatus w .adrift)
      | .committed | .missed => some ((s.errored w).drop w)
      | .failed | .adrift => none
    else none
  | .answer w =>
    if w ∈ s.writes then
      match w.status with
      | .committed => some ((s.succeeded w).drop w)
      | .missed => some ((s.unmatched w).drop w)
      | .failed => some ((s.errored w).drop w)
      | .sent | .adrift => none
    else none

def flushMachine (V : Type) [DecidableEq V] (storage : ProgressStorage) :
    Machine (FlushState V) (FlushOp V) :=
  ⟨fun s => ∃ progress, s = .initial progress, flushStep storage⟩

/-- A write begins while no other is in flight, and finds the row of the attempt unless its flusher
has given it up. -/
def FlushOp.orderly (storage : ProgressStorage) (s : FlushState V) : FlushOp V → Bool
  | .flushProgress | .heartbeat => s.writes.isEmpty || !s.memory.hasPending
  | .commit w => w.status = .adrift || storage.finds w.flusher s.parked
  | _ => true

structure FlushInv (s : FlushState V) : Prop where
  length : s.history.length = s.memory.generation + 1
  latest : s.history[s.memory.generation]? = some s.memory.latest
  known : 0 < s.memory.generation → s.memory.latest.isSome = true
  stored : s.history[s.durableGeneration]? = some s.durable
  acked : s.memory.ackedGeneration ≤ s.durableGeneration
  single : ∀ w ∈ s.writes, s.writes = [w]
  value : ∀ w ∈ s.writes, s.history[w.generation]? = some (some w.value)
  newer : ∀ w ∈ s.writes, s.durableGeneration ≤ w.generation
  committed : ∀ w ∈ s.writes, w.status = .committed → s.durableGeneration = w.generation
  found : ∀ w ∈ s.writes, w.status ≠ .missed
  flushed : ∀ g ∈ s.flushed, g ≤ s.durableGeneration

theorem getElem?_append_of_some {xs ys : List V} {i : Nat} {x : V} (found : xs[i]? = some x) :
    (xs ++ ys)[i]? = some x := by
  obtain ⟨inside, -⟩ := List.getElem?_eq_some_iff.1 found
  rw [List.getElem?_append_left inside, found]

theorem pendingSnapshot_eq_some {p : ProgressState V} {value : V} {generation : Nat}
    (taken : p.pendingSnapshot = some (value, generation)) :
    p.hasPending = true ∧ p.latest = some value ∧ p.generation = generation := by
  unfold ProgressState.pendingSnapshot at taken
  obtain ⟨pending, rest⟩ := ite_none_left_eq_some.1 taken
  obtain ⟨latest, known, same⟩ := map_eq_some_iff.1 rest
  cases same
  exact ⟨decide_eq_true (by omega), known, rfl⟩

namespace FlushInv
variable {s : FlushState V} {w : ProgressWrite V}

/-- The database is never ahead of the handler. -/
theorem durable_le (inv : FlushInv s) : s.durableGeneration ≤ s.memory.generation := by
  obtain ⟨inside, -⟩ := List.getElem?_eq_some_iff.1 inv.stored
  have length := inv.length
  omega

theorem le_acked (inv : FlushInv s) (nothing : s.memory.pendingSnapshot = none) :
    s.memory.generation ≤ s.memory.ackedGeneration := by
  by_contra pending
  unfold ProgressState.pendingSnapshot at nothing
  rw [if_neg pending, map_eq_none_iff] at nothing
  have known := inv.known (by omega)
  rw [nothing] at known
  cases known

theorem initial (progress : Option V) : FlushInv (FlushState.initial progress) :=
  ⟨rfl, rfl, fun never => absurd never (Nat.lt_irrefl 0), rfl, Nat.le_refl 0, forall_mem_nil _,
    forall_mem_nil _, forall_mem_nil _, forall_mem_nil _, forall_mem_nil _, forall_mem_nil _⟩

section
variable (inv : FlushInv s)
include inv

theorem update (value : V) :
    FlushInv { s with memory := s.memory.update value, history := s.history ++ [some value] } where
  __ := inv
  length := by
    rw [length_append, inv.length]
    rfl
  latest := by
    change (s.history ++ [some value])[s.memory.generation + 1]? = _
    rw [← inv.length, getElem?_concat_length]
    rfl
  known _ := rfl
  stored := getElem?_append_of_some inv.stored
  value w mem := getElem?_append_of_some (inv.value w mem)

theorem memory {p : ProgressState V} (latest : p.latest = s.memory.latest)
    (generation : p.generation = s.memory.generation)
    (acked : p.ackedGeneration ≤ s.durableGeneration) : FlushInv { s with memory := p } where
  __ := inv
  length := inv.length.trans (by rw [generation])
  latest := by
    change s.history[p.generation]? = some p.latest
    rw [generation, latest]
    exact inv.latest
  known some := by
    rw [latest]
    exact inv.known (generation ▸ some)
  acked := acked

theorem send (idle : s.writes = []) {value : V} (latest : s.memory.latest = some value)
    (flusher : Flusher) : FlushInv (s.send flusher s.memory.generation value) where
  __ := inv
  single w mem := by
    simp only [FlushState.send, idle, nil_append, mem_singleton] at mem ⊢
    rw [mem]
  value w mem := by
    simp only [FlushState.send, idle, nil_append, mem_singleton] at mem
    rw [mem]
    exact inv.latest.trans (congrArg some latest)
  newer w mem := by
    simp only [FlushState.send, idle, nil_append, mem_singleton] at mem
    rw [mem]
    exact inv.durable_le
  committed w mem := by
    simp only [FlushState.send, idle, nil_append, mem_singleton] at mem
    rw [mem]
    rintro ⟨⟩
  found w mem := by
    simp only [FlushState.send, idle, nil_append, mem_singleton] at mem
    rw [mem]
    rintro ⟨⟩

theorem drop [DecidableEq V] (mem : w ∈ s.writes) : FlushInv (s.drop w) := by
  have gone : (s.drop w).writes = [] := by
    simp only [FlushState.drop, inv.single w mem, erase_cons_head]
  constructor
  · exact inv.length
  · exact inv.latest
  · exact inv.known
  · exact inv.stored
  · exact inv.acked
  · simp [gone]
  · simp [gone]
  · simp [gone]
  · simp [gone]
  · simp [gone]
  · exact inv.flushed

theorem setStatus [DecidableEq V] (mem : w ∈ s.writes) {status : WriteStatus}
    (decided : status = .committed → s.durableGeneration = w.generation)
    (found : status ≠ .missed) : FlushInv (s.setStatus w status) := by
  have only : (s.setStatus w status).writes = [{ w with status }] := by
    simp only [FlushState.setStatus, inv.single w mem, erase_cons_head, nil_append]
  constructor
  · exact inv.length
  · exact inv.latest
  · exact inv.known
  · exact inv.stored
  · exact inv.acked
  · simp [only]
  · rw [only]
    exact forall_mem_singleton.2 (inv.value w mem)
  · rw [only]
    exact forall_mem_singleton.2 (inv.newer w mem)
  · rw [only]
    exact forall_mem_singleton.2 decided
  · rw [only]
    exact forall_mem_singleton.2 found
  · exact inv.flushed

theorem store (mem : w ∈ s.writes) : FlushInv (s.store w) where
  __ := inv
  stored := inv.value w mem
  acked := Nat.le_trans inv.acked (inv.newer w mem)
  newer other there := by
    have same : other = w := by simpa [FlushState.store, inv.single w mem] using there
    exact same ▸ Nat.le_refl _
  committed other there _ := by
    have same : other = w := by simpa [FlushState.store, inv.single w mem] using there
    exact same ▸ rfl
  flushed g known := Nat.le_trans (inv.flushed g known) (inv.newer w mem)

theorem errored (w : ProgressWrite V) : FlushInv (s.errored w) := by
  unfold FlushState.errored
  split
  · exact inv
  · apply inv.memory
    all_goals
      unfold ProgressState.clearInFlight
      split
    all_goals first | rfl | exact inv.acked

theorem succeeded (mem : w ∈ s.writes) (committed : w.status = .committed) :
    FlushInv (s.succeeded w) := by
  have current := inv.committed w mem committed
  unfold FlushState.succeeded
  split
  · have acked : FlushInv { s with memory := s.memory.ack w.generation } := by
      apply inv.memory
      all_goals
        unfold ProgressState.ack
        split
      all_goals first | rfl | exact inv.acked | exact Nat.le_of_eq current.symm
    refine { acked with flushed := fun g known => ?_ }
    rcases mem_append.1 known with earlier | now
    · exact inv.flushed g earlier
    · rw [mem_singleton.1 now]
      exact Nat.le_of_eq current.symm
  · apply inv.memory
    all_goals
      unfold ProgressState.ackProgress
      split
    all_goals first | rfl | exact inv.acked | exact Nat.max_le.2 ⟨inv.acked,
      Nat.le_of_eq current.symm⟩

end

end FlushInv

theorem errored_writes (s : FlushState V) (w : ProgressWrite V) :
    (s.errored w).writes = s.writes := by
  unfold FlushState.errored
  split <;> rfl

theorem succeeded_writes (s : FlushState V) (w : ProgressWrite V) :
    (s.succeeded w).writes = s.writes := by
  unfold FlushState.succeeded
  split <;> rfl

section
variable [DecidableEq V] {storage : ProgressStorage} {s s' : FlushState V} {w : ProgressWrite V}

theorem FlushInv.flushProgress (inv : FlushInv s)
    (orderly : (FlushOp.flushProgress : FlushOp V).orderly storage s = true)
    (step : flushStep storage .flushProgress s = some s') : FlushInv s' := by
  simp only [flushStep] at step
  split at step
  next value generation taken =>
    obtain ⟨pending, latest, rfl⟩ := pendingSnapshot_eq_some taken
    cases step
    simp only [FlushOp.orderly, pending, Bool.not_true, Bool.or_false, List.isEmpty_iff] at orderly
    exact inv.send orderly latest .flushProgress
  next nothing =>
    cases step
    refine { inv with flushed := fun g known => ?_ }
    rcases mem_append.1 known with earlier | now
    · exact inv.flushed g earlier
    · rw [mem_singleton.1 now]
      exact Nat.le_trans (inv.le_acked nothing) inv.acked

theorem FlushInv.heartbeat (inv : FlushInv s)
    (orderly : (FlushOp.heartbeat : FlushOp V).orderly storage s = true)
    (step : flushStep storage .heartbeat s = some s') : FlushInv s' := by
  obtain ⟨pending, rest⟩ := ite_none_right_eq_some.1 step
  obtain ⟨value, latest, rfl⟩ := map_eq_some_iff.1 rest
  simp only [Bool.and_eq_true] at pending
  simp only [FlushOp.orderly, pending.1, Bool.not_true, Bool.or_false, List.isEmpty_iff] at orderly
  have marked := inv.memory (p := { s.memory with inFlight := some (s.memory.generation, value) })
    rfl rfl inv.acked
  exact marked.send orderly latest .heartbeat

theorem FlushInv.commit (inv : FlushInv s) (orderly : (FlushOp.commit w).orderly storage s = true)
    (step : flushStep storage (.commit w) s = some s') : FlushInv s' := by
  obtain ⟨mem, rest⟩ := ite_none_right_eq_some.1 step
  split at rest
  all_goals cases rest
  · next sent =>
    have found : storage.finds w.flusher s.parked = true := by
      simpa [FlushOp.orderly, sent] using orderly
    rw [if_pos found]
    exact (inv.store mem).setStatus mem (fun _ => rfl) (by rintro ⟨⟩)
  · split
    · exact (inv.store mem).drop mem
    · exact inv.drop mem

theorem flushInv_step {op : FlushOp V} (inv : FlushInv s) (orderly : op.orderly storage s = true)
    (step : flushStep storage op s = some s') : FlushInv s' := by
  cases op with
  | update value =>
    cases step
    exact inv.update value
  | flushProgress => exact inv.flushProgress orderly step
  | heartbeat => exact inv.heartbeat orderly step
  | park parked =>
    cases step
    exact { inv with }
  | commit w => exact inv.commit orderly step
  | fail w =>
    obtain ⟨mem, rest⟩ := ite_none_right_eq_some.1 step
    split at rest
    all_goals cases rest
    · exact inv.setStatus mem (by rintro ⟨⟩) (by rintro ⟨⟩)
    · exact inv.drop mem
  | disconnect w =>
    obtain ⟨mem, rest⟩ := ite_none_right_eq_some.1 step
    rw [← errored_writes s w] at mem
    split at rest
    all_goals cases rest
    · exact (inv.errored w).setStatus mem (by rintro ⟨⟩) (by rintro ⟨⟩)
    · exact (inv.errored w).drop mem
    · exact (inv.errored w).drop mem
  | answer w =>
    obtain ⟨mem, rest⟩ := ite_none_right_eq_some.1 step
    split at rest
    next committed =>
      cases rest
      exact (inv.succeeded mem committed).drop (succeeded_writes s w ▸ mem)
    next missed => exact absurd missed (inv.found w mem)
    next =>
      cases rest
      exact (inv.errored w).drop (errored_writes s w ▸ mem)
    all_goals cases rest

end

/-- Where no write begins while another is in flight and none commits without its row: what
`flush_progress` reported stays durable or is followed by something later, and a quiet attempt has
stored the latest value. -/
theorem progress_durable [DecidableEq V] {storage : ProgressStorage} {s : FlushState V}
    (reached : (flushMachine V storage).Reachable (fun op s => op.orderly storage s = true) s) :
    (∀ g ∈ s.flushed, ∃ g', g ≤ g' ∧ s.history[g']? = some s.durable) ∧
      (s.writes = [] → s.memory.hasPending = false → s.durable = s.memory.latest) := by
  have inv : FlushInv s := by
    refine reached.invariant ?_ fun op s t _ inv orderly stepped =>
      flushInv_step inv orderly stepped
    rintro s ⟨progress, rfl⟩
    exact FlushInv.initial progress
  refine ⟨fun g known => ⟨s.durableGeneration, inv.flushed g known, inv.stored⟩, fun _ quiet => ?_⟩
  have acked : s.memory.generation ≤ s.memory.ackedGeneration := by
    simpa [ProgressState.hasPending] using quiet
  have current : s.durableGeneration = s.memory.generation :=
    Nat.le_antisymm inv.durable_le (Nat.le_trans acked inv.acked)
  have stored := inv.stored
  rw [current, inv.latest] at stored
  exact (Option.some_inj.1 stored).symm

/-- An explicit flush, a wait for a callback and a heartbeat, one after the other. -/
theorem progress_durable_sample : ∃ s : FlushState Nat,
    (flushMachine Nat .canonical).Reachable (fun op s => op.orderly .canonical s = true) s ∧
    s.flushed = [1] ∧ s.durable = some 20 ∧ s.durable = s.memory.latest := by
  obtain ⟨s, reached, flushed, durable, idle, quiet⟩ :=
    Machine.reachable_of_run (flushMachine Nat .canonical)
    (fun op s => op.orderly .canonical s = true)
    [.update 10, .flushProgress, .commit ⟨.flushProgress, 1, 10, .sent⟩,
      .answer ⟨.flushProgress, 1, 10, .committed⟩,
      .park true, .update 20, .heartbeat, .park false, .commit ⟨.heartbeat, 2, 20, .sent⟩,
      .answer ⟨.heartbeat, 2, 20, .committed⟩]
    (fun s => s.flushed = [1] ∧ s.durable = some 20 ∧ s.writes = [] ∧ s.memory.hasPending = false)
    (s := .initial none) ⟨none, rfl⟩ (by decide)
  exact ⟨s, reached, flushed, durable, (progress_durable reached).2 idle quiet⟩

def FlushState.Forgot (s : FlushState Nat) : Prop :=
  s.history = [none, some 10, some 20] ∧ s.durable = some 10 ∧ s.memory.latest = some 20 ∧
    s.writes = [] ∧ s.memory.hasPending = false

instance (s : FlushState Nat) : Decidable s.Forgot := inferInstanceAs (Decidable (_ ∧ _))

/-- A heartbeat that has sent generation 1 commits after a flush of generation 2; or a heartbeat
sends generation 2 while the handler waits for a callback, and its write, which matches no row, is
acknowledged. -/
theorem delayed_heartbeat_overwrites :
    (∀ storage, ∃ s, (flushMachine Nat storage).Reachable Machine.Always s ∧
      s.flushed = [2] ∧ s.Forgot) ∧ ∃ s, (flushMachine Nat .canonical).Reachable Machine.Always s ∧
        s.flushed = [1] ∧ s.Forgot := by
  constructor
  · intro storage
    obtain ⟨s, reached, hit⟩ := Machine.reachable_of_run (flushMachine Nat storage) Machine.Always
      [.update 10, .heartbeat, .update 20, .flushProgress, .commit ⟨.flushProgress, 2, 20, .sent⟩,
        .answer ⟨.flushProgress, 2, 20, .committed⟩, .commit ⟨.heartbeat, 1, 10, .sent⟩,
        .answer ⟨.heartbeat, 1, 10, .committed⟩]
      (fun s => s.flushed = [2] ∧ s.Forgot) (s := .initial none) ⟨none, rfl⟩
        (by cases storage <;> decide)
    exact ⟨s, reached, hit⟩
  · obtain ⟨s, reached, hit⟩ := Machine.reachable_of_run (flushMachine Nat .canonical)
      Machine.Always [.update 10, .flushProgress, .commit ⟨.flushProgress, 1, 10, .sent⟩,
        .answer ⟨.flushProgress, 1, 10, .committed⟩, .update 20, .park true, .heartbeat,
          .commit ⟨.heartbeat, 2, 20, .sent⟩, .answer ⟨.heartbeat, 2, 20, .missed⟩]
      (fun s => s.flushed = [1] ∧ s.Forgot) (s := .initial none) ⟨none, rfl⟩ (by decide)
    exact ⟨s, reached, hit⟩

end AwaQueue
