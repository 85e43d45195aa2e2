import AwaQueue.Copy.Fields
import AwaQueue.Library.Buckets
import AwaQueue.Library.Machine

/-! The ready and deferred rows of queue storage, written by `COPY` and by `INSERT`. -/

namespace AwaQueue.Copy

open List Library

def copyMinRows : Nat := 2048

def storagePayload (payload : Text) : Option Text :=
  if payload = "null".toList ∨ payload = "\x7b\x7d".toList then none else some payload

/-- `RuntimeReadyInsert`; in the table a time is its microseconds since 2000, and the payload may be
NULL. -/
structure ReadyInsert (Time Payload : Type) where
  jobId : Int
  kind : Text
  queue : Text
  args : Text
  priority : Int
  attempt : Int
  runLease : Int
  maxAttempts : Int
  laneSeq : Int
  enqueueShard : Int
  runAt : Time
  attemptedAt : Option Time
  createdAt : Time
  uniqueKey : Option (List UInt8)
  uniqueStates : Option Text
  payload : Payload

structure ReadyEntry where
  readySlot : Int
  readyGeneration : Int
  row : ReadyInsert Int (Option Text)

namespace ReadyInsert
variable (row : ReadyInsert Timestamp Text)

def bound : ReadyInsert Int (Option Text) :=
  { row with
    runAt := row.runAt.bound
    attemptedAt := row.attemptedAt.map Timestamp.bound
    createdAt := row.createdAt.bound
    payload := storagePayload row.payload }

def times : List Timestamp := row.runAt :: row.createdAt :: row.attemptedAt.toList

end ReadyInsert

def executeReadyInserts (ring : Int × Int) (rows : List (ReadyInsert Timestamp Text)) :
    List ReadyEntry :=
  rows.map fun row => ⟨ring.1, ring.2, row.bound⟩

def readyFields (ring : Int × Int) (row : ReadyInsert Timestamp Text) : List Text :=
  [intText ring.1, intText ring.2, intText row.jobId, writeField row.kind, writeField row.queue,
    writeField row.args, intText row.priority, intText row.attempt, intText row.runLease,
      intText row.maxAttempts, intText row.laneSeq,
    intText row.enqueueShard, writeField (rfc3339 row.runAt), writeOptional rfc3339 row.attemptedAt,
    writeField (rfc3339 row.createdAt), writeOptional byteaText row.uniqueKey,
      writeOptional id row.uniqueStates,
    writeOptional id (storagePayload row.payload)]

def readyBuffer (ring : Int × Int) (rows : List (ReadyInsert Timestamp Text)) : Text :=
  rows.flatMap fun row => Csv.line (readyFields ring row)

def readyCells (ring : Int × Int) (row : ReadyInsert Timestamp Text) : List (Option Text) :=
  [some (intText ring.1), some (intText ring.2), some (intText row.jobId), some row.kind,
    some row.queue, some row.args, some (intText row.priority), some (intText row.attempt),
      some (intText row.runLease), some (intText row.maxAttempts),
    some (intText row.laneSeq), some (intText row.enqueueShard), some (rfc3339 row.runAt),
      row.attemptedAt.map rfc3339,
    some (rfc3339 row.createdAt), row.uniqueKey.map byteaText, row.uniqueStates.map id,
      (storagePayload row.payload).map id]

def readyEntryIn (tieUp : Nat → Bool) : List (Option Text) → Option ReadyEntry
  | [some slot, some generation, some jobId, some kind, some queue, some args, some priority,
      some attempt, some runLease, some maxAttempts, some laneSeq, some enqueueShard, some runAt,
      attemptedAt, some createdAt, uniqueKey, uniqueStates, payload] => do
    let slot ← intIn slot
    let generation ← intIn generation
    let jobId ← intIn jobId
    let priority ← intIn priority
    let attempt ← intIn attempt
    let runLease ← intIn runLease
    let maxAttempts ← intIn maxAttempts
    let laneSeq ← intIn laneSeq
    let enqueueShard ← intIn enqueueShard
    let runAt ← timestamptzIn tieUp runAt
    let attemptedAt ← columnIn (timestamptzIn tieUp) attemptedAt
    let createdAt ← timestamptzIn tieUp createdAt
    let uniqueKey ← columnIn byteaIn uniqueKey
    return ⟨slot, generation, ⟨jobId, kind, queue, args, priority, attempt, runLease, maxAttempts,
      laneSeq, enqueueShard, runAt, attemptedAt, createdAt, uniqueKey, uniqueStates, payload⟩⟩
  | _ => none

def copyReadyEntries (tieUp : Nat → Bool) (text : Text) : Option (List ReadyEntry) :=
  (Csv.read copyNullSentinel text).bind (List.mapM (readyEntryIn tieUp))

def executeReadyCopy (tieUp : Nat → Bool) (ring : Int × Int)
    (rows : List (ReadyInsert Timestamp Text)) : Option (List ReadyEntry) :=
  if rows.length < copyMinRows then some (executeReadyInserts ring rows) else copyReadyEntries tieUp
    (readyBuffer ring rows)

theorem readyFields_encode (ring : Int × Int) (row : ReadyInsert Timestamp Text) :
    List.Forall₂ Encodes (readyFields ring row) (readyCells ring row) :=
  .cons (encodes_int _) (.cons (encodes_int _)
    (.cons (encodes_int _) (.cons (encodes_field _)
      (.cons (encodes_field _) (.cons (encodes_field _)
      (.cons (encodes_int _) (.cons (encodes_int _) (.cons (encodes_int _) (.cons (encodes_int _)
    (.cons (encodes_int _) (.cons (encodes_int _)
      (.cons (encodes_field _) (.cons (encodes_optional _ _) (.cons (encodes_field _)
    (.cons (encodes_optional _ _) (.cons (encodes_optional _ _)
      (.cons (encodes_optional _ _) .nil)))))))))))))))))

theorem columnIn_times {tieUp : Nat → Bool} {value : Option Timestamp} :
    (∀ t ∈ value.toList, t.Common tieUp) ↔
    columnIn (timestamptzIn tieUp) (value.map rfc3339) = some (value.map Timestamp.bound) := by
  rw [columnIn_time]
  simp

theorem readyEntryIn_readyCells {tieUp : Nat → Bool} {ring : Int × Int}
    {row : ReadyInsert Timestamp Text} :
    readyEntryIn tieUp (readyCells ring row) = some ⟨ring.1, ring.2, row.bound⟩ ↔
      ∀ t ∈ row.times, t.Common tieUp := by
  have key : columnIn byteaIn (row.uniqueKey.map byteaText) = some row.uniqueKey :=
    columnIn_map fun bytes _ => byteaIn_byteaText bytes
  have read : readyEntryIn tieUp (readyCells ring row) =
      (timestamptzIn tieUp (rfc3339 row.runAt)).bind fun runAt =>
      (columnIn (timestamptzIn tieUp) (row.attemptedAt.map rfc3339)).bind fun attemptedAt =>
        (timestamptzIn tieUp (rfc3339 row.createdAt)).bind fun createdAt =>
          some ⟨ring.1, ring.2, { row with
          runAt := runAt, attemptedAt := attemptedAt, createdAt := createdAt, payload :=
            storagePayload row.payload }⟩ := by
    rw [readyCells, readyEntryIn, key, Option.map_id_fun]
    simp only [intIn_intText, Option.bind_eq_bind, Option.bind_some, id]
    rfl
  rw [read, ReadyInsert.times, forall_mem_cons, forall_mem_cons, ← timestamptzIn_eq_bound,
    ← timestamptzIn_eq_bound, columnIn_times]
  constructor
  · intro same
    obtain ⟨runAt, first, same⟩ := Option.bind_eq_some_iff.1 same
    obtain ⟨attemptedAt, second, same⟩ := Option.bind_eq_some_iff.1 same
    obtain ⟨createdAt, third, same⟩ := Option.bind_eq_some_iff.1 same
    have rows := congrArg ReadyEntry.row (Option.some.inj same)
    rw [first, second, third]
    exact ⟨congrArg some (congrArg ReadyInsert.runAt rows),
      congrArg some (congrArg ReadyInsert.createdAt rows),
      congrArg some (congrArg ReadyInsert.attemptedAt rows)⟩
  · rintro ⟨runAt, createdAt, attemptedAt⟩
    rw [runAt, attemptedAt, createdAt]
    rfl

theorem executeReadyCopy_eq {tieUp : Nat → Bool} {ring : Int × Int}
    {rows : List (ReadyInsert Timestamp Text)} :
    executeReadyCopy tieUp ring rows = some (executeReadyInserts ring rows) ↔
      rows.length < copyMinRows ∨ ∀ row ∈ rows, ∀ t ∈ row.times, t.Common tieUp := by
  have read : Csv.read copyNullSentinel (readyBuffer ring rows) =
      some (rows.map (readyCells ring)) :=
    Csv.read_lines (fun row _ => readyFields_encode ring row) fun row _ => show 2 ≤ 18 by decide
  unfold executeReadyCopy
  split
  next small => exact ⟨fun _ => .inl small, fun _ => rfl⟩
  next large =>
    rw [copyReadyEntries, read, Option.bind_some, mapM_eq_some, executeReadyInserts, map_map,
      map_map, map_inj_left, or_iff_right large]
    exact forall₂_congr fun row _ => readyEntryIn_readyCells

structure RuntimeRow where
  jobId : Option Int
  kind : Text
  queue : Text
  args : Text
  priority : Int
  attempt : Int
  runLease : Int
  maxAttempts : Int
  runAt : Timestamp
  attemptedAt : Option Timestamp
  createdAt : Timestamp
  uniqueKey : Option (List UInt8)
  uniqueStates : Option Text
  payload : Text
  orderingKey : Option (List UInt8)

abbrev LaneKey := Text × Int × Int

/-- What the transaction reads: the shard of an ordering key, the rotor's pick for the rows without
one, the next number of each lane, the ids of the job sequence and the position of the queue ring.
-/
structure EnqueueReads where
  keyShard : Text → List UInt8 → Int
  rotorShard : Text → Int → Int
  heads : LaneKey → Int
  newId : Nat → Int
  ring : Int × Int

def queueKeyLe (a b : Text × Int) : Bool := a.1 < b.1 || (a.1 = b.1 && a.2 ≤ b.2)

def laneKeyLe (a b : LaneKey) : Bool := a.1 < b.1 ||
    (a.1 = b.1 && (a.2.1 < b.2.1 || (a.2.1 = b.2.1 && a.2.2 ≤ b.2.2)))

namespace EnqueueReads
variable (reads : EnqueueReads)

def groupQueue (grouped : Buckets LaneKey RuntimeRow) (bucket : (Text × Int) × List RuntimeRow) :
    Buckets LaneKey RuntimeRow :=
  (grouped.pushAll (fun row => (bucket.1.1, bucket.1.2,
    reads.keyShard bucket.1.1 (row.orderingKey.getD [])))
    (bucket.2.filter fun row => row.orderingKey.isSome)).pushAll
      (fun _ => (bucket.1.1, bucket.1.2, reads.rotorShard bucket.1.1 bucket.1.2))
        (bucket.2.filter fun row => row.orderingKey.isNone)

def groupReadyRowsByShard (rows : List RuntimeRow) : Buckets LaneKey RuntimeRow :=
  (((Buckets.pushAll [] (fun row => (row.queue, row.priority)) rows).mergeSort fun a b =>
    queueKeyLe a.1 b.1).foldl reads.groupQueue []).mergeSort fun a b => laneKeyLe a.1 b.1

def laneRows (rows : List RuntimeRow) : List (LaneKey × Nat × RuntimeRow) :=
  (reads.groupReadyRowsByShard rows).flatMap fun group => group.2.zipIdx.map fun entry =>
    (group.1, entry.2, entry.1)

def readyInsert (jobId : Int) (entry : LaneKey × Nat × RuntimeRow) : ReadyInsert Timestamp Text :=
  let row := entry.2.2
  ⟨jobId, row.kind, row.queue, row.args, row.priority, row.attempt, row.runLease, row.maxAttempts,
    reads.heads entry.1 + entry.2.1, entry.1.2.2, row.runAt, row.attemptedAt, row.createdAt,
      row.uniqueKey, row.uniqueStates, row.payload⟩

def readyInsertsFrom : Nat → List (LaneKey × Nat × RuntimeRow) → List (ReadyInsert Timestamp Text)
  | _, [] => []
  | used, entry :: rest =>
    match entry.2.2.jobId with
    | some jobId => reads.readyInsert jobId entry :: readyInsertsFrom used rest
    | none => reads.readyInsert (reads.newId used) entry :: readyInsertsFrom (used + 1) rest

def readyInserts (rows : List RuntimeRow) : List (ReadyInsert Timestamp Text) :=
  reads.readyInsertsFrom 0 (reads.laneRows rows)

def insertReadyRows (rows : List RuntimeRow) : List ReadyEntry :=
  executeReadyInserts reads.ring (reads.readyInserts rows)

def insertReadyRowsCopy (tieUp : Nat → Bool) (rows : List RuntimeRow) : Option (List ReadyEntry) :=
  executeReadyCopy tieUp reads.ring (reads.readyInserts rows)

end EnqueueReads

def RuntimeRow.times (row : RuntimeRow) : List Timestamp :=
  row.runAt :: row.createdAt :: row.attemptedAt.toList

theorem groupQueue_perm (reads : EnqueueReads) (grouped : Buckets LaneKey RuntimeRow)
    (bucket : (Text × Int) × List RuntimeRow) :
    (reads.groupQueue grouped bucket).flatMap Prod.snd ~ grouped.flatMap Prod.snd ++ bucket.2 := by
  have parts : (bucket.2.filter fun row => row.orderingKey.isSome) ++
      (bucket.2.filter fun row => row.orderingKey.isNone) ~ bucket.2 := by
    simpa using filter_append_perm (fun row : RuntimeRow => row.orderingKey.isSome) bucket.2
  calc (reads.groupQueue grouped bucket).flatMap Prod.snd
      ~ _ ++ (bucket.2.filter fun row => row.orderingKey.isNone) := Buckets.pushAll_perm
    _ ~ (grouped.flatMap Prod.snd ++ bucket.2.filter fun row => row.orderingKey.isSome) ++
        (bucket.2.filter fun row => row.orderingKey.isNone) := Buckets.pushAll_perm.append_right _
    _ = grouped.flatMap Prod.snd ++ ((bucket.2.filter fun row => row.orderingKey.isSome) ++
        (bucket.2.filter fun row => row.orderingKey.isNone)) := append_assoc _ _ _
    _ ~ grouped.flatMap Prod.snd ++ bucket.2 := parts.append_left _

/-- The groups hold the rows of the batch, each once. -/
theorem groupReadyRowsByShard_perm (reads : EnqueueReads) (rows : List RuntimeRow) :
    (reads.groupReadyRowsByShard rows).flatMap Prod.snd ~ rows := by
  have folded (buckets : List ((Text × Int) × List RuntimeRow))
      (grouped : Buckets LaneKey RuntimeRow) :
        (buckets.foldl reads.groupQueue grouped).flatMap Prod.snd ~ grouped.flatMap Prod.snd ++
        buckets.flatMap Prod.snd := by
    induction buckets generalizing grouped with
    | nil => rw [foldl_nil, flatMap_nil, append_nil]
    | cons bucket rest ih =>
      rw [foldl_cons, flatMap_cons, ← append_assoc]
      exact (ih _).trans ((groupQueue_perm reads grouped bucket).append_right _)
  unfold EnqueueReads.groupReadyRowsByShard
  refine ((mergeSort_perm _ _).flatMap_right _).trans ((folded _ _).trans ?_)
  exact ((mergeSort_perm _ _).flatMap_right _).trans Buckets.pushAll_perm

/-- Numbering the rows of a batch leaves their times alone. -/
theorem readyInserts_times (reads : EnqueueReads) (rows : List RuntimeRow) :
    (reads.readyInserts rows).map ReadyInsert.times ~ rows.map RuntimeRow.times := by
  have numbered (used : Nat) (entries : List (LaneKey × Nat × RuntimeRow)) :
      (reads.readyInsertsFrom used entries).map ReadyInsert.times = entries.map fun entry =>
        entry.2.2.times := by
    induction entries generalizing used with
    | nil => rfl
    | cons entry rest ih =>
      unfold EnqueueReads.readyInsertsFrom
      split
      · rw [map_cons, map_cons, ih]
        rfl
      · rw [map_cons, map_cons, ih]
        rfl
  have lanes : ((reads.laneRows rows).map fun entry => entry.2.2.times) =
      ((reads.groupReadyRowsByShard rows).flatMap Prod.snd).map RuntimeRow.times := by
    rw [EnqueueReads.laneRows, map_flatMap, map_flatMap]
    congr 1
    funext group
    calc (group.2.zipIdx.map fun entry => (group.1, entry.2, entry.1)).map (fun entry =>
        entry.2.2.times)
        = (group.2.zipIdx.map Prod.fst).map RuntimeRow.times := by rw [map_map, map_map]; rfl
      _ = group.2.map RuntimeRow.times := by rw [zipIdx_map_fst]
  rw [EnqueueReads.readyInserts, numbered, lanes]
  exact (groupReadyRowsByShard_perm reads rows).map _

theorem insertReadyRowsCopy_eq {tieUp : Nat → Bool} {reads : EnqueueReads}
    {rows : List RuntimeRow} :
    reads.insertReadyRowsCopy tieUp rows = some (reads.insertReadyRows rows) ↔
      rows.length < copyMinRows ∨ ∀ row ∈ rows, ∀ t ∈ row.times, t.Common tieUp := by
  have same := readyInserts_times reads rows
  have sizes : (reads.readyInserts rows).length = rows.length := by simpa using same.length_eq
  have times : (∀ row ∈ reads.readyInserts rows, ∀ t ∈ row.times, t.Common tieUp) ↔
      ∀ row ∈ rows, ∀ t ∈ row.times, t.Common tieUp := by
    calc (∀ row ∈ reads.readyInserts rows, ∀ t ∈ row.times, t.Common tieUp)
        ↔ ∀ times ∈ (reads.readyInserts rows).map ReadyInsert.times, ∀ t ∈ times,
          t.Common tieUp := by rw [forall_mem_map]
      _ ↔ ∀ times ∈ rows.map RuntimeRow.times, ∀ t ∈ times, t.Common tieUp := forall_congr' fun _ =>
        imp_congr same.mem_iff .rfl
      _ ↔ ∀ row ∈ rows, ∀ t ∈ row.times, t.Common tieUp := by rw [forall_mem_map]
  rw [EnqueueReads.insertReadyRowsCopy, EnqueueReads.insertReadyRows, executeReadyCopy_eq,
    sizes, times]

/-- `DeferredJobRow`; in the table a time is its microseconds since 2000, and the payload may be
NULL. -/
structure DeferredRow (Time Payload : Type) where
  jobId : Int
  kind : Text
  queue : Text
  args : Text
  state : JobState
  priority : Int
  attempt : Int
  runLease : Int
  maxAttempts : Int
  runAt : Time
  attemptedAt : Option Time
  finalizedAt : Option Time
  createdAt : Time
  uniqueKey : Option (List UInt8)
  uniqueStates : Option Text
  payload : Payload

namespace DeferredRow
variable (row : DeferredRow Timestamp Text)

def bound : DeferredRow Int (Option Text) :=
  { row with
    runAt := row.runAt.bound
    attemptedAt := row.attemptedAt.map Timestamp.bound
    finalizedAt := row.finalizedAt.map Timestamp.bound
    createdAt := row.createdAt.bound
    payload := storagePayload row.payload }

def times : List Timestamp := row.runAt :: row.createdAt ::
    (row.attemptedAt.toList ++ row.finalizedAt.toList)

end DeferredRow

def executeDeferredInserts (rows : List (DeferredRow Timestamp Text)) :
    List (DeferredRow Int (Option Text)) :=
  rows.map DeferredRow.bound

def deferredFields (row : DeferredRow Timestamp Text) : List Text :=
  [intText row.jobId, writeField row.kind, writeField row.queue, writeField row.args,
    writeField (stateText row.state), intText row.priority, intText row.attempt,
      intText row.runLease, intText row.maxAttempts, writeField (rfc3339 row.runAt),
    writeOptional rfc3339 row.attemptedAt, writeOptional rfc3339 row.finalizedAt,
      writeField (rfc3339 row.createdAt),
    writeOptional byteaText row.uniqueKey, writeOptional id row.uniqueStates,
      writeOptional id (storagePayload row.payload)]

def deferredBuffer (rows : List (DeferredRow Timestamp Text)) : Text := rows.flatMap fun row =>
    Csv.line (deferredFields row)

def deferredCells (row : DeferredRow Timestamp Text) : List (Option Text) :=
  [some (intText row.jobId), some row.kind, some row.queue, some row.args,
    some (stateText row.state), some (intText row.priority), some (intText row.attempt),
      some (intText row.runLease), some (intText row.maxAttempts), some (rfc3339 row.runAt),
    row.attemptedAt.map rfc3339, row.finalizedAt.map rfc3339, some (rfc3339 row.createdAt),
      row.uniqueKey.map byteaText,
    row.uniqueStates.map id, (storagePayload row.payload).map id]

def deferredRowIn (tieUp : Nat → Bool) : List (Option Text) → Option (DeferredRow Int (Option Text))
  | [some jobId, some kind, some queue, some args, some state, some priority, some attempt,
      some runLease, some maxAttempts,
      some runAt, attemptedAt, finalizedAt, some createdAt, uniqueKey, uniqueStates, payload] => do
    let jobId ← intIn jobId
    let state ← stateIn state
    let priority ← intIn priority
    let attempt ← intIn attempt
    let runLease ← intIn runLease
    let maxAttempts ← intIn maxAttempts
    let runAt ← timestamptzIn tieUp runAt
    let attemptedAt ← columnIn (timestamptzIn tieUp) attemptedAt
    let finalizedAt ← columnIn (timestamptzIn tieUp) finalizedAt
    let createdAt ← timestamptzIn tieUp createdAt
    let uniqueKey ← columnIn byteaIn uniqueKey
    return ⟨jobId, kind, queue, args, state, priority, attempt, runLease, maxAttempts, runAt,
      attemptedAt, finalizedAt, createdAt, uniqueKey, uniqueStates, payload⟩
  | _ => none

def copyDeferredRows (tieUp : Nat → Bool) (text : Text) :
    Option (List (DeferredRow Int (Option Text))) :=
  (Csv.read copyNullSentinel text).bind (List.mapM (deferredRowIn tieUp))

def insertDeferredRowsCopy (tieUp : Nat → Bool) (rows : List (DeferredRow Timestamp Text)) :
    Option (List (DeferredRow Int (Option Text))) :=
  if rows.length < copyMinRows then some (executeDeferredInserts rows) else copyDeferredRows tieUp
    (deferredBuffer rows)

theorem deferredFields_encode (row : DeferredRow Timestamp Text) :
    List.Forall₂ Encodes (deferredFields row) (deferredCells row) :=
  .cons (encodes_int _) (.cons (encodes_field _)
    (.cons (encodes_field _) (.cons (encodes_field _)
      (.cons (encodes_field _) (.cons (encodes_int _)
      (.cons (encodes_int _) (.cons (encodes_int _) (.cons (encodes_int _) (.cons (encodes_field _)
    (.cons (encodes_optional _ _) (.cons (encodes_optional _ _)
      (.cons (encodes_field _) (.cons (encodes_optional _ _)
    (.cons (encodes_optional _ _) (.cons (encodes_optional _ _) .nil)))))))))))))))

theorem read_deferredBuffer (rows : List (DeferredRow Timestamp Text)) :
    Csv.read copyNullSentinel (deferredBuffer rows) = some (rows.map deferredCells) :=
  Csv.read_lines (fun row _ => deferredFields_encode row) fun row _ => show 2 ≤ 16 by decide

theorem deferredRowIn_deferredCells {tieUp : Nat → Bool} {row : DeferredRow Timestamp Text} :
    deferredRowIn tieUp (deferredCells row) = some row.bound ↔ ∀ t ∈ row.times, t.Common tieUp := by
  have key : columnIn byteaIn (row.uniqueKey.map byteaText) = some row.uniqueKey :=
    columnIn_map fun bytes _ => byteaIn_byteaText bytes
  have read : deferredRowIn tieUp (deferredCells row) =
      (timestamptzIn tieUp (rfc3339 row.runAt)).bind fun runAt =>
      (columnIn (timestamptzIn tieUp) (row.attemptedAt.map rfc3339)).bind fun attemptedAt =>
        (columnIn (timestamptzIn tieUp) (row.finalizedAt.map rfc3339)).bind fun finalizedAt =>
          (timestamptzIn tieUp (rfc3339 row.createdAt)).bind fun createdAt => some { row with
            runAt := runAt, attemptedAt := attemptedAt, finalizedAt := finalizedAt, createdAt :=
              createdAt,
            payload := storagePayload row.payload } := by
    rw [deferredCells, deferredRowIn, stateIn_stateText, key, Option.map_id_fun]
    simp only [intIn_intText, Option.bind_eq_bind, Option.bind_some, id]
    rfl
  rw [read, DeferredRow.times, forall_mem_cons, forall_mem_cons, forall_mem_append,
    ← timestamptzIn_eq_bound, ← timestamptzIn_eq_bound, columnIn_times, columnIn_times]
  constructor
  · intro same
    obtain ⟨runAt, first, same⟩ := Option.bind_eq_some_iff.1 same
    obtain ⟨attemptedAt, second, same⟩ := Option.bind_eq_some_iff.1 same
    obtain ⟨finalizedAt, third, same⟩ := Option.bind_eq_some_iff.1 same
    obtain ⟨createdAt, fourth, same⟩ := Option.bind_eq_some_iff.1 same
    have rows := Option.some.inj same
    rw [first, second, third, fourth]
    exact ⟨congrArg some (congrArg DeferredRow.runAt rows),
      congrArg some (congrArg DeferredRow.createdAt rows),
        congrArg some (congrArg DeferredRow.attemptedAt rows),
        congrArg some (congrArg DeferredRow.finalizedAt rows)⟩
  · rintro ⟨runAt, createdAt, attemptedAt, finalizedAt⟩
    rw [runAt, attemptedAt, finalizedAt, createdAt]
    rfl

theorem insertDeferredRowsCopy_eq {tieUp : Nat → Bool} {rows : List (DeferredRow Timestamp Text)} :
    insertDeferredRowsCopy tieUp rows = some (executeDeferredInserts rows) ↔
      rows.length < copyMinRows ∨ ∀ row ∈ rows, ∀ t ∈ row.times, t.Common tieUp := by
  unfold insertDeferredRowsCopy
  split
  next small => exact ⟨fun _ => .inl small, fun _ => rfl⟩
  next large =>
    rw [copyDeferredRows, read_deferredBuffer, Option.bind_some, mapM_eq_some,
      executeDeferredInserts, map_map, map_map, map_inj_left, or_iff_right large]
    exact forall₂_congr fun row _ => deferredRowIn_deferredCells

/-- `COPY` stores what `INSERT` stores, the ready rows in the same lanes under the same numbers and
the deferred rows, if and only if the batch is too small for `COPY` or all its times are common. -/
theorem copy_stores_inserted_rows (tieUp : Nat → Bool) (reads : EnqueueReads)
    (ready : List RuntimeRow) (deferred : List (DeferredRow Timestamp Text)) :
    (reads.insertReadyRowsCopy tieUp ready = some (reads.insertReadyRows ready) ↔
      ready.length < copyMinRows ∨ ∀ row ∈ ready, ∀ t ∈ row.times, t.Common tieUp) ∧
    (insertDeferredRowsCopy tieUp deferred = some (executeDeferredInserts deferred) ↔
      deferred.length < copyMinRows ∨ ∀ row ∈ deferred, ∀ t ∈ row.times, t.Common tieUp) :=
  ⟨insertReadyRowsCopy_eq, insertDeferredRowsCopy_eq⟩

def sampleTime (year : Int) (early : -4712 ≤ year) : Timestamp :=
  ⟨year, 1, 1, 0, 0, 0, 0, ⟨early, by decide, by decide, by decide, Nat.le_add_left 1
    30⟩, by decide⟩

def deferredUntil (year : Int) (early : -4712 ≤ year) : DeferredRow Timestamp Text where
  jobId := 7
  kind := "send_email".toList
  queue := "mail, \"urgent\"".toList
  args := "\x7b\x7d".toList
  state := .scheduled
  priority := 2
  attempt := 0
  runLease := 0
  maxAttempts := 25
  runAt := sampleTime year early
  attemptedAt := none
  finalizedAt := none
  createdAt := ⟨2026, 3, 1, 12, 30, 5, 250001000, by decide, by decide⟩
  uniqueKey := some [0, 255]
  uniqueStates := some "11101001".toList
  payload := "\x7b\x7d".toList

def readySample : RuntimeRow where
  jobId := none
  kind := "send_email".toList
  queue := "mail, \"urgent\"".toList
  args := "\x7b\x7d".toList
  priority := 2
  attempt := 0
  runLease := 0
  maxAttempts := 25
  runAt := sampleTime 2030 (by decide)
  attemptedAt := none
  createdAt := ⟨2026, 3, 1, 12, 30, 5, 250001499, by decide, by decide⟩
  uniqueKey := none
  uniqueStates := none
  payload := "\x7b\"tags\":[\"a\"]\x7d".toList
  orderingKey := some [1, 2]

/-- Batches that are large enough for `COPY`. -/
theorem copy_stores_inserted_rows_large : let reads :
    EnqueueReads := ⟨fun _ _ => 1, fun _ _ => 0, fun _ => 1, fun n => n, (0, 1)⟩
    reads.insertReadyRowsCopy (fun _ => true) (List.replicate 2048 readySample) =
        some (reads.insertReadyRows (List.replicate 2048 readySample)) ∧
      insertDeferredRowsCopy (fun _ => true)
        (List.replicate 2048 (deferredUntil 2030 (by decide))) =
        some (executeDeferredInserts (List.replicate 2048 (deferredUntil 2030 (by decide)))) := by
  intro reads
  obtain ⟨ready, deferred⟩ := copy_stores_inserted_rows (fun _ => true) reads
    (List.replicate 2048 readySample) (List.replicate 2048 (deferredUntil 2030 (by decide)))
  constructor
  · apply ready.2
    right
    intro row member
    rw [List.eq_of_mem_replicate member]
    decide
  · apply deferred.2
    right
    intro row member
    rw [List.eq_of_mem_replicate member]
    decide

/-- With a job that is put off until the year 10000, `COPY` refuses the batch. -/
theorem copy_refuses_year :
    let rows :=
      deferredUntil 10000 (by decide) :: List.replicate 2047 (deferredUntil 2030 (by decide))
    insertDeferredRowsCopy (fun _ => true) rows = none ∧
      (executeDeferredInserts rows).length = 2048 := by
  intro rows
  have refused : deferredRowIn (fun _ => true) (deferredCells (deferredUntil 10000 (by decide))) =
    none := by decide +kernel
  constructor
  · have large : ¬rows.length < copyMinRows := by
      rw [List.length_cons, List.length_replicate]
      decide
    rw [insertDeferredRowsCopy, if_neg large, copyDeferredRows, read_deferredBuffer,
      Option.bind_some, List.map_cons, List.mapM_cons,
      refused]
    rfl
  · rw [executeDeferredInserts, List.length_map, List.length_cons, List.length_replicate]

end AwaQueue.Copy
