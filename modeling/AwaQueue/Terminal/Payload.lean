import Mathlib.Data.List.Nodup
import AwaQueue.Lane.Tables

/-! What is kept of a payload when an attempt completes.

A terminal row leaves its payload out when it is empty or that of its ready row, and `terminal_jobs`
then shows the payload of the ready row. A compact completion stores no row of the job at all; every
column that the attempt did not change is read from the ready row. -/

namespace AwaQueue.Payload
variable {J : Type}

/-- A JSON value: `null`, or a value that nothing here looks into. -/
abbrev Json (J : Type) := Option J

/-- The value of a `payload` column. A key that is absent is `none`, and no function reads `others`.
-/
inductive PayloadValue (J : Type) where
  | null
  | object (metadata : Option (List (String × Json J))) (tags : Option (List String))
      (errors : Option (List (Json J)))
      (progress : Option (Json J)) (others : List (String × Json J))
deriving DecidableEq

structure RuntimePayload (J : Type) where
  metadata : List (String × Json J) := []
  tags : List String := []
  errors : List (Json J) := []
  progress : Option (Json J) := none
deriving DecidableEq

namespace PayloadValue

def emptyObject : PayloadValue J := .object none none none none []

def isStorageEmpty : PayloadValue J → Bool
  | .null => true
  | .object metadata tags errors progress others =>
    metadata.isNone && tags.isNone && errors.isNone && progress.isNone && others.isEmpty

/-- `RuntimePayload::from_json`; a `null` progress is read as none. -/
def fromJson : PayloadValue J → RuntimePayload J
  | .null => {}
  | .object metadata tags errors progress _ =>
    ⟨metadata.getD [], tags.getD [], errors.getD [], progress.filter Option.isSome⟩

end PayloadValue

open PayloadValue

def RuntimePayload.intoJson (payload : RuntimePayload J) : PayloadValue J :=
  .object (if payload.metadata.isEmpty then none else some payload.metadata)
    (if payload.tags.isEmpty then none else some payload.tags)
    (if payload.errors.isEmpty then none else some payload.errors) payload.progress []

def payloadFromParts (metadata : List (String × Json J)) (tags : List String)
    (errors : Option (List (Json J))) (progress : Option (Json J)) : PayloadValue J :=
  RuntimePayload.intoJson ⟨metadata, tags, errors.getD [], progress⟩

def storagePayload (value : PayloadValue J) : Option (PayloadValue J) :=
  if value.isStorageEmpty then none else some value

def terminalStoragePayload [DecidableEq J] (value : PayloadValue J)
    (ready : Option (PayloadValue J)) : Option (PayloadValue J) :=
  if value.isStorageEmpty || ready.any (fun r => r = value) then none else some value

/-- `COALESCE(done.payload, ready.payload, '{}')`. -/
def readBack (done ready : Option (PayloadValue J)) : PayloadValue J :=
  (done.or ready).getD emptyObject

structure ReadyEntry (J : Type) extends JobRecord String (Json J) (Option (PayloadValue J)) where
  key : ReadyTombstone
  runAt : Nat
  attemptedAt : Option Nat
deriving DecidableEq

structure ClaimCall where
  priority : Nat
  claimedAt : Nat
  hasDeadline : Bool
  claimSlot : Nat
  leaseClaimReceipt : Bool
  receiptId : Option Nat
deriving DecidableEq

structure JobRow (J : Type) where
  id : Nat
  kind : String
  queue : Nat
  args : Json J
  state : JobState
  priority : Nat
  attempt : Nat
  runLease : Nat
  maxAttempts : Nat
  runAt : Nat
  attemptedAt : Option Nat
  finalizedAt : Option Nat
  createdAt : Nat
  errors : Option (List (Json J))
  metadata : List (String × Json J)
  tags : List String
  uniqueKey : Option String
  progress : Option (Json J)
  output : Option (Json J)
deriving DecidableEq

structure ClaimedRuntimeJob (J : Type) where
  key : ReadyTombstone
  claimSlot : Nat
  leaseClaimReceipt : Bool
  receiptId : Option Nat
  job : JobRow J
  uniqueStates : Option String
deriving DecidableEq

def RuntimePayload.errorsOption (payload : RuntimePayload J) : Option (List (Json J)) :=
  if payload.errors.isEmpty then none else some payload.errors

def orInsert (metadata : List (String × Json J)) (key : String) (value : Json J) :
    List (String × Json J) :=
  if metadata.any fun entry => entry.1 = key then metadata else metadata ++ [(key, value)]

/-- The claim and `ReadyJobLeaseRow::into_claimed_runtime_job`. An aged job notes the priority of
its lane, which `number` makes a JSON value. -/
def ReadyEntry.claimed (row : ReadyEntry J) (call : ClaimCall) (number : Nat → J) :
    ClaimedRuntimeJob J :=
  let payload := (row.payload.getD emptyObject).fromJson
  let lanePriority := row.key.lane.priority
  { key := row.key
    claimSlot := call.claimSlot
    leaseClaimReceipt := call.leaseClaimReceipt
    receiptId := call.receiptId
    job :=
      { id := row.jobId
        kind := row.kind
        queue := row.key.lane.queue
        args := row.args
        state := .running
        priority := call.priority
        attempt := row.attempt + 1
        runLease := row.runLease + 1
        maxAttempts := row.maxAttempts
        runAt := row.runAt
        attemptedAt := if call.hasDeadline then some call.claimedAt else none
        finalizedAt := none
        createdAt := row.createdAt
        errors := payload.errorsOption
        metadata :=
          if call.priority < lanePriority then
            orInsert payload.metadata "_awa_original_priority" (some (number lanePriority))
          else payload.metadata
        tags := payload.tags
        uniqueKey := row.uniqueKey
        progress := payload.progress
        output := none }
    uniqueStates := row.uniqueStates }

def isCompactReceiptCompletionMetadata (metadata : List (String × Json J)) : Bool :=
  metadata.all fun entry => entry.1 = "_awa_original_priority" || entry.1 = "_awa_original_queue"

def receiptFastCompleteCandidate (x : ClaimedRuntimeJob J) : Bool :=
  x.leaseClaimReceipt && x.receiptId.isSome && x.job.uniqueKey.isNone &&
    isCompactReceiptCompletionMetadata x.job.metadata && x.job.tags.isEmpty &&
      (x.job.errors.all fun errors => errors.isEmpty)

structure CompletionItem (J : Type) where
  key : ReadyTombstone
  jobId : Nat
  attempt : Nat
  runLease : Nat
  attemptedAt : Option Nat
  finalizedAt : Nat
  output : Option (Json J)
deriving DecidableEq

/-- A row of `done_entries` that keeps its ready row, as the slow path inserts it. -/
structure DoneEntry (J : Type) extends CompletionItem J where
  kind : String
  state : JobState
  payload : Option (PayloadValue J)
deriving DecidableEq

def readyPayload (ready : List (ReadyEntry J)) (key : ReadyTombstone) : Option (PayloadValue J) :=
  (ready.find? fun row => row.key = key).map fun row => row.payload.getD emptyObject

/-- `into_done_row` and `insert_done_rows_tx`: the progress of the attempt is not kept. -/
def ClaimedRuntimeJob.doneEntry [DecidableEq J] (x : ClaimedRuntimeJob J)
    (ready : List (ReadyEntry J)) (finalizedAt : Nat) : DoneEntry J where
  key := { x.key with lane := { x.key.lane with queue := x.job.queue } }
  jobId := x.job.id
  kind := x.job.kind
  state := .completed
  attempt := x.job.attempt
  runLease := x.job.runLease
  attemptedAt := x.job.attemptedAt
  finalizedAt
  payload :=
    terminalStoragePayload (payloadFromParts x.job.metadata x.job.tags x.job.errors none)
      (readyPayload ready x.key)
  output := x.job.output

def ClaimedRuntimeJob.completionItem (x : ClaimedRuntimeJob J) (finalizedAt : Nat) :
    CompletionItem J where
  key := { x.key with lane := { x.key.lane with queue := x.job.queue } }
  jobId := x.job.id
  attempt := x.job.attempt
  runLease := x.job.runLease
  attemptedAt := x.job.attemptedAt
  finalizedAt
  output := x.job.output

def terminalJob (key : ReadyTombstone) (jobId : Nat) (kind : String) (args : Json J)
    (state : JobState) (attempt runLease maxAttempts runAt : Nat) (attemptedAt : Option Nat)
    (finalizedAt createdAt : Nat) (uniqueKey : Option String) (payload : PayloadValue J)
    (output : Option (Json J)) : JobRow J where
  id := jobId
  kind
  queue := key.lane.queue
  args
  state
  priority := key.lane.priority
  attempt
  runLease
  maxAttempts
  runAt
  attemptedAt
  finalizedAt := some finalizedAt
  createdAt
  errors := payload.fromJson.errorsOption
  metadata := payload.fromJson.metadata
  tags := payload.fromJson.tags
  uniqueKey
  progress := payload.fromJson.progress
  output

/-- The first half of `terminal_jobs`, for a row that stores only its own columns. -/
def DoneEntry.view (done : DoneEntry J) (ready : List (ReadyEntry J)) (emptyArgs : Json J) :
    JobRow J :=
  let row := ready.find? fun row => row.key = done.key
  terminalJob done.key done.jobId done.kind ((row.map (·.args)).getD emptyArgs) done.state
    done.attempt done.runLease ((row.map (·.maxAttempts)).getD 25)
    ((row.map (·.runAt)).getD done.finalizedAt) (done.attemptedAt.or (row.bind (·.attemptedAt)))
    done.finalizedAt ((row.map (·.createdAt)).getD done.finalizedAt) (row.bind (·.uniqueKey))
    (readBack done.payload (row.bind (·.payload))) done.output

def CompletionItem.view (item : CompletionItem J) (ready : List (ReadyEntry J)) :
    Option (JobRow J) :=
  (ready.find? fun row => row.key = item.key ∧ row.jobId = item.jobId).map fun row =>
    terminalJob item.key item.jobId row.kind row.args .completed item.attempt item.runLease
      row.maxAttempts row.runAt item.attemptedAt item.finalizedAt row.createdAt row.uniqueKey
        (row.payload.getD emptyObject) item.output

section
variable {value : PayloadValue J} {payload : RuntimePayload J} {ready : Option (PayloadValue J)}

theorem fromJson_of_isStorageEmpty (empty : value.isStorageEmpty = true) : value.fromJson = {} := by
  cases value with
  | null => rfl
  | object metadata tags errors progress others =>
    simp only [isStorageEmpty, Bool.and_eq_true, Option.isNone_iff_eq_none,
      List.isEmpty_iff] at empty
    obtain ⟨⟨⟨⟨rfl, rfl⟩, rfl⟩, rfl⟩, rfl⟩ := empty
    rfl

theorem fromJson_intoJson (read : payload.progress.filter Option.isSome = payload.progress) :
    payload.intoJson.fromJson = payload := by
  obtain ⟨metadata, tags, errors, progress⟩ := payload
  dsimp only [RuntimePayload.intoJson, fromJson] at read ⊢
  rw [read]
  cases metadata <;> cases tags <;> cases errors <;> rfl

theorem isStorageEmpty_intoJson : payload.intoJson.isStorageEmpty = true ↔
    payload.metadata = [] ∧ payload.tags = [] ∧ payload.errors = [] ∧ payload.progress = none := by
  obtain ⟨metadata, tags, errors, progress⟩ := payload
  cases metadata <;> cases tags <;> cases errors <;> cases progress <;>
    simp [RuntimePayload.intoJson, isStorageEmpty]

/-- What is elided because of the ready row is the payload of the ready row. -/
theorem terminalStoragePayload_cases [DecidableEq J] (value : PayloadValue J)
    (ready : Option (PayloadValue J)) :
    (value.isStorageEmpty = true ∧ terminalStoragePayload value ready = none) ∨
      (value.isStorageEmpty = false ∧ ready = some value ∧
      terminalStoragePayload value ready = none) ∨
      terminalStoragePayload value ready = some value := by
  unfold terminalStoragePayload
  cases empty : value.isStorageEmpty
  · cases ready with
    | none => exact .inr (.inr rfl)
    | some r =>
      by_cases same : r = value
      · exact .inr (.inl ⟨rfl, congrArg some same, if_pos (by simp [same])⟩)
      · exact .inr (.inr (if_neg (by simp [same])))
  · exact .inl ⟨rfl, rfl⟩

/-- A terminal row reads back as the payload it was given, unless that is empty and the one of its
ready row is not. -/
theorem fromJson_readBack [DecidableEq J] :
    (readBack (terminalStoragePayload value ready) ready).fromJson = value.fromJson ↔
    (value.isStorageEmpty = true → (ready.getD emptyObject).fromJson = {}) := by
  obtain ⟨empty, elided⟩ | ⟨filled, rfl, elided⟩ | stored :=
    terminalStoragePayload_cases value ready
  · rw [elided, fromJson_of_isStorageEmpty empty]
    exact ⟨fun covered _ => covered, fun covered => covered empty⟩
  · rw [elided, filled]
    exact ⟨fun _ empty => absurd empty Bool.false_ne_true, fun _ => rfl⟩
  · rw [stored]
    refine ⟨fun _ empty => ?_, fun _ => rfl⟩
    simp [terminalStoragePayload, empty] at stored

/-- It shows what the ready row shows, if it was given an empty payload or one that reads the same.
-/
theorem fromJson_readBack_eq_ready [DecidableEq J]
    (same : value.isStorageEmpty = true ∨ value.fromJson = (ready.getD emptyObject).fromJson) :
    (readBack (terminalStoragePayload value (some (ready.getD emptyObject))) ready).fromJson =
      (ready.getD emptyObject).fromJson := by
  obtain ⟨-, elided⟩ | ⟨-, -, elided⟩ | stored := terminalStoragePayload_cases value
    (some (ready.getD emptyObject))
  · rw [elided]
    rfl
  · rw [elided]
    rfl
  · rw [stored]
    rcases same with empty | same
    · unfold terminalStoragePayload at stored
      rw [empty] at stored
      cases stored
    · exact same

end

section
variable {ready : List (ReadyEntry J)} {row : ReadyEntry J} {call : ClaimCall} {number : Nat → J}

theorem find?_key {p : ReadyEntry J → Bool} (distinct : (ready.map ReadyEntry.key).Nodup)
    (mem : row ∈ ready) (chosen : p row = true)
    (only : ∀ other, p other = true → other.key = row.key) : ready.find? p = some row := by
  obtain ⟨other, found⟩ := Option.isSome_iff_exists.1 (List.find?_isSome.2 ⟨row, mem, chosen⟩)
  have same := only other (List.find?_some found)
  rw [found, List.inj_on_of_nodup_map distinct (List.mem_of_find?_eq_some found) mem same]

theorem DoneEntry.view_eq {done : DoneEntry J} {emptyArgs : Json J}
    (found : (ready.find? fun other => other.key = done.key) = some row) :
    done.view ready emptyArgs = terminalJob done.key done.jobId done.kind row.args done.state
      done.attempt done.runLease row.maxAttempts row.runAt (done.attemptedAt.or row.attemptedAt)
      done.finalizedAt row.createdAt row.uniqueKey
      (readBack done.payload row.payload) done.output := by
  unfold DoneEntry.view
  rw [found]
  rfl

/-- The claim leaves the payload of the job as the ready row has it, and the attempt has a time of
its own or follows none. A progress that an earlier attempt left counts only beside metadata. -/
structure Unaltered (row : ReadyEntry J) (call : ClaimCall) : Prop where
  priority : call.priority < row.key.lane.priority →
    ((row.payload.getD emptyObject).fromJson.metadata.any fun entry => entry.1 =
      "_awa_original_priority") = true
  attempted : call.hasDeadline = true ∨ row.attemptedAt = none
  progress : (row.payload.getD emptyObject).fromJson.metadata = [] ∨
    (row.payload.getD emptyObject).fromJson.progress = none

theorem Unaltered.metadata (plain : Unaltered row call) :
    (row.claimed call number).job.metadata = (row.payload.getD emptyObject).fromJson.metadata := by
  dsimp only [ReadyEntry.claimed]
  split_ifs with aged
  · exact if_pos (plain.priority aged)
  · rfl

theorem errors_of_candidate {payload : RuntimePayload J}
    (none : (payload.errorsOption.all fun errors => errors.isEmpty) = true) :
    payload.errors = [] := by
  unfold RuntimePayload.errorsOption at none
  cases errors : payload.errors with
  | nil => rfl
  | cons e rest =>
    rw [errors] at none
    cases none

theorem Unaltered.attemptedAt (plain : Unaltered row call) :
    (row.claimed call number).job.attemptedAt.or row.attemptedAt =
      (row.claimed call number).job.attemptedAt := by
  dsimp only [ReadyEntry.claimed]
  rcases plain.attempted with deadline | never
  · rw [if_pos deadline]
    rfl
  · rw [never, Option.or_none]

theorem Unaltered.payload (plain : Unaltered row call) (number : Nat → J)
    (tags : (row.payload.getD emptyObject).fromJson.tags = [])
    (errors : (row.payload.getD emptyObject).fromJson.errors = []) :
    let x := row.claimed call number
    let value := payloadFromParts x.job.metadata x.job.tags x.job.errors none
    value.isStorageEmpty = true ∨ value.fromJson = (row.payload.getD emptyObject).fromJson := by
  intro x value
  have written : value = RuntimePayload.intoJson ⟨(row.payload.getD emptyObject).fromJson.metadata,
      [], [], none⟩ := by
    have noErrors : (row.payload.getD emptyObject).fromJson.errorsOption = none := by
      rw [RuntimePayload.errorsOption, errors]
      rfl
    change payloadFromParts (row.claimed call number).job.metadata
      (row.payload.getD emptyObject).fromJson.tags
      (row.payload.getD emptyObject).fromJson.errorsOption none = _
    rw [plain.metadata, tags, noErrors]
    rfl
  rcases plain.progress with bare | none
  · left
    rw [written, isStorageEmpty_intoJson]
    exact ⟨bare, rfl, rfl, rfl⟩
  · right
    rw [written, fromJson_intoJson rfl]
    cases read : (row.payload.getD emptyObject).fromJson with
    | mk metadata tags' errors' progress =>
      rw [read] at tags errors none
      simp only at tags errors none
      rw [tags, errors, none]

theorem orInsert_eq_self {metadata : List (String × Json J)} {key : String} {value : Json J}
    (same : orInsert metadata key value = metadata) :
    (metadata.any fun entry => entry.1 = key) = true := by
  unfold orInsert at same
  split at same
  next present => exact present
  next => exact absurd (congrArg List.length same) (by simp)

theorem orInsert_ne_nil (metadata : List (String × Json J)) (key : String) (value : Json J) :
    orInsert metadata key value ≠ [] := by
  unfold orInsert
  split
  next present =>
    rintro rfl
    cases present
  next => simp

/-- If the slow path shows the metadata and the progress of the ready row, the claim has left them
alone. -/
theorem unaltered_of_shown [DecidableEq J]
    (attempted : call.hasDeadline = true ∨ row.attemptedAt = none)
    (shown : let x := row.claimed call number
      let value := payloadFromParts x.job.metadata x.job.tags x.job.errors none
      let back := (readBack (terminalStoragePayload value (some (row.payload.getD emptyObject)))
        row.payload).fromJson
      back.metadata = (row.payload.getD emptyObject).fromJson.metadata ∧
        back.progress = (row.payload.getD emptyObject).fromJson.progress) :
    Unaltered row call := by
  have aged : call.priority < row.key.lane.priority → (row.claimed call number).job.metadata =
      orInsert (row.payload.getD emptyObject).fromJson.metadata "_awa_original_priority"
        (some (number row.key.lane.priority)) :=
    fun lower => if_pos lower
  have fresh : ¬call.priority < row.key.lane.priority →
      (row.claimed call number).job.metadata = (row.payload.getD emptyObject).fromJson.metadata :=
        fun equal => if_neg equal
  -- what the slow path writes reads back as its parts
  have parts : ∀ value, value = payloadFromParts (row.claimed call number).job.metadata
      (row.claimed call number).job.tags (row.claimed call number).job.errors none →
        value.fromJson.metadata = (row.payload.getD emptyObject).fromJson.metadata →
      value.fromJson.progress = (row.payload.getD emptyObject).fromJson.progress →
        Unaltered row call := by
    rintro _ rfl metadata progress
    rw [payloadFromParts, fromJson_intoJson rfl] at metadata progress
    exact ⟨fun lower => orInsert_eq_self ((aged lower).symm.trans metadata), attempted,
      .inr progress.symm⟩
  obtain ⟨metadata, progress⟩ := shown
  obtain ⟨empty, elided⟩ | ⟨-, ready, elided⟩ | stored := terminalStoragePayload_cases
    (payloadFromParts (row.claimed call number).job.metadata (row.claimed call number).job.tags
      (row.claimed call number).job.errors none) (some (row.payload.getD emptyObject))
  · have bare := (isStorageEmpty_intoJson.1 empty).1
    have equal : ¬call.priority < row.key.lane.priority := fun lower =>
      orInsert_ne_nil _ _ _ ((aged lower).symm.trans bare)
    exact ⟨fun lower => absurd lower equal, attempted, .inl ((fresh equal).symm.trans bare)⟩
  · apply parts _ (Option.some.inj ready)
    · rfl
    · rfl
  · rw [stored] at metadata progress
    exact parts _ rfl metadata progress

end

/-- A payload reads back from a terminal row as it was, if and only if it is not empty over one that
is not. An attempt that qualifies for a compact completion looks the same on both paths, if and only
if its claim left the ready row's payload unaltered. -/
theorem terminal_payloads [DecidableEq J] :
    (∀ (p : PayloadValue J) (r : Option (PayloadValue J)),
      (readBack (terminalStoragePayload p r) r).fromJson = p.fromJson ↔
      (p.isStorageEmpty = true → (r.getD emptyObject).fromJson = {})) ∧
    ∀ (ready : List (ReadyEntry J)) (row : ReadyEntry J) (call : ClaimCall) (number : Nat →
      J) (output : Option (Json J))
      (finalizedAt : Nat) (emptyArgs : Json J), (ready.map ReadyEntry.key).Nodup → row ∈ ready →
      let claimed := row.claimed call number
      let x := { claimed with job := { claimed.job with output := output } }
      receiptFastCompleteCandidate x = true →
        ((x.completionItem finalizedAt).view ready =
          some ((x.doneEntry ready finalizedAt).view ready emptyArgs) ↔ Unaltered row call) := by
  refine ⟨fun p r => fromJson_readBack, ?_⟩
  intro ready row call number output finalizedAt emptyArgs distinct member claimed x candidate
  have byKey : (ready.find? fun other => other.key = row.key) = some row :=
    find?_key distinct member (decide_eq_true rfl) fun other chosen => of_decide_eq_true chosen
  have byJob : (ready.find? fun other => other.key = row.key ∧ other.jobId = row.jobId) =
      some row :=
    find?_key distinct member (decide_eq_true ⟨rfl, rfl⟩) fun other chosen =>
      (of_decide_eq_true chosen).1
  simp only [receiptFastCompleteCandidate, Bool.and_eq_true] at candidate
  obtain ⟨⟨-, noTags⟩, noErrors⟩ := candidate
  have slow : (x.doneEntry ready finalizedAt).view ready emptyArgs =
      terminalJob row.key row.jobId row.kind row.args .completed claimed.job.attempt
        claimed.job.runLease row.maxAttempts row.runAt (claimed.job.attemptedAt.or row.attemptedAt)
          finalizedAt row.createdAt row.uniqueKey (readBack (terminalStoragePayload
          (payloadFromParts claimed.job.metadata claimed.job.tags claimed.job.errors none)
          (some (row.payload.getD emptyObject))) row.payload) output := by
    have stored : readyPayload ready x.key = some (row.payload.getD emptyObject) :=
      congrArg (Option.map _) byKey
    rw [DoneEntry.view_eq byKey]
    dsimp only [ClaimedRuntimeJob.doneEntry]
    rw [stored]
    rfl
  have fast : (x.completionItem finalizedAt).view ready =
      some (terminalJob row.key row.jobId row.kind row.args .completed claimed.job.attempt
        claimed.job.runLease row.maxAttempts row.runAt claimed.job.attemptedAt finalizedAt
          row.createdAt row.uniqueKey (row.payload.getD emptyObject) output) := by
    change Option.map _ (ready.find? fun other => other.key = row.key ∧ other.jobId = row.jobId) = _
    rw [byJob]
    rfl
  rw [fast, slow, Option.some.injEq]
  constructor
  · intro same
    have attempted : call.hasDeadline = true ∨ row.attemptedAt = none := by
      have times : claimed.job.attemptedAt = claimed.job.attemptedAt.or row.attemptedAt :=
        congrArg JobRow.attemptedAt same
      dsimp only [claimed, ReadyEntry.claimed] at times
      cases deadline : call.hasDeadline with
      | true => exact .inl rfl
      | false =>
        rw [deadline] at times
        exact .inr times.symm
    exact unaltered_of_shown attempted ⟨(congrArg JobRow.metadata same).symm,
      (congrArg JobRow.progress same).symm⟩
  · intro plain
    have shown := fromJson_readBack_eq_ready
      (plain.payload number (List.isEmpty_iff.1 noTags) (errors_of_candidate noErrors))
    have attempted : claimed.job.attemptedAt.or row.attemptedAt = claimed.job.attemptedAt :=
      plain.attemptedAt
    rw [attempted]
    unfold terminalJob
    rw [shown]

/-- A ready row of the priority 4 that an earlier attempt left with the progress 7, with or without
a time. -/
def payloadSample (attemptedAt : Option Nat) : ReadyEntry Nat where
  key := ⟨⟨0, 4, 0⟩, 0, ⟨0, 0⟩⟩
  jobId := 1
  kind := "sync"
  args := some 0
  attempt := 1
  runLease := 1
  maxAttempts := 25
  runAt := 0
  attemptedAt
  createdAt := 0
  uniqueKey := none
  uniqueStates := none
  payload := some (.object none none none (some (some 7)) [])

def claimSample (priority : Nat) : ClaimCall := ⟨priority, 5, false, 0, true, some 1⟩

/-- Claimed at the priority of its lane. -/
theorem terminal_payloads_sample :
    receiptFastCompleteCandidate ((payloadSample none).claimed (claimSample 4) id) = true ∧
      (((payloadSample none).claimed (claimSample 4) id).completionItem 9).view
        [payloadSample none] = some ((((payloadSample none).claimed (claimSample 4) id).doneEntry
          [payloadSample none] 9).view [payloadSample none] (some 0)) :=
  ⟨by decide, (terminal_payloads.2 [payloadSample none] (payloadSample none) (claimSample 4) id
    none 9 (some 0) (List.nodup_singleton _) (List.mem_singleton_self _) (by decide)).2
    ⟨fun aged => absurd aged (by decide), .inr rfl, .inl rfl⟩⟩

/-- An empty payload over a ready row with a progress shows that progress. An aged attempt that
qualifies shows the priority of its lane on the slow path only, and one that follows an earlier
attempt shows the time of that one. -/
theorem payloads_not_kept : let aged := (payloadSample none).claimed (claimSample 1) id
    let retried := (payloadSample (some 3)).claimed (claimSample 4) id
    (readBack (terminalStoragePayload emptyObject (payloadSample none).payload)
        (payloadSample none).payload).fromJson.progress = some (some 7) ∧
      (receiptFastCompleteCandidate aged = true ∧
        ((aged.completionItem 9).view [payloadSample none]).map JobRow.metadata = some [] ∧
        ((aged.doneEntry [payloadSample none] 9).view [payloadSample none] (some 0)).metadata =
          [("_awa_original_priority", some 4)]) ∧
      receiptFastCompleteCandidate retried = true ∧
        ((retried.completionItem 9).view [payloadSample (some 3)]).map JobRow.attemptedAt =
          some none ∧
        ((retried.doneEntry [payloadSample (some 3)] 9).view [payloadSample (some 3)]
          (some 0)).attemptedAt = some 3 := by
  decide

end AwaQueue.Payload
