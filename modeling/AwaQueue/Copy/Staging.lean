import AwaQueue.Copy.Fields
import AwaQueue.Library.Machine
import AwaQueue.Library.TextArray

/-! `insert_many_copy`: the CSV text that fills the staging table, against the `INSERT` that fills
it for small batches. -/

namespace AwaQueue.Copy
open List Library

def needsQuotes (value : Text) : Bool :=
  value.isEmpty || value.any (fun c => c = ',' || c = '"' || c = '\\' || c = '{' || c = '}' ||
    c = ' ') || TextArray.readsNull value

/-- A character of a quoted element, escaped for the array and doubled for the CSV field around it.
-/
def writeElementChar (c : Char) : Text :=
  if c = '"' then ['\\', '"', '"'] else if c = '\\' then ['\\', '\\'] else [c]

def writeElement (value : Text) : Text :=
  if needsQuotes value then ['"', '"'] ++ value.flatMap writeElementChar ++ ['"', '"'] else value

def writePgTextArray (values : List Text) : Text :=
  '"' :: '{' :: [','].intercalate (values.map writeElement) ++ ['}', '"']

def arrayElement (value : Text) : Text := if needsQuotes value then TextArray.quote value else value

theorem flatMap_intercalate {α β : Type} (f : α → List β) (separator : List α)
    (xs : List (List α)) :
    (separator.intercalate xs).flatMap f = (separator.flatMap f).intercalate
      (xs.map fun x => x.flatMap f) := by
  induction xs with
  | nil => rfl
  | cons x xs ih =>
    cases xs with
    | nil => simp
    | cons y ys =>
      rw [intercalate_cons_cons, flatMap_append, flatMap_append, ih]
      simp [intercalate_cons_cons]

theorem writeElement_eq (value : Text) :
    writeElement value = (arrayElement value).flatMap Csv.double := by
  unfold writeElement arrayElement
  split
  · have each : ∀ c ∈ value, writeElementChar c = (TextArray.escape c).flatMap Csv.double := by
      intro c _
      unfold writeElementChar TextArray.escape
      by_cases quote : c = '"'
      · subst quote
        rfl
      · by_cases backslash : c = '\\'
        · subst backslash
          rfl
        · simp [quote, backslash, Csv.double]
    rw [TextArray.quote, flatMap_congr each]
    simp [flatMap_assoc, Csv.double]
  · next plain =>
    simp only [needsQuotes, Bool.or_eq_true, any_eq_true, decide_eq_true_eq, not_or, not_exists,
      not_and] at plain
    have single : ∀ c ∈ value, Csv.double c = [c] := by
      intro c mem
      exact if_neg (plain.1.2 c mem).1.1.1.1.2
    rw [flatMap_congr single]
    simp

theorem writePgTextArray_eq (values : List Text) :
    writePgTextArray values = Csv.quote (TextArray.literal (values.map arrayElement)) := by
  have elements : [','].intercalate (values.map writeElement) =
      ([','].intercalate (values.map arrayElement)).flatMap Csv.double := by
    have comma : [','].flatMap Csv.double = [','] := rfl
    rw [flatMap_intercalate, map_map, comma]
    congr 1
    exact map_congr_left fun value _ => writeElement_eq value
  rw [writePgTextArray, elements, Csv.quote, TextArray.literal]
  simp [Csv.double]

def TagSafe (tag : Text) : Prop := needsQuotes tag = true ∨ TextArray.Trimmed tag

instance (tag : Text) : Decidable (TagSafe tag) := inferInstanceAs (Decidable (_ ∨ _))

theorem plain_of_bare {tag : Text} (bare : ¬needsQuotes tag = true) :
    tag ≠ [] ∧ (∀ c ∈ tag, TextArray.special c = false) ∧ TextArray.readsNull tag = false := by
  simp only [needsQuotes, Bool.or_eq_true, List.isEmpty_iff, List.any_eq_true, decide_eq_true_eq,
    not_or, not_exists, not_and] at bare
  refine ⟨bare.1.1, fun c mem => ?_, Bool.eq_false_iff.2 bare.2⟩
  obtain ⟨⟨⟨⟨⟨comma, quote⟩, backslash⟩, opening⟩, closing⟩, -⟩ := bare.1.2 c mem
  simp [TextArray.special, comma, quote, backslash, opening, closing]

theorem arrayElement_encodes {tag : Text} (safe : TagSafe tag) :
    TextArray.Encodes (arrayElement tag) (some tag) := by
  unfold arrayElement
  split
  · exact TextArray.encodes_quote tag
  · next bare =>
    obtain ⟨some_, plain, word⟩ := plain_of_bare bare
    exact TextArray.encodes_bare some_ plain (safe.resolve_left bare) word

/-- An unsafe tag does not come back, before a comma or at the end. -/
theorem tagSafe_of_read {r : TextArray.Reader} {items : List (Option Text)}
    (here : r = .start ∧ items = [] ∨ r = .next items) (tag : Text) :
    (∀ r', r.run (arrayElement tag ++ [',']) = some r' → ∃ item, r' = .next (items ++ [item]) ∧
      (item = some tag → TagSafe tag)) ∧
      (r.run (arrayElement tag ++ ['}']) = some (.done (items ++ [some tag])) → TagSafe tag) := by
  unfold arrayElement
  split
  next quoted =>
    have read := TextArray.encodes_quote tag r items here
    refine ⟨fun r' ran => ?_, fun _ => .inl quoted⟩
    rw [read.1] at ran
    exact ⟨some tag, (Option.some.inj ran).symm, fun _ => .inl quoted⟩
  next bare =>
    have read := TextArray.trimmed_of_read here (plain_of_bare bare).2.1
    refine ⟨fun r' ran => ?_, fun ran => .inr (read.2 ran)⟩
    obtain ⟨item, next, trimmed⟩ := read.1 r' ran
    exact ⟨item, next, fun same => .inr (trimmed same)⟩

theorem tagsSafe_of_run {tags : List Text} {r : TextArray.Reader} {items : List (Option Text)}
    (here : r = .start ∧ items = [] ∨ r = .next items) (some_ : tags ≠ [])
    (ran : r.run ([','].intercalate (tags.map arrayElement) ++ ['}']) =
    some (.done (items ++ tags.map some))) : ∀ tag ∈ tags, TagSafe tag := by
  induction tags generalizing r items with
  | nil => exact absurd rfl some_
  | cons tag rest ih =>
    cases rest with
    | nil =>
      have alone : [','].intercalate ([tag].map arrayElement) = arrayElement tag := by simp
      rw [alone] at ran
      intro other member
      rw [mem_singleton.1 member]
      exact (tagSafe_of_read here tag).2 ran
    | cons second rest =>
      have split : [','].intercalate ((tag :: second :: rest).map arrayElement) ++ ['}'] =
          (arrayElement tag ++ [',']) ++ ([','].intercalate ((second :: rest).map arrayElement) ++
            ['}']) := by
        simp [intercalate_cons_cons]
      rw [split, TextArray.run_append] at ran
      obtain ⟨middle, first, later⟩ := Option.bind_eq_some_iff.1 ran
      obtain ⟨item, rfl, safe⟩ := (tagSafe_of_read here tag).1 middle first
      -- what was read first stays in the list
      have kept : items ++ [item] <+: items ++ (tag :: second :: rest).map some :=
        TextArray.listed_run later
      have same : item = some tag := by simpa using kept
      rw [same] at later
      intro other member
      rcases mem_cons.1 member with rfl | member
      · exact safe same
      · have listed :
          items ++ (tag :: second :: rest).map some = (items ++ [some tag]) ++
          (second :: rest).map some := by simp
        rw [listed] at later
        exact ih (.inr rfl) (cons_ne_nil _ _) later other member

theorem read_tags {tags : List Text} :
    TextArray.read (TextArray.literal (tags.map arrayElement)) = some (tags.map some) ↔
      ∀ tag ∈ tags, TagSafe tag := by
  constructor
  · intro read
    cases tags with
    | nil => exact forall_mem_nil _
    | cons tag rest =>
      unfold TextArray.read at read
      split at read
      next ran =>
        rw [Option.some.inj read] at ran
        exact tagsSafe_of_run (.inl ⟨rfl, rfl⟩) (cons_ne_nil _ _) ran
      next => cases read
  · intro safe
    apply TextArray.read_literal
    rw [forall₂_map_left_iff, forall₂_map_right_iff, forall₂_same]
    exact fun tag mem => arrayElement_encodes (safe tag mem)

structure UniqueStates where
  bits : List Bool
  eight : bits.length = 8
  deriving DecidableEq

def UniqueStates.text (states : UniqueStates) : Text := states.bits.map fun bit =>
    if bit then '1' else '0'

def bit8In (text : Text) : Option UniqueStates :=
  if eight : (text.map fun c => decide (c = '1')).length = 8 then
    if text.all fun c => c = '0' || c = '1' then some ⟨text.map fun c => decide (c = '1'), eight⟩
      else none
  else none

theorem bit8In_text (states : UniqueStates) : bit8In states.text = some states := by
  have back : (states.text.map fun c => decide (c = '1')) = states.bits := by
    rw [UniqueStates.text, map_map]
    conv_rhs => rw [← map_id states.bits]
    exact map_congr_left fun bit _ => by cases bit <;> rfl
  have digits : (states.text.all fun c => c = '0' || c = '1') = true := by
    rw [UniqueStates.text, all_map, all_eq_true]
    intro bit _
    cases bit <;> rfl
  rw [bit8In, dif_pos (by rw [back]; exact states.eight), if_pos digits]
  simp only [back]

/-- `PreparedJobInsert`, and a row of the staging table, whose times are microseconds since 2000 and
whose array of tags may hold NULLs. -/
structure StagingRow (Time Tag : Type) where
  kind : Text
  queue : Text
  args : Text
  state : JobState
  priority : Int
  maxAttempts : Int
  runAt : Option Time
  metadata : Text
  tags : List Tag
  uniqueKey : Option (List UInt8)
  uniqueStates : Option UniqueStates
  orderingKey : Option (List UInt8)
  deriving DecidableEq

abbrev PreparedRow := StagingRow Timestamp Text

abbrev StoredRow := StagingRow Int (Option Text)

def PreparedRow.bound (row : PreparedRow) : StoredRow :=
  { row with runAt := row.runAt.map Timestamp.bound, tags := row.tags.map some }

def stageRowsWithInsert (rows : List PreparedRow) : List StoredRow := rows.map PreparedRow.bound

def csvFields (row : PreparedRow) : List Text :=
  [writeField row.kind, writeField row.queue, writeField row.args, writeField (stateText row.state),
    intText row.priority, intText row.maxAttempts, writeOptional rfc3339 row.runAt,
      writeField row.metadata, writePgTextArray row.tags,
    writeOptional byteaText row.uniqueKey, writeOptional UniqueStates.text row.uniqueStates,
      writeOptional byteaText row.orderingKey]

def writeCsvRow (row : PreparedRow) : Text := Csv.line (csvFields row)

def csvBuffer (rows : List PreparedRow) : Text := rows.flatMap writeCsvRow

def csvCells (row : PreparedRow) : List (Option Text) :=
  [some row.kind, some row.queue, some row.args, some (stateText row.state),
    some (intText row.priority),
    some (intText row.maxAttempts), row.runAt.map rfc3339, some row.metadata,
    some (TextArray.literal (row.tags.map arrayElement)), row.uniqueKey.map byteaText,
      row.uniqueStates.map UniqueStates.text,
    row.orderingKey.map byteaText]

def stagingRowIn (tieUp : Nat → Bool) : List (Option Text) → Option StoredRow
  | [some kind, some queue, some args, some state, some priority, some maxAttempts, runAt,
      some metadata, some tags, uniqueKey, uniqueStates, orderingKey] => do
    let state ← stateIn state
    let priority ← intIn priority
    let maxAttempts ← intIn maxAttempts
    let runAt ← columnIn (timestamptzIn tieUp) runAt
    let tags ← TextArray.read tags
    let uniqueKey ← columnIn byteaIn uniqueKey
    let uniqueStates ← columnIn bit8In uniqueStates
    let orderingKey ← columnIn byteaIn orderingKey
    return ⟨kind, queue, args, state, priority, maxAttempts, runAt, metadata, tags, uniqueKey,
      uniqueStates, orderingKey⟩
  | _ => none

def copyStagingRows (tieUp : Nat → Bool) (text : Text) : Option (List StoredRow) :=
  (Csv.read copyNullSentinel text).bind (List.mapM (stagingRowIn tieUp))

theorem csvFields_encode (row : PreparedRow) :
    List.Forall₂ Encodes (csvFields row) (csvCells row) := by
  have tags : Encodes (writePgTextArray row.tags)
      (some (TextArray.literal (row.tags.map arrayElement))) := by
    rw [writePgTextArray_eq]
    exact Csv.encodes_quote _
  exact .cons (encodes_field _) (.cons (encodes_field _)
    (.cons (encodes_field _) (.cons (encodes_field _)
      (.cons (encodes_int _) (.cons (encodes_int _)
      (.cons (encodes_optional _ _) (.cons (encodes_field _)
      (.cons tags (.cons (encodes_optional _ _)
    (.cons (encodes_optional _ _) (.cons (encodes_optional _ _) .nil)))))))))))

/-- What a row needs to come through: no tag with white space at its ends goes without quotes, and
its time is a common one. -/
structure RowSafe (tieUp : Nat → Bool) (row : PreparedRow) : Prop where
  tags : ∀ tag ∈ row.tags, TagSafe tag
  runAt : ∀ t ∈ row.runAt, t.Common tieUp

theorem stagingRowIn_csvCells {tieUp : Nat → Bool} {row : PreparedRow} :
    stagingRowIn tieUp (csvCells row) = some row.bound ↔ RowSafe tieUp row := by
  have bytes (value : Option (List UInt8)) : columnIn byteaIn (value.map byteaText) = some value :=
    columnIn_map fun bytes _ => byteaIn_byteaText bytes
  have states : columnIn bit8In (row.uniqueStates.map UniqueStates.text) = some row.uniqueStates :=
    columnIn_map fun states _ => bit8In_text states
  have read : stagingRowIn tieUp (csvCells row) =
      (columnIn (timestamptzIn tieUp) (row.runAt.map rfc3339)).bind fun runAt =>
      (TextArray.read (TextArray.literal (row.tags.map arrayElement))).map fun tags =>
        { row with runAt := runAt, tags := tags } := by
    rw [csvCells, stagingRowIn, stateIn_stateText, intIn_intText, intIn_intText, bytes,
      bytes, states]
    cases columnIn (timestamptzIn tieUp) (row.runAt.map rfc3339) with
    | none => rfl
    | some runAt => cases TextArray.read (TextArray.literal (row.tags.map arrayElement)) <;> rfl
  rw [read]
  constructor
  · intro same
    obtain ⟨runAt, time, same⟩ := Option.bind_eq_some_iff.1 same
    obtain ⟨tags, literal, same⟩ := Option.map_eq_some_iff.1 same
    have times : runAt = row.runAt.map Timestamp.bound := congrArg StagingRow.runAt same
    have texts : tags = row.tags.map some := congrArg StagingRow.tags same
    rw [times] at time
    rw [texts] at literal
    exact ⟨read_tags.1 literal, columnIn_time.1 time⟩
  · intro safe
    rw [columnIn_time.2 safe.runAt, read_tags.2 safe.tags]
    rfl

/-- The `COPY` of `insert_many_copy` stores what its `INSERT` stores, if and only if every row is
safe. -/
theorem copy_stages_prepared_rows (tieUp : Nat → Bool) (rows : List PreparedRow) :
    copyStagingRows tieUp (csvBuffer rows) = some (stageRowsWithInsert rows) ↔
      ∀ row ∈ rows, RowSafe tieUp row := by
  have read : Csv.read copyNullSentinel (csvBuffer rows) = some (rows.map csvCells) :=
    Csv.read_lines (fun row _ => csvFields_encode row) fun row _ => show 2 ≤ 12 by decide
  rw [copyStagingRows, read, Option.bind_some, mapM_eq_some, stageRowsWithInsert, List.map_map,
    List.map_map, List.map_inj_left]
  exact forall₂_congr fun row _ => stagingRowIn_csvCells

def plainRow (tags : List Text) (runAt : Option Timestamp) : PreparedRow where
  kind := "send_email".toList
  queue := "mail, \"urgent\"".toList
  args := "\x7b\"to\":\"a\\\\b\"\x7d".toList
  state := .scheduled
  priority := -2
  maxAttempts := 25
  runAt := runAt
  metadata := "\x7b\x7d".toList
  tags := tags
  uniqueKey := some [0, 255]
  uniqueStates := some ⟨[true, true, true, false, true, false, false, true], rfl⟩
  orderingKey := none

/-- Tags that need every kind of protection. -/
theorem copy_stages_prepared_rows_tags :
    copyStagingRows (fun _ => true) (csvBuffer
      [plainRow [[], "null".toList, "a b".toList, "\"\\,\x7b\x7d".toList, "a\tb".toList]
      (some ⟨2026, 2, 28, 23, 59, 59, 120000000, by decide, by decide⟩)]) =
    some (stageRowsWithInsert [plainRow [[], "null".toList, "a b".toList, "\"\\,\x7b\x7d".toList,
      "a\tb".toList] (some ⟨2026, 2, 28, 23, 59, 59, 120000000, by decide, by decide⟩)]) := by
  apply (copy_stages_prepared_rows _ _).2
  intro row member
  rw [List.mem_singleton.1 member]
  refine ⟨by decide +kernel, fun t there => ?_⟩
  rw [← Option.some.inj there]
  decide

/-- A tab at the start of a tag is lost, a tab before `NULL` makes the tag NULL, a time in the year
10000 is refused, and 600 nanoseconds are rounded up. -/
theorem copy_loses_tab :
    copyStagingRows (fun _ => true) (csvBuffer [plainRow ["\tred".toList, "\tNULL".toList] none]) =
      some (stageRowsWithInsert [plainRow [] none] |>.map fun row =>
        { row with tags := [some "red".toList, none] }) ∧
    copyStagingRows (fun _ => true) (csvBuffer
      [plainRow [] (some ⟨10000, 1, 1, 0, 0, 0, 0, by decide, by decide⟩)]) = none ∧
    copyStagingRows (fun _ => true) (csvBuffer
      [plainRow [] (some ⟨2000, 1, 1, 0, 0, 0, 600, by decide, by decide⟩)]) =
      some [{ PreparedRow.bound (plainRow [] none) with runAt := some 1 }] ∧
    stageRowsWithInsert [plainRow [] (some ⟨2000, 1, 1, 0, 0, 0, 600, by decide, by decide⟩)] =
      [{ PreparedRow.bound (plainRow [] none) with runAt := some 0 }] := by
  refine ⟨?_, ?_, ?_, ?_⟩
  all_goals decide +kernel

end AwaQueue.Copy
