import AwaQueue.Copy.Values
import AwaQueue.Lane.Tables

/-! The fields of a `COPY` line. `write_csv_field` of the staging writer and `write_copy_field` of
the queue-storage writer have the same body; a NULL is the bare sentinel that the statement names.
JSON values are the texts that `serde_json` writes for them, which both the `COPY` and the `INSERT`
statements hand to the input function of `jsonb`. -/

namespace AwaQueue.Copy
open Library

def copyNullSentinel : Text := "__AWA_NULL__".toList

def writeField (value : Text) : Text :=
  if value.any (fun c => c = ',' || c = '"' || c = '\n' || c = '\r' || c = '\\') ||
    value = copyNullSentinel then Csv.quote value
  else value

def writeOptional {α : Type} (text : α → Text) : Option α → Text
  | some value => writeField (text value)
  | none => copyNullSentinel

def columnIn {α : Type} (input : Text → Option α) : Option Text → Option (Option α)
  | some text => (input text).map some
  | none => some none

/-- A field as `COPY` with the sentinel reads it. -/
abbrev Encodes : Text → Option Text → Prop := Csv.Encodes copyNullSentinel

theorem encodes_field (value : Text) : Encodes (writeField value) (some value) := by
  unfold writeField
  split
  · exact Csv.encodes_quote value
  · next plain =>
    simp only [Bool.or_eq_true, List.any_eq_true, decide_eq_true_eq, not_or, not_exists,
      not_and] at plain
    refine Csv.encodes_plain (fun c mem => ?_) plain.2
    obtain ⟨⟨⟨⟨comma, quote⟩, newline⟩, carriage⟩, -⟩ := plain.1 c mem
    simp [Csv.special, comma, quote, newline, carriage]

theorem encodes_sentinel : Encodes copyNullSentinel none := by
  have plain : copyNullSentinel.all (fun c => !Csv.special c) = true := by decide
  exact Csv.encodes_null fun c mem => by simpa using List.all_eq_true.1 plain c mem

theorem encodes_optional {α : Type} (text : α → Text) (value : Option α) :
    Encodes (writeOptional text value) (value.map text) := by
  cases value with
  | none => exact encodes_sentinel
  | some value => exact encodes_field (text value)

theorem encodes_int (n : Int) : Encodes (intText n) (some (intText n)) := by
  have plain : ∀ c ∈ intText n, c.isDigit = true ∨ c = '-' := by
    cases n with
    | ofNat n => exact fun c mem => .inl (toDigits_isDigit n c mem)
    | negSucc n =>
      intro c mem
      rcases List.mem_cons.1 mem with rfl | digit
      · exact .inr rfl
      · exact .inl (toDigits_isDigit _ c digit)
  refine Csv.encodes_plain (fun c mem => ?_) ?_
  · rcases plain c mem with digit | rfl
    · by_contra marked
      simp only [Csv.special, Bool.or_eq_false_iff, decide_eq_false_iff_not, not_and_or,
        not_not] at marked
      rcases marked with ((rfl | rfl) | rfl) | rfl <;> exact absurd digit (by decide)
    · decide
  · intro same
    have underscore : '_' ∈ intText n := by
      rw [same]
      decide
    rcases plain '_' underscore with digit | dash
    · exact absurd digit (by decide)
    · exact absurd dash (by decide)

theorem columnIn_map {α : Type} {input : Text → Option α} {text : α → Text} {value : Option α}
    (reads : ∀ x ∈ value, input (text x) = some x) :
    columnIn input (value.map text) = some value := by
  cases value with
  | none => rfl
  | some value =>
    rw [Option.map_some, columnIn, reads value rfl]
    rfl

theorem columnIn_time {tieUp : Nat → Bool} {value : Option Timestamp} :
    columnIn (timestamptzIn tieUp) (value.map rfc3339) = some (value.map Timestamp.bound) ↔
      ∀ t ∈ value, t.Common tieUp := by
  cases value with
  | none => exact ⟨fun _ t mem => (by cases mem), fun _ => rfl⟩
  | some t =>
    rw [Option.map_some, Option.map_some, columnIn, Option.map_eq_some_iff]
    constructor
    · rintro ⟨micros, read, same⟩ other mem
      rw [Option.some.inj same] at read
      rw [← Option.some.inj mem]
      exact timestamptzIn_eq_bound.1 read
    · exact fun common => ⟨t.bound, timestamptzIn_eq_bound.2 (common t rfl), rfl⟩

def stateText : JobState → Text
  | .scheduled => "scheduled".toList
  | .available => "available".toList
  | .running => "running".toList
  | .completed => "completed".toList
  | .retryable => "retryable".toList
  | .failed => "failed".toList
  | .cancelled => "cancelled".toList
  | .waitingExternal => "waiting_external".toList

def stateIn (text : Text) : Option JobState :=
  [.scheduled, .available, .running, .completed, .retryable, .failed, .cancelled,
      .waitingExternal].find? fun state =>
    stateText state = text

theorem stateIn_stateText (state : JobState) : stateIn (stateText state) = some state := by
  cases state <;> decide

end AwaQueue.Copy
