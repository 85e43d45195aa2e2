import Mathlib.Data.List.Forall2

/-! The CSV format of `COPY FROM`: fields between commas, quotes that are doubled inside quotes, and
a text that stands for NULL where it is not quoted. A reader for it, and what a text must look like
for the reader to give a value back. -/

namespace AwaQueue.Library

open List

abbrev Text := List Char

namespace Csv

inductive Mode where
  | plain
  | quoted
  /-- After a quote inside quotes: the end of them, or half of a doubled one. -/
  | closing
  deriving DecidableEq

/-- The field that is being read, the fields of the row before it, and the rows before that. -/
structure Reader where
  mode : Mode
  field : Text
  sawQuote : Bool
  row : List (Option Text)
  rows : List (List (Option Text))
  deriving DecidableEq

section
variable (null : Text)

def cell (field : Text) (sawQuote : Bool) : Option Text := if sawQuote = false ∧ field = null then
    none else some field

namespace Reader

def endField (r : Reader) : Reader := ⟨.plain, [], false, r.row ++ [cell null r.field r.sawQuote],
    r.rows⟩

def endRow (r : Reader) : Reader := ⟨.plain, [], false, [],
    r.rows ++ [r.row ++ [cell null r.field r.sawQuote]]⟩

/-- A character outside quotes. A carriage return may not stand there; a line of only `\.` would end
the data. -/
def outside (r : Reader) (c : Char) : Option Reader :=
  if c = ',' then some (r.endField null)
  else if c = '\n' then
    if r.row = [] ∧ r.sawQuote = false ∧ r.field = ['\\', '.'] then none else some (r.endRow null)
  else if c = '\r' then none
  else if c = '"' then some { r with mode := .quoted, sawQuote := true }
  else some { r with mode := .plain, field := r.field ++ [c] }

def next (r : Reader) (c : Char) : Option Reader :=
  match r.mode with
  | .plain => r.outside null c
  | .quoted =>
    if c = '"' then some { r with mode := .closing } else some { r with field := r.field ++ [c] }
  | .closing =>
    if c = '"' then some { r with mode := .quoted, field := r.field ++ ['"'] } else r.outside null c

def run (r : Reader) (text : Text) : Option Reader := text.foldlM (next null) r

end Reader

def read (text : Text) : Option (List (List (Option Text))) :=
  ((⟨.plain, [], false, [], []⟩ : Reader).run null text).bind fun r =>
    if r.mode = .quoted then none
    else if r.row = [] ∧ r.field = [] ∧ r.sawQuote = false then some r.rows
    else some (r.endRow null).rows

def Encodes (text : Text) (value : Option Text) : Prop :=
  ∀ row rows, ∃ mode field sawQuote, mode ≠ .quoted ∧ cell null field sawQuote = value ∧
    (⟨.plain, [], false, row, rows⟩ : Reader).run null text = some ⟨mode, field,
      sawQuote, row, rows⟩

end

def double (c : Char) : Text := if c = '"' then ['"', '"'] else [c]

def quote (value : Text) : Text := '"' :: value.flatMap double ++ ['"']

def line (fields : List Text) : Text := [','].intercalate fields ++ ['\n']

def special (c : Char) : Bool := c = ',' || c = '"' || c = '\n' || c = '\r'

section
variable {null text value : Text} {row : List (Option Text)} {rows : List (List (Option Text))}
  {r : Reader} {texts : List Text} {values : List (Option Text)}

theorem run_append (first rest : Text) :
    r.run null (first ++ rest) = (r.run null first).bind fun r => r.run null rest :=
  foldlM_append

theorem outside_plain {c : Char} (plain : special c = false) :
    r.outside null c = some { r with mode := .plain, field := r.field ++ [c] } := by
  simp only [special, Bool.or_eq_false_iff, decide_eq_false_iff_not] at plain
  obtain ⟨⟨⟨comma, quote⟩, newline⟩, carriage⟩ := plain
  rw [Reader.outside, if_neg comma, if_neg newline, if_neg carriage, if_neg quote]

theorem run_plain (plain : ∀ c ∈ text, special c = false) (field : Text) :
    (⟨.plain, field, false, row, rows⟩ : Reader).run null text =
      some ⟨.plain, field ++ text, false, row, rows⟩ := by
  induction text generalizing field with
  | nil =>
    rw [append_nil]
    rfl
  | cons c text ih =>
    have first : (⟨.plain, field, false, row, rows⟩ : Reader).next null c = some ⟨.plain,
        field ++ [c], false, row, rows⟩ :=
      outside_plain (plain c mem_cons_self)
    rw [Reader.run, foldlM_cons, first]
    exact (ih (fun c mem => plain c (mem_cons_of_mem _ mem)) (field ++ [c])).trans
      (by rw [append_assoc]; rfl)

theorem run_double (field : Text) :
      (⟨.quoted, field, true, row, rows⟩ : Reader).run null (value.flatMap double) =
      some ⟨.quoted, field ++ value, true, row, rows⟩ := by
  induction value generalizing field with
  | nil =>
    rw [append_nil]
    rfl
  | cons c value ih =>
    have first : (⟨.quoted, field, true, row, rows⟩ : Reader).run null (double c) =
        some ⟨.quoted, field ++ [c], true, row, rows⟩ := by
      unfold double
      by_cases quote : c = '"'
      · subst quote
        rfl
      · have step : (⟨.quoted, field, true, row, rows⟩ : Reader).next null c = some ⟨.quoted,
            field ++ [c], true, row, rows⟩ :=
          if_neg quote
        rw [if_neg quote, Reader.run, foldlM_cons, step]
        rfl
    rw [flatMap_cons, run_append, first]
    exact (ih (field ++ [c])).trans (by rw [append_assoc]; rfl)

theorem encodes_null (plain : ∀ c ∈ null, special c = false) : Encodes null null none :=
  fun row rows => ⟨.plain, null, false, by decide, if_pos ⟨rfl, rfl⟩, run_plain plain []⟩

theorem encodes_plain (plain : ∀ c ∈ value, special c = false) (other : value ≠ null) :
    Encodes null value (some value) :=
  fun row rows => ⟨.plain, value, false, by decide, if_neg fun same => other same.2,
    run_plain plain []⟩

theorem encodes_quote (value : Text) : Encodes null (quote value) (some value) := by
  intro row rows
  refine ⟨.closing, value, true, by decide, if_neg fun same => Bool.noConfusion same.1, ?_⟩
  have opened : (⟨.plain, [], false, row, rows⟩ : Reader).run null
      ('"' :: value.flatMap double ++ ['"']) =
      (⟨.quoted, [], true, row, rows⟩ : Reader).run null (value.flatMap double ++ ['"']) := rfl
  rw [quote, opened, run_append, run_double]
  rfl

theorem Encodes.comma {value : Option Text} (encodes : Encodes null text value) :
    (⟨.plain, [], false, row, rows⟩ : Reader).run null (text ++ [',']) =
      some ⟨.plain, [], false, row ++ [value], rows⟩ := by
  obtain ⟨mode, field, sawQuote, open_, rfl, ran⟩ := encodes row rows
  rw [run_append, ran]
  cases mode with
  | plain => rfl
  | quoted => exact absurd rfl open_
  | closing => rfl

theorem Encodes.newline {value : Option Text} (encodes : Encodes null text value)
    (later : row ≠ []) :
    (⟨.plain, [], false, row, rows⟩ : Reader).run null (text ++ ['\n']) =
      some ⟨.plain, [], false, [], rows ++ [row ++ [value]]⟩ := by
  obtain ⟨mode, field, sawQuote, open_, rfl, ran⟩ := encodes row rows
  have ends : (⟨mode, field, sawQuote, row, rows⟩ : Reader).outside null '\n' =
      some ⟨.plain, [], false, [], rows ++ [row ++ [cell null field sawQuote]]⟩ := by
    rw [Reader.outside, if_neg (by decide), if_pos rfl, if_neg fun marker => later marker.1]
    rfl
  rw [run_append, ran]
  cases mode with
  | plain => exact (bind_pure _).trans ends
  | quoted => exact absurd rfl open_
  | closing => exact (bind_pure _).trans ends

theorem run_line_from (encode : List.Forall₂ (Encodes null) texts values) (some_ : texts ≠ [])
    (later : row ≠ []) :
    (⟨.plain, [], false, row, rows⟩ : Reader).run null (line texts) =
      some ⟨.plain, [], false, [], rows ++ [row ++ values]⟩ := by
  induction encode generalizing row with
  | nil => exact absurd rfl some_
  | @cons text value texts values head tail ih =>
    cases tail with
    | nil =>
      have only : line [text] = text ++ ['\n'] := by simp [line]
      rw [only]
      exact head.newline later
    | @cons second value' texts values next tail =>
      have split : line (text :: second :: texts) = (text ++ [',']) ++ line (second :: texts) := by
        simp [line, intercalate_cons_cons]
      rw [split, run_append, head.comma]
      exact (ih (by simp) (by simp)).trans (by rw [append_assoc]; rfl)

/-- A line of encoded fields, two at least, is read as the row of their values. -/
theorem run_line (encode : List.Forall₂ (Encodes null) texts values) (two : 2 ≤ texts.length) :
    (⟨.plain, [], false, [], rows⟩ : Reader).run null (line texts) =
      some ⟨.plain, [], false, [], rows ++ [values]⟩ := by
  cases encode with
  | nil => exact absurd two (by decide)
  | @cons text value texts values head tail =>
    cases tail with
    | nil => exact absurd two (Nat.lt_irrefl 1)
    | @cons second value' texts values next tail =>
      have split : line (text :: second :: texts) = (text ++ [',']) ++ line (second :: texts) := by
        simp [line, intercalate_cons_cons]
      rw [split, run_append, head.comma]
      exact run_line_from (.cons next tail) (by simp) (by simp)

/-- What is written line by line is read back. -/
theorem read_lines {α : Type} {write : α → List Text} {values : α → List (Option Text)}
    {xs : List α} (encode : ∀ x ∈ xs, List.Forall₂ (Encodes null) (write x) (values x))
    (two : ∀ x ∈ xs, 2 ≤ (write x).length) :
    read null (xs.flatMap fun x => line (write x)) = some (xs.map values) := by
  have runs (rows : List (List (Option Text))) :
      (⟨.plain, [], false, [], rows⟩ : Reader).run null (xs.flatMap fun x => line (write x)) =
      some ⟨.plain, [], false, [], rows ++ xs.map values⟩ := by
    induction xs generalizing rows with
    | nil =>
      rw [map_nil, append_nil]
      rfl
    | cons x xs ih =>
      rw [flatMap_cons, run_append, run_line (encode x mem_cons_self) (two x mem_cons_self)]
      exact (ih (fun y mem => encode y (mem_cons_of_mem _ mem))
        (fun y mem => two y (mem_cons_of_mem _ mem)) _).trans (by rw [append_assoc]; rfl)
  rw [read, runs]
  rfl

end
end Csv
end AwaQueue.Library
