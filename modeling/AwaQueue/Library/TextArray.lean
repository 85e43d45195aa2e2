import AwaQueue.Library.Csv

/-! Literals of one-dimensional text arrays: elements between commas in braces. A quoted element is
taken as it stands, with backslash escapes; one without quotes loses the white space around it, and
is NULL if it reads so. -/

namespace AwaQueue.Library.TextArray

open List

def isSpace (c : Char) : Bool :=
  c = ' ' || c = '\t' || c = '\n' || c = '\r' || c = Char.ofNat 11 || c = Char.ofNat 12

def readsNull (text : Text) : Bool := text.map Char.toUpper = ['N', 'U', 'L', 'L']

/-- What the reader has seen last, with the elements before it. `spaces` are those after the text of
an element without quotes, which belong to it only if more of it follows. -/
inductive Reader where
  | outside
  | start
  | next (items : List (Option Text))
  | bare (items : List (Option Text)) (text spaces : Text) (escaped : Bool)
  | bareEscape (items : List (Option Text)) (text : Text)
  | quoted (items : List (Option Text)) (text : Text)
  | quotedEscape (items : List (Option Text)) (text : Text)
  | closed (items : List (Option Text))
  | done (items : List (Option Text))
  deriving DecidableEq

namespace Reader

def element (items : List (Option Text)) (c : Char) : Option Reader :=
  if c = ',' || c = '{' || c = '}' then none
  else if c = '"' then some (quoted items [])
  else if c = '\\' then some (bareEscape items [])
  else some (bare items [c] [] false)

def bareItem (text : Text) (escaped : Bool) : Option Text := if !escaped && readsNull text then none
    else some text

def step (r : Reader) (c : Char) : Option Reader :=
  match r with
  | outside => if isSpace c then some outside else if c = '{' then some start else none
  | start => if isSpace c then some start else if c = '}' then some (done []) else element [] c
  | next items => if isSpace c then some (next items) else element items c
  | bare items text spaces escaped =>
    if c = ',' then some (next (items ++ [bareItem text escaped]))
    else if c = '}' then some (done (items ++ [bareItem text escaped]))
    else if c = '"' || c = '{' then none
    else if c = '\\' then some (bareEscape items (text ++ spaces))
    else if isSpace c then some (bare items text (spaces ++ [c]) escaped)
    else some (bare items (text ++ spaces ++ [c]) [] escaped)
  | bareEscape items text => some (bare items (text ++ [c]) [] true)
  | quoted items text =>
    if c = '\\' then some (quotedEscape items text)
    else if c = '"' then some (closed (items ++ [some text]))
    else some (quoted items (text ++ [c]))
  | quotedEscape items text => some (quoted items (text ++ [c]))
  | closed items =>
    if isSpace c then some (closed items)
    else if c = ',' then some (next items)
    else if c = '}' then some (done items)
    else none
  | done items => if isSpace c then some (done items) else none

def run (r : Reader) (text : Text) : Option Reader := text.foldlM step r

end Reader

def read (text : Text) : Option (List (Option Text)) :=
  match Reader.outside.run text with
  | some (.done items) => some items
  | _ => none

def escape (c : Char) : Text := if c = '"' || c = '\\' then ['\\', c] else [c]

def quote (value : Text) : Text := '"' :: value.flatMap escape ++ ['"']

def special (c : Char) : Bool := c = ',' || c = '"' || c = '\\' || c = '{' || c = '}'

def Trimmed (value : Text) : Prop := ∀ c, value.head? = some c ∨ value.getLast? = some c →
    isSpace c = false

theorem trimmed_iff (value : Text) :
    ((value.head?.all fun c => !isSpace c) && value.getLast?.all fun c => !isSpace c) = true ↔
      Trimmed value := by
  rw [Bool.and_eq_true, Option.all_eq_true, Option.all_eq_true]
  constructor
  · rintro ⟨first, last⟩ c (here | here)
    · simpa using first c here
    · simpa using last c here
  · intro trimmed
    constructor
    · intro c here
      simpa using trimmed c (.inl here)
    · intro c here
      simpa using trimmed c (.inr here)

instance (value : Text) : Decidable (Trimmed value) := decidable_of_iff _ (trimmed_iff value)

/-- Read where an element may start, the text is that element, once it ends. -/
def Encodes (text : Text) (value : Option Text) : Prop :=
  ∀ (r : Reader) (items : List (Option Text)), r = .start ∧ items = [] ∨ r = .next items →
    r.run (text ++ [',']) = some (.next (items ++ [value])) ∧ r.run (text ++ ['}']) =
      some (.done (items ++ [value]))

section
variable {r : Reader} {items : List (Option Text)} {value : Text} {c : Char} {elements : List Text}
  {values : List (Option Text)}

theorem run_append (first rest : Text) :
    r.run (first ++ rest) = (r.run first).bind fun r => r.run rest := foldlM_append

theorem run_cons (c : Char) (rest : Text) :
    r.run (c :: rest) = (r.step c).bind fun r => r.run rest := foldlM_cons

theorem step_element (here : r = .start ∧ items = [] ∨ r = .next items) (solid : isSpace c = false)
    (brace : c ≠ '}') : r.step c = Reader.element items c := by
  obtain ⟨rfl, rfl⟩ | rfl := here
  · rw [Reader.step, solid, if_neg Bool.false_ne_true, if_neg brace]
  · rw [Reader.step, solid, if_neg Bool.false_ne_true]

theorem run_escape (text : Text) :
    (Reader.quoted items text).run (value.flatMap escape) =
    some (.quoted items (text ++ value)) := by
  induction value generalizing text with
  | nil =>
    rw [append_nil]
    rfl
  | cons c value ih =>
    have first : (Reader.quoted items text).run (escape c) =
        some (.quoted items (text ++ [c])) := by
      unfold escape
      split
      · rfl
      · next plain =>
        simp only [Bool.or_eq_true, decide_eq_true_eq, not_or] at plain
        have step : (Reader.quoted items text).step c = some (.quoted items (text ++ [c])) := by
          rw [Reader.step, if_neg plain.2, if_neg plain.1]
        rw [run_cons, step]
        rfl
    rw [flatMap_cons, run_append, first]
    exact (ih (text ++ [c])).trans (by rw [append_assoc]; rfl)

theorem encodes_quote (value : Text) : Encodes (quote value) (some value) := by
  intro r items here
  have body : r.run (quote value) = some (.closed (items ++ [some value])) := by
    rw [quote, cons_append, run_cons, step_element here (by decide) (by decide)]
    change (Reader.quoted items []).run (value.flatMap escape ++ ['"']) = _
    rw [run_append, run_escape]
    rfl
  rw [run_append, run_append, body]
  exact ⟨rfl, rfl⟩

theorem step_bare {text spaces : Text} (plain : special c = false) :
      (Reader.bare items text spaces false).step c = if isSpace c then
        some (.bare items text (spaces ++ [c]) false)
        else some (.bare items (text ++ spaces ++ [c]) [] false) := by
  simp only [special, Bool.or_eq_false_iff, decide_eq_false_iff_not] at plain
  obtain ⟨⟨⟨⟨comma, quote⟩, backslash⟩, opening⟩, closing⟩ := plain
  rw [Reader.step, if_neg comma, if_neg closing, if_neg (by simp [quote, opening]),
    if_neg backslash]

/-- The text that an element has so far starts and ends without white space. -/
theorem run_bare (items : List (Option Text)) (plain : ∀ c ∈ value, special c = false) {text : Text}
    (spaces : Text) (some_ : text ≠ []) (trimmed : Trimmed text) :
    ∃ text' spaces', (Reader.bare items text spaces false).run value =
      some (.bare items text' spaces' false) ∧
      text' ++ spaces' = text ++ spaces ++ value ∧ Trimmed text' := by
  induction value generalizing text spaces with
  | nil => exact ⟨text, spaces, rfl, (append_nil _).symm, trimmed⟩
  | cons c value ih =>
    have rest := fun c mem => plain c (mem_cons_of_mem _ mem)
    rw [run_cons, step_bare (plain c mem_cons_self)]
    split
    · obtain ⟨text', spaces', ran, same, ends⟩ := ih rest (spaces ++ [c]) some_ trimmed
      exact ⟨text', spaces', ran, by simpa using same, ends⟩
    next solid =>
      have longer : Trimmed (text ++ spaces ++ [c]) := by
        rintro d (first | last)
        · rw [append_assoc, head?_append_of_ne_nil text some_] at first
          exact trimmed d (.inl first)
        · rw [getLast?_concat] at last
          rw [← Option.some.inj last]
          exact Bool.eq_false_iff.2 solid
      obtain ⟨text', spaces', ran, same, ends⟩ := ih rest [] (by simp) longer
      exact ⟨text', spaces', ran, by simpa using same, ends⟩

theorem trimmed_singleton (solid : isSpace c = false) : Trimmed [c] := by
  rintro d (first | last)
  · rwa [← Option.some.inj first]
  · rwa [← Option.some.inj last]

theorem run_bare_trimmed (first : isSpace c = false) (plain : ∀ c ∈ value, special c = false)
    (last : ∀ c ∈ value.getLast?, isSpace c = false) :
    (Reader.bare items [c] [] false).run value = some (.bare items (c :: value) [] false) := by
  rcases eq_nil_or_concat value with rfl | ⟨init, d, rfl⟩
  · rfl
  · rw [concat_eq_append] at plain last ⊢
    obtain ⟨text', spaces', ran, same, -⟩ := run_bare items
      (fun c mem => plain c (mem_append_left _ mem)) [] (cons_ne_nil c []) (trimmed_singleton first)
    have solid : isSpace d = false := last d (by simp)
    rw [run_append, ran]
    change (Reader.bare items text' spaces' false).run [d] = _
    rw [run_cons, step_bare (plain d (by simp)), if_neg (by simp [solid]), same]
    rfl

theorem step_start_bare (here : r = .start ∧ items = [] ∨ r = .next items)
    (plain : special c = false) (solid : isSpace c = false) :
    r.step c = some (.bare items [c] [] false) := by
  simp only [special, Bool.or_eq_false_iff, decide_eq_false_iff_not] at plain
  obtain ⟨⟨⟨⟨comma, quote⟩, backslash⟩, opening⟩, closing⟩ := plain
  rw [step_element here solid closing, Reader.element, if_neg (by simp [comma, opening, closing]),
    if_neg quote, if_neg backslash]

theorem encodes_bare (some_ : value ≠ []) (plain : ∀ c ∈ value, special c = false)
    (trimmed : Trimmed value) (word : readsNull value = false) : Encodes value (some value) := by
  intro r items here
  cases value with
  | nil => exact absurd rfl some_
  | cons c value =>
    have first : isSpace c = false := trimmed c (.inl rfl)
    have last : ∀ d ∈ value.getLast?, isSpace d = false := by
      intro d mem
      refine trimmed d (.inr ?_)
      rw [getLast?_cons, Option.mem_def.1 mem]
      rfl
    have body : r.run (c :: value) = some (.bare items (c :: value) [] false) := by
      rw [run_cons, step_start_bare here (plain c mem_cons_self) first]
      exact run_bare_trimmed first (fun d mem => plain d (mem_cons_of_mem _ mem)) last
    have item : Reader.bareItem (c :: value) false = some (c :: value) := by
      rw [Reader.bareItem, word]
      rfl
    rw [run_append, run_append, body, ← item]
    exact ⟨rfl, rfl⟩

/-- Plain text is nothing but white space, or it gives an element without white space around it. -/
theorem run_plain (here : r = .start ∧ items = [] ∨ r = .next items)
    (plain : ∀ c ∈ value, special c = false) :
    r.run value = some r ∨ ∃ text spaces, r.run value = some (.bare items text spaces false) ∧
      Trimmed text := by
  induction value with
  | nil => exact .inl rfl
  | cons c value ih =>
    have rest := fun c mem => plain c (mem_cons_of_mem _ mem)
    rw [run_cons]
    by_cases space : isSpace c = true
    · have stays : r.step c = some r := by
        obtain ⟨rfl, rfl⟩ | rfl := here
        · rw [Reader.step, if_pos space]
        · rw [Reader.step, if_pos space]
      rw [stays]
      exact ih rest
    · have solid := Bool.eq_false_iff.2 space
      obtain ⟨text, spaces, ran, -, trimmed⟩ := run_bare items rest [] (cons_ne_nil c [])
        (trimmed_singleton solid)
      rw [step_start_bare here (plain c mem_cons_self) solid]
      exact .inr ⟨text, spaces, ran, trimmed⟩

theorem trimmed_of_bareItem {text : Text} (trimmed : Trimmed text)
    (same : Reader.bareItem text false = some value) : Trimmed value := by
  unfold Reader.bareItem at same
  split at same
  · cases same
  · rwa [← Option.some.inj same]

/-- Plain text that is read as itself, before a comma or a brace, has no white space around it. -/
theorem trimmed_of_read (here : r = .start ∧ items = [] ∨ r = .next items)
    (plain : ∀ c ∈ value, special c = false) :
      (∀ r', r.run (value ++ [',']) = some r' → ∃ item, r' = .next (items ++ [item]) ∧
      (item = some value → Trimmed value)) ∧
      (r.run (value ++ ['}']) = some (.done (items ++ [some value])) → Trimmed value) := by
  rw [run_append, run_append]
  obtain ran | ⟨text, spaces, ran, trimmed⟩ := run_plain here plain
  · rw [ran]
    obtain ⟨rfl, rfl⟩ | rfl := here
    · exact ⟨fun r' read => (by cases read), fun read => (by cases read)⟩
    · exact ⟨fun r' read => (by cases read), fun read => (by cases read)⟩
  · rw [ran]
    refine ⟨fun r' read => ?_, fun read => ?_⟩
    · cases read
      exact ⟨_, rfl, trimmed_of_bareItem trimmed⟩
    · have same : items ++ [Reader.bareItem text false] = items ++ [some value] := by
        injection Option.some.inj read
      exact trimmed_of_bareItem trimmed (by simpa using same)

def Reader.listed : Reader → List (Option Text)
  | outside | start => []
  | next items | bare items _ _ _ | bareEscape items _ | quoted items _ | quotedEscape items _
  | closed items | done items => items

theorem listed_step {r' : Reader} (step : r.step c = some r') : r.listed <+: r'.listed := by
  unfold Reader.step at step
  have elements {items : List (Option Text)} (first : Reader.element items c = some r') :
      items <+: r'.listed := by
    unfold Reader.element at first
    split_ifs at first <;> cases first <;> exact prefix_rfl
  cases r <;> dsimp only at step <;> (try split_ifs at step) <;>
    first
    | exact elements step
    | (cases step; first | exact prefix_rfl | exact prefix_append _ _)

theorem listed_run {text : Text} {r' : Reader} (ran : r.run text = some r') :
    r.listed <+: r'.listed := by
  induction text generalizing r with
  | nil =>
    cases ran
    exact prefix_rfl
  | cons c text ih =>
    rw [run_cons] at ran
    obtain ⟨middle, step, ran⟩ := Option.bind_eq_some_iff.1 ran
    exact (listed_step step).trans (ih ran)

def literal (elements : List Text) : Text := '{' :: [','].intercalate elements ++ ['}']

theorem run_elements (encode : List.Forall₂ Encodes elements values)
    (some_ : elements ≠ []) (here : r = .start ∧ items = [] ∨ r = .next items) :
    r.run ([','].intercalate elements ++ ['}']) = some (.done (items ++ values)) := by
  induction encode generalizing r items with
  | nil => exact absurd rfl some_
  | @cons element value elements values head tail ih =>
    cases tail with
    | nil =>
      rw [show [','].intercalate [element] = element by simp]
      exact (head r items here).2
    | @cons second value' elements values next tail =>
      have split : [','].intercalate (element :: second :: elements) ++ ['}'] =
          (element ++ [',']) ++ ([','].intercalate (second :: elements) ++ ['}']) := by
            simp [intercalate_cons_cons]
      rw [split, run_append, (head r items here).1]
      exact (ih (by simp) (.inr rfl)).trans (by rw [append_assoc]; rfl)

theorem read_literal (encode : List.Forall₂ Encodes elements values) :
    read (literal elements) = some values := by
  have runs : Reader.outside.run (literal elements) = some (.done values) := by
    cases encode with
    | nil => rfl
    | cons head tail => exact run_elements (.cons head tail) (by simp) (.inl ⟨rfl, rfl⟩)
  rw [read, runs]

end
end AwaQueue.Library.TextArray
