import AwaQueue.Library.Csv
import Mathlib.Data.List.TakeDrop
import Mathlib.Data.List.TakeWhile
import Mathlib.Tactic.Linarith

/-! The texts of numbers, bytes and times that the `COPY` writers put into a field, and the input
functions of the column types that read them. -/

namespace AwaQueue.Copy

open List
open Option (bind_some)
open Library

def digitsValue (digits : Text) : Nat := digits.foldl (fun n c => n * 10 + (c.toNat - '0'.toNat)) 0

def natIn (text : Text) : Option Nat := if text ≠ [] ∧ text.all Char.isDigit = true then
    some (digitsValue text) else none

def intText : Int → Text
  | .ofNat n => Nat.toDigits 10 n
  | .negSucc n => '-' :: Nat.toDigits 10 (n + 1)

def intIn : Text → Option Int
  | '-' :: digits => (natIn digits).map fun n => -(n : Int)
  | digits => (natIn digits).map Int.ofNat

theorem toDigits_isDigit (n : Nat) : ∀ c ∈ Nat.toDigits 10 n, c.isDigit = true :=
  fun _ => Nat.isDigit_of_mem_toDigits (by decide) (by decide)

theorem natIn_toDigits (n : Nat) : natIn (Nat.toDigits 10 n) = some n := by
  have value : digitsValue (Nat.toDigits 10 n) = n := by
    have read := Nat.ofDigitChars_ten_toDigits (n := n)
    rw [Nat.ofDigitChars_eq_foldl] at read
    simpa only [digitsValue, Nat.mul_comm 10] using read
  rw [natIn, if_pos ⟨by simp, all_eq_true.2 (toDigits_isDigit n)⟩, value]

theorem intIn_intText (n : Int) : intIn (intText n) = some n := by
  cases n with
  | ofNat n =>
    have unsigned (rest : Text) : Nat.toDigits 10 n ≠ '-' :: rest := by
      intro same
      exact absurd (toDigits_isDigit n '-' (same ▸ mem_cons_self)) (by decide)
    rw [intText, intIn, natIn_toDigits]
    · rfl
    · exact unsigned
  | negSucc n =>
    rw [intText, intIn, natIn_toDigits]
    rfl

def hexEncode (bytes : List UInt8) : Text := bytes.flatMap fun byte =>
    [Nat.digitChar (byte.toNat / 16), Nat.digitChar (byte.toNat % 16)]

def byteaText (bytes : List UInt8) : Text := '\\' :: 'x' :: hexEncode bytes

def hexValue (c : Char) : Option Nat :=
  if '0' ≤ c ∧ c ≤ '9' then some (c.toNat - '0'.toNat)
  else if 'a' ≤ c ∧ c ≤ 'f' then some (c.toNat - 'a'.toNat + 10)
  else if 'A' ≤ c ∧ c ≤ 'F' then some (c.toNat - 'A'.toNat + 10)
  else none

def hexIn : Text → Option (List UInt8)
  | [] => some []
  | [_] => none
  | high :: low :: rest => do
    let high ← hexValue high
    let low ← hexValue low
    let rest ← hexIn rest
    return UInt8.ofNat (high * 16 + low) :: rest

def byteaIn : Text → Option (List UInt8)
  | '\\' :: 'x' :: digits => hexIn digits
  | _ => none

variable {n width : Nat} {stop : Char}

theorem hexValue_digitChar (small : n < 16) : hexValue (Nat.digitChar n) = some n := by
  have each : ∀ n : Fin 16, hexValue (Nat.digitChar n.val) = some n.val := by decide
  exact each ⟨n, small⟩

theorem hexIn_hexEncode (bytes : List UInt8) : hexIn (hexEncode bytes) = some bytes := by
  induction bytes with
  | nil => rfl
  | cons byte bytes ih =>
    have bound : byte.toNat < 256 := byte.toNat_lt
    have high := hexValue_digitChar (n := byte.toNat / 16) (by omega)
    have low := hexValue_digitChar (n := byte.toNat % 16) (by omega)
    have whole : byte.toNat / 16 * 16 + byte.toNat % 16 = byte.toNat := by omega
    change (do
      let high ← hexValue (Nat.digitChar (byte.toNat / 16))
      let low ← hexValue (Nat.digitChar (byte.toNat % 16))
      let rest ← hexIn (hexEncode bytes)
      return UInt8.ofNat (high * 16 + low) :: rest) = _
    rw [high, low, ih]
    change some (UInt8.ofNat (byte.toNat / 16 * 16 + byte.toNat % 16) :: bytes) = _
    rw [whole, UInt8.ofNat_toNat]

theorem byteaIn_byteaText (bytes : List UInt8) :
    byteaIn (byteaText bytes) = some bytes := hexIn_hexEncode bytes

def isLeap (year : Int) : Bool := year % 4 = 0 && (year % 100 ≠ 0 || year % 400 = 0)

def daysInMonth (year : Int) (month : Nat) : Nat :=
  if month = 2 then if isLeap year then 29 else 28
  else if month = 4 || month = 6 || month = 9 || month = 11 then 30
  else 31

/-- A time in UTC as `chrono` has it, leap seconds apart. `timestamptz` starts in the year -4713. -/
structure Timestamp where
  year : Int
  month : Nat
  day : Nat
  hour : Nat
  minute : Nat
  second : Nat
  nanos : Nat
  date : -4712 ≤ year ∧ 1 ≤ month ∧ month ≤ 12 ∧ 1 ≤ day ∧ day ≤ daysInMonth year month
  time : hour < 24 ∧ minute < 60 ∧ second < 60 ∧ nanos < 1000000000
  deriving DecidableEq

def julianDay (year : Int) (month day : Nat) : Int :=
  let shifted : Int × Nat := if 2 < month then (year + 4800, month + 1)
    else (year + 4799, month + 13)
  shifted.1 * 365 - 32167 + (shifted.1 / 4 - shifted.1 / 100 + shifted.1 / 100 / 4) +
    (7834 * shifted.2 / 256 : Nat) + day

def secondsSince2000 (year : Int) (month day hour minute second : Nat) : Int :=
  (julianDay year month day - 2451545) * 86400 + (hour * 3600 + minute * 60 + second : Nat)

example : secondsSince2000 2000 1 1 0 0 0 = 0 ∧ secondsSince2000 2024 3 1 0 0 1 =
    8826 * 86400 + 1 := by decide

def Timestamp.seconds (t : Timestamp) : Int :=
  secondsSince2000 t.year t.month t.day t.hour t.minute t.second

/-- The value that a binding sends: `num_microseconds` of the time since 2000 cuts the rest off. -/
def Timestamp.bound (t : Timestamp) : Int := (t.seconds * 1000000000 + t.nanos).tdiv 1000

def fixed : Nat → Nat → Text
  | 0, _ => []
  | width + 1, n => fixed width (n / 10) ++ [Nat.digitChar (n % 10)]

def yearText (year : Int) : Text :=
  if 0 ≤ year ∧ year ≤ 9999 then fixed 4 year.toNat
  else (if 0 ≤ year then '+' else '-') :: (Nat.toDigits 10 year.natAbs).leftpad 4 '0'

/-- The shortest of no, three, six and nine decimal places that is exact. -/
def fractionText (nanos : Nat) : Text :=
  if nanos = 0 then []
  else if nanos % 1000000 = 0 then '.' :: fixed 3 (nanos / 1000000)
  else if nanos % 1000 = 0 then '.' :: fixed 6 (nanos / 1000)
  else '.' :: fixed 9 nanos

def rfc3339 (t : Timestamp) : Text :=
  yearText t.year ++ '-' :: (fixed 2 t.month ++
    '-' :: (fixed 2 t.day ++ 'T' :: (fixed 2 t.hour ++ ':' :: (fixed 2 t.minute ++ ':' ::
    (fixed 2 t.second ++ (fractionText t.nanos ++ ['+', '0', '0', ':', '0', '0']))))))

def numberUntil (stop : Char) (text : Text) : Option (Nat × Text) :=
  match text.span (· ≠ stop) with
  | (digits, _ :: rest) => (natIn digits).map (·, rest)
  | (_, []) => none

def secondsIn (text : Text) : Option (Nat × Nat) :=
  match text.span (· ≠ '.') with
  | (digits, []) => (natIn digits).map (·, 0)
  | (digits, _ :: fraction) =>
    if fraction.length ≤ 9 then do
      let second ← natIn digits
      let nanos ← natIn (fraction ++ List.replicate (9 - fraction.length) '0')
      return (second, nanos)
    else none

def tokensIn (text : Text) : Option ((Nat × Nat × Nat) × (Nat × Nat × Nat) × Nat) := do
  let (year, text) ← numberUntil '-' text
  let (month, text) ← numberUntil '-' text
  let (day, text) ← numberUntil 'T' text
  let (hour, text) ← numberUntil ':' text
  let (minute, text) ← numberUntil ':' text
  let (second, nanos) ← secondsIn (text.takeWhile (· ≠ '+'))
  if text.dropWhile (· ≠ '+') = ['+', '0', '0', ':', '0', '0'] then
    return ((year, month, day), (hour, minute, second), nanos)
  else none

section
variable (tieUp : Nat → Bool)

/-- A fraction is rounded to microseconds, in doubles: a tie may come out on either side. -/
def roundsUp (nanos : Nat) : Bool := 500 < nanos % 1000 || nanos % 1000 = 500 && tieUp nanos

def roundedMicros (nanos : Nat) : Nat := nanos / 1000 + if roundsUp tieUp nanos then 1 else 0

def microsOfFields (date time : Nat × Nat × Nat) (nanos : Nat) : Option Int :=
  if 1 ≤ date.2.1 ∧ date.2.1 ≤ 12 ∧ 1 ≤ date.2.2 ∧ date.2.2 ≤ daysInMonth date.1 date.2.1 ∧
      time.1 < 24 ∧ time.2.1 < 60 ∧ time.2.2 < 60 then
    some (secondsSince2000 date.1 date.2.1 date.2.2 time.1 time.2.1 time.2.2 * 1000000 +
      roundedMicros tieUp nanos)
  else none

/-- The input function of `timestamptz`. A token that starts with a sign is a time zone, so that a
text that starts with one has no date; and there is no year zero. -/
def timestamptzIn (text : Text) : Option Int :=
  if text.head? = some '+' ∨ text.head? = some '-' then none
  else (tokensIn text).bind fun tokens => if tokens.1.1 = 0 then none
    else microsOfFields tieUp tokens.1 tokens.2.1 tokens.2.2

/-- The time has a year of four digits, and what it has beyond microseconds is rounded towards the
year 2000, as the binding does it. -/
def Timestamp.Common (t : Timestamp) : Prop :=
  (1 ≤ t.year ∧ t.year ≤ 9999) ∧ (t.nanos % 1000 = 0 ∨ (roundsUp tieUp t.nanos = true ↔
    t.seconds < 0))

instance (t : Timestamp) : Decidable (t.Common tieUp) := inferInstanceAs (Decidable (_ ∧ _))

end

def tens : Nat → Nat
  | 0 => 1
  | width + 1 => tens width * 10

theorem digitChar_isDigit (small : n < 10) :
    (Nat.digitChar n).isDigit = true ∧ (Nat.digitChar n).toNat - '0'.toNat = n := by
  have each : ∀ n : Fin 10, (Nat.digitChar n.val).isDigit = true ∧
    (Nat.digitChar n.val).toNat - '0'.toNat = n.val := by decide
  exact each ⟨n, small⟩

theorem fixed_isDigit (width n : Nat) : ∀ c ∈ fixed width n, c.isDigit = true := by
  induction width generalizing n with
  | zero => exact forall_mem_nil _
  | succ width ih =>
    intro c mem
    rcases mem_append.1 mem with before | last
    · exact ih _ c before
    · rw [mem_singleton.1 last]
      exact (digitChar_isDigit (Nat.mod_lt n (by decide))).1

theorem length_fixed (width n : Nat) : (fixed width n).length = width := by
  induction width generalizing n with
  | zero => rfl
  | succ width ih => rw [fixed, length_append, ih, length_singleton]

theorem digitsValue_concat (digits : Text) (c : Char) :
    digitsValue (digits ++ [c]) = digitsValue digits * 10 + (c.toNat - '0'.toNat) := foldl_append

theorem digitsValue_fixed (small : n < tens width) : digitsValue (fixed width n) = n := by
  induction width generalizing n with
  | zero => exact (Nat.lt_one_iff.1 small).symm
  | succ width ih =>
    have fits : n / 10 < tens width := by
      rw [tens] at small
      omega
    rw [fixed, digitsValue_concat, ih fits, (digitChar_isDigit (Nat.mod_lt n (by decide))).2]
    omega

theorem digitsValue_append_zeros (digits : Text) (zeros : Nat) :
    digitsValue (digits ++ replicate zeros '0') = digitsValue digits * tens zeros := by
  induction zeros with
  | zero => rw [replicate_zero, append_nil, tens, Nat.mul_one]
  | succ zeros ih =>
    rw [replicate_succ', ← append_assoc, digitsValue_concat, ih, tens, Nat.mul_assoc]
    rfl

/-- Digits with zeros after them. -/
theorem natIn_fixed_zeros (some_ : 0 < width) (small : n < tens width) (zeros : Nat) :
    natIn (fixed width n ++ replicate zeros '0') = some (n * tens zeros) := by
  have present : fixed width n ++ replicate zeros '0' ≠ [] := by
    intro empty
    have length := length_fixed width n
    rw [(append_eq_nil_iff.1 empty).1, length_nil] at length
    omega
  have digits : (fixed width n ++ replicate zeros '0').all Char.isDigit = true := by
    apply all_eq_true.2
    intro c mem
    rcases mem_append.1 mem with digit | zero
    · exact fixed_isDigit width n c digit
    · rw [eq_of_mem_replicate zero]
      decide
  rw [natIn, if_pos ⟨present, digits⟩, digitsValue_append_zeros, digitsValue_fixed small]

theorem natIn_fixed (some_ : 0 < width) (small : n < tens width) :
    natIn (fixed width n) = some n := by
  have read := natIn_fixed_zeros some_ small 0
  rwa [replicate_zero, append_nil, tens, Nat.mul_one] at read

theorem span_digits (mark : stop.isDigit = false) {digits : Text}
    (plain : ∀ c ∈ digits, c.isDigit = true) (rest : Text) :
    (digits ++ stop :: rest).span (· ≠ stop) = (digits, stop :: rest) := by
  have passes : ∀ c ∈ digits, decide (c ≠ stop) = true := by
    intro c mem
    apply decide_eq_true
    rintro rfl
    rw [plain c mem] at mark
    cases mark
  rw [span_eq_takeWhile_dropWhile, takeWhile_append_of_pos passes, dropWhile_append_of_pos passes]
  simp

theorem numberUntil_fixed (mark : stop.isDigit = false) (some_ : 0 < width) (small : n < tens width)
    (rest : Text) : numberUntil stop (fixed width n ++ stop :: rest) = some (n, rest) := by
  rw [numberUntil, span_digits mark (fixed_isDigit width n)]
  dsimp only
  rw [natIn_fixed some_ small]
  rfl

/-- A fraction of `width` decimal places. -/
theorem secondsIn_places {second : Nat} (seconds : second < 60) (some_ : 0 < width)
    (places : width ≤ 9) (small : n < tens width) :
    secondsIn (fixed 2 second ++ '.' :: fixed width n) = some (second, n * tens (9 - width)) := by
  have whole : natIn (fixed 2 second) = some second :=
    natIn_fixed (by decide) (seconds.trans (by decide))
  rw [secondsIn, span_digits (by decide) (fixed_isDigit 2 second)]
  dsimp only
  rw [if_pos (by rwa [length_fixed]), length_fixed, whole, natIn_fixed_zeros some_ small]
  rfl

theorem secondsIn_text {second nanos : Nat} (seconds : second < 60) (fits : nanos < 1000000000) :
    secondsIn (fixed 2 second ++ fractionText nanos) = some (second, nanos) := by
  unfold fractionText
  split
  · next none =>
    have whole : natIn (fixed 2 second) = some second :=
      natIn_fixed (by decide) (seconds.trans (by decide))
    have all : (fixed 2 second).span (· ≠ '.') = (fixed 2 second, []) := by
      have passes : ∀ c ∈ fixed 2 second, decide (c ≠ '.') = true := by
        intro c mem
        apply decide_eq_true
        rintro rfl
        exact absurd (fixed_isDigit 2 second _ mem) (by decide)
      rw [span_eq_takeWhile_dropWhile, takeWhile_eq_self_iff.2 passes,
        dropWhile_eq_nil_iff.2 passes]
    rw [append_nil, secondsIn, all]
    dsimp only
    rw [whole, none]
    rfl
  · split
    · next millis =>
      have exact_ : nanos / 1000000 * tens (9 - 3) = nanos :=
        Nat.div_mul_cancel (Nat.dvd_of_mod_eq_zero millis)
      rw [secondsIn_places seconds (by decide) (by decide) (show nanos / 1000000 <
        tens 3 from Nat.div_lt_of_lt_mul fits), exact_]
    · split
      · next micros =>
        have exact_ :
          nanos / 1000 * tens (9 - 6) = nanos := Nat.div_mul_cancel (Nat.dvd_of_mod_eq_zero micros)
        rw [secondsIn_places seconds (by decide) (by decide) (show nanos / 1000 <
          tens 6 from Nat.div_lt_of_lt_mul fits), exact_]
      · rw [secondsIn_places seconds (by decide) le_rfl (show nanos < tens 9 from fits)]
        exact congrArg (fun n => some (second, n)) (Nat.mul_one nanos)

theorem fractionText_plain (nanos : Nat) :
    ∀ c ∈ fractionText nanos, c.isDigit = true ∨ c = '.' := by
  have places (width n : Nat) : ∀ c ∈ '.' :: fixed width n, c.isDigit = true ∨ c = '.' := by
    intro c mem
    rcases mem_cons.1 mem with rfl | digit
    · exact .inr rfl
    · exact .inl (fixed_isDigit _ _ c digit)
  unfold fractionText
  split
  · exact forall_mem_nil _
  · split
    · exact places _ _
    · split
      · exact places _ _
      · exact places _ _

theorem split_zone (second nanos : Nat) (zone : Text) :
    (fixed 2 second ++ (fractionText nanos ++ '+' :: zone)).takeWhile (· ≠ '+') = fixed 2 second ++
      fractionText nanos ∧ (fixed 2 second ++ (fractionText nanos ++ '+' :: zone)).dropWhile
        (· ≠ '+') = '+' :: zone := by
  have passes : ∀ c ∈ fixed 2 second ++ fractionText nanos, decide (c ≠ '+') = true := by
    intro c mem
    apply decide_eq_true
    rintro rfl
    rcases mem_append.1 mem with digit | there
    · exact absurd (fixed_isDigit 2 second _ digit) (by decide)
    · rcases fractionText_plain nanos _ there with digit | point
      · exact absurd digit (by decide)
      · exact absurd point (by decide)
  rw [← append_assoc, takeWhile_append_of_pos passes, dropWhile_append_of_pos passes]
  simp

section
variable {tieUp : Nat → Bool} {t : Timestamp}

theorem Timestamp.day_le (t : Timestamp) : t.day < 100 := by
  have longest : daysInMonth t.year t.month ≤ 31 := by
    unfold daysInMonth
    split
    · split <;> decide
    · split <;> decide
  have date := t.date
  omega

theorem tokensIn_rfc3339 {y : Nat} (year : t.year = y) (four : y ≤ 9999) :
    tokensIn (rfc3339 t) = some ((y, t.month, t.day), (t.hour, t.minute, t.second), t.nanos) := by
  have digits : yearText t.year = fixed 4 y := by
    rw [year, yearText, if_pos ⟨by omega, by omega⟩, Int.toNat_natCast]
  have zone := split_zone t.second t.nanos ['0', '0', ':', '0', '0']
  have date := t.date
  have time := t.time
  unfold tokensIn rfc3339
  rw [digits, numberUntil_fixed (by decide) (by decide) (show y < tens 4 from Nat.lt_of_le_of_lt
    four (by decide))]
  simp only [Option.bind_eq_bind, bind_some]
  rw [numberUntil_fixed (by decide) (by decide) (show t.month < tens 2 from Nat.lt_of_le_of_lt
    date.2.2.1 (by decide))]
  simp only [bind_some]
  rw [numberUntil_fixed (by decide) (by decide) (show t.day < tens 2 from t.day_le)]
  simp only [bind_some]
  rw [numberUntil_fixed (by decide) (by decide) (show t.hour <
    tens 2 from time.1.trans (by decide))]
  simp only [bind_some]
  rw [numberUntil_fixed (by decide) (by decide) (show t.minute < tens 2 from time.2.1.trans
    (by decide))]
  simp only [bind_some]
  rw [zone.1, zone.2, secondsIn_text time.2.2.1 time.2.2.2]
  rfl

theorem head?_rfc3339 (t : Timestamp) : (rfc3339 t).head? = (yearText t.year).head? := by
  rw [rfc3339, head?_append]
  cases year : (yearText t.year).head? with
  | some c => rfl
  | none =>
    unfold yearText at year
    split at year
    · cases year
    · cases year

/-- A year of four digits starts with a digit, any other with a sign. -/
theorem head?_yearText (year : Int) :
    ((yearText year).head? = some '+' ∨ (yearText year).head? = some '-') ↔
    ¬(0 ≤ year ∧ year ≤ 9999) := by
  unfold yearText
  split
  next inside =>
    refine ⟨fun sign => absurd inside ?_, fun outside => absurd inside outside⟩
    rcases sign with sign | sign
    · exact absurd (fixed_isDigit 4 _ _ (mem_of_head? sign)) (by decide)
    · exact absurd (fixed_isDigit 4 _ _ (mem_of_head? sign)) (by decide)
  next outside =>
    refine ⟨fun _ => outside, fun _ => ?_⟩
    split
    · exact .inl rfl
    · exact .inr rfl

theorem timestamptzIn_rfc3339 (tieUp : Nat → Bool) (years : 1 ≤ t.year ∧ t.year ≤ 9999) :
    timestamptzIn tieUp (rfc3339 t) = some (t.seconds * 1000000 + roundedMicros tieUp t.nanos) := by
  obtain ⟨y, year⟩ : ∃ y : Nat, t.year = y := ⟨t.year.toNat, by omega⟩
  have unsigned : ¬((rfc3339 t).head? = some '+' ∨ (rfc3339 t).head? = some '-') := by
    rw [head?_rfc3339, head?_yearText]
    exact not_not.2 ⟨by omega, years.2⟩
  have fields : microsOfFields tieUp (y, t.month, t.day) (t.hour, t.minute, t.second) t.nanos =
      some (t.seconds * 1000000 + roundedMicros tieUp t.nanos) := by
    have date := t.date.2
    have time := t.time
    rw [year] at date
    rw [microsOfFields, if_pos ⟨date.1, date.2.1, date.2.2.1, date.2.2.2, time.1, time.2.1,
      time.2.2.1⟩, Timestamp.seconds, year]
  rw [timestamptzIn, if_neg unsigned, tokensIn_rfc3339 year (by omega), bind_some,
    if_neg (show ¬y = 0 by omega)]
  exact fields

theorem timestamptzIn_refused (tieUp : Nat → Bool) (years : ¬(1 ≤ t.year ∧ t.year ≤ 9999)) :
    timestamptzIn tieUp (rfc3339 t) = none := by
  by_cases zero : t.year = 0
  · have year : t.year = (0 : Nat) := zero
    rw [timestamptzIn, tokensIn_rfc3339 year (by decide)]
    exact ite_self _
  · have signed : (rfc3339 t).head? = some '+' ∨ (rfc3339 t).head? = some '-' := by
      rw [head?_rfc3339, head?_yearText]
      omega
    rw [timestamptzIn, if_pos signed]

theorem Timestamp.bound_eq (t : Timestamp) :
    t.bound = t.seconds * 1000000 + if 0 ≤ t.seconds then (t.nanos / 1000 : Nat)
      else ((t.nanos + 999) / 1000 : Nat) := by
  have small := t.time.2.2.2
  unfold Timestamp.bound
  split
  next since =>
    rw [Int.tdiv_eq_ediv_of_nonneg (by omega)]
    omega
  next before =>
    have negative : t.seconds * 1000000000 + t.nanos = -(-(t.seconds * 1000000000 + t.nanos)) := by
      omega
    rw [negative, Int.neg_tdiv, Int.tdiv_eq_ediv_of_nonneg (by omega)]
    omega

/-- `COPY` stores the time that a binding sends, exactly for the common times. -/
theorem timestamptzIn_eq_bound :
    timestamptzIn tieUp (rfc3339 t) = some t.bound ↔ t.Common tieUp := by
  unfold Timestamp.Common
  by_cases years : 1 ≤ t.year ∧ t.year ≤ 9999
  · rw [timestamptzIn_rfc3339 tieUp years, t.bound_eq, Option.some.injEq, and_iff_right years,
      roundedMicros]
    cases up : roundsUp tieUp t.nanos with
    | true =>
      have rest : ¬t.nanos % 1000 = 0 := by
        intro zero
        simp [roundsUp, zero] at up
      simp only [if_true, true_iff, rest, false_or]
      split <;> omega
    | false =>
      simp only [Bool.false_eq_true, if_false, false_iff]
      split <;> omega
  · rw [timestamptzIn_refused tieUp years]
    exact ⟨fun none => (by cases none), fun common => absurd common.1 years⟩

end

end AwaQueue.Copy
