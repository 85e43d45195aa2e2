import Mathlib.Data.List.Basic

/-! The unique key of a job: `compute_unique_key`, as `compute_unique_fields` calls it.

The hash is fed the kind and then, each behind a zero byte, the components that the options select.
These bytes can be decoded: the period bucket stands last and has eight of them, and neither a kind
nor a queue contains the separator. -/

namespace AwaQueue

open List
variable {J : Type}

/-- `serde_json::to_vec`, with what is assumed of it. -/
structure JsonSerializer (J : Type) where
  toVec : J → List UInt8
  injective : Function.Injective toVec

/-- `UniqueOpts`; `byPeriod` is the bucket itself. -/
structure UniqueOpts where
  byQueue : Bool := false
  byArgs : Bool := true
  byPeriod : Option Int64 := none
  states : UInt8 := 0b00011111

/-- The fields of `InsertOpts` that the unique fields come from. -/
structure InsertOpts where
  queue : String := "default"
  unique : Option UniqueOpts := none

structure KeyComponents (J : Type) where
  kind : String
  queue : Option String
  args : Option J
  periodBucket : Option Int64

def asBytes (text : String) : List UInt8 := text.toByteArray.data.toList

def toLeBytes (n : Int64) : List UInt8 := (List.range 8).map fun i =>
    ⟨n.toBitVec.extractLsb' (8 * i) 8⟩

def optionalPart {α : Type} (bytes : α → List UInt8) (component : Option α) : List UInt8 :=
  component.elim [] fun value => 0 :: bytes value

def KeyComponents.hashInput (json : JsonSerializer J) (c : KeyComponents J) : List UInt8 :=
  asBytes c.kind ++ optionalPart asBytes c.queue ++ optionalPart json.toVec c.args ++
    optionalPart toLeBytes c.periodBucket

def computeUniqueKey (json : JsonSerializer J) (blake3 : List UInt8 → List UInt8)
    (c : KeyComponents J) : List UInt8 :=
  (blake3 (c.hashInput json)).take 16

def UniqueOpts.components (u : UniqueOpts) (kind queue : String) (args : J) : KeyComponents J where
  kind
  queue := if u.byQueue then some queue else none
  args := if u.byArgs then some args else none
  periodBucket := u.byPeriod

def UniqueOpts.bitString (u : UniqueOpts) : String :=
  String.ofList ((List.range 8).map fun bit => if u.states &&& (1 : UInt8) <<< bit.toUInt8 ≠ 0 then
    '1' else '0')

def computeUniqueFields (json : JsonSerializer J) (blake3 : List UInt8 → List UInt8)
    (kind : String) (args : J) (opts : InsertOpts) : Option (List UInt8) × Option String :=
  (opts.unique.map fun u => computeUniqueKey json blake3 (u.components kind opts.queue args),
    opts.unique.map UniqueOpts.bitString)

theorem asBytes_injective : Function.Injective asBytes := by
  intro s t same
  apply String.toByteArray_inj.1
  apply ByteArray.ext
  exact Array.toList_inj.1 same

theorem toLeBytes_injective : Function.Injective toLeBytes := by
  intro m n same
  have byte : ∀ i < 8, m.toBitVec.extractLsb' (8 * i) 8 = n.toBitVec.extractLsb' (8 * i) 8 := by
    intro i low
    exact congrArg UInt8.toBitVec (map_inj_left.1 same i (mem_range.2 low))
  apply Int64.toBitVec_inj.1
  apply BitVec.eq_of_getLsbD_eq
  intro i bound
  have bit := congrArg (fun b => b.getLsbD (i % 8)) (byte (i / 8) (by omega))
  simpa [BitVec.getLsbD_extractLsb', Nat.mod_lt, Nat.div_add_mod] using bit

/-- What comes before the first separator does not contain it, so both sides of it are determined.
-/
theorem separated {a b x y : List UInt8} (left : 0 ∉ a) (right : 0 ∉ b)
    (same : a ++ 0 :: x = b ++ 0 :: y) : a = b ∧ x = y := by
  induction a generalizing b with
  | nil =>
    cases b with
    | nil => exact ⟨rfl, (cons.inj same).2⟩
    | cons byte rest => exact absurd ((cons.inj same).1 ▸ mem_cons_self) right
  | cons byte rest ih =>
    cases b with
    | nil => exact absurd ((cons.inj same).1.symm ▸ mem_cons_self) left
    | cons other rest' =>
      obtain ⟨heads, tails⟩ := cons.inj same
      obtain ⟨rests, after⟩ := ih (not_mem_of_not_mem_cons left)
        (not_mem_of_not_mem_cons right) tails
      exact ⟨by rw [heads, rests], after⟩

theorem bucket_split {front front' : List UInt8} {bucket bucket' : Option Int64}
    (shape : bucket.isSome = bucket'.isSome)
    (same : front ++ optionalPart toLeBytes bucket = front' ++ optionalPart toLeBytes bucket') :
    front = front' ∧ bucket = bucket' := by
  have lengths : (optionalPart toLeBytes bucket).length =
      (optionalPart toLeBytes bucket').length := by
    cases bucket <;> cases bucket' <;> simp_all [optionalPart, toLeBytes]
  obtain ⟨fronts, buckets⟩ := append_inj' same lengths
  refine ⟨fronts, ?_⟩
  cases bucket with
  | none =>
    cases bucket' with
    | none => rfl
    | some other => cases shape
  | some value =>
    cases bucket' with
    | none => cases shape
    | some other => exact congrArg some (toLeBytes_injective (cons.inj buckets).2)

theorem select_congr {α : Type} {selected : Bool} {x y : α} (agree : selected = true → x = y) :
    (if selected then some x else none) = if selected then some y else none := by
  cases selected with
  | false => rfl
  | true => rw [agree rfl]

section
variable {json : JsonSerializer J} {u v : UniqueOpts} {kind kind' queue queue' : String} {x y : J}

/-- Two jobs whose options select the same components feed the hash the same bytes exactly when
these components agree. -/
theorem hashInput_eq_iff (queues : u.byQueue = v.byQueue) (arguments : u.byArgs = v.byArgs)
    (periods : u.byPeriod.isSome = v.byPeriod.isSome) (kindPlain : 0 ∉ asBytes kind)
    (kindPlain' : 0 ∉ asBytes kind')
    (queuePlain : 0 ∉ asBytes queue) (queuePlain' : 0 ∉ asBytes queue') :
    (u.components kind queue x).hashInput json = (v.components kind' queue' y).hashInput json ↔
      kind = kind' ∧ (u.byQueue = true → queue = queue') ∧ (u.byArgs = true → x = y) ∧
        u.byPeriod = v.byPeriod := by
  simp only [UniqueOpts.components, KeyComponents.hashInput, ← queues, ← arguments]
  constructor
  · intro same
    obtain ⟨fronts, buckets⟩ := bucket_split periods same
    -- the kinds end at the first separator, and the queues at the second if one follows
    cases byQueue : u.byQueue <;> cases byArgs : u.byArgs <;>
      simp only [byQueue, byArgs, if_true, if_false, Bool.false_eq_true, optionalPart,
        Option.elim_some, Option.elim_none,
        List.append_nil, List.append_assoc, List.cons_append] at fronts
    · exact ⟨asBytes_injective fronts, by simp, by simp, buckets⟩
    · obtain ⟨kinds, texts⟩ := separated kindPlain kindPlain' fronts
      exact ⟨asBytes_injective kinds, by simp, fun _ => json.injective texts, buckets⟩
    · obtain ⟨kinds, names⟩ := separated kindPlain kindPlain' fronts
      exact ⟨asBytes_injective kinds, fun _ => asBytes_injective names, by simp, buckets⟩
    · obtain ⟨kinds, rest⟩ := separated kindPlain kindPlain' fronts
      obtain ⟨names, texts⟩ := separated queuePlain queuePlain' rest
      exact ⟨asBytes_injective kinds, fun _ => asBytes_injective names,
        fun _ => json.injective texts, buckets⟩
  · rintro ⟨rfl, names, values, buckets⟩
    rw [select_congr names, select_congr values, buckets]

end

def boolSerializer : JsonSerializer Bool where
  toVec value := asBytes (if value then "true" else "false")
  injective := by
    intro a b
    revert a b
    decide

/-- Moving a byte from the kind to the queue changes what is hashed, although the bucket contains
zero bytes. -/
theorem hashInput_ne_of_shift :
    (UniqueOpts.components ⟨true, true, some 256, 31⟩ "ab" "c" true).hashInput boolSerializer ≠
      (UniqueOpts.components ⟨true, true, some 256, 31⟩ "a" "bc" true).hashInput
        boolSerializer := by
  intro same
  have equal := (hashInput_eq_iff rfl rfl rfl (by decide) (by decide) (by decide) (by decide)).1
    same
  exact absurd equal.1 (by decide)

end AwaQueue
