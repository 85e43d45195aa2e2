import Mathlib.Data.List.Nodup

/-! A map from keys to lists of values, filled by `entry(key).or_default().push(value)`. The order
of the keys is left open. -/

namespace AwaQueue.Library

open List
variable {κ β : Type*} [DecidableEq κ]

abbrev Buckets (κ β : Type*) := List (κ × List β)

namespace Buckets

def get (key : κ) : Buckets κ β → List β
  | [] => []
  | entry :: rest => if entry.1 = key then entry.2 else get key rest

def push (buckets : Buckets κ β) (key : κ) (value : β) : Buckets κ β :=
  match buckets with
  | [] => [(key, [value])]
  | entry :: rest =>
    if entry.1 = key then (entry.1, entry.2 ++ [value]) :: rest else entry :: push rest key value

def pushAll (buckets : Buckets κ β) (key : β → κ) (values : List β) : Buckets κ β :=
  values.foldl (fun buckets value => buckets.push (key value) value) buckets

variable {buckets : Buckets κ β} {key key' : κ} {value : β} {f : β → κ} {values : List β}

theorem get_push : (buckets.push key value).get key' = buckets.get key' ++ if key = key' then
    [value] else [] := by
  induction buckets with
  | nil =>
    simp only [push, get, nil_append]
  | cons entry rest ih =>
    by_cases here : entry.1 = key
    · by_cases same : key = key'
      · simp [push, get, here, same]
      · simp [push, get, here, same]
    · by_cases there : entry.1 = key'
      · have other : key ≠ key' := fun same => here (there.trans same.symm)
        rw [push, if_neg here, get, if_pos there, get, if_pos there, if_neg other, append_nil]
      · simp [push, get, here, there, ih]

theorem keys_push : (buckets.push key value).map Prod.fst =
    if key ∈ buckets.map Prod.fst then buckets.map Prod.fst else buckets.map Prod.fst ++ [key] := by
  induction buckets with
  | nil => simp [push]
  | cons entry rest ih =>
    by_cases here : entry.1 = key
    · simp [push, here]
    · have there : key ≠ entry.1 := Ne.symm here
      by_cases later : key ∈ rest.map Prod.fst
      · rw [push, if_neg here, map_cons, ih, if_pos later, if_pos (by simp [later]), map_cons]
      · rw [push, if_neg here, map_cons, ih, if_neg later, if_neg (by simp [there, later]),
          map_cons, cons_append]

theorem nodup_push (distinct : (buckets.map Prod.fst).Nodup) :
    ((buckets.push key value).map Prod.fst).Nodup := by
  rw [keys_push]
  split
  · exact distinct
  next absent => exact nodup_append.2 ⟨distinct, nodup_singleton _, by
      rintro a mem b same rfl
      exact absent (mem_singleton.1 same ▸ mem)⟩

theorem get_pushAll :
    (buckets.pushAll f values).get key = buckets.get key ++ values.filter fun value =>
      f value = key := by
  induction values generalizing buckets with
  | nil => simp [pushAll]
  | cons value rest ih =>
    have step : buckets.pushAll f (value :: rest) = (buckets.push (f value) value).pushAll f rest :=
      rfl
    rw [step, ih, get_push, append_assoc]
    by_cases same : f value = key
    · simp [same]
    · simp [same]

theorem nodup_pushAll (distinct : (buckets.map Prod.fst).Nodup) :
    ((buckets.pushAll f values).map Prod.fst).Nodup := by
  induction values generalizing buckets with
  | nil => exact distinct
  | cons value rest ih => exact ih (nodup_push distinct)

theorem get_of_mem (distinct : (buckets.map Prod.fst).Nodup) (mem : (key, values) ∈ buckets) :
    buckets.get key = values := by
  induction buckets with
  | nil => cases mem
  | cons entry rest ih =>
    rw [map_cons, nodup_cons] at distinct
    rcases mem_cons.1 mem with rfl | later
    · simp [get]
    · have other : entry.1 ≠ key := fun same => distinct.1 (same ▸ mem_map_of_mem later)
      rw [get, if_neg other, ih distinct.2 later]

theorem flatMap_eq_get {γ : Type*} {f : κ × List β → List γ}
    (distinct : (buckets.map Prod.fst).Nodup)
    (others : ∀ entry ∈ buckets, entry.1 ≠ key → f entry = []) (empty : f (key, []) = []) :
    buckets.flatMap f = f (key, buckets.get key) := by
  induction buckets with
  | nil => exact empty.symm
  | cons entry rest ih =>
    rw [map_cons, nodup_cons] at distinct
    have later := ih distinct.2 fun other listed => others other (mem_cons_of_mem _ listed)
    by_cases here : entry.1 = key
    · have absent : rest.flatMap f = [] := by
        apply flatMap_eq_nil_iff.2
        intro other listed
        apply others other (mem_cons_of_mem _ listed)
        exact fun same => distinct.1 (here.trans same.symm ▸ mem_map_of_mem listed)
      rw [flatMap_cons, absent, append_nil, get, if_pos here, ← here]
    · rw [flatMap_cons, others entry mem_cons_self here, nil_append, later, get, if_neg here]

theorem push_perm : (buckets.push key value).flatMap Prod.snd ~ buckets.flatMap Prod.snd ++
    [value] := by
  induction buckets with
  | nil => exact .refl _
  | cons entry rest ih =>
    rw [push]
    split
    · rw [flatMap_cons, flatMap_cons, append_assoc, append_assoc]
      exact perm_append_comm.append_left entry.2
    · rw [flatMap_cons, flatMap_cons, append_assoc]
      exact ih.append_left entry.2

theorem pushAll_perm :
    (buckets.pushAll f values).flatMap Prod.snd ~ buckets.flatMap Prod.snd ++ values := by
  induction values generalizing buckets with
  | nil => rw [append_nil, pushAll, foldl_nil]
  | cons value rest ih =>
    calc (buckets.pushAll f (value :: rest)).flatMap Prod.snd
        ~ (buckets.push (f value) value).flatMap Prod.snd ++ rest := ih
      _ ~ (buckets.flatMap Prod.snd ++ [value]) ++ rest := push_perm.append_right rest
      _ = buckets.flatMap Prod.snd ++ value :: rest := append_assoc _ _ _

theorem get_map {κ' γ : Type*} [DecidableEq κ'] {rename : κ → κ'}
    (injective : Function.Injective rename) (f : β → γ) :
    get (rename key) (buckets.map fun entry => (rename entry.1, entry.2.map f)) =
      (buckets.get key).map f := by
  induction buckets with
  | nil => rfl
  | cons entry rest ih =>
    rw [map_cons, get, get]
    by_cases here : entry.1 = key
    · rw [if_pos here, if_pos (congrArg rename here)]
    · rw [if_neg here, if_neg (injective.ne here), ih]

end Buckets
end AwaQueue.Library
