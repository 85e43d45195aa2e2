import Mathlib.Logic.Relation
import Mathlib.Data.List.Basic

/-! Machines given by a partial step function over labelled operations, and the
rules by which a property of one step becomes a property of every run. A run may be
restricted to the steps that meet a condition in the state they start from. -/

namespace AwaQueue.Library

open Option List

/-- A guarded step was enabled, and to what state it led. -/
theorem guard_eq_some {σ : Type*} {p : Prop} [Decidable p] {s t : σ}
    (step : (if p then some s else none) = some t) : p ∧ s = t :=
  (ite_none_right_eq_some.1 step).imp_right some_inj.1

theorem update_eq_some {α β : Type*} [DecidableEq α] {f : α → Option β} {a b : α}
    {v : Option β} {w : β}
    (found : Function.update f a v b = some w) : b = a ∧ v = some w ∨ b ≠ a ∧ f b = some w := by
  by_cases same : b = a
  · subst same
    rw [Function.update_self] at found
    exact .inl ⟨rfl, found⟩
  · rw [Function.update_of_ne same] at found
    exact .inr ⟨same, found⟩

theorem forall_mem_concat {α : Type*} {P : α → Prop} {xs : List α} {y : α} (old : ∀ x ∈ xs, P x)
    (new : P y) : ∀ x ∈ xs ++ [y], P x :=
  forall_mem_append.2 ⟨old, forall_mem_singleton.2 new⟩

theorem toOption_eq_some {ε α : Type*} {x : Except ε α} {a : α} (succeeded : x.toOption = some a) :
    x = .ok a := by
  cases x with
  | error e => cases succeeded
  | ok b =>
    cases succeeded
    rfl

theorem mapM_eq_some {α β : Type*} {f : α → Option β} {xs : List α} {ys : List β} :
    xs.mapM f = some ys ↔ xs.map f = ys.map some := by
  induction xs generalizing ys with
  | nil => cases ys <;> simp
  | cons x xs ih =>
    cases ys with
    | nil => simp [mapM_cons, bind_eq_some_iff]
    | cons y ys => simp [mapM_cons, ← ih, bind_eq_some_iff]

theorem exists_mapM_eq_some {α β : Type*} {f : α → Option β} {xs : List α} :
    (∃ ys, xs.mapM f = some ys) ↔ ∀ x ∈ xs, (f x).isSome = true := by
  simp only [mapM_eq_some]
  constructor
  · rintro ⟨ys, each⟩ x mem
    have image : f x ∈ ys.map some := each ▸ mem_map_of_mem mem
    obtain ⟨y, -, same⟩ := mem_map.1 image
    rw [← same]
    rfl
  · intro defined
    refine ⟨xs.filterMap f, ?_⟩
    rw [map_filterMap_some_eq_filter_map_isSome, eq_comm, filter_eq_self]
    exact forall_mem_map.2 defined

theorem mapM_eq_ok {ε α β : Type} {f : α → Except ε β} {g : α → β} {xs : List α}
    (each : ∀ x ∈ xs, f x = .ok (g x)) : xs.mapM f = .ok (xs.map g) := by
  induction xs with
  | nil => rfl
  | cons x rest ih =>
    rw [mapM_cons, each x mem_cons_self, ih fun y mem => each y (mem_cons_of_mem _ mem)]
    rfl

theorem map_ok_iff {ε α β : Type} {x : Except ε α} {f : α → β} :
    (∃ z, x.map f = .ok z) ↔ ∃ y, x = .ok y := by
  cases x with
  | error e => exact ⟨fun ⟨_, ran⟩ => (nomatch ran), fun ⟨_, ran⟩ => (nomatch ran)⟩
  | ok y => exact ⟨fun _ => ⟨y, rfl⟩, fun _ => ⟨f y, rfl⟩⟩

theorem mapM_ok_iff {ε α β : Type} {f : α → Except ε β} {xs : List α} :
    (∃ ys, xs.mapM f = .ok ys) ↔ ∀ x ∈ xs, ∃ y, f x = .ok y := by
  induction xs with
  | nil => exact ⟨fun _ _ mem => (nomatch mem), fun _ => ⟨[], rfl⟩⟩
  | cons x rest ih =>
    rw [forall_mem_cons, ← ih, mapM_cons]
    cases f x with
    | error e => exact ⟨fun ⟨_, ran⟩ => (nomatch ran), fun ⟨⟨_, ran⟩, _⟩ => (nomatch ran)⟩
    | ok y =>
      cases rest.mapM f with
      | error e => exact ⟨fun ⟨_, ran⟩ => (nomatch ran), fun ⟨_, _, ran⟩ => (nomatch ran)⟩
      | ok ys => exact ⟨fun _ => ⟨⟨y, rfl⟩, ys, rfl⟩, fun _ => ⟨y :: ys, rfl⟩⟩

structure Machine (σ ω : Type*) where
  init : σ → Prop
  step : ω → σ → Option σ

namespace Machine
variable {σ ω : Type*} (m : Machine σ ω)

/-- The states of the runs whose steps all meet `ok`. -/
inductive Reachable (ok : ω → σ → Prop) : σ → Prop where
  | start {s : σ} : m.init s → Reachable ok s
  | next {op : ω} {s t : σ} : Reachable ok s → ok op s → m.step op s = some t → Reachable ok t

def Always : ω → σ → Prop := fun _ _ => True

variable {m} {ok : ω → σ → Prop}

theorem Reachable.invariant {Inv : σ → Prop} {s : σ} (reached : m.Reachable ok s)
    (initial : ∀ s, m.init s → Inv s) (preserved : ∀ op s t, m.Reachable ok s → Inv s → ok op s →
      m.step op s = some t → Inv t) : Inv s := by
  induction reached with
  | start first => exact initial _ first
  | next before meets step ih => exact preserved _ _ _ before ih meets step

theorem Reachable.mono {weaker : ω → σ → Prop} {s : σ} (reached : m.Reachable ok s)
    (weaken : ∀ op s, ok op s → weaker op s) : m.Reachable weaker s := by
  induction reached with
  | start first => exact .start first
  | next _ meets step ih => exact .next ih (weaken _ _ meets) step

instance (op : ω) (s : σ) : Decidable (Always op s) := .isTrue trivial

def run (m : Machine σ ω) (ok : ω → σ → Prop) [∀ op s, Decidable (ok op s)] : List ω → σ → Option σ
  | [], s => some s
  | op :: ops, s => if ok op s then (m.step op s).bind (m.run ok ops) else none

variable [∀ op s, Decidable (ok op s)]

theorem run_cons {op : ω} {ops : List ω} {s u : σ} (ran : m.run ok (op :: ops) s = some u) :
    ok op s ∧ ∃ t, m.step op s = some t ∧ m.run ok ops t = some u := by
  obtain ⟨meets, rest⟩ := ite_none_right_eq_some.1 ran
  exact ⟨meets, bind_eq_some_iff.1 rest⟩

theorem run_of_step {op : ω} {ops : List ω} {s t u : σ} (meets : ok op s)
    (step : m.step op s = some t)
    (rest : m.run ok ops t = some u) : m.run ok (op :: ops) s = some u := by
  rw [run, if_pos meets, step]
  exact rest

theorem run_reachable {ops : List ω} {s t : σ} (from_ : m.Reachable ok s)
    (ran : m.run ok ops s = some t) : m.Reachable ok t := by
  induction ops generalizing s with
  | nil =>
    cases ran
    exact from_
  | cons op ops ih =>
    obtain ⟨meets, mid, first, rest⟩ := run_cons ran
    exact ih (.next from_ meets first) rest

/-- A trace from an initial state to a state with the property `hit`, evaluated. -/
theorem reachable_of_run (m : Machine σ ω) (ok : ω → σ → Prop) [∀ op s, Decidable (ok op s)]
    (ops : List ω) {s : σ} (hit : σ → Prop) [∀ s, Decidable (hit s)] (first : m.init s)
    (ran : (m.run ok ops s).map (fun t => decide (hit t)) = some true) :
    ∃ t, m.Reachable ok t ∧ hit t := by
  obtain ⟨t, reached, holds⟩ := map_eq_some_iff.1 ran
  exact ⟨t, run_reachable (.start first) reached, of_decide_eq_true holds⟩

end Machine
end AwaQueue.Library
