import AwaQueue.Batch.Runner
import AwaQueue.Library.Tally
import Mathlib.Data.List.Perm.Basic

/-! While no runner outlives its lock: every item is applied once at most, and the counters and the
final states are right. -/

namespace AwaQueue.Batch

open List
open Function (forall_update_iff)
open Library

section
variable {o : Operation} {job : Nat}

theorem mem_pendingJobs : job ∈ o.pendingJobs ↔ (job, .pending) ∈ o.items := by
  constructor
  · intro mem
    obtain ⟨⟨j, state⟩, there, rfl⟩ := mem_map.1 mem
    obtain ⟨inside, pending⟩ := mem_filter.1 there
    rw [← of_decide_eq_true pending]
    exact inside
  · intro mem
    exact mem_map.2 ⟨_, mem_filter.2 ⟨mem, decide_eq_true rfl⟩, rfl⟩

theorem mem_pendingJobs_insertItems (jobs : List Nat) (pending : job ∈ o.pendingJobs) :
    job ∈ (o.insertItems jobs).pendingJobs := by
  unfold Operation.insertItems
  induction jobs generalizing o with
  | nil => exact pending
  | cons new jobs ih =>
    refine ih ?_
    unfold Operation.insertItem
    split
    · exact pending
    · exact mem_pendingJobs.2 (mem_append_left _ (mem_pendingJobs.1 pending))

theorem recordOutcome_items (outcome : ItemState) (keys : (o.items.map Prod.fst).Nodup)
    (pending : job ∈ o.pendingJobs) : ∃ before after, o.items = before ++ (job, .pending) :: after ∧
      (o.recordOutcome job outcome).items = before ++ (job, outcome) :: after := by
  obtain ⟨before, after, split⟩ := append_of_mem (mem_pendingJobs.1 pending)
  refine ⟨before, after, split, ?_⟩
  rw [split, map_append, map_cons, nodup_append, nodup_cons] at keys
  obtain ⟨-, ⟨later, -⟩, apart⟩ := keys
  have other {part : List (Nat × ItemState)} (absent : job ∉ part.map Prod.fst) :
      (part.map fun item => if item.1 = job ∧ item.2 = .pending then (item.1, outcome) else item) =
        part := by
    conv_rhs => rw [← map_id part]
    refine map_congr_left fun item mem => if_neg fun same => absent ?_
    rw [← same.1]
    exact mem_map_of_mem mem
  have earlier : job ∉ before.map Prod.fst := fun mem => apart job mem job mem_cons_self rfl
  change (o.items.map _) = _
  rw [split, map_append, map_cons, other earlier, other later, if_pos ⟨rfl, rfl⟩]

end

/-- The items, counters and state of an operation fit together and to what was applied. -/
structure OperationOk (applied : List (Nat × Nat)) (id : Nat) (o : Operation) : Prop where
  keys : (o.items.map Prod.fst).Nodup
  counted : o.processed + o.skipped + o.errored = o.settled
  applied : ∀ job, applied.count (id, job) = o.items.count (job, .processed)
  final : o.state.active = false → o.pendingJobs = []

namespace OperationOk
variable {applied : List (Nat × Nat)} {id : Nat} {o : Operation} {job : Nat}

section
variable (ok : OperationOk applied id o)
include ok

theorem once (job : Nat) : applied.count (id, job) ≤ 1 := by
  rw [ok.applied]
  exact (nodup_iff_count_le_one.1 (List.Nodup.of_map _ ok.keys)) _

theorem insertItem (active : o.state.active = true) (job : Nat) :
    OperationOk applied id (o.insertItem job) ∧ (o.insertItem job).state = o.state := by
  unfold Operation.insertItem
  split
  · exact ⟨ok, rfl⟩
  · next absent =>
    refine ⟨⟨nodup_map_concat ok.keys fun other mem same => ?_, ?_, fun j => ?_, fun final => ?_⟩,
      rfl⟩
    · exact absent (mem_map.2 ⟨other, mem, same⟩)
    · change o.processed + o.skipped + o.errored = (o.items ++ [_]).countP _
      rw [ok.counted, countP_append]
      rfl
    · have none : [(job, ItemState.pending)].count (j, .processed) = 0 := by simp
      rw [count_append, ok.applied j, none, Nat.add_zero]
    · cases active.symm.trans final

theorem insertItems (active : o.state.active = true) (jobs : List Nat) :
    OperationOk applied id (o.insertItems jobs) ∧ (o.insertItems jobs).state = o.state := by
  unfold Operation.insertItems
  induction jobs generalizing o with
  | nil => exact ⟨ok, rfl⟩
  | cons job jobs ih =>
    obtain ⟨next, same⟩ := ok.insertItem active job
    obtain ⟨last, state⟩ := ih next (same ▸ active)
    exact ⟨last, state.trans same⟩

theorem recordOutcome (pending : job ∈ o.pendingJobs) {outcome : ItemState}
    (settles : outcome ≠ .pending) :
    OperationOk (applied ++ if outcome = .processed then [(id, job)] else []) id
      (o.recordOutcome job outcome) ∧
      ∀ j, j ∈ (o.recordOutcome job outcome).pendingJobs ↔ j ∈ o.pendingJobs ∧ j ≠ job := by
  obtain ⟨before, after, items, items'⟩ := recordOutcome_items outcome ok.keys pending
  have keys := ok.keys
  rw [items, map_append, map_cons, nodup_append, nodup_cons] at keys
  obtain ⟨distinct, ⟨later, distinct'⟩, apart⟩ := keys
  have earlier : job ∉ before.map Prod.fst := fun mem => apart job mem job mem_cons_self rfl
  have left : ∀ j, j ∈ (o.recordOutcome job outcome).pendingJobs ↔ j ∈ o.pendingJobs ∧ j ≠ job := by
    intro j
    rw [mem_pendingJobs, mem_pendingJobs, items', items]
    constructor
    · intro mem
      rcases mem_append.1 mem with there | there
      · refine ⟨mem_append_left _ there, ?_⟩
        rintro rfl
        exact earlier (mem_map_of_mem there)
      · rcases mem_cons.1 there with same | inside
        · exact absurd (congrArg Prod.snd same).symm settles
        · refine ⟨mem_append_right _ (mem_cons_of_mem _ inside), ?_⟩
          rintro rfl
          exact later (mem_map_of_mem inside)
    · rintro ⟨mem, other⟩
      rcases mem_append.1 mem with there | there
      · exact mem_append_left _ there
      · rcases mem_cons.1 there with same | there
        · exact absurd (congrArg Prod.fst same) other
        · exact mem_append_right _ (mem_cons_of_mem _ there)
  refine ⟨⟨?_, ?_, ?_, ?_⟩, left⟩
  · rw [items', map_append, map_cons, nodup_append, nodup_cons]
    exact ⟨distinct, ⟨later, distinct'⟩, apart⟩
  · have counted := ok.counted
    rw [Operation.settled, items, countP_append, countP_cons_of_neg (by simp)] at counted
    rw [Operation.settled, items', countP_append, countP_cons_of_pos (by simpa using settles)]
    have delta : (o.recordOutcome job outcome).processed + (o.recordOutcome job outcome).skipped +
        (o.recordOutcome job outcome).errored = o.processed + o.skipped + o.errored + 1 := by
      cases outcome with
      | pending => exact absurd rfl settles
      | processed | skipped | errored =>
        simp only [Operation.recordOutcome, if_true, reduceCtorEq, if_false]; omega
    omega
  · intro j
    have applied := ok.applied j
    rw [items, count_append, count_cons_of_ne (by simp)] at applied
    rw [items', count_append, count_append, count_cons, applied]
    by_cases processed : outcome = .processed
    · subst processed
      by_cases here : job = j
      · subst here
        simp
        omega
      · simp [here]
    · simp [processed]
  · intro final
    have none := ok.final final
    rw [none] at pending
    exact absurd pending not_mem_nil

theorem skipPending : OperationOk applied id o.skipPending ∧ o.skipPending.pendingJobs = [] := by
  have none : o.skipPending.pendingJobs = [] := by
    rw [eq_nil_iff_forall_not_mem]
    intro job mem
    obtain ⟨item, -, same⟩ := mem_map.1 (mem_pendingJobs.1 mem)
    split at same
    · cases same
    · next settled => exact settled (congrArg Prod.snd same)
  refine ⟨⟨?_, ?_, ?_, fun _ => none⟩, none⟩
  · have keys : o.skipPending.items.map Prod.fst = o.items.map Prod.fst := by
      change (o.items.map _).map Prod.fst = _
      rw [map_map]
      refine map_congr_left fun item _ => ?_
      change (if item.2 = .pending then (item.1, ItemState.skipped) else item).1 = item.1
      split <;> rfl
    rw [keys]
    exact ok.keys
  · have all : o.skipPending.settled = o.items.length := by
      change (o.items.map _).countP _ = _
      rw [countP_map, countP_eq_length]
      intro item _
      change decide ((if item.2 = .pending then (item.1, ItemState.skipped) else item).2 ≠
        .pending) = true
      split
      · rfl
      · next settled => exact decide_eq_true settled
    have split : o.items.length = o.settled + o.pendingJobs.length := by
      rw [Operation.pendingJobs, length_map, ← countP_eq_length_filter, Operation.settled,
        length_eq_countP_add_countP (fun item => decide (item.2 ≠ ItemState.pending))]
      congr 2
      funext item
      simp
    have counted := ok.counted
    change o.processed + (o.skipped + o.pendingJobs.length) + o.errored = _
    omega
  · intro job
    rw [ok.applied job]
    change _ = (o.items.map _).count _
    rw [count_eq_countP, count_eq_countP, countP_map]
    refine countP_congr fun item _ => ?_
    change (item == (job, .processed)) = true ↔
      ((if item.2 = .pending then (item.1, ItemState.skipped) else item) == (job, .processed)) =
        true
    split
    · next pending =>
      have fresh : item ≠ (job, .processed) := by
        rintro rfl
        cases pending
      simp [fresh]
    · rfl

end

end OperationOk

def pendingOf (ops : Nat → Option Operation) (id : Nat) : List Nat :=
  (ops id).elim [] (·.pendingJobs)

section
variable {ops : Nat → Option Operation} {id : Nat}

theorem pendingOf_some {o : Operation} (there : ops id = some o) :
    pendingOf ops id = o.pendingJobs := by
  rw [pendingOf, there]
  rfl

theorem pendingOf_update {f : Operation → Operation} :
    pendingOf (Function.update ops id ((ops id).map f)) id = (ops id).elim [] fun o =>
      (f o).pendingJobs := by
  rw [pendingOf, Function.update_self]
  cases ops id with
  | none | some o => rfl

theorem exists_of_pendingOf {job : Nat} (pending : job ∈ pendingOf ops id) :
    ∃ o, ops id = some o ∧ job ∈ o.pendingJobs := by
  cases there : ops id with
  | none =>
    rw [pendingOf, there] at pending
    exact absurd pending not_mem_nil
  | some o => exact ⟨o, rfl, pendingOf_some there ▸ pending⟩

end

structure Hand (ops : Nat → Option Operation) (locked : List (Nat × Nat)) (id : Nat)
    (jobs : List Nat) : Prop where
  distinct : jobs.Nodup
  pending : ∀ job ∈ jobs, job ∈ pendingOf ops id
  free : ∀ job ∈ jobs, (id, job) ∉ locked

def PhaseOk (ops : Nat → Option Operation) (locked : List (Nat × Nat)) : Phase → Prop
  | .scanning id | .scanned id => ∀ o, ops id = some o → o.state.active = true
  | .items id jobs => Hand ops locked id jobs
  | .applying id job _ rest | .erring id job rest => Hand ops locked id (job :: rest)
  | .recorded id job _ rest => Hand ops locked id rest ∧ job ∉ rest
  | .counted id pending => pending = 0 → pendingOf ops id = []
  | .finalizing id state => state.active = false ∧ pendingOf ops id = []
  | _ => True

structure BatchInv (s : BatchState) : Prop where
  lock : ∀ r, s.phase r ≠ .idle → s.lock = some r
  phases : ∀ r, PhaseOk s.ops s.locked (s.phase r)
  ops : ∀ id o, s.ops id = some o → OperationOk s.applied id o
  used : ∀ id, s.ops id ≠ none → id ∈ s.used
  known : ∀ entry ∈ s.applied, entry.1 ∈ s.used
  once : ∀ entry, s.applied.count entry ≤ 1
  outcomes : ∀ tx ∈ s.transactions, tx.outcome ≠ .pending
  apart : s.locked.Nodup
  pending : ∀ item ∈ s.locked, item.2 ∈ pendingOf s.ops item.1

section
variable {s : BatchState} {r id : Nat} {phase : Phase} {ops ops' : Nat → Option Operation}
    {locked locked' : List (Nat × Nat)}

theorem Hand.tail {job : Nat} {rest : List Nat} (hand : Hand ops locked id (job :: rest)) :
    Hand ops locked id rest :=
  ⟨(nodup_cons.1 hand.distinct).2, fun j mem => hand.pending j (mem_cons_of_mem _ mem),
    fun j mem => hand.free j (mem_cons_of_mem _ mem)⟩

/-- What runners rely on stays, if the jobs in their hands stay pending and free and no other job
becomes pending. -/
theorem PhaseOk.mono (ok : PhaseOk ops locked phase)
    (kept : ∀ id job, job ∈ pendingOf ops id → (id, job) ∉ locked → job ∈ pendingOf ops' id ∧
    (id, job) ∉ locked') (fewer : ∀ id, pendingOf ops id = [] → pendingOf ops' id = [])
    (active : ∀ id o', ops' id = some o' → o'.state.active = false → ∃ o, ops id = some o ∧
    o.state.active = false) : PhaseOk ops' locked' phase := by
  have scan {id : Nat} (before : ∀ o, ops id = some o → o.state.active = true) :
      ∀ o, ops' id = some o → o.state.active = true := by
    intro o' there
    by_contra final
    obtain ⟨o, was, ended⟩ := active id o' there (Bool.eq_false_iff.2 final)
    cases (before o was).symm.trans ended
  have hold {id : Nat} {jobs : List Nat} (hand : Hand ops locked id jobs) :
      Hand ops' locked' id jobs :=
    ⟨hand.distinct, fun job mem => (kept id job (hand.pending job mem) (hand.free job mem)).1,
      fun job mem => (kept id job (hand.pending job mem) (hand.free job mem)).2⟩
  cases phase with
  | scanning | scanned => exact scan ok
  | items | applying | erring => exact hold ok
  | recorded => exact ⟨hold ok.1, ok.2⟩
  | counted id pending => exact fun none => fewer id (ok none)
  | finalizing id state => exact ⟨ok.1, fewer id ok.2⟩
  | idle | locked | chunk | counting | skipping | unlocking => trivial

section
variable (inv : BatchInv s)
include inv

theorem BatchInv.alone (busy : s.phase r ≠ .idle) {r' : Nat} (other : r' ≠ r) :
    s.phase r' = .idle := by
  by_contra active
  exact other (Option.some.inj ((inv.lock r' active).symm.trans (inv.lock r busy)))

theorem BatchInv.setDiffers (id job : Nat) (differs : Bool) :
    BatchInv (s.setDiffers id job differs) :=
  { inv with }

/-- A runner changes an operation; the others are idle. -/
theorem BatchInv.update (busy : s.phase r ≠ .idle) (f : Operation → Operation)
    (ok : ∀ o, s.ops id = some o → OperationOk s.applied id (f o))
    (kept : ∀ o, s.ops id = some o → ∀ job, (id, job) ∈ s.locked → job ∈ o.pendingJobs →
    job ∈ (f o).pendingJobs)
    (next : PhaseOk (Function.update s.ops id ((s.ops id).map f)) s.locked phase) :
    BatchInv ((s.modifyOp id f).setPhase r phase) where
  __ := inv
  lock := (forall_update_iff s.phase fun r' phase => phase ≠ .idle → s.lock = some r').2
    ⟨fun _ => inv.lock r busy, fun r' _ => inv.lock r'⟩
  phases := by
    refine (forall_update_iff s.phase fun _ phase => PhaseOk _ s.locked phase).2 ⟨next,
      fun r' other => ?_⟩
    rw [inv.alone busy other]
    trivial
  ops id' o there := by
    rcases update_eq_some there with ⟨rfl, there⟩ | ⟨-, there⟩
    · obtain ⟨old, was, rfl⟩ := Option.map_eq_some_iff.1 there
      exact ok old was
    · exact inv.ops id' o there
  used := by
    refine (forall_update_iff s.ops fun id' found => found ≠ none → id' ∈ s.used).2
      ⟨fun there => ?_, fun id' _ => inv.used id'⟩
    exact inv.used id fun none => there (Option.map_eq_none_iff.2 none)
  pending := by
    rintro ⟨id', job⟩ mem
    have before := inv.pending _ mem
    change job ∈ pendingOf (Function.update s.ops id ((s.ops id).map f)) id'
    by_cases here : id' = id
    · subst here
      obtain ⟨o, there, first⟩ := exists_of_pendingOf before
      rw [pendingOf_update, there]
      exact kept o there job mem first
    · rwa [pendingOf, Function.update_of_ne here]

/-- Another place of a runner, with the transactions that are open then. -/
theorem BatchInv.enter {lock : Option Nat} {transactions : List ItemTx}
    (mine : phase ≠ .idle → lock = some r) (others : ∀ r', r' ≠ r → s.phase r' ≠ .idle →
    lock = some r') (same : transactions.map ItemTx.item = s.locked)
    (outcomes : ∀ tx ∈ transactions, tx.outcome ≠ .pending) (next : PhaseOk s.ops s.locked phase) :
    BatchInv ({ s with lock, transactions }.setPhase r phase) := by
  have locks : BatchState.locked ({ s with lock, transactions }.setPhase r phase) = s.locked := same
  exact {
    inv with
    lock := (forall_update_iff s.phase fun r' phase => phase ≠ .idle → lock = some r').2
      ⟨mine, others⟩
    phases := locks ▸ (forall_update_iff s.phase fun _ phase => PhaseOk s.ops s.locked phase).2
      ⟨next, fun r' _ => inv.phases r'⟩
    outcomes
    apart := locks ▸ inv.apart
    pending := locks ▸ inv.pending }

theorem BatchInv.move (busy : s.phase r ≠ .idle) (next : PhaseOk s.ops s.locked phase) :
    BatchInv (s.setPhase r phase) :=
  inv.enter (fun _ => inv.lock r busy) (fun r' _ => inv.lock r') rfl inv.outcomes next

theorem BatchInv.orphan (busy : phase ≠ .idle → s.phase r ≠ .idle)
    (next : PhaseOk s.ops s.locked phase) : BatchInv ((s.orphan r).setPhase r phase) := by
  refine inv.enter (fun left => inv.lock r (busy left)) (fun r' _ => inv.lock r') ?_ ?_ next
  · rw [map_map]
    refine map_congr_left fun tx _ => ?_
    change ItemTx.item (if tx.runner = some r then _ else _) = tx.item
    split <;> rfl
  · intro tx mem
    obtain ⟨old, there, rfl⟩ := mem_map.1 mem
    have before := inv.outcomes old there
    split
    · exact before
    · exact before

theorem BatchInv.release_lock {r' : Nat} (other : r' ≠ r) (busy : s.phase r' ≠ .idle) :
    (s.release r).lock = some r' := by
  have held := inv.lock r' busy
  change (if s.lock = some r then none else s.lock) = some r'
  rw [if_neg (by rw [held]; simpa using other)]
  exact held

theorem BatchInv.leave (r : Nat) : BatchInv ((s.release r).setPhase r .idle) :=
  inv.enter (fun busy => absurd rfl busy) (fun _ other busy => inv.release_lock other busy) rfl
    inv.outcomes trivial

theorem BatchInv.tryLock (r : Nat) (free : s.lock = none) :
    BatchInv ({ s with lock := some r }.setPhase r .locked) := by
  refine inv.enter (fun _ => rfl) (fun r' _ busy => ?_) rfl inv.outcomes trivial
  cases free.symm.trans (inv.lock r' busy)

theorem BatchInv.loseLock (idle : s.phase r = .idle) : BatchInv (s.release r) := by
  refine { inv with lock := fun r' busy => inv.release_lock ?_ busy }
  rintro rfl
  exact busy idle

/-- The lock on an item that the runner has in its hand. -/
theorem BatchInv.record {job : Nat} {rest : List Nat} {outcome : ItemState} {s' : BatchState}
    (busy : s.phase r ≠ .idle)
    (settles : outcome ≠ .pending) (hand : Hand s.ops s.locked id (job :: rest))
    (step : s.record r id job outcome rest = some s') : BatchInv s' := by
  unfold BatchState.record at step
  split at step
  · cases step
  · next free =>
    cases step
    have locks : BatchState.locked ((s.begin ⟨id, job, outcome, some r⟩).setPhase r
        (.recorded id job outcome rest)) = s.locked ++ [(id, job)] := map_append
    have absent := (nodup_cons.1 hand.distinct).1
    exact {
      inv with
      lock := (forall_update_iff s.phase fun r' phase => phase ≠ .idle → s.lock = some r').2
        ⟨fun _ => inv.lock r busy, fun r' _ => inv.lock r'⟩
      phases := by
        rw [locks]
        refine (forall_update_iff s.phase fun _ phase => PhaseOk s.ops _ phase).2 ⟨⟨?_, absent⟩,
          fun r' other => ?_⟩
        · refine { hand.tail with free := fun j mem there => ?_ }
          rcases mem_append.1 there with old | new
          · exact hand.tail.free j mem old
          · obtain ⟨-, rfl⟩ := Prod.mk.inj (mem_singleton.1 new)
            exact absent mem
        · rw [inv.alone busy other]
          trivial
      outcomes := forall_mem_append.2 ⟨inv.outcomes, forall_mem_singleton.2 settles⟩
      apart := locks ▸ nodup_append.2 ⟨inv.apart, nodup_singleton _,
          fun item mem other single same =>
        free ((mem_singleton.1 single ▸ same) ▸ mem)⟩
      pending := locks ▸ forall_mem_append.2 ⟨inv.pending,
        forall_mem_singleton.2 (hand.pending job mem_cons_self)⟩ }

theorem BatchInv.rollback (tx : ItemTx) :
    BatchInv { s with transactions := s.transactions.erase tx } := by
  have fewer : (s.transactions.erase tx).map ItemTx.item <+ s.locked := erase_sublist.map _
  exact {
    inv with
    phases := fun r => (inv.phases r).mono (fun _ _ pending free => ⟨pending,
      fun mem => free (fewer.subset mem)⟩)
      (fun _ none => none) fun _ o there final => ⟨o, there, final⟩
    outcomes := fun tx' mem => inv.outcomes tx' (mem_of_mem_erase mem)
    apart := inv.apart.sublist fewer
    pending := fun item mem => inv.pending item (fewer.subset mem) }

end
theorem BatchInv.table (inv : BatchInv s) {new : Option Operation} {used : List Nat}
    (more : s.used ⊆ used)
    (known : new ≠ none → id ∈ used) (fits : ∀ o, new = some o → OperationOk s.applied id o)
    (pending : new.elim [] (·.pendingJobs) = pendingOf s.ops id)
    (active : ∀ o', new = some o' → o'.state.active = false → ∃ o, s.ops id = some o ∧
    o.state.active = false) :
    BatchInv { s with ops := Function.update s.ops id new, used := used } := by
  have same : pendingOf (Function.update s.ops id new) = pendingOf s.ops := funext
    ((forall_update_iff s.ops fun id' found => found.elim [] (·.pendingJobs) =
      pendingOf s.ops id').2 ⟨pending, fun _ _ => rfl⟩)
  exact {
    inv with
    phases := fun r => by
      refine (inv.phases r).mono (fun id' job first free => ⟨?_, free⟩) (fun id' none => ?_) ?_
      · rwa [same]
      · rwa [same]
      · refine (forall_update_iff s.ops fun id' found => ∀ o', found = some o' →
          o'.state.active = false → ∃ o, s.ops id' = some o ∧ o.state.active = false).2 ⟨active,
            fun id' _ o' there final => ⟨o', there, final⟩⟩
    ops := (forall_update_iff s.ops fun id' found => ∀ o, found = some o →
      OperationOk s.applied id' o).2 ⟨fits, fun id' _ => inv.ops id'⟩
    used := (forall_update_iff s.ops fun id' found => found ≠ none → id' ∈ used).2
      ⟨known, fun id' _ there => more (inv.used id' there)⟩
    known := fun entry mem => more (inv.known entry mem)
    pending := fun item mem => by
      change item.2 ∈ pendingOf (Function.update s.ops id new) item.1
      rw [same]
      exact inv.pending item mem }

theorem BatchInv.submit (inv : BatchInv s) (fresh : id ∉ s.used) :
    BatchInv { s with ops := Function.update s.ops id (some ⟨.pending, [], 0, 0, 0⟩), used :=
      s.used ++ [id] } := by
  have absent : s.ops id = none := by
    by_contra present
    exact fresh (inv.used id present)
  apply inv.table (subset_append_left _ _) fun _ => mem_append_right _ mem_cons_self
  · rintro o ⟨⟩
    refine ⟨nodup_nil, rfl, fun job => ?_, fun _ => rfl⟩
    exact count_eq_zero_of_not_mem fun mem => fresh (inv.known _ mem)
  · rw [pendingOf, absent]
    rfl
  · rintro o ⟨⟩ ⟨⟩

theorem BatchInv.requestCancellation (inv : BatchInv s) (id : Nat) :
    BatchInv (s.modifyOp id fun o =>
      if o.state = .pending ∨ o.state = .scanning ∨ o.state = .running then
        { o with state := .cancelling } else o) := by
  apply inv.table (List.Subset.refl _) fun there => inv.used id fun none =>
    there (Option.map_eq_none_iff.2 none)
  · intro o there
    obtain ⟨old, was, rfl⟩ := Option.map_eq_some_iff.1 there
    split
    · exact { inv.ops id old was with final := fun final => Bool.noConfusion final }
    · exact inv.ops id old was
  · unfold pendingOf
    cases s.ops id with
    | none => rfl
    | some o =>
      change Operation.pendingJobs (if _ then _ else _) = _
      split <;> rfl
  · intro o' there final
    obtain ⟨old, was, rfl⟩ := Option.map_eq_some_iff.1 there
    split at final
    · cases final
    · exact ⟨old, was, final⟩

theorem BatchInv.purge (inv : BatchInv s) {o : Operation} (there : s.ops id = some o)
    (final : o.state.active = false) :
    BatchInv { s with ops := Function.update s.ops id none } := by
  apply inv.table (List.Subset.refl _) (fun present => absurd rfl present) (by rintro o' ⟨⟩)
  · rw [pendingOf, there]
    exact ((inv.ops id o there).final final).symm
  · rintro o' ⟨⟩

end

end AwaQueue.Batch
