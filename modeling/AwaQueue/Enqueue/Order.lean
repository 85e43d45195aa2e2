import AwaQueue.Enqueue.Producers
import AwaQueue.Lane.Effects

/-! Producers over the lane protocol, and the order of the jobs that share an ordering key. -/

namespace AwaQueue

open List
open Function (update update_of_ne update_self)
open Library

structure OrderState where
  lanes : LaneState EnqueuedJob
  /-- The groups that a transaction's call has still to reserve, in any order. -/
  pending : TxId → List LaneGroup
  nextJobId : Nat
  /-- Every committed row in the order of the commits, and within a transaction in the order of its
  job ids. No statement reads it. -/
  enqueued : List (ReadyRow EnqueuedJob)

inductive OrderOp where
  | call (t : TxId) (call : ProducerCall)
  | lane (op : LaneOp EnqueuedJob)

namespace OrderState
variable (s : OrderState)

def accepts (t : TxId) : Bool :=
  (s.pending t).isEmpty && match s.lanes.tx t with
    | some (.writer w) => match w.call with
      | .reserving [] => true
      | _ => false
    | _ => false

def permits : LaneOp EnqueuedJob → Bool
  | .reserve t lane jobs => (s.pending t).contains (lane, jobs)
  | .currentQueueRing t => (s.pending t).isEmpty
  | .commit t => (s.pending t).isEmpty
  | _ => true

def pendingAfter : LaneOp EnqueuedJob → TxId → List LaneGroup
  | .reserve t lane jobs => update s.pending t ((s.pending t).erase (lane, jobs))
  | .abort t => update s.pending t []
  | _ => s.pending

def commits : LaneOp EnqueuedJob → List (ReadyRow EnqueuedJob)
  | .commit t => match s.lanes.tx t with
    | some (.writer w) => orderBy (fun row => row.job.jobId) w.rows
    | _ => []
  | _ => []

def claimed : List (ReadyRow EnqueuedJob) := s.lanes.history.flatMap ClaimedBatch.rows

end OrderState

def orderStep (config : EnqueueConfig) (slots : Nat) (op : OrderOp) (s : OrderState) :
    Option OrderState :=
  match op with
  | .call t call =>
    if s.accepts t then
      some { s with
        pending := update s.pending t (call.groups config s.nextJobId)
        nextJobId := s.nextJobId + call.size }
    else none
  | .lane op =>
    if s.permits op then
      (laneStep slots op s.lanes).map fun lanes =>
        { s with lanes, pending := s.pendingAfter op, enqueued := s.enqueued ++ s.commits op }
    else none

def OrderState.initial : OrderState := ⟨.initial, fun _ => [], 1, []⟩

def orderMachine (config : EnqueueConfig) (slots : Nat) : Machine OrderState OrderOp :=
  ⟨fun s => s = .initial, orderStep config slots⟩

variable {config : EnqueueConfig} {slots : Nat} {s s' : OrderState} {t : TxId}
    {e : LaneEntry EnqueuedJob}

structure EntriesOk (config : EnqueueConfig) (s : OrderState) (t : TxId)
    (entries : List (LaneEntry EnqueuedJob)) : Prop where
  lane : ∀ e ∈ entries, e.2.2.orderingKey.isSome = true → e.1 = config.keyLane e.2.2
  ids : ∀ e ∈ entries, e.2.2.jobId < s.nextJobId
  ordered : ∀ a ∈ entries, ∀ b ∈ entries, SameKey config a.2.2 b.2.2 → a.2.1 < b.2.1 →
    a.2.2.jobId < b.2.2.jobId
  pending : ∀ e ∈ entries, ∀ group ∈ s.pending t, ∀ job ∈ group.2, SameKey config e.2.2 job.2 →
    e.2.2.jobId < job.2.jobId
  after : ∀ row ∈ s.enqueued, ∀ e ∈ entries, row.lane = e.1 → row.laneSeq < e.2.1

structure OrderInv (config : EnqueueConfig) (slots : Nat) (s : OrderState) : Prop where
  lanes : LaneInv slots s.lanes
  pending : ∀ t, GroupsOk config 0 s.nextJobId (s.pending t)
  writers : ∀ t w, s.lanes.tx t = some (.writer w) → EntriesOk config s t w.entries
  ready : ∀ row ∈ s.lanes.tables.ready, row ∈ s.enqueued
  claimers : ∀ t c, s.lanes.tx t = some (.claimer c) → ∀ claim ∈ c.claimed, ∀ row ∈ claim.rows,
    row ∈ s.enqueued
  history : ∀ claim ∈ s.lanes.history, ∀ row ∈ claim.rows, row ∈ s.enqueued
  lane : ∀ row ∈ s.enqueued, row.job.orderingKey.isSome = true → row.lane = config.keyLane row.job
  below : ∀ row ∈ s.enqueued, row.laneSeq < s.lanes.nextSeq row.lane
  ordered : s.enqueued.Pairwise fun a b => SameKey config a.job b.job → a.laneSeq < b.laneSeq

theorem GroupsOk.mono {firstId size firstId' size' : Nat} {groups groups' : List LaneGroup}
    (ok : GroupsOk config firstId size groups) (low : firstId' ≤ firstId)
    (high : firstId + size ≤ firstId' + size') (sub : groups'.Sublist groups) :
    GroupsOk config firstId' size' groups' where
  ids group listed entry mem := by
    have bounds := ok.ids group (sub.subset listed) entry mem
    omega
  lane group listed := ok.lane group (sub.subset listed)
  ordered group listed := ok.ordered group (sub.subset listed)
  apart := ok.apart.sublist sub

theorem entries_reserved (w : Writer EnqueuedJob) :
    (w.entries.map fun e => (e.1, e.2.1)) = w.reserved := by
  have call : (w.call.entries.map fun e => (e.1, e.2.1)) = w.call.keys := by
    cases w.call with
    | reserving staged | routed staged ref | inserted rows ref => exact map_map
  rw [Writer.entries, Writer.reserved, map_append, call, map_map]
  rfl

theorem entry_held {w : Writer EnqueuedJob} (ok : WriterOk slots s.lanes t w)
    (mem : e ∈ w.entries) :
    ∃ lock, s.lanes.laneLock e.1 = some lock ∧ lock.holder = t ∧ e.2.1 < s.lanes.nextSeq e.1 := by
  have reserved : (e.1, e.2.1) ∈ w.reserved := entries_reserved w ▸ mem_map_of_mem
    (f := fun e => (e.1, e.2.1)) mem
  obtain ⟨lock, held, mine, -, high⟩ := ok.held _ reserved
  exact ⟨lock, held, mine, high⟩

theorem staged_entry {lane : Lane} {start : Nat} {jobs : List (Nat × EnqueuedJob)}
    (mem : e ∈ (stageRows lane start jobs).map StagedRow.entry) :
    ∃ i, ∃ h : i < jobs.length, e = (lane, start + i, jobs[i].2) := by
  obtain ⟨row, listed, rfl⟩ := mem_map.1 mem
  obtain ⟨entry, indexed, rfl⟩ := mem_map.1 listed
  obtain ⟨inside, same⟩ := List.getElem?_eq_some_iff.1 (List.mem_zipIdx_iff_getElem?.1 indexed)
  exact ⟨entry.2, inside, by rw [same]; rfl⟩

theorem claimed_increase {α : Type} {s : LaneState α} (claims : ClaimsOk s) :
    (s.history.flatMap ClaimedBatch.rows).Pairwise fun a b => a.lane = b.lane →
      a.laneSeq < b.laneSeq := by
  refine pairwise_flatMap.2 ⟨?_, ?_⟩
  · intro claim mem
    refine (pairwise_map.1 (claims.faithful claim mem).sorted).imp ?_
    intro a b less _
    exact less
  · refine claims.ordered.imp_of_mem ?_
    intro earlier later first second precedes low lowMember high highMember same
    refine precedes ?_ low lowMember high highMember
    rw [← (claims.faithful earlier first).lane low lowMember, same,
      (claims.faithful later second).lane high highMember]

theorem EntriesOk.empty : EntriesOk config s t [] where
  lane _ := (absurd · not_mem_nil)
  ids _ := (absurd · not_mem_nil)
  ordered _ := (absurd · not_mem_nil)
  pending _ := (absurd · not_mem_nil)
  after _ _ _ := (absurd · not_mem_nil)

theorem EntriesOk.mono {entries : List (LaneEntry EnqueuedJob)} (ok : EntriesOk config s t entries)
    (ids : s.nextJobId ≤ s'.nextJobId) (pending : ∀ group ∈ s'.pending t, group ∈ s.pending t ∨
    ∀ job ∈ group.2, s.nextJobId ≤ job.2.jobId) (after : ∀ row ∈ s'.enqueued, row ∈ s.enqueued ∨
      ∀ e ∈ entries, row.lane ≠ e.1) : EntriesOk config s' t entries where
  __ := ok
  ids e mem := (ok.ids e mem).trans_le ids
  pending e mem group listed job inside same := by
    rcases pending group listed with old | new
    · exact ok.pending e mem group old job inside same
    · exact (ok.ids e mem).trans_le (new job inside)
  after row committed e mem lane := by
    rcases after row committed with old | new
    · exact ok.after row old e mem lane
    · exact absurd lane (new e mem)

theorem OrderInv.call (inv : OrderInv config slots s) (off : config.queueStripeCount ≤ 1) (t : TxId)
    (call : ProducerCall) : OrderInv config slots { s with
      pending := update s.pending t (call.groups config s.nextJobId)
      nextJobId := s.nextJobId + call.size } := by
  have groups := call.groups_ok off s.nextJobId
  refine ⟨inv.lanes, ?_, ?_, inv.ready, inv.claimers, inv.history, inv.lane, inv.below, inv.ordered⟩
  · intro u
    by_cases mine : u = t
    · subst mine
      simp only [update_self]
      exact groups.mono (Nat.zero_le _) (by omega) (List.Sublist.refl _)
    · simp only [update_of_ne mine]
      exact (inv.pending u).mono le_rfl (by omega) (List.Sublist.refl _)
  · intro u w running
    refine (inv.writers u w running).mono (Nat.le_add_right _ _) ?_ fun row committed =>
      .inl committed
    intro group listed
    by_cases mine : u = t
    · subst mine
      simp only [update_self] at listed
      exact .inr fun job inside => (groups.ids group listed job inside).1
    · simp only [update_of_ne mine] at listed
      exact .inl listed

section
variable {op : LaneOp EnqueuedJob} {lanes : LaneState EnqueuedJob}

theorem pendingAfter_sublist (s : OrderState) (op : LaneOp EnqueuedJob) (u : TxId) :
    (s.pendingAfter op u).Sublist (s.pending u) := by
  cases op with
  | reserve t lane jobs =>
    by_cases mine : u = t
    · subst mine
      rw [OrderState.pendingAfter, update_self]
      exact erase_sublist
    · rw [OrderState.pendingAfter, update_of_ne mine]
  | abort t =>
    by_cases mine : u = t
    · subst mine
      rw [OrderState.pendingAfter, update_self]
      exact nil_sublist _
    · rw [OrderState.pendingAfter, update_of_ne mine]
  | _ => exact List.Sublist.refl _

theorem commits_inner (inner : op.inner = true) : s.commits op = [] := by
  cases op with
  | commit t => cases inner
  | _ => rfl

section
variable (inv : OrderInv config slots s) {w : Writer EnqueuedJob}
include inv

theorem OrderInv.hidden (valid : LaneInv slots lanes) (hidden : s.commits op = [])
    (nextSeq : ∀ lane, s.lanes.nextSeq lane ≤ lanes.nextSeq lane)
    (ready : ∀ row ∈ lanes.tables.ready, row ∈ s.enqueued)
    (writers : ∀ t w, lanes.tx t = some (.writer w) →
      EntriesOk config { s with lanes, pending := s.pendingAfter op } t w.entries)
    (claimers : ∀ t c, lanes.tx t = some (.claimer c) → ∀ claim ∈ c.claimed, ∀ row ∈ claim.rows,
      row ∈ s.enqueued)
    (history : ∀ claim ∈ lanes.history, ∀ row ∈ claim.rows, row ∈ s.enqueued) :
    OrderInv config slots { s with
      lanes, pending := s.pendingAfter op, enqueued := s.enqueued ++ s.commits op } := by
  rw [hidden, append_nil]
  exact ⟨valid, fun u => (inv.pending u).mono le_rfl le_rfl (pendingAfter_sublist s op u), writers,
    ready, claimers, history, inv.lane,
    fun row committed => (inv.below row committed).trans_le (nextSeq row.lane), inv.ordered⟩

theorem OrderInv.other (running : s.lanes.tx t = some (.writer w)) :
    EntriesOk config { s with lanes, pending := s.pendingAfter op } t w.entries :=
  (inv.writers t w running).mono le_rfl (fun _ listed =>
    .inl ((pendingAfter_sublist s op t).subset listed)) fun _ committed => .inl committed

theorem OrderInv.internal (valid : LaneInv slots lanes) (inner : op.inner = true)
    (nextSeq : lanes.nextSeq = s.lanes.nextSeq)
    (ready : ∀ row ∈ lanes.tables.ready, row ∈ s.lanes.tables.ready)
    (history : lanes.history = s.lanes.history) (tx : TxKept s.lanes lanes) :
    OrderInv config slots { s with
      lanes, pending := s.pendingAfter op, enqueued := s.enqueued ++ s.commits op } := by
  refine inv.hidden valid (commits_inner inner) (fun lane => (congrFun nextSeq lane).ge)
    (fun row mem => inv.ready row (ready row mem)) ?_ ?_ (history ▸ inv.history)
  · intro u w' running
    obtain none | ⟨w, before, same⟩ := tx.writers u w' running
    · rw [none]
      exact .empty
    · rw [same]
      exact inv.other before
  · intro u c' running claim mem row inside
    obtain ⟨c, before, old⟩ | fresh := tx.claimers u c' running claim mem
    · exact inv.claimers u c before claim old row inside
    · exact inv.ready row (fresh row inside)

theorem OrderInv.reserved (off : config.queueStripeCount ≤ 1) {lane : Lane}
    {jobs : List (Nat × EnqueuedJob)}
    (running : s.lanes.tx t = some (.writer w)) (listed : (lane, jobs) ∈ s.pending t) :
    EntriesOk config { s with lanes, pending := s.pendingAfter (.reserve t lane jobs) } t
      (w.entries ++ (stageRows lane (s.lanes.nextSeq lane) jobs).map StagedRow.entry) := by
  have ok := inv.writers t w running
  have groups := inv.pending t
  have held := inv.lanes.writers t w running
  refine ⟨?_, ?_, ?_, ?_, ?_⟩
  · intro e mem keyed
    rcases mem_append.1 mem with old | new
    · exact ok.lane e old keyed
    · obtain ⟨i, inside, rfl⟩ := staged_entry new
      exact groups.lane _ listed jobs[i] (getElem_mem inside) keyed
  · intro e mem
    rcases mem_append.1 mem with old | new
    · exact ok.ids e old
    · obtain ⟨i, inside, rfl⟩ := staged_entry new
      have bounds := groups.ids _ listed jobs[i] (getElem_mem inside)
      rw [Nat.zero_add] at bounds
      exact bounds.2
  · intro a memberA b memberB same less
    rcases mem_append.1 memberA with oldA | newA
    · rcases mem_append.1 memberB with oldB | newB
      · exact ok.ordered a oldA b oldB same less
      · obtain ⟨j, inside, rfl⟩ := staged_entry newB
        exact ok.pending a oldA _ listed jobs[j] (getElem_mem inside) same
    · obtain ⟨i, insideA, rfl⟩ := staged_entry newA
      rcases mem_append.1 memberB with oldB | newB
      · -- The numbers are taken in order, so an old entry of the lane cannot follow a new one.
        have laneA := groups.lane _ listed jobs[i] (getElem_mem insideA) same.2.2.2
        have laneB := ok.lane b oldB same.symm.2.2.2
        obtain ⟨-, -, -, high⟩ := entry_held held oldB
        rw [laneB, ← same.keyLane off, ← laneA] at high
        exact absurd less (Nat.not_lt.2 (high.le.trans (Nat.le_add_right _ _)))
      · obtain ⟨j, insideB, rfl⟩ := staged_entry newB
        have before : i < j := by
          change s.lanes.nextSeq lane + i < s.lanes.nextSeq lane + j at less
          omega
        exact pairwise_iff_getElem.1 (groups.ordered _ listed) i j insideA insideB before same
  · intro e mem group remaining job inside same
    simp only [OrderState.pendingAfter, update_self] at remaining
    rcases mem_append.1 mem with old | new
    · exact ok.pending e old group (mem_of_mem_erase remaining) job inside same
    · obtain ⟨i, present, rfl⟩ := staged_entry new
      have apart := ((perm_cons_erase listed).pairwise_iff
        fun apart a inG b inH same => apart b inH a inG same.symm).1 groups.apart
      exact absurd same ((pairwise_cons.1 apart).1 group remaining jobs[i] (getElem_mem present) job
        inside)
  · intro row committed e mem same
    rcases mem_append.1 mem with old | new
    · exact ok.after row committed e old same
    · obtain ⟨i, present, rfl⟩ := staged_entry new
      have below := inv.below row committed
      rw [same] at below
      exact below.trans_le (Nat.le_add_right _ _)

theorem OrderInv.committed (off : config.queueStripeCount ≤ 1)
    (running : s.lanes.tx t = some (.writer w)) (valid : LaneInv slots (commitWriter s.lanes t w)) :
    OrderInv config slots { s with
      lanes := commitWriter s.lanes t w
      pending := s.pendingAfter (.commit t)
      enqueued := s.enqueued ++ s.commits (.commit t) } := by
  have ok := inv.writers t w running
  have held := inv.lanes.writers t w running
  have visible : s.commits (.commit t) = orderBy (fun row => row.job.jobId) w.rows := by
    rw [OrderState.commits, running]
  have entry : ∀ row ∈ w.rows, row.entry ∈ w.entries := fun row mem =>
    mem_append_left _ (mem_map_of_mem mem)
  have rows : ∀ row ∈ s.commits (.commit t), row ∈ w.rows := by
    intro row mem
    rw [visible] at mem
    exact mem_orderBy.1 mem
  have others : ∀ u tx, (commitWriter s.lanes t w).tx u = some tx → s.lanes.tx u = some tx ∧
      u ≠ t := by
    intro u tx same
    have ended : update s.lanes.tx t none u = some tx := same
    by_cases mine : u = t
    · rw [mine, update_self] at ended
      cases ended
    · rw [update_of_ne mine] at ended
      exact ⟨ended, mine⟩
  refine ⟨valid, inv.pending, ?_, ?_, ?_, ?_, ?_, ?_, ?_⟩
  · intro u w' same
    obtain ⟨before, other⟩ := others u _ same
    refine (inv.writers u w' before).mono le_rfl (fun _ listed => .inl listed) ?_
    intro row mem
    refine (mem_append.1 mem).imp_right fun new e present lane => other ?_
    -- Both transactions would hold the lock of the lane.
    obtain ⟨lock, taken, mine, -⟩ := entry_held held (entry row (rows row new))
    obtain ⟨lock', taken', mine', -⟩ := entry_held (inv.lanes.writers u w' before) present
    rw [← lane] at taken'
    cases taken.symm.trans taken'
    exact mine'.symm.trans mine
  · intro row mem
    rcases mem_append.1 mem with old | new
    · exact mem_append_left _ (inv.ready row old)
    · refine mem_append_right _ ?_
      rw [visible]
      exact mem_orderBy.2 new
  · intro u c same claim mem row inside
    exact mem_append_left _ (inv.claimers u c (others u _ same).1 claim mem row inside)
  · intro claim mem row inside
    exact mem_append_left _ (inv.history claim mem row inside)
  · intro row mem keyed
    rcases mem_append.1 mem with old | new
    · exact inv.lane row old keyed
    · exact ok.lane _ (entry row (rows row new)) keyed
  · intro row mem
    rcases mem_append.1 mem with old | new
    · exact inv.below row old
    · obtain ⟨-, -, -, high⟩ := entry_held held (entry row (rows row new))
      exact high
  · refine pairwise_append.2 ⟨inv.ordered, ?_, ?_⟩
    · rw [visible]
      have distinct : ((orderBy (fun row => row.job.jobId) w.rows).map ReadyRow.slotKey).Nodup :=
        ((perm_insertionSort _ w.rows).map _).nodup_iff.2 (nodup_append.1 held.distinct).1
      refine ((orderBy_sorted _ w.rows).and (pairwise_map.1 distinct)).imp_of_mem ?_
      intro a b memberA memberB both same
      have inA := entry a (mem_orderBy.1 memberA)
      have inB := entry b (mem_orderBy.1 memberB)
      have lanes : a.lane = b.lane := calc
        a.lane = config.keyLane a.job := ok.lane _ inA same.2.2.2
        _ = config.keyLane b.job := same.keyLane off
        _ = b.lane := (ok.lane _ inB same.symm.2.2.2).symm
      have numbers : a.laneSeq ≠ b.laneSeq := fun equal => both.2 (Prod.ext lanes equal)
      rcases Nat.lt_or_gt_of_ne numbers with less | greater
      · exact less
      · exact absurd (ok.ordered _ inB _ inA same.symm greater) (Nat.not_lt.2 both.1)
    · intro old committed new mem same
      have fresh := entry new (rows new mem)
      apply ok.after old committed _ fresh
      rw [inv.lane old committed same.2.2.2, same.keyLane off]
      exact (ok.lane _ fresh same.symm.2.2.2).symm

theorem orderInv_step (off : config.queueStripeCount ≤ 1) {op : OrderOp}
    (step : orderStep config slots op s = some s') : OrderInv config slots s' := by
  cases op with
  | call t call =>
    obtain ⟨-, rfl⟩ := guard_eq_some step
    exact inv.call off t call
  | lane op =>
    obtain ⟨permitted, step⟩ := Option.ite_none_right_eq_some.1 step
    obtain ⟨lanes, taken, rfl⟩ := Option.map_eq_some_iff.1 step
    have valid := inv.lanes.step taken
    cases laneStep_effect taken with
    | internal inner nextSeq ready history tx =>
      exact inv.internal valid inner nextSeq ready history tx
    | reserved t lane jobs w staged asked running call nextSeq tables history tx =>
      subst asked
      have listed : (lane, jobs) ∈ s.pending t := contains_iff_mem.1 permitted
      refine inv.hidden valid rfl ?_ (tables ▸ inv.ready) ?_ ?_ (history ▸ inv.history)
      · intro other
        rw [nextSeq]
        by_cases same : other = lane
        · rw [same, update_self]
          exact Nat.le_add_right _ _
        · rw [update_of_ne same]
      · intro u w' after
        rw [tx] at after
        by_cases mine : u = t
        · rw [mine, update_self] at after
          cases after
          have entries :
              Writer.entries { w with call := .reserving (staged ++
              stageRows lane (s.lanes.nextSeq lane) jobs) } =
              w.entries ++ (stageRows lane (s.lanes.nextSeq lane) jobs).map StagedRow.entry := by
            rw [Writer.entries, Writer.entries, call, InsertCall.entries, InsertCall.entries,
              map_append, append_assoc]
          rw [mine, entries]
          exact inv.reserved off running listed
        · rw [update_of_ne mine] at after
          exact inv.other after
      · intro u c after
        rw [tx] at after
        by_cases mine : u = t
        · rw [mine, update_self] at after
          cases after
        · rw [update_of_ne mine] at after
          exact inv.claimers u c after
    | writerCommitted t w asked running result =>
      subst asked result
      exact inv.committed off running valid
    | claimerCommitted t c asked running result =>
      subst asked result
      have kept : TxKept s.lanes (commitClaimer s.lanes t c) := release_kept rfl
      have hidden : s.commits (.commit t) = [] := by rw [OrderState.commits, running]
      refine inv.hidden valid hidden (fun _ => le_rfl) inv.ready ?_ ?_ ?_
      · intro u w' after
        obtain none | ⟨w, before, same⟩ := kept.writers u w' after
        · rw [none]
          exact .empty
        · rw [same]
          exact inv.other before
      · intro u c' after claim mem row inside
        obtain ⟨c, before, old⟩ | fresh := kept.claimers u c' after claim mem
        · exact inv.claimers u c before claim old row inside
        · exact inv.ready row (fresh row inside)
      · intro claim mem
        rcases mem_append.1 mem with old | new
        · exact inv.history claim old
        · exact inv.claimers t c running claim new

end

theorem orderInv_reachable (off : config.queueStripeCount ≤ 1)
    (reached : (orderMachine config slots).Reachable Machine.Always s) :
    OrderInv config slots s := by
  apply reached.invariant
  · rintro s rfl
    refine ⟨LaneInv.initial, ?_, ?_, ?_, ?_, ?_, ?_, ?_, .nil⟩
    · intro t
      exact ⟨forall_mem_nil _, forall_mem_nil _, forall_mem_nil _, .nil⟩
    · rintro t w ⟨⟩
    · exact forall_mem_nil _
    · rintro t c ⟨⟩
    · exact forall_mem_nil _
    · exact forall_mem_nil _
    · exact forall_mem_nil _
  · intro op s t _ inv _ step
    exact orderInv_step inv off step

end

/-- Without stripes the jobs of one key are in one lane, numbered in the order of their commits, and
claimed in this order: none overtakes another that has not been claimed or removed. -/
theorem ordering_key_order (off : config.queueStripeCount ≤ 1)
    (reached : (orderMachine config slots).Reachable Machine.Always s) :
    (s.enqueued.Pairwise fun a b => SameKey config a.job b.job → a.lane = b.lane ∧
    a.laneSeq < b.laneSeq) ∧ (∀ row ∈ s.claimed, row ∈ s.enqueued) ∧
    (s.claimed.Pairwise fun a b => SameKey config a.job b.job → a.laneSeq < b.laneSeq) ∧
    ∀ row ∈ s.claimed, ∀ old ∈ s.lanes.tables.ready, SameKey config old.job row.job →
      old.laneSeq < row.laneSeq → s.lanes.tables.Spent old := by
  have inv := orderInv_reachable off reached
  have lanes : ∀ a ∈ s.enqueued, ∀ b ∈ s.enqueued, SameKey config a.job b.job →
      a.lane = b.lane := by
    intro a inA b inB same
    rw [inv.lane a inA same.2.2.2, inv.lane b inB same.symm.2.2.2, same.keyLane off]
  have enqueued : ∀ row ∈ s.claimed, row ∈ s.enqueued := by
    intro row member
    obtain ⟨claim, committed, inside⟩ := List.mem_flatMap.1 member
    exact inv.history claim committed row inside
  refine ⟨?_, enqueued, ?_, ?_⟩
  · refine inv.ordered.imp_of_mem ?_
    intro a b inA inB ordered same
    exact ⟨lanes a inA b inB same, ordered same⟩
  · refine (claimed_increase inv.lanes.claims).imp_of_mem ?_
    intro a b inA inB increase same
    exact increase (lanes a (enqueued a inA) b (enqueued b inB) same)
  · intro row member old present same less
    obtain ⟨claim, committed, inside⟩ := List.mem_flatMap.1 member
    refine inv.lanes.claims.closed claim committed row inside old present ?_
      (Nat.lt_succ_of_lt less)
    exact lanes old (inv.ready old present) row (enqueued row member) same

def enqueueOps (config : EnqueueConfig) (t : TxId) (firstId : Nat) (call : ProducerCall) :
    List OrderOp :=
  [.lane (.beginWriter t), .call t call] ++ (call.groups config firstId).map
    (fun group => .lane (.reserve t group.1 group.2)) ++ [.lane (.currentQueueRing t),
      .lane (.insertReadyRows t), .lane (.insertReadySegments t), .lane (.commit t)]

def orderJob (customer : UInt8) : InsertParams := ⟨"orders", 2, none, some [customer], 0, false⟩

def unstriped : EnqueueConfig := ⟨1, fun _ => 0, fun _ => 4⟩

/-- Two customers in one batch, one of them again over SQL and over `COPY`; then a claim of two jobs
from this customer's lane. -/
def orderOps : List OrderOp :=
  enqueueOps unstriped 0 1 (.batch (fun _ _ => 0) [orderJob 1, orderJob 2]) ++
    enqueueOps unstriped 1 3 (.compat 7 (orderJob 1)) ++
    enqueueOps unstriped 2 4 (.copy (fun _ _ => 0) [orderJob 1]) ++
    [.lane (.beginClaim 3 [queueNumber "orders"]), .lane (.probe 3 2),
      .lane (.route 3 (unstriped.keyLane ⟨1, "orders", 2, some [1]⟩)), .lane (.lockClaimHead 3)] ++
    List.replicate 5 (.lane (.claimStatement 3)) ++ [.lane (.commit 3)]

theorem ordering_key_order_customers :
    ∃ s : OrderState, (orderMachine unstriped 4).Reachable Machine.Always s ∧
    (s.enqueued.map fun row => row.job.jobId) = [1, 2, 3, 4] ∧
    (s.claimed.map fun row => row.job.jobId) = [1, 3] ∧
    (s.enqueued.Pairwise fun a b => SameKey unstriped a.job b.job → a.lane = b.lane ∧
    a.laneSeq < b.laneSeq) ∧
    s.claimed.Pairwise fun a b => SameKey unstriped a.job b.job → a.laneSeq < b.laneSeq := by
  obtain ⟨s, reached, hit⟩ := Machine.reachable_of_run (orderMachine unstriped 4)
    Machine.Always orderOps (fun s => (s.enqueued.map fun row => row.job.jobId) = [1, 2, 3, 4] &&
      (s.claimed.map fun row => row.job.jobId) = [1, 3])
    rfl (by decide)
  obtain ⟨enqueued, claimed⟩ := Bool.and_eq_true_iff.1 hit
  have order := ordering_key_order le_rfl reached
  exact ⟨s, reached, of_decide_eq_true enqueued, of_decide_eq_true claimed, order.1, order.2.2.1⟩

def striped : EnqueueConfig := ⟨2, fun _ => 0, fun _ => 1⟩

/-- With two stripes, two jobs of one batch with the same key go to different lanes. -/
theorem stripes_split_key : ∃ s : OrderState, (orderMachine striped 4).Reachable Machine.Always s ∧
    ∃ a ∈ s.enqueued, ∃ b ∈ s.enqueued, SameKey striped a.job b.job ∧ a.lane ≠ b.lane := by
  obtain ⟨s, reached, hit⟩ := Machine.reachable_of_run (orderMachine striped 4) Machine.Always
    (enqueueOps striped 0 1 (.batch (fun _ _ => 0) [orderJob 1, orderJob 1]))
    (fun s => s.enqueued.any fun a => s.enqueued.any fun b => SameKey striped a.job b.job &&
      a.lane ≠ b.lane) rfl (by decide)
  obtain ⟨a, inA, found⟩ := List.any_eq_true.1 hit
  obtain ⟨b, inB, split⟩ := List.any_eq_true.1 found
  obtain ⟨same, apart⟩ := Bool.and_eq_true_iff.1 split
  exact ⟨s, reached, a, inA, b, inB, of_decide_eq_true same, of_decide_eq_true apart⟩

end AwaQueue
