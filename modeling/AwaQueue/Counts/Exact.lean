import AwaQueue.Counts.Standing
import AwaQueue.Counts.Lanes

/-! The counts in every reachable state: what `available` reports too much is what trails. -/

namespace AwaQueue.Counts

open List
open Function (update update_eq_self update_of_ne update_self)
open Library

structure CountInv (s : CountState) : Prop where
  jobs : ∀ j, ∃ n, JobOk (s.rows j) (s.stage j) n
  late : ∀ j, s.jobs ≤ j → s.rows j = {}
  lanes : LanesOk s.rows s.cursor s.nextSeq

section
variable {s t : CountState} {j a : Nat} {r : JobRows} {stage : Stage} {lane : Lane}
    {done deferred dlq : List Nat}

theorem CountInv.early (inv : CountInv s) (held : s.rows j ≠ {}) : j < s.jobs := by
  by_contra none
  exact held (inv.late j (Nat.not_lt.1 none))

theorem CountInv.setJob (inv : CountInv s) (late : s.jobs ≤ j → r = {}) (ok : ∃ n, JobOk r stage n)
    (lanes : LanesOk (update s.rows j r) s.cursor s.nextSeq) : CountInv (s.setJob j r stage) where
  jobs i := by
    change ∃ n, JobOk (update s.rows j r i) (update s.stage j stage i) n
    by_cases same : i = j
    · subst same
      rw [update_self, update_self]
      exact ok
    · rw [update_of_ne same, update_of_ne same]
      exact inv.jobs i
  late i above := by
    change update s.rows j r i = {}
    by_cases same : i = j
    · subst same
      rw [update_self]
      exact late above
    · rw [update_of_ne same]
      exact inv.late i above
  lanes := lanes

theorem CountInv.created (inv : CountInv s) : CountInv { s with jobs := s.jobs + 1 } :=
  ⟨inv.jobs, fun j above => inv.late j (Nat.le_of_succ_le above), inv.lanes⟩

theorem CountInv.enqueueJob (inv : CountInv s) (early : j < s.jobs)
    (lanes : LanesOk (update s.rows j r) s.cursor s.nextSeq) (rows : r.unspent = [])
    (claims : r.unclosed = [])
    (leases : r.leases = []) (evidence : r.evidence = []) (closures : ∀ b ∈ r.closures, b ≤ a) :
    CountInv (s.enqueueJob j r lane a) where
  jobs i := by
    change ∃ n, JobOk (update s.rows j (r.insertReady (s.newKey lane) a) i)
      (update s.stage j (.waiting ⟨s.newKey lane, a⟩) i) n
    by_cases same : i = j
    · subst same
      rw [update_self, update_self]
      have fresh : s.newKey lane ∉ r.tombstones ∧ s.newKey lane ∉ r.attempts := by
        constructor
        · intro mem
          have below := lanes.tombstones i (s.newKey lane) (by rwa [update_self])
          exact lt_irrefl _ below
        · intro mem
          have below := lanes.attempts i (s.newKey lane) (by rwa [update_self])
          exact lt_irrefl _ below
      refine ⟨a, .waiting _ rfl ?_ claims leases evidence, closures⟩
      rw [unspent_insertReady fresh, rows, nil_append]
    · rw [update_of_ne same, update_of_ne same]
      exact inv.jobs i
  late i above := by
    have apart : i ≠ j := by
      rintro rfl
      exact absurd early (Nat.not_lt.2 above)
    change update s.rows j (r.insertReady (s.newKey lane) a) i = {}
    rw [update_of_ne apart]
    exact inv.late i above
  lanes := by
    have inserted : LanesOk (update (update s.rows j r) j
        ((update s.rows j r j).insertReady (s.newKey lane) a)) s.cursor
          (update s.nextSeq lane (s.nextSeq lane + 1)) :=
      lanes.insertReady s.ring a
    rw [update_self, Function.update_idem] at inserted
    exact inserted

theorem spentBelow_iff (inv : CountInv s) {bound : Nat} :
    s.spentBelow lane bound = true ↔ SpentBelow s.rows lane bound := by
  unfold CountState.spentBelow SpentBelow
  rw [all_eq_true]
  constructor
  · intro each i row mem here below
    have early : i < s.jobs := inv.early (by rintro none; rw [none] at mem; cases mem)
    have one := all_eq_true.1 (each i (mem_range.2 early)) row mem
    simpa [here, below] using one
  · intro below i _
    rw [all_eq_true]
    intro row mem
    by_cases within : row.key.lane = lane ∧ row.key.laneSeq < bound
    · rw [below i row mem within.1 within.2]
      rfl
    · simp only [Bool.or_eq_true, Bool.not_eq_true', Bool.and_eq_false_iff, decide_eq_false_iff_not]
      tauto

theorem CountInv.ended (inv : CountInv s) (opened : (s.rows j).isOpen a = true)
    (evidence : done ++ deferred ++ dlq = [] ∨ done ++ deferred ++ dlq = [a]) :
    CountInv (s.setJob j { (s.rows j).endAttempt a with done, deferred, dlq } .away) := by
  obtain ⟨n, ok⟩ := inv.jobs j
  obtain ⟨rfl, rows, claims, leases, -⟩ := ok.of_isOpen opened
  refine inv.setJob (fun late => ?_) ⟨a, .away rows (unclosed_endAttempt claims) ?_ ?_ ?_,
    closures_endAttempt ok.closures⟩ (inv.lanes.keep rfl rfl rfl)
  · rw [inv.late j late] at opened
    cases opened
  · exact filter_eq_nil_iff.2 fun lease mem => by simpa using leases lease mem
  · intro e mem
    change e ∈ done ++ deferred ++ dlq at mem
    rcases evidence with none | one
    · rw [none] at mem
      cases mem
    · rw [one] at mem
      exact mem_singleton.1 mem
  · change (done ++ deferred ++ dlq).length ≤ 1
    rcases evidence with none | one
    · rw [none]
      exact Nat.zero_le 1
    · rw [one]
      exact le_rfl

theorem CountInv.finish (inv : CountInv s) (opened : (s.rows j).isOpen a = true)
    (outcome : Outcome) : CountInv (s.finish j a outcome) := by
  obtain ⟨n, ok⟩ := inv.jobs j
  obtain ⟨rfl, rows, claims, leases, evidence⟩ := ok.of_isOpen opened
  obtain ⟨rest, dlq⟩ := append_eq_nil_iff.1 evidence
  obtain ⟨done, deferred⟩ := append_eq_nil_iff.1 rest
  cases outcome with
  | compacted => exact inv.ended opened (.inl evidence)
  | done | deferred | dlq =>
    exact inv.ended opened (.inr (by simp [JobRows.endAttempt, done, deferred, dlq]))
  | ready lane =>
    have early : j < s.jobs := inv.early (by rintro none; rw [none] at opened; cases opened)
    refine inv.enqueueJob early (inv.lanes.keep rfl rfl rfl) rows
      (unclosed_endAttempt claims) ?_ evidence (closures_endAttempt ok.closures)
    exact filter_eq_nil_iff.2 fun lease mem => by simpa using leases lease mem

theorem CountInv.rewrite (inv : CountInv s) (held : a ∈ (s.rows j).evidence)
    (evidence : done ++ deferred ++ dlq = [a]) :
    CountInv (s.setJob j { s.rows j with done, deferred, dlq } .away) := by
  obtain ⟨n, ok⟩ := inv.jobs j
  obtain ⟨rfl, rows, claims, leases, -⟩ := ok.of_evidence held
  refine inv.setJob (fun late => ?_) ⟨a, .away rows claims leases ?_ ?_, ok.closures⟩
    (inv.lanes.keep rfl rfl rfl)
  · rw [inv.late j late] at held
    cases held
  · intro e mem
    change e ∈ done ++ deferred ++ dlq at mem
    rw [evidence] at mem
    exact mem_singleton.1 mem
  · change (done ++ deferred ++ dlq).length ≤ 1
    rw [evidence]
    exact le_rfl

theorem CountInv.requeue (inv : CountInv s) (held : a ∈ (s.rows j).evidence)
    (evidence : done ++ deferred ++ dlq = []) :
    CountInv (s.enqueueJob j { s.rows j with done, deferred, dlq } lane a) := by
  obtain ⟨n, ok⟩ := inv.jobs j
  obtain ⟨rfl, rows, claims, leases, -⟩ := ok.of_evidence held
  have early : j < s.jobs := inv.early (by rintro none; rw [none] at held; cases held)
  exact inv.enqueueJob early (inv.lanes.keep rfl rfl rfl) rows claims leases evidence ok.closures

theorem parts_of_single {xs ys zs : List Nat} (whole : xs ++ ys ++ zs = [a]) :
    (a ∈ xs → xs = [a] ∧ ys = [] ∧ zs = []) ∧ (a ∈ ys → xs = [] ∧ ys = [a] ∧ zs = []) ∧
      (a ∈ zs → xs = [] ∧ ys = [] ∧ zs = [a]) := by
  have lengths := congrArg length whole
  rw [length_append, length_append, length_singleton] at lengths
  refine ⟨fun mem => ?_, fun mem => ?_, fun mem => ?_⟩
  · have some := length_pos_of_mem mem
    have others : ys = [] ∧ zs = [] := ⟨length_eq_zero_iff.1 (by omega),
      length_eq_zero_iff.1 (by omega)⟩
    rw [others.1, others.2, append_nil, append_nil] at whole
    exact ⟨whole, others⟩
  · have some := length_pos_of_mem mem
    have others : xs = [] ∧ zs = [] := ⟨length_eq_zero_iff.1 (by omega),
      length_eq_zero_iff.1 (by omega)⟩
    rw [others.1, others.2, append_nil, nil_append] at whole
    exact ⟨others.1, whole, others.2⟩
  · have some := length_pos_of_mem mem
    have others : xs = [] ∧ ys = [] := ⟨length_eq_zero_iff.1 (by omega),
      length_eq_zero_iff.1 (by omega)⟩
    rw [others.1, others.2, nil_append, nil_append] at whole
    exact ⟨others.1, others.2, whole⟩

theorem deleteRest_keeps (r : JobRows) (joined : Bool) : (r.deleteRest joined).ready = r.ready ∧
    (r.deleteRest joined).tombstones = r.tombstones ∧ (r.deleteRest joined).attempts = r.attempts ∧
    (r.deleteRest joined).claims = r.claims ∧ (r.deleteRest joined).closures = r.closures := by
  unfold JobRows.deleteRest
  split
  · exact ⟨rfl, rfl, rfl, rfl, rfl⟩
  · split
    · exact ⟨rfl, rfl, rfl, rfl, rfl⟩
    · split
      · exact ⟨rfl, rfl, rfl, rfl, rfl⟩
      · exact ⟨rfl, rfl, rfl, rfl, rfl⟩

section
variable (inv : CountInv s) {row : WaitingRow}
include inv

theorem CountInv.of_done (mem : a ∈ (s.rows j).done) :
    a ∈ (s.rows j).evidence ∧ (s.rows j).done = [a] ∧ (s.rows j).deferred = [] ∧
      (s.rows j).dlq = [] := by
  have held : a ∈ (s.rows j).evidence := mem_append_left _ (mem_append_left _ mem)
  obtain ⟨n, ok⟩ := inv.jobs j
  exact ⟨held, (parts_of_single (ok.of_evidence held).2.2.2.2).1 mem⟩

theorem CountInv.of_deferred (mem : a ∈ (s.rows j).deferred) :
    a ∈ (s.rows j).evidence ∧ (s.rows j).done = [] ∧ (s.rows j).deferred = [a] ∧
      (s.rows j).dlq = [] := by
  have held : a ∈ (s.rows j).evidence := mem_append_left _ (mem_append_right _ mem)
  obtain ⟨n, ok⟩ := inv.jobs j
  exact ⟨held, (parts_of_single (ok.of_evidence held).2.2.2.2).2.1 mem⟩

theorem CountInv.of_dlq (mem : a ∈ (s.rows j).dlq) :
    a ∈ (s.rows j).evidence ∧ (s.rows j).done = [] ∧ (s.rows j).deferred = [] ∧
      (s.rows j).dlq = [a] := by
  have held : a ∈ (s.rows j).evidence := mem_append_right _ mem
  obtain ⟨n, ok⟩ := inv.jobs j
  exact ⟨held, (parts_of_single (ok.of_evidence held).2.2.2.2).2.2 mem⟩

theorem CountInv.claim (there : row ∈ (s.rows j).ready) (free : (s.rows j).spent row = false)
    (before : SpentBelow s.rows row.key.lane row.key.laneSeq) (receipts : Bool) :
    CountInv (s.setJob j ((s.rows j).claim row receipts)
      (.running (row.runLease + 1) row.queue)) := by
  obtain ⟨n, ok⟩ := inv.jobs j
  have mem : row ∈ (s.rows j).unspent := mem_filter.2 ⟨there, by rw [free]; rfl⟩
  obtain ⟨lease, only, claims, leases, evidence, -⟩ := ok.of_unspent mem
  have bounded : ∀ b ∈ (s.rows j).closures, b ≤ row.runLease := lease ▸ ok.closures
  refine inv.setJob (fun late => ?_) ⟨row.runLease + 1, ?_, ?_⟩
    (inv.lanes.claim receipts there before)
  · rw [inv.late j late] at there
    cases there
  · have rows := unspent_claim only receipts
    cases receipts with
    | true =>
      refine .received row.queue rows ?_ leases evidence
      change ((s.rows j).claims ++ [(⟨row.runLease + 1, row.queue⟩ : Claim)]).filter
        (fun c => c.runLease ∉ (s.rows j).closures) = _
      have fresh : row.runLease + 1 ∉ (s.rows j).closures := fun old =>
        absurd (bounded _ old) (Nat.not_succ_le_self _)
      have none : ((s.rows j).claims.filter fun c => c.runLease ∉ (s.rows j).closures) = [] :=
        claims
      rw [filter_append, none]
      simp [fresh]
    | false =>
      refine .leased row.queue rows (fun c inside => ?_) ?_ evidence
      · have old : c ∈ (s.rows j).unclosed := inside
        rw [claims] at old
        cases old
      · change (s.rows j).leases ++ [_] = _
        rw [leases]
        rfl
  · have same : ((s.rows j).claim row receipts).closures = (s.rows j).closures := by
      cases receipts <;> rfl
    rw [same]
    exact fun b mem => (bounded b mem).trans (Nat.le_succ _)

theorem CountInv.materialize {c : Claim} (mem : c ∈ (s.rows j).openClaims) :
    CountInv (s.setJob j ((s.rows j).materialize c) (.running c.runLease c.queue)) := by
  obtain ⟨n, ok⟩ := inv.jobs j
  obtain ⟨same, rows, claims, leases, evidence⟩ := ok.of_isOpen (isOpen_of_claim mem)
  have none : (s.rows j).leases = [] := by
    rw [eq_nil_iff_forall_not_mem]
    intro lease there
    have free := (mem_filter.1 mem).2
    simp only [Bool.and_eq_true, decide_eq_true_eq] at free
    exact free.1.1.1.2 (mem_map.2 ⟨lease, there, (leases lease there).trans same.symm⟩)
  refine inv.setJob (fun late => ?_) ⟨n, ?_, ok.closures⟩ (inv.lanes.keep rfl rfl rfl)
  · rw [inv.late j late] at mem
    cases mem
  · rw [same]
    refine .leased c.queue rows claims ?_ evidence
    change (s.rows j).leases ++ [_] = _
    rw [none, same]
    rfl

theorem CountInv.setWaiting {lease : LeaseRow} (mem : lease ∈ (s.rows j).leases) (waiting : Bool) :
    CountInv (s.setJob j ((s.rows j).setWaiting lease.runLease waiting)
      (if waiting then .parked lease.runLease lease.queue
        else .running lease.runLease lease.queue)) := by
  obtain ⟨n, ok⟩ := inv.jobs j
  obtain ⟨same, rows, claims, -, evidence⟩ := ok.of_isOpen (isOpen_of_lease mem)
  have only := ok.of_lease mem
  refine inv.setJob (fun late => ?_) ⟨n, ?_, ok.closures⟩ (inv.lanes.keep rfl rfl rfl)
  · rw [inv.late j late] at mem
    cases mem
  · have leases : ((s.rows j).setWaiting lease.runLease waiting).leases =
        [⟨n, lease.queue, waiting⟩] := by
      change (s.rows j).leases.map _ = _
      rw [only, ← same]
      simp
    rw [same] at leases ⊢
    cases waiting with
    | true => exact .parked lease.queue rows claims leases evidence
    | false => exact .leased lease.queue rows claims leases evidence

theorem CountInv.of_live (there : row ∈ (s.rows j).ready)
    (live : (s.rows j).live s.cursor row = true) (unclaimed : row.key ∉ (s.rows j).attempts) :
    ((s.rows j).tombstone row).unspent = [] ∧ (s.rows j).unclosed = [] ∧ (s.rows j).leases = [] ∧
      (s.rows j).evidence = [] ∧ (∀ b ∈ (s.rows j).closures, b ≤ row.runLease) ∧ j < s.jobs := by
  obtain ⟨n, ok⟩ := inv.jobs j
  have untombed := of_decide_eq_true (Bool.and_eq_true_iff.1 live).2
  obtain ⟨lease, only, claims, leases, evidence, -⟩ :=
    ok.of_unspent (mem_unspent.2 ⟨there, untombed, unclaimed⟩)
  refine ⟨unspent_tombstone only, claims, leases, evidence, lease ▸ ok.closures, inv.early ?_⟩
  rintro none
  rw [none] at there
  cases there

theorem CountInv.removed (late : s.jobs ≤ j → r = {})
    (lanes : LanesOk (update s.rows j r) s.cursor s.nextSeq) (rows : r.unspent = [])
    (claims : r.unclosed = []) (leases : r.leases = []) (evidence : r.evidence = []) {n : Nat}
    (closures : ∀ b ∈ r.closures, b ≤ n) : CountInv (s.setJob j r .away) := by
  refine inv.setJob late ⟨n, .away rows claims leases (fun e mem => ?_) ?_, closures⟩ lanes
  · rw [evidence] at mem
    cases mem
  · rw [evidence]
    exact Nat.zero_le 1

theorem CountInv.deleteRest_of_evidence (joined : Bool) (held : a ∈ (s.rows j).evidence) :
    ((s.rows j).deleteRest joined).leases = [] ∧ ((s.rows j).deleteRest joined).evidence = [] := by
  obtain ⟨n, ok⟩ := inv.jobs j
  obtain ⟨-, -, -, leases, -⟩ := ok.of_evidence held
  rcases mem_append.1 held with rest | dead
  · rcases mem_append.1 rest with ended | waiting
    · obtain ⟨-, done, deferred, dlq⟩ := inv.of_done ended
      simp [JobRows.deleteRest, JobRows.evidence, leases, done, deferred, dlq]
    · obtain ⟨-, done, deferred, dlq⟩ := inv.of_deferred waiting
      simp [JobRows.deleteRest, JobRows.evidence, leases, done, deferred, dlq]
  · obtain ⟨-, done, deferred, -⟩ := inv.of_dlq dead
    simp [JobRows.deleteRest, JobRows.evidence, leases, done, deferred]

theorem CountInv.deleteRest_of_lease (joined : Bool) {lease : LeaseRow}
    (mem : lease ∈ (s.rows j).leases) :
    ((s.rows j).deleteRest joined).leases = [] ∧ ((s.rows j).deleteRest joined).evidence = [] := by
  obtain ⟨n, ok⟩ := inv.jobs j
  obtain ⟨-, -, -, -, evidence⟩ := ok.of_isOpen (isOpen_of_lease mem)
  obtain ⟨rest, dlq⟩ := append_eq_nil_iff.1 evidence
  obtain ⟨done, deferred⟩ := append_eq_nil_iff.1 rest
  cases joined with
  | true => simp [JobRows.deleteRest, JobRows.evidence, ne_nil_of_mem mem, done, deferred, dlq]
  | false => simp [JobRows.deleteRest, JobRows.evidence, done, deferred]

theorem CountInv.deleteRest (joined : Bool)
    (closed : ∀ lease ∈ (s.rows j).leases, ∀ c ∈ (s.rows j).claims, c.runLease = lease.runLease →
    c.runLease ∈ (s.rows j).closures) (some : ¬((s.rows j).deferred = [] ∧ (s.rows j).leases = [] ∧
    (s.rows j).done = [] ∧ (s.rows j).dlq = [])) :
    CountInv (s.setJob j ((s.rows j).deleteRest joined) .away) := by
  obtain ⟨n, ok⟩ := inv.jobs j
  obtain ⟨ready, tombstones, attempts, claims, closures⟩ := deleteRest_keeps (s.rows j) joined
  have place : (s.rows j).unspent = [] ∧ (s.rows j).unclosed = [] ∧
      ((s.rows j).deleteRest joined).leases = [] ∧
      ((s.rows j).deleteRest joined).evidence = [] := by
    rcases found_of_some some with ⟨a, held⟩ | ⟨lease, mem⟩
    · obtain ⟨-, rows, closed, -, -⟩ := ok.of_evidence held
      exact ⟨rows, closed, inv.deleteRest_of_evidence joined held⟩
    · obtain ⟨same, rows, own, -, -⟩ := ok.of_isOpen (isOpen_of_lease mem)
      refine ⟨rows, ?_, inv.deleteRest_of_lease joined mem⟩
      rw [eq_nil_iff_forall_not_mem]
      intro c inside
      obtain ⟨there, outside⟩ := mem_unclosed.1 inside
      exact outside (closed lease mem c there ((own c inside).trans same.symm))
  refine inv.removed (fun late => ?_) (inv.lanes.keep ready tombstones attempts) ?_ ?_ place.2.2.1
    place.2.2.2 (closures ▸ ok.closures)
  · rw [inv.late j late] at some
    exact absurd ⟨rfl, rfl, rfl, rfl⟩ some
  · rw [JobRows.unspent, ready, show ((s.rows j).deleteRest joined).spent =
      (s.rows j).spent from ?_]
    · exact place.1
    · funext row
      rw [JobRows.spent, tombstones, attempts, JobRows.spent]
  · rw [JobRows.unclosed, claims, closures]
    exact place.2.1

end

theorem deleteRest_nothing (joined : Bool) (none : r.deferred = [] ∧ r.leases = [] ∧ r.done = [] ∧
    r.dlq = []) : r.deleteRest joined = r := by
  cases r
  dsimp only at none
  obtain ⟨rfl, rfl, rfl, rfl⟩ := none
  rfl

theorem CountInv.unchanged (inv : CountInv s) : CountInv (s.setJob j (s.rows j) (s.stage j)) := by
  have rows : s.setJob j (s.rows j) (s.stage j) = s := by
    rw [CountState.setJob, update_eq_self, update_eq_self]
  rwa [rows]

theorem CountInv.delete (inv : CountInv s) {row : Option WaitingRow} (joined : Bool)
    (found : ∀ row' ∈ row, row' ∈ (s.rows j).ready ∧ (s.rows j).live s.cursor row' = true)
    (meets : KeepsCounts (.delete j row joined) s) : CountInv (s.deleteJob j row joined) := by
  cases row with
  | some row =>
    obtain ⟨there, live⟩ := found row rfl
    obtain ⟨rows, claims, leases, evidence, closures, early⟩ :=
      inv.of_live there live (of_decide_eq_true meets)
    exact inv.removed (fun late => absurd early (Nat.not_lt.2 late))
      (inv.lanes.tombstone there rfl rfl rfl) rows claims leases evidence closures
  | none =>
    by_cases nothing : (s.rows j).deferred = [] ∧ (s.rows j).leases = [] ∧ (s.rows j).done = [] ∧
      (s.rows j).dlq = []
    · rw [CountState.deleteJob, deleteRest_nothing joined nothing, if_pos nothing]
      exact inv.unchanged
    · rw [CountState.deleteJob, if_neg nothing]
      refine inv.deleteRest joined (fun lease mem c claim same => ?_) nothing
      have all := all_eq_true.1 (all_eq_true.1 meets lease mem) c claim
      simpa [same] using all

theorem CountInv.discard (inv : CountInv s) :
    CountInv (s.setJob j { s.rows j with done := [], dlq := [] } (s.stage j)) := by
  obtain ⟨n, ok⟩ := inv.jobs j
  refine inv.setJob (fun late => ?_) ⟨n, ok.fewer rfl rfl rfl ?_ (List.Subset.refl _)⟩
    (inv.lanes.keep rfl rfl rfl)
  · rw [inv.late j late]
  · change ([] ++ (s.rows j).deferred ++ []).Sublist ((s.rows j).done ++ (s.rows j).deferred ++
      (s.rows j).dlq)
    exact ((nil_sublist _).append (List.Sublist.refl _)).append (nil_sublist _)

theorem CountInv.pruneClaims (inv : CountInv s) {gone : List Nat}
    (closed : ∀ c ∈ (s.rows j).claims, c.runLease ∈ gone → c.runLease ∈ (s.rows j).closures) :
    CountInv (s.setJob j ((s.rows j).pruneClaims gone) (s.stage j)) := by
  obtain ⟨n, ok⟩ := inv.jobs j
  refine inv.setJob (fun late => ?_) ⟨n, ok.fewer rfl ?_ rfl (List.Sublist.refl _) ?_⟩
    (inv.lanes.keep rfl rfl rfl)
  · rw [inv.late j late]
    rfl
  · -- a claim that is left is closed as before, and those that go were closed
    change ((s.rows j).claims.filter fun c => c.runLease ∉ gone).filter
      (fun c => c.runLease ∉ (s.rows j).closures.filter fun b => b ∉ gone) = _
    rw [JobRows.unclosed, filter_filter]
    refine filter_congr fun c mem => ?_
    have was := closed c mem
    rw [Bool.eq_iff_iff]
    simp only [mem_filter, Bool.and_eq_true, decide_eq_true_eq, not_and]
    tauto
  · exact fun b mem => (mem_filter.1 mem).1

theorem CountInv.prune (inv : CountInv s) (slot : Nat) (lost : Nat → Bool)
    (passed : ∀ j, ∀ row ∈ (s.rows j).ready, row.key.ref.slot = slot →
    row.key.laneSeq < s.cursor row.key.lane) :
    CountInv { s with rows := fun j => (s.rows j).prune slot (lost j) } where
  jobs j := by
    obtain ⟨n, ok⟩ := inv.jobs j
    refine ⟨n, ok.fewer ?_ rfl rfl ?_ (List.Subset.refl _)⟩
    · change ((s.rows j).ready.filter fun row => row.key.ref.slot ≠ slot).filter
        (fun row => !((s.rows j).prune slot (lost j)).spent row) = _
      rw [JobRows.unspent, filter_filter]
      refine filter_congr fun row mem => ?_
      by_cases inside : row.key.ref.slot = slot
      · -- the cursor has passed it, so it is spent
        rw [inv.lanes.passed _ j row mem rfl (passed j row mem inside)]
        simp [inside]
      · simp [JobRows.spent, JobRows.prune, inside]
    · change ((if lost j then [] else (s.rows j).done) ++ (s.rows j).deferred ++
        (s.rows j).dlq).Sublist _
      refine (List.Sublist.append ?_ (List.Sublist.refl _)).append (List.Sublist.refl _)
      split
      · exact nil_sublist _
      · exact List.Sublist.refl _
  late j above := by
    change (s.rows j).prune slot (lost j) = {}
    rw [inv.late j above]
    cases lost j <;> rfl
  lanes := inv.lanes.prune slot lost

theorem CountInv.enqueue (inv : CountInv s) :
    CountInv ({ s with jobs := s.jobs + 1 }.enqueueJob s.jobs {} lane 0) := by
  have empty : s.rows s.jobs = {} := inv.late _ le_rfl
  exact inv.created.enqueueJob (Nat.lt_succ_self _)
    (inv.lanes.keep (by rw [empty]) (by rw [empty]) (by rw [empty])) rfl rfl rfl rfl
    (forall_mem_nil _)

theorem CountInv.schedule (inv : CountInv s) :
    CountInv ({ s with jobs := s.jobs + 1 }.setJob s.jobs { deferred := [0] } .away) := by
  have empty : s.rows s.jobs = {} := inv.late _ le_rfl
  exact inv.created.setJob (fun late => absurd late (Nat.not_succ_le_self _))
    ⟨0, .away rfl rfl rfl (fun e mem => mem_singleton.1 mem) le_rfl, forall_mem_nil _⟩
    (inv.lanes.keep (by rw [empty]) (by rw [empty]) (by rw [empty]))

section
variable {row : WaitingRow} (inv : CountInv s) (there : row ∈ (s.rows j).ready)
  (live : (s.rows j).live s.cursor row = true) (unclaimed : row.key ∉ (s.rows j).attempts)
include inv there live unclaimed

theorem CountInv.cancelWaiting :
    CountInv (s.setJob j { (s.rows j).tombstone row with done := (s.rows j).done ++ [row.runLease] }
      .away) := by
  obtain ⟨rows, claims, leases, evidence, closures, early⟩ := inv.of_live there live unclaimed
  obtain ⟨rest, dlq⟩ := append_eq_nil_iff.1 evidence
  obtain ⟨done, deferred⟩ := append_eq_nil_iff.1 rest
  have only : ({ (s.rows j).tombstone row with done := (s.rows j).done ++ [row.runLease] } :
      JobRows).evidence = [row.runLease] := by
    simp [JobRows.evidence, JobRows.tombstone, done, deferred, dlq]
  refine inv.setJob (fun late => absurd early (Nat.not_lt.2 late))
    ⟨row.runLease, .away rows claims leases (fun e mem => ?_) (by rw [only]; exact le_rfl),
      closures⟩
    (inv.lanes.tombstone there rfl rfl rfl)
  rw [only] at mem
  exact mem_singleton.1 mem

theorem CountInv.move : CountInv (s.enqueueJob j ((s.rows j).tombstone row) lane row.runLease) := by
  obtain ⟨rows, claims, leases, evidence, closures, early⟩ := inv.of_live there live unclaimed
  exact inv.enqueueJob early (inv.lanes.tombstone there rfl rfl rfl) rows claims leases
    evidence closures

end

theorem countInv_step {slots : Nat} {op : CountOp} (inv : CountInv s) (meets : KeepsCounts op s)
    (step : countStep slots op s = some t) :
    CountInv t := by
  cases op with
  | enqueue lane =>
    cases step
    exact inv.enqueue
  | schedule =>
    cases step
    exact inv.schedule
  | promote j a lane =>
    obtain ⟨mem, rfl⟩ := guard_eq_some step
    obtain ⟨held, done, deferred, dlq⟩ := inv.of_deferred mem
    exact inv.requeue held (by simp [done, deferred, dlq])
  | claim j row receipts =>
    obtain ⟨⟨there, free, -, before⟩, rfl⟩ := guard_eq_some step
    exact inv.claim there free ((spentBelow_iff inv).1 before) receipts
  | advance j key =>
    obtain ⟨mem, rfl⟩ := guard_eq_some step
    exact { inv with lanes := inv.lanes.moveCursor (inv.lanes.attempts j key mem) (inv.lanes.claimed
      j key mem) }
  | skip lane =>
    obtain ⟨⟨below, spent⟩, rfl⟩ := guard_eq_some step
    exact { inv with lanes := inv.lanes.moveCursor below ((spentBelow_iff inv).1 spent) }
  | materialize j c =>
    obtain ⟨mem, rfl⟩ := guard_eq_some step
    exact inv.materialize mem
  | setWaiting j lease waiting =>
    obtain ⟨mem, rfl⟩ := guard_eq_some step
    exact inv.setWaiting mem waiting
  | finish j a outcome =>
    obtain ⟨opened, rfl⟩ := guard_eq_some step
    exact inv.finish opened outcome
  | cancelWaiting j row =>
    obtain ⟨⟨there, live⟩, rfl⟩ := guard_eq_some step
    exact inv.cancelWaiting there live (of_decide_eq_true meets)
  | cancelDeferred j a =>
    obtain ⟨mem, rfl⟩ := guard_eq_some step
    obtain ⟨held, done, deferred, dlq⟩ := inv.of_deferred mem
    exact inv.rewrite held (by simp [done, deferred, dlq])
  | move j row lane =>
    obtain ⟨⟨there, live⟩, rfl⟩ := guard_eq_some step
    exact inv.move there live (of_decide_eq_true meets)
  | delete j row joined =>
    obtain ⟨found, rfl⟩ := guard_eq_some step
    exact inv.delete joined found meets
  | retry j a lane =>
    obtain ⟨mem, rfl⟩ := guard_eq_some step
    obtain ⟨held, done, deferred, dlq⟩ := inv.of_done mem
    exact inv.requeue held (by simp [done, deferred, dlq])
  | moveFailedToDlq j a =>
    obtain ⟨mem, rfl⟩ := guard_eq_some step
    obtain ⟨held, done, deferred, dlq⟩ := inv.of_done mem
    exact inv.rewrite held (by simp [done, deferred, dlq])
  | retryFromDlq j a lane =>
    obtain ⟨mem, moved⟩ := Option.ite_none_right_eq_some.1 step
    obtain ⟨held, done, deferred, dlq⟩ := inv.of_dlq mem
    cases lane with
    | some lane =>
      cases moved
      exact inv.requeue held (by simp [done, deferred, dlq])
    | none =>
      cases moved
      exact inv.rewrite held (by simp [done, deferred, dlq])
  | discard j =>
    cases step
    exact inv.discard
  | rotate =>
    cases step
    exact ⟨inv.jobs, inv.late, inv.lanes⟩
  | prune slot lost =>
    obtain ⟨gate, rfl⟩ := guard_eq_some step
    refine inv.prune slot lost fun j row mem inside => ?_
    have early : j < s.jobs := inv.early (by rintro none; rw [none] at mem; cases mem)
    have one := all_eq_true.1 (all_eq_true.1 gate j (mem_range.2 early)) row mem
    simpa [inside] using one
  | pruneClaims j gone =>
    obtain ⟨closed, rfl⟩ := guard_eq_some step
    exact inv.pruneClaims closed

theorem countInv_initial : CountInv .initial := by
  refine ⟨fun j => ⟨0, .away rfl rfl rfl (fun e mem => ?_) (Nat.zero_le 1), fun b mem => ?_⟩,
    fun j _ => rfl, ?_⟩
  · cases mem
  · cases mem
  · exact ⟨fun j row mem => absurd mem not_mem_nil, fun i j row mem => absurd mem not_mem_nil,
      fun j key mem => absurd mem not_mem_nil, fun j key mem => absurd mem not_mem_nil,
      fun lane => le_rfl, fun lane j row mem => absurd mem not_mem_nil, fun j key mem =>
        absurd mem not_mem_nil⟩

theorem countInv_reachable {slots : Nat} (reached : (countMachine slots).Reachable KeepsCounts s) :
    CountInv s := by
  apply reached.invariant
  · rintro s rfl
    exact countInv_initial
  · intro op s t _ inv meets step
    exact countInv_step inv meets step

end

def someLane : Lane := ⟨7, 2, 0⟩

def someRow (seq : Nat) : WaitingRow := ⟨⟨someLane, seq, ⟨0, 0⟩⟩, 0⟩

end AwaQueue.Counts
