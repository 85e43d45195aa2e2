import AwaQueue.Enqueue.Producers
import Mathlib.Data.List.TakeDrop

/-! Queue names and their stripes: what a producer writes to, what a worker polls, and the way back.
-/

namespace AwaQueue

open List

theorem rsplitOnce_append (queue suffix : String) (plain : '#' ∉ suffix.toList) :
    rsplitOnce (queue ++ "#" ++ suffix) = some (queue, suffix) := by
  have reversed : (queue ++ "#" ++ suffix).toList.reverse = suffix.toList.reverse ++
      '#' :: queue.toList.reverse := by
    simp
  have passes : ∀ c ∈ suffix.toList.reverse, decide (c ≠ '#') = true := by
    intro c mem
    apply decide_eq_true
    rintro rfl
    exact plain (mem_reverse.1 mem)
  have split : (suffix.toList.reverse ++ '#' :: queue.toList.reverse).span (fun c => c ≠ '#') =
      (suffix.toList.reverse, '#' :: queue.toList.reverse) := by
    rw [span_eq_takeWhile_dropWhile, takeWhile_append_of_pos passes, dropWhile_append_of_pos passes]
    simp
  rw [rsplitOnce, reversed, split]
  simp

/-- What is split off is shorter. -/
theorem rsplitOnce_length {name front suffix : String}
    (split : rsplitOnce name = some (front, suffix)) : front.length < name.length := by
  have whole := takeWhile_append_dropWhile (p := fun c => decide (c ≠ '#'))
    (l := name.toList.reverse)
  rw [rsplitOnce, span_eq_takeWhile_dropWhile] at split
  split at split
  · cases split
  next rest found =>
    cases split
    rw [(Prod.mk.inj found).2] at whole
    have lengths := congrArg length whole
    simp only [length_append, length_cons, length_reverse, String.length_toList] at lengths
    simp only [String.length_ofList, length_reverse]
    omega

theorem delimiter_not_mem_toString (n : Nat) : '#' ∉ (toString n).toList := by
  rw [Nat.toString_eq_repr, Nat.toList_repr]
  intro mem
  exact absurd (Nat.isDigit_of_mem_toDigits (by decide) (by decide) mem) (by decide)

theorem parsesUsize_toString {n : Nat} (small : n < 18446744073709551616) :
    parsesUsize (toString n) = true := by
  have digits : ∀ c ∈ Nat.toDigits 10 n, c.isDigit = true := fun c => Nat.isDigit_of_mem_toDigits
    (by decide) (by decide)
  have unsigned : ¬(Nat.toDigits 10 n).head? = some '+' := by
    intro sign
    exact absurd (digits '+' (mem_of_head? sign)) (by decide)
  have value : (Nat.toDigits 10 n).foldl (fun n c => n * 10 + (c.toNat - '0'.toNat)) 0 = n := by
    have read := Nat.ofDigitChars_ten_toDigits (n := n)
    rw [Nat.ofDigitChars_eq_foldl] at read
    simpa only [Nat.mul_comm 10] using read
  rw [parsesUsize, Nat.toString_eq_repr, Nat.toList_repr]
  simp only [if_neg unsigned, value, Bool.and_eq_true, decide_eq_true_eq]
  exact ⟨⟨by simp, all_eq_true.2 digits⟩, small⟩

namespace EnqueueConfig
variable (config : EnqueueConfig)

def physicalQueuesForLogical (queue : String) : List String :=
  if !config.usesQueueStriping || config.isPhysicalStripeQueue queue then [queue]
  else (List.range config.queueStripeCount).map (physicalQueueForStripe queue)

/-- How a producer chooses the physical queue of a name. `insert_job_compat` takes the name as it
is. -/
inductive Path where
  | stripe (uniqueKey : Option (List UInt8)) (salt : Nat)
  | insertJobCompat

def chosenQueue (queue : String) : Path → String
  | .stripe uniqueKey salt => config.queueStripeForEnqueue queue uniqueKey salt
  | .insertJobCompat => queue

/-- What is written under the name is polled for it and leads back to it. -/
def KeepsName (path : Path) (queue : String) : Prop :=
  config.chosenQueue queue path ∈ config.physicalQueuesForLogical queue ∧
    config.logicalQueueName (config.chosenQueue queue path) = queue

def Path.Sound (a b : String) : Path → Prop
  | .stripe _ _ => config.isPhysicalStripeQueue a = false ∧ config.isPhysicalStripeQueue b = false
  | .insertJobCompat => config.usesQueueStriping = false

def notifyChannel (queue : String) : String := "awa:" ++ config.logicalQueueName queue

section
variable {config : EnqueueConfig} {queue : String}

theorem logicalQueueName_stripe (striped : config.usesQueueStriping = true) {stripe : Nat}
    (small : stripe < 18446744073709551616) :
    config.logicalQueueName (physicalQueueForStripe queue stripe) = queue := by
  rw [logicalQueueName, if_pos striped, physicalQueueForStripe,
    rsplitOnce_append _ _ (delimiter_not_mem_toString stripe),
    Option.filter_some, if_pos (parsesUsize_toString small)]
  rfl

theorem logicalQueueName_plain (plain : config.isPhysicalStripeQueue queue = false) :
    config.logicalQueueName queue = queue := by
  unfold logicalQueueName
  split
  next striped =>
    rw [isPhysicalStripeQueue, striped, Bool.true_and] at plain
    cases split : rsplitOnce queue with
    | none => rfl
    | some parts =>
      rw [split, Option.any_some] at plain
      rw [Option.filter_some, plain]
      rfl
  next => rfl

theorem logicalQueueName_polled (small : config.queueStripeCount ≤ 18446744073709551616)
    (plain : config.isPhysicalStripeQueue queue = false) {physical : String}
    (polled : physical ∈ config.physicalQueuesForLogical queue) :
    config.logicalQueueName physical = queue := by
  unfold physicalQueuesForLogical at polled
  split at polled
  next =>
    rw [mem_singleton.1 polled]
    exact logicalQueueName_plain plain
  next striped =>
    rw [plain, Bool.or_false, Bool.not_eq_true, Bool.not_eq_false'] at striped
    obtain ⟨stripe, mem, rfl⟩ := mem_map.1 polled
    exact logicalQueueName_stripe striped ((mem_range.1 mem).trans_le small)

/-- A producer writes to a queue that is polled, whatever it picks the stripe by. -/
theorem queueStripeForEnqueue_polled (uniqueKey : Option (List UInt8)) (salt : Nat) :
    config.queueStripeForEnqueue queue uniqueKey salt ∈ config.physicalQueuesForLogical queue := by
  unfold queueStripeForEnqueue physicalQueuesForLogical
  cases striped : config.usesQueueStriping with
  | false => simp
  | true =>
    cases config.isPhysicalStripeQueue queue with
    | true => simp
    | false =>
      have several :
        0 < config.queueStripeCount := (Nat.zero_lt_one).trans (of_decide_eq_true striped)
      have index : uniqueKey.elim salt config.stripeHash % config.queueStripeCount ∈ range
          config.queueStripeCount :=
        mem_range.2 (Nat.mod_lt _ several)
      simpa using mem_map_of_mem index

/-- A name that passes for a stripe leads to a shorter one. -/
theorem logicalQueueName_ne (stripe : config.isPhysicalStripeQueue queue = true) :
    config.logicalQueueName queue ≠ queue := by
  obtain ⟨striped, parsed⟩ := Bool.and_eq_true_iff.1 stripe
  obtain ⟨split, found, parses⟩ := (Option.any_eq_true _ _).1 parsed
  rw [logicalQueueName, if_pos striped, found, Option.filter_some, if_pos parses]
  intro same
  exact absurd (rsplitOnce_length found) (by rw [← same]; exact lt_irrefl _)

theorem plain_of_off (off : config.usesQueueStriping = false) :
    config.isPhysicalStripeQueue queue = false := by
  rw [isPhysicalStripeQueue, off, Bool.false_and]

theorem name_not_mem_stripes :
    queue ∉ (List.range config.queueStripeCount).map (physicalQueueForStripe queue) := by
  intro mem
  obtain ⟨stripe, -, same⟩ := mem_map.1 mem
  have lengths := congrArg String.length same
  have mark : "#".length = 1 := rfl
  rw [physicalQueueForStripe, String.length_append, String.length_append, mark] at lengths
  omega

theorem Path.Sound.plain {a b : String} {path : Path} (sound : path.Sound config a b) :
    config.isPhysicalStripeQueue a = false ∧ config.isPhysicalStripeQueue b = false := by
  cases path with
  | stripe => exact sound
  | insertJobCompat => exact ⟨plain_of_off sound, plain_of_off sound⟩

theorem chosenQueue_polled {a b : String} {path : Path} (sound : path.Sound config a b)
    (queue : String) : config.chosenQueue queue path ∈ config.physicalQueuesForLogical queue := by
  cases path with
  | stripe uniqueKey salt => exact queueStripeForEnqueue_polled uniqueKey salt
  | insertJobCompat =>
    have off : config.usesQueueStriping = false := sound
    simp [chosenQueue, physicalQueuesForLogical, off]

/-- A name that is kept is not taken for a stripe, and one that `insert_job_compat` writes to has
none. -/
theorem KeepsName.plain {path : Path} (kept : config.KeepsName path queue) :
    config.isPhysicalStripeQueue queue = false := by
  cases stripe : config.isPhysicalStripeQueue queue with
  | false => rfl
  | true =>
    have same : config.chosenQueue queue path = queue := by cases path <;> simp [chosenQueue,
      queueStripeForEnqueue, stripe]
    have back := kept.2
    rw [same] at back
    exact absurd back (logicalQueueName_ne stripe)

theorem KeepsName.off (kept : config.KeepsName .insertJobCompat queue) :
    config.usesQueueStriping = false := by
  cases striped : config.usesQueueStriping with
  | false => rfl
  | true =>
    have polled : queue ∈ config.physicalQueuesForLogical queue := kept.1
    rw [physicalQueuesForLogical, striped, kept.plain] at polled
    exact absurd polled name_not_mem_stripes

end

end EnqueueConfig

/-- On each way into the queues: what is written under two names is polled for them and leads back
to them, and they share no queue and no channel, if and only if neither name passes for a stripe or,
for `insert_job_compat`, there are no stripes. The ready rows of the producers all choose a stripe.
-/
theorem stripes_keep_names_apart (config : EnqueueConfig)
    (small : config.queueStripeCount ≤ 18446744073709551616) (a b : String) (distinct : a ≠ b) :
    (∀ path : EnqueueConfig.Path,
      (config.KeepsName path a ∧ config.KeepsName path b ∧
        (config.physicalQueuesForLogical a).Disjoint (config.physicalQueuesForLogical b) ∧
        ∀ p ∈ config.physicalQueuesForLogical a, ∀ q ∈ config.physicalQueuesForLogical b,
          config.notifyChannel p = "awa:" ++ a ∧ config.notifyChannel q = "awa:" ++ b ∧
            config.notifyChannel p ≠ config.notifyChannel q) ↔
      path.Sound config a b) ∧
    ∀ firstId jobs, ∀ row ∈ config.readyRows firstId jobs, ∃ uniqueKey salt,
      row.queue = config.chosenQueue row.job.queue (.stripe uniqueKey salt) := by
  refine ⟨fun path => ⟨?_, ?_⟩, ?_⟩
  · rintro ⟨kept, kept', -⟩
    cases path with
    | stripe => exact ⟨kept.plain, kept'.plain⟩
    | insertJobCompat => exact kept.off
  · intro sound
    obtain ⟨plain, plain'⟩ := sound.plain
    have keeps : ∀ {queue}, config.isPhysicalStripeQueue queue = false →
        config.KeepsName path queue := by
      intro queue plain
      have polled := EnqueueConfig.chosenQueue_polled sound queue
      exact ⟨polled, config.logicalQueueName_polled small plain polled⟩
    refine ⟨keeps plain, keeps plain', ?_, ?_⟩
    · intro physical polled polled'
      apply distinct
      rw [← config.logicalQueueName_polled small plain polled,
        config.logicalQueueName_polled small plain' polled']
    · intro p polled q polled'
      have back := config.logicalQueueName_polled small plain polled
      have back' := config.logicalQueueName_polled small plain' polled'
      rw [EnqueueConfig.notifyChannel, EnqueueConfig.notifyChannel, back, back']
      refine ⟨rfl, rfl, fun same => distinct ?_⟩
      simpa using same
  · intro firstId jobs row member
    obtain ⟨entry, -, rfl⟩ := List.mem_map.1 member
    exact ⟨_, _, rfl⟩

theorem stripes_keep_names_apart_orders :
    (EnqueueConfig.physicalQueuesForLogical ⟨2, fun _ => 0, fun _ => 1⟩ "orders").Disjoint
      (EnqueueConfig.physicalQueuesForLogical ⟨2, fun _ => 0, fun _ => 1⟩ "invoices") :=
  (((stripes_keep_names_apart ⟨2, fun _ => 0, fun _ => 1⟩ (by decide) "orders" "invoices"
    (by decide)).1 (.stripe none 3)).2 ⟨by decide, by decide⟩).2.2.1

/-- A queue whose name ends like a stripe is polled with another one, and its jobs are announced
under the other name. And `insert_job_compat`, which takes the name as it is, writes to a queue that
nobody polls. -/
theorem stripe_name_shared : ∃ config : EnqueueConfig, config.queueStripeCount = 2 ∧
    "orders#0" ∈ config.physicalQueuesForLogical "orders" ∧
    "orders#0" ∈ config.physicalQueuesForLogical "orders#0" ∧
    config.queueStripeForEnqueue "orders#0" none 0 = "orders#0" ∧
    config.logicalQueueName "orders#0" = "orders" ∧ config.notifyChannel "orders#0" = "awa:orders" ∧
      "orders" ∉ config.physicalQueuesForLogical "orders" := by
  exact ⟨⟨2, fun _ => 0, fun _ => 1⟩, by decide⟩

end AwaQueue
