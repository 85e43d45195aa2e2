import AwaQueue.Lane.Protocol
import AwaQueue.Library.Buckets
import Mathlib.Data.List.Nodup

/-! Where the producers put a job: the stripe of its queue, the shard of its ordering key, and the
groups of a batch.

The Rust producers `enqueue_params_batch` and `enqueue_params_copy` choose lanes in the same way;
`insert_job_compat` repeats the hash of the ordering key in SQL arithmetic and knows no stripes. -/

namespace AwaQueue

open List Library

def hashRound (hash : BitVec 128) (byte : UInt8) : BitVec 128 :=
  (hash * 1099511628211#128 + byte.toBitVec.setWidth 128) &&& 18446744073709551615#128

def orderingKeyHash64 (key : List UInt8) : BitVec 64 :=
  (key.foldl hashRound 14695981039346656037#128).setWidth 64

def compatHash (key : List UInt8) : Nat :=
  key.foldl (fun hash byte => (hash * 1099511628211 + byte.toNat) % 18446744073709551616)
    14695981039346656037

/-- A round loses nothing: the product of a 64-bit value and the prime fits. -/
theorem hashRound_toNat {hash : BitVec 128} (small : hash.toNat < 18446744073709551616)
    (byte : UInt8) :
    (hashRound hash byte).toNat = (hash.toNat * 1099511628211 + byte.toNat) %
      18446744073709551616 := by
  have bits : byte.toNat < 256 := byte.toNat_lt
  have widened : (byte.toBitVec.setWidth 128).toNat = byte.toNat := by
    rw [BitVec.toNat_setWidth]
    exact Nat.mod_eq_of_lt (bits.trans (by decide))
  have product : (hash * 1099511628211#128).toNat = hash.toNat * 1099511628211 := by
    have prime : (1099511628211#128).toNat = 1099511628211 := by decide
    rw [BitVec.toNat_mul, prime]
    apply Nat.mod_eq_of_lt
    calc hash.toNat * 1099511628211 < 18446744073709551616 * 1099511628211 :=
      Nat.mul_lt_mul_of_pos_right small (by decide)
      _ < 340282366920938463463374607431768211456 := by decide
  have sum : (hash * 1099511628211#128 + byte.toBitVec.setWidth 128).toNat =
      hash.toNat * 1099511628211 + byte.toNat := by
    rw [BitVec.toNat_add, product, widened]
    apply Nat.mod_eq_of_lt
    omega
  rw [hashRound, BitVec.toNat_and, sum, BitVec.toNat_ofNat]
  exact Nat.and_two_pow_sub_one_eq_mod _ 64

theorem orderingKeyHash64_toNat (key : List UInt8) :
    (orderingKeyHash64 key).toNat = compatHash key := by
  have rounds : ∀ (hash : BitVec 128), hash.toNat < 18446744073709551616 →
      (key.foldl hashRound hash).toNat = key.foldl
        (fun hash byte => (hash * 1099511628211 + byte.toNat) % 18446744073709551616) hash.toNat ∧
      (key.foldl hashRound hash).toNat < 18446744073709551616 := by
    induction key with
    | nil => exact fun _ small => ⟨rfl, small⟩
    | cons byte rest ih =>
      intro hash small
      have round := hashRound_toNat small byte
      have next := ih (hashRound hash byte) (round ▸ Nat.mod_lt _ (by decide))
      rw [round] at next
      exact next
  have start := rounds 14695981039346656037#128 (by decide)
  rw [orderingKeyHash64, BitVec.toNat_setWidth, Nat.mod_eq_of_lt start.2, start.1]
  rfl

def shardForOrderingKey (key : List UInt8) (shards : Nat) : Nat :=
  if shards ≤ 1 then 0 else (orderingKeyHash64 key).toNat % shards

/-- The configuration of the producers. `stripeHash` is `DefaultHasher` on a unique key;
`enqueueShards` is the column of `queue_meta`, with its default. -/
structure EnqueueConfig where
  queueStripeCount : Nat
  stripeHash : List UInt8 → Nat
  enqueueShards : String → Nat

def rsplitOnce (name : String) : Option (String × String) :=
  match name.toList.reverse.span fun c => c ≠ '#' with
  | (_, []) => none
  | (suffix, _ :: rest) => some (String.ofList rest.reverse, String.ofList suffix.reverse)

def parsesUsize (text : String) : Bool :=
  let digits := if text.toList.head? = some '+' then text.toList.tail else text.toList
  !digits.isEmpty && digits.all Char.isDigit &&
    digits.foldl (fun n c => n * 10 + (c.toNat - '0'.toNat)) 0 < 18446744073709551616

namespace EnqueueConfig
variable (config : EnqueueConfig)

def usesQueueStriping : Bool := 1 < config.queueStripeCount

def isPhysicalStripeQueue (queue : String) : Bool :=
  config.usesQueueStriping && (rsplitOnce queue).any fun split => parsesUsize split.2

def physicalQueueForStripe (queue : String) (stripe : Nat) : String :=
  queue ++ "#" ++ toString stripe

def logicalQueueName (queue : String) : String :=
  if config.usesQueueStriping then ((rsplitOnce queue).filter fun split => parsesUsize split.2).elim
    queue Prod.fst else queue

def queueStripeForEnqueue (queue : String) (uniqueKey : Option (List UInt8)) (salt : Nat) :
    String :=
  if config.usesQueueStriping && !config.isPhysicalStripeQueue queue then
    physicalQueueForStripe queue (uniqueKey.elim salt config.stripeHash % config.queueStripeCount)
  else queue

theorem queueStripeForEnqueue_off (off : config.queueStripeCount ≤ 1) (queue : String)
    (uniqueKey : Option (List UInt8))
    (salt : Nat) : config.queueStripeForEnqueue queue uniqueKey salt = queue := by
  simp [queueStripeForEnqueue, usesQueueStriping, Nat.not_lt.2 off]

theorem logicalQueueName_off (off : config.queueStripeCount ≤ 1) (queue : String) :
    config.logicalQueueName queue = queue := by
  simp [logicalQueueName, usesQueueStriping, Nat.not_lt.2 off]

end EnqueueConfig

/-- A prepared job of a producer call. One with a future `run_at` is scheduled and gets no lane. -/
structure InsertParams where
  queue : String
  priority : Nat
  uniqueKey : Option (List UInt8)
  orderingKey : Option (List UInt8)
  runAt : Nat
  scheduled : Bool
deriving DecidableEq

structure EnqueuedJob where
  jobId : Nat
  queue : String
  priority : Nat
  orderingKey : Option (List UInt8)
deriving DecidableEq

structure RuntimeReadyRow where
  job : EnqueuedJob
  queue : String
  runAt : Nat
deriving DecidableEq

abbrev Rotor := String → Nat → Nat

abbrev LaneGroup := Lane × List (Nat × EnqueuedJob)

def queueNumber (name : String) : Nat :=
  name.toList.foldl (fun n c => n * 1114112 + (c.toNat + 1)) 0

namespace EnqueueConfig
variable (config : EnqueueConfig)

def readyRows (firstId : Nat) (jobs : List InsertParams) : List RuntimeReadyRow :=
  (jobs.zipIdx.filter fun entry => !entry.1.scheduled).zipIdx.map fun entry =>
    let job := entry.1.1
    ⟨⟨firstId + entry.2, job.queue, job.priority, job.orderingKey⟩,
      config.queueStripeForEnqueue job.queue job.uniqueKey entry.1.2, job.runAt⟩

def keyShard (queue : String) (key : List UInt8) : Nat :=
  shardForOrderingKey key (max (config.enqueueShards queue) 1)

def rotorShard (rotor : Rotor) (queue : String) (priority : Nat) : Nat :=
  if max (config.enqueueShards queue) 1 ≤ 1 then 0 else rotor queue priority % max
    (config.enqueueShards queue) 1

def groupBucket (rotor : Rotor) (grouped : Buckets (String × Nat × Nat) RuntimeReadyRow)
    (bucket : (String × Nat) × List RuntimeReadyRow) :
    Buckets (String × Nat × Nat) RuntimeReadyRow :=
  let lane (shard : Nat) : String × Nat × Nat := (bucket.1.1, bucket.1.2, shard)
  (grouped.pushAll (fun row => lane (config.keyShard bucket.1.1 (row.job.orderingKey.getD [])))
    (bucket.2.filter fun row => row.job.orderingKey.isSome)).pushAll
      (fun _ => lane (config.rotorShard rotor bucket.1.1 bucket.1.2))
        (bucket.2.filter fun row => row.job.orderingKey.isNone)

def groupReadyRowsByShard (rotor : Rotor) (rows : List RuntimeReadyRow) :
    Buckets (String × Nat × Nat) RuntimeReadyRow :=
  (Buckets.pushAll [] (fun row => (row.queue, row.job.priority)) rows).foldl
    (config.groupBucket rotor) []

def batchGroups (rotor : Rotor) (rows : List RuntimeReadyRow) : List LaneGroup :=
  (config.groupReadyRowsByShard rotor rows).map fun group =>
    (⟨queueNumber group.1.1, group.1.2.1, group.1.2.2⟩, group.2.map fun row => (row.runAt, row.job))

/-- The shard that `insert_job_compat` chooses; without a key it takes the backend's process id. -/
def compatShard (backend : Nat) (queue : String) (key : Option (List UInt8)) : Nat :=
  (key.elim backend compatHash) % max (config.enqueueShards queue) 1

def compatGroups (backend jobId : Nat) (job : InsertParams) : List LaneGroup :=
  if job.scheduled then [] else
    [(⟨queueNumber job.queue, job.priority, config.compatShard backend job.queue job.orderingKey⟩,
      [(job.runAt, ⟨jobId, job.queue, job.priority, job.orderingKey⟩)])]

end EnqueueConfig

inductive ProducerCall where
  | batch (rotor : Rotor) (jobs : List InsertParams)
  | copy (rotor : Rotor) (jobs : List InsertParams)
  | compat (backend : Nat) (job : InsertParams)

namespace ProducerCall

def groups (config : EnqueueConfig) (firstId : Nat) : ProducerCall → List LaneGroup
  | batch rotor jobs => config.batchGroups rotor (config.readyRows firstId jobs)
  | copy rotor jobs => config.batchGroups rotor (config.readyRows firstId jobs)
  | compat backend job => config.compatGroups backend firstId job

def size : ProducerCall → Nat
  | batch _ jobs => jobs.length
  | copy _ jobs => jobs.length
  | compat _ _ => 1

end ProducerCall

def SameKey (config : EnqueueConfig) (a b : EnqueuedJob) : Prop :=
  config.logicalQueueName a.queue = config.logicalQueueName b.queue ∧ a.priority = b.priority ∧
    a.orderingKey = b.orderingKey ∧ a.orderingKey.isSome = true

instance (config : EnqueueConfig) (a b : EnqueuedJob) : Decidable (SameKey config a b) :=
  inferInstanceAs (Decidable (_ ∧ _ ∧ _ ∧ _))

def EnqueueConfig.keyLane (config : EnqueueConfig) (job : EnqueuedJob) : Lane :=
  ⟨queueNumber job.queue, job.priority, config.keyShard job.queue (job.orderingKey.getD [])⟩

/-- The ids of a call's jobs, the lane of those with a key, and the order of those that share one.
-/
structure GroupsOk (config : EnqueueConfig) (firstId size : Nat) (groups : List LaneGroup) :
    Prop where
  ids : ∀ group ∈ groups, ∀ entry ∈ group.2, firstId ≤ entry.2.jobId ∧
    entry.2.jobId < firstId + size
  lane : ∀ group ∈ groups, ∀ entry ∈ group.2, entry.2.orderingKey.isSome = true →
    group.1 = config.keyLane entry.2
  ordered : ∀ group ∈ groups, group.2.Pairwise fun a b => SameKey config a.2 b.2 →
    a.2.jobId < b.2.jobId
  apart : groups.Pairwise fun g h => ∀ a ∈ g.2, ∀ b ∈ h.2, ¬ SameKey config a.2 b.2

section
variable {config : EnqueueConfig} {a b : EnqueuedJob} {firstId : Nat} {rotor : Rotor}
  {rows : List RuntimeReadyRow} {row : RuntimeReadyRow} {key : String × Nat × Nat}
    {bucket : (String × Nat) × List RuntimeReadyRow}
  {group : (String × Nat × Nat) × List RuntimeReadyRow}

theorem SameKey.symm (same : SameKey config a b) : SameKey config b a :=
  ⟨same.1.symm, same.2.1.symm, same.2.2.1.symm, same.2.2.1 ▸ same.2.2.2⟩

theorem SameKey.queue (same : SameKey config a b) (off : config.queueStripeCount ≤ 1) :
    a.queue = b.queue := by
  have queues := same.1
  rwa [config.logicalQueueName_off off, config.logicalQueueName_off off] at queues

theorem SameKey.keyLane (same : SameKey config a b) (off : config.queueStripeCount ≤ 1) :
    config.keyLane a = config.keyLane b := by
  rw [EnqueueConfig.keyLane, EnqueueConfig.keyLane, same.queue off, same.2.1, same.2.2.1]

theorem readyRows_ids (jobs : List InsertParams) :
    ((config.readyRows firstId jobs).map fun row => row.job.jobId) =
    range' firstId (jobs.zipIdx.filter fun entry => !entry.1.scheduled).length := by
  have shifted : (fun row : RuntimeReadyRow => row.job.jobId) ∘
      (fun entry : (InsertParams × Nat) × Nat =>
      (⟨⟨firstId + entry.2, entry.1.1.queue, entry.1.1.priority, entry.1.1.orderingKey⟩,
        config.queueStripeForEnqueue entry.1.1.queue entry.1.1.uniqueKey entry.1.2,
          entry.1.1.runAt⟩ : RuntimeReadyRow)) =
      (fun n => firstId + n) ∘ Prod.snd := rfl
  rw [EnqueueConfig.readyRows, map_map, shifted, ← map_map, zipIdx_map_snd]
  exact map_add_range' .. |>.trans (by rw [Nat.add_zero])

theorem readyRows_increasing (jobs : List InsertParams) :
    (config.readyRows firstId jobs).Pairwise fun a b => a.job.jobId < b.job.jobId := by
  rw [← pairwise_map (f := fun row : RuntimeReadyRow => row.job.jobId) (R := (· < ·)),
    readyRows_ids]
  exact pairwise_lt_range'

theorem readyRows_bounds (jobs : List InsertParams) (mem : row ∈ config.readyRows firstId jobs) :
    firstId ≤ row.job.jobId ∧ row.job.jobId < firstId + jobs.length := by
  have listed : row.job.jobId ∈ (config.readyRows firstId jobs).map fun row => row.job.jobId :=
    mem_map_of_mem mem
  rw [readyRows_ids, mem_range'_1] at listed
  have fewer : (jobs.zipIdx.filter fun entry => !entry.1.scheduled).length ≤ jobs.length :=
    (length_filter_le _ _).trans_eq length_zipIdx
  omega

theorem readyRows_queue (off : config.queueStripeCount ≤ 1) (jobs : List InsertParams)
    (mem : row ∈ config.readyRows firstId jobs) : row.queue = row.job.queue := by
  obtain ⟨entry, -, rfl⟩ := mem_map.1 mem
  exact config.queueStripeForEnqueue_off off _ _ _

/-- What one queue and priority adds to a lane: the rows whose key hashes there, then those without
key. -/
def EnqueueConfig.share (config : EnqueueConfig) (rotor : Rotor) (key : String × Nat × Nat)
    (bucket : (String × Nat) × List RuntimeReadyRow) : List RuntimeReadyRow :=
  ((bucket.2.filter fun row => row.job.orderingKey.isSome).filter fun row =>
      (bucket.1.1, bucket.1.2, config.keyShard bucket.1.1 (row.job.orderingKey.getD [])) = key) ++
    (bucket.2.filter fun row => row.job.orderingKey.isNone).filter fun _ =>
      (bucket.1.1, bucket.1.2, config.rotorShard rotor bucket.1.1 bucket.1.2) = key

theorem mem_share (mem : row ∈ config.share rotor key bucket) :
      row ∈ bucket.2 ∧ bucket.1 = (key.1, key.2.1) ∧
        (row.job.orderingKey.isSome = true →
        key.2.2 = config.keyShard key.1 (row.job.orderingKey.getD [])) := by
  rcases mem_append.1 mem with keyed | rotated
  · obtain ⟨listed, same⟩ := mem_filter.1 keyed
    obtain rfl := of_decide_eq_true same
    exact ⟨(mem_filter.1 listed).1, rfl, fun _ => rfl⟩
  · obtain ⟨listed, same⟩ := mem_filter.1 rotated
    obtain rfl := of_decide_eq_true same
    obtain ⟨present, none⟩ := mem_filter.1 listed
    refine ⟨present, rfl, fun some => ?_⟩
    rw [Option.isNone_iff_eq_none.1 none] at some
    cases some

theorem groupBucket_get {grouped : Buckets (String × Nat × Nat) RuntimeReadyRow} :
    (config.groupBucket rotor grouped bucket).get key = grouped.get key ++
      config.share rotor key bucket := by
  rw [EnqueueConfig.groupBucket, Buckets.get_pushAll, Buckets.get_pushAll, append_assoc,
    EnqueueConfig.share]

theorem groupReadyRowsByShard_get (key : String × Nat × Nat) :
    (config.groupReadyRowsByShard rotor rows).get key =
      (Buckets.pushAll [] (fun row => (row.queue, row.job.priority)) rows).flatMap
      (config.share rotor key) := by
  have shares : ∀ (buckets : Buckets (String × Nat) RuntimeReadyRow) (grouped :
      Buckets (String × Nat × Nat) RuntimeReadyRow),
      Buckets.get key (buckets.foldl (config.groupBucket rotor) grouped) =
        grouped.get key ++ buckets.flatMap (config.share rotor key) := by
    intro buckets
    induction buckets with
    | nil => exact fun _ => (append_nil _).symm
    | cons bucket rest ih =>
      intro grouped
      rw [foldl_cons, ih, groupBucket_get, flatMap_cons, append_assoc]
  exact shares _ []

theorem groupReadyRowsByShard_keys :
    ((config.groupReadyRowsByShard rotor rows).map Prod.fst).Nodup := by
  have distinct : ∀ (buckets : Buckets (String × Nat) RuntimeReadyRow) (grouped :
      Buckets (String × Nat × Nat) RuntimeReadyRow), (grouped.map Prod.fst).Nodup →
        ((buckets.foldl (config.groupBucket rotor) grouped).map Prod.fst).Nodup := by
    intro buckets
    induction buckets with
    | nil => exact fun _ => id
    | cons bucket rest ih =>
      exact fun grouped before => ih _ (Buckets.nodup_pushAll (Buckets.nodup_pushAll before))
  exact distinct _ [] nodup_nil

theorem queueBuckets_keys (rows : List RuntimeReadyRow) :
    ((Buckets.pushAll [] (fun row : RuntimeReadyRow => (row.queue, row.job.priority)) rows).map
      Prod.fst).Nodup :=
  Buckets.nodup_pushAll nodup_nil

theorem mem_queueBuckets (mem : bucket ∈ Buckets.pushAll []
    (fun row => (row.queue, row.job.priority)) rows) :
    bucket.2 = rows.filter fun row => (row.queue, row.job.priority) = bucket.1 := by
  rw [← Buckets.get_of_mem (queueBuckets_keys rows) mem, Buckets.get_pushAll]
  rfl

theorem mem_group (listed : group ∈ config.groupReadyRowsByShard rotor rows)
    (mem : row ∈ group.2) : row ∈ rows ∧ row.queue = group.1.1 ∧ row.job.priority = group.1.2.1 ∧
      (row.job.orderingKey.isSome = true →
        group.1.2.2 = config.keyShard group.1.1 (row.job.orderingKey.getD [])) := by
  rw [← Buckets.get_of_mem groupReadyRowsByShard_keys listed, groupReadyRowsByShard_get] at mem
  obtain ⟨bucket, present, shared⟩ := mem_flatMap.1 mem
  obtain ⟨inside, same, shard⟩ := mem_share shared
  rw [mem_queueBuckets present, mem_filter, decide_eq_true_eq, same, Prod.mk.injEq] at inside
  exact ⟨inside.1, inside.2.1, inside.2.2, shard⟩

theorem group_ordered (increasing : rows.Pairwise fun a b => a.job.jobId < b.job.jobId)
    (listed : group ∈ config.groupReadyRowsByShard rotor rows) :
    group.2.Pairwise fun a b => SameKey config a.job b.job → a.job.jobId < b.job.jobId := by
  rw [← Buckets.get_of_mem groupReadyRowsByShard_keys listed, groupReadyRowsByShard_get,
    pairwise_flatMap]
  constructor
  · intro bucket present
    have order : bucket.2.Pairwise fun a b => SameKey config a.job b.job →
        a.job.jobId < b.job.jobId := by
      rw [mem_queueBuckets present]
      refine (increasing.filter _).imp ?_
      intro a b less _
      exact less
    refine pairwise_append.2 ⟨(order.filter _).filter _, (order.filter _).filter _, ?_⟩
    intro a _ b rotated same
    have none := (mem_filter.1 (mem_filter.1 rotated).1).2
    rw [← same.2.2.1, Option.isNone_iff_eq_none] at none
    rw [SameKey, none] at same
    cases same.2.2.2
  · refine (pairwise_map.1 (queueBuckets_keys rows)).imp ?_
    intro first second different a left b right
    exact absurd ((mem_share left).2.1.trans (mem_share right).2.1.symm) different

theorem batchGroups_ok (off : config.queueStripeCount ≤ 1) (jobs : List InsertParams) :
    GroupsOk config firstId jobs.length (config.batchGroups rotor
      (config.readyRows firstId jobs)) := by
  refine ⟨?_, ?_, ?_, ?_⟩
  · intro group listed entry mem
    obtain ⟨bucket, present, rfl⟩ := mem_map.1 listed
    obtain ⟨row, inside, rfl⟩ := mem_map.1 mem
    exact readyRows_bounds jobs (mem_group present inside).1
  · intro group listed entry mem keyed
    obtain ⟨bucket, present, rfl⟩ := mem_map.1 listed
    obtain ⟨row, inside, rfl⟩ := mem_map.1 mem
    obtain ⟨called, queue, priority, shard⟩ := mem_group present inside
    rw [EnqueueConfig.keyLane, ← readyRows_queue off jobs called, queue, priority, ← shard keyed]
  · intro group listed
    obtain ⟨bucket, present, rfl⟩ := mem_map.1 listed
    exact pairwise_map.2 (group_ordered (readyRows_increasing jobs) present)
  · refine pairwise_map.2 ((pairwise_map.1 groupReadyRowsByShard_keys).imp_of_mem ?_)
    intro first second left right different a inFirst b inSecond same
    obtain ⟨row, inside, rfl⟩ := mem_map.1 inFirst
    obtain ⟨row', inside', rfl⟩ := mem_map.1 inSecond
    obtain ⟨called, queue, priority, shard⟩ := mem_group left inside
    obtain ⟨called', queue', priority', shard'⟩ := mem_group right inside'
    have queues : first.1.1 = second.1.1 := by
      rw [← queue, ← queue', readyRows_queue off jobs called, readyRows_queue off jobs called']
      exact same.queue off
    have priorities : first.1.2.1 = second.1.2.1 := by
      rw [← priority, ← priority']
      exact same.2.1
    have shards : first.1.2.2 = second.1.2.2 := by
      rw [shard same.2.2.2, shard' (same.2.2.1 ▸ same.2.2.2), queues, same.2.2.1]
    exact different (Prod.ext queues (Prod.ext priorities shards))

theorem compatShard_key (backend : Nat) (queue : String) (key : List UInt8) :
    config.compatShard backend queue (some key) = config.keyShard queue key := by
  rw [EnqueueConfig.compatShard, EnqueueConfig.keyShard, shardForOrderingKey, Option.elim_some,
    orderingKeyHash64_toNat]
  split
  next one =>
    have single : max (config.enqueueShards queue) 1 = 1 := le_antisymm one (le_max_right _ _)
    rw [single, Nat.mod_one]
  next => rfl

theorem compatGroups_ok (backend : Nat) (job : InsertParams) :
    GroupsOk config firstId 1 (config.compatGroups backend firstId job) := by
  unfold EnqueueConfig.compatGroups
  split
  · exact ⟨forall_mem_nil _, forall_mem_nil _, forall_mem_nil _, .nil⟩
  · refine ⟨?_, ?_, ?_, pairwise_singleton _ _⟩
    · intro group listed entry mem
      rw [mem_singleton.1 listed, mem_singleton] at mem
      rw [mem]
      exact ⟨le_rfl, Nat.lt_succ_self _⟩
    · intro group listed entry mem keyed
      rw [mem_singleton] at listed
      rw [listed, mem_singleton] at mem
      rw [mem] at keyed
      obtain ⟨key, carries⟩ := Option.isSome_iff_exists.1 keyed
      change job.orderingKey = some key at carries
      rw [listed, mem, EnqueueConfig.keyLane, carries, compatShard_key]
      rfl
    · intro group listed
      rw [mem_singleton.1 listed]
      exact pairwise_singleton _ _

/-- Without stripes every producer path routes a key to one lane and keeps its jobs in order. -/
theorem ProducerCall.groups_ok (off : config.queueStripeCount ≤ 1) (firstId : Nat)
    (call : ProducerCall) : GroupsOk config firstId call.size (call.groups config firstId) := by
  cases call with
  | batch rotor jobs | copy rotor jobs => exact batchGroups_ok off jobs
  | compat backend job => exact compatGroups_ok backend job

end

end AwaQueue
