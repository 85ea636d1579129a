import ForwardX.Lib.Upsert

/- Where a batch of traffic goes (`insertTrafficStatsBatch` of `metricsRepository.ts`): a sample for each item, and the
   counters of users, of rules on hosts and of half hours. The maps that the code collects a batch in, and its statements
   `INSERT … ON CONFLICT … DO UPDATE`, are inserts or updates by key (`Upsert.Scheme`). Numbers are integers. -/
namespace ForwardX.Panel.Traffic
open Upsert

/-! ## Amounts -/

structure Amounts where
  bytesIn : Int
  bytesOut : Int
  connections : Int
  deriving DecidableEq

instance : Add Amounts where
  add a b := ⟨a.bytesIn + b.bytesIn, a.bytesOut + b.bytesOut, a.connections + b.connections⟩

inductive Column
  | bytesIn
  | bytesOut
  | connections

def Amounts.get (t : Amounts) : Column → Int
  | .bytesIn => t.bytesIn
  | .bytesOut => t.bytesOut
  | .connections => t.connections

theorem Amounts.get_add (a b : Amounts) (c : Column) : (a + b).get c = a.get c + b.get c := by
  cases c with
  | bytesIn => rfl
  | bytesOut => rfl
  | connections => rfl

/-! ## A batch -/

/-- `TrafficStatBatchItem`; times are in milliseconds. -/
structure TrafficStatBatchItem where
  ruleId : Int
  hostId : Int
  userId : Int
  traffic : Amounts
  recordedAt : Option Int

structure AggregatedTrafficRow where
  ruleId : Int
  hostId : Int
  userId : Int
  traffic : Amounts
  recordedAt : Int
  deriving DecidableEq

def nonNegativeCounter (n : Int) : Int := if n ≤ 0 then 0 else min n 9007199254740991

def rawRow (now : Int) (item : TrafficStatBatchItem) : Option AggregatedTrafficRow :=
  if item.ruleId ≤ 0 ∨ item.hostId ≤ 0 then none
  else some ⟨item.ruleId, item.hostId, max 0 item.userId,
    ⟨nonNegativeCounter item.traffic.bytesIn, nonNegativeCounter item.traffic.bytesOut, max 0 item.traffic.connections⟩,
    item.recordedAt.getD now⟩

def counted (row : AggregatedTrafficRow) : Bool :=
  !(row.userId ≤ 0 || (row.traffic.bytesIn ≤ 0 && row.traffic.bytesOut ≤ 0 && row.traffic.connections ≤ 0))

/-- `countersByRuleHost`. -/
def byRuleHost : Scheme AggregatedTrafficRow AggregatedTrafficRow (Int × Int) where
  key row := (row.ruleId, row.hostId)
  keyOf row := (row.ruleId, row.hostId)
  merge aggregate row := { aggregate with
    userId := row.userId
    traffic := aggregate.traffic + row.traffic
    recordedAt := if row.recordedAt > aggregate.recordedAt then row.recordedAt else aggregate.recordedAt }
  make _ row := row
  key_merge _ _ := rfl
  key_make _ _ := rfl

def aggregateTrafficBatch (now : Int) (items : List TrafficStatBatchItem) :
    List AggregatedTrafficRow × List AggregatedTrafficRow :=
  let rawRows := items.filterMap (rawRow now)
  (rawRows, (byRuleHost.insertAll ⟨[], 0⟩ (rawRows.filter counted)).rows)

/-! ## Users -/

structure UserTraffic where
  userId : Int
  traffic : Amounts

def byUser : Scheme UserTraffic AggregatedTrafficRow Int where
  key r := r.userId
  keyOf row := row.userId
  merge r row := { r with traffic := r.traffic + row.traffic }
  make _ row := ⟨row.userId, row.traffic⟩
  key_merge _ _ := rfl
  key_make _ _ := rfl

/-- A row of `user_traffic_counters`. -/
structure UserCounter where
  id : Nat
  userId : Int
  traffic : Amounts
  createdAt : Int
  updatedAt : Int
  deriving DecidableEq

def userCounters (nowSec : Int) : Scheme UserCounter UserTraffic Int where
  key r := r.userId
  keyOf v := v.userId
  merge r v := { r with
    traffic := r.traffic + v.traffic
    updatedAt := nowSec }
  make n v := ⟨n, v.userId, v.traffic, nowSec, nowSec⟩
  key_merge _ _ := rfl
  key_make _ _ := rfl

def upsertUserTrafficCountersBatch (nowSec : Int) (users : Table UserCounter) (rows : List AggregatedTrafficRow) :
    Table UserCounter :=
  let values := (byUser.insertAll ⟨[], 0⟩ rows).rows.mergeSort (fun left right => decide (left.userId ≤ right.userId))
  (userCounters nowSec).insertAll users values

/-! ## Rules -/

/-- A row of `forward_rule_traffic_counters`. -/
structure RuleCounter where
  id : Nat
  ruleId : Int
  hostId : Int
  userId : Int
  traffic : Amounts
  createdAt : Int
  updatedAt : Int
  deriving DecidableEq

def ruleCounters (nowSec : Int) : Scheme RuleCounter AggregatedTrafficRow (Int × Int) where
  key r := (r.ruleId, r.hostId)
  keyOf row := (row.ruleId, row.hostId)
  merge r row := { r with
    userId := row.userId
    traffic := r.traffic + row.traffic
    updatedAt := nowSec }
  make n row := ⟨n, row.ruleId, row.hostId, row.userId, row.traffic, nowSec, nowSec⟩
  key_merge _ _ := rfl
  key_make _ _ := rfl

def upsertForwardRuleTrafficCountersBatch (nowSec : Int) (rules : Table RuleCounter) (rows : List AggregatedTrafficRow) :
    Table RuleCounter :=
  (ruleCounters nowSec).insertAll rules rows

/-! ## Half hours -/

def TRAFFIC_BUCKET_MINUTES : Int := 30

def epochSeconds (ms : Int) : Int := ms / 1000

def bucketStartFor (seconds : Int) : Int := seconds / (TRAFFIC_BUCKET_MINUTES * 60) * (TRAFFIC_BUCKET_MINUTES * 60)

structure BucketTraffic where
  row : AggregatedTrafficRow
  bucketStart : Int

def byBucket : Scheme BucketTraffic AggregatedTrafficRow (Int × Int × Int) where
  key r := (r.bucketStart, r.row.ruleId, r.row.hostId)
  keyOf row := (bucketStartFor (epochSeconds row.recordedAt), row.ruleId, row.hostId)
  merge r row := { r with
    row := { r.row with
      userId := row.userId
      traffic := r.row.traffic + row.traffic } }
  make _ row := ⟨row, bucketStartFor (epochSeconds row.recordedAt)⟩
  key_merge _ _ := rfl
  key_make _ _ := rfl

/-- A row of `traffic_stat_buckets`. -/
structure Bucket where
  id : Nat
  bucketStart : Int
  bucketMinutes : Int
  userId : Int
  ruleId : Int
  hostId : Int
  traffic : Amounts
  updatedAt : Int
  deriving DecidableEq

def buckets (nowSec : Int) : Scheme Bucket BucketTraffic (Int × Int × Int × Int) where
  key r := (r.bucketStart, r.bucketMinutes, r.ruleId, r.hostId)
  keyOf v := (v.bucketStart, TRAFFIC_BUCKET_MINUTES, v.row.ruleId, v.row.hostId)
  merge r v := { r with
    userId := v.row.userId
    traffic := r.traffic + v.row.traffic
    updatedAt := nowSec }
  make n v := ⟨n, v.bucketStart, TRAFFIC_BUCKET_MINUTES, v.row.userId, v.row.ruleId, v.row.hostId, v.row.traffic, nowSec⟩
  key_merge _ _ := rfl
  key_make _ _ := rfl

def upsertTrafficStatBucketsBatch (nowSec : Int) (t : Table Bucket) (rows : List AggregatedTrafficRow) : Table Bucket :=
  (buckets nowSec).insertAll t (byBucket.insertAll ⟨[], 0⟩ rows).rows

/-! ## The stores -/

structure TrafficStores where
  stats : List AggregatedTrafficRow
  users : Table UserCounter
  rules : Table RuleCounter
  buckets : Table Bucket

/-- A call: its items, and what the clock shows to its parts. -/
structure Batch where
  items : List TrafficStatBatchItem
  now : Int
  usersNow : Int
  rulesNow : Int
  bucketsNow : Int

def insertTrafficStatsBatch (s : TrafficStores) (b : Batch) : TrafficStores :=
  let rows := aggregateTrafficBatch b.now b.items
  if rows.1.isEmpty then s
  else
    { stats := s.stats ++ rows.1
      users := upsertUserTrafficCountersBatch (epochSeconds b.usersNow) s.users rows.2
      rules := upsertForwardRuleTrafficCountersBatch (epochSeconds b.rulesNow) s.rules rows.2
      buckets := upsertTrafficStatBucketsBatch (epochSeconds b.bucketsNow) s.buckets rows.2 }

/-! ## Sums -/

/-- What the rules on hosts with `p` have in a column. -/
def rowSum (p : Int × Int → Bool) (c : Column) (rows : List AggregatedTrafficRow) : Int :=
  total (fun r => p (r.ruleId, r.hostId)) (fun r => r.traffic.get c) rows

def userSum (c : Column) (users : Table UserCounter) : Int := total (fun _ => true) (fun r => r.traffic.get c) users.rows

def ruleSum (p : Int × Int → Bool) (c : Column) (rules : Table RuleCounter) : Int :=
  total (fun r => p (r.ruleId, r.hostId)) (fun r => r.traffic.get c) rules.rows

def bucketSum (p : Int × Int → Bool) (c : Column) (buckets : Table Bucket) : Int :=
  total (fun r => p (r.ruleId, r.hostId)) (fun r => r.traffic.get c) buckets.rows

section
variable (p : Int × Int → Bool) (c : Column) (rows : List AggregatedTrafficRow) (nowSec : Int)

theorem rowSum_byRuleHost : rowSum p c (byRuleHost.insertAll ⟨[], 0⟩ rows).rows = rowSum p c rows :=
  total_collect (S := byRuleHost) ⟨fun _ _ hkey => congrArg p hkey, fun r x => Amounts.get_add r.traffic x.traffic c,
    fun _ _ => rfl⟩ rows

theorem userSum_upsert {users : Table UserCounter} (hnd : ((userCounters nowSec).keys users.rows).Nodup) :
    userSum c (upsertUserTrafficCountersBatch nowSec users rows) = userSum c users + rowSum (fun _ => true) c rows := by
  have hvalues : total (fun _ => true) (fun v : UserTraffic => v.traffic.get c) (byUser.insertAll ⟨[], 0⟩ rows).rows =
      rowSum (fun _ => true) c rows :=
    total_collect (S := byUser) ⟨fun _ _ _ => rfl, fun r x => Amounts.get_add r.traffic x.traffic c, fun _ _ => rfl⟩ rows
  have hadds : Adds (userCounters nowSec) (fun _ => true) (fun _ => true) (fun r => r.traffic.get c) (fun v => v.traffic.get c) :=
    ⟨fun _ _ _ => rfl, fun r x => Amounts.get_add r.traffic x.traffic c, fun _ _ => rfl⟩
  rw [← hvalues, ← total_perm _ _ (List.mergeSort_perm (byUser.insertAll ⟨[], 0⟩ rows).rows
    (fun left right => decide (left.userId ≤ right.userId)))]
  exact total_insertAll hadds hnd _

theorem ruleSum_upsert {rules : Table RuleCounter} (hnd : ((ruleCounters nowSec).keys rules.rows).Nodup) :
    ruleSum p c (upsertForwardRuleTrafficCountersBatch nowSec rules rows) = ruleSum p c rules + rowSum p c rows :=
  total_insertAll (S := ruleCounters nowSec) ⟨fun _ _ hkey => congrArg p hkey,
    fun r x => Amounts.get_add r.traffic x.traffic c, fun _ _ => rfl⟩ hnd rows

theorem bucketSum_upsert {table : Table Bucket} (hnd : ((buckets nowSec).keys table.rows).Nodup) :
    bucketSum p c (upsertTrafficStatBucketsBatch nowSec table rows) = bucketSum p c table + rowSum p c rows := by
  have hvalues : total (fun v => p (v.row.ruleId, v.row.hostId)) (fun v : BucketTraffic => v.row.traffic.get c)
      (byBucket.insertAll ⟨[], 0⟩ rows).rows = rowSum p c rows :=
    total_collect (S := byBucket) ⟨fun _ _ hkey => congrArg p (congrArg Prod.snd hkey),
      fun r x => Amounts.get_add r.row.traffic x.traffic c, fun _ _ => rfl⟩ rows
  have hadds : Adds (buckets nowSec) (fun r => p (r.ruleId, r.hostId)) (fun v => p (v.row.ruleId, v.row.hostId))
      (fun r => r.traffic.get c) (fun v => v.row.traffic.get c) :=
    ⟨fun _ _ hkey => congrArg p (congrArg (fun k => k.2.2) hkey), fun r x => Amounts.get_add r.traffic x.row.traffic c,
      fun _ _ => rfl⟩
  rw [← hvalues]
  exact total_insertAll hadds hnd _

end

/-! ## Runs -/

/-- The counters have unique keys. The users' add up to the rules', and the buckets of a rule on a host to its counter. -/
structure Agree (s : TrafficStores) : Prop where
  userKeys : (s.users.rows.map UserCounter.userId).Nodup
  ruleKeys : (s.rules.rows.map (fun r => (r.ruleId, r.hostId))).Nodup
  bucketKeys : (s.buckets.rows.map (fun r => (r.bucketStart, r.bucketMinutes, r.ruleId, r.hostId))).Nodup
  users : ∀ c, userSum c s.users = ruleSum (fun _ => true) c s.rules
  buckets : ∀ p c, bucketSum p c s.buckets = ruleSum p c s.rules

def countedRows (b : Batch) : List AggregatedTrafficRow := (b.items.filterMap (rawRow b.now)).filter counted

theorem insert_agrees {s : TrafficStores} (h : Agree s) (b : Batch) : Agree (insertTrafficStatsBatch s b) ∧
    ∀ p c, ruleSum p c (insertTrafficStatsBatch s b).rules = ruleSum p c s.rules + rowSum p c (countedRows b) := by
  rw [insertTrafficStatsBatch]
  by_cases hnil : (aggregateTrafficBatch b.now b.items).1.isEmpty = true
  -- without rows the stores stay, and none is counted
  · have hrows : b.items.filterMap (rawRow b.now) = [] := List.isEmpty_iff.mp hnil
    have hnone : countedRows b = [] := by rw [countedRows, hrows, List.filter_nil]
    rw [if_pos hnil, hnone]
    exact ⟨h, fun p c => (Int.add_zero _).symm⟩
  · rw [if_neg hnil]
    have hrules : ∀ p c, ruleSum p c (upsertForwardRuleTrafficCountersBatch (epochSeconds b.rulesNow) s.rules
        (byRuleHost.insertAll ⟨[], 0⟩ (countedRows b)).rows) = ruleSum p c s.rules + rowSum p c (countedRows b) :=
      fun p c => by rw [ruleSum_upsert p c _ _ h.ruleKeys, rowSum_byRuleHost]
    refine ⟨⟨nodup_insertAll (S := userCounters _) (t := s.users) h.userKeys _,
      nodup_insertAll (S := ruleCounters _) (t := s.rules) h.ruleKeys _,
      nodup_insertAll (S := buckets _) (t := s.buckets) h.bucketKeys _, fun c => ?_, fun p c => ?_⟩, hrules⟩
    · refine Eq.trans ?_ (hrules (fun _ => true) c).symm
      rw [← h.users c, ← rowSum_byRuleHost]
      exact userSum_upsert c _ _ h.userKeys
    · refine Eq.trans ?_ (hrules p c).symm
      rw [← h.buckets p c, ← rowSum_byRuleHost]
      exact bucketSum_upsert p c _ _ h.bucketKeys

/-- Whatever batches come, the stores keep in agreement, and the counters of any choice of rules on hosts grow by what the
items with a rule, a host and a user report for them. -/
theorem traffic_stores_agree {s : TrafficStores} (h : Agree s) (batches : List Batch) :
    Agree (batches.foldl insertTrafficStatsBatch s) ∧
      ∀ p c, ruleSum p c (batches.foldl insertTrafficStatsBatch s).rules =
        ruleSum p c s.rules + rowSum p c (batches.flatMap countedRows) := by
  induction batches generalizing s with
  | nil => exact ⟨h, fun p c => (Int.add_zero _).symm⟩
  | cons b batches ih =>
    obtain ⟨hagree, hsum⟩ := insert_agrees h b
    obtain ⟨hagree', hsum'⟩ := ih hagree
    refine ⟨hagree', fun p c => ?_⟩
    calc ruleSum p c (batches.foldl insertTrafficStatsBatch (insertTrafficStatsBatch s b)).rules
        = ruleSum p c s.rules + rowSum p c (countedRows b) + rowSum p c (batches.flatMap countedRows) := by
          rw [hsum', hsum]
      _ = ruleSum p c s.rules + rowSum p c ((b :: batches).flatMap countedRows) := by
          rw [Int.add_assoc, List.flatMap_cons, rowSum, rowSum, rowSum, total_append]

/-- Stores with nothing in them, and items of a user, of a user with nothing new, and of none. -/
theorem first_batch_agrees :
    ruleSum (· = (3, 5)) .bytesIn ([⟨[⟨3, 5, 7, ⟨10, 20, 1⟩, none⟩, ⟨3, 5, 7, ⟨-4, 0, 0⟩, none⟩, ⟨3, 5, 0, ⟨9, 9, 9⟩, none⟩],
      1800000, 0, 0, 0⟩].foldl insertTrafficStatsBatch ⟨[], ⟨[], 1⟩, ⟨[], 1⟩, ⟨[], 1⟩⟩).rules = 10 := by
  have hempty : Agree ⟨[], ⟨[], 1⟩, ⟨[], 1⟩, ⟨[], 1⟩⟩ :=
    ⟨List.nodup_nil, List.nodup_nil, List.nodup_nil, fun _ => rfl, fun _ _ => rfl⟩
  exact ((traffic_stores_agree hempty _).2 (· = (3, 5)) .bytesIn).trans (by decide)

end ForwardX.Panel.Traffic
