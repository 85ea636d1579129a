import ForwardX.Panel.TrafficBilling

/- Settling a rule that is deleted (`settleTrafficBillingRuleOnDelete`): the bytes of the rule
   above its billed GB are charged by the byte, and its rows are marked as settled. What is
   charged so is not added to the billed GB, so traffic that is reported later and completes
   the GB is charged with the settled bytes in it. -/
namespace ForwardX.Panel
open Transition

/-! ## Settlement -/

/-- The arguments of `settleTrafficBillingRuleOnDelete`. -/
structure SettleInput where
  userId : Nat
  ruleId : Nat
  resource : Resource
  deriving DecidableEq, Repr

/-- The database once a rule without rows has got one for its history. -/
def insertHistoricalRow (db : BillingDb) (input : SettleInput) : BillingDb :=
  let historicalRuleBytes :=
    if db.usage.lookup ⟨input.userId, input.resource⟩ = none then 0 else db.trafficStats input.ruleId
  if db.ruleUsage.any (fun e => e.1.ruleId = input.ruleId) ∨ historicalRuleBytes = 0 then db
  else { db with
    ruleUsage := Assoc.put db.ruleUsage ⟨input.ruleId, input.resource⟩
      ⟨input.userId, historicalRuleBytes, ceilGb historicalRuleBytes, false⟩
    unique := Assoc.nodup_put db.unique _ _ }

/-- The loop of the settlement: the database, `totalAmountCents` and `balanceAfterCents`. -/
structure Settlement where
  db : BillingDb
  totalAmountCents : Nat
  balanceAfterCents : Option Int

def remainingBytes (row : TrafficBillingRuleUsage) : Nat :=
  row.totalBytes - row.billedGb * gbBytes

/-- The cents that a row is settled for. -/
def settledAmountCents (s : BillingSettings) (resource : Resource) (row : TrafficBillingRuleUsage) :
    Nat :=
  let config := s.configs resource
  if config = none then 0
  else effectiveAmountCentsForBytes (remainingBytes row) (configPriceMilliCents config)
    (billingMultiplier s resource config)

/-- What the settlement of a row asks to be charged. -/
def settleCharge (s : BillingSettings) (input : SettleInput) (resource : Resource)
    (row : TrafficBillingRuleUsage) : ChargeInput :=
  let multiplier := billingMultiplier s resource (s.configs resource)
  { userId := input.userId
    ruleId := input.ruleId
    resource := resource
    bytes := remainingBytes row
    billedGb := 0
    amountCents := settledAmountCents s resource row
    pricePerGbMilliCents := configPriceMilliCents (s.configs resource)
    multiplier := multiplier
    description := "流量计费：" ++ trafficBillingResourceLabel resource.resourceType ++ " #" ++
      toString resource.resourceId ++ " 删除规则结算 " ++ toString (remainingBytes row) ++ " bytes x " ++
      multiplierText multiplier }

/-- A row with its `settled` flag set. -/
def markSettled (db : BillingDb) (key : RuleResource) (row : TrafficBillingRuleUsage) : BillingDb :=
  { db with
    ruleUsage := Assoc.put db.ruleUsage key { row with settled := true }
    unique := Assoc.nodup_put db.unique _ _ }

/-- One turn of the loop over the rows of the rule. -/
def settleRow (s : BillingSettings) (input : SettleInput) (now : Int) (acc : Settlement)
    (entry : RuleResource × TrafficBillingRuleUsage) : Settlement :=
  let (key, row) := entry
  if row.settled then acc
  else
    let db := markSettled acc.db key row
    if remainingBytes row = 0 ∨ settledAmountCents s key.resource row = 0 then { acc with db := db }
    else
      match insertTrafficBillingCharge db.accounts (settleCharge s input key.resource row) now with
      | (none, accounts) => { acc with db := { db with accounts := accounts } }
      | (some charged, accounts) =>
        { db := { db with accounts := accounts }
          totalAmountCents := acc.totalAmountCents + charged.amountCents
          balanceAfterCents := some charged.balanceAfterCents }

def rowsOfRule (db : BillingDb) (ruleId : Nat) : List (RuleResource × TrafficBillingRuleUsage) :=
  db.ruleUsage.filter (fun e => e.1.ruleId = ruleId)

def settleTrafficBillingRuleOnDelete (s : BillingSettings) (db : BillingDb) (input : SettleInput)
    (now : Int) : Except String (Option Charged × BillingDb) :=
  if s.trafficBillingEnabled = false then .ok (none, db)
  else if lockTrafficBillingUserRows db input.userId = false then .error "User not found"
  else
    let start := insertHistoricalRow db input
    let settlement := (rowsOfRule start input.ruleId).foldl (settleRow s input now) ⟨start, 0, none⟩
    match settlement.balanceAfterCents with
    | none => .ok (none, settlement.db)
    | some balanceAfterCents =>
      if settlement.totalAmountCents = 0 then .ok (none, settlement.db)
      else .ok (some ⟨settlement.totalAmountCents, 0, balanceAfterCents⟩, settlement.db)

/-! ## Runs -/

inductive BillingAct
  /-- `billTrafficUsage`. -/
  | bill (s : BillingSettings) (input : BillInput) (now : Int)
  /-- `settleTrafficBillingRuleOnDelete`. -/
  | settle (s : BillingSettings) (input : SettleInput) (now : Int)
  /-- The statistics of a rule come to `bytes`. -/
  | stats (ruleId bytes : Nat)

/-- The database, and for each row of a rule the GB that its first row deemed billed. -/
structure Tracked where
  db : BillingDb
  deemedGb : RuleResource → Nat

/-- The row of `key` is in the database from now on at the latest. -/
def Tracked.next (t : Tracked) (db : BillingDb) (key : RuleResource) (gb : Nat) : Tracked :=
  { db := db
    deemedGb := if t.db.ruleUsage.lookup key = none then Function.update t.deemedGb key gb
      else t.deemedGb }

/-- A call on the database; one that throws is rolled back. -/
def Tracked.step (t : Tracked) : BillingAct → Option Tracked
  | .bill s input now =>
    match billTrafficUsage s t.db input now with
    | .error _ => some t
    | .ok (_, db) =>
      some (t.next db ⟨input.ruleId, input.resource⟩ (previousRuleUsage t.db input).2)
  | .settle s input now =>
    match settleTrafficBillingRuleOnDelete s t.db input now with
    | .error _ => some t
    | .ok (_, db) =>
      some (t.next db ⟨input.ruleId, input.resource⟩ (ceilGb (t.db.trafficStats input.ruleId)))
  | .stats ruleId bytes =>
    some { t with db := { t.db with trafficStats := Function.update t.db.trafficStats ruleId bytes } }

/-- The start of a run: no charges, and the rows that are there deem billed what they say. -/
def Tracked.start (db : BillingDb) : Tracked :=
  { db := { db with accounts := { db.accounts with records := [] } }
    deemedGb := fun key => ((db.ruleUsage.lookup key).map (·.billedGb)).getD 0 }

/-! ## The bytes that charges account for -/

def recordsOf (key : RuleResource) (records : List TrafficBillingRecord) : List TrafficBillingRecord :=
  records.filter (fun r => r.ruleId = key.ruleId ∧ r.resource = key.resource)

/-- The bytes that a charge accounts for: its GB, or for a settlement its bytes. -/
def accountedBytes (r : TrafficBillingRecord) : Nat :=
  if r.billedGb = 0 then r.bytes else r.billedGb * gbBytes

def accounted (key : RuleResource) (records : List TrafficBillingRecord) : Nat :=
  ((recordsOf key records).map accountedBytes).sum

/-- The bytes that the settlements of a rule and resource were charged for. -/
def settledBytes (key : RuleResource) (records : List TrafficBillingRecord) : Nat :=
  ((recordsOf key records).map (fun r => if r.billedGb = 0 then r.bytes else 0)).sum

theorem accounted_concat (key : RuleResource) (rs : List TrafficBillingRecord) (r : TrafficBillingRecord) :
    accounted key (rs ++ [r]) = accounted key rs +
      if r.ruleId = key.ruleId ∧ r.resource = key.resource then accountedBytes r else 0 := by
  unfold accounted recordsOf
  rw [List.filter_append, List.map_append, List.sum_append]
  congr 1
  by_cases h : r.ruleId = key.ruleId ∧ r.resource = key.resource
  · simp [h]
  · simp only [List.filter_cons, decide_eq_true_eq, if_neg h]
    rfl

theorem settledBytes_concat (key : RuleResource) (rs : List TrafficBillingRecord)
    (r : TrafficBillingRecord) :
    settledBytes key (rs ++ [r]) = settledBytes key rs +
      if r.ruleId = key.ruleId ∧ r.resource = key.resource then
        (if r.billedGb = 0 then r.bytes else 0) else 0 := by
  unfold settledBytes recordsOf
  rw [List.filter_append, List.map_append, List.sum_append]
  congr 1
  by_cases h : r.ruleId = key.ruleId ∧ r.resource = key.resource
  · simp [h]
  · simp only [List.filter_cons, decide_eq_true_eq, if_neg h]
    rfl

/-- `r` is a record of the rule and resource `key`. -/
def RecordOf (key : RuleResource) (r : TrafficBillingRecord) : Prop :=
  r.ruleId = key.ruleId ∧ r.resource = key.resource

theorem RecordOf.other {key k : RuleResource} {r : TrafficBillingRecord} (h : RecordOf key r)
    (hk : k ≠ key) (rs : List TrafficBillingRecord) :
    accounted k (rs ++ [r]) = accounted k rs ∧ settledBytes k (rs ++ [r]) = settledBytes k rs := by
  have hne : ¬ (r.ruleId = k.ruleId ∧ r.resource = k.resource) := by
    rintro ⟨hrule, hresource⟩
    apply hk
    exact congrArg₂ RuleResource.mk (hrule.symm.trans h.1) (hresource.symm.trans h.2)
  rw [accounted_concat, settledBytes_concat, if_neg hne, if_neg hne]
  exact ⟨rfl, rfl⟩

theorem RecordOf.own {key : RuleResource} {r : TrafficBillingRecord} (h : RecordOf key r)
    (rs : List TrafficBillingRecord) :
    accounted key (rs ++ [r]) = accounted key rs + accountedBytes r ∧
      settledBytes key (rs ++ [r]) = settledBytes key rs + if r.billedGb = 0 then r.bytes else 0 := by
  have hkey : r.ruleId = key.ruleId ∧ r.resource = key.resource := h
  rw [accounted_concat, settledBytes_concat, if_pos hkey, if_pos hkey]
  exact ⟨rfl, rfl⟩

/-- What a row says about the charges of its rule and resource: they are for the GB billed since
its first row and for what was settled; the billed GB are covered by traffic or were
deemed billed; and what was settled lies above the billed GB. -/
structure RowInv (deemedGb charged settled : Nat) (row : TrafficBillingRuleUsage) : Prop where
  deemed : deemedGb ≤ row.billedGb
  charged : charged ≤ (row.billedGb - deemedGb) * gbBytes + settled
  covered : row.billedGb * gbBytes ≤ max row.totalBytes (deemedGb * gbBytes)
  above : settled = 0 ∨ row.billedGb * gbBytes + settled ≤ row.totalBytes

namespace RowInv
variable {deemedGb charged settled : Nat} {row : TrafficBillingRuleUsage}

theorem bound (h : RowInv deemedGb charged settled row) :
    charged ≤ row.totalBytes - deemedGb * gbBytes := by
  obtain ⟨hdeemed, hcharged, hcovered, habove⟩ := h
  simp only [gbBytes] at *
  omega

theorem first (userId totalBytes gb : Nat) (b : Bool) :
    RowInv gb 0 0 ⟨userId, totalBytes, gb, b⟩ where
  deemed := le_refl gb
  charged := Nat.zero_le _
  covered := Nat.le_max_right _ _
  above := .inl rfl

/-- A report, charged or not, as long as it completes no GB with settled bytes in it. -/
theorem bill (h : RowInv deemedGb charged settled row) {bytes : Nat}
    (hok : settled = 0 ∨ row.totalBytes + bytes < (row.billedGb + 1) * gbBytes) (userId : Nat) {x : Nat}
    (hx : x ≤ (billedFullGb (row.totalBytes + bytes) - row.billedGb) * gbBytes) :
    RowInv deemedGb (charged + x) settled ⟨userId, row.totalBytes + bytes,
      max row.billedGb (billedFullGb (row.totalBytes + bytes)), false⟩ := by
  obtain ⟨hdeemed, hcharged, hcovered, habove⟩ := h
  have hfull : billedFullGb (row.totalBytes + bytes) * gbBytes ≤ row.totalBytes + bytes :=
    Nat.div_mul_le_self _ _
  have hlt : settled = 0 ∨ billedFullGb (row.totalBytes + bytes) ≤ row.billedGb := by
    rcases hok with hz | hok
    · exact .inl hz
    · exact .inr (Nat.lt_succ_iff.mp (Nat.div_lt_of_lt_mul (by rwa [Nat.mul_comm])))
  generalize billedFullGb (row.totalBytes + bytes) = full at *
  rw [Nat.sub_mul] at hcharged hx
  have hbase : deemedGb * gbBytes ≤ row.billedGb * gbBytes := Nat.mul_le_mul_right _ hdeemed
  rcases Nat.le_total full row.billedGb with hle | hle
  · -- no full GB is completed
    have hmul : full * gbBytes ≤ row.billedGb * gbBytes := Nat.mul_le_mul_right _ hle
    rw [Nat.max_eq_left hle]
    refine ⟨hdeemed, ?_, ?_, ?_⟩
    · dsimp only
      rw [Nat.sub_mul]
      omega
    · exact le_trans hcovered (max_le_max_right _ (Nat.le_add_right _ _))
    · exact habove.imp_right (fun h => le_trans h (Nat.le_add_right _ _))
  · have hmul : row.billedGb * gbBytes ≤ full * gbBytes := Nat.mul_le_mul_right _ hle
    rw [Nat.max_eq_right hle]
    refine ⟨le_trans hdeemed hle, ?_, ?_, ?_⟩
    · dsimp only
      rw [Nat.sub_mul]
      omega
    · exact le_trans hfull (Nat.le_max_left _ _)
    · rcases hlt with hz | hlt
      · exact .inl hz
      · obtain rfl := Nat.le_antisymm hle hlt
        exact habove.imp_right (fun h => le_trans h (Nat.le_add_right _ _))

/-- The settlement of a row, charged or not, when nothing was settled before. -/
theorem settle (h : RowInv deemedGb charged 0 row) {x : Nat} (hx : x ≤ remainingBytes row) (b : Bool) :
    RowInv deemedGb (charged + x) x { row with settled := b } := by
  obtain ⟨hdeemed, hcharged, hcovered, -⟩ := h
  unfold remainingBytes at hx
  simp only [gbBytes] at *
  constructor
  · exact hdeemed
  · simp only [gbBytes]
    omega
  · exact hcovered
  · simp only [gbBytes]
    omega

end RowInv

structure RowsInv (deemedGb : RuleResource → Nat) (rows : List (RuleResource × TrafficBillingRuleUsage))
    (records : List TrafficBillingRecord) : Prop where
  row : ∀ key row, rows.lookup key = some row →
    RowInv (deemedGb key) (accounted key records) (settledBytes key records) row
  fresh : ∀ key, rows.lookup key = none → accounted key records = 0 ∧ settledBytes key records = 0

namespace RowsInv
variable {deemedGb : RuleResource → Nat} {rows : List (RuleResource × TrafficBillingRuleUsage)}
  {records : List TrafficBillingRecord}

theorem note (h : RowsInv deemedGb rows records) (key : RuleResource) (gb : Nat) :
    RowsInv (if rows.lookup key = none then Function.update deemedGb key gb else deemedGb) rows
      records := by
  refine ⟨fun k row hk => ?_, h.fresh⟩
  by_cases hnone : rows.lookup key = none
  · have hne : k ≠ key := by
      rintro rfl
      rw [hnone] at hk
      cases hk
    rw [if_pos hnone, Function.update_of_ne hne]
    exact h.row k row hk
  · rw [if_neg hnone]
    exact h.row k row hk

theorem write (h : RowsInv deemedGb rows records) {key : RuleResource} {row : TrafficBillingRuleUsage}
    (records' : List TrafficBillingRecord)
    (hother : ∀ k, k ≠ key →
      accounted k records' = accounted k records ∧ settledBytes k records' = settledBytes k records)
    (hrow : RowInv (deemedGb key) (accounted key records') (settledBytes key records') row) :
    RowsInv deemedGb (Assoc.put rows key row) records' := by
  refine ⟨fun k row' hk => ?_, fun k hk => ?_⟩
  · by_cases hkey : k = key
    · subst hkey
      rw [Assoc.lookup_put_self] at hk
      obtain rfl := Option.some.inj hk
      exact hrow
    · rw [Assoc.lookup_put_ne _ hkey] at hk
      rw [(hother k hkey).1, (hother k hkey).2]
      exact h.row k row' hk
  · by_cases hkey : k = key
    · rw [hkey, Assoc.lookup_put_self] at hk
      cases hk
    · rw [Assoc.lookup_put_ne _ hkey] at hk
      rw [(hother k hkey).1, (hother k hkey).2]
      exact h.fresh k hk

end RowsInv

/-! ## What the two calls do -/

/-- A call of `billTrafficUsage` throws, does nothing, or writes the two rows and perhaps charges. -/
theorem billTrafficUsage_cases (s : BillingSettings) (db : BillingDb) (input : BillInput) (now : Int) :
    billTrafficUsage s db input now = .error "User not found" ∨
    billTrafficUsage s db input now = .ok (none, db) ∨
    ∃ charged accounts,
      billTrafficUsage s db input now = .ok (charged, { writeUsage db input with accounts := accounts }) ∧
      ((charged = none ∧ accounts = db.accounts) ∨
        ∃ c r, charged = some c ∧ c.billedGb = newlyBilledGb db input ∧ newlyBilledGb db input ≠ 0 ∧
          accounts.records = db.accounts.records ++ [r] ∧
          RecordOf ⟨input.ruleId, input.resource⟩ r ∧ r.billedGb = newlyBilledGb db input) := by
  unfold billTrafficUsage
  dsimp only
  split
  · exact .inr (.inl rfl)
  · split
    · exact .inr (.inl rfl)
    · split
      · exact .inr (.inl rfl)
      · split
        · exact .inl rfl
        · right
          right
          by_cases hzero : newlyBilledGb db input = 0
          · rw [if_pos hzero]
            exact ⟨none, _, rfl, .inl ⟨rfl, rfl⟩⟩
          · rw [if_neg hzero]
            refine ⟨_, _, rfl, ?_⟩
            rcases insertTrafficBillingCharge_cases (writeUsage db input).accounts
              (billCharge db input (configPriceMilliCents (s.configs input.resource))
                (billingMultiplier s input.resource (s.configs input.resource))) now with
              hnone | ⟨c, a, r, hsome, -, hgb, hrecords, hrule, hresource, -, hrgb⟩
            · rw [hnone]
              exact .inl ⟨rfl, rfl⟩
            · rw [hsome]
              exact .inr ⟨c, r, rfl, hgb, hzero, hrecords, ⟨hrule, hresource⟩, hrgb⟩

/-- What settling a row changes. -/
structure SettledRow (s : BillingSettings) (input : SettleInput) (db : BillingDb) (key : RuleResource)
    (row : TrafficBillingRuleUsage) (db' : BillingDb) : Prop where
  ruleUsage : db'.ruleUsage = Assoc.put db.ruleUsage key { row with settled := true }
  usage : db'.usage = db.usage
  trafficStats : db'.trafficStats = db.trafficStats
  users : ∀ u, (db'.accounts.balances.lookup u).isSome = (db.accounts.balances.lookup u).isSome
  records : db'.accounts.records = db.accounts.records ∨
    ∃ r, db'.accounts.records = db.accounts.records ++ [r] ∧ RecordOf ⟨input.ruleId, key.resource⟩ r ∧
      r.billedGb = 0 ∧ r.bytes = remainingBytes row

theorem settleRow_settled {s : BillingSettings} {input : SettleInput} {now : Int} {acc : Settlement}
    {entry : RuleResource × TrafficBillingRuleUsage} (h : entry.2.settled = true) :
    settleRow s input now acc entry = acc := by
  simp [settleRow, h]

theorem settleRow_effect (s : BillingSettings) (input : SettleInput) (now : Int) (acc : Settlement)
    {entry : RuleResource × TrafficBillingRuleUsage} (h : entry.2.settled = false) :
    SettledRow s input acc.db entry.1 entry.2 (settleRow s input now acc entry).db := by
  obtain ⟨key, row⟩ := entry
  have hno : ¬ row.settled = true := Bool.not_eq_true _ ▸ h
  simp only [settleRow, if_neg hno]
  split
  · exact ⟨rfl, rfl, rfl, fun _ => rfl, .inl rfl⟩
  · have husers := insertTrafficBillingCharge_users (markSettled acc.db key row).accounts
      (settleCharge s input key.resource row) now
    rcases insertTrafficBillingCharge_cases (markSettled acc.db key row).accounts
      (settleCharge s input key.resource row) now with
      hnone | ⟨c, a, r, hsome, -, -, hrecords, hrule, hresource, hbytes, hgb⟩
    · rw [hnone]
      exact ⟨rfl, rfl, rfl, fun _ => rfl, .inl rfl⟩
    · rw [hsome] at husers ⊢
      exact ⟨rfl, rfl, rfl, husers, .inr ⟨r, hrecords, ⟨hrule, hresource⟩, hgb, hbytes⟩⟩

/-- The loop of a settlement that began at `db₀`, with the rows `rest` to go: they are as they were
read, the other rows of the rule are settled, and nothing else of a row has changed. -/
structure LoopInv (input : SettleInput) (db₀ : BillingDb)
    (rest : List (RuleResource × TrafficBillingRuleUsage)) (db : BillingDb) : Prop where
  nodup : (Assoc.keys rest).Nodup
  pending : ∀ e ∈ rest, db.ruleUsage.lookup e.1 = some e.2
  settled : ∀ key row, db.ruleUsage.lookup key = some row → key.ruleId = input.ruleId →
    key ∈ Assoc.keys rest ∨ row.settled = true
  billed : ∀ key, (db.ruleUsage.lookup key).map (·.billedGb) =
    (db₀.ruleUsage.lookup key).map (·.billedGb)
  usage : db.usage = db₀.usage
  trafficStats : db.trafficStats = db₀.trafficStats
  users : ∀ u, (db.accounts.balances.lookup u).isSome = (db₀.accounts.balances.lookup u).isSome

namespace LoopInv
variable {s : BillingSettings} {input : SettleInput} {db₀ : BillingDb} {now : Int}

theorem start (input : SettleInput) (db : BillingDb) : LoopInv input db (rowsOfRule db input.ruleId) db where
  nodup := db.unique.sublist ((List.filter_sublist).map Prod.fst)
  pending := fun e he => Assoc.lookup_of_mem db.unique (List.mem_filter.mp he).1
  settled := by
    intro key row hk hrule
    refine .inl (List.mem_map.mpr ⟨(key, row), ?_, rfl⟩)
    exact List.mem_filter.mpr ⟨Assoc.mem_of_lookup hk, by simpa using hrule⟩
  billed := fun _ => rfl
  usage := rfl
  trafficStats := rfl
  users := fun _ => rfl

theorem next {entry : RuleResource × TrafficBillingRuleUsage}
    {rest : List (RuleResource × TrafficBillingRuleUsage)} {acc : Settlement}
    (h : LoopInv input db₀ (entry :: rest) acc.db) :
    LoopInv input db₀ rest (settleRow s input now acc entry).db := by
  have hentry := h.pending entry List.mem_cons_self
  have hnodup := h.nodup
  rw [Assoc.keys, List.map_cons, List.nodup_cons] at hnodup
  cases hset : entry.2.settled with
  | true =>
    rw [settleRow_settled hset]
    refine ⟨hnodup.2, fun e he => h.pending e (List.mem_cons_of_mem _ he), ?_, h.billed, h.usage,
      h.trafficStats, h.users⟩
    intro key row hk hrule
    rcases h.settled key row hk hrule with hmem | hdone
    · rcases List.mem_cons.mp hmem with rfl | hmem
      · rw [hentry] at hk
        obtain rfl := Option.some.inj hk
        exact .inr hset
      · exact .inl hmem
    · exact .inr hdone
  | false =>
    have heff := settleRow_effect s input now acc hset
    refine ⟨hnodup.2, ?_, ?_, ?_, heff.usage.trans h.usage, heff.trafficStats.trans h.trafficStats,
      fun u => (heff.users u).trans (h.users u)⟩
    · intro e he
      have hne : e.1 ≠ entry.1 := fun heq => hnodup.1 (heq ▸ List.mem_map_of_mem he)
      rw [heff.ruleUsage, Assoc.lookup_put_ne _ hne]
      exact h.pending e (List.mem_cons_of_mem _ he)
    · intro key row hk hrule
      rw [heff.ruleUsage] at hk
      by_cases hkey : key = entry.1
      · rw [hkey, Assoc.lookup_put_self] at hk
        obtain rfl := Option.some.inj hk
        exact .inr rfl
      · rw [Assoc.lookup_put_ne _ hkey] at hk
        rcases h.settled key row hk hrule with hmem | hdone
        · rcases List.mem_cons.mp hmem with heq | hmem
          · exact absurd heq hkey
          · exact .inl hmem
        · exact .inr hdone
    · intro key
      rw [heff.ruleUsage]
      by_cases hkey : key = entry.1
      · rw [hkey, Assoc.lookup_put_self, ← h.billed, hentry]
        rfl
      · rw [Assoc.lookup_put_ne _ hkey]
        exact h.billed key

theorem run {rows : List (RuleResource × TrafficBillingRuleUsage)} (acc : Settlement)
    (h : LoopInv input db₀ rows acc.db) :
    LoopInv input db₀ [] (rows.foldl (settleRow s input now) acc).db := by
  induction rows generalizing acc with
  | nil => exact h
  | cons entry rows ih => exact ih _ h.next

end LoopInv

/-- The loop keeps the invariant when nothing was settled before of the rows that it settles. -/
theorem RowsInv.settleRows {s : BillingSettings} {input : SettleInput} {now : Int}
    {deemedGb : RuleResource → Nat} {rows : List (RuleResource × TrafficBillingRuleUsage)}
    (hnodup : (Assoc.keys rows).Nodup) (acc : Settlement)
    (h : RowsInv deemedGb acc.db.ruleUsage acc.db.accounts.records)
    (hpending : ∀ e ∈ rows, acc.db.ruleUsage.lookup e.1 = some e.2 ∧ e.1.ruleId = input.ruleId ∧
      (e.2.settled = false → settledBytes e.1 acc.db.accounts.records = 0)) :
    RowsInv deemedGb (rows.foldl (settleRow s input now) acc).db.ruleUsage
      (rows.foldl (settleRow s input now) acc).db.accounts.records := by
  induction rows generalizing acc with
  | nil => exact h
  | cons entry rows ih =>
    obtain ⟨hentry, hrule, hnone⟩ := hpending entry List.mem_cons_self
    rw [Assoc.keys, List.map_cons, List.nodup_cons] at hnodup
    rw [List.foldl_cons]
    cases hset : entry.2.settled with
    | true =>
      rw [settleRow_settled hset]
      exact ih hnodup.2 acc h (fun e he => hpending e (List.mem_cons_of_mem _ he))
    | false =>
      have heff := settleRow_effect s input now acc hset
      have hzero := hnone hset
      have hinv := h.row entry.1 entry.2 hentry
      rw [hzero] at hinv
      have hkey : (⟨input.ruleId, entry.1.resource⟩ : RuleResource) = entry.1 := by rw [← hrule]
      have hother : ∀ k, k ≠ entry.1 →
          accounted k (settleRow s input now acc entry).db.accounts.records =
            accounted k acc.db.accounts.records ∧
          settledBytes k (settleRow s input now acc entry).db.accounts.records =
            settledBytes k acc.db.accounts.records := by
        intro k hk
        rcases heff.records with hrec | ⟨r, hrec, hr, -⟩
        · rw [hrec]
          exact ⟨rfl, rfl⟩
        · rw [hrec]
          exact (hkey ▸ hr).other hk _
      refine ih hnodup.2 _ ?_ ?_
      · rw [heff.ruleUsage]
        refine h.write _ hother ?_
        rcases heff.records with hrec | ⟨r, hrec, hr, hgb, hbytes⟩
        · rw [hrec, hzero]
          exact hinv.settle (Nat.zero_le _) true
        · have hr' : RecordOf entry.1 r := hkey ▸ hr
          rw [hrec, (hr'.own _).1, (hr'.own _).2, hzero, accountedBytes, if_pos hgb, if_pos hgb, hbytes,
            Nat.zero_add]
          exact hinv.settle (le_refl _) true
      · intro e he
        obtain ⟨hlookup, hrule', hnone'⟩ := hpending e (List.mem_cons_of_mem _ he)
        have hne : e.1 ≠ entry.1 := fun heq => hnodup.1 (heq ▸ List.mem_map_of_mem he)
        rw [heff.ruleUsage, Assoc.lookup_put_ne _ hne, (hother e.1 hne).2]
        exact ⟨hlookup, hrule', hnone'⟩

/-! ## The invariant over runs -/

/-- No call charges what a settlement was charged for: a report that completes a GB of a rule, or
a settlement of an unsettled row, comes to a rule and resource without a settlement. -/
def Unsettled (t : Tracked) : BillingAct → Prop
  | .bill _ input _ =>
    settledBytes ⟨input.ruleId, input.resource⟩ t.db.accounts.records = 0 ∨
      (previousRuleUsage t.db input).1 + input.bytes < ((previousRuleUsage t.db input).2 + 1) * gbBytes
  | .settle _ input _ =>
    ∀ e ∈ t.db.ruleUsage, e.1.ruleId = input.ruleId → e.2.settled = false →
      settledBytes e.1 t.db.accounts.records = 0
  | .stats _ _ => True

instance (t : Tracked) : (act : BillingAct) → Decidable (Unsettled t act)
  | .bill _ _ _ => inferInstanceAs (Decidable (_ ∨ _))
  | .settle _ input _ =>
    inferInstanceAs (Decidable (∀ e ∈ t.db.ruleUsage, e.1.ruleId = input.ruleId → e.2.settled = false →
      settledBytes e.1 t.db.accounts.records = 0))
  | .stats _ _ => inferInstanceAs (Decidable True)

def Tracked.Inv (t : Tracked) : Prop := RowsInv t.deemedGb t.db.ruleUsage t.db.accounts.records

theorem previousRuleUsage_inv {t : Tracked} (h : t.Inv) (input : BillInput) :
    RowInv ((t.next t.db ⟨input.ruleId, input.resource⟩ (previousRuleUsage t.db input).2).deemedGb
        ⟨input.ruleId, input.resource⟩)
      (accounted ⟨input.ruleId, input.resource⟩ t.db.accounts.records)
      (settledBytes ⟨input.ruleId, input.resource⟩ t.db.accounts.records)
      ⟨input.userId, (previousRuleUsage t.db input).1, (previousRuleUsage t.db input).2, false⟩ := by
  unfold Tracked.next
  dsimp only
  cases hrow : t.db.ruleUsage.lookup ⟨input.ruleId, input.resource⟩ with
  | none =>
    rw [if_pos rfl, Function.update_self, (h.fresh _ hrow).1, (h.fresh _ hrow).2]
    exact RowInv.first _ _ _ _
  | some row =>
    obtain ⟨hdeemed, hcharged, hcovered, habove⟩ := h.row _ row hrow
    rw [if_neg (by simp), previousRuleUsage, hrow]
    exact ⟨hdeemed, hcharged, hcovered, habove⟩

variable {now : Int} {db : BillingDb} {charged : Option Charged} {t : Tracked} {s : BillingSettings}
   {input : SettleInput}

theorem Tracked.Inv.bill (h : t.Inv) {input : BillInput} (hok : Unsettled t (.bill s input now))
    (hbill : billTrafficUsage s t.db input now = .ok (charged, db)) :
    (t.next db ⟨input.ruleId, input.resource⟩ (previousRuleUsage t.db input).2).Inv := by
  have hnote := h.note ⟨input.ruleId, input.resource⟩ (previousRuleUsage t.db input).2
  rcases billTrafficUsage_cases s t.db input now with herr | hsame | ⟨c, accounts, hres, hcharge⟩
  · rw [herr] at hbill
    cases hbill
  · rw [hsame] at hbill
    obtain ⟨-, rfl⟩ := Prod.mk.inj (Except.ok.inj hbill)
    exact hnote
  · rw [hres] at hbill
    obtain ⟨-, rfl⟩ := Prod.mk.inj (Except.ok.inj hbill)
    have hprev := previousRuleUsage_inv h input
    have hnewly : newlyBilledGb t.db input = billedFullGb ((previousRuleUsage t.db input).1 + input.bytes) -
        (previousRuleUsage t.db input).2 := rfl
    rcases hcharge with ⟨-, haccounts⟩ | ⟨c', r, -, -, hpos, hrec, hr, hgb⟩
    · refine hnote.write accounts.records ?_ ?_
      · intro k hk
        rw [haccounts]
        exact ⟨rfl, rfl⟩
      · rw [haccounts]
        exact hprev.bill hok input.userId (Nat.zero_le _)
    · refine hnote.write accounts.records ?_ ?_
      · intro k hk
        rw [hrec]
        exact hr.other hk _
      · rw [hrec, (hr.own _).1, (hr.own _).2, accountedBytes, hgb, if_neg hpos, if_neg hpos, hnewly]
        exact hprev.bill hok input.userId (le_refl _)

/-- A settlement finds rows of the rule, no history to go by, or makes the history the first row. -/
theorem insertHistoricalRow_cases (db : BillingDb) (input : SettleInput) :
    (insertHistoricalRow db input = db ∧ ((∃ e ∈ db.ruleUsage, e.1.ruleId = input.ruleId) ∨
      db.usage.lookup ⟨input.userId, input.resource⟩ = none ∨ db.trafficStats input.ruleId = 0)) ∨
    ((∀ e ∈ db.ruleUsage, e.1.ruleId ≠ input.ruleId) ∧
      db.usage.lookup ⟨input.userId, input.resource⟩ ≠ none ∧ db.trafficStats input.ruleId ≠ 0 ∧
      insertHistoricalRow db input = { db with
        ruleUsage := Assoc.put db.ruleUsage ⟨input.ruleId, input.resource⟩ ⟨input.userId,
          db.trafficStats input.ruleId, ceilGb (db.trafficStats input.ruleId), false⟩
        unique := Assoc.nodup_put db.unique _ _ }) := by
  by_cases hrow : ∃ e ∈ db.ruleUsage, e.1.ruleId = input.ruleId
  · have hany : db.ruleUsage.any (fun e => e.1.ruleId = input.ruleId) = true := by simpa using hrow
    simp [insertHistoricalRow, hany, hrow]
  · have hany : ¬ db.ruleUsage.any (fun e => e.1.ruleId = input.ruleId) = true := by simpa using hrow
    have hne : ∀ e ∈ db.ruleUsage, e.1.ruleId ≠ input.ruleId := fun e he heq => hrow ⟨e, he, heq⟩
    by_cases husage : db.usage.lookup ⟨input.userId, input.resource⟩ = none
    · simp [insertHistoricalRow, husage]
    · by_cases hstats : db.trafficStats input.ruleId = 0
      · simp [insertHistoricalRow, hstats]
      · right
        refine ⟨hne, husage, hstats, ?_⟩
        unfold insertHistoricalRow
        simp only [if_neg husage]
        rw [if_neg (not_or.mpr ⟨hany, hstats⟩)]

theorem insertHistoricalRow_accounts (db : BillingDb) (input : SettleInput) :
    (insertHistoricalRow db input).accounts = db.accounts := by
  rcases insertHistoricalRow_cases db input with ⟨hsame, -⟩ | ⟨-, -, -, hput⟩
  · rw [hsame]
  · rw [hput]

theorem lookup_of_noRows {ruleId : Nat} (h : ∀ e ∈ db.ruleUsage, e.1.ruleId ≠ ruleId) (resource : Resource) :
    db.ruleUsage.lookup ⟨ruleId, resource⟩ = none := by
  rw [Assoc.lookup_eq_none]
  intro hmem
  obtain ⟨e, he, hkey⟩ := List.mem_map.mp hmem
  exact h e he (by rw [hkey])

theorem insertHistoricalRow_inv (h : t.Inv) (input : SettleInput) :
    RowsInv (t.next t.db ⟨input.ruleId, input.resource⟩ (ceilGb (t.db.trafficStats input.ruleId))).deemedGb
      (insertHistoricalRow t.db input).ruleUsage t.db.accounts.records := by
  have hnote := h.note ⟨input.ruleId, input.resource⟩ (ceilGb (t.db.trafficStats input.ruleId))
  rcases insertHistoricalRow_cases t.db input with ⟨hsame, -⟩ | ⟨hnew, -, -, hput⟩
  · rw [hsame]
    exact hnote
  · have hnone := lookup_of_noRows hnew input.resource
    rw [hput]
    refine hnote.write t.db.accounts.records (fun k _ => ⟨rfl, rfl⟩) ?_
    rw [if_pos hnone, Function.update_self, (h.fresh _ hnone).1, (h.fresh _ hnone).2]
    exact RowInv.first _ _ _ _

theorem insertHistoricalRow_unsettled (h : t.Inv) (hok : Unsettled t (.settle s input now)) :
    ∀ e ∈ rowsOfRule (insertHistoricalRow t.db input) input.ruleId, e.2.settled = false →
      settledBytes e.1 t.db.accounts.records = 0 := by
  intro e he hset
  obtain ⟨hmem, hrule⟩ := List.mem_filter.mp he
  have hrule' : e.1.ruleId = input.ruleId := by simpa using hrule
  rcases insertHistoricalRow_cases t.db input with ⟨hsame, -⟩ | ⟨hnew, -, -, hput⟩
  · rw [hsame] at hmem
    exact hok e hmem hrule' hset
  · rw [hput] at hmem
    rcases List.mem_append.mp hmem with hold | hnewrow
    · exact absurd hrule' (hnew e (List.mem_filter.mp hold).1)
    · rw [List.mem_singleton] at hnewrow
      subst hnewrow
      exact (h.fresh _ (lookup_of_noRows hnew input.resource)).2

/-- A settlement throws, does nothing, or goes over the rows of the rule. -/
theorem settle_cases (s : BillingSettings) (db : BillingDb) (input : SettleInput) (now : Int) :
    settleTrafficBillingRuleOnDelete s db input now = .error "User not found" ∨
    (s.trafficBillingEnabled = false ∧ settleTrafficBillingRuleOnDelete s db input now = .ok (none, db)) ∨
    (lockTrafficBillingUserRows db input.userId = true ∧ ∃ charged,
      settleTrafficBillingRuleOnDelete s db input now = .ok (charged,
        ((rowsOfRule (insertHistoricalRow db input) input.ruleId).foldl (settleRow s input now)
          ⟨insertHistoricalRow db input, 0, none⟩).db)) := by
  unfold settleTrafficBillingRuleOnDelete
  dsimp only
  split
  · rename_i hdis
    exact .inr (.inl ⟨hdis, rfl⟩)
  · split
    · exact .inl rfl
    · rename_i hlock
      refine .inr (.inr ⟨by simpa using hlock, ?_⟩)
      split
      · exact ⟨_, rfl⟩
      · split
        · exact ⟨_, rfl⟩
        · exact ⟨_, rfl⟩

theorem Tracked.Inv.settle (h : t.Inv) (hok : Unsettled t (.settle s input now))
    (hsettle : settleTrafficBillingRuleOnDelete s t.db input now = .ok (charged, db)) :
    (t.next db ⟨input.ruleId, input.resource⟩ (ceilGb (t.db.trafficStats input.ruleId))).Inv := by
  rcases settle_cases s t.db input now with herr | ⟨-, hsame⟩ | ⟨-, c, hres⟩
  · rw [herr] at hsettle
    cases hsettle
  · rw [hsame] at hsettle
    obtain ⟨-, rfl⟩ := Prod.mk.inj (Except.ok.inj hsettle)
    exact h.note _ _
  · rw [hres] at hsettle
    obtain ⟨-, rfl⟩ := Prod.mk.inj (Except.ok.inj hsettle)
    have hstart := LoopInv.start input (insertHistoricalRow t.db input)
    refine RowsInv.settleRows hstart.nodup ⟨insertHistoricalRow t.db input, 0, none⟩ ?_ ?_
    · dsimp only
      rw [insertHistoricalRow_accounts]
      exact insertHistoricalRow_inv h input
    · intro e he
      dsimp only
      rw [insertHistoricalRow_accounts]
      exact ⟨hstart.pending e he, by simpa using (List.mem_filter.mp he).2,
        insertHistoricalRow_unsettled h hok e he⟩

theorem Tracked.Inv.step {t t' : Tracked} (h : t.Inv) {act : BillingAct} (hok : Unsettled t act)
    (hs : t.step act = some t') : t'.Inv := by
  cases act with
  | bill s input now =>
    simp only [Tracked.step] at hs
    split at hs
    · obtain rfl := Option.some.inj hs
      exact h
    · rename_i charged db hbill
      obtain rfl := Option.some.inj hs
      exact h.bill hok hbill
  | settle s input now =>
    simp only [Tracked.step] at hs
    split at hs
    · obtain rfl := Option.some.inj hs
      exact h
    · rename_i charged db hsettle
      obtain rfl := Option.some.inj hs
      exact h.settle hok hsettle
  | stats ruleId bytes =>
    obtain rfl := Option.some.inj hs
    exact h

theorem Tracked.Inv.start (db : BillingDb) : (Tracked.start db).Inv := by
  refine ⟨fun key row hrow => ?_, fun _ _ => ⟨rfl, rfl⟩⟩
  have hdeemed : (Tracked.start db).deemedGb key = row.billedGb := by
    have hrow' : db.ruleUsage.lookup key = some row := hrow
    simp [Tracked.start, hrow']
  rw [hdeemed]
  exact RowInv.first row.userId row.totalBytes row.billedGb row.settled

/-! ## Billed GB -/

def usageBilledGb (db : BillingDb) (key : UserResource) : Nat :=
  ((db.usage.lookup key).map (·.billedGb)).getD 0

variable {db' : BillingDb}

/-- A call adds the GB that it newly billed to the resource of the user, and to no other. -/
theorem billTrafficUsage_usage {input : BillInput} (h : billTrafficUsage s db input now = .ok (charged, db')) :
    (charged = none ∧ db' = db) ∨
    (usageBilledGb db' ⟨input.userId, input.resource⟩ =
        usageBilledGb db ⟨input.userId, input.resource⟩ + newlyBilledGb db input ∧
      (∀ key, key ≠ ⟨input.userId, input.resource⟩ → usageBilledGb db' key = usageBilledGb db key) ∧
      ∀ c, charged = some c → c.billedGb = newlyBilledGb db input) := by
  rcases billTrafficUsage_cases s db input now with herr | hsame | ⟨c, accounts, hres, hcharge⟩
  · rw [herr] at h
    cases h
  · rw [hsame] at h
    obtain ⟨rfl, rfl⟩ := Prod.mk.inj (Except.ok.inj h)
    exact .inl ⟨rfl, rfl⟩
  · rw [hres] at h
    obtain ⟨rfl, rfl⟩ := Prod.mk.inj (Except.ok.inj h)
    refine .inr ⟨?_, ?_, ?_⟩
    · simp only [usageBilledGb, writeUsage, Assoc.lookup_put_self, Option.map_some, Option.getD_some]
      cases db.usage.lookup ⟨input.userId, input.resource⟩ <;> rfl
    · intro key hkey
      simp only [usageBilledGb, writeUsage, Assoc.lookup_put_ne _ hkey]
    · intro c' hc'
      rcases hcharge with ⟨hnone, -⟩ | ⟨c'', r, hsome, hgb, -⟩
      · rw [hnone] at hc'
        cases hc'
      · rw [hsome] at hc'
        obtain rfl := Option.some.inj hc'
        exact hgb

theorem billTrafficUsage_billed {input : BillInput} (h : billTrafficUsage s db input now = .ok (charged, db'))
    {key : RuleResource} {row : TrafficBillingRuleUsage} (hrow : db.ruleUsage.lookup key = some row) :
    ∃ row', db'.ruleUsage.lookup key = some row' ∧ row.billedGb ≤ row'.billedGb := by
  rcases billTrafficUsage_cases s db input now with herr | hsame | ⟨c, accounts, hres, -⟩
  · rw [herr] at h
    cases h
  · rw [hsame] at h
    obtain ⟨-, rfl⟩ := Prod.mk.inj (Except.ok.inj h)
    exact ⟨row, hrow, le_refl _⟩
  · rw [hres] at h
    obtain ⟨-, rfl⟩ := Prod.mk.inj (Except.ok.inj h)
    by_cases hkey : key = ⟨input.ruleId, input.resource⟩
    · subst hkey
      refine ⟨_, Assoc.lookup_put_self _ _ _, ?_⟩
      rw [previousRuleUsage, hrow]
      exact Nat.le_max_left _ _
    · exact ⟨row, (Assoc.lookup_put_ne _ hkey _).trans hrow, le_refl _⟩

/-- What a settlement leaves: every row of the rule is settled, no row's billed GB and no usage of
a resource has changed, and the users are the same. -/
theorem settle_loop (s : BillingSettings) (db : BillingDb) (input : SettleInput) (now : Int) :
    LoopInv input (insertHistoricalRow db input) []
      ((rowsOfRule (insertHistoricalRow db input) input.ruleId).foldl (settleRow s input now)
        ⟨insertHistoricalRow db input, 0, none⟩).db :=
  (LoopInv.start input _).run ⟨insertHistoricalRow db input, 0, none⟩

theorem settle_billed (h : settleTrafficBillingRuleOnDelete s db input now = .ok (charged, db')) :
    db'.usage = db.usage ∧ ∀ key row, db.ruleUsage.lookup key = some row →
      ∃ row', db'.ruleUsage.lookup key = some row' ∧ row'.billedGb = row.billedGb := by
  rcases settle_cases s db input now with herr | ⟨-, hsame⟩ | ⟨-, c, hres⟩
  · rw [herr] at h
    cases h
  · rw [hsame] at h
    obtain ⟨-, rfl⟩ := Prod.mk.inj (Except.ok.inj h)
    exact ⟨rfl, fun key row hrow => ⟨row, hrow, rfl⟩⟩
  · rw [hres] at h
    obtain ⟨-, rfl⟩ := Prod.mk.inj (Except.ok.inj h)
    have hloop := settle_loop s db input now
    have hstart : (insertHistoricalRow db input).usage = db.usage ∧ ∀ key row,
        db.ruleUsage.lookup key = some row →
        (insertHistoricalRow db input).ruleUsage.lookup key = some row := by
      rcases insertHistoricalRow_cases db input with ⟨hsame, -⟩ | ⟨hnew, -, -, hput⟩
      · rw [hsame]
        exact ⟨rfl, fun _ _ hrow => hrow⟩
      · rw [hput]
        refine ⟨rfl, fun key row hrow => ?_⟩
        have hne : key ≠ ⟨input.ruleId, input.resource⟩ := by
          rintro rfl
          rw [lookup_of_noRows hnew] at hrow
          cases hrow
        exact (Assoc.lookup_put_ne _ hne _).trans hrow
    refine ⟨hloop.usage.trans hstart.1, fun key row hrow => ?_⟩
    have hbilled := hloop.billed key
    rw [hstart.2 key row hrow, Option.map_some] at hbilled
    exact Option.map_eq_some_iff.mp hbilled

theorem Tracked.step_billed {t t' : Tracked} {act : BillingAct} (hs : t.step act = some t')
    {key : RuleResource} {row : TrafficBillingRuleUsage} (hrow : t.db.ruleUsage.lookup key = some row) :
    ∃ row', t'.db.ruleUsage.lookup key = some row' ∧ row.billedGb ≤ row'.billedGb := by
  cases act with
  | bill s input now =>
    simp only [Tracked.step] at hs
    split at hs
    · obtain rfl := Option.some.inj hs
      exact ⟨row, hrow, le_refl _⟩
    · rename_i charged db hbill
      obtain rfl := Option.some.inj hs
      exact billTrafficUsage_billed hbill hrow
  | settle s input now =>
    simp only [Tracked.step] at hs
    split at hs
    · obtain rfl := Option.some.inj hs
      exact ⟨row, hrow, le_refl _⟩
    · rename_i charged db hsettle
      obtain rfl := Option.some.inj hs
      obtain ⟨row', hrow', hgb⟩ := (settle_billed hsettle).2 key row hrow
      exact ⟨row', hrow', Nat.le_of_eq hgb.symm⟩
  | stats ruleId bytes =>
    obtain rfl := Option.some.inj hs
    exact ⟨row, hrow, le_refl _⟩

theorem foldl_settleRow_settled {rows : List (RuleResource × TrafficBillingRuleUsage)}
    (h : ∀ e ∈ rows, e.2.settled = true) (acc : Settlement) : rows.foldl (settleRow s input now) acc = acc := by
  induction rows with
  | nil => rfl
  | cons entry rows ih =>
    rw [List.foldl_cons, settleRow_settled (h entry List.mem_cons_self)]
    exact ih (fun e he => h e (List.mem_cons_of_mem _ he))

/-- After a settlement there is a row of the rule or no history to make one from. -/
theorem insertHistoricalRow_after (hloop : LoopInv input (insertHistoricalRow db input) [] db') :
    insertHistoricalRow db' input = db' := by
  have hkept : ∀ e ∈ (insertHistoricalRow db input).ruleUsage, ∃ e' ∈ db'.ruleUsage, e'.1 = e.1 := by
    intro e he
    have hbilled := hloop.billed e.1
    rw [Assoc.lookup_of_mem (insertHistoricalRow db input).unique he, Option.map_some] at hbilled
    obtain ⟨row, hrow, -⟩ := Option.map_eq_some_iff.mp hbilled
    exact ⟨(e.1, row), Assoc.mem_of_lookup hrow, rfl⟩
  rcases insertHistoricalRow_cases db' input with ⟨hsame, -⟩ | ⟨hnone, husage, hstats, -⟩
  · exact hsame
  · exfalso
    rw [hloop.usage] at husage
    rw [hloop.trafficStats] at hstats
    rcases insertHistoricalRow_cases db input with ⟨hsame, hrow | hu | hs⟩ | ⟨-, -, -, hput⟩
    · obtain ⟨e, he, hrule⟩ := hrow
      obtain ⟨e', he', hkey⟩ := hkept e (hsame.symm ▸ he)
      exact hnone e' he' (by rw [hkey, hrule])
    · rw [hsame] at husage
      exact husage hu
    · rw [hsame] at hstats
      exact hstats hs
    · rw [hput] at hkept
      obtain ⟨e', he', hkey⟩ := hkept _ (List.mem_append_right _ List.mem_cons_self)
      exact hnone e' he' (by rw [hkey])

theorem settle_twice {s s' : BillingSettings} (h : settleTrafficBillingRuleOnDelete s db input now = .ok (charged, db'))
    (hen : s.trafficBillingEnabled = false → s'.trafficBillingEnabled = false) (now' : Int) :
    settleTrafficBillingRuleOnDelete s' db' input now' = .ok (none, db') := by
  unfold settleTrafficBillingRuleOnDelete
  rcases settle_cases s db input now with herr | ⟨hdis, -⟩ | ⟨hlock, c, hres⟩
  · rw [herr] at h
    cases h
  · rw [if_pos (hen hdis)]
  · rw [hres] at h
    obtain ⟨-, hdb⟩ := Prod.mk.inj (Except.ok.inj h)
    have hloop := settle_loop s db input now
    rw [hdb] at hloop
    by_cases hen' : s'.trafficBillingEnabled = false
    · rw [if_pos hen']
    · have hsame := insertHistoricalRow_after hloop
      have hsettled : ∀ e ∈ rowsOfRule db' input.ruleId, e.2.settled = true := by
        intro e he
        obtain ⟨hmem, hrule⟩ := List.mem_filter.mp he
        have hlookup := Assoc.lookup_of_mem db'.unique hmem
        rcases hloop.settled e.1 e.2 hlookup (by simpa using hrule) with hnil | hset
        · cases hnil
        · exact hset
      have hlock' : ¬ lockTrafficBillingUserRows db' input.userId = false := by
        have husers := hloop.users input.userId
        rw [insertHistoricalRow_accounts] at husers
        unfold lockTrafficBillingUserRows at hlock ⊢
        rw [husers, hlock]
        decide
      dsimp only
      rw [if_neg hen', if_neg hlock', hsame, foldl_settleRow_settled hsettled]

/-- In every run of reports and settlements whose steps charge nothing that a settlement was
charged for: the charges of a rule and resource account for no more bytes than its row has above
what its first row deemed billed. And in every state: the billed GB of a row never decrease,
settling twice charges nothing the second time, and a call adds exactly the GB it newly
billed to the resource of the user. -/
theorem no_byte_charged_twice (db : BillingDb) {acts : List BillingAct} {t : Tracked}
    (h : Run (Guarded Unsettled (Steps.ofFn Tracked.step)) (Tracked.start db) acts t) :
    (∀ key row, t.db.ruleUsage.lookup key = some row →
      accounted key t.db.accounts.records ≤ row.totalBytes - t.deemedGb key * gbBytes) ∧
    (∀ key, t.db.ruleUsage.lookup key = none → accounted key t.db.accounts.records = 0) ∧
    (∀ act t', t.step act = some t' → ∀ key row, t.db.ruleUsage.lookup key = some row →
      ∃ row', t'.db.ruleUsage.lookup key = some row' ∧ row.billedGb ≤ row'.billedGb) ∧
    (∀ s s' input now now' charged db',
      settleTrafficBillingRuleOnDelete s t.db input now = .ok (charged, db') →
      (s.trafficBillingEnabled = false → s'.trafficBillingEnabled = false) →
      settleTrafficBillingRuleOnDelete s' db' input now' = .ok (none, db')) ∧
    (∀ s input now charged db', billTrafficUsage s t.db input now = .ok (charged, db') →
      (charged = none ∧ db' = t.db) ∨
      (usageBilledGb db' ⟨input.userId, input.resource⟩ =
          usageBilledGb t.db ⟨input.userId, input.resource⟩ + newlyBilledGb t.db input ∧
        (∀ key, key ≠ ⟨input.userId, input.resource⟩ →
          usageBilledGb db' key = usageBilledGb t.db key) ∧
        ∀ c, charged = some c → c.billedGb = newlyBilledGb t.db input)) ∧
    (∀ s input now charged db', settleTrafficBillingRuleOnDelete s t.db input now = .ok (charged, db') →
      db'.usage = t.db.usage) := by
  have hinv : t.Inv := by
    refine h.preserves (fun _ _ _ hs hinv => ?_) (Tracked.Inv.start db)
    exact hinv.step hs.1 hs.2
  refine ⟨fun key row hrow => (hinv.row key row hrow).bound, fun key hnone => (hinv.fresh key hnone).1,
    fun act t' hs key row hrow => Tracked.step_billed hs hrow, ?_, ?_, ?_⟩
  · intro s s' input now now' charged db' hsettle hen
    exact settle_twice hsettle hen now'
  · intro s input now charged db' hbill
    exact billTrafficUsage_usage hbill
  · intro s input now charged db' hsettle
    exact (settle_billed hsettle).1

def cnySettings : BillingSettings :=
  { trafficBillingEnabled := true
    configs := fun _ => some ⟨100, 100000, 100⟩
    trafficMultiplier := fun _ => none }

def settledRule : List BillingAct :=
  [.bill cnySettings ⟨1, 7, 1610612736, ⟨.tunnel, 2⟩⟩ 0, .settle cnySettings ⟨1, 7, ⟨.tunnel, 2⟩⟩ 1]

theorem no_byte_charged_twice_settled_rule : ∃ (t : Tracked) (row : TrafficBillingRuleUsage),
    t.db.ruleUsage.lookup ⟨7, ⟨.tunnel, 2⟩⟩ = some row ∧ row.totalBytes = 1610612736 ∧
    accounted ⟨7, ⟨.tunnel, 2⟩⟩ t.db.accounts.records ≤
      row.totalBytes - t.deemedGb ⟨7, ⟨.tunnel, 2⟩⟩ * gbBytes := by
  obtain ⟨t, row, hexec, hrow, htotal⟩ : ∃ (t : Tracked) (row : TrafficBillingRuleUsage),
      exec (fun t act => if decide (Unsettled t act) then t.step act else none)
        (Tracked.start newUser) settledRule = some t ∧
      t.db.ruleUsage.lookup ⟨7, ⟨.tunnel, 2⟩⟩ = some row ∧ row.totalBytes = 1610612736 :=
    ⟨_, _, rfl, rfl, rfl⟩
  have hrun := exec_guarded (G := Unsettled) (g := fun t act => decide (Unsettled t act))
    (fun _ _ h => of_decide_eq_true h) hexec
  exact ⟨t, row, hrow, htotal, (no_byte_charged_twice newUser hrun).1 _ row hrow⟩

/-- Half a GB more is reported after the settlement: it completes the second GB, and 2.5 GB are
charged of 2 GB. -/
theorem leftover_charged_twice : ∃ (t : Tracked) (row : TrafficBillingRuleUsage),
    Run (Steps.ofFn Tracked.step) (Tracked.start newUser)
      (settledRule ++ [.bill cnySettings ⟨1, 7, 536870912, ⟨.tunnel, 2⟩⟩ 2]) t ∧
    t.db.ruleUsage.lookup ⟨7, ⟨.tunnel, 2⟩⟩ = some row ∧ row.totalBytes = 2147483648 ∧
    t.deemedGb ⟨7, ⟨.tunnel, 2⟩⟩ = 0 ∧
    accounted ⟨7, ⟨.tunnel, 2⟩⟩ t.db.accounts.records = 2684354560 := by
  obtain ⟨t, row, hexec, hrow, htotal, hdeemed, haccounted⟩ : ∃ (t : Tracked) (row : TrafficBillingRuleUsage),
      exec Tracked.step (Tracked.start newUser)
        (settledRule ++ [.bill cnySettings ⟨1, 7, 536870912, ⟨.tunnel, 2⟩⟩ 2]) = some t ∧
      t.db.ruleUsage.lookup ⟨7, ⟨.tunnel, 2⟩⟩ = some row ∧ row.totalBytes = 2147483648 ∧
      t.deemedGb ⟨7, ⟨.tunnel, 2⟩⟩ = 0 ∧
      accounted ⟨7, ⟨.tunnel, 2⟩⟩ t.db.accounts.records = 2684354560 :=
    ⟨_, _, rfl, rfl, rfl, rfl, rfl⟩
  exact ⟨t, row, exec_run hexec, hrow, htotal, hdeemed, haccounted⟩

end ForwardX.Panel
