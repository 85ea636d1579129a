import Mathlib.Algebra.BigOperators.Ring.List
import Mathlib.Logic.Function.Basic
import ForwardX.Lib.Tally
import ForwardX.Panel.Balance

/- Billing traffic by the GB (`trafficBillingRepository.ts`). A report is added to the bytes
   of its rule, and every full GB that it completes is charged at the price and the
   multiplier of the resource. A call charges whole cents: what the GB it completed cost
   beyond that is dropped, so the charge depends on how the traffic was cut into reports. -/
namespace ForwardX.Panel

/-- `GB_BYTES`. -/
abbrev gbBytes : Nat := 1073741824

/-- `MILLI_CENTS_PER_CENT`. -/
abbrev milliCentsPerCent : Nat := 1000

/-- `BILLING_DENOMINATOR`: prices are in thousandths of a cent, multipliers in hundredths. -/
abbrev billingDenominator : Nat := 100000

/-! ## Rows and settings -/

/-- A row of `traffic_billing_configs`. -/
structure TrafficBillingConfig where
  pricePerGbCents : Int
  pricePerGbMilliCents : Int
  multiplier : Int
  deriving DecidableEq, Repr

/-- The key of a row of `traffic_billing_usage`. -/
structure UserResource where
  userId : Nat
  resource : Resource
  deriving DecidableEq, Repr

/-- The key of a row of `traffic_billing_rule_usage`. -/
structure RuleResource where
  ruleId : Nat
  resource : Resource
  deriving DecidableEq, Repr

/-- A row of `traffic_billing_usage`. -/
structure TrafficBillingUsage where
  totalBytes : Nat
  billedGb : Nat
  deriving DecidableEq, Repr

/-- A row of `traffic_billing_rule_usage`. -/
structure TrafficBillingRuleUsage where
  userId : Nat
  totalBytes : Nat
  billedGb : Nat
  settled : Bool
  deriving DecidableEq, Repr

/-- What an administrator set: whether traffic is billed, the enabled configurations
(`findTrafficBillingConfig`), and the `trafficMultiplier` of the tunnels and the forward groups. -/
structure BillingSettings where
  trafficBillingEnabled : Bool
  configs : Resource → Option TrafficBillingConfig
  trafficMultiplier : Resource → Option Int

/-- The tables that billing writes. `trafficStats` is the sum of the `traffic_stats` rows of a
rule (`getHistoricalRuleTrafficBytes`); the usage rows are unique by user and resource, those
of the rules by rule and resource. -/
structure BillingDb where
  accounts : Accounts
  trafficStats : Nat → Nat
  usage : List (UserResource × TrafficBillingUsage)
  ruleUsage : List (RuleResource × TrafficBillingRuleUsage)
  unique : (Assoc.keys ruleUsage).Nodup

/-! ## Prices -/

/-- `a || b` of two numbers. -/
def numberOr (a b : Int) : Int := if a = 0 then b else a

/-- `normalizeTrafficMultiplier` of a whole number. -/
def normalizeTrafficMultiplier (value : Int) : Nat := (min 5000 (max 1 value)).toNat

def configPriceMilliCents (config : Option TrafficBillingConfig) : Nat :=
  match config with
  | none => 0
  | some c =>
    let milliCents := c.pricePerGbMilliCents.toNat
    if 0 < milliCents then milliCents else c.pricePerGbCents.toNat * milliCentsPerCent

def billedFullGb (totalBytes : Nat) : Nat := totalBytes / gbBytes

/-- `Math.ceil(bytes / GB_BYTES)`. -/
def ceilGb (bytes : Nat) : Nat := (bytes + (gbBytes - 1)) / gbBytes

def effectiveAmountCentsForGb (gb pricePerGbMilliCents multiplier : Nat) : Nat :=
  gb * pricePerGbMilliCents * multiplier / billingDenominator

def effectiveAmountCentsForBytes (bytes pricePerGbMilliCents multiplier : Nat) : Nat :=
  bytes * pricePerGbMilliCents * multiplier / (gbBytes * billingDenominator)

/-- `getBillingResourceMultiplier`: a host has none of its own. -/
def getBillingResourceMultiplier (s : BillingSettings) (resource : Resource) (fallback : Int) : Nat :=
  match resource.resourceType with
  | .host => normalizeTrafficMultiplier fallback
  | .tunnel | .forwardGroup =>
    normalizeTrafficMultiplier (numberOr ((s.trafficMultiplier resource).getD 0) fallback)

/-- The multiplier that a resource with the configuration `config` is billed at. -/
def billingMultiplier (s : BillingSettings) (resource : Resource)
    (config : Option TrafficBillingConfig) : Nat :=
  getBillingResourceMultiplier s resource (numberOr ((config.map (·.multiplier)).getD 0) 100)

def trafficBillingResourceLabel : ResourceType → String
  | .host => "历史主机"
  | .tunnel => "隧道转发"
  | .forwardGroup => "转发资源"

/-- `(multiplier / 100).toFixed(2)`. -/
def multiplierText (multiplier : Nat) : String :=
  toString (multiplier / 100) ++ (if multiplier % 100 < 10 then ".0" else ".") ++
    toString (multiplier % 100)

/-! ## Billing a report -/

/-- The arguments of `billTrafficUsage`. -/
structure BillInput where
  userId : Nat
  ruleId : Nat
  bytes : Nat
  resource : Resource
  deriving DecidableEq, Repr

/-- `lockTrafficBillingUserRows` finds the user; it looks for none without an id. -/
def lockTrafficBillingUserRows (db : BillingDb) (userId : Nat) : Bool :=
  userId = 0 || (db.accounts.balances.lookup userId).isSome

/-- The bytes and the billed GB that a report is added to: the row of the rule, or the traffic of
a rule that was not billed by rules before, which counts as billed with its last GB rounded up. -/
def previousRuleUsage (db : BillingDb) (input : BillInput) : Nat × Nat :=
  match db.ruleUsage.lookup ⟨input.ruleId, input.resource⟩ with
  | some row => (row.totalBytes, row.billedGb)
  | none =>
    let hasAnyRuleUsage := db.ruleUsage.any (fun e => e.1.ruleId = input.ruleId)
    let historicalRuleBytes :=
      if hasAnyRuleUsage ∨ db.usage.lookup ⟨input.userId, input.resource⟩ = none then 0
      -- the report is in the statistics already
      else db.trafficStats input.ruleId - input.bytes
    (historicalRuleBytes, ceilGb historicalRuleBytes)

/-- `newlyBilledGb`: the full GB that a report completes. -/
def newlyBilledGb (db : BillingDb) (input : BillInput) : Nat :=
  billedFullGb ((previousRuleUsage db input).1 + input.bytes) - (previousRuleUsage db input).2

/-- The two usage rows after a report. -/
def writeUsage (db : BillingDb) (input : BillInput) : BillingDb :=
  let usage := (db.usage.lookup ⟨input.userId, input.resource⟩).getD ⟨0, 0⟩
  let previous := previousRuleUsage db input
  let nextRuleBytes := previous.1 + input.bytes
  { db with
    usage := Assoc.put db.usage ⟨input.userId, input.resource⟩
      ⟨usage.totalBytes + input.bytes, usage.billedGb + newlyBilledGb db input⟩
    ruleUsage := Assoc.put db.ruleUsage ⟨input.ruleId, input.resource⟩
      ⟨input.userId, nextRuleBytes, max previous.2 (billedFullGb nextRuleBytes), false⟩
    unique := Assoc.nodup_put db.unique _ _ }

/-- What `billTrafficUsage` asks to be charged. -/
def billCharge (db : BillingDb) (input : BillInput) (pricePerGbMilliCents multiplier : Nat) :
    ChargeInput :=
  { userId := input.userId
    ruleId := input.ruleId
    resource := input.resource
    bytes := input.bytes
    billedGb := newlyBilledGb db input
    amountCents := effectiveAmountCentsForGb (newlyBilledGb db input) pricePerGbMilliCents multiplier
    pricePerGbMilliCents := pricePerGbMilliCents
    multiplier := multiplier
    description := "流量计费：" ++ trafficBillingResourceLabel input.resource.resourceType ++ " #" ++
      toString input.resource.resourceId ++ " 新增 " ++ toString (newlyBilledGb db input) ++ "GB x " ++
      multiplierText multiplier }

def billTrafficUsage (s : BillingSettings) (db : BillingDb) (input : BillInput) (now : Int) :
    Except String (Option Charged × BillingDb) :=
  if input.bytes = 0 then .ok (none, db)
  else if s.trafficBillingEnabled = false then .ok (none, db)
  else
    let config := s.configs input.resource
    let pricePerGbMilliCents := configPriceMilliCents config
    if config = none ∨ pricePerGbMilliCents = 0 then .ok (none, db)
    else if lockTrafficBillingUserRows db input.userId = false then .error "User not found"
    else
      let multiplier := billingMultiplier s input.resource config
      let written := writeUsage db input
      if newlyBilledGb db input = 0 then .ok (none, written)
      else
        let charge := insertTrafficBillingCharge written.accounts
          (billCharge db input pricePerGbMilliCents multiplier) now
        .ok (charge.1, { written with accounts := charge.2 })

/-- The report route adds a report to the statistics and then bills it. -/
def insertTrafficStat (db : BillingDb) (ruleId bytes : Nat) : BillingDb :=
  { db with trafficStats := Function.update db.trafficStats ruleId (db.trafficStats ruleId + bytes) }

def reportTraffic (s : BillingSettings) (db : BillingDb) (input : BillInput) (now : Int) :
    Except String (Option Charged × BillingDb) :=
  billTrafficUsage s (insertTrafficStat db input.ruleId input.bytes) input now

/-- The reports of a rule one after the other, each with its bytes and time, and the cents
charged for them. -/
def reportAll (s : BillingSettings) (userId ruleId : Nat) (resource : Resource) :
    BillingDb → List (Nat × Int) → Except String (Nat × BillingDb)
  | db, [] => .ok (0, db)
  | db, (bytes, now) :: reports => do
    let (charged, db) ← reportTraffic s db ⟨userId, ruleId, bytes, resource⟩ now
    let (amountCents, db) ← reportAll s userId ruleId resource db reports
    return ((charged.map (·.amountCents)).getD 0 + amountCents, db)

/-! ## What a sequence of reports charges -/

/-- The bytes and the billed GB that the next report of a rule is added to. -/
def ruleBase (db : BillingDb) (userId ruleId : Nat) (resource : Resource) : Nat × Nat :=
  match db.ruleUsage.lookup ⟨ruleId, resource⟩ with
  | some row => (row.totalBytes, row.billedGb)
  | none =>
    let hasAnyRuleUsage := db.ruleUsage.any (fun e => e.1.ruleId = ruleId)
    let historicalRuleBytes :=
      if hasAnyRuleUsage ∨ db.usage.lookup ⟨userId, resource⟩ = none then 0
      else db.trafficStats ruleId
    (historicalRuleBytes, ceilGb historicalRuleBytes)

/-- The GB that each report completes. -/
def completedGbs : Nat × Nat → List Nat → List Nat
  | _, [] => []
  | base, n :: ns =>
    (billedFullGb (base.1 + n) - base.2) ::
      completedGbs (base.1 + n, max base.2 (billedFullGb (base.1 + n))) ns

/-- The full GB completed over a whole sequence of reports with `bytes` in all. -/
def completedGb (base : Nat × Nat) (bytes : Nat) : Nat :=
  if bytes = 0 then 0 else billedFullGb (base.1 + bytes) - base.2

theorem billedFullGb_mono {m n : Nat} (h : m ≤ n) : billedFullGb m ≤ billedFullGb n :=
  Nat.div_le_div_right h

theorem completedGbs_sum (base : Nat × Nat) {ns : List Nat} (hpos : ∀ n ∈ ns, 0 < n) :
    (completedGbs base ns).sum = completedGb base ns.sum := by
  induction ns generalizing base with
  | nil => rfl
  | cons n ns ih =>
    have hn : 0 < n := hpos n List.mem_cons_self
    have hmono : billedFullGb (base.1 + n) ≤ billedFullGb (base.1 + n + ns.sum) :=
      billedFullGb_mono (Nat.le_add_right _ _)
    have hne : ¬ n + ns.sum = 0 := by omega
    rw [completedGbs, List.sum_cons, ih _ (fun m hm => hpos m (List.mem_cons_of_mem _ hm)),
      List.sum_cons, completedGb, completedGb, if_neg hne]
    dsimp only
    rw [← Nat.add_assoc]
    by_cases hz : ns.sum = 0
    · rw [if_pos hz, hz]
      rfl
    · rw [if_neg hz]
      omega

theorem previousRuleUsage_insertTrafficStat (db : BillingDb) (input : BillInput) :
    previousRuleUsage (insertTrafficStat db input.ruleId input.bytes) input
      = ruleBase db input.userId input.ruleId input.resource := by
  unfold previousRuleUsage ruleBase insertTrafficStat
  dsimp only
  rw [Function.update_self, Nat.add_sub_cancel]

/-- The two usage rows of a rule and its user after reports of `bytes` in all. -/
def usageAfter (db : BillingDb) (userId ruleId : Nat) (resource : Resource) (bytes : Nat) :
    Option TrafficBillingUsage × Option TrafficBillingRuleUsage :=
  let usage := (db.usage.lookup ⟨userId, resource⟩).getD ⟨0, 0⟩
  let base := ruleBase db userId ruleId resource
  if bytes = 0 then (db.usage.lookup ⟨userId, resource⟩, db.ruleUsage.lookup ⟨ruleId, resource⟩)
  else (some ⟨usage.totalBytes + bytes, usage.billedGb + completedGb base bytes⟩,
    some ⟨userId, base.1 + bytes, max base.2 (billedFullGb (base.1 + bytes)), false⟩)

section
variable {s : BillingSettings} {resource : Resource} (hen : s.trafficBillingEnabled = true)
  (hconfig : s.configs resource ≠ none) (hprice : configPriceMilliCents (s.configs resource) ≠ 0)
include hen hconfig hprice

theorem reportTraffic_billed {db : BillingDb} {userId : Nat} (ruleId : Nat) {bytes : Nat}
    (hbytes : 0 < bytes) (huser : (db.accounts.balances.lookup userId).isSome = true) (now : Int) :
    ∃ charged db', reportTraffic s db ⟨userId, ruleId, bytes, resource⟩ now = .ok (charged, db') ∧
      (charged.map (·.amountCents)).getD 0 =
        effectiveAmountCentsForGb (completedGb (ruleBase db userId ruleId resource) bytes)
          (configPriceMilliCents (s.configs resource))
          (billingMultiplier s resource (s.configs resource)) ∧
      (db'.usage.lookup ⟨userId, resource⟩, db'.ruleUsage.lookup ⟨ruleId, resource⟩) =
        usageAfter db userId ruleId resource bytes ∧
      (db'.accounts.balances.lookup userId).isSome = true := by
  have hne : bytes ≠ 0 := Nat.ne_of_gt hbytes
  have hbase := previousRuleUsage_insertTrafficStat db ⟨userId, ruleId, bytes, resource⟩
  dsimp only at hbase
  have hnewly : newlyBilledGb (insertTrafficStat db ruleId bytes) ⟨userId, ruleId, bytes, resource⟩ =
      completedGb (ruleBase db userId ruleId resource) bytes := by
    unfold newlyBilledGb completedGb
    rw [hbase, if_neg hne]
  have hlock : ¬ lockTrafficBillingUserRows (insertTrafficStat db ruleId bytes) userId = false := by
    simp [lockTrafficBillingUserRows, insertTrafficStat, huser]
  have hrows : ((writeUsage (insertTrafficStat db ruleId bytes)
        ⟨userId, ruleId, bytes, resource⟩).usage.lookup ⟨userId, resource⟩,
      (writeUsage (insertTrafficStat db ruleId bytes)
        ⟨userId, ruleId, bytes, resource⟩).ruleUsage.lookup ⟨ruleId, resource⟩) =
      usageAfter db userId ruleId resource bytes := by
    unfold writeUsage usageAfter
    dsimp only
    rw [Assoc.lookup_put_self, Assoc.lookup_put_self, hnewly, hbase, if_neg hne]
    rfl
  unfold reportTraffic billTrafficUsage
  dsimp only
  rw [if_neg hne, if_neg (by simp [hen]), if_neg (by simp [hconfig, hprice]), if_neg hlock]
  by_cases hzero : newlyBilledGb (insertTrafficStat db ruleId bytes)
      ⟨userId, ruleId, bytes, resource⟩ = 0
  · rw [if_pos hzero]
    refine ⟨_, _, rfl, ?_, hrows, huser⟩
    rw [← hnewly, hzero]
    simp [effectiveAmountCentsForGb]
  · rw [if_neg hzero]
    refine ⟨_, _, rfl, ?_, hrows, ?_⟩
    · rw [insertTrafficBillingCharge_amount huser, ← hnewly]
      rfl
    · rw [insertTrafficBillingCharge_users]
      exact huser

theorem reportAll_billed {userId : Nat} (ruleId : Nat) {reports : List (Nat × Int)}
    (hpos : ∀ r ∈ reports, 0 < r.1) {db : BillingDb}
    (huser : (db.accounts.balances.lookup userId).isSome = true) :
    ∃ db', reportAll s userId ruleId resource db reports =
        .ok (((completedGbs (ruleBase db userId ruleId resource) (reports.map Prod.fst)).map
          (fun gb => effectiveAmountCentsForGb gb (configPriceMilliCents (s.configs resource))
            (billingMultiplier s resource (s.configs resource)))).sum, db') ∧
      (db'.usage.lookup ⟨userId, resource⟩, db'.ruleUsage.lookup ⟨ruleId, resource⟩) =
        usageAfter db userId ruleId resource (reports.map Prod.fst).sum := by
  induction reports generalizing db with
  | nil => exact ⟨db, rfl, rfl⟩
  | cons r reports ih =>
    obtain ⟨bytes, now⟩ := r
    have hbytes : 0 < bytes := hpos _ List.mem_cons_self
    obtain ⟨charged, db₁, hreport, hamount, hrows₁, huser₁⟩ :=
      reportTraffic_billed hen hconfig hprice ruleId hbytes huser now
    obtain ⟨db₂, hrest, hrows₂⟩ := ih (fun r hr => hpos r (List.mem_cons_of_mem _ hr)) huser₁
    have hne : bytes ≠ 0 := Nat.ne_of_gt hbytes
    -- the rule's row is there now, and the rest goes on from it
    rw [usageAfter, if_neg hne, Prod.mk.injEq] at hrows₁
    have hbase : ruleBase db₁ userId ruleId resource =
        ((ruleBase db userId ruleId resource).1 + bytes, max (ruleBase db userId ruleId resource).2
          (billedFullGb ((ruleBase db userId ruleId resource).1 + bytes))) := by
      rw [ruleBase, hrows₁.2]
    refine ⟨db₂, ?_, ?_⟩
    · rw [reportAll, hreport]
      dsimp only [bind, Except.bind]
      rw [hrest, hbase]
      dsimp only [pure, Except.pure]
      rw [hamount, List.map_cons, completedGbs, List.map_cons, List.sum_cons, completedGb, if_neg hne]
    · rw [hrows₂, List.map_cons, List.sum_cons]
      unfold usageAfter
      rw [hbase, hrows₁.1, hrows₁.2, if_neg (show ¬ bytes + (reports.map Prod.fst).sum = 0 by omega)]
      have hmono : billedFullGb ((ruleBase db userId ruleId resource).1 + bytes) ≤
          billedFullGb ((ruleBase db userId ruleId resource).1 + bytes +
            (reports.map Prod.fst).sum) := billedFullGb_mono (Nat.le_add_right _ _)
      by_cases hz : (reports.map Prod.fst).sum = 0
      · rw [if_pos hz, hz]
        rfl
      · rw [if_neg hz]
        simp only [Option.getD_some, completedGb, if_neg hne, if_neg hz, ← Nat.add_assoc,
          if_neg (show ¬ bytes + (reports.map Prod.fst).sum = 0 by omega)]
        congr 3 <;> omega

end

def newUser : BillingDb := ⟨⟨[(1, 1000)], [], []⟩, fun _ => 0, [], [], List.nodup_nil⟩

section
variable {s : BillingSettings} {resource : Resource}

theorem reportAll_free (hprice : configPriceMilliCents (s.configs resource) = 0) (userId ruleId : Nat)
    (reports : List (Nat × Int)) (db : BillingDb) :
    ∃ db', reportAll s userId ruleId resource db reports = .ok (0, db') ∧
      db'.usage = db.usage ∧ db'.ruleUsage = db.ruleUsage := by
  induction reports generalizing db with
  | nil => exact ⟨db, rfl, rfl, rfl⟩
  | cons r reports ih =>
    obtain ⟨bytes, now⟩ := r
    obtain ⟨db', hrest, husage, hrule⟩ := ih (insertTrafficStat db ruleId bytes)
    have hreport : reportTraffic s db ⟨userId, ruleId, bytes, resource⟩ now =
        .ok (none, insertTrafficStat db ruleId bytes) := by
      unfold reportTraffic billTrafficUsage
      simp [hprice]
    refine ⟨db', ?_, husage, hrule⟩
    rw [reportAll, hreport]
    dsimp only [bind, Except.bind]
    rw [hrest]
    rfl

/-- The reports are charged what their full GB cost together. -/
def ChargedInFull (s : BillingSettings) (userId ruleId : Nat) (resource : Resource) (db : BillingDb)
    (reports : List (Nat × Int)) : Prop :=
  ∃ db', reportAll s userId ruleId resource db reports =
    .ok (effectiveAmountCentsForGb
      (completedGb (ruleBase db userId ruleId resource) (reports.map Prod.fst).sum)
      (configPriceMilliCents (s.configs resource))
      (billingMultiplier s resource (s.configs resource)), db')

/-- What the reports drop: of the price of the GB that each completes, what is below a cent. -/
def droppedFractions (base : Nat × Nat) (price : Nat) (ns : List Nat) : Nat :=
  ((completedGbs base ns).map (fun gb => gb * price % billingDenominator)).sum

theorem reportAll_amount (hen : s.trafficBillingEnabled = true) (hconfig : s.configs resource ≠ none)
    {userId : Nat} (ruleId : Nat) {reports : List (Nat × Int)} (hpos : ∀ r ∈ reports, 0 < r.1)
    {db : BillingDb} (huser : (db.accounts.balances.lookup userId).isSome = true) :
    ∃ db', reportAll s userId ruleId resource db reports =
      .ok (((completedGbs (ruleBase db userId ruleId resource) (reports.map Prod.fst)).map
        (fun gb => effectiveAmountCentsForGb gb (configPriceMilliCents (s.configs resource))
          (billingMultiplier s resource (s.configs resource)))).sum, db') := by
  by_cases hprice : configPriceMilliCents (s.configs resource) = 0
  · obtain ⟨db', hall, -⟩ := reportAll_free hprice userId ruleId reports db
    refine ⟨db', ?_⟩
    rw [hall, hprice]
    simp [effectiveAmountCentsForGb]
  · obtain ⟨db', hall, -⟩ := reportAll_billed hen hconfig hprice ruleId hpos huser
    exact ⟨db', hall⟩

/-- Charging the GB of each report on its own gives what they cost together exactly when what is
dropped stays below a cent. -/
theorem effectiveAmountCents_sum_iff (base : Nat × Nat) {ns : List Nat} (hpos : ∀ n ∈ ns, 0 < n)
    (p m : Nat) :
    ((completedGbs base ns).map (fun gb => effectiveAmountCentsForGb gb p m)).sum =
        effectiveAmountCentsForGb (completedGb base ns.sum) p m ↔
      droppedFractions base (p * m) ns < billingDenominator := by
  have hiff := Tally.floors_eq_iff (D := billingDenominator) (by decide)
    ((completedGbs base ns).map (fun gb => gb * (p * m)))
  rw [List.map_map, List.map_map, List.sum_map_mul_right, List.map_id', completedGbs_sum base hpos]
    at hiff
  have hfloor : ∀ gb, effectiveAmountCentsForGb gb p m = gb * (p * m) / billingDenominator := by
    intro gb
    rw [effectiveAmountCentsForGb, Nat.mul_assoc]
  simp only [hfloor, droppedFractions]
  exact hiff

theorem chargedInFull_iff (hen : s.trafficBillingEnabled = true) (hconfig : s.configs resource ≠ none)
    {userId : Nat} (ruleId : Nat) {reports : List (Nat × Int)} (hpos : ∀ r ∈ reports, 0 < r.1)
    {db : BillingDb} (huser : (db.accounts.balances.lookup userId).isSome = true) :
    ChargedInFull s userId ruleId resource db reports ↔
      droppedFractions (ruleBase db userId ruleId resource)
        (configPriceMilliCents (s.configs resource) *
          billingMultiplier s resource (s.configs resource))
        (reports.map Prod.fst) < billingDenominator := by
  have hpos' : ∀ n ∈ reports.map Prod.fst, 0 < n := by
    intro n hn
    obtain ⟨r, hr, rfl⟩ := List.mem_map.mp hn
    exact hpos r hr
  obtain ⟨db', hall⟩ := reportAll_amount hen hconfig ruleId hpos huser
  rw [← effectiveAmountCents_sum_iff _ hpos', ChargedInFull, hall]
  constructor
  · rintro ⟨db'', h⟩
    exact (Prod.mk.inj (Except.ok.inj h)).1
  · intro h
    exact ⟨db', by rw [h]⟩

theorem completedGbs_replicate (gb k : Nat) :
    completedGbs (gb * gbBytes, gb) (List.replicate k gbBytes) = List.replicate k 1 := by
  induction k generalizing gb with
  | zero => rfl
  | succ k ih =>
    have hnext : gb * gbBytes + gbBytes = (gb + 1) * gbBytes := by ring
    have hfull : billedFullGb (gb * gbBytes + gbBytes) = gb + 1 := by
      rw [hnext]
      exact Nat.mul_div_cancel _ (by decide)
    rw [List.replicate_succ, List.replicate_succ, completedGbs]
    dsimp only
    rw [hfull, Nat.add_sub_cancel_left, Nat.max_eq_right (Nat.le_succ gb), hnext, ih]

/-- Charging `billingDenominator` reports of one GB each in full takes a price that is a whole
number of cents for each GB. -/
theorem dvd_of_droppedFractions {price : Nat}
    (h : droppedFractions (0, 0) price (List.replicate billingDenominator gbBytes) <
      billingDenominator) : billingDenominator ∣ price := by
  have hgbs := completedGbs_replicate 0 billingDenominator
  rw [Nat.zero_mul] at hgbs
  rw [droppedFractions, hgbs, List.map_replicate, List.sum_replicate_nat, Nat.one_mul] at h
  apply Nat.dvd_of_mod_eq_zero
  by_contra hne
  have := Nat.le_mul_of_pos_right billingDenominator (Nat.pos_of_ne_zero hne)
  omega

theorem droppedFractions_eq_zero {price : Nat} (h : billingDenominator ∣ price) (base : Nat × Nat)
    (ns : List Nat) : droppedFractions base price ns = 0 := by
  unfold droppedFractions
  apply List.sum_eq_zero
  intro n hn
  obtain ⟨gb, -, rfl⟩ := List.mem_map.mp hn
  exact Nat.mod_eq_zero_of_dvd (h.mul_left gb)

/-- The charge of a billed resource. However the same bytes are cut into reports, the usage rows
end the same; the reports are charged what their full GB cost together exactly when what
they drop stays below a cent; and that is so of every rule and every way to cut its traffic
exactly when the price of a GB at the multiplier is a whole number of cents. -/
theorem charge_of_splits (hen : s.trafficBillingEnabled = true) (hconfig : s.configs resource ≠ none) :
    (∀ db userId ruleId (xs ys : List (Nat × Int)),
      (db.accounts.balances.lookup userId).isSome = true → (∀ r ∈ xs, 0 < r.1) → (∀ r ∈ ys, 0 < r.1) →
      (xs.map Prod.fst).sum = (ys.map Prod.fst).sum →
      ∃ ax dx ay dy, reportAll s userId ruleId resource db xs = .ok (ax, dx) ∧
        reportAll s userId ruleId resource db ys = .ok (ay, dy) ∧
        dx.usage.lookup ⟨userId, resource⟩ = dy.usage.lookup ⟨userId, resource⟩ ∧
        dx.ruleUsage.lookup ⟨ruleId, resource⟩ = dy.ruleUsage.lookup ⟨ruleId, resource⟩) ∧
    (∀ db userId ruleId (xs : List (Nat × Int)),
      (db.accounts.balances.lookup userId).isSome = true → (∀ r ∈ xs, 0 < r.1) →
      (ChargedInFull s userId ruleId resource db xs ↔
        droppedFractions (ruleBase db userId ruleId resource)
          (configPriceMilliCents (s.configs resource) *
            billingMultiplier s resource (s.configs resource))
          (xs.map Prod.fst) < billingDenominator)) ∧
    ((∀ db userId ruleId (xs : List (Nat × Int)),
      (db.accounts.balances.lookup userId).isSome = true → (∀ r ∈ xs, 0 < r.1) →
      ChargedInFull s userId ruleId resource db xs) ↔
        billingDenominator ∣ configPriceMilliCents (s.configs resource) *
          billingMultiplier s resource (s.configs resource)) := by
  refine ⟨?_, fun db userId ruleId xs huser hpos => chargedInFull_iff hen hconfig ruleId hpos huser, ?_⟩
  · intro db userId ruleId xs ys huser hxs hys hsum
    by_cases hprice : configPriceMilliCents (s.configs resource) = 0
    · obtain ⟨dx, hx, hux, hrx⟩ := reportAll_free hprice userId ruleId xs db
      obtain ⟨dy, hy, huy, hry⟩ := reportAll_free hprice userId ruleId ys db
      exact ⟨0, dx, 0, dy, hx, hy, by rw [hux, huy], by rw [hrx, hry]⟩
    · obtain ⟨dx, hx, hrowsx⟩ := reportAll_billed hen hconfig hprice ruleId hxs huser
      obtain ⟨dy, hy, hrowsy⟩ := reportAll_billed hen hconfig hprice ruleId hys huser
      rw [hsum, ← hrowsy, Prod.mk.injEq] at hrowsx
      exact ⟨_, dx, _, dy, hx, hy, hrowsx⟩
  · constructor
    · intro h
      -- a new rule of a user, and reports of one GB each
      have hpos : ∀ r ∈ List.replicate billingDenominator (gbBytes, (0 : Int)), 0 < r.1 := by
        intro r hr
        rw [List.eq_of_mem_replicate hr]
        exact Nat.zero_lt_succ _
      have hbase : ruleBase newUser 1 7 resource = (0, 0) := by simp [ruleBase, newUser, ceilGb]
      have hnew := h newUser 1 7 _ rfl hpos
      rw [chargedInFull_iff hen hconfig 7 hpos rfl, hbase, List.map_replicate] at hnew
      exact dvd_of_droppedFractions hnew
    · intro hdvd db userId ruleId xs huser hpos
      rw [chargedInFull_iff hen hconfig ruleId hpos huser, droppedFractions_eq_zero hdvd]
      decide

end

def halfCentSettings : BillingSettings :=
  { trafficBillingEnabled := true
    configs := fun _ => some ⟨1, 1500, 100⟩
    trafficMultiplier := fun _ => none }

theorem charge_of_splits_half_cent :
    ¬ ChargedInFull halfCentSettings 1 7 ⟨.tunnel, 2⟩ newUser [(gbBytes, 0), (gbBytes, 1)] := by
  have hiff := (@charge_of_splits halfCentSettings ⟨.tunnel, 2⟩ rfl (by decide)).2.1
    newUser 1 7 [(gbBytes, 0), (gbBytes, 1)] rfl (by decide)
  rw [hiff]
  decide

/-- Two GB at a cent and a half each: three cents in one report, two in two. -/
theorem charge_depends_on_split :
    (∃ d, reportAll halfCentSettings 1 7 ⟨.tunnel, 2⟩ newUser [(2 * gbBytes, 0)] = .ok (3, d)) ∧
    (∃ d, reportAll halfCentSettings 1 7 ⟨.tunnel, 2⟩ newUser [(gbBytes, 0), (gbBytes, 1)] =
      .ok (2, d)) :=
  ⟨⟨_, rfl⟩, ⟨_, rfl⟩⟩

end ForwardX.Panel
