import ForwardX.Lib.Rows
import ForwardX.Panel.Balance
import ForwardX.Panel.BillingTime

/- The tables behind plans, subscriptions, traffic add-ons and payment orders, and the
   counters of plans and discount codes. A column of type `epoch` holds seconds; the code
   compares dates in milliseconds. -/
namespace ForwardX.Panel

/-- What the `epoch` columns store of a date, and read back. -/
def toDriver (date : Int) : Int := date / 1000
def fromDriver (seconds : Int) : Int := seconds * 1000

/-! ## Rows -/

/-- A row of `users`; its balance is in `Accounts`. -/
structure User where
  id : Nat
  trafficAutoReset : Bool
  trafficResetDay : Int
  trafficUsed : Nat
  trafficLimit : Nat
  lastTrafficReset : Option Int
  lastAutoTrafficReset : Option Int
  deriving DecidableEq, Repr

/-- A row of `subscription_plans`, with the resources of the plan. -/
structure SubscriptionPlan where
  id : Nat
  isActive : Bool
  durationDays : Nat
  portCount : Nat
  trafficLimit : Nat
  stockLimit : Nat
  stockUsed : Nat
  hostIds : List Nat
  tunnelIds : List Nat
  forwardGroupIds : List Nat
  deriving DecidableEq, Repr

/-- What is used here of the snapshot that a subscription keeps of its plan. -/
structure PlanSnapshot where
  portCount : Nat
  trafficLimit : Nat
  deriving DecidableEq, Repr

def buildPlanSnapshot (plan : SubscriptionPlan) : PlanSnapshot := ⟨plan.portCount, plan.trafficLimit⟩

inductive SubscriptionStatus
  | active
  | expired
  | cancelled
  deriving DecidableEq, Repr

inductive SubscriptionSource
  | admin
  | payment
  | redeem
  | balance
  deriving DecidableEq, Repr

/-- A row of `user_subscriptions`. -/
structure UserSubscription where
  id : Nat
  userId : Nat
  planId : Nat
  status : SubscriptionStatus
  source : SubscriptionSource
  paymentOrderNo : Option String
  planSnapshot : Option PlanSnapshot
  portRangeStart : Option Nat
  portRangeEnd : Option Nat
  nextTrafficResetAt : Option Int
  lastTrafficResetAt : Option Int
  startedAt : Int
  expiresAt : Option Int
  deriving DecidableEq, Repr

inductive AddonStatus
  | active
  | expired
  deriving DecidableEq, Repr

/-- A row of `user_traffic_addons`. -/
structure UserTrafficAddon where
  id : Nat
  userId : Nat
  subscriptionId : Nat
  planId : Nat
  addonId : Option Nat
  trafficBytes : Nat
  priceCents : Nat
  status : AddonStatus
  cycleResetAt : Option Int
  expiresAt : Option Int
  createdAt : Int
  expiredAt : Option Int
  deriving DecidableEq, Repr

/-- A row of `subscription_plan_traffic_addons`. -/
structure PlanTrafficAddon where
  id : Nat
  planId : Nat
  trafficBytes : Nat
  priceCents : Nat
  isActive : Bool
  deriving DecidableEq, Repr

inductive OrderStatus
  | pending
  | paid
  | processing
  | completed
  | expired
  | failed
  | cancelled
  deriving DecidableEq, Repr

inductive OrderType
  | balance
  | plan
  | test
  deriving DecidableEq, Repr

/-- A row of `payment_orders`. -/
structure PaymentOrder where
  outTradeNo : String
  userId : Nat
  provider : String
  status : OrderStatus
  orderType : OrderType
  amountCents : Int
  currency : String
  tradeNo : Option String
  planId : Option Nat
  subscriptionId : Option Nat
  discountCodeId : Option Nat
  discountConsumed : Bool
  stockReserved : Bool
  rawNotify : Option String
  merchantIdentity : Option String
  failureReason : Option String
  expiresAt : Option Int
  paidAt : Option Int
  createdAt : Int
  updatedAt : Int
  deriving DecidableEq, Repr

/-- A row of `discount_codes`. -/
structure DiscountCode where
  id : Nat
  isActive : Bool
  startsAt : Option Int
  expiresAt : Option Int
  maxUses : Int
  usedCount : Int
  deriving DecidableEq, Repr

structure PortSource where
  id : Nat
  portRangeStart : Option Nat
  portRangeEnd : Option Nat
  deriving DecidableEq, Repr

structure ForwardRule where
  sourcePort : Nat
  isEnabled : Bool
  pendingDelete : Bool
  deriving DecidableEq, Repr

/-- What the port allocator reads of other tables: hosts, tunnels, the entry ranges that
`getForwardGroupEntryPortRange` finds for the forward groups, and the rules. -/
structure Resources where
  hosts : List PortSource
  tunnels : List PortSource
  forwardGroupEntryRanges : List (Nat × (Nat × Nat))
  forwardRules : List ForwardRule
  deriving DecidableEq, Repr

/-- What was done, in order. No function reads it. -/
inductive Event
  | granted (subscriptionId : Nat) (paymentOrderNo : Option String)
  | renewed (subscriptionId : Nat) (paymentOrderNo : Option String)
  | credited (userId : Nat) (paymentOrderNo : Option String)
  | cycleReset (userId : Nat) (boundary resetAt : Int)
  deriving DecidableEq, Repr

structure Db where
  users : List User
  plans : List SubscriptionPlan
  planTrafficAddons : List PlanTrafficAddon
  subscriptions : List UserSubscription
  trafficAddons : List UserTrafficAddon
  paymentOrders : List PaymentOrder
  discountCodes : List DiscountCode
  resources : Resources
  accounts : Accounts
  log : List Event
  deriving DecidableEq, Repr

/-! ## Reading and writing rows -/

def getUserById (db : Db) (id : Nat) : Option User := Rows.find (·.id) db.users id

def getSubscriptionPlanById (db : Db) (id : Nat) : Option SubscriptionPlan := Rows.find (·.id) db.plans id

def getUserSubscriptionById (db : Db) (id : Nat) : Option UserSubscription :=
  Rows.find (·.id) db.subscriptions id

def getUserSubscriptionByPaymentOrderNo (db : Db) (paymentOrderNo : String) : Option UserSubscription :=
  Rows.find (·.paymentOrderNo) db.subscriptions (some paymentOrderNo)

def getPaymentOrderByOutTradeNo (db : Db) (outTradeNo : String) : Option PaymentOrder :=
  Rows.find (·.outTradeNo) db.paymentOrders outTradeNo

def updateUser (db : Db) (id : Nat) (f : User → User) : Db :=
  { db with users := Rows.set (·.id) db.users id f }

def updateUserSubscription (db : Db) (id : Nat) (f : UserSubscription → UserSubscription) : Db :=
  { db with subscriptions := Rows.set (·.id) db.subscriptions id f }

def setPaymentOrder (db : Db) (outTradeNo : String) (f : PaymentOrder → PaymentOrder) : Db :=
  { db with paymentOrders := Rows.set (·.outTradeNo) db.paymentOrders outTradeNo f }

/-- `UPDATE user_traffic_addons … WHERE p`. -/
def updateTrafficAddons (db : Db) (p : UserTrafficAddon → Bool) (f : UserTrafficAddon → UserTrafficAddon) :
    Db :=
  { db with trafficAddons := db.trafficAddons.map (fun a => if p a then f a else a) }

def logEvent (db : Db) (e : Event) : Db := { db with log := db.log ++ [e] }

/-- The condition that the queries of subscriptions share: of status active, and not yet expired. -/
def UserSubscription.isActiveAt (s : UserSubscription) (now : Int) : Bool :=
  s.status = .active && (s.expiresAt.all (fun e => toDriver now < e))

/-- `getActiveUserSubscriptions`, newest first. -/
def getActiveUserSubscriptions (db : Db) (userId : Nat) (now : Int) : List UserSubscription :=
  (db.subscriptions.filter (fun s => s.isActiveAt now && s.userId = userId)).reverse

/-! ## Counters -/

def SubscriptionPlan.inStock (p : SubscriptionPlan) : Bool :=
  p.isActive && (p.stockLimit = 0 || p.stockUsed < p.stockLimit)

def reservePlanStock (db : Db) (planId : Nat) : Except String Db :=
  if db.plans.any (fun p => p.id = planId && p.inStock) then
    .ok { db with plans := Rows.set (·.id) db.plans planId (fun p =>
      if p.inStock then { p with stockUsed := p.stockUsed + 1 } else p) }
  else .error "套餐库存不足或已售罄"

def releasePlanStock (db : Db) (planId : Nat) : Db :=
  { db with plans := Rows.set (·.id) db.plans planId (fun p => { p with stockUsed := p.stockUsed - 1 }) }

/-- The discount code can be used once more. -/
def DiscountCode.usable (c : DiscountCode) (now : Int) : Bool :=
  c.isActive && c.startsAt.all (fun t => t ≤ toDriver now) && c.expiresAt.all (fun t => toDriver now < t) &&
    (c.maxUses ≤ 0 || c.usedCount < c.maxUses)

def consumeDiscountCode (db : Db) (id : Nat) (now : Int) : Except String Db :=
  if db.discountCodes.any (fun c => c.id = id && c.usable now) then
    .ok { db with discountCodes := Rows.set (·.id) db.discountCodes id (fun c =>
      if c.usable now then { c with usedCount := c.usedCount + 1 } else c) }
  else .error "折扣码已失效或使用次数已达上限"

def releaseDiscountCode (db : Db) (id : Nat) : Db :=
  { db with discountCodes := Rows.set (·.id) db.discountCodes id (fun c =>
      if 0 < c.usedCount then { c with usedCount := c.usedCount - 1 } else c) }

end ForwardX.Panel
