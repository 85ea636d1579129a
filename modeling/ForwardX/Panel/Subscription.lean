import Mathlib.Data.List.Sort
import ForwardX.Panel.PortBlocks
import ForwardX.Panel.TrafficCycle

/- The life of a subscription (`billingRepository.ts`): grant and renewal, extension, a new
   expiry date, cancellation, expiry, and the purchase of traffic add-ons. Each function is
   one transaction under the lock of its user; what throws leaves the database as it was. -/
namespace ForwardX.Panel

def addSubscriptionDays (base : Int) (days : Nat) : Int := base + days * 24 * 3600 * 1000

/-! ## Grant and renewal -/

/-- The arguments of `applySubscriptionToUser`, and the traffic limit that the entitlements of
the user are found to give afterwards. -/
structure ApplyInput where
  userId : Nat
  planId : Nat
  source : SubscriptionSource
  paymentOrderNo : Option String
  overrideDurationDays : Option Nat
  targetSubscriptionId : Option Nat
  trafficLimit : Nat
  deriving DecidableEq, Repr

/-- What `applySubscriptionToUser` returns. -/
structure ApplyResult where
  subscriptionId : Nat
  portRangeStart : Option Nat
  portRangeEnd : Option Nat
  expiresAt : Option Int
  extended : Bool
  deriving DecidableEq, Repr

def ApplyInput.paidWith (input : ApplyInput) : Option String :=
  if input.source = .payment then input.paymentOrderNo else none

/-- The order that a grant is paid with, as the transaction reads it again. -/
def checkPaymentOrder (db : Db) (input : ApplyInput) (outTradeNo : String) : Except String PaymentOrder :=
  match getPaymentOrderByOutTradeNo db outTradeNo with
  | none => .error "套餐订单不匹配"
  | some order =>
    if order.planId ≠ some input.planId ∨ order.userId ≠ input.userId then .error "套餐订单不匹配"
    else if order.status ≠ .paid ∧ order.status ≠ .processing ∧ order.status ≠ .completed then
      .error "套餐订单尚未支付"
    else .ok order

/-- The subscription that an order was already applied to. -/
def existingSubscription (db : Db) (order : PaymentOrder) : Option UserSubscription :=
  match order.status, order.subscriptionId with
  | .completed, some id => getUserSubscriptionById db id
  | _, _ => getUserSubscriptionByPaymentOrderNo db order.outTradeNo

def isUserRenewableSubscriptionSource : SubscriptionSource → Bool
  | .payment | .balance => true
  | .admin | .redeem => false

/-- The checks of a renewal. -/
def renewalTarget (db : Db) (input : ApplyInput) (targetSubscriptionId : Nat) :
    Except String UserSubscription :=
  match getUserSubscriptionById db targetSubscriptionId with
  | none => .error "订阅不存在或无权操作"
  | some s =>
    if s.userId ≠ input.userId then .error "订阅不存在或无权操作"
    else if s.planId ≠ input.planId then .error "续费套餐与目标订阅不一致"
    else if s.status = .cancelled then .error "已取消的订阅不能续费"
    else if !isUserRenewableSubscriptionSource s.source then
      .error "管理员分配的套餐不能自行续费，请联系管理员处理"
    else if !isUserRenewableSubscriptionSource input.source then .error "当前来源不支持用户续费"
    else .ok s

/-- The expiry date of a renewed subscription. -/
def renewedExpiresAt (s : UserSubscription) (durationDays : Nat) (now : Int) : Option Int :=
  match s.expiresAt.map fromDriver with
  | none => none
  | some currentExpiresAt =>
    if 0 < durationDays then
      some (addSubscriptionDays (if now < currentExpiresAt then currentExpiresAt else now) durationDays)
    else none

/-- The next reset of a renewed subscription. -/
def renewedTrafficReset (user : Option User) (plan : SubscriptionPlan) (s : UserSubscription)
    (expiresAt : Option Int) (now : Int) : Option Int :=
  if 0 < plan.trafficLimit then
    match user.filter (·.trafficAutoReset), s.nextTrafficResetAt.map fromDriver with
    | some user, _ =>
      boundTrafficResetAt (nextConfiguredSubscriptionTrafficReset user (fromDriver s.startedAt)
        (s.lastTrafficResetAt.map fromDriver) now expiresAt) expiresAt
    | none, some next =>
      if now < next then boundTrafficResetAt (some next) expiresAt
      else boundTrafficResetAt (nextBillingMonthlyTrafficReset now expiresAt) expiresAt
    | none, none =>
      match s.expiresAt.map fromDriver, expiresAt with
      | some currentExpiresAt, some e =>
        if now < currentExpiresAt ∧ currentExpiresAt < e then
          boundTrafficResetAt (some currentExpiresAt) expiresAt
        else boundTrafficResetAt (nextBillingMonthlyTrafficReset now expiresAt) expiresAt
      | _, _ => boundTrafficResetAt (nextBillingMonthlyTrafficReset now expiresAt) expiresAt
  else none

def keepsBlock (plan : SubscriptionPlan) (s : UserSubscription) : Bool :=
  plan.portCount ≠ 0 && s.portRangeStart.getD 0 ≠ 0 && s.portRangeEnd.getD 0 ≠ 0

/-- The row of a renewed subscription. -/
def renewedRow (input : ApplyInput) (plan : SubscriptionPlan) (expiresAt nextTrafficResetAt : Option Int)
    (portRangeStart portRangeEnd : Option Nat) (s : UserSubscription) : UserSubscription :=
  { s with
    status             := .active
    expiresAt          := expiresAt.map toDriver
    nextTrafficResetAt := nextTrafficResetAt.map toDriver
    planSnapshot       := some (buildPlanSnapshot plan)
    paymentOrderNo     := input.paymentOrderNo <|> s.paymentOrderNo
    portRangeStart     := portRangeStart
    portRangeEnd       := portRangeEnd }

/-- The block of a renewed subscription: its own, or one that is allocated now. -/
def renewedBlock (db : Db) (plan : SubscriptionPlan) (s : UserSubscription) (now : Int) :
    Option (Option Nat × Option Nat) :=
  if keepsBlock plan s then some (s.portRangeStart, s.portRangeEnd)
  else findAvailableSubscriptionPortBlock db plan.portCount plan.hostIds plan.tunnelIds
    plan.forwardGroupIds now

/-- The branch of `applySubscriptionToUserUnlocked` that renews. -/
def renewSubscription (db : Db) (input : ApplyInput) (plan : SubscriptionPlan) (s : UserSubscription)
    (now : Int) : Except String (ApplyResult × Db) :=
  let expiresAt := renewedExpiresAt s (input.overrideDurationDays.getD plan.durationDays) now
  let nextTrafficResetAt := renewedTrafficReset (getUserById db input.userId) plan s expiresAt now
  match renewedBlock db plan s now with
  | none => .error "套餐可用端口不足，无法分配连续端口段"
  | some (portRangeStart, portRangeEnd) =>
    let db := updateUserSubscription db s.id
      (renewedRow input plan expiresAt nextTrafficResetAt portRangeStart portRangeEnd)
    let db := updateActiveTrafficAddonCycleEnd db s.id nextTrafficResetAt expiresAt
    let db := syncUserSubscriptionEntitlements db input.userId now input.trafficLimit
    .ok (⟨s.id, portRangeStart, portRangeEnd, expiresAt, true⟩,
      logEvent db (.renewed s.id input.paidWith))

/-- The stock of a new subscription: that of its order when it has one. -/
def reserveGrantStock (db : Db) (input : ApplyInput) (order : Option PaymentOrder) : Except String Db :=
  match order with
  | some order =>
    if order.stockReserved then .ok db
    else (reservePlanStock db input.planId).map
      (fun db => setPaymentOrder db order.outTradeNo (fun o => { o with stockReserved := true }))
  | none => reservePlanStock db input.planId

def resetUserTraffic (db : Db) (userId : Nat) (now : Int) : Db :=
  updateUser db userId (fun u => { u with trafficUsed := 0, lastTrafficReset := some (toDriver now) })

/-- The row of a new subscription. -/
def grantedRow (db : Db) (input : ApplyInput) (plan : SubscriptionPlan) (expiresAt nextTrafficResetAt : Option Int)
    (portRangeStart portRangeEnd : Option Nat) (now : Int) : UserSubscription :=
  { id                 := Rows.fresh (·.id) db.subscriptions
    userId             := input.userId
    planId             := input.planId
    status             := .active
    source             := input.source
    paymentOrderNo     := input.paymentOrderNo
    planSnapshot       := some (buildPlanSnapshot plan)
    portRangeStart     := portRangeStart
    portRangeEnd       := portRangeEnd
    nextTrafficResetAt := nextTrafficResetAt.map toDriver
    lastTrafficResetAt := none
    startedAt          := toDriver now
    expiresAt          := expiresAt.map toDriver }

def grantedExpiresAt (durationDays : Nat) (now : Int) : Option Int :=
  if 0 < durationDays then some (addSubscriptionDays now durationDays) else none

/-- The next reset of a new subscription. -/
def grantedTrafficReset (user : Option User) (plan : SubscriptionPlan) (expiresAt : Option Int) (now : Int) :
    Option Int :=
  if 0 < plan.trafficLimit then
    match user.filter (·.trafficAutoReset) with
    | some user => nextConfiguredSubscriptionTrafficReset user now none now expiresAt
    | none => nextBillingMonthlyTrafficReset now expiresAt
  else none

/-- The branch of `applySubscriptionToUserUnlocked` that makes a new subscription. -/
def grantSubscription (db : Db) (input : ApplyInput) (plan : SubscriptionPlan) (order : Option PaymentOrder)
    (now : Int) : Except String (ApplyResult × Db) :=
  let user := getUserById db input.userId
  let hadActiveSubscription := !(getActiveUserSubscriptions db input.userId now).isEmpty
  match reserveGrantStock db input order with
  | .error e => .error e
  | .ok db =>
    match findAvailableSubscriptionPortBlock db plan.portCount plan.hostIds plan.tunnelIds
      plan.forwardGroupIds now with
    | none => .error "套餐可用端口不足，无法分配连续端口段"
    | some (portRangeStart, portRangeEnd) =>
      let expiresAt := grantedExpiresAt (input.overrideDurationDays.getD plan.durationDays) now
      let subscription := grantedRow db input plan expiresAt (grantedTrafficReset user plan expiresAt now)
        portRangeStart portRangeEnd now
      let db := { db with subscriptions := db.subscriptions ++ [subscription] }
      let db := syncUserSubscriptionEntitlements db input.userId now input.trafficLimit
      let overLimit := user.any (fun u => u.trafficLimit ≤ u.trafficUsed && 0 < u.trafficLimit)
      let db :=
        if !hadActiveSubscription && overLimit then
          syncUserSubscriptionEntitlements (resetUserTraffic db input.userId now) input.userId now
            input.trafficLimit
        else db
      .ok (⟨subscription.id, portRangeStart, portRangeEnd, expiresAt, false⟩,
        logEvent db (.granted subscription.id input.paidWith))

/-- The checks of the plan. -/
def usablePlan (db : Db) (planId : Nat) : Except String SubscriptionPlan :=
  match getSubscriptionPlanById db planId with
  | none => .error "套餐不存在"
  | some plan =>
    if !plan.isActive then .error "套餐已停用"
    else if plan.hostIds.isEmpty && plan.tunnelIds.isEmpty && plan.forwardGroupIds.isEmpty then
      .error "套餐未绑定任何端口转发、隧道、转发链或转发组"
    else .ok plan

/-- `applySubscriptionToUserUnlocked` behind the check of the order. -/
def applyPlan (db : Db) (input : ApplyInput) (order : Option PaymentOrder) (now : Int) :
    Except String (ApplyResult × Db) :=
  match usablePlan db input.planId with
  | .error e => .error e
  | .ok plan =>
    match input.targetSubscriptionId with
    | none => grantSubscription db input plan order now
    | some id =>
      match renewalTarget db input id with
      | .error e => .error e
      | .ok s => renewSubscription db input plan s now

def applySubscriptionToUser (db : Db) (input : ApplyInput) (now : Int) : Except String (ApplyResult × Db) :=
  match input.paidWith with
  | none => applyPlan db input none now
  | some outTradeNo =>
    match checkPaymentOrder db input outTradeNo with
    | .error e => .error e
    | .ok order =>
      match existingSubscription db order with
      | none => applyPlan db input (some order) now
      | some existing =>
        if existing.userId ≠ input.userId ∨ existing.planId ≠ input.planId then .error "套餐订单不匹配"
        else .ok (⟨existing.id, existing.portRangeStart, existing.portRangeEnd,
          existing.expiresAt.map fromDriver, input.targetSubscriptionId.isSome⟩, db)

/-! ## Changes of the expiry date -/

structure ExpiryChange where
  id : Nat
  userId : Nat
  expiresAt : Option Int
  nextTrafficResetAt : Option Int
  trafficLimit : Nat
  deriving DecidableEq, Repr

/-- What both changes write: the row, and the end of the cycle of its add-ons. -/
def writeExpiry (db : Db) (id : Nat) (status : SubscriptionStatus) (expiresAt nextTrafficResetAt : Option Int) :
    Db :=
  updateActiveTrafficAddonCycleEnd
    (updateUserSubscription db id (fun s => { s with
      status             := status
      expiresAt          := expiresAt.map toDriver
      nextTrafficResetAt := nextTrafficResetAt.map toDriver })) id nextTrafficResetAt expiresAt

/-- The next reset of a subscription that gets a new expiry date. -/
def rescheduledTrafficReset (db : Db) (s : UserSubscription) (expiresAt : Option Int) (now : Int) : Option Int :=
  if 0 < subscriptionTrafficLimit db s then
    match (getUserById db s.userId).filter (·.trafficAutoReset) with
    | some user => boundTrafficResetAt (nextConfiguredSubscriptionTrafficReset user
        (fromDriver s.startedAt) (s.lastTrafficResetAt.map fromDriver) now expiresAt) expiresAt
    | none =>
      match boundTrafficResetAt ((s.nextTrafficResetAt.map fromDriver).filter (fun n => now < n)) expiresAt with
      | some next => some next
      | none => boundTrafficResetAt (nextBillingMonthlyTrafficReset now expiresAt) expiresAt
  else none

def setUserSubscriptionExpiresAt (db : Db) (id : Nat) (expiresAt : Option Int) (trafficLimit : Nat)
    (now : Int) : Except String (ExpiryChange × Db) :=
  match getUserSubscriptionById db id with
  | none => .error "订阅不存在"
  | some s =>
    if s.status = .cancelled then .error "已取消的订阅不能更改到期时间"
    else
      let expired := expiresAt.any (fun e => e ≤ now)
      let nextTrafficResetAt := if expired then none else rescheduledTrafficReset db s expiresAt now
      let db := writeExpiry db id (if expired then .expired else .active) expiresAt nextTrafficResetAt
      let db := if expired then expireTrafficAddonsForSubscription db id now else db
      .ok (⟨id, s.userId, expiresAt, nextTrafficResetAt, trafficLimit⟩,
        syncUserSubscriptionEntitlements db s.userId now trafficLimit)

/-- The next reset of a subscription that is extended. -/
def extendedTrafficReset (db : Db) (s : UserSubscription) (expiresAt : Option Int) (now : Int) : Option Int :=
  if 0 < subscriptionTrafficLimit db s then
    match (getUserById db s.userId).filter (·.trafficAutoReset) with
    | some user => boundTrafficResetAt (nextConfiguredSubscriptionTrafficReset user
        (fromDriver s.startedAt) (s.lastTrafficResetAt.map fromDriver) now expiresAt) expiresAt
    | none =>
      match (s.nextTrafficResetAt.map fromDriver).filter (fun n => now < n) with
      | some next => boundTrafficResetAt (some next) expiresAt
      | none => boundTrafficResetAt (nextBillingMonthlyTrafficReset now expiresAt) expiresAt
  else none

def extendedExpiresAt (currentExpiresAt : Int) (days : Int) (now : Int) : Int :=
  addSubscriptionDays (if now < currentExpiresAt then currentExpiresAt else now) days.toNat

def extendUserSubscription (db : Db) (id : Nat) (days : Int) (trafficLimit : Nat) (now : Int) :
    Except String (ExpiryChange × Db) :=
  if days ≤ 0 then .error "延长天数必须大于 0"
  else
    match getUserSubscriptionById db id with
    | none => .error "订阅不存在"
    | some s =>
      if s.status = .cancelled then .error "已取消的订阅不能延长"
      else
        match s.expiresAt.map fromDriver with
        | none => .error "永久订阅无需延长"
        | some currentExpiresAt =>
          let expiresAt := some (extendedExpiresAt currentExpiresAt days now)
          let nextTrafficResetAt := extendedTrafficReset db s expiresAt now
          .ok (⟨id, s.userId, expiresAt, nextTrafficResetAt, trafficLimit⟩,
            syncUserSubscriptionEntitlements (writeExpiry db id .active expiresAt nextTrafficResetAt)
              s.userId now trafficLimit)

def cancelUserSubscription (db : Db) (id : Nat) (trafficLimit : Nat) (now : Int) : Except String Db :=
  match getUserSubscriptionById db id with
  | none => .error "订阅不存在"
  | some s =>
    let db := updateUserSubscription db id (fun s => { s with status := .cancelled })
    let db := expireTrafficAddonsForSubscription db id now
    .ok (syncUserSubscriptionEntitlements db s.userId now trafficLimit)

def UserSubscription.pastExpiry (s : UserSubscription) (now : Int) : Bool :=
  s.status = .active && s.expiresAt.any (fun e => e ≤ toDriver now)

/-- The transaction of `expireUserSubscriptions` for one user. -/
def expireUserSubscriptions (db : Db) (userId : Nat) (trafficLimit : Nat) (now : Int) : Db :=
  let ids := (db.subscriptions.filter (fun s => s.userId = userId && s.pastExpiry now)).map (·.id)
  let db := { db with subscriptions := db.subscriptions.map (fun s =>
    if s.userId = userId && s.pastExpiry now then { s with status := .expired } else s) }
  let db := expireDueTrafficAddons db userId now
  let db := updateTrafficAddons db (fun a => a.status = .active && ids.contains a.subscriptionId) (·.expire now)
  -- `expireInvalidTrafficAddonsForUser`
  let db := updateTrafficAddons db (fun a => a.userId = userId && a.status = .active &&
    db.subscriptions.any (fun s => s.id = a.subscriptionId && !s.isActiveAt now)) (·.expire now)
  syncUserSubscriptionEntitlements db userId now trafficLimit

/-! ## Traffic add-ons -/

def getTrafficAddonCycleEnd (s : UserSubscription) (now : Int) : Int :=
  match (s.nextTrafficResetAt.map fromDriver).filter (fun n => now < n) with
  | some next => next
  | none =>
    match (s.expiresAt.map fromDriver).filter (fun e => now < e) with
    | some expiresAt => expiresAt
    | none => billingStartOfCalendarDay (billingAddMonthsClamped now 1)

def pickActiveFiniteTrafficSubscription (db : Db) (activeSubscriptions : List UserSubscription)
    (planId : Nat) (subscriptionId : Option Nat) (now : Int) : Option UserSubscription :=
  let matched := activeSubscriptions.filter (fun s => s.planId = planId &&
    subscriptionId.all (fun id => s.id = id) && 0 < subscriptionTrafficLimit db s)
  (matched.insertionSort (fun a b => getTrafficAddonCycleEnd a now ≤ getTrafficAddonCycleEnd b now)).head?

/-- The transaction of `purchaseTrafficAddonWithBalance`: the add-on that it inserts, and the
database after it. -/
def insertPurchasedAddon (db : Db) (userId addonId : Nat) (subscriptionId : Option Nat)
    (description : String) (trafficLimit : Nat) (now : Int) : Except String (UserTrafficAddon × Db) :=
  let db := expireDueTrafficAddons db userId now
  match Rows.find (·.id) db.planTrafficAddons addonId with
  | none => .error "流量包不可购买"
  | some addon =>
    if !addon.isActive || addon.trafficBytes = 0 then .error "流量包不可购买"
    else if ((getSubscriptionPlanById db addon.planId).map (·.trafficLimit)).getD 0 = 0 then
      .error "不限流量套餐无需购买流量包"
    else
      match pickActiveFiniteTrafficSubscription db (getActiveUserSubscriptions db userId now) addon.planId
        subscriptionId now with
      | none => .error "当前没有可购买流量包的生效套餐"
      | some s =>
        if (db.accounts.balances.lookup userId).getD 0 < addon.priceCents then .error "余额不足"
        else
          let charged :=
            if 0 < addon.priceCents then
              addUserBalance db.accounts userId (-(addon.priceCents : Rat))
                ⟨"traffic_addon_purchase", some description, none, none, none⟩ (toDriver now)
            else .ok db.accounts
          match charged with
          | .error e => .error e
          | .ok accounts =>
            let cycleEnd := some (toDriver (getTrafficAddonCycleEnd s now))
            let row : UserTrafficAddon :=
              { id             := Rows.fresh (·.id) db.trafficAddons
                userId         := userId
                subscriptionId := s.id
                planId         := addon.planId
                addonId        := some addon.id
                trafficBytes   := addon.trafficBytes
                priceCents     := addon.priceCents
                status         := .active
                cycleResetAt   := cycleEnd
                expiresAt      := cycleEnd
                createdAt      := toDriver now
                expiredAt      := none }
            let db := { db with accounts := accounts, trafficAddons := db.trafficAddons ++ [row] }
            .ok (row, syncUserSubscriptionEntitlements db userId now trafficLimit)

/-- `purchaseTrafficAddonWithBalance`: the boundaries that are due are settled first, whether
the purchase succeeds or not. -/
def purchaseTrafficAddonWithBalance (db : Db) (userId addonId : Nat) (subscriptionId : Option Nat)
    (description : String) (trafficLimit : Nat) (now : Int) : Except String UserTrafficAddon × Db :=
  let db := rechargeSubscriptionTrafficCyclesForUser db userId now
  match insertPurchasedAddon db userId addonId subscriptionId description trafficLimit now with
  | .error e => (.error e, db)
  | .ok (row, db) => (.ok row, db)

end ForwardX.Panel
