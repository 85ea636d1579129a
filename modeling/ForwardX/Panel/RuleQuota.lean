import Mathlib.Data.List.Dedup
import ForwardX.Lib.Tally
import ForwardX.Panel.KeyedTaskLock

/- Reservations of a user's quota of rules and ports (`ruleQuotaReservations.ts`). Under the lock of
   the user a creator counts the rules and ports there are, adds what is reserved, and reserves one
   more of each kind that is limited. Counting takes time: it finds at least what was there when it
   started. A release takes the same lock. -/
namespace ForwardX.Panel.RuleQuota
open Transition Assoc
open KeyedTaskLock (State Call)

structure Rule where
  userId : Int
  hostId : Int
  sourcePort : Int
  deriving DecidableEq

def ruleCount (rules : List Rule) (userId : Int) : Nat := (rules.filter (fun r => r.userId == userId)).length
def portCount (rules : List Rule) (userId : Int) : Nat :=
  ((rules.filter (fun r => r.userId == userId)).map Rule.sourcePort).dedup.length

structure PendingQuota where
  rules : Int
  ports : Int
  deriving DecidableEq

structure Limits where
  maxRules : Int
  maxPorts : Int

def Limits.rules (l : Limits) : Int := max 0 l.maxRules
def Limits.ports (l : Limits) : Int := max 0 l.maxPorts

def Limits.Unlimited (l : Limits) : Prop := l.rules = 0 ∧ l.ports = 0

instance (l : Limits) : Decidable l.Unlimited := inferInstanceAs (Decidable (l.rules = 0 ∧ l.ports = 0))

def Limits.one (l : Limits) : PendingQuota := ⟨if 0 < l.rules then 1 else 0, if 0 < l.ports then 1 else 0⟩

def quotaKey (userId : Int) : String := "rule-create-quota:" ++ toString userId

/-- Why one more is refused. -/
def quotaError (l : Limits) (ruleCount portCount : Int) (pending : PendingQuota) : Option String :=
  if 0 < l.rules ∧ l.rules ≤ ruleCount + pending.rules then
    some ("您已达到最大规则数量限制（" ++ toString l.rules ++ " 条）")
  else if 0 < l.ports ∧ l.ports ≤ portCount + pending.ports then
    some ("您已达到最大端口数量限制（" ++ toString l.ports ++ " 个）")
  else none

/-- What a release leaves of the pending quotas. -/
def dropPending (pendingByUser : List (Int × PendingQuota)) (userId : Int) (l : Limits) : List (Int × PendingQuota) :=
  match pendingByUser.lookup userId with
  | none => pendingByUser
  | some current =>
    let next : PendingQuota := ⟨max 0 (current.rules - l.one.rules), max 0 (current.ports - l.one.ports)⟩
    if next.rules = 0 ∧ next.ports = 0 then erase pendingByUser userId else put pendingByUser userId next

/-- How far a creator is with its quota: its call waits for the lock; it counts, with the pending
quota it read and what was there when it started; it holds a reservation; its release waits for the
lock; it has released; it was refused, with the message where a limit is reached. -/
inductive QuotaStage where
  | idle
  | waiting (call : Nat)
  | counting (call : Nat) (pending : PendingQuota) (rules ports : Nat)
  | granted
  | releasing (call : Nat)
  | released
  | refused (error : Option String)
  deriving DecidableEq

def QuotaStage.call : QuotaStage → Option Nat
  | .waiting call | .counting call _ _ _ | .releasing call => some call
  | .idle | .granted | .released | .refused _ => none

def QuotaStage.counts : QuotaStage → Bool
  | .counting _ _ _ _ => true
  | _ => false

def QuotaStage.held : QuotaStage → Bool
  | .granted | .releasing _ => true
  | _ => false

/-- A creator: its user, how far it is, and whether it has inserted its rule. -/
structure QuotaClient where
  userId : Int
  stage : QuotaStage
  inserted : Bool
  deriving DecidableEq

structure QuotaState where
  lock : State
  pendingByUser : List (Int × PendingQuota)
  clients : List QuotaClient
  deriving DecidableEq

def QuotaState.initial : QuotaState := ⟨State.initial, [], []⟩

namespace QuotaState

/-- Creator `k` is at another stage. -/
def toStage (s : QuotaState) (k : Nat) (c : QuotaClient) (stage : QuotaStage) : QuotaState :=
  { s with clients := s.clients.set k { c with stage := stage } }

def pendingOf (s : QuotaState) (userId : Int) : PendingQuota := (s.pendingByUser.lookup userId).getD ⟨0, 0⟩

/-- `reserveRuleCreateQuota`, up to the lock. -/
def reserveRuleCreateQuota (s : QuotaState) (l : Limits) (k : Nat) (c : QuotaClient) : QuotaState :=
  if l.Unlimited then s.toStage k c .granted
  else { s.toStage k c (.waiting s.lock.calls.length) with lock := s.lock.withKeyedTaskLock (quotaKey c.userId) [] }

/-- The counts are there, or one of them failed. -/
def counted (s : QuotaState) (l : Limits) (k : Nat) (c : QuotaClient) (pending : PendingQuota)
    (counts : Option (Int × Int)) : QuotaState :=
  match counts with
  | none => s.toStage k c (.refused none)
  | some (ruleCount, portCount) =>
    match quotaError l (if 0 < l.rules then ruleCount else 0) (if 0 < l.ports then portCount else 0) pending with
    | some error => s.toStage k c (.refused (some error))
    | none => { s.toStage k c .granted with
        pendingByUser := put s.pendingByUser c.userId ⟨pending.rules + l.one.rules, pending.ports + l.one.ports⟩ }

/-- `release`, up to the lock; a second one does nothing. -/
def release (s : QuotaState) (l : Limits) (k : Nat) (c : QuotaClient) : QuotaState :=
  if c.stage = .granted then
    if l.Unlimited then s.toStage k c .released
    else { s.toStage k c (.releasing s.lock.calls.length) with lock := s.lock.withKeyedTaskLock (quotaKey c.userId) [] }
  else s

end QuotaState

/-- What can happen: a creator asks for a reservation, starts to count, has its counts, releases,
and its release runs; a call gets the lock; a call gives it up. -/
inductive QuotaAction where
  | reserve (k : Nat)
  | count (k : Nat)
  | counted (k : Nat) (counts : Option (Int × Int))
  | release (k : Nat)
  | drop (k : Nat)
  | proceed (call : Nat)
  | leave (call : Nat)

def Reflects (l : Limits) (rules ports : Nat) (counts : Option (Int × Int)) : Prop :=
  ∀ c ∈ counts, (0 < l.rules → (rules : Int) ≤ c.1) ∧ (0 < l.ports → (ports : Int) ≤ c.2)

instance (l : Limits) (rules ports : Nat) (counts : Option (Int × Int)) : Decidable (Reflects l rules ports counts) :=
  inferInstanceAs (Decidable (∀ c ∈ counts, (0 < l.rules → (rules : Int) ≤ c.1) ∧ (0 < l.ports → (ports : Int) ≤ c.2)))

def QuotaState.start (s : QuotaState) (userId : Int) : QuotaState :=
  { s with clients := s.clients ++ [⟨userId, .idle, false⟩] }

/-- One step, with the rules there are. -/
def QuotaState.step (limits : Int → Limits) (rules : List Rule) (s : QuotaState) : QuotaAction → Option QuotaState
  | .reserve k => s.clients[k]?.bind fun c =>
    if c.stage = .idle then some (s.reserveRuleCreateQuota (limits c.userId) k c) else none
  | .count k => s.clients[k]?.bind fun c =>
    match c.stage with
    | .waiting call =>
      if s.lock.calls[call]?.any Call.active then
        some (s.toStage k c (.counting call (s.pendingOf c.userId) (ruleCount rules c.userId) (portCount rules c.userId)))
      else none
    | _ => none
  | .counted k counts => s.clients[k]?.bind fun c =>
    match c.stage with
    | .counting call pending rules ports =>
      if Reflects (limits c.userId) rules ports counts then
        (KeyedTaskLock.step s.lock (.settle call counts.isNone)).map fun lock =>
          { s.counted (limits c.userId) k c pending counts with lock := lock }
      else none
    | _ => none
  | .release k => s.clients[k]?.bind fun c =>
    if c.stage.held ∨ c.stage = .released then some (s.release (limits c.userId) k c) else none
  | .drop k => s.clients[k]?.bind fun c =>
    match c.stage with
    | .releasing call => (KeyedTaskLock.step s.lock (.settle call false)).map fun lock =>
      { s.toStage k c .released with
        lock := lock, pendingByUser := dropPending s.pendingByUser c.userId (limits c.userId) }
    | _ => none
  | .proceed call => (KeyedTaskLock.step s.lock (.proceed call)).map fun lock => { s with lock := lock }
  | .leave call => (KeyedTaskLock.step s.lock (.release call)).map fun lock => { s with lock := lock }

/-- A creator that holds a reservation inserts its rule. -/
def QuotaState.insert (s : QuotaState) (k : Nat) : Option QuotaState :=
  s.clients[k]?.bind fun c =>
    if c.stage = .granted ∧ c.inserted = false then some { s with clients := s.clients.set k { c with inserted := true } }
    else none

end ForwardX.Panel.RuleQuota
