import ForwardX.Lib.Transition
import ForwardX.Lib.Assoc

/- The status reports of actions, from the agent's queue (`action_status.go`) to the order
   guard of the panel (`agentStatusOrdering.ts`).

   The agent keeps the latest report of each key and the order in which keys are sent. Its
   reporter takes a batch, posts it in groups, and puts the whole batch back in front when a
   post fails, whether the panel saw it or not. A request is a list of reports of which the
   panel processes each one any number of times, at any time after it was posted, and each
   one before a post succeeds. What the panel stores is the last report it accepted.

   Correspondence: a `Report` has the number `seq` of its enqueue, which the code does not
   have; `StatusKey` is what `actionStatusReportKey` formats. -/
namespace ForwardX.Agent.Status

open Transition

/-- What `strings.TrimSpace` removes. -/
def isSpace (c : Char) : Bool :=
  [9, 10, 11, 12, 13, 32, 0x85, 0xa0, 0x1680, 0x2028, 0x2029, 0x202f, 0x205f, 0x3000].contains c.toNat ||
    (0x2000 ≤ c.toNat && c.toNat ≤ 0x200a)

def trimSpace (text : String) : String :=
  String.ofList ((text.toList.dropWhile isSpace).reverse.dropWhile isSpace).reverse

structure Config where
  panelURL : String
  token : String
  deriving DecidableEq

/-- The fields of an `action` that its report reads. -/
structure Action where
  ruleID : Int
  tunnelID : Int
  statusType : String
  sourcePort : Int
  targetPort : Int
  forwardType : String
  protocol : String
  issuedAt : Int
  op : String
  configRevision : Int

/-- `actionStatusPayload`. -/
structure Payload where
  ruleID : Int
  tunnelID : Int
  statusType : String
  sourcePort : Int
  targetPort : Int
  isRunning : Bool
  message : String
  forwardType : String
  protocol : String
  issuedAt : Int
  consecutiveFailures : Int
  retryNotBefore : Int
  deriving DecidableEq

/-- The key of a report: what `actionStatusReportKey` formats. -/
inductive StatusKey
  | runtime (forwardType : String)
  | resource (statusType : String) (ruleID tunnelID sourcePort : Int)
  deriving DecidableEq

/-- `actionStatusReportKey` of a payload whose texts are trimmed. -/
def actionStatusReportKey (p : Payload) : StatusKey :=
  let statusType := if p.statusType = "" then "rule" else p.statusType
  if statusType = "runtime" then .runtime p.forwardType
  else .resource statusType p.ruleID p.tunnelID p.sourcePort

/-- `actionStatusReport` with the number of its enqueue. -/
structure Report where
  key : StatusKey
  cfg : Config
  payload : Payload
  seq : Nat
  deriving DecidableEq

/-- The payload of `enqueueActionStatusReport`; `previousFailures` are those of the desired
action's record if it matches and failed. -/
def statusPayload (a : Action) (running : Bool) (message : String) (previousFailures : Option Int)
    (retryNotBefore : Int) : Payload :=
  let statusType := if trimSpace a.statusType = "" then "rule" else trimSpace a.statusType
  let failing := !running && statusType = "rule" && trimSpace a.op = "apply" && 0 < a.configRevision
  { ruleID := a.ruleID, tunnelID := a.tunnelID, statusType, sourcePort := a.sourcePort, targetPort := a.targetPort,
    isRunning := running, message := trimSpace message, forwardType := trimSpace a.forwardType,
    protocol := trimSpace a.protocol, issuedAt := a.issuedAt,
    consecutiveFailures := if failing then previousFailures.elim 1 (fun n => min (n + 1) 1000000) else 0,
    retryNotBefore := if failing then retryNotBefore else 0 }

/-! ### The agent's queue -/

/-- `actionStatusReports`, `actionStatusReportOrder` and `actionStatusLatestIssuedAt`. -/
structure Queue where
  reports : List (StatusKey × Report)
  order : List StatusKey
  latestIssuedAt : List (StatusKey × Int)

def Queue.stale (q : Queue) (key : StatusKey) (issuedAt : Int) : Bool :=
  let latest := (q.latestIssuedAt.lookup key).getD 0
  0 < latest && (issuedAt ≤ 0 || issuedAt < latest)

/-- The rest of `enqueueActionStatusReport` for a payload that is not stale. -/
def Queue.put (q : Queue) (r : Report) : Queue where
  latestIssuedAt :=
    if (q.latestIssuedAt.lookup r.key).getD 0 < r.payload.issuedAt then
      Assoc.put q.latestIssuedAt r.key r.payload.issuedAt
    else q.latestIssuedAt
  order := if (q.reports.lookup r.key).isSome then q.order else q.order ++ [r.key]
  reports := Assoc.put q.reports r.key r

/-- The loop of `takeActionStatusReports`: the reports taken, and what is left. -/
def takeReports : Nat → List StatusKey → List (StatusKey × Report) →
    List Report × List StatusKey × List (StatusKey × Report)
  | 0, order, reports => ([], order, reports)
  | _, [], reports => ([], [], reports)
  | limit + 1, key :: order, reports =>
    match reports.lookup key with
    | none => takeReports (limit + 1) order reports
    | some report =>
      let r := takeReports limit order (Assoc.erase reports key)
      (report :: r.1, r.2)

def actionStatusBatchSize : Nat := 200

/-- The loop of `restoreActionStatusReports`, from the last report to the first: the reports
with those put back, and the keys put back. -/
def restoreReports (q : Queue) : List Report → List (StatusKey × Report) × List StatusKey
  | [] => (q.reports, [])
  | report :: rest =>
    let r := restoreReports q rest
    if q.stale report.key report.payload.issuedAt then r
    else if (r.1.lookup report.key).isSome then r
    else (Assoc.put r.1 report.key report, report.key :: r.2)

/-- `restoreActionStatusReports`. -/
def Queue.restore (q : Queue) (batch : List Report) : Queue :=
  let r := restoreReports q batch
  { q with reports := r.1, order := r.2 ++ q.order }

/-! ### The reporter -/

/-- A post that the reporter still has to make: a group of the batch, or one report of a
group that the panel does not take as a batch. -/
structure Post where
  reports : List Report
  single : Bool

/-- `sendActionStatusReports` in progress. -/
structure Sending where
  batch : List Report
  todo : List Post
  awaiting : Option (Nat × Post)

def groupKey (r : Report) : String × String := (trimSpace r.cfg.panelURL, r.cfg.token)

def groups (batch : List Report) : List Post :=
  (batch.map groupKey).eraseDups.map fun key => ⟨batch.filter fun r => groupKey r = key, false⟩

/-! ### The panel -/

def maxFutureSkewMs : Int := 5 * 60 * 1000
def statusOrderCacheMaxSize : Nat := 20000
def statusOrderCacheTtlMs : Int := 24 * 60 * 60 * 1000

/-- `normalizeAgentStatusIssuedAt` of a whole number. -/
def normalizeAgentStatusIssuedAt (issuedAt now : Int) : Int :=
  if issuedAt ≤ 0 ∨ now + maxFutureSkewMs < issuedAt then 0 else issuedAt

def agentStatusOrderingKey (hostId : Nat) (p : Payload) : String :=
  let statusType := if p.statusType = "" then (if 0 < p.ruleID then "rule" else "tunnel") else p.statusType
  let resourceId :=
    if statusType = "runtime" then (if p.forwardType = "" then "runtime" else p.forwardType)
    else if statusType = "tunnel" then toString p.tunnelID
    else toString p.ruleID
  "agent-status:" ++ toString hostId ++ ":" ++ statusType ++ ":" ++ resourceId

/-- An entry of `AgentStatusOrderGuard.latest`. -/
structure Epoch where
  issuedAt : Int
  seenAt : Int

def prune (latest : List (String × Epoch)) (now : Int) : List (String × Epoch) :=
  latest.filter fun e => !decide (statusOrderCacheTtlMs < now - e.2.seenAt)

def expect (latest : List (String × Epoch)) (key : String) (value now : Int) : List (String × Epoch) :=
  let issuedAt := normalizeAgentStatusIssuedAt value now
  if key = "" ∨ issuedAt ≤ 0 then latest
  else
    let current := ((latest.lookup key).map Epoch.issuedAt).getD 0
    let latest := Assoc.put latest key ⟨max issuedAt current, now⟩
    if statusOrderCacheMaxSize < latest.length then prune latest now else latest

/-- `accept`: the answer and the guard after it. -/
def accept (latest : List (String × Epoch)) (key : String) (value now : Int) : Bool × List (String × Epoch) :=
  let issuedAt := normalizeAgentStatusIssuedAt value now
  if key = "" ∨ issuedAt ≤ 0 then (true, latest)
  else
    match latest.lookup key with
    | none => (true, expect latest key issuedAt now)
    | some current =>
      if issuedAt < current.issuedAt then (false, latest) else (true, expect latest key issuedAt now)

/-! ### The system -/

/-- The agent, its requests and the panel, with every report that was enqueued, the parts
of requests that were processed, and what was processed in order. -/
structure System where
  queue : Queue
  sending : Option Sending
  enqueued : List Report
  nextSeq : Nat
  requests : List (List Report)
  delivered : List (Nat × Nat)
  processed : List Report
  latest : List (String × Epoch)
  stored : List (String × Report)

def System.init : System := ⟨⟨[], [], []⟩, none, [], 0, [], [], [], [], []⟩

inductive Reply
  /-- the panel answered: it has processed the request -/
  | ok
  /-- the panel has no such route -/
  | unsupported
  /-- anything else -/
  | failed

inductive StatusAct
  | enqueue (cfg : Config) (a : Action) (running : Bool) (message : String) (previousFailures : Option Int)
      (retryNotBefore : Int)
  | take
  | post
  | reply (r : Reply)
  /-- the panel processes the `part`-th report of a request -/
  | deliver (request part : Nat) (now : Int)

def System.done (s : System) (request : Nat) (post : Post) : Bool :=
  (List.range post.reports.length).all fun part => s.delivered.contains (request, part)

def System.failSending (s : System) (sending : Sending) : System :=
  { s with queue := s.queue.restore sending.batch, sending := none }

/-- The report that the panel processes, and what is stored after it. -/
def System.process (hostId : Nat) (s : System) (request part : Nat) (report : Report) (now : Int) : System :=
  let key := agentStatusOrderingKey hostId report.payload
  let r := accept s.latest key report.payload.issuedAt now
  { s with
    delivered := s.delivered ++ [(request, part)]
    processed := s.processed ++ [report]
    latest := r.2
    stored := if r.1 then Assoc.put s.stored key report else s.stored }

def System.step (hostId : Nat) (s : System) : StatusAct → Option System
  | .enqueue cfg a running message previousFailures retryNotBefore =>
    let payload := statusPayload a running message previousFailures retryNotBefore
    let report : Report := ⟨actionStatusReportKey payload, cfg, payload, s.nextSeq⟩
    if payload.issuedAt ≤ 0 then none
    else if s.queue.stale report.key payload.issuedAt then some { s with nextSeq := s.nextSeq + 1 }
    else some { s with queue := s.queue.put report, enqueued := s.enqueued ++ [report], nextSeq := s.nextSeq + 1 }
  | .take =>
    if s.sending.isSome then none
    else
      let r := takeReports actionStatusBatchSize s.queue.order s.queue.reports
      let queue := { s.queue with order := r.2.1, reports := r.2.2 }
      if r.1 = [] then some { s with queue }
      else some { s with queue, sending := some ⟨r.1, groups r.1, none⟩ }
  | .post =>
    match s.sending with
    | some ⟨batch, post :: todo, none⟩ =>
      some { s with
        requests := s.requests ++ [post.reports]
        sending := some ⟨batch, todo, some (s.requests.length, post)⟩ }
    | _ => none
  | .reply r =>
    match s.sending with
    | some ⟨batch, todo, some (request, post)⟩ =>
      match r with
      | .ok =>
        if s.done request post then
          some { s with sending := if todo = [] then none else some ⟨batch, todo, none⟩ }
        else none
      | .unsupported =>
        if post.single then some (s.failSending ⟨batch, todo, none⟩)
        else
          let singles := post.reports.map fun report => ⟨[report], true⟩
          some { s with sending := some ⟨batch, singles ++ todo, none⟩ }
      | .failed => some (s.failSending ⟨batch, todo, none⟩)
    | _ => none
  | .deliver request part now =>
    (s.requests[request]?.bind fun reports => reports[part]?).map fun report => s.process hostId request part report now

def statusSystem (hostId : Nat) : Steps System StatusAct := Steps.ofFn (System.step hostId)

/-! ### What is claimed -/

section
variable (hostId : Nat)

def Report.resource (r : Report) : String := agentStatusOrderingKey hostId r.payload

def System.storedStatus (s : System) (resource : String) : Option Report := s.stored.lookup resource

/-- Each key is in the order list exactly when a report of it is pending, and then once. -/
def OrderOk (q : Queue) : Prop :=
  q.order.Nodup ∧ ∀ key, key ∈ q.order ↔ ∃ r, q.reports.lookup key = some r

def System.Idle (s : System) : Prop := s.queue.order = [] ∧ s.sending = none

/-- The reports of a resource that share an `IssuedAt` were processed in the order they were enqueued. -/
def System.InOrder (s : System) (resource : String) : Prop :=
  s.processed.Pairwise fun r r' => r.resource hostId = resource → r'.resource hostId = resource →
    r.payload.issuedAt = r'.payload.issuedAt → r.seq ≤ r'.seq

def System.OneKey (s : System) (resource : String) : Prop :=
  ∀ r ∈ s.enqueued, ∀ r' ∈ s.enqueued, r.resource hostId = resource → r'.resource hostId = resource → r.key = r'.key

/-- What is stored is replaced by nothing older. -/
def KeepsLatest (s s' : System) : Prop :=
  ∀ resource r r', s.storedStatus resource = some r → s'.storedStatus resource = some r' →
    r.payload.issuedAt ≤ r'.payload.issuedAt ∧
    (s'.InOrder hostId resource → s'.OneKey hostId resource → r.seq ≤ r'.seq)

/-- The last of the newest reports of a resource that were enqueued. -/
def System.IsLast (s : System) (resource : String) (r : Report) : Prop :=
  r ∈ s.enqueued ∧ r.resource hostId = resource ∧ ∀ r' ∈ s.enqueued, r'.resource hostId = resource →
    r'.payload.issuedAt < r.payload.issuedAt ∨ r'.payload.issuedAt = r.payload.issuedAt ∧ r'.seq ≤ r.seq

/-- What is stored is of the newest `IssuedAt` that was enqueued, and is the last report of it if
those were processed in order. -/
def System.StoresLast (s : System) : Prop :=
  ∀ resource r, s.IsLast hostId resource r → ∃ r', s.storedStatus resource = some r' ∧
    r'.payload.issuedAt = r.payload.issuedAt ∧ (s.InOrder hostId resource → r' = r)

/-- A report is processed while its `IssuedAt` counts, and with no entry of the guard to prune. -/
def InTime (s : System) : StatusAct → Prop
  | .deliver request part now => ∀ reports report, s.requests[request]? = some reports → reports[part]? = some report →
      report.payload.issuedAt ≤ now + maxFutureSkewMs ∧
      (s.latest.length < statusOrderCacheMaxSize ∨ ∀ e ∈ s.latest, now - e.2.seenAt ≤ statusOrderCacheTtlMs)
  | _ => True

end

end ForwardX.Agent.Status
