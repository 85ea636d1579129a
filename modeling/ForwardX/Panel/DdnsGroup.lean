import ForwardX.Lib.Transition
import ForwardX.Panel.DdnsRecords

/- The DNS of one forward group (`forwardGroupRepository.ts`): what an evaluation of the
   group does with the value it selected. The evaluations of a group run one at a time
   (`withKeyedTaskLock`) and read its row again under the lock, so one evaluation is one
   step over the row, the remembered signature and the provider's records. What else an
   evaluation looks at (the members, their liveness before and after a provider request,
   the provider's replies) is its input. -/
namespace ForwardX.Panel.Ddns

/-! ## The state of a group -/

/-- `lastStatus`. -/
inductive GroupStatus
  | unknown | healthy | down | error
  deriving DecidableEq, Repr

/-- What does not change in the row of the group and in the settings. -/
structure GroupConfig where
  js : Runtime
  domain : String
  recordType : ForwardGroupRecordType
  /-- `ddnsSettings.enabled`, with a provider other than `disabled` -/
  ddnsEnabled : Bool
  ddnsAutoResolveEnabled : Bool

/-- The rest of the row, the group's entry in `exactDdnsReconciledGroups`, and the
provider's records of its domain. -/
structure GroupState where
  activeMemberId : Option Nat
  lastDdnsValue : Option String
  lastStatus : GroupStatus
  exactDdnsReconciled : Option String
  records : Records

/-- `String(group.lastDdnsValue || "")`. -/
def GroupState.lastValue (s : GroupState) : String := s.lastDdnsValue.getD ""

/-- What an evaluation came to. `skipped` is the return that takes the provider's records to
be `value` already, `aborted` the one after a changed liveness. -/
inductive Outcome
  | settled
  | skipped (value : String)
  | aborted
  | committed (value : String)
  | threw
  deriving DecidableEq, Repr

def exactDdnsSignature (g : GroupConfig) (value : String) : String :=
  g.js.toLowerCase (jsTrim g.domain) ++ "|" ++ g.recordType.name ++ "|" ++ value

def exactDdnsReconciliationDue (g : GroupConfig) (s : GroupState) (value : String) : Bool :=
  s.exactDdnsReconciled ≠ some (exactDdnsSignature g value)

def rememberExactDdnsReconciliation (g : GroupConfig) (s : GroupState) (value : String) : GroupState :=
  { s with exactDdnsReconciled := some (exactDdnsSignature g value) }

/-- The end of `syncEntryGroupDdns` and of `syncSingleForwardGroupDdns`: the provider's
update, the second look at the liveness, and the commit. -/
def commitDdns (g : GroupConfig) (s : GroupState) (activeMemberId : Option Nat) (values : List String)
    (stillCurrent : Bool) (reply : ForwardGroupRecordType → Reply) : GroupState × Outcome :=
  let update := updateForwardGroupDdnsRecordValues g.js g.recordType s.records values reply
  let updated := { s with records := update.1 }
  if ¬ update.2 then ({ updated with lastStatus := .error }, .threw)
  else if ¬ stillCurrent then (updated, .aborted)
  else
    ({ rememberExactDdnsReconciliation g updated (joinValues values) with
        activeMemberId := activeMemberId
        lastDdnsValue := some (joinValues values)
        lastStatus := .healthy }, .committed (joinValues values))

/-! ## Keeping the records without a healthy member -/

/-- An enabled member: whether its host is excluded by its traffic, and `memberDdnsValue`,
none where that throws. -/
structure DdnsMember where
  trafficExcluded : Bool
  value : Option String
  deriving DecidableEq, Repr

/-- What `preserveForwardGroupDdns` reads. -/
structure Preserving where
  /-- `getTrafficExcludedHostIds` -/
  quotaExcluded : List Nat
  members : List DdnsMember
  deriving DecidableEq, Repr

/-- The first value of each family of a stored value. -/
def previousFallback (g : GroupConfig) (lastValue : String) : String :=
  joinValues ((forwardGroupDdnsRecordSets g.js g.recordType
    (splitForwardGroupDdnsValues lastValue)).flatMap fun record => record.values.take 1)

def forwardGroupDdnsFallbackValue (g : GroupConfig) (s : GroupState) (members : List DdnsMember) : String :=
  let previous := previousFallback g s.lastValue
  if previous ≠ "" then previous
  else ((members.map fun m => m.value.getD "").find? (· ≠ "")).getD ""

/-- The stored addresses that belong to a member whose host is not excluded. -/
def retainedValues (s : GroupState) (allowed : List String) : List String :=
  ((splitCommas s.lastValue).map jsTrim).filter fun v =>
    v ≠ "" && (allowed.flatMap splitForwardGroupDdnsValues).contains v

/-- The values of the members whose hosts are not excluded; none if one of them throws. -/
def Preserving.allowed (p : Preserving) : Option (List String) :=
  (p.members.filter fun m => !m.trafficExcluded).mapM DdnsMember.value

def Preserving.quota (p : Preserving) : Bool :=
  !p.quotaExcluded.isEmpty && p.members.any DdnsMember.trafficExcluded

/-- A value that is stored as null where it is empty is read back as it was. -/
theorem orNull_getD (value : String) : (if value = "" then none else some value : Option String).getD "" = value := by
  split
  next hempty => exact hempty.symm
  next => rfl

/-- The branch of `preserveForwardGroupDdns` for exhausted hosts. A provider update that
throws leaves through the caller, and nothing is written. -/
def preserveForQuota (g : GroupConfig) (s : GroupState) (retained : List String)
    (reply : ForwardGroupRecordType → Reply) : GroupState × Outcome :=
  let update :=
    if g.ddnsEnabled && g.ddnsAutoResolveEnabled then
      updateForwardGroupDdnsRecordValues g.js g.recordType s.records retained reply
    else (s.records, true)
  let updated := { s with records := update.1 }
  if ¬ update.2 then (updated, .threw)
  else
    ({ updated with
        activeMemberId := none
        lastDdnsValue := if joinValues retained = "" then none else some (joinValues retained)
        lastStatus := .down }, .settled)

/-- The end of `preserveForwardGroupDdns`: the update to one retained value, and its commit. -/
def holdDdns (g : GroupConfig) (s : GroupState) (value : String) (reply : ForwardGroupRecordType → Reply) :
    GroupState × Outcome :=
  let update := updateForwardGroupDdnsRecordValues g.js g.recordType s.records [value] reply
  let updated := { s with records := update.1 }
  if ¬ update.2 then ({ updated with activeMemberId := none, lastStatus := .error }, .threw)
  else
    ({ rememberExactDdnsReconciliation g updated value with
        lastDdnsValue := some value
        lastStatus := .down }, .committed value)

def preserveForwardGroupDdns (g : GroupConfig) (s : GroupState) (p : Preserving) (forceSync : Bool)
    (reply : ForwardGroupRecordType → Reply) : GroupState × Outcome :=
  if p.quota then
    match p.allowed with
    | none => (s, .threw)
    | some allowed => preserveForQuota g s (retainedValues s allowed) reply
  else
    let retainedValue := forwardGroupDdnsFallbackValue g s p.members
    let shouldReconcile := forceSync || (retainedValue ≠ "" && exactDdnsReconciliationDue g s retainedValue)
    if ¬ g.ddnsEnabled then
      ({ s with
          lastDdnsValue := if retainedValue ≠ "" then some retainedValue
            else if s.lastValue ≠ "" then some s.lastValue else none
          lastStatus := .down }, .settled)
    else if retainedValue = "" then ({ s with lastStatus := .down }, .settled)
    else if ¬ shouldReconcile then
      ({ s with lastDdnsValue := some retainedValue, lastStatus := .down }, .skipped retainedValue)
    else holdDdns g s retainedValue reply

/-! ## Evaluations -/

/-- What the member loop of `syncEntryGroupDdns` hands on. -/
structure EntrySelection where
  values : List String
  activeMemberId : Option Nat
  trafficExcludedMemberCount : Nat
  pendingAgentHealth : Bool
  deriving DecidableEq, Repr

/-- `agentSelectionStillCurrent`, each of the three times it is asked. -/
structure EntryChecks where
  atStart : Bool
  beforeUpdate : Bool
  afterUpdate : Bool
  deriving DecidableEq, Repr

/-- The selection of an entry group stays as it is until some health is known. -/
def EntrySelection.waits (sel : EntrySelection) (s : GroupState) : Bool :=
  sel.trafficExcludedMemberCount = 0 && sel.pendingAgentHealth &&
    (sel.values.isEmpty || joinValues sel.values = jsTrim s.lastValue)

/-- `syncEntryGroupDdns` after its member loop. -/
def syncEntryGroupDdns (g : GroupConfig) (s : GroupState) (sel : EntrySelection) (p : Preserving)
    (forceSync : Bool) (check : EntryChecks) (reply : ForwardGroupRecordType → Reply) :
    GroupState × Outcome :=
  let joined := joinValues sel.values
  if sel.waits s then ({ s with lastStatus := .unknown }, .settled)
  else if jsTrim g.domain = "" then ({ s with lastStatus := .error }, .settled)
  else if ¬ check.atStart then (s, .aborted)
  else if sel.values.isEmpty then
    if ¬ g.ddnsAutoResolveEnabled then
      ({ s with activeMemberId := none, lastStatus := .down }, .settled)
    else preserveForwardGroupDdns g s p forceSync reply
  else if ¬ g.ddnsAutoResolveEnabled ∨ ¬ g.ddnsEnabled then
    ({ s with
        activeMemberId := sel.activeMemberId
        lastDdnsValue := some joined
        lastStatus := .healthy }, .settled)
  else if ¬ forceSync ∧ s.lastValue = joined ∧ ¬ exactDdnsReconciliationDue g s joined then
    ({ s with lastStatus := .healthy }, .skipped joined)
  else if ¬ check.beforeUpdate then (s, .aborted)
  else commitDdns g s sel.activeMemberId sel.values check.afterUpdate reply

/-- `syncSingleForwardGroupDdns`; `beforeCommit` is asked before and after the update. -/
def syncSingleForwardGroupDdns (g : GroupConfig) (s : GroupState) (memberId : Option Nat) (value : String)
    (forceSync beforeCommit afterUpdate : Bool) (reply : ForwardGroupRecordType → Reply) :
    GroupState × Outcome :=
  if ¬ beforeCommit then (s, .aborted)
  else if ¬ g.ddnsEnabled then
    ({ s with activeMemberId := memberId, lastDdnsValue := some value, lastStatus := .healthy }, .settled)
  else if ¬ forceSync ∧ s.activeMemberId = memberId ∧ s.lastValue = value ∧
      ¬ exactDdnsReconciliationDue g s value then
    ({ s with lastStatus := .healthy }, .skipped value)
  else commitDdns g s memberId [value] afterUpdate reply

/-- One evaluation of the group, with all that it reads. -/
inductive Evaluation
  | entry (sel : EntrySelection) (p : Preserving) (forceSync : Bool) (check : EntryChecks)
      (reply : ForwardGroupRecordType → Reply)
  | single (memberId : Option Nat) (value : String) (forceSync beforeCommit afterUpdate : Bool)
      (reply : ForwardGroupRecordType → Reply)
  | preserve (p : Preserving) (forceSync : Bool) (reply : ForwardGroupRecordType → Reply)

def evaluate (g : GroupConfig) (s : GroupState) : Evaluation → GroupState × Outcome
  | .entry sel p forceSync check reply => syncEntryGroupDdns g s sel p forceSync check reply
  | .single memberId value forceSync beforeCommit afterUpdate reply =>
    syncSingleForwardGroupDdns g s memberId value forceSync beforeCommit afterUpdate reply
  | .preserve p forceSync reply => preserveForwardGroupDdns g s p forceSync reply

def evaluations (g : GroupConfig) : Transition.Steps GroupState Evaluation :=
  Transition.Steps.ofFn fun s e => some (evaluate g s e).1

end ForwardX.Panel.Ddns
