import Mathlib.Data.List.Sort
import ForwardX.Panel.MemberHealth

/- The evaluation of an entry group: the member loop of `syncEntryGroupDdns`, which finds out
   what each enabled member is, rewrites its windows and selects the addresses to publish.
   `assess` is what the loop does with one member. -/
namespace ForwardX.Panel.Ddns

/-! ## One member -/

/-- The state a member is found in, and the start of a failure where the loop observes one. -/
def observeMember (group : HealthSettings) (m : MemberColumns) (liveness : MemberAgentLiveness) (now : Int) :
    HealthState × Option Int :=
  let checkedAt := if group.chinaHealthCheckEnabled then m.chinaHealthCheckedAt else m.lastCheckedAt
  let current := agentHealthSampleIsCurrent liveness checkedAt
  if ¬ liveness.available then (.offline, some (liveness.failureSince.getD now))
  else
    let healthStatus :=
      if ¬ current then .pending
      else if group.chinaHealthCheckEnabled then forwardGroupChinaHealthStateAt m now
      else forwardGroupAgentHealthStateAt m now
    let expiresAt := liveness.lastOfflineAt.getD m.updatedAt + FORWARD_GROUP_AGENT_HEALTH_FRESHNESS_TTL_MS
    if healthStatus = .pending ∧ (checkedAt = none ∨ ¬ current) ∧ expiresAt ≤ now then
      (.stale, some expiresAt)
    else if healthStatus = .healthy ∨ healthStatus = .pending then (healthStatus, none)
    else
      (healthStatus, checkedAt.map fun observedAt =>
        min now (if healthStatus = .stale then observedAt + FORWARD_GROUP_AGENT_HEALTH_FRESHNESS_TTL_MS
          else observedAt))

/-- The windows of a member and whether it is published. -/
structure Window where
  failureSince : Option Int
  healthySince : Option Int
  included : Bool
  deriving DecidableEq, Repr

def wasUnhealthy (m : MemberColumns) : Bool := m.healthStatus = .unhealthy || m.failureSince.isSome

/-- The windows after an evaluation that finds the member healthy. -/
def healthyWindow (group : HealthSettings) (m : MemberColumns) (previouslyIncluded : Bool) (now : Int) :
    Window :=
  let healthySince := m.healthySince.getD now
  let recoveredLongEnough := decide (forwardGroupRecoverDelayMs group ≤ now - healthySince)
  let recoveryRequired := !previouslyIncluded && wasUnhealthy m
  { failureSince := none
    healthySince := some healthySince
    included := previouslyIncluded || !recoveryRequired || recoveredLongEnough }

/-- The start of the failure of a member that is found failing. -/
def failureStartAt (m : MemberColumns) (observed : Option Int) (now : Int) : Int :=
  let failureSince := (m.failureSince.orElse fun _ => observed).getD now
  match observed with
  | some observedAt => min observedAt failureSince
  | none => failureSince

/-- The windows after an evaluation that finds the member neither healthy nor pending. -/
def failingWindow (group : HealthSettings) (m : MemberColumns) (previouslyIncluded : Bool)
    (observed : Option Int) (now : Int) : Window :=
  let failureSince := failureStartAt m observed now
  let failedLongEnough := decide (forwardGroupFailoverDelayMs group ≤ now - failureSince)
  { failureSince := some failureSince
    healthySince := none
    included := previouslyIncluded && !failedLongEnough }

/-- The row is written where the status or a window differs from what it holds. -/
def writeWindow (m : MemberColumns) (nextHealthStatus : HealthStatus) (w : Window) (now : Int) : MemberColumns :=
  if m.healthStatus ≠ nextHealthStatus ∨ m.failureSince ≠ w.failureSince ∨ m.healthySince ≠ w.healthySince then
    { m with
      healthStatus := nextHealthStatus
      failureSince := w.failureSince.map stored
      healthySince := w.healthySince.map stored
      updatedAt := stored now }
  else m

inductive Finding
  | excluded | pending | healthy | failing
  deriving DecidableEq, Repr

structure Assessment where
  finding : Finding
  included : Bool
  columns : MemberColumns
  deriving DecidableEq, Repr

/-- One round of the member loop, for a member that has an address. -/
def assess (group : HealthSettings) (m : MemberColumns) (previouslyIncluded : Bool)
    (liveness : MemberAgentLiveness) (now : Int) : Assessment :=
  if liveness.trafficExcluded then ⟨.excluded, false, m⟩
  else
    let observed := observeMember group m liveness now
    match observed.1 with
    | .pending => ⟨.pending, previouslyIncluded, m⟩
    | .healthy =>
      let w := healthyWindow group m previouslyIncluded now
      ⟨.healthy, w.included, writeWindow m .healthy w now⟩
    | _ =>
      let w := failingWindow group m previouslyIncluded observed.2 now
      ⟨.failing, w.included, writeWindow m .unhealthy w now⟩

/-! ## The loop -/

structure EntryMember where
  id : Nat
  hostId : Nat
  priority : Int
  host : EntryHost
  deriving DecidableEq, Repr

structure EntryGroup where
  ddns : GroupConfig
  health : HealthSettings
  members : List EntryMember

def memberDdnsValue (g : EntryGroup) (m : EntryMember) : String :=
  forwardGroupDdnsHostValue g.ddns.js m.host g.ddns.recordType

def memberAddresses (g : EntryGroup) (m : EntryMember) : List String :=
  splitForwardGroupDdnsValues (memberDdnsValue g m)

/-- The group's row and the columns of its members, by their ids. -/
structure EntryState where
  group : GroupState
  columns : Nat → MemberColumns

/-- `sortedMembers(group, true)`. -/
def sortedMembers (g : EntryGroup) (columns : Nat → MemberColumns) : List EntryMember :=
  (g.members.insertionSort fun a b => a.priority ≤ b.priority).filter fun m => (columns m.id).isEnabled

def previousValues (s : GroupState) : List String := storedValues (jsTrim s.lastValue)

/-- What the loop has selected so far, and the columns it has written. -/
structure Scan where
  selection : EntrySelection
  columns : Nat → MemberColumns

def includeMember (g : EntryGroup) (selection : EntrySelection) (m : EntryMember) : EntrySelection :=
  { selection with
    values := (memberAddresses g m).foldl (fun values a => if a ∈ values then values else values ++ [a])
      selection.values
    activeMemberId := selection.activeMemberId.orElse fun _ => some m.id }

structure Look where
  now : Int
  liveness : Nat → HostLiveness
  quotaExcluded : List Nat
  forceSync : Bool

def Look.memberLiveness (look : Look) (m : EntryMember) : MemberAgentLiveness :=
  resolveMemberAgentLiveness m.hostId (some (look.liveness m.hostId)) look.now

def previouslyIncluded (g : EntryGroup) (s : GroupState) (m : EntryMember) : Bool :=
  (memberAddresses g m).any (previousValues s).contains

def assessMember (g : EntryGroup) (s : EntryState) (look : Look) (m : EntryMember) : Assessment :=
  assess g.health (s.columns m.id) (previouslyIncluded g s.group m) (look.memberLiveness m) look.now

/-- The selection after a member that was assessed. -/
def selectMember (g : EntryGroup) (selection : EntrySelection) (m : EntryMember) (a : Assessment) :
    EntrySelection :=
  let selection := if a.included then includeMember g selection m else selection
  match a.finding with
  | .excluded => { selection with trafficExcludedMemberCount := selection.trafficExcludedMemberCount + 1 }
  | .pending => { selection with pendingAgentHealth := true }
  | _ => selection

/-- The member loop. A `CNAME` group stops at its first member. -/
def scanMembers (g : EntryGroup) (s : EntryState) (look : Look) : List EntryMember → Scan → Scan
  | [], scan => scan
  | m :: members, scan =>
    if memberDdnsValue g m = "" then scanMembers g s look members scan
    else
      let a := assessMember g s look m
      let scan :=
        { selection := selectMember g scan.selection m a
          columns := Function.update scan.columns m.id a.columns }
      if g.ddns.recordType = .CNAME ∧ a.included then scan else scanMembers g s look members scan

def scanGroup (g : EntryGroup) (s : EntryState) (look : Look) : Scan :=
  scanMembers g s look (sortedMembers g s.columns) ⟨⟨[], none, 0, false⟩, s.columns⟩

/-- What `preserveForwardGroupDdns` reads in an evaluation. -/
def preserving (g : EntryGroup) (s : EntryState) (look : Look) : Preserving where
  quotaExcluded := look.quotaExcluded
  members := (sortedMembers g s.columns).map fun m =>
    ⟨(look.memberLiveness m).trafficExcluded, some (memberDdnsValue g m)⟩

/-- `syncEntryGroupDdns` where nothing changes meanwhile and the provider's updates succeed. -/
def syncEntryGroup (g : EntryGroup) (s : EntryState) (look : Look) : EntryState :=
  let scan := scanGroup g s look
  { group := (syncEntryGroupDdns g.ddns s.group scan.selection (preserving g s look) look.forceSync
      ⟨true, true, true⟩ fun _ => .ok).1
    columns := scan.columns }

/-! ## What the loop leaves -/

section
variable {g : EntryGroup} {s : EntryState} {look : Look}

theorem mem_sortedMembers {m : EntryMember} {columns : Nat → MemberColumns} :
    m ∈ sortedMembers g columns ↔ m ∈ g.members ∧ (columns m.id).isEnabled = true := by
  unfold sortedMembers
  rw [List.mem_filter, List.mem_insertionSort]

theorem sortedMembers_nodup (hids : (g.members.map EntryMember.id).Nodup) (columns : Nat → MemberColumns) :
    ((sortedMembers g columns).map EntryMember.id).Nodup := by
  unfold sortedMembers
  refine List.Nodup.sublist (List.Sublist.map _ List.filter_sublist) ?_
  exact ((List.perm_insertionSort _ g.members).map EntryMember.id).nodup_iff.mpr hids

/-- A member the loop assesses: one that is enabled and has an address. -/
def Assessed (g : EntryGroup) (s : EntryState) (m : EntryMember) : Prop :=
  (s.columns m.id).isEnabled = true ∧ memberDdnsValue g m ≠ ""

instance (g : EntryGroup) (s : EntryState) (m : EntryMember) : Decidable (Assessed g s m) :=
  inferInstanceAs (Decidable (_ ∧ _))

variable {m : EntryMember} {a : String}

theorem mem_includeMember {selection : EntrySelection} :
    a ∈ (includeMember g selection m).values ↔ a ∈ selection.values ∨ a ∈ memberAddresses g m := by
  have hfold : ∀ (addresses values : List String),
      a ∈ addresses.foldl (fun values a => if a ∈ values then values else values ++ [a]) values ↔
        a ∈ values ∨ a ∈ addresses := by
    intro addresses
    induction addresses with
    | nil => simp
    | cons b addresses ih =>
      intro values
      rw [List.foldl_cons, ih, List.mem_cons]
      by_cases hb : b ∈ values
      · rw [if_pos hb]
        constructor
        · rintro (h | h)
          · exact Or.inl h
          · exact Or.inr (Or.inr h)
        · rintro (h | rfl | h)
          · exact Or.inl h
          · exact Or.inl hb
          · exact Or.inr h
      · rw [if_neg hb, List.mem_append, List.mem_singleton, or_assoc]
  exact hfold _ _

theorem mem_selectMember {selection : EntrySelection} {assessment : Assessment} :
    a ∈ (selectMember g selection m assessment).values ↔
      a ∈ selection.values ∨ assessment.included = true ∧ a ∈ memberAddresses g m := by
  have hvalues : (selectMember g selection m assessment).values =
      (if assessment.included then includeMember g selection m else selection).values := by
    unfold selectMember
    cases assessment.finding <;> rfl
  rw [hvalues]
  cases assessment.included with
  | true => simpa using mem_includeMember
  | false => simp

/-- The addresses selected by the loop are those of the members it includes. -/
theorem mem_scanMembers (hcname : g.ddns.recordType ≠ .CNAME) :
    ∀ (members : List EntryMember) (scan : Scan), a ∈ (scanMembers g s look members scan).selection.values ↔
      a ∈ scan.selection.values ∨ ∃ m ∈ members, memberDdnsValue g m ≠ "" ∧
        (assessMember g s look m).included = true ∧ a ∈ memberAddresses g m
  | [], scan => by simp [scanMembers]
  | m :: members, scan => by
    unfold scanMembers
    by_cases hvalue : memberDdnsValue g m = ""
    · rw [if_pos hvalue, mem_scanMembers hcname members scan]
      simp [hvalue]
    · simp only [hvalue, hcname, if_false, false_and]
      rw [mem_scanMembers hcname members, mem_selectMember]
      simp [hvalue, or_assoc]

/-- The loop writes the columns of the members it assesses, and no others. -/
theorem scanMembers_columns (hcname : g.ddns.recordType ≠ .CNAME) : ∀ (members : List EntryMember) (scan : Scan),
    (members.map EntryMember.id).Nodup → ∀ k, (scanMembers g s look members scan).columns k =
      match members.find? fun m => m.id = k ∧ memberDdnsValue g m ≠ "" with
      | some m => (assessMember g s look m).columns
      | none => scan.columns k
  | [], scan, _, k => rfl
  | m :: members, scan, hids, k => by
    rw [List.map_cons, List.nodup_cons] at hids
    unfold scanMembers
    by_cases hvalue : memberDdnsValue g m = ""
    · rw [if_pos hvalue, scanMembers_columns hcname members scan hids.2 k]
      simp [hvalue]
    · simp only [hvalue, hcname, if_false, false_and]
      rw [scanMembers_columns hcname members _ hids.2 k]
      by_cases hk : m.id = k
      · -- no later member has the same id
        have hnone : members.find? (fun m => m.id = k ∧ memberDdnsValue g m ≠ "") = none := by
          rw [List.find?_eq_none]
          intro m' hm' hsame
          simp only [decide_eq_true_eq] at hsame
          exact hids.1 (hk ▸ hsame.1 ▸ List.mem_map_of_mem hm')
        rw [hnone, List.find?_cons_of_pos (by simp [hk, hvalue])]
        subst hk
        exact Function.update_self _ _ _
      · simp [hk, Function.update_of_ne (Ne.symm hk)]

theorem scanGroup_columns (hcname : g.ddns.recordType ≠ .CNAME) (hids : (g.members.map EntryMember.id).Nodup)
    (hm : m ∈ g.members) : (scanGroup g s look).columns m.id =
      if Assessed g s m then (assessMember g s look m).columns else s.columns m.id := by
  unfold scanGroup
  rw [scanMembers_columns hcname _ _ (sortedMembers_nodup hids s.columns)]
  by_cases hassessed : Assessed g s m
  · have hfind : (sortedMembers g s.columns).find? (fun m' => m'.id = m.id ∧ memberDdnsValue g m' ≠ "") =
        some m := by
      have hsome : ((sortedMembers g s.columns).find? fun m' =>
          m'.id = m.id ∧ memberDdnsValue g m' ≠ "").isSome = true :=
        List.find?_isSome.mpr ⟨m, mem_sortedMembers.mpr ⟨hm, hassessed.1⟩, decide_eq_true ⟨rfl, hassessed.2⟩⟩
      obtain ⟨m', hm'⟩ := Option.isSome_iff_exists.mp hsome
      have hsame : m'.id = m.id ∧ memberDdnsValue g m' ≠ "" := by simpa using List.find?_some hm'
      have hmember := (mem_sortedMembers.mp (List.mem_of_find?_eq_some hm')).1
      rw [hm', List.inj_on_of_nodup_map hids hmember hm hsame.1]
    rw [hfind, if_pos hassessed]
  · have hfind : (sortedMembers g s.columns).find? (fun m' => m'.id = m.id ∧ memberDdnsValue g m' ≠ "") =
        none := by
      rw [List.find?_eq_none]
      intro m' hm' hsame
      obtain ⟨hid, hvalue⟩ := of_decide_eq_true hsame
      obtain ⟨hmember, henabled⟩ := mem_sortedMembers.mp hm'
      obtain rfl := List.inj_on_of_nodup_map hids hmember hm hid
      exact hassessed ⟨henabled, hvalue⟩
    rw [hfind, if_neg hassessed]

theorem mem_scanGroup (hcname : g.ddns.recordType ≠ .CNAME) :
    a ∈ (scanGroup g s look).selection.values ↔ ∃ m ∈ g.members, Assessed g s m ∧
      (assessMember g s look m).included = true ∧ a ∈ memberAddresses g m := by
  unfold scanGroup
  rw [mem_scanMembers hcname]
  simp only [List.not_mem_nil, false_or, mem_sortedMembers, Assessed, and_assoc]

/-! ## What an assessment says -/

/-- A row as it is read: its windows hold whole seconds. -/
structure MemberColumns.Read (m : MemberColumns) : Prop where
  failureSince : m.failureSince.map stored = m.failureSince
  healthySince : m.healthySince.map stored = m.healthySince

theorem writeWindow_spec {m : MemberColumns} (h : m.Read) (status : HealthStatus) (w : Window) (now : Int) :
    (writeWindow m status w now).failureSince = w.failureSince.map stored ∧
      (writeWindow m status w now).healthySince = w.healthySince.map stored ∧
      (writeWindow m status w now).healthStatus = status ∧
      (writeWindow m status w now).isEnabled = m.isEnabled := by
  unfold writeWindow
  split
  next => exact ⟨rfl, rfl, rfl, rfl⟩
  next hsame =>
    simp only [not_or, not_not] at hsame
    obtain ⟨hstatus, hfailure, hhealthy⟩ := hsame
    exact ⟨by rw [← hfailure, h.failureSince], by rw [← hhealthy, h.healthySince], hstatus, rfl⟩

variable {group : HealthSettings} {m : MemberColumns} {previously : Bool} {liveness : MemberAgentLiveness}
  {now : Int}

theorem assess_excluded (h : (assess group m previously liveness now).finding = .excluded) :
    liveness.trafficExcluded = true ∧ (assess group m previously liveness now).included = false ∧
      (assess group m previously liveness now).columns = m := by
  unfold assess at h ⊢
  split at h
  next hexcluded =>
    rw [if_pos hexcluded]
    exact ⟨hexcluded, rfl, rfl⟩
  · dsimp only at h
    split at h <;> cases h

theorem assess_pending (h : (assess group m previously liveness now).finding = .pending) :
    (assess group m previously liveness now).included = previously ∧
      (assess group m previously liveness now).columns = m := by
  unfold assess at h ⊢
  split at h
  · cases h
  next hexcluded =>
    rw [if_neg hexcluded]
    dsimp only at h ⊢
    split at h
    · exact ⟨rfl, rfl⟩
    · cases h
    · cases h

theorem assess_healthy (h : (assess group m previously liveness now).finding = .healthy) :
    (assess group m previously liveness now).included = (healthyWindow group m previously now).included ∧
      (assess group m previously liveness now).columns =
        writeWindow m .healthy (healthyWindow group m previously now) now := by
  unfold assess at h ⊢
  split at h
  · cases h
  next hexcluded =>
    rw [if_neg hexcluded]
    dsimp only at h ⊢
    split at h
    · cases h
    · exact ⟨rfl, rfl⟩
    · cases h

theorem assess_failing (h : (assess group m previously liveness now).finding = .failing) :
    (assess group m previously liveness now).included =
        (failingWindow group m previously (observeMember group m liveness now).2 now).included ∧
      (assess group m previously liveness now).columns =
        writeWindow m .unhealthy
          (failingWindow group m previously (observeMember group m liveness now).2 now) now := by
  unfold assess at h ⊢
  split at h
  · cases h
  next hexcluded =>
    rw [if_neg hexcluded]
    dsimp only at h ⊢
    split at h
    · cases h
    · cases h
    · exact ⟨rfl, rfl⟩

end

end ForwardX.Panel.Ddns
