import Mathlib.Data.Finset.Empty
import ForwardX.Panel.FailoverChoice

/- The time at which a failover group is looked at again (`forwardGroupHealthRechecks`). An
   evaluation holds the first of the times at which its verdicts may change; until then an
   evaluation chooses as the one before has left it, if nothing but the clock has moved. -/
namespace ForwardX.Panel.Failover

open Ddns

/-! ## The time that is held -/

theorem min?_le {l : List Int} {d : Int} (h : d ∈ l) : ∃ z, l.min? = some z ∧ z ∈ l ∧ z ≤ d := by
  obtain ⟨z, hz⟩ := Option.isSome_iff_exists.mp (List.isSome_min?_of_mem h)
  obtain ⟨hin, hle⟩ := List.min?_eq_some_iff.mp hz
  exact ⟨z, hz, hin, hle d h⟩

section
variable {a b : Option Int}

theorem earlier_le_left {x : Int} (ha : a = some x) : ∃ z, earlier a b = some z ∧ z ≤ x := by
  subst ha
  cases b with
  | none => exact ⟨x, rfl, le_refl x⟩
  | some y =>
    simp only [earlier]
    split
    next => exact ⟨_, rfl, min_le_left x y⟩
    next => exact ⟨x, rfl, le_refl x⟩

theorem earlier_le_right {y : Int} (hb : b = some y) (ha : ∀ x ∈ a, 0 < x) (hy : 0 < y) :
    ∃ z, earlier a b = some z ∧ z ≤ y := by
  subst hb
  cases a with
  | none => exact ⟨y, rfl, le_refl y⟩
  | some x =>
    have hx := ha x rfl
    simp only [earlier]
    rw [if_pos (by omega)]
    exact ⟨_, rfl, min_le_right x y⟩

theorem earlier_pos (ha : ∀ x ∈ a, 0 < x) (hb : ∀ y ∈ b, 0 < y) : ∀ z ∈ earlier a b, 0 < z := by
  intro z hz
  cases a with
  | none => exact hb z hz
  | some x =>
    have hx := ha x rfl
    cases b with
    | none =>
      cases hz
      exact hx
    | some y =>
      have hy := hb y rfl
      simp only [earlier] at hz
      split at hz
      next =>
        cases hz
        exact lt_min hx hy
      next =>
        cases hz
        exact hx

end

section
variable {group : HealthGroup} {members : List Member} {evaluated : List Evaluated} {t : Int}

theorem window_pos {failoverMs recoverMs : Int} (ht : 0 < t) :
    ∀ z ∈ nextForwardGroupHealthRecheckAt evaluated failoverMs recoverMs t, 0 < z := by
  intro z hz
  obtain ⟨d, -, rfl⟩ := Option.map_eq_some_iff.mp hz
  exact lt_max_of_lt_left ht

theorem checkedAt_pos {m : Member} (h : forwardGroupChinaHealthStateAt m.columns t = .healthy) :
    0 < m.columns.chinaHealthCheckedAt.getD 0 := by
  by_contra hnot
  simp only [forwardGroupChinaHealthStateAt, healthStateAt] at h
  rw [if_pos (Or.inl (by omega)), if_pos (Or.inl (by omega))] at h
  cases hstatus : m.columns.chinaHealthStatus <;> rw [hstatus] at h <;> cases h

theorem china_pos {enabled : Bool} :
    ∀ z ∈ nextForwardGroupChinaHealthExpiryAt enabled members t, 0 < z := by
  intro z hz
  unfold nextForwardGroupChinaHealthExpiryAt at hz
  split at hz
  next => cases hz
  next =>
    obtain ⟨m, -, hm⟩ := List.mem_filterMap.mp (List.min?_eq_some_iff.mp hz).1
    unfold chinaDeadline at hm
    split_ifs at hm with _ hhealthy
    cases hm
    have hpos := checkedAt_pos (not_not.mp hhealthy)
    have hms : (0 : Int) < FORWARD_GROUP_CHINA_HEALTH_FRESHNESS_TTL_MS := by decide
    omega

theorem probe_pos (ht : 0 < t) : ∀ z ∈ probeExpiryAt evaluated t, 0 < z := by
  intro z hz
  have hin := (List.min?_eq_some_iff.mp hz).1
  have hlater : t < z := by simpa using (List.mem_filter.mp hin).2
  exact ht.trans hlater

theorem nextRecheckAt_window (members : List Member) {e : Evaluated} (he : e ∈ evaluated) {d : Int}
    (hd : d ∈ windowDeadlines (forwardGroupFailoverDelayMs group.settings)
      (forwardGroupRecoverDelayMs group.settings) e) :
    ∃ z, nextRecheckAt group members evaluated t = some z ∧ z ≤ max t d := by
  obtain ⟨first, hfirst, -, hle⟩ := min?_le (List.mem_flatMap.mpr ⟨e, he, hd⟩)
  have hwindow : nextForwardGroupHealthRecheckAt evaluated (forwardGroupFailoverDelayMs group.settings)
      (forwardGroupRecoverDelayMs group.settings) t = some (max t first) := by
    unfold nextForwardGroupHealthRecheckAt
    rw [hfirst, Option.map_some]
  obtain ⟨y, hy, hle₁⟩ := earlier_le_left (b := nextForwardGroupChinaHealthExpiryAt
    group.settings.chinaHealthCheckEnabled members t) hwindow
  obtain ⟨z, hz, hle₂⟩ := earlier_le_left (b := probeExpiryAt evaluated t) hy
  exact ⟨z, hz, hle₂.trans (hle₁.trans (max_le_max (le_refl t) hle))⟩

theorem nextRecheckAt_china (evaluated : List Evaluated) (ht : 0 < t) (hon : group.settings.chinaHealthCheckEnabled = true) {m : Member}
    (hm : m ∈ members) (henabled : m.columns.isEnabled = true)
    (hhealthy : forwardGroupChinaHealthStateAt m.columns t = .healthy) :
    ∃ z, nextRecheckAt group members evaluated t = some z ∧
      z ≤ m.columns.chinaHealthCheckedAt.getD 0 + FORWARD_GROUP_CHINA_HEALTH_FRESHNESS_TTL_MS := by
  have hdeadline : chinaDeadline t m =
      some (m.columns.chinaHealthCheckedAt.getD 0 + FORWARD_GROUP_CHINA_HEALTH_FRESHNESS_TTL_MS) := by
    unfold chinaDeadline
    rw [henabled, hhealthy]
    rfl
  have hin := List.mem_filterMap.mpr ⟨m, hm, hdeadline⟩
  obtain ⟨first, hfirst, -, hle⟩ := min?_le hin
  have hchina : nextForwardGroupChinaHealthExpiryAt group.settings.chinaHealthCheckEnabled members t =
      some first := by
    unfold nextForwardGroupChinaHealthExpiryAt
    rw [hon]
    exact hfirst
  obtain ⟨y, hy, hle₁⟩ := earlier_le_right hchina (window_pos ht) (china_pos first hchina)
  obtain ⟨z, hz, hle₂⟩ := earlier_le_left (b := probeExpiryAt evaluated t) hy
  exact ⟨z, hz, hle₂.trans (hle₁.trans hle)⟩

/-- The end of a probe that is still to come is held, or a time before it. -/
theorem nextRecheckAt_probe (group : HealthGroup) (members : List Member) (ht : 0 < t) {e : Evaluated} (he : e ∈ evaluated) {d : Int}
    (hd : e.nextProbeExpiryAt = some d) (hlater : t < d) :
    ∃ z, nextRecheckAt group members evaluated t = some z ∧ z ≤ d := by
  have hin : d ∈ (evaluated.map fun m => m.nextProbeExpiryAt.getD 0).filter (t < ·) :=
    List.mem_filter.mpr ⟨List.mem_map.mpr ⟨e, he, by rw [hd]; rfl⟩, by simpa using hlater⟩
  obtain ⟨first, hfirst, -, hle⟩ := min?_le hin
  obtain ⟨z, hz, hle'⟩ := earlier_le_right (b := probeExpiryAt evaluated t) hfirst
    (earlier_pos (window_pos ht) china_pos) (probe_pos ht first hfirst)
  exact ⟨z, hz, hle'.trans hle⟩

theorem replace_held (ht : 0 < t) {z : Int} (h : nextRecheckAt group members evaluated t = some z) :
    replace (nextRecheckAt group members evaluated t) = some z := by
  have hpos := earlier_pos (earlier_pos (window_pos ht) china_pos) (probe_pos ht) z h
  rw [h]
  simp [replace, hpos]

end

/-! ## Verdicts before that time -/

def NoProbeEnding (group : HealthGroup) (m : Member) (now : Int) : Prop :=
  ∀ rule ∈ activeChildRules group m, ∀ stat ∈ rule.latestStat,
    stat.recordedAt + forwardGroupRuleProbeFreshMs ≠ now

section
variable {group : HealthGroup} {m : Member} {t t' : Int}

theorem nextProbeExpiryAt_gt (hpast : m.Past t) (hending : NoProbeEnding group m t) :
    ∀ d ∈ (memberFindings group m (m.liveness t) t).nextProbeExpiryAt, t < d := by
  intro d hd
  unfold memberFindings at hd
  split_ifs at hd
  all_goals try cases hd
  rw [checkRules_next] at hd
  exact scanRules_next_gt (fun rule hrule stat hstat => (hpast.probes rule (mem_activeChildRules hrule) stat hstat).2)
    hending (fun _ hnone => by cases hnone) d hd

theorem mem_byPriority {members : List Member} : m ∈ byPriority members ↔ m ∈ members := by
  unfold byPriority
  exact List.mem_insertionSort _

theorem byPriority_evaluateMembers (group : HealthGroup) (members : List Member) (t : Int) :
    byPriority (evaluateMembers group members t) =
      (byPriority members).map fun m => (evaluateMemberHealth group m t).2 := by
  unfold byPriority evaluateMembers
  symm
  apply List.map_insertionSort
  intro a _ b _
  rw [show (evaluateMemberHealth group a t).2.priority = a.priority from (writeMember_id a _ _ t).2,
    show (evaluateMemberHealth group b t).2.priority = b.priority from (writeMember_id b _ _ t).2]

theorem verdicts_ids (group : HealthGroup) (members : List Member) (t : Int) :
    (verdicts group members t).map Verdict.id = (byPriority members).map Member.id := by
  unfold verdicts evaluatedMembers
  rw [List.map_map, List.map_map]
  rfl

theorem verdicts_nodup {members : List Member} (h : (members.map Member.id).Nodup) :
    ((verdicts group members t).map Verdict.id).Nodup := by
  rw [verdicts_ids]
  exact ((List.perm_insertionSort _ members).map Member.id).nodup_iff.mpr h

theorem verdicts_keep {members : List Member} (ht : 0 < t) (hle : t ≤ t') (hgroup : group.Past t)
    (hpast : ∀ m ∈ members, m.Past t) (hending : ∀ m ∈ members, NoProbeEnding group m t)
    (horder : ∀ m ∈ members, InOrder (waitingSince group m t) t (activeChildRules group m))
    (hliveness : ∀ m ∈ members, (m.liveness t').signature = (m.liveness t).signature)
    (hdue : ∀ due, replace (nextRecheckAt group (byPriority members) (evaluatedMembers group members t) t) =
      some due → t' + 999 < due) :
    List.Forall₂ Verdict.Keeps (verdicts group members t) (verdicts group (evaluateMembers group members t) t') := by
  have hdue' : ∀ d z, nextRecheckAt group (byPriority members) (evaluatedMembers group members t) t = some z →
      z ≤ d → t' + 999 < d := fun d z hz hle => (hdue z (replace_held ht hz)).trans_le hle
  unfold verdicts evaluatedMembers
  rw [byPriority_evaluateMembers, List.map_map, List.map_map, List.map_map, List.forall₂_map_left_iff,
    List.forall₂_map_right_iff, List.forall₂_same]
  intro m hm
  have hin := mem_byPriority.mp hm
  have he : (evaluateMemberHealth group m t).1 ∈ evaluatedMembers group members t :=
    List.mem_map.mpr ⟨m, hm, rfl⟩
  refine verdict_keeps ht hle hgroup (hpast m hin) (hliveness m hin) (horder m hin) ⟨?_, ?_⟩ ?_
  · intro d hd
    obtain ⟨z, hz, hzd⟩ := nextRecheckAt_probe group (byPriority members) ht he hd
      (nextProbeExpiryAt_gt (hpast m hin) (hending m hin) d hd)
    exact hdue' d z hz hzd
  · intro hon henabled hhealthy date hdate
    obtain ⟨z, hz, hzd⟩ := nextRecheckAt_china (evaluatedMembers group members t) ht hon hm
      henabled hhealthy
    rw [Option.mem_def.mp hdate] at hzd
    have := hdue' _ z hz hzd
    simp only [Option.getD_some] at this
    omega
  · intro d hd
    obtain ⟨z, hz, hzd⟩ := nextRecheckAt_window (byPriority members) he hd
    have := hdue' _ z hz hzd
    omega

end

/-! ## What an evaluation leaves -/

section
variable (g : GroupConfig) (s : GroupState)

theorem preserveForQuota_active (retained : List String) (reply : ForwardGroupRecordType → Reply) :
    (preserveForQuota g s retained reply).1.activeMemberId = s.activeMemberId ∨
      (preserveForQuota g s retained reply).1.activeMemberId = none := by
  simp only [preserveForQuota]
  split_ifs
  all_goals first | exact Or.inl rfl | exact Or.inr rfl

theorem holdDdns_active (value : String) (reply : ForwardGroupRecordType → Reply) :
    (holdDdns g s value reply).1.activeMemberId = s.activeMemberId ∨
      (holdDdns g s value reply).1.activeMemberId = none := by
  simp only [holdDdns]
  split_ifs
  · exact Or.inl rfl
  · exact Or.inr rfl

theorem preserve_active (p : Preserving) (forceSync : Bool) (reply : ForwardGroupRecordType → Reply) :
    (preserveForwardGroupDdns g s p forceSync reply).1.activeMemberId = s.activeMemberId ∨
      (preserveForwardGroupDdns g s p forceSync reply).1.activeMemberId = none := by
  simp only [preserveForwardGroupDdns]
  split_ifs
  · cases p.allowed with
    | none => exact Or.inl rfl
    | some allowed => exact preserveForQuota_active g s _ reply
  all_goals first | exact Or.inl rfl | exact holdDdns_active g s _ reply

theorem commitDdns_active (activeMemberId : Option Nat) (values : List String) (stillCurrent : Bool)
    (reply : ForwardGroupRecordType → Reply) :
    let committed := commitDdns g s activeMemberId values stillCurrent reply
    (committed.1.activeMemberId = s.activeMemberId ∧ (committed.2 = .aborted ∨ committed.2 = .threw)) ∨
      committed.1.activeMemberId = activeMemberId := by
  unfold commitDdns
  dsimp only
  split_ifs
  · exact Or.inr rfl
  · exact Or.inl ⟨rfl, Or.inl rfl⟩
  · exact Or.inl ⟨rfl, Or.inr rfl⟩

/-- A member that is handed to the sync is active afterwards, unless the sync aborts or throws. -/
theorem sync_active (memberId : Option Nat) (value : String) (forceSync beforeCommit afterUpdate : Bool)
    (reply : ForwardGroupRecordType → Reply) :
    let synced := syncSingleForwardGroupDdns g s memberId value forceSync beforeCommit afterUpdate reply
    (synced.1.activeMemberId = s.activeMemberId ∧ (synced.2 = .aborted ∨ synced.2 = .threw)) ∨
      synced.1.activeMemberId = memberId := by
  unfold syncSingleForwardGroupDdns
  split_ifs with _ _ hskip
  · exact Or.inr hskip.2.1
  · exact commitDdns_active g s memberId _ afterUpdate reply
  · exact Or.inr rfl
  · exact Or.inl ⟨rfl, Or.inl rfl⟩

end

section
variable {g : FailoverGroup} {s : FailoverState} {look : Surroundings} {t t' : Int}

theorem carryOutChoice_active {ddns : GroupConfig} {ddnsValue : Nat → String} {group : GroupState} {choice : Choice}
    {b : Nat} (h : (carryOutChoice ddns ddnsValue group look choice).1.activeMemberId = some b) :
    group.activeMemberId = some b ∨ ∃ w, choice = .next (some w) ∧ w.id = b ∧ ddnsValue w.id ≠ "" := by
  cases choice with
  | hold => exact Or.inl h
  | next member =>
    cases member with
    | none =>
      simp only [carryOutChoice] at h
      split at h
      next => exact Or.inl h
      next =>
        rcases preserve_active ddns group look.preserving look.forceSync look.reply with hsame | hnone
        · exact Or.inl (hsame.symm.trans h)
        · exact absurd (hnone.symm.trans h) (by simp)
    | some w =>
      simp only [carryOutChoice] at h
      split at h
      next => exact Or.inl h
      next hvalue =>
        rcases sync_active ddns group (some w.id) (ddnsValue w.id) look.forceSync look.beforeCommit
          look.afterUpdate look.reply with ⟨hsame, -⟩ | hset
        · exact Or.inl (hsame.symm.trans h)
        · exact Or.inr ⟨w, rfl, Option.some.inj (hset.symm.trans h), hvalue⟩

/-- What a choice has come to, where the evaluation neither throws nor asks for another. -/
inductive Left (g : FailoverGroup) (before : GroupState) (after : GroupState) : Choice → Prop
  | hold (hactive : after.activeMemberId = before.activeMemberId) (hvalue : after.lastValue = before.lastValue) :
      Left g before after .hold
  | none : Left g before after (.next none)
  | unaddressed {n : Verdict} (hvalue : g.ddnsValue n.id = "") (hactive : after.activeMemberId = before.activeMemberId) :
      Left g before after (.next (some n))
  | active {n : Verdict} (hactive : after.activeMemberId = some n.id) : Left g before after (.next (some n))

theorem carryOut_left (choice : Choice) (hthrow : (carryOut g s look choice).outcome ≠ .threw)
    (hqueued : (carryOut g s look choice).queued = false) :
    Left g s.group (carryOut g s look choice).state.group choice := by
  cases choice with
  | hold => exact .hold rfl rfl
  | next member =>
    cases member with
    | none => exact .none
    | some n =>
      simp only [carryOut, carryOutChoice] at hthrow hqueued ⊢
      split at hthrow
      next hvalue =>
        rw [if_pos hvalue]
        exact .unaddressed hvalue rfl
      next hvalue =>
        rw [if_neg hvalue] at hqueued ⊢
        simp only [decide_eq_false_iff_not] at hqueued
        rcases sync_active g.ddns s.group (some n.id) (g.ddnsValue n.id) look.forceSync look.beforeCommit
          look.afterUpdate look.reply with ⟨-, haborted | hthrew⟩ | hset
        · exact absurd haborted hqueued
        · exact absurd hthrew hthrow
        · exact .active hset

/-- A member that an evaluation of the group makes active was chosen, and has an address. -/
theorem run_active {b : Nat} (h : (runForwardGroupFailover g s look t).state.group.activeMemberId = some b) :
    s.group.activeMemberId = some b ∨ (s.members ≠ [] ∧ g.ddns.domain ≠ "" ∧
      ∃ w, choiceAt g s look.forcePriority t = .next (some w) ∧ w.id = b ∧ g.ddnsValue w.id ≠ "") := by
  unfold runForwardGroupFailover at h
  split at h
  next => exact Or.inl h
  next hmembers =>
    dsimp only at h
    split at h
    next => exact Or.inl h
    next hdomain =>
      rcases carryOutChoice_active h with hsame | hchosen
      · exact Or.inl hsame
      · exact Or.inr ⟨by simpa using hmembers, hdomain, hchosen⟩

/-- What an evaluation of a group with a domain leaves, where it neither throws nor asks for
another. -/
theorem run_left (hmembers : s.members ≠ []) (hdomain : g.ddns.domain ≠ "")
    (hthrow : (runForwardGroupFailover g s look t).outcome ≠ .threw)
    (hqueued : (runForwardGroupFailover g s look t).queued = false) :
    (runForwardGroupFailover g s look t).state.members = evaluateMembers g.health s.members t ∧
      (runForwardGroupFailover g s look t).state.recheckAt = replace
        (nextRecheckAt g.health (byPriority s.members) (evaluatedMembers g.health s.members t) t) ∧
      Left g s.group (runForwardGroupFailover g s look t).state.group (choiceAt g s look.forcePriority t) := by
  have hrun : runForwardGroupFailover g s look t =
      carryOut g (evaluatedState g s t) look (choiceAt g s look.forcePriority t) := by
    unfold runForwardGroupFailover
    rw [if_neg (by simpa using hmembers)]
    dsimp only
    rw [if_neg hdomain]
  rw [hrun] at hthrow hqueued ⊢
  exact ⟨rfl, rfl, carryOut_left _ hthrow hqueued⟩

/-- No change of the active member that only the clock brings is slept through: where an
evaluation at `t'` of what one at `t` has left makes another member active, the one at `t` has
put the group into the queue or holds a time that comes less than a second after `t'`. -/
theorem failover_not_slept_through (look look' : Surroundings) (ht : 0 < t) (hlt : t < t') (hgroup : g.health.Past t)
    (hpast : ∀ m ∈ s.members, m.Past t) (hending : ∀ m ∈ s.members, NoProbeEnding g.health m t)
    (horder : ∀ m ∈ s.members, InOrder (waitingSince g.health m t) t (activeChildRules g.health m))
    (hliveness : ∀ m ∈ s.members, (m.liveness t').signature = (m.liveness t).signature)
    (hforce : look'.forcePriority = look.forcePriority ∨ (look'.forcePriority = false ∧
      ∀ n, choiceAt g s look.forcePriority t = .next (some n) → g.ddnsValue n.id ≠ ""))
    (hthrow : (runForwardGroupFailover g s look t).outcome ≠ .threw) {b : Nat}
    (hother : (runForwardGroupFailover g s look t).state.group.activeMemberId ≠ some b)
    (hchosen : (runForwardGroupFailover g (runForwardGroupFailover g s look t).state look' t').state.group.activeMemberId
      = some b) :
    (runForwardGroupFailover g s look t).queued = true ∨
      ∃ due, (runForwardGroupFailover g s look t).state.recheckAt = some due ∧ due < t' + 1000 := by
  by_contra hnot
  push Not at hnot
  obtain ⟨hqueued, hdue⟩ := hnot
  obtain hsame | ⟨hmembers', hdomain, w, hsecond, rfl, hvalue⟩ := run_active hchosen
  · exact hother hsame
  by_cases hmembers : s.members = []
  · apply hmembers'
    unfold runForwardGroupFailover
    rw [if_pos (by simpa using hmembers)]
    exact hmembers
  obtain ⟨hmem, hrecheck, hleft⟩ := run_left hmembers hdomain hthrow (by simpa using hqueued)
  rw [hrecheck] at hdue
  have hkeeps := verdicts_keep ht hlt.le hgroup hpast hending horder hliveness
    fun due hheld => by have := hdue due hheld; omega
  unfold choiceAt at hsecond hleft hforce
  rw [hmem] at hsecond
  have hforced : look'.forcePriority = true → look.forcePriority = true := by
    rcases hforce with hforce | ⟨hforce, -⟩
    · rw [hforce]
      exact id
    · rw [hforce]
      exact fun h => by cases h
  revert hleft
  generalize hchoice : chooseMember g.autoFailback look.forcePriority s.group.activeMemberId s.group.lastValue
    (verdicts g.health s.members t) = choice
  intro hleft
  cases hleft with
  | hold hactive hlast =>
    rw [hactive, hlast] at hsecond
    exact second_of_hold hkeeps hchoice hsecond
  | none => exact hother (second_of_none hkeeps hchoice hsecond)
  | unaddressed hnone hactive =>
    rcases hforce with hforce | ⟨-, haddress⟩
    · rw [hactive] at hsecond hother
      rcases second_of_unsettled hkeeps hforce hchoice hsecond with hid | hid
      · exact hvalue (hid ▸ hnone)
      · exact hother hid
    · exact haddress _ hchoice hnone
  | active hactive =>
    rw [hactive] at hsecond hother
    exact hother (congrArg some (second_of_next hkeeps (verdicts_nodup s.ids_nodup) hforced hchoice hsecond).symm)

end

/-! ## A window that began within a second -/

/-- A member whose one rule was probed 30 seconds ago. -/
def probedMember (id : Nat) (stat : RuleProbe) : Member where
  id := id
  priority := id
  columns := ⟨true, .healthy, some 1699999940000, .unknown, none, none, some 1690000000000, 1699999940000⟩
  lastLatencyMs := none
  chinaHealthLatencyMs := none
  hostId := id
  host := some ⟨false, some ⟨1700000000000, false, 1, 0⟩, 0, none, some 1690000000000, none⟩
  childRules := [⟨7, true, false, true, some stat⟩]

def twoMembers : FailoverState where
  members :=
    [probedMember 1 ⟨1699999970000, .other, true, none⟩,
      probedMember 2 ⟨1699999970000, .healthy, false, some 20⟩]
  ids_nodup := by decide
  group := ⟨some 1, some "192.0.2.1", .healthy, none, fun _ => ∅⟩
  recheckAt := none

def twoMemberGroup : FailoverGroup where
  ddns := ⟨⟨fun s => s, fun _ => none⟩, "relay.example", .A, false, true⟩
  health := ⟨⟨false, 60, 120⟩, some 1690000000000, some 1690000000000, [⟨7, true, false⟩]⟩
  autoFailback := true
  ddnsValue := fun id => if id = 1 then "192.0.2.1" else "192.0.2.2"

def undisturbed : Surroundings := ⟨false, false, true, true, true, ⟨[], []⟩, fun _ => .ok⟩

theorem probedMember_past (id : Nat) {stat : RuleProbe} (h : stat.recordedAt = 1699999970000) :
    (probedMember id stat).Past 1700000000500 where
  lastCheckedAt := by
    rintro date ⟨⟩
    exact ⟨by decide, by decide⟩
  chinaHealthCheckedAt := by rintro date ⟨⟩
  failureSince := by rintro date ⟨⟩
  healthySince := by
    rintro date ⟨⟩
    exact ⟨by decide, by decide⟩
  probes := by
    intro rule hrule
    rw [List.mem_singleton.mp hrule]
    rintro probe ⟨⟩
    rw [h]
    exact ⟨by decide, by decide⟩
  created := by
    rintro host ⟨⟩ date ⟨⟩
    exact ⟨by decide, by decide⟩
  updated := by rintro host ⟨⟩ date ⟨⟩

theorem twoMembers_past : ∀ m ∈ twoMembers.members, m.Past 1700000000500 := by
  intro m hm
  rcases List.mem_cons.mp hm with rfl | hm
  · exact probedMember_past 1 rfl
  · rw [List.mem_singleton.mp hm]
    exact probedMember_past 2 rfl

/-- The probe of the first member times out from 500 ms after the full second on. The row keeps
the full second, and the failover is due 500 ms before the time that is held. -/
theorem failover_before_due :
    (∀ m ∈ twoMembers.members, m.Past 1700000000500) ∧
    (∀ m ∈ twoMembers.members, (m.liveness 1700000060000).signature = (m.liveness 1700000000500).signature) ∧
    (runForwardGroupFailover twoMemberGroup twoMembers undisturbed 1700000000500).outcome ≠ .threw ∧
    (runForwardGroupFailover twoMemberGroup twoMembers undisturbed 1700000000500).state.group.activeMemberId = some 1 ∧
    (runForwardGroupFailover twoMemberGroup
      (runForwardGroupFailover twoMemberGroup twoMembers undisturbed 1700000000500).state undisturbed
      1700000060000).state.group.activeMemberId = some 2 ∧
    ¬ ((runForwardGroupFailover twoMemberGroup twoMembers undisturbed 1700000000500).queued = true ∨
      ∃ due, (runForwardGroupFailover twoMemberGroup twoMembers undisturbed 1700000000500).state.recheckAt =
        some due ∧ due ≤ 1700000060000) := by
  refine ⟨twoMembers_past, by decide, by decide, by decide, by decide, ?_⟩
  have hheld : (runForwardGroupFailover twoMemberGroup twoMembers undisturbed 1700000000500).state.recheckAt =
      some 1700000060500 := by decide
  rintro (hqueued | ⟨due, hdue, hle⟩)
  · revert hqueued
    decide
  · rw [hheld] at hdue
    cases hdue
    omega

/-- The same failover, and the time that is held for it. -/
theorem failover_within_a_second :
    (runForwardGroupFailover twoMemberGroup twoMembers undisturbed 1700000000500).queued = true ∨
      ∃ due, (runForwardGroupFailover twoMemberGroup twoMembers undisturbed 1700000000500).state.recheckAt =
        some due ∧ due < 1700000060000 + 1000 := by
  have hgroup : twoMemberGroup.health.Past 1700000000500 := by
    constructor
    · rintro date ⟨⟩
      exact ⟨by decide, by decide⟩
    · rintro date ⟨⟩
      exact ⟨by decide, by decide⟩
  have hending : ∀ m ∈ twoMembers.members, NoProbeEnding twoMemberGroup.health m 1700000000500 := by
    unfold NoProbeEnding
    decide
  have horder : ∀ m ∈ twoMembers.members, InOrder (waitingSince twoMemberGroup.health m 1700000000500) 1700000000500
      (activeChildRules twoMemberGroup.health m) := by
    unfold InOrder
    decide
  exact failover_not_slept_through undisturbed undisturbed (by decide) (by decide) hgroup
    twoMembers_past hending horder (by decide) (Or.inl rfl) (by decide) (b := 2) (by decide) (by decide)

end ForwardX.Panel.Failover
