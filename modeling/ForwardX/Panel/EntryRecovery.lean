import Mathlib
import ForwardX.Panel.EntryFlap

/- The return of members to an entry group. A member that was dropped for ill health comes back
   too early only through an event that is not `Steady`: an evaluation that publishes a
   recovering member inside its window, one that passes a recovering member over, a decision
   that takes a decision for the member back, and a fallback to the address of a dropped
   member. In a run of steady events every return is justified (`return_justified`). -/
namespace ForwardX.Panel.Ddns
open Transition

section
variable {g : EntryGroup}

/-! ## Members that are away -/

/-- What the columns remember of a member that was dropped for ill health: without a recovery
it counts as unhealthy, and a recovery for which the Agent has not decided is one that the
evaluations have seen. -/
structure Away (g : EntryGroup) (w : EntryWorld) (m : EntryMember) : Prop where
  unpublished : previouslyIncluded g w.state.group m = false
  unhealthy : (w.state.columns m.id).healthySince = none → wasUnhealthy (w.state.columns m.id) = true
  recovering : (w.seen m.id).latestDecision ≠ some .healthy →
    ∀ since, (w.state.columns m.id).healthySince = some since →
      ∃ first, (w.seen m.id).healthyRun = some first ∧ stored first ≤ since

structure FlapInv (g : EntryGroup) (w : EntryWorld) : Prop where
  entry : EntryInv g w
  away : ∀ m ∈ g.members, (w.seen m.id).dropped = true → Away g w m

def DisjointAddresses (g : EntryGroup) : Prop :=
  ∀ m ∈ g.members, ∀ m' ∈ g.members, ∀ a, a ∈ memberAddresses g m → a ∈ memberAddresses g m' → m = m'

/-- A dropped member that an evaluation publishes again, steadily, has recovered. -/
theorem return_justified (hjs : g.ddns.js.Serialises) (hids : (g.members.map EntryMember.id).Nodup)
    (hcname : g.ddns.recordType ≠ .CNAME) (hdisjoint : DisjointAddresses g)
    {w w' : EntryWorld} (hinv : FlapInv g w) {look : Look} (hsteady : Steady g w (.evaluate look))
    (hstep : entryEvents g w (.evaluate look) w') {m : EntryMember} (hm : m ∈ g.members)
    (hdropped : (w.seen m.id).dropped = true)
    (hafter : previouslyIncluded g w'.state.group m = true) : ReturnJustified g w w' look m := by
  unfold entryEvents Steps.ofFn entryStep at hstep
  split at hstep
  · cases hstep
  cases hstep
  by_cases hdecision : (w.seen m.id).latestDecision = some .healthy
  · exact Or.inl hdecision
  obtain ⟨hwindow, -, hfallback⟩ := hsteady m hm hdropped hdecision
  have haway := hinv.away m hm hdropped
  obtain ⟨hclean, hpublished, -⟩ := syncEntryGroup_published hjs hcname hinv.entry.clean look
  obtain ⟨a, ha, hstored⟩ := (previouslyIncluded_iff hclean).mp hafter
  -- the address is one that the evaluation selected, for this member
  have hincluded : Assessed g w.state m ∧ (assessMember g w.state look m).included = true := by
    obtain hbefore | hselected | ⟨hback, hvalue⟩ := hpublished a hstored
    · have hincluded := (previouslyIncluded_iff hinv.entry.clean).mpr ⟨a, ha, hbefore⟩
      exact absurd (haway.unpublished.symm.trans hincluded) (by decide)
    · obtain ⟨m', hm', hassessed, hincluded, ha'⟩ := (mem_scanGroup hcname).mp hselected
      obtain rfl := hdisjoint m hm m' hm' a ha ha'
      exact ⟨hassessed, hincluded⟩
    · exact absurd hvalue (hfallback hback a ha)
  have hfound : findingOf g w.state look m = some (assessMember g w.state look m).finding := if_pos hincluded.1
  cases hfinding : (assessMember g w.state look m).finding with
  | excluded => exact absurd ((assess_excluded hfinding).2.1.symm.trans hincluded.2) (by decide)
  | pending =>
    have hprevious := (assess_pending hfinding).1.symm.trans hincluded.2
    exact absurd (haway.unpublished.symm.trans hprevious) (by decide)
  | failing =>
    have hfailing := (assess_failing hfinding).1.symm.trans hincluded.2
    simp [failingWindow, haway.unpublished] at hfailing
  | healthy =>
    rw [hfinding] at hfound
    -- the recovery is over, either by the window or because nothing else lets the member in
    have hlong : forwardGroupRecoverDelayMs g.health ≤
        look.now - (w.state.columns m.id).healthySince.getD look.now := by
      have hhealthy := (assess_healthy hfinding).1.symm.trans hincluded.2
      obtain hwas | hlong := hwindow hfound
      · simpa [healthyWindow, haway.unpublished, hwas] using hhealthy
      · exact hlong
    cases hsince : (w.state.columns m.id).healthySince with
    | none =>
      have := delayMs_pos g.health.recoverSeconds 120
      rw [hsince, Option.getD_none, forwardGroupRecoverDelayMs] at hlong
      omega
    | some since =>
      rw [hsince, Option.getD_some] at hlong
      obtain ⟨first, hrun, hle⟩ := haway.recovering hdecision since hsince
      refine Or.inr ⟨first, ?_, by omega⟩
      show (observeEvaluation g w look m.id).healthyRun = some first
      rw [observeEvaluation_member hids w look hm, hfound]
      simp [Observed.evaluated, hrun]

theorem Away.evaluated (hids : (g.members.map EntryMember.id).Nodup)
    (hcname : g.ddns.recordType ≠ .CNAME) {w : EntryWorld} (hinv : FlapInv g w) {look : Look}
    (hclock : w.clock ≤ look.now) (hsteady : Steady g w (.evaluate look)) {m : EntryMember} (hm : m ∈ g.members)
    (hdropped : (observeEvaluation g w look m.id).dropped = true) :
    Away g ⟨syncEntryGroup g w.state look, observeEvaluation g w look, look.now⟩ m := by
  have hseen := observeEvaluation_member hids w look hm
  have hread := hinv.entry.read m hm
  have hunpublished : previouslyIncluded g (syncEntryGroup g w.state look).group m = false := by
    cases hafter : previouslyIncluded g (syncEntryGroup g w.state look).group m with
    | false => rfl
    | true => simp [hseen, Observed.evaluated, hafter] at hdropped
  by_cases hfailing : findingOf g w.state look m = some .failing
  · obtain ⟨-, hwindow, hwas⟩ := columns_of_failing hids hcname hm hread hfailing
    exact ⟨hunpublished, fun _ => hwas, fun _ since hsince => absurd (hwindow.symm.trans hsince) (by simp)⟩
  -- the member was away before
  have hbefore : (w.seen m.id).dropped = true := by
    simpa [hseen, Observed.evaluated, hunpublished, hfailing] using hdropped
  have haway := hinv.away m hm hbefore
  by_cases hhealthy : findingOf g w.state look m = some .healthy
  · obtain ⟨-, hwindow⟩ := columns_of_healthy hids hcname hm hread hhealthy
    refine ⟨hunpublished, fun hnone => absurd (hwindow.symm.trans hnone) (by simp), fun hdecision since hsince => ?_⟩
    have hrun : (observeEvaluation g w look m.id).healthyRun =
        some ((w.seen m.id).healthyRun.getD look.now) := by
      rw [hseen]
      simp [Observed.evaluated, hhealthy]
    refine ⟨_, hrun, ?_⟩
    obtain rfl := Option.some.inj (hwindow.symm.trans hsince)
    have hdecided : (w.seen m.id).latestDecision ≠ some .healthy := by
      simpa [hseen, Observed.evaluated] using hdecision
    cases hold : (w.state.columns m.id).healthySince with
    | some since =>
      obtain ⟨first, hfirst, hle⟩ := haway.recovering hdecided since hold
      have hfixed := hread.healthySince
      rw [hold, Option.map_some, Option.some.injEq] at hfixed
      rw [hfirst, Option.getD_some, Option.getD_some, hfixed]
      exact hle
    | none =>
      apply stored_mono
      cases hfirst : (w.seen m.id).healthyRun with
      | none => exact Int.le_refl _
      | some first => exact Int.le_trans (hinv.entry.clocked m hm first hfirst) hclock
  · have hsame := columns_of_other hids hcname hm hhealthy hfailing
    refine ⟨hunpublished, fun hnone => ?_, fun hdecision since hsince => ?_⟩
    · show wasUnhealthy ((syncEntryGroup g w.state look).columns m.id) = true
      rw [hsame]
      exact haway.unhealthy (hsame ▸ hnone)
    · -- an evaluation that passes the member over finds no recovery going on
      have hdecided : (w.seen m.id).latestDecision ≠ some .healthy := by
        simpa [hseen, Observed.evaluated] using hdecision
      have hnone := (hsteady m hm hbefore hdecided).2.1 hhealthy hfailing
      exact absurd (hnone.symm.trans (hsame ▸ hsince)) (by simp)

theorem Away.reported (hchina : g.health.chinaHealthCheckEnabled = true) {w : EntryWorld} {m : EntryMember}
    (haway : Away g w m) {input : ChinaHealthReport} {now : Int}
    (hsteady : (w.seen m.id).latestDecision = some .healthy → input.healthStatus = some .unknown →
      (w.state.columns m.id).healthySince = none) :
    Away g
      { state := { w.state with
          columns := Function.update w.state.columns m.id
            (updateForwardGroupMemberChinaHealth g.health (w.state.columns m.id) input now) }
        seen := Function.update w.seen m.id ((w.seen m.id).reported g.health input now)
        clock := now } m := by
  refine ⟨haway.unpublished, fun hnone => ?_, fun hdecision since hsince => ?_⟩
  · simp only [Function.update_self] at hnone ⊢
    have hkept := haway.unhealthy
    unfold updateForwardGroupMemberChinaHealth wasUnhealthy at *
    simp only [hchina, not_true_eq_false, if_false] at hnone ⊢
    cases hstatus : input.healthStatus with
    | none => simpa [hstatus] using hkept (by simpa [hstatus] using hnone)
    | some status =>
      cases status with
      | unknown => simpa [hstatus] using hkept (by simpa [hstatus] using hnone)
      | healthy => simp [hstatus] at hnone
      | unhealthy => simp
  · simp only [Function.update_self] at hdecision hsince ⊢
    unfold updateForwardGroupMemberChinaHealth at hsince
    unfold Observed.reported at hdecision ⊢
    simp only [hchina, not_true_eq_false, if_false] at hsince
    cases hstatus : input.healthStatus with
    | none =>
      exact haway.recovering (by simpa [hstatus] using hdecision) since (by simpa [hstatus] using hsince)
    | some status =>
      cases status with
      | unknown =>
        have hold : (w.state.columns m.id).healthySince = some since := by simpa [hstatus] using hsince
        refine haway.recovering (fun hhealthy => ?_) since hold
        exact absurd ((hsteady hhealthy hstatus).symm.trans hold) (by simp)
      | healthy => simp [hstatus] at hdecision
      | unhealthy => simp [hstatus] at hsince

theorem FlapInv.step (hjs : g.ddns.js.Serialises) (hids : (g.members.map EntryMember.id).Nodup)
    (hcname : g.ddns.recordType ≠ .CNAME) (hchina : g.health.chinaHealthCheckEnabled = true)
    {w w' : EntryWorld} {e : EntryEvent} (h : FlapInv g w) (hsteady : Steady g w e)
    (hstep : entryEvents g w e w') : FlapInv g w' := by
  refine ⟨h.entry.step hjs hids hcname hchina hstep, fun m hm hdropped => ?_⟩
  unfold entryEvents Steps.ofFn entryStep at hstep
  split at hstep
  · cases hstep
  next htime =>
  cases e with
  | evaluate look =>
    cases hstep
    exact Away.evaluated hids hcname h (Int.not_lt.mp htime) hsteady hm hdropped
  | report k input now =>
    cases hstep
    by_cases hk : m.id = k
    · subst hk
      have hbefore : (w.seen m.id).dropped = true := by
        simpa [Observed.reported] using hdropped
      exact (h.away m hm hbefore).reported hchina (hsteady hbefore)
    · have haway := h.away m hm (by simpa [hk] using hdropped)
      exact ⟨haway.unpublished, by simpa [hk] using haway.unhealthy, by simpa [hk] using haway.recovering⟩
  | edit k isEnabled now =>
    cases hstep
    have haway := h.away m hm hdropped
    by_cases hk : m.id = k
    · subst hk
      exact ⟨haway.unpublished, by simpa [wasUnhealthy] using haway.unhealthy, by simpa using haway.recovering⟩
    · exact ⟨haway.unpublished, by simpa [hk] using haway.unhealthy, by simpa [hk] using haway.recovering⟩

/-! ## Runs -/

/-- The start of a history: stored addresses that are canonical, rows as they are read, and
nothing seen but the failures on record. -/
structure Begun (g : EntryGroup) (w : EntryWorld) : Prop where
  clean : Clean g.ddns.js w.state.group.lastValue
  read : ∀ m ∈ g.members, (w.state.columns m.id).Read
  seen : ∀ m ∈ g.members, w.seen m.id = ⟨none, (w.state.columns m.id).failureSince, none, false⟩

theorem Begun.inv {w : EntryWorld} (h : Begun g w) : FlapInv g w := by
  refine ⟨⟨h.clean, h.read, fun m hm => ?_, fun m hm since hrun => ?_⟩, fun m hm hdropped => ?_⟩
  · rw [h.seen m hm]
    exact (h.read m hm).failureSince.symm
  · rw [h.seen m hm] at hrun
    cases hrun
  · rw [h.seen m hm] at hdropped
    cases hdropped

/-- The DNS of an entry group does not flap: in every run of steady events, an evaluation drops
an address only for a reason, and publishes a member that was dropped for ill health only
when it has recovered. -/
theorem entry_dns_does_not_flap (hjs : g.ddns.js.Serialises) (hids : (g.members.map EntryMember.id).Nodup)
    (hcname : g.ddns.recordType ≠ .CNAME) (hchina : g.health.chinaHealthCheckEnabled = true)
    (hdisjoint : DisjointAddresses g) {w₀ w w' : EntryWorld} {es : List EntryEvent} {look : Look}
    (h₀ : Begun g w₀) (hrun : Run (Guarded (Steady g) (entryEvents g)) w₀ es w)
    (hstep : Guarded (Steady g) (entryEvents g) w (.evaluate look) w') {m : EntryMember} (hm : m ∈ g.members) :
    (∀ a ∈ memberAddresses g m, a ∈ storedValues w.state.group.lastValue →
        a ∉ storedValues w'.state.group.lastValue → DropJustified g w w' look m) ∧
      ((w.seen m.id).dropped = true → previouslyIncluded g w'.state.group m = true →
        ReturnJustified g w w' look m) := by
  have hinv : FlapInv g w := hrun.preserves (P := FlapInv g)
    (fun _ _ _ hlast h => h.step hjs hids hcname hchina hlast.1 hlast.2) h₀.inv
  refine ⟨fun a ha hbefore hafter => ?_, fun hdropped hafter =>
    return_justified hjs hids hcname hdisjoint hinv hstep.1 hstep.2 hm hdropped hafter⟩
  have hevaluation := hstep.2
  unfold entryEvents Steps.ofFn entryStep at hevaluation
  split at hevaluation
  · cases hevaluation
  cases hevaluation
  refine drop_justified hids hcname hinv.entry rfl hm ha hbefore fun hselected => hafter ?_
  exact (syncEntryGroup_published hjs hcname hinv.entry.clean look).2.2 a hbefore hselected

end

/-! ## A recovery cut short -/

section

/-- A host with an `A` record of its own. -/
def entryHost (ipv4 : String) : EntryHost := ⟨"", ipv4, "", "", false, ""⟩

/-- An entry group of two hosts. -/
def twoHosts : EntryGroup where
  ddns :=
    { js := ⟨fun s => s, fun _ => none⟩
      domain := "entry.example.net"
      recordType := .A
      ddnsEnabled := true
      ddnsAutoResolveEnabled := true }
  health := ⟨true, 60, 120⟩
  members := [⟨1, 1, 0, entryHost "192.0.2.1"⟩, ⟨2, 2, 1, entryHost "192.0.2.2"⟩]

def lookAt (now : Int) : Look := ⟨now, fun _ => ⟨false, none, now, none, none, none⟩, [], false⟩

def twoHostsWorld (columns : Nat → MemberColumns) : EntryWorld where
  state := ⟨⟨some 1, some "192.0.2.1,192.0.2.2", .healthy, none, fun _ => ∅⟩, columns⟩
  seen := fun k => ⟨none, (columns k).failureSince, none, false⟩
  clock := 1000000

def bothHealthy : EntryWorld :=
  twoHostsWorld fun _ => ⟨true, .healthy, none, .healthy, some 1000000, none, some 900000, 1000000⟩

theorem storedAddresses_clean : Clean twoHosts.ddns.js "192.0.2.1,192.0.2.2" := by
  refine ⟨["192.0.2.1", "192.0.2.2"], fun v hv => ?_, by decide +kernel⟩
  have hoctets : v = ".".intercalate ([192, 0, 2, 1].map toString) ∨
      v = ".".intercalate ([192, 0, 2, 2].map toString) := by
    simp only [List.mem_cons, List.not_mem_nil, or_false] at hv
    obtain rfl | rfl := hv
    · exact Or.inl (by decide +kernel)
    · exact Or.inr (by decide +kernel)
  obtain rfl | rfl := hoctets <;> exact dotted_canonical rfl (by decide)

/-- Raw results against the first member until it is dropped, then for it. -/
def shortRecovery : List EntryEvent :=
  [.report 1 ⟨true, none⟩ 1010000, .evaluate (lookAt 1010000), .evaluate (lookAt 1070000),
    .report 1 ⟨false, none⟩ 1080000, .report 2 ⟨false, none⟩ 1080000, .evaluate (lookAt 1080000)]

/-- The first member was dropped after a minute; a second after the first evaluation that has
found it healthy again, the next one publishes it. -/
theorem recovery_cut_short : ∃ w w', Begun twoHosts bothHealthy ∧
    Run (entryEvents twoHosts) bothHealthy shortRecovery w ∧
    entryEvents twoHosts w (.evaluate (lookAt 1081000)) w' ∧
    (w.seen 1).dropped = true ∧ w'.state.group.lastValue = "192.0.2.1,192.0.2.2" ∧
    ¬ ReturnJustified twoHosts w w' (lookAt 1081000) ⟨1, 1, 0, entryHost "192.0.2.1"⟩ := by
  have hcheck : (exec (entryStep twoHosts) bothHealthy shortRecovery).any (fun w =>
      (entryStep twoHosts w (.evaluate (lookAt 1081000))).any fun w' =>
        (w.seen 1).dropped && w'.state.group.lastValue = "192.0.2.1,192.0.2.2" &&
          (w.seen 1).latestDecision = none && (w'.seen 1).healthyRun = some 1080000) = true := by
    decide +kernel
  obtain ⟨w, hrun, hw⟩ := (Option.any_eq_true _ _).mp hcheck
  obtain ⟨w', hstep, hw'⟩ := (Option.any_eq_true _ _).mp hw
  simp only [Bool.and_eq_true, decide_eq_true_eq] at hw'
  obtain ⟨⟨⟨hdropped, hlast⟩, hdecision⟩, hhealthy⟩ := hw'
  refine ⟨w, w', ⟨storedAddresses_clean, fun m hm => ⟨rfl, rfl⟩, fun m hm => rfl⟩, exec_run hrun, hstep,
    hdropped, hlast, ?_⟩
  rintro (hagent | ⟨since, hsince, hlong⟩)
  · exact absurd (hdecision.symm.trans hagent) (by decide)
  · obtain rfl := Option.some.inj (hhealthy.symm.trans hsince)
    exact absurd hlong (by decide)

theorem twoHosts_serialises : twoHosts.ddns.js.Serialises := by
  constructor <;> intro _ _ hnone <;> cases hnone

theorem twoHosts_disjoint : DisjointAddresses twoHosts := by
  have hfirst : memberAddresses twoHosts ⟨1, 1, 0, entryHost "192.0.2.1"⟩ = ["192.0.2.1"] := by decide +kernel
  have hsecond : memberAddresses twoHosts ⟨2, 2, 1, entryHost "192.0.2.2"⟩ = ["192.0.2.2"] := by decide +kernel
  intro m hm m' hm' a ha ha'
  have hmembers : ∀ m ∈ twoHosts.members,
      m = ⟨1, 1, 0, entryHost "192.0.2.1"⟩ ∨ m = ⟨2, 2, 1, entryHost "192.0.2.2"⟩ := fun m hm => by
    simpa [twoHosts] using hm
  obtain rfl | rfl := hmembers m hm <;> obtain rfl | rfl := hmembers m' hm'
  · rfl
  · rw [hfirst, List.mem_singleton] at ha
    rw [hsecond, List.mem_singleton, ha] at ha'
    exact absurd ha' (by decide)
  · rw [hsecond, List.mem_singleton] at ha
    rw [hfirst, List.mem_singleton, ha] at ha'
    exact absurd ha' (by decide)
  · rfl

instance (g : EntryGroup) (s : EntryState) (look : Look) : Decidable (FallsBack g s look) := by
  unfold FallsBack
  infer_instance

instance (g : EntryGroup) (w : EntryWorld) : (e : EntryEvent) → Decidable (Steady g w e)
  | .evaluate _ => by
    unfold Steady
    infer_instance
  | .report .. => by
    unfold Steady
    infer_instance
  | .edit .. => isTrue trivial

def steadyStep (w : EntryWorld) (e : EntryEvent) : Option EntryWorld :=
  if decide (Steady twoHosts w e) then entryStep twoHosts w e else none

/-- A member that fails for the failover time is dropped, and one that was found healthy for the
recovery time since comes back, each for that reason. -/
theorem entry_dns_drops_and_returns : ∃ down dropped back returned,
    entryEvents twoHosts down (.evaluate (lookAt 1070000)) dropped ∧
    DropJustified twoHosts down dropped (lookAt 1070000) ⟨1, 1, 0, entryHost "192.0.2.1"⟩ ∧
    entryEvents twoHosts back (.evaluate (lookAt 1200000)) returned ∧ (back.seen 1).dropped = true ∧
    ReturnJustified twoHosts back returned (lookAt 1200000) ⟨1, 1, 0, entryHost "192.0.2.1"⟩ := by
  have hdrop : (exec steadyStep bothHealthy (shortRecovery.take 2)).any (fun w =>
      (steadyStep w (.evaluate (lookAt 1070000))).any fun w' =>
        "192.0.2.1" ∈ storedValues w.state.group.lastValue ∧
          "192.0.2.1" ∉ storedValues w'.state.group.lastValue) = true := by decide +kernel
  have hreturn : (exec steadyStep bothHealthy shortRecovery).any (fun w =>
      (steadyStep w (.evaluate (lookAt 1200000))).any fun w' =>
        (w.seen 1).dropped &&
          previouslyIncluded twoHosts w'.state.group ⟨1, 1, 0, entryHost "192.0.2.1"⟩) = true := by
    decide +kernel
  have hbegun : Begun twoHosts bothHealthy := ⟨storedAddresses_clean, fun _ _ => ⟨rfl, rfl⟩, fun _ _ => rfl⟩
  have hsteady : ∀ w e w', steadyStep w e = some w' →
      Guarded (Steady twoHosts) (entryEvents twoHosts) w e w' := fun w e w' h => by
    unfold steadyStep at h
    split at h
    next hpass => exact ⟨of_decide_eq_true hpass, h⟩
    · cases h
  obtain ⟨down, hdown, hfirst⟩ := (Option.any_eq_true _ _).mp hdrop
  obtain ⟨dropped, hstep, hvalues⟩ := (Option.any_eq_true _ _).mp hfirst
  obtain ⟨back, hback, hlast⟩ := (Option.any_eq_true _ _).mp hreturn
  obtain ⟨returned, hstep', hseen⟩ := (Option.any_eq_true _ _).mp hlast
  obtain ⟨hbefore, hafter⟩ := of_decide_eq_true hvalues
  rw [Bool.and_eq_true] at hseen
  have hdoes := entry_dns_does_not_flap twoHosts_serialises (by decide) (by decide) rfl twoHosts_disjoint
    hbegun ((exec_run hdown).mono hsteady) (hsteady _ _ _ hstep) (m := ⟨1, 1, 0, entryHost "192.0.2.1"⟩) (by decide)
  have hreturns := entry_dns_does_not_flap twoHosts_serialises (by decide) (by decide) rfl twoHosts_disjoint
    hbegun ((exec_run hback).mono hsteady) (hsteady _ _ _ hstep') (m := ⟨1, 1, 0, entryHost "192.0.2.1"⟩) (by decide)
  exact ⟨down, dropped, back, returned, (hsteady _ _ _ hstep).2,
    hdoes.1 "192.0.2.1" (by decide +kernel) hbefore hafter,
    (hsteady _ _ _ hstep').2, hseen.1, hreturns.2 hseen.1 hseen.2⟩

end

end ForwardX.Panel.Ddns
