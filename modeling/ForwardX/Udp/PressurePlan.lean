import Mathlib.Data.List.Perm.Basic
import Mathlib.Data.List.Nodup
import Mathlib.Data.String.Basic
import Mathlib.Logic.Function.Basic

/- Reclamation of idle UDP sessions under pressure (`udp_tuning.go`,
   `planFXPUDPPressureReclamation`). One greedy pass over the idle sessions, oldest
   first, takes each that still contributes to a count at or above its soft limit.
   The counts only fall along the pass, so a session it has skipped contributes to no
   such count at the end (`reclaimPass_skipped`); and each one it takes did, when the
   earlier ones were gone (`reclaimPass_taken`). The counts of the pass are those of
   the sessions that are left (`left_counts`). -/
namespace ForwardX.Udp

universe u

variable {T : Type u}

/-! ## The plan -/

def fxpUDPReclaimAfter : Int64 := 30000000000

/-- `fxpUDPSessionPolicy`, without the hard limits. -/
structure SessionPolicy where
  softSessions : Int
  softPerIP : Int
  reclaimAfter : Int64
  deriving DecidableEq, Repr

/-- `fxpUDPSessionSnapshot`. -/
structure SessionSnapshot where
  sourceIP : String
  lastActivity : Int64
  pending : Int
  deriving DecidableEq, Repr

def fxpUDPSessionPressure (total perIP : Int) (incomingIP : String) (policy : SessionPolicy) : Bool :=
  (policy.softSessions > 0 && total ≥ policy.softSessions) ||
    (incomingIP ≠ "" && policy.softPerIP > 0 && perIP ≥ policy.softPerIP)

/-- A map from keys to sessions, as a listing in any order; a session may be nil. -/
structure SessionMap (T : Type u) where
  entries : List (String × Option T)
  nodup : (entries.map Prod.fst).Nodup

/-- `candidate`. -/
structure ReclaimCandidate (T : Type u) where
  key : String
  session : T
  sourceIP : String
  lastActivity : Int64

/-- The local `reclaimAfter`: a policy without one gets the default. -/
def SessionPolicy.effectiveReclaimAfter (policy : SessionPolicy) : Int64 :=
  if policy.reclaimAfter ≤ 0 then fxpUDPReclaimAfter else policy.reclaimAfter

/-- `now.Add(-reclaimAfter).UnixNano()`; a time is its distance from the epoch in
nanoseconds, and `UnixNano` wraps around outside of the 64 bits. -/
def reclaimCutoff (now : Int) (policy : SessionPolicy) : Int64 :=
  Int64.ofInt (now - policy.effectiveReclaimAfter.toInt)

def SessionSnapshot.quiescent (state : SessionSnapshot) (cutoff : Int64) : Bool :=
  state.lastActivity > 0 && state.lastActivity ≤ cutoff && state.pending ≤ 0

structure SessionCounts (T : Type u) where
  total : Int
  perIP : String → Int
  candidates : List (ReclaimCandidate T)

/-- One round of the loop over the sessions. -/
def countSession (snapshot : T → SessionSnapshot) (cutoff : Int64) (counts : SessionCounts T)
    (entry : String × Option T) : SessionCounts T :=
  match entry.2 with
  | none => counts
  | some session =>
    let state := snapshot session
    { total := counts.total + 1
      perIP := if state.sourceIP ≠ "" then
          Function.update counts.perIP state.sourceIP (counts.perIP state.sourceIP + 1)
        else counts.perIP
      candidates := if state.quiescent cutoff then
          counts.candidates ++ [⟨entry.1, session, state.sourceIP, state.lastActivity⟩]
        else counts.candidates }

/-- The order of `sort.Slice`. -/
def olderCandidate (a b : ReclaimCandidate T) : Bool :=
  if a.lastActivity = b.lastActivity then a.key ≤ b.key else a.lastActivity ≤ b.lastActivity

/-- The last loop: the greedy pass. -/
def reclaimPass (policy : SessionPolicy) :
    List (ReclaimCandidate T) → Int → (String → Int) → List (ReclaimCandidate T)
  | [], _, _ => []
  | candidate :: rest, total, perIP =>
    let globalPressure := policy.softSessions > 0 ∧ total ≥ policy.softSessions
    let perIPPressure := candidate.sourceIP ≠ "" ∧ policy.softPerIP > 0 ∧
      perIP candidate.sourceIP ≥ policy.softPerIP
    if ¬ globalPressure ∧ ¬ perIPPressure then reclaimPass policy rest total perIP
    else
      candidate :: reclaimPass policy rest (total - 1)
        (if candidate.sourceIP ≠ "" then
          Function.update perIP candidate.sourceIP (perIP candidate.sourceIP - 1)
        else perIP)

def planFXPUDPPressureReclamation (now : Int) (sessions : SessionMap T) (policy : SessionPolicy)
    (snapshot : T → SessionSnapshot) : List (ReclaimCandidate T) :=
  if sessions.entries.length = 0 then []
  else
    let counts := sessions.entries.foldl (countSession snapshot (reclaimCutoff now policy))
      ⟨0, fun _ => 0, []⟩
    reclaimPass policy (counts.candidates.mergeSort olderCandidate) counts.total counts.perIP

/-! ## Counts of sessions -/

def SessionMap.live (sessions : SessionMap T) : List (String × T) :=
  sessions.entries.filterMap fun entry => entry.2.map fun session => (entry.1, session)

/-- The sessions whose keys are not in `removed`. -/
def leftAfter (sessions : List (String × T)) (removed : List (ReclaimCandidate T)) : List (String × T) :=
  sessions.filter fun s => s.1 ∉ removed.map ReclaimCandidate.key

def countIP (snapshot : T → SessionSnapshot) (ip : String) (sessions : List (String × T)) : Nat :=
  sessions.countP fun s => (snapshot s.2).sourceIP = ip

/-- The pressure a session contributes to, among `sessions`. -/
def pressureOn (snapshot : T → SessionSnapshot) (policy : SessionPolicy) (sessions : List (String × T))
    (ip : String) : Bool :=
  fxpUDPSessionPressure sessions.length (countIP snapshot ip sessions) ip policy

/-- An eligible session: seen, idle for as long as the policy asks, without work. -/
def Eligible (now : Int) (policy : SessionPolicy) (state : SessionSnapshot) : Prop :=
  0 < state.lastActivity.toInt ∧
    policy.effectiveReclaimAfter.toInt ≤ now - state.lastActivity.toInt ∧ state.pending ≤ 0

def CutoffInRange (now : Int) (policy : SessionPolicy) : Prop :=
  Int64.minValue.toInt ≤ now - policy.effectiveReclaimAfter.toInt ∧
    now - policy.effectiveReclaimAfter.toInt ≤ Int64.maxValue.toInt

instance (now : Int) (policy : SessionPolicy) : Decidable (CutoffInRange now policy) :=
  inferInstanceAs (Decidable (_ ∧ _))

/-! ## The pass -/

def takenFrom (ip : String) (taken : List (ReclaimCandidate T)) : Int :=
  (taken.countP fun c => c.sourceIP = ip : Nat)

theorem takenFrom_cons (ip : String) (c : ReclaimCandidate T) (taken : List (ReclaimCandidate T)) :
    takenFrom ip (c :: taken) = takenFrom ip taken + if c.sourceIP = ip then 1 else 0 := by
  simp only [takenFrom, List.countP_cons, decide_eq_true_eq]
  split <;> simp

theorem takenFrom_nonneg (ip : String) (taken : List (ReclaimCandidate T)) : 0 ≤ takenFrom ip taken :=
  Int.natCast_nonneg _

theorem pressure_eq_true_iff (total perIP : Int) (ip : String) (policy : SessionPolicy) :
    fxpUDPSessionPressure total perIP ip policy = true ↔
      (policy.softSessions > 0 ∧ total ≥ policy.softSessions) ∨
      (ip ≠ "" ∧ policy.softPerIP > 0 ∧ perIP ≥ policy.softPerIP) := by
  simp [fxpUDPSessionPressure, and_assoc]

theorem pressure_congr {total perIP perIP' : Int} {ip : String} (policy : SessionPolicy)
    (h : ip ≠ "" → perIP = perIP') :
    fxpUDPSessionPressure total perIP ip policy = fxpUDPSessionPressure total perIP' ip policy := by
  by_cases hip : ip = ""
  · simp [fxpUDPSessionPressure, hip]
  · rw [h hip]

theorem pressure_mono {total total' perIP perIP' : Int} {ip : String} {policy : SessionPolicy}
    (ht : total' ≤ total) (hp : perIP' ≤ perIP)
    (h : fxpUDPSessionPressure total perIP ip policy = false) :
    fxpUDPSessionPressure total' perIP' ip policy = false := by
  rw [Bool.eq_false_iff, ne_eq, pressure_eq_true_iff] at h ⊢
  intro hless
  apply h
  obtain ⟨hsoft, hge⟩ | ⟨hip, hsoft, hge⟩ := hless
  · exact .inl ⟨hsoft, by omega⟩
  · exact .inr ⟨hip, hsoft, by omega⟩

/-- The counts of the pass after it took `c`. -/
def lowered (perIP : String → Int) (ip : String) : String → Int :=
  if ip ≠ "" then Function.update perIP ip (perIP ip - 1) else perIP

theorem lowered_apply {perIP : String → Int} {ip ip' : String} (h : ip' ≠ "") :
    lowered perIP ip ip' = perIP ip' - if ip = ip' then 1 else 0 := by
  unfold lowered
  by_cases heq : ip = ip'
  · subst heq
    simp [h]
  · by_cases hip : ip = ""
    · simp [hip, Ne.symm h]
    · simp [hip, heq, Function.update_of_ne (Ne.symm heq)]

theorem reclaimPass_cons (policy : SessionPolicy) (c : ReclaimCandidate T)
    (rest : List (ReclaimCandidate T)) (total : Int) (perIP : String → Int) :
    reclaimPass policy (c :: rest) total perIP =
      if fxpUDPSessionPressure total (perIP c.sourceIP) c.sourceIP policy = true then
        c :: reclaimPass policy rest (total - 1) (lowered perIP c.sourceIP)
      else reclaimPass policy rest total perIP := by
  rw [reclaimPass]
  by_cases h : fxpUDPSessionPressure total (perIP c.sourceIP) c.sourceIP policy = true
  · rw [if_pos h, if_neg]
    · rfl
    · rw [← not_or, not_not]
      exact (pressure_eq_true_iff _ _ _ _).mp h
  · rw [if_neg h, if_pos]
    rw [← not_or]
    exact fun hor => h ((pressure_eq_true_iff _ _ _ _).mpr hor)

theorem reclaimPass_sublist (policy : SessionPolicy) (cs : List (ReclaimCandidate T)) (total : Int)
    (perIP : String → Int) : (reclaimPass policy cs total perIP).Sublist cs := by
  induction cs generalizing total perIP with
  | nil => exact List.Sublist.refl _
  | cons c rest ih =>
    rw [reclaimPass_cons]
    split
    · exact (ih _ _).cons_cons c
    · exact (ih _ _).cons c

/-- What the pass has skipped is under no pressure at its end: the counts only fall. -/
theorem reclaimPass_skipped (policy : SessionPolicy) (cs : List (ReclaimCandidate T)) (total : Int)
    (perIP : String → Int) {c : ReclaimCandidate T} (hc : c ∈ cs)
    (hskip : c ∉ reclaimPass policy cs total perIP) :
    fxpUDPSessionPressure (total - (reclaimPass policy cs total perIP).length)
      (perIP c.sourceIP - takenFrom c.sourceIP (reclaimPass policy cs total perIP)) c.sourceIP
      policy = false := by
  induction cs generalizing total perIP with
  | nil => exact absurd hc List.not_mem_nil
  | cons d rest ih =>
    rw [reclaimPass_cons] at hskip ⊢
    split at hskip
    next htake =>
      rw [if_pos htake]
      have hne : c ≠ d := fun heq => hskip (heq ▸ List.mem_cons_self)
      have hrest : c ∈ rest := (List.mem_cons.mp hc).resolve_left hne
      have hlater := ih _ _ hrest (fun hmem => hskip (List.mem_cons_of_mem d hmem))
      rw [← hlater, List.length_cons, takenFrom_cons,
        show total - ((reclaimPass policy rest (total - 1) (lowered perIP d.sourceIP)).length + 1 : Nat) =
          total - 1 - (reclaimPass policy rest (total - 1) (lowered perIP d.sourceIP)).length by omega]
      apply pressure_congr
      intro hip
      rw [lowered_apply hip]
      omega
    next hleave =>
      rw [if_neg hleave]
      obtain rfl | hrest := List.mem_cons.mp hc
      · have hnow := Bool.eq_false_iff.mpr hleave
        have hcount := takenFrom_nonneg c.sourceIP (reclaimPass policy rest total perIP)
        exact pressure_mono (by omega) (by omega) hnow
      · exact ih _ _ hrest hskip

theorem reclaimPass_taken (policy : SessionPolicy) (cs : List (ReclaimCandidate T)) (total : Int)
    (perIP : String → Int) {before after : List (ReclaimCandidate T)} {c : ReclaimCandidate T}
    (h : reclaimPass policy cs total perIP = before ++ c :: after) :
    fxpUDPSessionPressure (total - before.length) (perIP c.sourceIP - takenFrom c.sourceIP before)
      c.sourceIP policy = true := by
  induction cs generalizing total perIP before with
  | nil =>
    rw [reclaimPass] at h
    exact absurd h.symm (List.append_ne_nil_of_right_ne_nil _ (List.cons_ne_nil _ _))
  | cons d rest ih =>
    rw [reclaimPass_cons] at h
    split at h
    next htake =>
      cases before with
      | nil =>
        obtain ⟨rfl, -⟩ := List.cons.inj h
        simpa [takenFrom] using htake
      | cons e before =>
        obtain ⟨rfl, hrest⟩ := List.cons.inj h
        rw [← ih _ _ hrest, List.length_cons, takenFrom_cons,
          show total - (before.length + 1 : Nat) = total - 1 - before.length by omega]
        apply pressure_congr
        intro hip
        rw [lowered_apply hip]
        omega
    next hleave => exact ih _ _ h

/-! ## The sessions counted -/

def candidateOf (snapshot : T → SessionSnapshot) (s : String × T) : ReclaimCandidate T :=
  ⟨s.1, s.2, (snapshot s.2).sourceIP, (snapshot s.2).lastActivity⟩

/-- The candidates among `sessions`, in their order. -/
def candidatesOf (snapshot : T → SessionSnapshot) (cutoff : Int64) (sessions : List (String × T)) :
    List (ReclaimCandidate T) :=
  (sessions.filter fun s => (snapshot s.2).quiescent cutoff).map (candidateOf snapshot)

theorem countSession_foldl (snapshot : T → SessionSnapshot) (cutoff : Int64)
    (entries : List (String × Option T)) (counts : SessionCounts T) :
    let live := entries.filterMap fun entry => entry.2.map fun session => (entry.1, session)
    let after := entries.foldl (countSession snapshot cutoff) counts
    after.total = counts.total + live.length ∧
    (∀ ip ≠ "", after.perIP ip = counts.perIP ip + countIP snapshot ip live) ∧
    after.candidates = counts.candidates ++ candidatesOf snapshot cutoff live := by
  induction entries generalizing counts with
  | nil => simp [countIP, candidatesOf]
  | cons entry rest ih =>
    obtain ⟨key, session⟩ := entry
    cases session with
    | none =>
      have := ih counts
      simpa [countSession] using this
    | some session =>
      obtain ⟨htotal, hperIP, hcandidates⟩ := ih (countSession snapshot cutoff counts (key, some session))
      simp only [List.foldl_cons, List.filterMap_cons, Option.map_some]
      refine ⟨?_, fun ip hip => ?_, ?_⟩
      · rw [htotal, List.length_cons]
        simp only [countSession]
        omega
      · rw [hperIP ip hip, countIP, countIP, List.countP_cons]
        simp only [countSession, decide_eq_true_eq]
        by_cases heq : (snapshot session).sourceIP = ip
        · subst heq
          rw [if_pos hip, Function.update_self, if_pos rfl]
          omega
        · rw [if_neg heq, Nat.add_zero]
          split
          · rw [Function.update_of_ne (Ne.symm heq)]
          · rfl
      · rw [hcandidates]
        simp only [countSession, candidatesOf, List.filter_cons]
        split
        · simp [candidateOf]
        · rfl

theorem SessionMap.live_keys_nodup (sessions : SessionMap T) : (sessions.live.map Prod.fst).Nodup := by
  apply List.Nodup.sublist _ sessions.nodup
  unfold SessionMap.live
  generalize sessions.entries = entries
  induction entries with
  | nil => exact List.Sublist.refl _
  | cons entry rest ih =>
    obtain ⟨key, session⟩ := entry
    cases session with
    | none => exact ih.cons key
    | some session => exact ih.cons_cons key

/-- Taken candidates are sessions of the map, each once. -/
structure Taken (snapshot : T → SessionSnapshot) (live : List (String × T))
    (taken : List (ReclaimCandidate T)) : Prop where
  nodup : (taken.map ReclaimCandidate.key).Nodup
  mem : ∀ c ∈ taken, (c.key, c.session) ∈ live ∧ c.sourceIP = (snapshot c.session).sourceIP

variable {live : List (String × T)} {snapshot : T → SessionSnapshot} {taken : List (ReclaimCandidate T)}

theorem Taken.removed_perm (h : Taken snapshot live taken) (hlive : (live.map Prod.fst).Nodup) :
    (live.filter fun s => s.1 ∈ taken.map ReclaimCandidate.key).Perm
      (taken.map fun c => (c.key, c.session)) := by
  rw [List.perm_ext_iff_of_nodup (hlive.of_map _ |>.filter _)]
  · intro s
    rw [List.mem_filter, decide_eq_true_eq, List.mem_map, List.mem_map]
    constructor
    · intro hs
      obtain ⟨hmem, c, hc, hkey⟩ := hs
      have hcs := List.inj_on_of_nodup_map hlive (h.mem c hc).1 hmem hkey
      exact ⟨c, hc, hcs⟩
    · intro hs
      obtain ⟨c, hc, rfl⟩ := hs
      exact ⟨(h.mem c hc).1, c, hc, rfl⟩
  · refine List.Nodup.of_map Prod.fst ?_
    rw [List.map_map]
    exact h.nodup

/-- What is left after a removal is counted by what was there and what is removed. -/
theorem Taken.left_counts (h : Taken snapshot live taken) (hlive : (live.map Prod.fst).Nodup) :
    ((leftAfter live taken).length : Int) = live.length - taken.length ∧
    ∀ ip, (countIP snapshot ip (leftAfter live taken) : Int) =
      countIP snapshot ip live - takenFrom ip taken := by
  have hperm := h.removed_perm hlive
  have hleft : leftAfter live taken =
      live.filter fun s => !decide (s.1 ∈ taken.map ReclaimCandidate.key) := by
    apply List.filter_congr
    intro s _
    exact decide_not
  constructor
  · have hsplit := List.length_eq_length_filter_add (l := live)
      (fun s => decide (s.1 ∈ taken.map ReclaimCandidate.key))
    rw [hperm.length_eq, List.length_map, ← hleft] at hsplit
    omega
  · intro ip
    have hsplit := List.countP_eq_countP_filter_add live (fun s => decide ((snapshot s.2).sourceIP = ip))
      (fun s => decide (s.1 ∈ taken.map ReclaimCandidate.key))
    have htaken : (taken.map fun c => (c.key, c.session)).countP
        (fun s => decide ((snapshot s.2).sourceIP = ip)) = taken.countP fun c => c.sourceIP = ip := by
      rw [List.countP_map]
      apply List.countP_congr
      intro c hc
      simp [(h.mem c hc).2]
    rw [hperm.countP_eq, htaken, ← hleft] at hsplit
    unfold countIP takenFrom
    omega

theorem Taken.pressureOn_left (h : Taken snapshot live taken) (hlive : (live.map Prod.fst).Nodup) {perIP : String → Int}
    (hperIP : ∀ ip ≠ "", perIP ip = countIP snapshot ip live) (policy : SessionPolicy) (ip : String) :
    pressureOn snapshot policy (leftAfter live taken) ip =
      fxpUDPSessionPressure (live.length - taken.length) (perIP ip - takenFrom ip taken) ip policy := by
  obtain ⟨hlength, hcount⟩ := h.left_counts hlive
  unfold pressureOn
  rw [hlength]
  apply pressure_congr
  intro hip
  rw [hcount, hperIP ip hip]

theorem Taken.sublist {taken taken' : List (ReclaimCandidate T)} (h : Taken snapshot live taken)
    (hsub : taken'.Sublist taken) : Taken snapshot live taken' where
  nodup := h.nodup.sublist (hsub.map _)
  mem c hc := h.mem c (hsub.subset hc)

theorem olderCandidate_trans (a b c : ReclaimCandidate T) (hab : olderCandidate a b = true)
    (hbc : olderCandidate b c = true) : olderCandidate a c = true := by
  simp only [olderCandidate, Int64.le_iff_toInt_le, ← Int64.toInt_inj] at hab hbc ⊢
  split at hab <;> split at hbc <;> split <;> simp only [decide_eq_true_eq] at *
  · exact le_trans hab hbc
  all_goals omega

theorem olderCandidate_total (a b : ReclaimCandidate T) :
    (olderCandidate a b || olderCandidate b a) = true := by
  simp only [olderCandidate, Bool.or_eq_true, Int64.le_iff_toInt_le, ← Int64.toInt_inj]
  split <;> split <;> simp only [decide_eq_true_eq]
  · exact le_total a.key b.key
  all_goals omega

/-! ## The plan is safe, sufficient and minimal -/

/-- The candidates of a map, in the order of the pass. -/
def sortedCandidates (now : Int) (sessions : SessionMap T) (policy : SessionPolicy)
    (snapshot : T → SessionSnapshot) : List (ReclaimCandidate T) :=
  (candidatesOf snapshot (reclaimCutoff now policy) sessions.live).mergeSort olderCandidate

/-- The plan is the pass over the sorted candidates, from the counts of the map. -/
theorem plan_eq (now : Int) (sessions : SessionMap T) (policy : SessionPolicy)
    (snapshot : T → SessionSnapshot) : ∃ perIP : String → Int,
    (∀ ip ≠ "", perIP ip = countIP snapshot ip sessions.live) ∧
    planFXPUDPPressureReclamation now sessions policy snapshot =
      reclaimPass policy (sortedCandidates now sessions policy snapshot) sessions.live.length perIP := by
  obtain ⟨htotal, hperIP, hcandidates⟩ := countSession_foldl snapshot (reclaimCutoff now policy)
    sessions.entries ⟨0, fun _ => 0, []⟩
  refine ⟨(sessions.entries.foldl (countSession snapshot (reclaimCutoff now policy))
    ⟨0, fun _ => 0, []⟩).perIP, fun ip hip => ?_, ?_⟩
  · rw [hperIP ip hip, Int.zero_add]
    rfl
  · unfold planFXPUDPPressureReclamation
    split
    next hempty =>
      have hnil : sessions.entries = [] := List.eq_nil_of_length_eq_zero hempty
      simp [sortedCandidates, SessionMap.live, candidatesOf, hnil, reclaimPass]
    next =>
      dsimp only
      rw [hcandidates, htotal, List.nil_append, Int.zero_add]
      rfl

theorem mem_sortedCandidates {now : Int} {sessions : SessionMap T} {policy : SessionPolicy} {c : ReclaimCandidate T} :
    c ∈ sortedCandidates now sessions policy snapshot ↔
      ∃ s ∈ sessions.live, (snapshot s.2).quiescent (reclaimCutoff now policy) = true ∧
        candidateOf snapshot s = c := by
  simp [sortedCandidates, candidatesOf, and_assoc]

theorem taken_sortedCandidates (now : Int) (sessions : SessionMap T) (policy : SessionPolicy)
    (snapshot : T → SessionSnapshot) :
    Taken snapshot sessions.live (sortedCandidates now sessions policy snapshot) where
  nodup := by
    have hperm := List.mergeSort_perm
      (candidatesOf snapshot (reclaimCutoff now policy) sessions.live) olderCandidate
    rw [sortedCandidates, (hperm.map ReclaimCandidate.key).nodup_iff, candidatesOf, List.map_map]
    exact sessions.live_keys_nodup.sublist (List.filter_sublist.map Prod.fst)
  mem c hc := by
    obtain ⟨s, hs, -, rfl⟩ := mem_sortedCandidates.mp hc
    exact ⟨hs, rfl⟩

/-- With a cutoff that 64 bits hold, the test of the loop is eligibility. -/
theorem quiescent_iff {now : Int} {policy : SessionPolicy} (h : CutoffInRange now policy)
    (state : SessionSnapshot) :
    state.quiescent (reclaimCutoff now policy) = true ↔ Eligible now policy state := by
  have hcutoff : (reclaimCutoff now policy).toInt = now - policy.effectiveReclaimAfter.toInt := by
    have hmin := h.1
    have hmax := h.2
    rw [Int64.toInt_minValue] at hmin
    rw [Int64.toInt_maxValue] at hmax
    exact Int64.toInt_ofInt_of_le hmin (by omega)
  simp only [SessionSnapshot.quiescent, Bool.and_eq_true, decide_eq_true_eq, Eligible, gt_iff_lt,
    Int64.lt_iff_toInt_lt, Int64.le_iff_toInt_le, hcutoff, Int64.toInt_zero]
  omega

/-- For every clock whose cutoff 64 bits hold, the plan lists eligible sessions only,
each once and oldest first; no eligible session that is left contributes to a count at or
above its soft limit; and each planned session does when the earlier ones are gone. -/
theorem pressure_plan_correct {now : Int} {policy : SessionPolicy} (h : CutoffInRange now policy)
    (sessions : SessionMap T) (snapshot : T → SessionSnapshot) :
    let plan := planFXPUDPPressureReclamation now sessions policy snapshot
    (∀ c ∈ plan, (c.key, c.session) ∈ sessions.live ∧ Eligible now policy (snapshot c.session)) ∧
    (plan.map ReclaimCandidate.key).Nodup ∧
    plan.Pairwise (fun a b =>
      (snapshot a.session).lastActivity.toInt ≤ (snapshot b.session).lastActivity.toInt) ∧
    (∀ s ∈ leftAfter sessions.live plan, Eligible now policy (snapshot s.2) →
      pressureOn snapshot policy (leftAfter sessions.live plan) (snapshot s.2).sourceIP = false) ∧
    (∀ before c after, plan = before ++ c :: after →
      pressureOn snapshot policy (leftAfter sessions.live before) (snapshot c.session).sourceIP = true) := by
  obtain ⟨perIP, hperIP, hplan⟩ := plan_eq now sessions policy snapshot
  have hall := taken_sortedCandidates now sessions policy snapshot
  have hlive := sessions.live_keys_nodup
  have hsub := reclaimPass_sublist policy (sortedCandidates now sessions policy snapshot)
    sessions.live.length perIP
  have hof : ∀ c ∈ sortedCandidates now sessions policy snapshot,
      c = candidateOf snapshot (c.key, c.session) ∧ Eligible now policy (snapshot c.session) := by
    intro c hc
    obtain ⟨s, -, hquiet, rfl⟩ := mem_sortedCandidates.mp hc
    exact ⟨rfl, (quiescent_iff h _).mp hquiet⟩
  dsimp only
  rw [hplan]
  refine ⟨fun c hc => ?_, (hall.sublist hsub).nodup, ?_, fun s hs heligible => ?_,
    fun before c after hsplit => ?_⟩
  · exact ⟨(hall.mem c (hsub.subset hc)).1, (hof c (hsub.subset hc)).2⟩
  · have hsorted := List.pairwise_mergeSort olderCandidate_trans olderCandidate_total
      (candidatesOf snapshot (reclaimCutoff now policy) sessions.live)
    refine (hsorted.sublist hsub).imp_of_mem (fun {a b} ha hb hab => ?_)
    have hlast : ∀ c ∈ sortedCandidates now sessions policy snapshot,
        (snapshot c.session).lastActivity = c.lastActivity := by
      intro c hc
      rw [(hof c hc).1]
      rfl
    rw [hlast a (hsub.subset ha), hlast b (hsub.subset hb)]
    simp only [olderCandidate, Int64.le_iff_toInt_le, ← Int64.toInt_inj] at hab
    split at hab
    next heq => omega
    next => exact of_decide_eq_true hab
  · -- a session that is left is a candidate the pass has skipped
    obtain ⟨hmem, hnot⟩ := List.mem_filter.mp hs
    have hcandidate : candidateOf snapshot s ∈ sortedCandidates now sessions policy snapshot :=
      mem_sortedCandidates.mpr ⟨s, hmem, (quiescent_iff h _).mpr heligible, rfl⟩
    have hskipped := reclaimPass_skipped policy _ sessions.live.length perIP hcandidate
      (fun htaken => of_decide_eq_true hnot (List.mem_map_of_mem htaken))
    rw [(hall.sublist hsub).pressureOn_left hlive hperIP]
    exact hskipped
  · have htaken := reclaimPass_taken policy _ _ _ hsplit
    have hbefore : before.Sublist (sortedCandidates now sessions policy snapshot) :=
      List.Sublist.trans (hsplit ▸ List.sublist_append_left before (c :: after)) hsub
    have hc : c ∈ sortedCandidates now sessions policy snapshot := by
      apply hsub.subset
      rw [hsplit]
      exact List.mem_append_right _ List.mem_cons_self
    rw [(hall.sublist hbefore).pressureOn_left hlive hperIP, ← (hall.mem c hc).2]
    exact htaken

/-- Two idle sessions from one address, and a busy one from another. -/
def threeSessions : SessionMap SessionSnapshot where
  entries := [("b", some ⟨"192.0.2.1", 2000000000, 0⟩), ("a", some ⟨"192.0.2.1", 1000000000, 0⟩),
    ("c", some ⟨"192.0.2.2", 1000000000, 1⟩)]
  nodup := by decide

theorem pressure_plan_three_sessions :
    let policy : SessionPolicy := ⟨100, 2, 30000000000⟩
    let plan := planFXPUDPPressureReclamation 40000000000 threeSessions policy id
    ∀ s ∈ leftAfter threeSessions.live plan, Eligible 40000000000 policy s.2 →
      pressureOn id policy (leftAfter threeSessions.live plan) s.2.sourceIP = false :=
  (pressure_plan_correct (by decide : CutoffInRange 40000000000 ⟨100, 2, 30000000000⟩)
    threeSessions id).2.2.2.1

/-- One session, idle for ten seconds at the time `11000000000`. -/
def oneSession : SessionMap SessionSnapshot where
  entries := [("a", some ⟨"192.0.2.1", 1000000000, 0⟩)]
  nodup := by decide

/-- A policy whose `reclaimAfter` is not positive gets the default: a session idle for
longer than the policy's own value is left, under pressure. And a clock so early that its
cutoff wraps around reclaims a session that has not been idle at all. -/
theorem pressure_plan_default_and_wrap :
    (planFXPUDPPressureReclamation 11000000000 oneSession ⟨1, 0, 0⟩ id = [] ∧
      ∃ s ∈ oneSession.live, 0 < s.2.lastActivity.toInt ∧
        (0 : Int64).toInt ≤ 11000000000 - s.2.lastActivity.toInt ∧ s.2.pending ≤ 0 ∧
        pressureOn id ⟨1, 0, 0⟩ oneSession.live s.2.sourceIP = true) ∧
    ∃ c ∈ planFXPUDPPressureReclamation (-9223372006854775809) oneSession ⟨1, 0, 30000000000⟩ id,
      ¬ (30000000000 : Int64).toInt ≤ -9223372006854775809 - c.session.lastActivity.toInt := by
  refine ⟨⟨?_, ("a", ⟨"192.0.2.1", 1000000000, 0⟩), ?_⟩,
    ⟨"a", ⟨"192.0.2.1", 1000000000, 0⟩, "192.0.2.1", 1000000000⟩, ?_, ?_⟩
  · show reclaimPass ⟨1, 0, 0⟩ (List.mergeSort [] olderCandidate) 1 _ = []
    rw [List.mergeSort_nil]
    rfl
  · decide +kernel
  · show _ ∈ reclaimPass ⟨1, 0, 30000000000⟩ (List.mergeSort
      [(⟨"a", ⟨"192.0.2.1", 1000000000, 0⟩, "192.0.2.1", 1000000000⟩ : ReclaimCandidate SessionSnapshot)]
      olderCandidate) 1 _
    rw [List.mergeSort_singleton]
    exact List.mem_cons_self
  · decide

end ForwardX.Udp
