import Mathlib.Algebra.Order.Field.Rat
import Mathlib.Algebra.Order.Field.Basic
import ForwardX.Panel.PortPolicy

/- What port policies allow. A policy that was made is `Normal`; then it allows exactly the
   ports that its intervals cover (`allowed_iff`), a combination allows what all its parts allow
   (`combine_allowed`), and the port that is picked is a free one of those. -/
namespace ForwardX.Panel.Ports
open Intervals
open Ddns (jsTrim)

/-! ## Normalising -/

theorem clampInterval_eq_some {range r : Interval} :
    clampInterval range = some r ↔ r = ⟨max 1 range.start, min 65535 range.stop⟩ ∧ r.start ≤ r.stop := by
  unfold clampInterval
  dsimp only
  split
  · rename_i hle
    constructor
    · intro h
      obtain rfl := Option.some.inj h
      exact ⟨rfl, hle⟩
    · rintro ⟨rfl, _⟩
      rfl
  · rename_i hle
    constructor
    · intro h
      cases h
    · rintro ⟨rfl, h⟩
      exact absurd h hle

theorem covers_clamped (l : List Interval) (x : Int) :
    Covers (l.filterMap clampInterval) x ↔ (1 ≤ x ∧ x ≤ 65535) ∧ Covers l x := by
  constructor
  · rintro ⟨r, hr, hhas⟩
    obtain ⟨range, hrange, hclamp⟩ := List.mem_filterMap.mp hr
    obtain ⟨rfl, _⟩ := clampInterval_eq_some.mp hclamp
    unfold Interval.Has at hhas
    dsimp only at hhas
    exact ⟨by omega, range, hrange, by omega, by omega⟩
  · rintro ⟨hport, range, hrange, hstart, hstop⟩
    refine ⟨⟨max 1 range.start, min 65535 range.stop⟩, List.mem_filterMap.mpr ⟨range, hrange, ?_⟩, ?_, ?_⟩
    · exact clampInterval_eq_some.mpr ⟨rfl, by dsimp only; omega⟩
    · dsimp only
      omega
    · dsimp only
      omega

theorem intervalLe_total (a b : Interval) : IntervalLe a b ∨ IntervalLe b a := by
  unfold IntervalLe
  omega

theorem intervalLe_trans (a b c : Interval) : IntervalLe a b → IntervalLe b c → IntervalLe a c := by
  unfold IntervalLe
  omega

theorem sorted_insertionSort (l : List Interval) : Sorted (l.insertionSort IntervalLe) := by
  have hsorted : (l.insertionSort IntervalLe).Pairwise IntervalLe := by
    have : Std.Total IntervalLe := ⟨intervalLe_total⟩
    have : IsTrans Interval IntervalLe := ⟨intervalLe_trans⟩
    exact List.pairwise_insertionSort IntervalLe l
  apply hsorted.imp
  intro a b hab
  unfold IntervalLe at hab
  omega

theorem normalizeIntervals_covers (l : List Interval) (x : Int) :
    Covers (normalizeIntervals l) x ↔ (1 ≤ x ∧ x ≤ 65535) ∧ Covers l x := by
  unfold normalizeIntervals
  rw [merge_covers (sorted_insertionSort _), Covers.perm (List.perm_insertionSort _ _), covers_clamped]

theorem normalizeIntervals_ordered (l : List Interval) : Ordered (normalizeIntervals l) := by
  apply merge_ordered (sorted_insertionSort _)
  intro r hr
  rw [List.mem_insertionSort, List.mem_filterMap] at hr
  obtain ⟨range, _, hclamp⟩ := hr
  exact (clampInterval_eq_some.mp hclamp).2

/-! ## Normal policies -/

def PortPolicy.listed (policy : PortPolicy) : List Interval :=
  policy.primary ++ policy.rangeList ++ policy.allowlist.map (fun port => ⟨port, port⟩)

/-- A policy whose parts are in order and consist of ports. One that denies all lists none. -/
structure PortPolicy.Normal (policy : PortPolicy) : Prop where
  primary : ∀ r ∈ policy.primary, r.start ≤ r.stop ∧ 1 ≤ r.start ∧ r.stop ≤ 65535
  ranges : Ordered policy.rangeList
  rangePorts : ∀ r ∈ policy.rangeList, 1 ≤ r.start ∧ r.stop ≤ 65535
  allowlist : policy.allowlist.Pairwise (· ≤ ·)
  allowlistPorts : ∀ port ∈ policy.allowlist, 1 ≤ port ∧ port ≤ 65535
  normalized : policy.normalized = true
  denied : policy.denyAll = true → policy.listed = []

theorem PortPolicy.Normal.listedPorts {policy : PortPolicy} (h : policy.Normal) {x : Int}
    (hx : Covers policy.listed x) : 1 ≤ x ∧ x ≤ 65535 := by
  obtain ⟨r, hr, hstart, hstop⟩ := hx
  unfold PortPolicy.listed at hr
  rw [List.mem_append, List.mem_append] at hr
  rcases hr with (hr | hr) | hr
  · have := h.primary r hr
    omega
  · have := h.rangePorts r hr
    omega
  · obtain ⟨port, hport, rfl⟩ := List.mem_map.mp hr
    have := h.allowlistPorts port hport
    dsimp only at hstart hstop
    omega

theorem sortedIntervalsInclude_iff {l : List Interval} (h : Ordered l) (x : Int) :
    sortedIntervalsInclude l x = true ↔ Covers l x := by
  have horder : BinarySearch.InOrder (sideOfRange x) l := by
    apply (List.pairwise_iff_forall_sublist.mpr ?_)
    intro a b hab
    have hapart := List.pairwise_iff_forall_sublist.mp h.apart hab
    have ha := h.proper a (hab.subset (by simp))
    have hb := h.proper b (hab.subset (by simp))
    unfold sideOfRange
    constructor
    · intro hlt
      split at hlt
      · rw [if_pos (by omega)]
      · split at hlt <;> cases hlt
    · intro hgt
      split at hgt
      · cases hgt
      · split at hgt
        · rw [if_neg (by omega), if_pos (by omega)]
        · cases hgt
  unfold sortedIntervalsInclude
  rw [BinarySearch.binarySearch_iff horder]
  apply exists_congr
  intro r
  apply and_congr_right
  intro hr
  unfold sideOfRange Interval.Has
  split
  · simp; omega
  · split
    · simp; omega
    · simp; omega

theorem sortedNumbersInclude_iff {l : List Int} (h : l.Pairwise (· ≤ ·)) (x : Int) :
    sortedNumbersInclude l x = true ↔ x ∈ l := by
  have horder : BinarySearch.InOrder (sideOfNumber x) l := by
    apply h.imp
    intro a b hab
    unfold sideOfNumber
    constructor
    · intro hlt
      split at hlt
      · cases hlt
      · split at hlt
        · cases hlt
        · rw [if_neg (by omega), if_neg (by omega)]
    · intro hgt
      split at hgt
      · cases hgt
      · split at hgt
        · rw [if_neg (by omega), if_pos (by omega)]
        · cases hgt
  unfold sortedNumbersInclude
  rw [BinarySearch.binarySearch_iff horder]
  constructor
  · rintro ⟨value, hvalue, hside⟩
    unfold sideOfNumber at hside
    split at hside
    · rename_i heq
      exact heq ▸ hvalue
    · split at hside <;> cases hside
  · intro hx
    exact ⟨x, hx, by unfold sideOfNumber; rw [if_pos rfl]⟩

theorem covers_listed (policy : PortPolicy) (x : Int) :
    Covers policy.listed x ↔ Covers policy.primary x ∨ Covers policy.rangeList x ∨ x ∈ policy.allowlist := by
  unfold PortPolicy.listed
  rw [covers_append, covers_append, or_assoc]
  apply or_congr_right
  apply or_congr_right
  constructor
  · rintro ⟨r, hr, hstart, hstop⟩
    obtain ⟨port, hport, rfl⟩ := List.mem_map.mp hr
    obtain rfl : port = x := by
      dsimp only at hstart hstop
      omega
    exact hport
  · intro hx
    exact ⟨⟨x, x⟩, List.mem_map_of_mem hx, Int.le_refl x, Int.le_refl x⟩

theorem any_iff_covers (l : List Interval) (x : Int) :
    l.any (fun range => range.start ≤ x && x ≤ range.stop) = true ↔ Covers l x := by
  simp [Covers, Interval.Has]

/-- A normal policy allows the ports that it lists, and all ports when it lists none. -/
theorem allowed_iff {policy : PortPolicy} (h : policy.Normal) (port : JsNumber) :
    isPortAllowedByPolicy port policy = true ↔ ∃ x, port.integer = some x ∧ (1 ≤ x ∧ x ≤ 65535) ∧
      (portPolicyHasRestriction policy = true → policy.denyAll = false ∧ Covers policy.listed x) := by
  unfold isPortAllowedByPolicy
  rw [Option.any_eq_true]
  apply exists_congr
  intro x
  apply and_congr_right
  intro _
  by_cases hport : x < 1 ∨ 65535 < x
  · rw [if_pos hport]
    constructor
    · intro hfalse
      cases hfalse
    · intro hallowed
      omega
  · rw [if_neg hport, and_iff_right (by omega)]
    cases hdeny : policy.denyAll with
    | true =>
      have hrestricted : portPolicyHasRestriction policy = true := by simp [portPolicyHasRestriction, hdeny]
      simp [hrestricted]
    | false =>
      cases hrestricted : portPolicyHasRestriction policy with
      | false => simp
      | true =>
        rw [covers_listed, ← any_iff_covers policy.primary, ← sortedIntervalsInclude_iff h.ranges,
          ← sortedNumbersInclude_iff h.allowlist]
        simp only [h.normalized]
        cases policy.primary.any (fun range => range.start ≤ x && x ≤ range.stop) <;> simp

theorem policyIntervals_covers (policy : PortPolicy) (x : Int) :
    Covers (policyIntervals policy) x ↔ policy.denyAll = false ∧ (1 ≤ x ∧ x ≤ 65535) ∧ Covers policy.listed x := by
  unfold policyIntervals
  cases policy.denyAll with
  | true => simp [covers_nil]
  | false =>
    rw [if_neg Bool.false_ne_true, normalizeIntervals_covers]
    exact (and_iff_right rfl).symm

theorem policyIntervals_ordered (policy : PortPolicy) : Ordered (policyIntervals policy) := by
  unfold policyIntervals
  split
  · exact Ordered.nil
  · exact normalizeIntervals_ordered _

/-! ## Policies from a source -/

theorem optionalPort_ports {value : Option JsNumber} {port : Int} (h : optionalPort value = some port) :
    1 ≤ port ∧ port ≤ 65535 := by
  unfold optionalPort at h
  rw [Option.filter_eq_some_iff] at h
  simpa using h.2

variable (number : String → JsNumber)

theorem parsePortAllowlist_spec (value : Option String) :
    (parsePortAllowlist number value).Pairwise (· ≤ ·) ∧
      ∀ port ∈ parsePortAllowlist number value, 1 ≤ port ∧ port ≤ 65535 := by
  unfold parsePortAllowlist
  dsimp only
  split
  · exact ⟨List.Pairwise.nil, fun port hport => absurd hport List.not_mem_nil⟩
  · refine ⟨List.pairwise_insertionSort _ _, fun port hport => ?_⟩
    rw [List.mem_insertionSort, List.mem_dedup, List.mem_filterMap] at hport
    obtain ⟨_, _, hitem⟩ := hport
    exact optionalPort_ports hitem

theorem getD_ite_length {α : Type} (l : List α) : (if 0 < l.length then some l else none).getD [] = l := by
  cases l <;> rfl

theorem portPolicyFrom_range (source : Option PortPolicySource) :
    ((portPolicyFrom number source).rangeStart = none ∧ (portPolicyFrom number source).rangeEnd = none) ∨
      ∃ start stop, (portPolicyFrom number source).rangeStart = some start ∧
        (portPolicyFrom number source).rangeEnd = some stop ∧ start ≤ stop ∧ 1 ≤ start ∧ stop ≤ 65535 := by
  unfold portPolicyFrom
  dsimp only
  split
  · rename_i hvalid
    obtain ⟨start, hstart, hvalid⟩ := (Option.any_eq_true _ _).mp hvalid
    obtain ⟨stop, hstop, hle⟩ := (Option.any_eq_true _ _).mp hvalid
    obtain ⟨_, _, hfrom⟩ := Option.bind_eq_some_iff.mp hstart
    obtain ⟨_, _, hto⟩ := Option.bind_eq_some_iff.mp hstop
    exact .inr ⟨start, stop, hstart, hstop, of_decide_eq_true hle, (optionalPort_ports hfrom).1,
      (optionalPort_ports hto).2⟩
  · exact .inl ⟨rfl, rfl⟩

theorem primary_spec {policy : PortPolicy} (h : (policy.rangeStart = none ∧ policy.rangeEnd = none) ∨
    ∃ start stop, policy.rangeStart = some start ∧ policy.rangeEnd = some stop ∧ start ≤ stop ∧ 1 ≤ start ∧
      stop ≤ 65535) :
    ∀ r ∈ policy.primary, r.start ≤ r.stop ∧ 1 ≤ r.start ∧ r.stop ≤ 65535 := by
  intro r hr
  unfold PortPolicy.primary at hr
  obtain ⟨hstart, hstop⟩ | ⟨start, stop, hstart, hstop, hle, hports⟩ := h
  · rw [hstart] at hr
    cases hr
  · rw [hstart, hstop] at hr
    dsimp only at hr
    rw [List.mem_singleton] at hr
    rw [hr]
    exact ⟨hle, hports⟩

theorem portPolicyFrom_normal (source : Option PortPolicySource) : (portPolicyFrom number source).Normal := by
  have hrange : (portPolicyFrom number source).rangeList =
      normalizeIntervals ((source.elim [] (·.portRanges)).filterMap optionalRange).dedup := by
    simp only [portPolicyFrom, PortPolicy.rangeList, getD_ite_length]
  have hordered := normalizeIntervals_ordered ((source.elim [] (·.portRanges)).filterMap optionalRange).dedup
  obtain ⟨hsorted, hports⟩ := parsePortAllowlist_spec number (source.bind (·.portAllowlist))
  have hallowlist : (portPolicyFrom number source).allowlist =
      parsePortAllowlist number (source.bind (·.portAllowlist)) := by simp only [portPolicyFrom]
  rw [← hallowlist] at hsorted hports
  constructor
  · exact primary_spec (portPolicyFrom_range number source)
  · rw [hrange]
    exact hordered
  · rw [hrange]
    exact hordered.within fun x hx => ((normalizeIntervals_covers _ x).mp hx).1
  · exact hsorted
  · exact hports
  · rfl
  · intro hdeny
    cases hdeny

/-! ## Combinations -/

variable {policy : PortPolicy} {x : Int} {allowed : List Interval}

theorem intersectPolicies_spec (h : Ordered allowed) (policies : List PortPolicy) :
    Ordered (intersectPolicies allowed policies) ∧ ∀ x, Covers (intersectPolicies allowed policies) x ↔
      Covers allowed x ∧ ∀ policy ∈ policies, Covers (policyIntervals policy) x := by
  induction policies generalizing allowed with
  | nil => exact ⟨h, fun x => by simp [intersectPolicies]⟩
  | cons policy policies ih =>
    unfold intersectPolicies
    split
    · obtain ⟨hordered, hcovers⟩ := ih (intersect_ordered h (policyIntervals_ordered policy))
      refine ⟨hordered, fun x => ?_⟩
      rw [List.forall_mem_cons, ← and_assoc, ← intersect_covers h (policyIntervals_ordered policy)]
      exact hcovers x
    · rename_i hempty
      have hnil : allowed = [] := List.length_eq_zero_iff.mp (by omega)
      refine ⟨h, fun x => ?_⟩
      rw [hnil, covers_nil, false_and]

/-- The index that a fold picks out of some indices is one of them, or the one it starts with. -/
theorem bestIndex_lt (h : allowed ≠ []) : bestIndex allowed < allowed.length := by
  unfold bestIndex
  refine List.foldlRecOn (motive := fun best => best < allowed.length) _ _ (List.length_pos_iff.mpr h) ?_
  intro best hbest index hindex
  rw [List.mem_range] at hindex
  split
  · split
    · exact hindex
    · exact hbest
  · exact hbest

def remainingIntervals (allowed : List Interval) (leave : Bool) (best : Nat) : List Interval :=
  (allowed.zipIdx.filter (fun range => !leave || range.2 != best)).map Prod.fst

theorem remainingIntervals_sublist (allowed : List Interval) (leave : Bool) (best : Nat) :
    (remainingIntervals allowed leave best).Sublist allowed := by
  have hsublist := (List.filter_sublist (l := allowed.zipIdx)
    (p := fun range => !leave || range.2 != best)).map Prod.fst
  rwa [List.zipIdx_map_fst] at hsublist

theorem covers_remaining {best : Nat} {r : Interval} (hbest : allowed[best]? = some r) (leave : Bool) (x : Int) :
    Covers allowed x ↔ (leave = true ∧ r.Has x) ∨ Covers (remainingIntervals allowed leave best) x := by
  constructor
  · rintro ⟨range, hrange, hhas⟩
    obtain ⟨i, hi, rfl⟩ := List.getElem_of_mem hrange
    have hget := List.getElem?_eq_getElem hi
    by_cases hleave : leave = true ∧ i = best
    · obtain ⟨hleave, rfl⟩ := hleave
      rw [hget] at hbest
      rw [Option.some.inj hbest] at hhas
      exact .inl ⟨hleave, hhas⟩
    · refine .inr ⟨_, List.mem_map.mpr ⟨(allowed[i], i), List.mem_filter.mpr ⟨?_, ?_⟩, rfl⟩, hhas⟩
      · exact List.mk_mem_zipIdx_iff_getElem?.mpr hget
      · cases leave
        · rfl
        · simpa using hleave
  · rintro (⟨_, hhas⟩ | ⟨range, hrange, hhas⟩)
    · exact ⟨r, List.mem_of_getElem? hbest, hhas⟩
    · exact ⟨range, (remainingIntervals_sublist allowed leave best).subset hrange, hhas⟩

theorem covers_split (l : List Interval) (x : Int) :
    Covers l x ↔ Covers (l.filter (fun range => range.start ≠ range.stop)) x ∨
      x ∈ (l.filter (fun range => range.start = range.stop)).map (·.start) := by
  constructor
  · rintro ⟨r, hr, hstart, hstop⟩
    by_cases hsingle : r.start = r.stop
    · right
      exact List.mem_map.mpr ⟨r, List.mem_filter.mpr ⟨hr, decide_eq_true hsingle⟩, by omega⟩
    · left
      exact ⟨r, List.mem_filter.mpr ⟨hr, decide_eq_true hsingle⟩, hstart, hstop⟩
  · rintro (⟨r, hr, hhas⟩ | hx)
    · exact ⟨r, (List.mem_filter.mp hr).1, hhas⟩
    · obtain ⟨r, hr, rfl⟩ := List.mem_map.mp hx
      obtain ⟨hr, hsingle⟩ := List.mem_filter.mp hr
      exact ⟨r, hr, Int.le_refl _, Int.le_of_eq (of_decide_eq_true hsingle)⟩

theorem restricted_of_covers (h : Covers policy.listed x) : portPolicyHasRestriction policy = true := by
  have hlists : (policy.rangeStart.isSome = true ∧ policy.rangeEnd.isSome = true) ∨
      0 < policy.rangeList.length ∨ 0 < policy.allowlist.length := by
    rcases (covers_listed policy x).mp h with ⟨r, hr, _⟩ | ⟨r, hr, _⟩ | hx
    · left
      unfold PortPolicy.primary at hr
      split at hr
      · rename_i hstart hstop
        rw [hstart, hstop]
        exact ⟨rfl, rfl⟩
      · cases hr
    · exact .inr (.inl (List.length_pos_of_mem hr))
    · exact .inr (.inr (List.length_pos_of_mem hx))
  unfold portPolicyHasRestriction
  simp only [Bool.or_eq_true, Bool.and_eq_true, decide_eq_true_eq]
  exact hlists.elim (fun hrange => .inl (.inl (.inr hrange)))
    (fun hlist => hlist.elim (fun hranges => .inl (.inr hranges)) .inr)

/-- The encoding of some intervals lists them: the longest first, then the others. -/
theorem encodeIntervals_spec (h : Ordered allowed) (hne : allowed ≠ [])
    (hports : ∀ r ∈ allowed, 1 ≤ r.start ∧ r.stop ≤ 65535) :
    (encodeIntervals allowed).Normal ∧ (encodeIntervals allowed).denyAll = false ∧
      portPolicyHasRestriction (encodeIntervals allowed) = true ∧
      ∀ x, Covers (encodeIntervals allowed).listed x ↔ Covers allowed x := by
  obtain ⟨r, hbest⟩ : ∃ r, allowed[bestIndex allowed]? = some r :=
    ⟨_, List.getElem?_eq_getElem (bestIndex_lt hne)⟩
  have hmem : r ∈ allowed := List.mem_of_getElem? hbest
  -- the parts of the encoding
  have hrange : (encodeIntervals allowed).rangeStart = (if r.start < r.stop then some r.start else none) ∧
      (encodeIntervals allowed).rangeEnd = if r.start < r.stop then some r.stop else none := by
    unfold encodeIntervals
    rw [hbest]
    simp
  have hlonger : (encodeIntervals allowed).rangeList =
      (remainingIntervals allowed (decide (r.start < r.stop)) (bestIndex allowed)).filter
        (fun range => range.start ≠ range.stop) := by
    unfold encodeIntervals PortPolicy.rangeList
    rw [hbest]
    exact getD_ite_length _
  have hsingle : (encodeIntervals allowed).allowlist =
      ((remainingIntervals allowed (decide (r.start < r.stop)) (bestIndex allowed)).filter
        (fun range => range.start = range.stop)).map (·.start) := by
    unfold encodeIntervals
    rw [hbest]
    rfl
  have hprimary : ∀ x, Covers (encodeIntervals allowed).primary x ↔ decide (r.start < r.stop) = true ∧ r.Has x := by
    intro x
    unfold PortPolicy.primary
    rw [hrange.1, hrange.2]
    by_cases hlong : r.start < r.stop
    · rw [if_pos hlong, if_pos hlong, covers_cons, covers_nil, or_false]
      exact (and_iff_right (decide_eq_true hlong)).symm
    · rw [if_neg hlong, if_neg hlong]
      simp [covers_nil, hlong]
  have hremaining := remainingIntervals_sublist allowed (decide (r.start < r.stop)) (bestIndex allowed)
  have hlisted : ∀ x, Covers (encodeIntervals allowed).listed x ↔ Covers allowed x := by
    intro x
    rw [covers_listed, hprimary, hlonger, hsingle, ← covers_split]
    exact (covers_remaining hbest _ x).symm
  refine ⟨⟨?_, ?_, ?_, ?_, ?_, rfl, fun hdeny => by cases hdeny⟩, rfl, ?_, hlisted⟩
  · apply primary_spec
    rw [hrange.1, hrange.2]
    by_cases hlong : r.start < r.stop
    · rw [if_pos hlong, if_pos hlong]
      exact .inr ⟨_, _, rfl, rfl, Int.le_of_lt hlong, hports r hmem⟩
    · rw [if_neg hlong, if_neg hlong]
      exact .inl ⟨rfl, rfl⟩
  · rw [hlonger]
    exact h.sublist (List.filter_sublist.trans hremaining)
  · rw [hlonger]
    exact fun range hrange => hports range (hremaining.subset (List.mem_filter.mp hrange).1)
  · rw [hsingle]
    have hordered := h.sublist ((List.filter_sublist (p := fun range => range.start = range.stop)).trans hremaining)
    apply List.pairwise_map.mpr
    apply hordered.apart.imp_of_mem
    intro a b ha _ hab
    have := hordered.proper a ha
    omega
  · rw [hsingle]
    intro port hport
    obtain ⟨range, hrange, rfl⟩ := List.mem_map.mp hport
    have hin := hremaining.subset (List.mem_filter.mp hrange).1
    have := hports range hin
    have := h.proper range hin
    omega
  · have hcovered : Covers (encodeIntervals allowed).listed r.start :=
      (hlisted r.start).mpr ⟨r, hmem, Int.le_refl _, h.proper r hmem⟩
    exact restricted_of_covers hcovered

theorem unrestricted_none : portPolicyHasRestriction (portPolicyFrom number none) = false := by
  simp [portPolicyFrom, portPolicyHasRestriction, PortPolicy.rangeList, parsePortAllowlist, jsTrim,
    normalizeIntervals, merge]

theorem denyAll_normal : PortPolicy.Normal ⟨none, none, [], none, true, true⟩ :=
  ⟨fun _ hr => absurd hr List.not_mem_nil, Ordered.nil, fun _ hr => absurd hr List.not_mem_nil, List.Pairwise.nil,
    fun _ hport => absurd hport List.not_mem_nil, rfl, fun _ => rfl⟩

/-- A combination is normal, and allows a port exactly when every restricted part covers it. -/
theorem combine_spec (policies : List PortPolicy) :
    (combinePortPolicies number policies).Normal ∧ ∀ x, 1 ≤ x ∧ x ≤ 65535 →
      ((portPolicyHasRestriction (combinePortPolicies number policies) = true →
        (combinePortPolicies number policies).denyAll = false ∧
          Covers (combinePortPolicies number policies).listed x) ↔
      ∀ policy ∈ policies, portPolicyHasRestriction policy = true → Covers (policyIntervals policy) x) := by
  have hfilter : ∀ x, (∀ policy ∈ policies, portPolicyHasRestriction policy = true →
      Covers (policyIntervals policy) x) ↔
        ∀ policy ∈ policies.filter portPolicyHasRestriction, Covers (policyIntervals policy) x := by
    intro x
    simp only [List.mem_filter, and_imp]
  simp only [hfilter]
  unfold combinePortPolicies
  cases policies.filter portPolicyHasRestriction with
  | nil =>
    refine ⟨portPolicyFrom_normal number none, fun x _ => ?_⟩
    simp [unrestricted_none]
  | cons first restricted =>
    dsimp only
    obtain ⟨hordered, hcovers⟩ := intersectPolicies_spec (policyIntervals_ordered first) restricted
    have hports : ∀ x, Covers (intersectPolicies (policyIntervals first) restricted) x → 1 ≤ x ∧ x ≤ 65535 :=
      fun x hx => ((policyIntervals_covers first x).mp ((hcovers x).mp hx).1).2.1
    simp only [List.forall_mem_cons, ← hcovers]
    split
    · rename_i hempty
      refine ⟨denyAll_normal, fun x _ => ?_⟩
      rw [List.length_eq_zero_iff.mp hempty, covers_nil]
      simp [portPolicyHasRestriction]
    · rename_i hsome
      have hne : intersectPolicies (policyIntervals first) restricted ≠ [] :=
        fun hnil => hsome (List.length_eq_zero_iff.mpr hnil)
      obtain ⟨hnormal, hdeny, hrestricted, hlisted⟩ :=
        encodeIntervals_spec hordered hne (hordered.within hports)
      refine ⟨hnormal, fun x _ => ?_⟩
      rw [hdeny, hrestricted, hlisted]
      simp

theorem Made.normal (h : Made number policy) : policy.Normal := by
  cases h with
  | source source => exact portPolicyFrom_normal number source
  | combined policies _ => exact (combine_spec number policies).1

theorem combine_allowed {policies : List PortPolicy} (h : ∀ policy ∈ policies, policy.Normal) (port : JsNumber) :
    isPortAllowedByPolicy port (combinePortPolicies number policies) = true ↔
      (∃ x, port.integer = some x ∧ 1 ≤ x ∧ x ≤ 65535) ∧
        ∀ policy ∈ policies, isPortAllowedByPolicy port policy = true := by
  obtain ⟨hnormal, hspec⟩ := combine_spec number policies
  rw [allowed_iff hnormal]
  constructor
  · rintro ⟨x, hx, hport, hcovered⟩
    refine ⟨⟨x, hx, hport⟩, fun policy hpolicy => ?_⟩
    rw [allowed_iff (h policy hpolicy)]
    refine ⟨x, hx, hport, fun hrestricted => ?_⟩
    obtain ⟨hdeny, _, hlisted⟩ :=
      (policyIntervals_covers policy x).mp ((hspec x hport).mp hcovered policy hpolicy hrestricted)
    exact ⟨hdeny, hlisted⟩
  · rintro ⟨⟨x, hx, hport⟩, hall⟩
    refine ⟨x, hx, hport, (hspec x hport).mpr fun policy hpolicy hrestricted => ?_⟩
    obtain ⟨y, hy, _, hlisted⟩ := (allowed_iff (h policy hpolicy) port).mp (hall policy hpolicy)
    obtain rfl : x = y := Option.some.inj (hx.symm.trans hy)
    exact (policyIntervals_covers policy x).mpr ⟨(hlisted hrestricted).1, hport, (hlisted hrestricted).2⟩

theorem port_of_allowed (h : policy.Normal) {port : JsNumber} (hallowed : isPortAllowedByPolicy port policy = true) :
    ∃ x, port.integer = some x ∧ 1 ≤ x ∧ x ≤ 65535 := by
  obtain ⟨x, hx, hport, _⟩ := (allowed_iff h port).mp hallowed
  exact ⟨x, hx, hport⟩

theorem integer_intCast (x : Int) : (JsNumber.rational x).integer = some x := by
  show (if ((x : ℚ)).den = 1 then some (x : ℚ).num else none) = some x
  rw [if_pos (Rat.den_intCast x), Rat.num_intCast]

/-! ## A host's policy and a preferred range -/

theorem optionalPort_intCast {port : Int} (h : 1 ≤ port ∧ port ≤ 65535) :
    optionalPort (some (.rational port)) = some port := by
  simp [optionalPort, integer_intCast, h.1, h.2]

theorem listed_range {start stop : Int} (hle : start ≤ stop) (hstart : 1 ≤ start) (hstop : stop ≤ 65535) :
    (portPolicyFrom number (some ⟨some (.rational start), some (.rational stop), none, []⟩)).listed =
      [⟨start, stop⟩] := by
  have hnone : parsePortAllowlist number none = [] := by simp [parsePortAllowlist, jsTrim]
  simp only [portPolicyFrom, PortPolicy.listed, PortPolicy.primary, PortPolicy.rangeList, getD_ite_length,
    Option.bind_some, optionalPort_intCast ⟨hstart, hle.trans hstop⟩, optionalPort_intCast ⟨hstart.trans hle, hstop⟩,
    Option.any_some, hle, decide_true, if_true, hnone]
  rfl

/-- Beside a preferred range that is not the host's own one, a port must lie in both. -/
theorem combineHostPortPolicyWithRange_allowed {hostSource : Option PortPolicySource}
    {preferredStart preferredEnd : Option JsNumber} {start stop : Int}
    (hstart : optionalPort preferredStart = some start) (hstop : optionalPort preferredEnd = some stop)
    (hle : start ≤ stop) (hother : ¬ ((portPolicyFrom number hostSource).rangeStart = some start ∧
      (portPolicyFrom number hostSource).rangeEnd = some stop)) (port : JsNumber) :
    isPortAllowedByPolicy port (combineHostPortPolicyWithRange number hostSource preferredStart preferredEnd) = true ↔
      isPortAllowedByPolicy port (portPolicyFrom number hostSource) = true ∧
        ∃ x, port.integer = some x ∧ start ≤ x ∧ x ≤ stop := by
  have hports := (optionalPort_ports hstart).1
  have hports' := (optionalPort_ports hstop).2
  have hlisted := listed_range number hle hports hports'
  have hnormal := portPolicyFrom_normal number (some ⟨some (.rational start), some (.rational stop), none, []⟩)
  have hrange : isPortAllowedByPolicy port
      (portPolicyFrom number (some ⟨some (.rational start), some (.rational stop), none, []⟩)) = true ↔
      ∃ x, port.integer = some x ∧ start ≤ x ∧ x ≤ stop := by
    have hrestricted : portPolicyHasRestriction
        (portPolicyFrom number (some ⟨some (.rational start), some (.rational stop), none, []⟩)) = true := by
      simp only [portPolicyFrom, portPolicyHasRestriction, Option.bind_some,
        optionalPort_intCast ⟨hports, hle.trans hports'⟩, optionalPort_intCast ⟨hports.trans hle, hports'⟩,
        Option.any_some, hle, decide_true, if_true, Option.isSome_some, Bool.and_self, Bool.or_true, Bool.true_or]
    rw [allowed_iff hnormal, hlisted]
    constructor
    · rintro ⟨x, hx, -, hcovered⟩
      obtain ⟨-, r, hr, hin⟩ := hcovered hrestricted
      obtain rfl := List.mem_singleton.mp hr
      exact ⟨x, hx, hin⟩
    · rintro ⟨x, hx, hin⟩
      have hport : 1 ≤ x ∧ x ≤ 65535 := by omega
      exact ⟨x, hx, hport, fun _ => ⟨rfl, _, List.mem_singleton_self _, hin⟩⟩
  unfold combineHostPortPolicyWithRange
  simp only [hstart, hstop, if_neg (Int.not_lt.mpr hle), if_neg hother]
  rw [combine_allowed number (by simp [portPolicyFrom_normal])]
  simp only [List.mem_cons, List.not_mem_nil, or_false, forall_eq_or_imp, forall_eq, hrange]
  constructor
  · rintro ⟨-, hallowed⟩
    exact hallowed
  · intro hallowed
    exact ⟨port_of_allowed (portPolicyFrom_normal number hostSource) hallowed.1, hallowed⟩

/-! ## Picking a port -/

theorem mem_portsBetween {start stop x : Int} : x ∈ portsBetween start stop ↔ start ≤ x ∧ x ≤ stop := by
  unfold portsBetween
  rw [List.mem_map]
  constructor
  · rintro ⟨i, hi, rfl⟩
    rw [List.mem_range] at hi
    omega
  · rintro ⟨hstart, hstop⟩
    exact ⟨(x - start).toNat, List.mem_range.mpr (by omega), by omega⟩

theorem mem_flatMap_ports {l : List Interval} :
    x ∈ l.flatMap (fun range => portsBetween range.start range.stop) ↔ Covers l x := by
  rw [List.mem_flatMap]
  simp only [mem_portsBetween]
  rfl

theorem mem_candidates {used : Int → Bool} {ports candidates : List Int} :
    x ∈ ports.foldl (addCandidate used) candidates ↔ x ∈ candidates ∨ (x ∈ ports ∧ used x = false) := by
  induction ports generalizing candidates with
  | nil => simp
  | cons port ports ih =>
    rw [List.foldl_cons, ih, List.mem_cons]
    unfold addCandidate
    by_cases hskip : (used port || candidates.contains port) = true
    · rw [if_pos hskip]
      constructor
      · rintro (hx | ⟨hx, hfree⟩)
        · exact .inl hx
        · exact .inr ⟨.inr hx, hfree⟩
      · rintro (hx | ⟨rfl | hx, hfree⟩)
        · exact .inl hx
        · rw [hfree, Bool.false_or] at hskip
          exact .inl (List.contains_iff_mem.mp hskip)
        · exact .inr ⟨hx, hfree⟩
    · rw [if_neg hskip, List.mem_append, List.mem_singleton]
      have hfree : used port = false := by
        rw [Bool.or_eq_true, not_or] at hskip
        exact Bool.eq_false_iff.mpr hskip.1
      constructor
      · rintro ((hx | rfl) | ⟨hx, hfree⟩)
        · exact .inl hx
        · exact .inr ⟨.inl rfl, hfree⟩
        · exact .inr ⟨.inr hx, hfree⟩
      · rintro (hx | ⟨rfl | hx, hfree⟩)
        · exact .inl (.inl hx)
        · exact .inl (.inr rfl)
        · exact .inr ⟨hx, hfree⟩

theorem randomCandidate_spec {random : ℚ} (hrandom : 0 ≤ random ∧ random < 1) (candidates : List Int) :
    (∀ x, randomCandidate random candidates = some x → x ∈ candidates) ∧
      (randomCandidate random candidates = none → candidates = []) := by
  unfold randomCandidate
  by_cases hnone : candidates.length = 0
  · rw [if_pos hnone]
    refine ⟨fun x hx => ?_, fun _ => List.length_eq_zero_iff.mp hnone⟩
    cases hx
  · rw [if_neg hnone]
    refine ⟨fun x hx => List.mem_of_getElem? hx, fun hmissing => ?_⟩
    have hlength : (0 : ℚ) < candidates.length := Nat.cast_pos.mpr (Nat.pos_of_ne_zero hnone)
    have hnonneg : 0 ≤ ⌊random * candidates.length⌋ := Int.floor_nonneg.mpr (mul_nonneg hrandom.1 hlength.le)
    have hlt : ⌊random * candidates.length⌋ < (candidates.length : Int) := by
      apply Int.floor_lt.mpr
      have hmul := mul_lt_mul_of_pos_right hrandom.2 hlength
      rw [one_mul] at hmul
      exact_mod_cast hmul
    have hindex : (Rat.floor (random * candidates.length)).toNat < candidates.length := by
      have hfloor : Rat.floor (random * candidates.length) = ⌊random * candidates.length⌋ := rfl
      omega
    rw [List.getElem?_eq_getElem hindex] at hmissing
    cases hmissing

/-- A scan from an offset, around the end of the range, meets every port of the range. -/
theorem exists_offset {start stop x : Int} (hx : start ≤ x ∧ x ≤ stop) (offset : Int) :
    ∃ i, i < (stop - start + 1).toNat ∧ start + (offset + (i : Int)) % (stop - start + 1) = x := by
  have hpos : 0 < stop - start + 1 := by omega
  refine ⟨((x - start - offset) % (stop - start + 1)).toNat, ?_, ?_⟩
  · have := Int.emod_lt_of_pos (x - start - offset) hpos
    omega
  · have hnonneg := Int.emod_nonneg (x - start - offset) (Int.ne_of_gt hpos)
    have hwrap : (offset + (x - start - offset) % (stop - start + 1)) % (stop - start + 1) = x - start := by
      calc (offset + (x - start - offset) % (stop - start + 1)) % (stop - start + 1)
          = (offset + (x - start - offset)) % (stop - start + 1) := Int.add_emod_emod _ _ _
        _ = (x - start) % (stop - start + 1) := by congr 1; omega
        _ = x - start := Int.emod_eq_of_lt (by omega) (by omega)
    rw [Int.toNat_of_nonneg hnonneg, hwrap]
    omega

theorem pick_spec (h : policy.Normal) {random : ℚ} (hrandom : 0 ≤ random ∧ random < 1) (used : Int → Bool)
    {defaults : Interval} (hdefaults : 1 ≤ defaults.start ∧ defaults.start ≤ defaults.stop ∧ defaults.stop ≤ 65535) :
    (∀ x, pickAvailablePort random policy used defaults = some x →
      isPortAllowedByPolicy (.rational x) policy = true ∧ used x = false ∧
        (portPolicyHasRestriction policy = false → defaults.Has x)) ∧
    (pickAvailablePort random policy used defaults = none →
      ∀ x : Int, isPortAllowedByPolicy (.rational x) policy = true →
        (portPolicyHasRestriction policy = false → defaults.Has x) → used x = true) := by
  have hallowed : ∀ x : Int, isPortAllowedByPolicy (.rational x) policy = true ↔ (1 ≤ x ∧ x ≤ 65535) ∧
      (portPolicyHasRestriction policy = true → policy.denyAll = false ∧ Covers policy.listed x) := by
    intro x
    rw [allowed_iff h, integer_intCast]
    simp
  simp only [hallowed]
  unfold pickAvailablePort
  cases hrestricted : portPolicyHasRestriction policy with
  | true =>
    rw [if_pos rfl]
    have hports : ∀ x, x ∈ policy.primary.flatMap (fun range => portsBetween range.start range.stop) ++
        policy.rangeList.flatMap (fun range => portsBetween range.start range.stop) ++ policy.allowlist ↔
          Covers policy.listed x := by
      intro x
      rw [List.mem_append, List.mem_append, mem_flatMap_ports, mem_flatMap_ports, covers_listed, or_assoc]
    obtain ⟨hsome, hnone⟩ := randomCandidate_spec hrandom
      ((policy.primary.flatMap (fun range => portsBetween range.start range.stop) ++
        policy.rangeList.flatMap (fun range => portsBetween range.start range.stop) ++ policy.allowlist).foldl
          (addCandidate used) [])
    refine ⟨fun x hx => ?_, fun hx x hallow _ => ?_⟩
    · obtain ⟨hin, hfree⟩ := (mem_candidates.mp (hsome x hx)).resolve_left List.not_mem_nil
      rw [hports] at hin
      refine ⟨⟨h.listedPorts hin, fun _ => ⟨?_, hin⟩⟩, hfree, fun hfalse => ?_⟩
      · cases hdeny : policy.denyAll with
        | false => rfl
        | true =>
          rw [h.denied hdeny] at hin
          exact absurd hin (covers_nil x).mp
      · cases hfalse
    · by_contra hused
      have hmem := mem_candidates.mpr (Or.inr (a := x ∈ ([] : List Int))
        ⟨(hports x).mpr (hallow.2 rfl).2, Bool.eq_false_iff.mpr hused⟩)
      rw [hnone hx] at hmem
      exact absurd hmem List.not_mem_nil
  | false =>
    have hstart : max 1 (min 65535 defaults.start) = defaults.start := by omega
    have hstop : max defaults.start (min 65535 defaults.stop) = defaults.stop := by omega
    rw [if_neg Bool.false_ne_true]
    dsimp only
    rw [hstart, hstop]
    have hports : ∀ x, defaults.Has x → 1 ≤ x ∧ x ≤ 65535 := by
      rintro x ⟨hfrom, hto⟩
      omega
    split
    · obtain ⟨hsome, hnone⟩ := randomCandidate_spec hrandom
        ((portsBetween defaults.start defaults.stop).foldl (addCandidate used) [])
      refine ⟨fun x hx => ?_, fun hx x _ hin => ?_⟩
      · obtain ⟨hin, hfree⟩ := (mem_candidates.mp (hsome x hx)).resolve_left List.not_mem_nil
        rw [mem_portsBetween] at hin
        exact ⟨⟨hports x hin, fun hfalse => by cases hfalse⟩, hfree, fun _ => hin⟩
      · by_contra hused
        have hmem := mem_candidates.mpr (Or.inr (a := x ∈ ([] : List Int))
          ⟨mem_portsBetween.mpr (hin rfl), Bool.eq_false_iff.mpr hused⟩)
        rw [hnone hx] at hmem
        exact absurd hmem List.not_mem_nil
    · refine ⟨fun x hx => ?_, fun hx x _ hin => ?_⟩
      · have hfree := List.find?_some hx
        obtain ⟨i, _, rfl⟩ := List.mem_map.mp (List.mem_of_find?_eq_some hx)
        have hpos : 0 < defaults.stop - defaults.start + 1 := by omega
        have hnonneg := Int.emod_nonneg (Rat.floor (random * ((defaults.stop - defaults.start + 1 : Int) : ℚ)) + (i : Int))
          (Int.ne_of_gt hpos)
        have hlt := Int.emod_lt_of_pos (Rat.floor (random * ((defaults.stop - defaults.start + 1 : Int) : ℚ)) + (i : Int))
          hpos
        have hin : defaults.Has (defaults.start +
            (Rat.floor (random * ((defaults.stop - defaults.start + 1 : Int) : ℚ)) + (i : Int)) %
              (defaults.stop - defaults.start + 1)) := by
          constructor <;> omega
        exact ⟨⟨hports _ hin, fun hfalse => by cases hfalse⟩, by simpa using hfree, fun _ => hin⟩
      · obtain ⟨i, hi, hport⟩ := exists_offset (hin rfl)
          (Rat.floor (random * ((defaults.stop - defaults.start + 1 : Int) : ℚ)))
        have hmissed := List.find?_eq_none.mp hx x (List.mem_map.mpr ⟨i, List.mem_range.mpr hi, hport⟩)
        simpa using hmissed

/-! ## The algebra -/

def SamePorts (a b : PortPolicy) : Prop := ∀ port, isPortAllowedByPolicy port a = isPortAllowedByPolicy port b

/-- A combination of policies that were made allows a port exactly when all of them do; it does
not depend on how and in which order they are combined; and the port that is picked under a
policy is an allowed and unused one, of the defaults where the policy has no restriction, and
missing only when there is none. -/
theorem port_policy_algebra :
    (∀ policies, (∀ policy ∈ policies, Made number policy) →
      (∀ x : Int, 1 ≤ x ∧ x ≤ 65535 → (isPortAllowedByPolicy (.rational x) (combinePortPolicies number policies) = true ↔
        ∀ policy ∈ policies, isPortAllowedByPolicy (.rational x) policy = true)) ∧
      (policies ≠ [] → ∀ port, isPortAllowedByPolicy port (combinePortPolicies number policies) = true ↔
        ∀ policy ∈ policies, isPortAllowedByPolicy port policy = true)) ∧
    (∀ a b c, Made number a → Made number b → Made number c →
      SamePorts (combinePortPolicies number [combinePortPolicies number [a, b], c])
        (combinePortPolicies number [a, combinePortPolicies number [b, c]]) ∧
      SamePorts (combinePortPolicies number [a, b]) (combinePortPolicies number [b, a]) ∧
      SamePorts (combinePortPolicies number [a, a]) a) ∧
    (∀ policy, Made number policy → ∀ (random : ℚ) (used : Int → Bool) (defaults : Interval),
      0 ≤ random ∧ random < 1 →
      1 ≤ defaults.start ∧ defaults.start ≤ defaults.stop ∧ defaults.stop ≤ 65535 →
      (∀ x, pickAvailablePort random policy used defaults = some x →
        isPortAllowedByPolicy (.rational x) policy = true ∧ used x = false ∧
          (portPolicyHasRestriction policy = false → defaults.Has x)) ∧
      (pickAvailablePort random policy used defaults = none →
        ∀ x : Int, isPortAllowedByPolicy (.rational x) policy = true →
          (portPolicyHasRestriction policy = false → defaults.Has x) → used x = true)) := by
  have hall : ∀ policies, (∀ policy ∈ policies, Made number policy) → policies ≠ [] → ∀ port,
      isPortAllowedByPolicy port (combinePortPolicies number policies) = true ↔
        ∀ policy ∈ policies, isPortAllowedByPolicy port policy = true := by
    intro policies hmade hne port
    rw [combine_allowed number (fun policy hpolicy => (hmade policy hpolicy).normal)]
    apply and_iff_right_of_imp
    intro hallowed
    obtain ⟨policy, hpolicy⟩ := List.exists_mem_of_ne_nil policies hne
    exact port_of_allowed (hmade policy hpolicy).normal (hallowed policy hpolicy)
  have hpair : ∀ a b, Made number a → Made number b → ∀ port,
      isPortAllowedByPolicy port (combinePortPolicies number [a, b]) = true ↔
        isPortAllowedByPolicy port a = true ∧ isPortAllowedByPolicy port b = true := by
    intro a b ha hb port
    rw [hall [a, b] (by simp [ha, hb]) (by simp)]
    simp
  have hmade : ∀ a b, Made number a → Made number b → Made number (combinePortPolicies number [a, b]) :=
    fun a b ha hb => .combined [a, b] (by simp [ha, hb])
  refine ⟨fun policies hpolicies => ⟨fun x hport => ?_, hall policies hpolicies⟩,
    fun a b c ha hb hc => ⟨fun port => ?_, fun port => ?_, fun port => ?_⟩,
    fun policy hpolicy random used defaults hrandom hdefaults => pick_spec hpolicy.normal hrandom used hdefaults⟩
  · rw [combine_allowed number (fun policy hpolicy => (hpolicies policy hpolicy).normal)]
    exact and_iff_right ⟨x, integer_intCast x, hport⟩
  · rw [Bool.eq_iff_iff, hpair _ c (hmade a b ha hb) hc, hpair a b ha hb, hpair a _ ha (hmade b c hb hc),
      hpair b c hb hc, and_assoc]
  · rw [Bool.eq_iff_iff, hpair a b ha hb, hpair b a hb ha, and_comm]
  · rw [Bool.eq_iff_iff, hpair a a ha ha, and_self]

/-- `Number`, of the only text that is read here. -/
def numberOf23001 (text : String) : JsNumber := if text = "23001" then .rational 23001 else .notFinite

def hostSource : PortPolicySource := ⟨some (.rational 22600), some (.rational 22600), some "23001", []⟩

def preferredSource : PortPolicySource :=
  ⟨none, none, none, [(some (.rational 22500), some (.rational 22700)), (some (.rational 22000), some (.rational 22600))]⟩

/-- Combined, the extra port is lost and the other one stays. -/
theorem preferred_range_drops_extra_port :
    isPortAllowedByPolicy (.rational 22600) (combinePortPolicies numberOf23001
        [portPolicyFrom numberOf23001 (some hostSource), portPolicyFrom numberOf23001 (some preferredSource)]) = true ∧
      isPortAllowedByPolicy (.rational 23001) (combinePortPolicies numberOf23001
        [portPolicyFrom numberOf23001 (some hostSource), portPolicyFrom numberOf23001 (some preferredSource)]) ≠ true := by
  have hmade : ∀ policy ∈ [portPolicyFrom numberOf23001 (some hostSource),
      portPolicyFrom numberOf23001 (some preferredSource)], Made numberOf23001 policy := by
    intro policy hpolicy
    rw [List.mem_cons, List.mem_singleton] at hpolicy
    rcases hpolicy with rfl | rfl <;> exact .source _
  have hcombined := ((port_policy_algebra numberOf23001).1 _ hmade).2 (by simp)
  constructor
  · apply (hcombined _).mpr
    intro policy hpolicy
    rw [List.mem_cons, List.mem_singleton] at hpolicy
    rcases hpolicy with rfl | rfl <;> decide +kernel
  · intro hallowed
    have hpreferred := (hcombined _).mp hallowed (portPolicyFrom numberOf23001 (some preferredSource)) (by simp)
    revert hpreferred
    decide +kernel

end ForwardX.Panel.Ports
