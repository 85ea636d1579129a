import Mathlib.Data.Rat.Defs
import Mathlib.Algebra.Order.Ring.Rat
import ForwardX.Lib.Windows

/- The clock of the panel (`panelClock.ts`): what the offsets of several time sources agree on.
   Numbers are rationals; one that is not finite is `none`. -/
namespace ForwardX.Panel.PanelClock
open Windows

structure PanelClockSample where
  source : String
  offsetMs : Option ℚ
  roundTripMs : Option ℚ
  deriving DecidableEq

structure PanelClockConsensus where
  offsetMs : ℚ
  samples : List PanelClockSample
  degraded : Bool

def maxClockOffsetMs : ℚ := 86400000

def PanelClockSample.offset (sample : PanelClockSample) : ℚ := sample.offsetMs.getD 0

def PanelClockSample.valid (sample : PanelClockSample) : Bool :=
  sample.offsetMs.any (fun offset => |offset| ≤ maxClockOffsetMs) && sample.roundTripMs.any (fun trip => 0 ≤ trip)

def validSamples (samples : List PanelClockSample) : List PanelClockSample :=
  (samples.filter PanelClockSample.valid).insertionSort (fun left right => left.offset ≤ right.offset)

def selectPanelClockConsensus (samples : List PanelClockSample) (toleranceMs : ℚ) (allowSingleSource : Bool) :
    Option PanelClockConsensus :=
  match validSamples samples with
  | [] => none
  | [sample] => if allowSingleSource then some ⟨sample.offset, [sample], true⟩ else none
  | valid =>
    let (best, ambiguous) := scan PanelClockSample.offset toleranceMs valid
    if best.length < 2 || ambiguous then none
    else some ⟨median (best.map PanelClockSample.offset), best, false⟩

/-! ## Offsets -/

def validOffsets (samples : List PanelClockSample) : List ℚ := (validSamples samples).map PanelClockSample.offset

theorem validSamples_sorted (samples : List PanelClockSample) :
    (validSamples samples).Pairwise (fun a b => a.offset ≤ b.offset) := by
  have : Std.Total (fun a b : PanelClockSample => a.offset ≤ b.offset) := ⟨fun a b => le_total a.offset b.offset⟩
  have : IsTrans PanelClockSample (fun a b => a.offset ≤ b.offset) := ⟨fun _ _ _ => le_trans⟩
  exact List.pairwise_insertionSort _ _

theorem validOffsets_sorted (samples : List PanelClockSample) : (validOffsets samples).Pairwise (· ≤ ·) :=
  List.pairwise_map.mpr (validSamples_sorted samples)

def sampleOffsets (samples : List PanelClockSample) : List ℚ :=
  (samples.filter PanelClockSample.valid).map PanelClockSample.offset

theorem validOffsets_perm (samples : List PanelClockSample) : (validOffsets samples).Perm (sampleOffsets samples) :=
  (List.perm_insertionSort _ _).map _

/-- The consensus by the offsets alone. -/
def consensusOffset (toleranceMs : ℚ) (allowSingleSource : Bool) : List ℚ → Option ℚ
  | [] => none
  | [offset] => if allowSingleSource then some offset else none
  | first :: second :: rest =>
    let (best, ambiguous) := scan id toleranceMs (first :: second :: rest)
    if best.length < 2 || ambiguous then none else some (median best)

theorem select_offset (samples : List PanelClockSample) (toleranceMs : ℚ) (allowSingleSource : Bool) :
    (selectPanelClockConsensus samples toleranceMs allowSingleSource).map PanelClockConsensus.offsetMs =
      consensusOffset toleranceMs allowSingleSource (validOffsets samples) := by
  rw [selectPanelClockConsensus, validOffsets]
  cases hvalid : validSamples samples with
  | nil => rfl
  | cons first rest =>
    cases rest with
    | nil => cases allowSingleSource <;> rfl
    | cons second rest =>
      have hmap := scan_map PanelClockSample.offset toleranceMs (first :: second :: rest)
      simp only [List.map_cons] at hmap ⊢
      rw [consensusOffset, ← hmap]
      simp only [List.length_map]
      split <;> rfl

/-! ## Consensus -/

def IsLargest (offsets : List ℚ) (width : ℚ) (n : Nat) : Prop :=
  (∃ x, within id width x offsets = n) ∧ ∀ x, within id width x offsets ≤ n

theorem IsLargest.unique {offsets : List ℚ} {width : ℚ} {m n : Nat} (hm : IsLargest offsets width m)
    (hn : IsLargest offsets width n) : m = n := by
  obtain ⟨x, hx⟩ := hm.1
  obtain ⟨y, hy⟩ := hn.1
  have h₁ := hm.2 y
  have h₂ := hn.2 x
  omega

theorem IsLargest.perm {offsets others : List ℚ} {width : ℚ} {n : Nat} (hperm : offsets.Perm others) :
    IsLargest offsets width n ↔ IsLargest others width n := by
  simp only [IsLargest, within, hperm.countP_eq]

section
variable {offsets : List ℚ} {width : ℚ} (hsorted : offsets.Pairwise (· ≤ ·)) (hwidth : 0 ≤ width)
include hsorted hwidth

/-- The best window of the scan is the first of those with the largest number of offsets. -/
theorem scan_best (hne : offsets ≠ []) :
    IsLargest offsets width (scan id width offsets).1.length ∧
      (windows id width offsets).find? (fun w => w.length = (scan id width offsets).1.length) =
        some (scan id width offsets).1 := by
  have hscan := scan_scanned id hwidth offsets
  have hfirst : (windows id width offsets).find? (fun w => w.length = (scan id width offsets).1.length) =
      some (scan id width offsets).1 := by
    refine hscan.first.resolve_left fun hnil => ?_
    cases offsets with
    | nil => exact hne rfl
    | cons s rest => cases hnil.1
  have hmax : ∀ x, within id width x offsets ≤ (scan id width offsets).1.length := by
    intro x
    rcases Nat.eq_zero_or_pos (within id width x offsets) with hzero | hpos
    · omega
    · obtain ⟨w, hw, hle⟩ := within_le id hsorted hpos
      exact le_trans hle (hscan.longest w hw)
  obtain ⟨x, _, hle⟩ := mem_windows id hsorted hwidth (List.mem_of_find?_eq_some hfirst)
  exact ⟨⟨⟨x, le_antisymm (hmax x) hle⟩, hmax⟩, hfirst⟩

omit hsorted in
variable (offsets) in
/-- The scan is not ambiguous if the medians of the largest windows lie close to that of the first. -/
theorem scan_ambiguous :
    (scan id width offsets).2 = false ↔ ∀ w ∈ windows id width offsets,
      w.length = (scan id width offsets).1.length → |median w - median (scan id width offsets).1| ≤ width := by
  have hscan := scan_scanned id hwidth offsets
  rw [← Bool.not_eq_true, hscan.ambiguous]
  constructor
  · intro hnone w hw hlength
    by_contra hfar
    refine hnone ⟨w, hw, hlength, ?_⟩
    rw [apart, List.map_id, List.map_id, abs_sub_comm]
    exact decide_eq_true (not_le.mp hfar)
  · rintro hclose ⟨w, hw, hlength, hapart⟩
    rw [apart, List.map_id, List.map_id, abs_sub_comm] at hapart
    exact absurd (of_decide_eq_true hapart) (not_lt.mpr (hclose w hw hlength))

/-- The median of the best window is near to every interval with most of the offsets. -/
theorem median_near {lo hi : ℚ} (hspan : hi - lo ≤ width)
    (hmost : offsets.length < 2 * offsets.countP (fun o => lo ≤ o ∧ o ≤ hi)) {o : ℚ} (hlo : lo ≤ o) (hhi : o ≤ hi) :
    |median (scan id width offsets).1 - o| ≤ 2 * width := by
  have hne : offsets ≠ [] := by
    rintro rfl
    simp at hmost
  obtain ⟨⟨_, hmax⟩, hfirst⟩ := scan_best hsorted hwidth hne
  have hbest := List.mem_of_find?_eq_some hfirst
  obtain ⟨x, hmem, hle⟩ := mem_windows id hsorted hwidth hbest
  -- both the interval and the window of the scan hold more than half of the offsets
  have hinterval : offsets.countP (fun o => lo ≤ o ∧ o ≤ hi) ≤ within id width lo offsets := by
    refine List.countP_mono_left fun o _ ho => ?_
    simp only [Bool.decide_and, Bool.and_eq_true, decide_eq_true_eq, id] at ho ⊢
    exact ⟨ho.1, by linarith [ho.2]⟩
  have hwindow : offsets.length < 2 * within id width x offsets := by
    have := hmax lo
    omega
  obtain ⟨c, _, hc, hc'⟩ := exists_of_majorities hmost hwindow
  simp only [Bool.decide_and, Bool.and_eq_true, decide_eq_true_eq, id] at hc hc'
  obtain ⟨hmedlo, hmedhi⟩ := median_mem (windows_ne_nil hbest) hmem
  rw [abs_le]
  constructor <;> linarith [hc.1, hc.2, hc'.1, hc'.2]

end

/-- The consensus depends on the valid offsets and not on their order; two or more have one if the
largest windows agree; and it is near to every interval with most of the offsets. -/
theorem clock_consensus {toleranceMs : ℚ} (htolerance : 0 ≤ toleranceMs) (allowSingleSource : Bool)
    (samples : List PanelClockSample) :
    (∀ others, (sampleOffsets samples).Perm (sampleOffsets others) →
      (selectPanelClockConsensus samples toleranceMs allowSingleSource).map PanelClockConsensus.offsetMs =
        (selectPanelClockConsensus others toleranceMs allowSingleSource).map PanelClockConsensus.offsetMs) ∧
    (2 ≤ (sampleOffsets samples).length →
      ((selectPanelClockConsensus samples toleranceMs allowSingleSource).isSome = true ↔
        ∃ n first, IsLargest (sampleOffsets samples) toleranceMs n ∧ 2 ≤ n ∧
          (windows id toleranceMs (validOffsets samples)).find? (fun w => w.length = n) = some first ∧
          ∀ w ∈ windows id toleranceMs (validOffsets samples), w.length = n →
            |median w - median first| ≤ toleranceMs)) ∧
    ∀ consensus, selectPanelClockConsensus samples toleranceMs allowSingleSource = some consensus →
      ∀ lo hi, hi - lo ≤ toleranceMs →
        (sampleOffsets samples).length < 2 * (sampleOffsets samples).countP (fun o => lo ≤ o ∧ o ≤ hi) →
        ∀ o ∈ sampleOffsets samples, lo ≤ o → o ≤ hi → |consensus.offsetMs - o| ≤ 2 * toleranceMs := by
  have hsorted := validOffsets_sorted samples
  have hperm := validOffsets_perm samples
  refine ⟨fun others hothers => ?_, fun htwo => ?_, ?_⟩
  · have hsame : validOffsets samples = validOffsets others := by
      refine List.Perm.eq_of_pairwise (fun a b _ _ => le_antisymm) hsorted (validOffsets_sorted others) ?_
      exact hperm.trans (hothers.trans (validOffsets_perm others).symm)
    rw [select_offset, select_offset, hsame]
  · have hoffset := congrArg Option.isSome (select_offset samples toleranceMs allowSingleSource)
    rw [Option.isSome_map] at hoffset
    rw [hoffset]
    rw [← hperm.length_eq] at htwo
    simp only [← IsLargest.perm hperm]
    obtain ⟨first, second, rest, hlist⟩ : ∃ first second rest, validOffsets samples = first :: second :: rest := by
      cases hoffsets : validOffsets samples with
      | nil => simp [hoffsets] at htwo
      | cons first rest =>
        cases rest with
        | nil => simp [hoffsets] at htwo
        | cons second rest => exact ⟨first, second, rest, rfl⟩
    obtain ⟨hlargest, hfirst⟩ := scan_best hsorted htolerance (by rw [hlist]; exact List.cons_ne_nil _ _)
    have hclear := scan_ambiguous (validOffsets samples) htolerance
    have hconsensus : consensusOffset toleranceMs allowSingleSource (validOffsets samples) =
        if (scan id toleranceMs (validOffsets samples)).1.length < 2 || (scan id toleranceMs (validOffsets samples)).2
        then none else some (median (scan id toleranceMs (validOffsets samples)).1) := by
      rw [hlist, consensusOffset]
    rw [hconsensus]
    constructor
    · intro hsome
      by_cases hbad : ((scan id toleranceMs (validOffsets samples)).1.length < 2 ||
          (scan id toleranceMs (validOffsets samples)).2) = true
      · rw [if_pos hbad] at hsome
        cases hsome
      · simp only [Bool.or_eq_true, decide_eq_true_eq, not_or, not_lt, Bool.not_eq_true] at hbad
        exact ⟨_, _, hlargest, hbad.1, hfirst, hclear.mp hbad.2⟩
    · rintro ⟨n, best, hn, hsize, hfound, hclose⟩
      obtain rfl := hn.unique hlargest
      obtain rfl := Option.some.inj (hfound.symm.trans hfirst)
      rw [hclear.mpr hclose, if_neg]
      · rfl
      · simp only [Bool.or_false, decide_eq_true_eq, not_lt]
        exact hsize
  · intro consensus hselect lo hi hspan hmost o ho hlo hhi
    have hoffset := select_offset samples toleranceMs allowSingleSource
    rw [hselect, Option.map_some] at hoffset
    rw [← hperm.length_eq, ← hperm.countP_eq] at hmost
    cases hlist : validOffsets samples with
    | nil =>
      rw [hlist] at hmost
      simp at hmost
    | cons first rest =>
      cases hrest : rest with
      | nil =>
        -- the only offset is the consensus
        subst hrest
        rw [hlist] at hoffset
        have hsame : o = first := by
          have hmem := hperm.mem_iff.mpr ho
          rw [hlist] at hmem
          exact List.mem_singleton.mp hmem
        rw [consensusOffset] at hoffset
        split at hoffset
        · rw [Option.some.inj hoffset, hsame, sub_self, abs_zero]
          linarith
        · cases hoffset
      | cons second rest' =>
        subst hrest
        rw [hlist] at hmost hsorted
        rw [hlist, consensusOffset] at hoffset
        dsimp only at hoffset
        split at hoffset
        · cases hoffset
        · rw [Option.some.inj hoffset]
          exact median_near hsorted htolerance hspan hmost hlo hhi

/-- Two of three sources agree within a second. -/
theorem minority_outvoted : ∃ consensus,
    selectPanelClockConsensus [⟨"a", some 100, some 20⟩, ⟨"b", some 900, some 35⟩, ⟨"c", some 60000, some 12⟩]
      1000 false = some consensus ∧ |consensus.offsetMs - 900| ≤ 2 * 1000 := by
  obtain ⟨consensus, hconsensus⟩ : ∃ consensus, selectPanelClockConsensus
      [⟨"a", some 100, some 20⟩, ⟨"b", some 900, some 35⟩, ⟨"c", some 60000, some 12⟩] 1000 false = some consensus :=
    Option.isSome_iff_exists.mp (by decide +kernel)
  refine ⟨consensus, hconsensus, ?_⟩
  refine (clock_consensus (by norm_num) false _).2.2 consensus hconsensus 0 1000 (by norm_num) ?_ 900 ?_
    (by norm_num) (by norm_num)
  · decide +kernel
  · decide +kernel

end ForwardX.Panel.PanelClock
