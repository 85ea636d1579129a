import ForwardX.Lib.Trim
import ForwardX.Fxp.Configuration

/- Normalising a configuration twice is normalising it once (`normalizeConfig_idem`): what is
   compared by a normalised copy can be compared again. -/
namespace ForwardX.Fxp.Control
open Traffic (isSpace trimSpace)

/-! ## Texts -/

theorem toList_trimSpace (s : String) : (trimSpace s).toList = Trim.trim isSpace s.toList := by
  rw [trimSpace, String.toList_ofList, Trim.trim]

theorem trimSpace_trimSpace (s : String) : trimSpace (trimSpace s) = trimSpace s := by
  rw [← String.toList_inj, toList_trimSpace, toList_trimSpace, Trim.trim_trim]

variable (u : Unicode)

theorem Unicode.toList_lower (s : String) : (u.lower s).toList = s.toList.map u.toLower := by
  rw [Unicode.lower, String.toList_ofList]

theorem toList_lowerTrim (s : String) :
    (lowerTrim u s).toList = (Trim.trim isSpace s.toList).map u.toLower := by
  rw [lowerTrim, u.toList_lower, toList_trimSpace]

theorem lowerTrim_lowerTrim (s : String) : lowerTrim u (lowerTrim u s) = lowerTrim u s := by
  have hlower : u.toLower ∘ u.toLower = u.toLower := funext u.lower_lower
  rw [← String.toList_inj, toList_lowerTrim, toList_lowerTrim, Trim.trim_map _ u.space_lower, Trim.trim_trim,
    List.map_map, hlower]

theorem lowerTrim_word {s : String} (h : s.toList.all (fun c => c.val < 128 && c.toLower = c) = true)
    (htrim : trimSpace s = s) : lowerTrim u s = s := by
  rw [← String.toList_inj, lowerTrim, htrim, u.toList_lower]
  conv_rhs => rw [← List.map_id s.toList]
  apply List.map_congr_left
  intro c hc
  have hc := List.all_eq_true.mp h c hc
  rw [Bool.and_eq_true, decide_eq_true_eq, decide_eq_true_eq] at hc
  rw [u.lower_ascii c hc.1, hc.2, id]

/-! ## ASCII letters -/

theorem toLower_cases (c : Char) : (∃ n ∈ List.range 26, c = Char.ofNat (65 + n)) ∨ c.toLower = c := by
  by_cases hupper : c.val ≥ 'A'.val ∧ c.val ≤ 'Z'.val
  · have hrange : 65 ≤ c.toNat ∧ c.toNat ≤ 90 := hupper
    refine Or.inl ⟨c.toNat - 65, List.mem_range.mpr (by omega), ?_⟩
    rw [Nat.add_sub_cancel' hrange.1, Char.ofNat_toNat]
  · exact Or.inr (dif_neg hupper)

theorem toLower_toLower (c : Char) : c.toLower.toLower = c.toLower := by
  have hletters : ((List.range 26).all fun n =>
      (Char.ofNat (65 + n)).toLower.toLower = (Char.ofNat (65 + n)).toLower) = true := by decide
  rcases toLower_cases c with ⟨n, hn, rfl⟩ | hsame
  · exact of_decide_eq_true (List.all_eq_true.mp hletters n hn)
  · rw [hsame, hsame]

theorem isSpace_toLower (c : Char) : isSpace c.toLower = isSpace c := by
  have hletters : ((List.range 26).all fun n =>
      isSpace (Char.ofNat (65 + n)).toLower = isSpace (Char.ofNat (65 + n))) = true := by decide
  rcases toLower_cases c with ⟨n, hn, rfl⟩ | hsame
  · exact of_decide_eq_true (List.all_eq_true.mp hletters n hn)
  · rw [hsame]

def asciiUnicode : Unicode where
  toLower := Char.toLower
  lower_ascii := fun _ _ => rfl
  lower_lower := toLower_toLower
  space_lower := isSpace_toLower

/-! ## Fields -/

theorem lowerTrim_tcp : lowerTrim u "tcp" = "tcp" := lowerTrim_word u (by decide) (by decide)

theorem lowerTrim_udp : lowerTrim u "udp" = "udp" := lowerTrim_word u (by decide) (by decide)

theorem lowerTrim_both : lowerTrim u "both" = "both" := lowerTrim_word u (by decide) (by decide)

theorem normalizeProtocol_idem (protocol : String) :
    normalizeProtocol u (normalizeProtocol u protocol) = normalizeProtocol u protocol := by
  have hword : normalizeProtocol u protocol = "udp" ∨ normalizeProtocol u protocol = "both" ∨
      normalizeProtocol u protocol = "tcp" := by
    unfold normalizeProtocol
    split
    · exact Or.inl rfl
    · split
      · exact Or.inr (Or.inl rfl)
      · exact Or.inr (Or.inr rfl)
  rcases hword with hword | hword | hword <;> rw [hword, normalizeProtocol]
  · rw [lowerTrim_udp, if_pos rfl]
  · rw [lowerTrim_both, if_neg (by decide), if_pos (Or.inl rfl)]
  · rw [lowerTrim_tcp, if_neg (by decide), if_neg (by decide)]

theorem normalizeExitStrategy_idem (value : String) :
    normalizeExitStrategy u (normalizeExitStrategy u value) = normalizeExitStrategy u value := by
  have hrobin : lowerTrim u "round_robin" = "round_robin" := lowerTrim_word u (by decide) (by decide)
  unfold normalizeExitStrategy
  split
  · rename_i hin
    rw [lowerTrim_lowerTrim, if_pos hin]
  · rw [hrobin, if_neg (by decide)]

theorem normalizeProxyProtocolVersion_idem (version : Int) :
    normalizeProxyProtocolVersion (normalizeProxyProtocolVersion version) =
      normalizeProxyProtocolVersion version := by
  unfold normalizeProxyProtocolVersion
  split <;> rfl

theorem portOr_portOr (port other : Int) : portOr (portOr port other) other = portOr port other := by
  by_cases hset : port ≤ 0
  · have hother : portOr port other = other := if_pos hset
    rw [hother, portOr, ite_self]
  · have hport : portOr port other = port := if_neg hset
    rw [hport, hport]

theorem normalizeExit_idem (key : String) (exit : ExitEndpoint) :
    normalizeExit key (normalizeExit key exit) = normalizeExit key exit := by
  simp only [normalizeExit, trimSpace_trimSpace, portOr_portOr, ExitEndpoint.mk.injEq, true_and]
  by_cases hset : exit.Key = ""
  · simp [hset]
  · simp [hset]

/-! ## UDP targets -/

/-- What the loop over the UDP targets keeps as it is. -/
structure UdpTarget.Usable (target : UdpTarget) : Prop where
  rule : 0 < target.RuleID
  trimmed : trimSpace target.TargetIP = target.TargetIP
  ip : target.TargetIP ≠ ""
  port : 0 < target.TargetPort ∧ target.TargetPort ≤ 65535

theorem usableUDPTargets_spec (seen : List Int) (targets : List UdpTarget) :
    (∀ target ∈ usableUDPTargets seen targets, target.Usable ∧ target.RuleID ∉ seen) ∧
      ((usableUDPTargets seen targets).map UdpTarget.RuleID).Nodup := by
  induction targets generalizing seen with
  | nil => exact ⟨fun _ h => absurd h List.not_mem_nil, List.nodup_nil⟩
  | cons target targets ih =>
    unfold usableUDPTargets
    dsimp only
    split
    · exact ih seen
    · rename_i hgood
      simp only [not_or, Int.not_le, Int.not_lt] at hgood
      obtain ⟨hall, hnodup⟩ := ih (target.RuleID :: seen)
      constructor
      · intro other hother
        rcases List.mem_cons.mp hother with rfl | hother
        · exact ⟨⟨hgood.1, trimSpace_trimSpace _, hgood.2.1, hgood.2.2.1, hgood.2.2.2.1⟩, hgood.2.2.2.2⟩
        · obtain ⟨husable, hfresh⟩ := hall other hother
          exact ⟨husable, fun hseen => hfresh (List.mem_cons_of_mem _ hseen)⟩
      · rw [List.map_cons, List.nodup_cons]
        refine ⟨fun hmem => ?_, hnodup⟩
        obtain ⟨other, hother, hrule⟩ := List.mem_map.mp hmem
        exact (hall other hother).2 (hrule ▸ List.mem_cons_self)

theorem usableUDPTargets_eq {seen : List Int} {targets : List UdpTarget}
    (husable : ∀ target ∈ targets, target.Usable ∧ target.RuleID ∉ seen)
    (hnodup : (targets.map UdpTarget.RuleID).Nodup) : usableUDPTargets seen targets = targets := by
  induction targets generalizing seen with
  | nil => rfl
  | cons target targets ih =>
    obtain ⟨h, hfresh⟩ := husable target List.mem_cons_self
    rw [List.map_cons, List.nodup_cons] at hnodup
    have hrest : ∀ other ∈ targets, other.Usable ∧ other.RuleID ∉ target.RuleID :: seen := by
      intro other hother
      obtain ⟨hother', hseen⟩ := husable other (List.mem_cons_of_mem _ hother)
      refine ⟨hother', fun hmem => ?_⟩
      rcases List.mem_cons.mp hmem with heq | hmem
      · exact hnodup.1 (heq ▸ List.mem_map_of_mem hother)
      · exact hseen hmem
    have hgood : ¬(target.RuleID ≤ 0 ∨ target.TargetIP = "" ∨ target.TargetPort ≤ 0 ∨
        65535 < target.TargetPort ∨ target.RuleID ∈ seen) := by
      simp only [not_or, Int.not_le, Int.not_lt]
      exact ⟨h.rule, h.ip, h.port.1, h.port.2, hfresh⟩
    unfold usableUDPTargets
    simp only [h.trimmed]
    rw [if_neg hgood, ih hrest hnodup.2]

/-- The targets of a normalised configuration: usable, one for each rule, in order. -/
structure TargetsNormal (targets : List UdpTarget) : Prop where
  usable : ∀ target ∈ targets, target.Usable
  nodup : (targets.map UdpTarget.RuleID).Nodup
  sorted : targets.Pairwise (fun a b => a.RuleID ≤ b.RuleID)

theorem normalizeUDPTargets_normal (targets : List UdpTarget) : TargetsNormal (normalizeUDPTargets targets) := by
  obtain ⟨husable, hnodup⟩ := usableUDPTargets_spec [] targets
  have hperm := List.perm_insertionSort (fun a b : UdpTarget => a.RuleID ≤ b.RuleID) (usableUDPTargets [] targets)
  have : Std.Total (fun a b : UdpTarget => a.RuleID ≤ b.RuleID) := ⟨fun a b => Int.le_total _ _⟩
  have : IsTrans UdpTarget (fun a b => a.RuleID ≤ b.RuleID) := ⟨fun a b c => Int.le_trans⟩
  exact
    { usable := fun target htarget => (husable target (hperm.mem_iff.mp htarget)).1
      nodup := (hperm.map UdpTarget.RuleID).nodup_iff.mpr hnodup
      sorted := List.pairwise_insertionSort _ _ }

theorem normalizeUDPTargets_eq {targets : List UdpTarget} (h : TargetsNormal targets) :
    normalizeUDPTargets targets = targets := by
  rw [normalizeUDPTargets, usableUDPTargets_eq (fun target htarget => ⟨h.usable target htarget, List.not_mem_nil⟩)
    h.nodup]
  exact h.sorted.insertionSort_eq

/-! ## Configurations -/

theorem normalizeSettings_idem (cfg : Settings) :
    normalizeSettings u (normalizeSettings u cfg) = normalizeSettings u cfg := by
  have hexits : (cfg.Exits.map (normalizeExit cfg.Key)).map (normalizeExit cfg.Key) =
      cfg.Exits.map (normalizeExit cfg.Key) := by
    rw [List.map_map]
    exact List.map_congr_left fun exit _ => normalizeExit_idem cfg.Key exit
  simp only [normalizeSettings, lowerTrim_lowerTrim, trimSpace_trimSpace, normalizeProtocol_idem,
    normalizeExitStrategy_idem, normalizeProxyProtocolVersion_idem, portOr_portOr, hexits,
    normalizeUDPTargets_eq (normalizeUDPTargets_normal _)]

mutual

theorem normalizeConfig_idem : (cfg : Config) →
    normalizeConfig u (normalizeConfig u cfg) = normalizeConfig u cfg
  | .mk settings entries => by
    rw [normalizeConfig, normalizeConfig, normalizeSettings_idem, normalizeConfigs_idem entries]

theorem normalizeConfigs_idem : (entries : List Config) →
    normalizeConfigs u (normalizeConfigs u entries) = normalizeConfigs u entries
  | [] => rfl
  | entry :: entries => by
    rw [normalizeConfigs, normalizeConfigs, normalizeConfig_idem entry, normalizeConfigs_idem entries]

end

end ForwardX.Fxp.Control
