import ForwardX.Agent.EntryGroupFold

/- A mutable group is the plain list of the entries of its active slots (`Inv`): every active slot is found by each
   index under every key of its entry, and what an index finds by rule or endpoint has that rule or endpoint. What an
   operation hides (`Hides`) is what it drops of the list. -/
namespace ForwardX.Agent.EntryGroups
open Fxp.Traffic (trimSpace)
open Fxp.Control (Unicode)

def SharedFXPEntrySlot.hide (s : SharedFXPEntrySlot) (hit : Bool) : SharedFXPEntrySlot := ⟨s.entry, s.active && !hit⟩

@[simp] theorem SharedFXPEntrySlot.hide_active (s : SharedFXPEntrySlot) (hit : Bool) :
    (s.hide hit).active = (s.active && !hit) := rfl

@[simp] theorem SharedFXPEntrySlot.hide_false (s : SharedFXPEntrySlot) : s.hide false = s := by
  rw [hide, Bool.not_false, Bool.and_true]

@[simp] theorem SharedFXPEntrySlot.hide_hide (s : SharedFXPEntrySlot) (hit hit' : Bool) :
    (s.hide hit).hide hit' = s.hide (hit || hit') := by
  simp [hide, Bool.and_assoc]

theorem SharedFXPEntrySlot.hide_of_inactive {s : SharedFXPEntrySlot} (h : s.active = false) (hit : Bool) : s.hide hit = s := by
  rw [hide, h, Bool.false_and, ← h]

namespace MutableSharedFXPEntryGroup

variable {u : Unicode} {g g' g'' : MutableSharedFXPEntryGroup} {hit hit' : Nat → Bool} {p : FxpEntry → Bool}

/-! ## Hidden slots -/

/-- Of the slots of `g` those that are hit are inactive in `g'`; the indexes are the same. -/
structure Hides (g g' : MutableSharedFXPEntryGroup) (hit : Nat → Bool) : Prop where
  slots : ∀ j : Nat, g'.slots[j]? = (g.slots[j]?).map fun s => s.hide (hit j)
  active : ∀ (j : Nat) s, g.slots[j]? = some s → s.active = true → hit j = false → j ∈ g.active → j ∈ g'.active
  byRule : g'.byRule = g.byRule
  byListenPort : g'.byListenPort = g.byListenPort
  byEndpoint : g'.byEndpoint = g.byEndpoint
  tunnel : g'.tunnelID = g.tunnelID
  version : g'.transportVersion = g.transportVersion

theorem Hides.refl (g : MutableSharedFXPEntryGroup) : Hides g g fun _ => false := by
  refine ⟨fun j => ?_, fun _ _ _ _ _ hj => hj, rfl, rfl, rfl, rfl, rfl⟩
  cases g.slots[j]? with
  | none => rfl
  | some s => simp

theorem Hides.congr (h : Hides g g' hit)
    (heq : ∀ j s, g.slots[j]? = some s → s.active = true → hit j = hit' j) : Hides g g' hit' :=
  { h with
    slots := fun j => by
      rw [h.slots]
      cases hslot : g.slots[j]? with
      | none => rfl
      | some s =>
        by_cases hs : s.active = true
        · simp [heq j s hslot hs]
        · have hs := Bool.eq_false_iff.mpr hs
          simp [SharedFXPEntrySlot.hide_of_inactive hs]
    active := fun j s hslot hs hhit => h.active j s hslot hs ((heq j s hslot hs).trans hhit) }

theorem Hides.trans (h : Hides g g' hit) (h' : Hides g' g'' hit') : Hides g g'' fun j => hit j || hit' j where
  slots j := by
    rw [h'.slots, h.slots]
    cases g.slots[j]? with
    | none => rfl
    | some s => simp
  active j s hslot hs hhit hj := by
    rw [Bool.or_eq_false_iff] at hhit
    have hslot' : g'.slots[j]? = some (s.hide (hit j)) := by rw [h.slots, hslot, Option.map_some]
    refine h'.active j _ hslot' ?_ hhit.2 (h.active j s hslot hs hhit.1 hj)
    simp [hs, hhit.1]
  byRule := h'.byRule.trans h.byRule
  byListenPort := h'.byListenPort.trans h.byListenPort
  byEndpoint := h'.byEndpoint.trans h.byEndpoint
  tunnel := h'.tunnel.trans h.tunnel
  version := h'.version.trans h.version

theorem Hides.any_entry (h : Hides g g' hit) (p : FxpEntry → Bool) (j : Nat) :
    (g'.slots[j]?).any (fun s => p s.entry) = (g.slots[j]?).any (fun s => p s.entry) := by
  rw [h.slots]
  cases g.slots[j]? with
  | none => rfl
  | some s => rfl

theorem hides_removeSlot (g : MutableSharedFXPEntryGroup) (i : Nat) : Hides g (g.removeSlot i) fun j => j == i := by
  unfold removeSlot
  split
  · refine ⟨fun j => ?_, fun j s _ _ hhit hj => ?_, rfl, rfl, rfl, rfl, rfl⟩
    · show (g.slots.modify i fun slot => { slot with active := false })[j]? = _
      rw [List.getElem?_modify]
      by_cases hij : i = j
      · subst hij
        simp [SharedFXPEntrySlot.hide]
      · have hji : (j == i) = false := by simpa using Ne.symm hij
        simp [hij, hji]
    · have hji : j ≠ i := by simpa using hhit
      exact List.mem_filter.mpr ⟨hj, by simpa using hji⟩
  · rename_i hinactive
    refine (Hides.refl g).congr fun j s hslot hs => ?_
    by_cases hji : j = i
    · subst hji
      rw [hslot] at hinactive
      exact absurd hs hinactive
    · simpa using hji

theorem hides_removeSlots (l : List Nat) (g : MutableSharedFXPEntryGroup) :
    Hides g (l.foldl removeSlot g) fun j => l.contains j := by
  induction l generalizing g with
  | nil => exact (Hides.refl g).congr fun _ _ _ _ => rfl
  | cons i l ih =>
    refine ((hides_removeSlot g i).trans (ih _)).congr fun j _ _ _ => ?_
    rw [List.contains_cons]

/-- The slots that are removed because they match are those of the candidates that match. -/
theorem hides_matching (p : FxpEntry → Bool) (l : List Nat) (g : MutableSharedFXPEntryGroup) :
    Hides g (l.foldl (fun group index => if (group.slots[index]?).any (fun slot => p slot.entry) then group.removeSlot index
      else group) g) fun j => l.contains j && (g.slots[j]?).any fun slot => p slot.entry := by
  induction l generalizing g with
  | nil => exact (Hides.refl g).congr fun _ _ _ _ => rfl
  | cons i l ih =>
    rw [List.foldl_cons]
    by_cases hp : (g.slots[i]?).any (fun slot => p slot.entry) = true
    · rw [if_pos hp]
      have hslot := hides_removeSlot g i
      refine (hslot.trans (ih _)).congr fun j _ _ _ => ?_
      rw [hslot.any_entry]
      by_cases hji : j = i
      · subst hji
        simp [hp]
      · simp [hji]
    · rw [if_neg hp]
      refine (ih _).congr fun j _ _ _ => ?_
      by_cases hji : j = i
      · subst hji
        simp [Bool.not_eq_true _ ▸ hp]
      · simp [hji]

variable (u) in
/-- A loop over candidates hides those that match, and leaves the active ones that do not. -/
theorem prune_spec (request : FxpEntry) (l : List Nat) (g : MutableSharedFXPEntryGroup) :
    Hides g (prune u request l g).1 (fun j => l.contains j && (g.slots[j]?).any fun slot =>
      fxpRemovalMatchesEntry u request slot.entry) ∧
    ∀ j, j ∈ (prune u request l g).2 ↔ j ∈ l ∧ (g.slots[j]?).any SharedFXPEntrySlot.active = true ∧
      (g.slots[j]?).any (fun slot => fxpRemovalMatchesEntry u request slot.entry) = false := by
  induction l generalizing g with
  | nil => exact ⟨(Hides.refl g).congr fun _ _ _ _ => rfl, fun j => by simp [prune]⟩
  | cons i l ih =>
    unfold prune
    by_cases hactive : (g.slots[i]?).any SharedFXPEntrySlot.active = true
    · rw [hactive, Bool.not_true, if_neg Bool.false_ne_true]
      by_cases hp : (g.slots[i]?).any (fun slot => fxpRemovalMatchesEntry u request slot.entry) = true
      · rw [if_pos hp]
        have hslot := hides_removeSlot g i
        obtain ⟨hhides, hrest⟩ := ih (g.removeSlot i)
        constructor
        · refine (hslot.trans hhides).congr fun j _ _ _ => ?_
          rw [hslot.any_entry]
          by_cases hji : j = i
          · subst hji
            simp [hp]
          · simp [hji]
        · intro j
          rw [hrest, hslot.any_entry]
          by_cases hji : j = i
          · subst hji
            simp [hp]
          · have hsame : ((g.removeSlot i).slots[j]?).any SharedFXPEntrySlot.active = (g.slots[j]?).any SharedFXPEntrySlot.active := by
              rw [hslot.slots]
              cases g.slots[j]? with
              | none => rfl
              | some s => simp [hji]
            rw [hsame, List.mem_cons, or_iff_right hji]
      · rw [if_neg hp]
        have hp := Bool.not_eq_true _ ▸ hp
        obtain ⟨hhides, hrest⟩ := ih g
        constructor
        · refine hhides.congr fun j _ _ _ => ?_
          by_cases hji : j = i
          · subst hji
            simp [hp]
          · simp [hji]
        · intro j
          show j ∈ i :: (prune u request l g).2 ↔ _
          rw [List.mem_cons, hrest, List.mem_cons]
          constructor
          · rintro (rfl | ⟨hj, hrest⟩)
            · exact ⟨Or.inl rfl, hactive, hp⟩
            · exact ⟨Or.inr hj, hrest⟩
          · rintro ⟨rfl | hj, hrest⟩
            · exact Or.inl rfl
            · exact Or.inr ⟨hj, hrest⟩
    · have hinactive := Bool.not_eq_true _ ▸ hactive
      rw [hinactive, Bool.not_false, if_pos rfl]
      obtain ⟨hhides, hrest⟩ := ih g
      constructor
      · refine hhides.congr fun j s hslot hs => ?_
        by_cases hji : j = i
        · subst hji
          rw [hslot] at hinactive
          exact absurd hs (by simpa using hinactive)
        · simp [hji]
      · intro j
        rw [hrest, List.mem_cons]
        constructor
        · rintro ⟨hj, hrest⟩
          exact ⟨Or.inr hj, hrest⟩
        · rintro ⟨rfl | hj, hactive', hmatch⟩
          · exact absurd hactive' hactive
          · exact ⟨hj, hactive', hmatch⟩

/-! ## The invariant -/

/-- Every active slot is found by each index, and an index by rule or endpoint finds no other rule or endpoint. -/
structure Inv (u : Unicode) (g : MutableSharedFXPEntryGroup) : Prop where
  settled : ∀ (j : Nat) s, g.slots[j]? = some s → Settled u g.tunnelID g.transportVersion s.entry
  active : ∀ (j : Nat) s, g.slots[j]? = some s → s.active = true → j ∈ g.active
  rule : ∀ (j : Nat) s, g.slots[j]? = some s → s.active = true → j ∈ g.byRule s.entry.RuleID
  port : ∀ (j : Nat) s, g.slots[j]? = some s → s.active = true → j ∈ g.byListenPort s.entry.ListenPort
  endpoint : ∀ (j : Nat) s, g.slots[j]? = some s → s.active = true →
    ∀ e ∈ sharedFXPEntryEndpoints u s.entry, j ∈ g.byEndpoint e
  ofRule : ∀ j r, j ∈ g.byRule r → ∃ s, g.slots[j]? = some s ∧ s.entry.RuleID = r
  ofEndpoint : ∀ j e, j ∈ g.byEndpoint e → ∃ s, g.slots[j]? = some s ∧ e ∈ sharedFXPEntryEndpoints u s.entry

theorem Hides.slot (h : Hides g g' hit) {j : Nat} {s : SharedFXPEntrySlot} (hs : g'.slots[j]? = some s) :
    ∃ s₀, g.slots[j]? = some s₀ ∧ s = s₀.hide (hit j) := by
  rw [h.slots] at hs
  obtain ⟨s₀, hs₀, rfl⟩ := Option.map_eq_some_iff.mp hs
  exact ⟨s₀, hs₀, rfl⟩

theorem Inv.hide (hi : Inv u g) (h : Hides g g' hit) : Inv u g' := by
  have hactive : ∀ {j : Nat} {s : SharedFXPEntrySlot}, g'.slots[j]? = some s → s.active = true →
      ∃ s₀, g.slots[j]? = some s₀ ∧ s₀.entry = s.entry ∧ s₀.active = true ∧ hit j = false := by
    intro j s hs hsActive
    obtain ⟨s₀, hs₀, rfl⟩ := h.slot hs
    rw [SharedFXPEntrySlot.hide_active, Bool.and_eq_true, Bool.not_eq_true'] at hsActive
    exact ⟨s₀, hs₀, rfl, hsActive⟩
  have hkeep : ∀ {j : Nat} {s₀ : SharedFXPEntrySlot}, g.slots[j]? = some s₀ → ∃ s, g'.slots[j]? = some s ∧ s.entry = s₀.entry := by
    intro j s₀ hs₀
    exact ⟨s₀.hide (hit j), by rw [h.slots, hs₀, Option.map_some], rfl⟩
  refine ⟨fun j s hs => ?_, fun j s hs hsActive => ?_, fun j s hs hsActive => ?_, fun j s hs hsActive => ?_,
    fun j s hs hsActive e he => ?_, fun j r hj => ?_, fun j e hj => ?_⟩
  · obtain ⟨s₀, hs₀, rfl⟩ := h.slot hs
    rw [h.tunnel, h.version]
    exact hi.settled j s₀ hs₀
  · obtain ⟨s₀, hs₀, _, hs₀Active, hhit⟩ := hactive hs hsActive
    exact h.active j s₀ hs₀ hs₀Active hhit (hi.active j s₀ hs₀ hs₀Active)
  · obtain ⟨s₀, hs₀, hentry, hs₀Active, _⟩ := hactive hs hsActive
    rw [h.byRule, ← hentry]
    exact hi.rule j s₀ hs₀ hs₀Active
  · obtain ⟨s₀, hs₀, hentry, hs₀Active, _⟩ := hactive hs hsActive
    rw [h.byListenPort, ← hentry]
    exact hi.port j s₀ hs₀ hs₀Active
  · obtain ⟨s₀, hs₀, hentry, hs₀Active, _⟩ := hactive hs hsActive
    rw [h.byEndpoint]
    exact hi.endpoint j s₀ hs₀ hs₀Active e (hentry ▸ he)
  · rw [h.byRule] at hj
    obtain ⟨s₀, hs₀, hr⟩ := hi.ofRule j r hj
    obtain ⟨s, hs, hentry⟩ := hkeep hs₀
    exact ⟨s, hs, by rw [hentry, hr]⟩
  · rw [h.byEndpoint] at hj
    obtain ⟨s₀, hs₀, he⟩ := hi.ofEndpoint j e hj
    obtain ⟨s, hs, hentry⟩ := hkeep hs₀
    exact ⟨s, hs, hentry ▸ he⟩

theorem Inv.setRule (hi : Inv u g) {r : Int} {l : List Nat}
    (hactive : ∀ (j : Nat) s, g.slots[j]? = some s → s.active = true → s.entry.RuleID = r → j ∈ l)
    (hold : ∀ j ∈ l, j ∈ g.byRule r) : Inv u { g with byRule := Function.update g.byRule r l } :=
  { hi with
    rule := fun j s hs hsActive => by
      show j ∈ Function.update g.byRule r l s.entry.RuleID
      by_cases hr : s.entry.RuleID = r
      · rw [hr, Function.update_self]
        exact hactive j s hs hsActive hr
      · rw [Function.update_of_ne hr]
        exact hi.rule j s hs hsActive
    ofRule := fun j r' hj => by
      have hj : j ∈ Function.update g.byRule r l r' := hj
      by_cases hr : r' = r
      · subst hr
        rw [Function.update_self] at hj
        exact hi.ofRule j r' (hold j hj)
      · rw [Function.update_of_ne hr] at hj
        exact hi.ofRule j r' hj }

theorem Inv.setPort (hi : Inv u g) {port : Int} {l : List Nat}
    (hactive : ∀ (j : Nat) s, g.slots[j]? = some s → s.active = true → s.entry.ListenPort = port → j ∈ l) :
    Inv u { g with byListenPort := Function.update g.byListenPort port l } :=
  { hi with
    port := fun j s hs hsActive => by
      show j ∈ Function.update g.byListenPort port l s.entry.ListenPort
      by_cases hp : s.entry.ListenPort = port
      · rw [hp, Function.update_self]
        exact hactive j s hs hsActive hp
      · rw [Function.update_of_ne hp]
        exact hi.port j s hs hsActive }

theorem Inv.setEndpoint (hi : Inv u g) {e : String × Int}
    (hactive : ∀ (j : Nat) s, g.slots[j]? = some s → s.active = true → e ∉ sharedFXPEntryEndpoints u s.entry) :
    Inv u { g with byEndpoint := Function.update g.byEndpoint e [] } :=
  { hi with
    endpoint := fun j s hs hsActive e' he' => by
      show j ∈ Function.update g.byEndpoint e [] e'
      have hne : e' ≠ e := fun heq => hactive j s hs hsActive (heq ▸ he')
      rw [Function.update_of_ne hne]
      exact hi.endpoint j s hs hsActive e' he'
    ofEndpoint := fun j e' hj => by
      have hj : j ∈ Function.update g.byEndpoint e [] e' := hj
      by_cases he : e' = e
      · rw [he, Function.update_self] at hj
        cases hj
      · rw [Function.update_of_ne he] at hj
        exact hi.ofEndpoint j e' hj }

/-! ## What operations drop -/

/-- `g'` is a good group whose entries are those of `g` that are not dropped. -/
structure Drops (u : Unicode) (g g' : MutableSharedFXPEntryGroup) (p : FxpEntry → Bool) : Prop where
  inv : Inv u g'
  entries : g'.entries = g.entries.filter fun e => !p e
  tunnel : g'.tunnelID = g.tunnelID
  version : g'.transportVersion = g.transportVersion

theorem entries_of_slots (hslots : ∀ j : Nat, g'.slots[j]? = (g.slots[j]?).map fun s => s.hide (s.active && p s.entry)) :
    g'.entries = g.entries.filter fun e => !p e := by
  have heq : g'.slots = g.slots.map fun s => s.hide (s.active && p s.entry) := by
    apply List.ext_getElem?
    intro j
    rw [hslots, List.getElem?_map]
  unfold MutableSharedFXPEntryGroup.entries
  rw [heq]
  generalize g.slots = slots
  induction slots with
  | nil => rfl
  | cons s slots ih =>
    cases hs : s.active <;> cases hp : p s.entry <;> simp_all

theorem Hides.drops (h : Hides g g' hit) (hi : Inv u g)
    (hp : ∀ (j : Nat) s, g.slots[j]? = some s → s.active = true → hit j = p s.entry) : Drops u g g' p := by
  refine ⟨hi.hide h, entries_of_slots fun j => ?_, h.tunnel, h.version⟩
  rw [h.slots]
  cases hslot : g.slots[j]? with
  | none => rfl
  | some s =>
    rw [Option.map_some, Option.map_some]
    by_cases hs : s.active = true
    · rw [hp j s hslot hs, hs, Bool.true_and]
    · have hs := Bool.eq_false_iff.mpr hs
      rw [SharedFXPEntrySlot.hide_of_inactive hs, SharedFXPEntrySlot.hide_of_inactive hs]

theorem Drops.trans {p' : FxpEntry → Bool} (h : Drops u g g' p) (h' : Drops u g' g'' p') :
    Drops u g g'' fun e => p e || p' e where
  inv := h'.inv
  entries := by
    rw [h'.entries, h.entries, List.filter_filter]
    simp [Bool.and_comm]
  tunnel := h'.tunnel.trans h.tunnel
  version := h'.version.trans h.version

/-! ## The operations -/

theorem matches_keys {request e : FxpEntry} (h : fxpRemovalMatchesEntry u request e = true) :
    (0 < request.RuleID → e.RuleID = request.RuleID) ∧ (0 < request.ListenPort → e.ListenPort = request.ListenPort) := by
  unfold fxpRemovalMatchesEntry at h
  simp only [normalizeSingle_rule, normalizeSingle_port] at h
  by_contra hne
  rw [not_and_or, Classical.not_imp, Classical.not_imp] at hne
  rcases hne with ⟨hpos, hrule⟩ | ⟨hpos, hport⟩
  · simp [hpos, Ne.symm hrule] at h
  · simp [hpos, Ne.symm hport] at h

theorem removeMatching_drops (hi : Inv u g) (request : FxpEntry) :
    Drops u g (g.removeMatching u request) (fxpRemovalMatchesEntry u request) := by
  have hmatch : ∀ {l : List Nat}, (∀ (j : Nat) s, g.slots[j]? = some s → s.active = true →
      fxpRemovalMatchesEntry u request s.entry = true → j ∈ l) → ∀ (j : Nat) s, g.slots[j]? = some s → s.active = true →
      (l.contains j && (g.slots[j]?).any fun slot => fxpRemovalMatchesEntry u request slot.entry) =
        fxpRemovalMatchesEntry u request s.entry := by
    intro l hl j s hslot hs
    rw [hslot, Option.any_some]
    by_cases hm : fxpRemovalMatchesEntry u request s.entry = true
    · rw [hm, Bool.and_true, List.contains_iff_mem]
      exact hl j s hslot hs hm
    · rw [Bool.eq_false_iff.mpr hm, Bool.and_false]
  have hremaining : ∀ {l : List Nat} {j : Nat} {s : SharedFXPEntrySlot}, (prune u request l g).1.slots[j]? = some s →
      s.active = true → j ∈ l → j ∈ (prune u request l g).2 := by
    intro l j s hslot hs hj
    obtain ⟨hhides, hrest⟩ := prune_spec u request l g
    obtain ⟨s₀, hs₀, rfl⟩ := hhides.slot hslot
    rw [SharedFXPEntrySlot.hide_active, Bool.and_eq_true, Bool.not_eq_true', List.contains_iff_mem.mpr hj, Bool.true_and] at hs
    exact (hrest j).mpr ⟨hj, by rw [hs₀]; exact hs.1, hs.2⟩
  unfold removeMatching
  by_cases hrule : 0 < request.RuleID
  · rw [if_pos hrule]
    obtain ⟨hhides, hrest⟩ := prune_spec u request (g.byRule request.RuleID) g
    have hdrops := hhides.drops hi (hmatch fun j s hslot hs hm => (matches_keys hm).1 hrule ▸ hi.rule j s hslot hs)
    refine { hdrops with inv := hdrops.inv.setRule (fun j s hslot hs hr => ?_) fun j hj => ?_ }
    · refine hremaining hslot hs ?_
      rw [← hr, ← hhides.byRule]
      exact hdrops.inv.rule j s hslot hs
    · rw [hhides.byRule]
      exact ((hrest j).mp hj).1
  · rw [if_neg hrule]
    by_cases hport : 0 < request.ListenPort
    · rw [if_pos hport]
      obtain ⟨hhides, hrest⟩ := prune_spec u request (g.byListenPort request.ListenPort) g
      have hdrops := hhides.drops hi (hmatch fun j s hslot hs hm => (matches_keys hm).2 hport ▸ hi.port j s hslot hs)
      refine { hdrops with inv := hdrops.inv.setPort fun j s hslot hs hp => ?_ }
      refine hremaining hslot hs ?_
      rw [← hp, ← hhides.byListenPort]
      exact hdrops.inv.port j s hslot hs
    · rw [if_neg hport]
      exact (hides_matching (fxpRemovalMatchesEntry u request) g.active g).drops hi
        (hmatch fun j s hslot hs _ => hi.active j s hslot hs)

theorem removeRule_drops (hi : Inv u g) (ruleID : Int) : Drops u g (g.removeRule ruleID) fun e => e.RuleID = ruleID := by
  have hhides := hides_removeSlots (g.byRule ruleID) g
  have hdrops : Drops u g ((g.byRule ruleID).foldl removeSlot g) fun e => e.RuleID = ruleID := by
    refine hhides.drops hi fun j s hslot hs => ?_
    rw [Bool.eq_iff_iff, List.contains_iff_mem, decide_eq_true_eq]
    constructor
    · intro hj
      obtain ⟨s', hs', hr⟩ := hi.ofRule j ruleID hj
      obtain rfl := Option.some.inj (hslot.symm.trans hs')
      exact hr
    · intro hr
      exact hr ▸ hi.rule j s hslot hs
  refine { hdrops with inv := hdrops.inv.setRule (fun j s hslot hs hr => ?_) fun _ hj => absurd hj List.not_mem_nil }
  obtain ⟨s₀, hs₀, rfl⟩ := hhides.slot hslot
  rw [SharedFXPEntrySlot.hide_active, Bool.and_eq_true, Bool.not_eq_true'] at hs
  have hmem : j ∈ g.byRule ruleID := hr ▸ hi.rule j s₀ hs₀ hs.1
  rw [List.contains_iff_mem.mpr hmem] at hs
  cases hs.2

def endpointsMeet (u : Unicode) (entry e : FxpEntry) : Bool :=
  (sharedFXPEntryEndpoints u entry).any fun endpoint => (sharedFXPEntryEndpoints u e).contains endpoint

theorem removeEndpoint_drops (hi : Inv u g) (endpoint : String × Int) :
    Drops u g { (g.byEndpoint endpoint).foldl removeSlot g with
      byEndpoint := Function.update ((g.byEndpoint endpoint).foldl removeSlot g).byEndpoint endpoint [] }
      fun e => (sharedFXPEntryEndpoints u e).contains endpoint := by
  have hhides := hides_removeSlots (g.byEndpoint endpoint) g
  have hdrops : Drops u g ((g.byEndpoint endpoint).foldl removeSlot g)
      fun e => (sharedFXPEntryEndpoints u e).contains endpoint := by
    refine hhides.drops hi fun j s hslot hs => ?_
    rw [Bool.eq_iff_iff, List.contains_iff_mem, List.contains_iff_mem]
    constructor
    · intro hj
      obtain ⟨s', hs', he⟩ := hi.ofEndpoint j endpoint hj
      obtain rfl := Option.some.inj (hslot.symm.trans hs')
      exact he
    · exact fun he => hi.endpoint j s hslot hs endpoint he
  refine { hdrops with inv := hdrops.inv.setEndpoint fun j s hslot hs he => ?_ }
  obtain ⟨s₀, hs₀, rfl⟩ := hhides.slot hslot
  rw [SharedFXPEntrySlot.hide_active, Bool.and_eq_true, Bool.not_eq_true'] at hs
  rw [List.contains_iff_mem.mpr (hi.endpoint j s₀ hs₀ hs.1 endpoint he)] at hs
  cases hs.2

theorem removeListenConflicts_drops (hi : Inv u g) (entry : FxpEntry) :
    Drops u g (g.removeListenConflicts u entry) (endpointsMeet u entry) := by
  unfold removeListenConflicts endpointsMeet
  generalize sharedFXPEntryEndpoints u entry = endpoints
  induction endpoints generalizing g with
  | nil =>
    refine ⟨hi, ?_, rfl, rfl⟩
    simp
  | cons endpoint endpoints ih =>
    have hfirst := removeEndpoint_drops hi endpoint
    have hrest := hfirst.trans (ih hfirst.inv)
    refine { hrest with entries := hrest.entries.trans ?_ }
    simp

theorem add_eq (group : MutableSharedFXPEntryGroup) {entry : FxpEntry}
    (h : Settled u group.tunnelID group.transportVersion entry) : group.add u entry =
      { group with
        slots := group.slots ++ [⟨entry, true⟩]
        active := group.active ++ [group.slots.length]
        byRule := pushIndex group.byRule group.slots.length entry.RuleID
        byListenPort := pushIndex group.byListenPort group.slots.length entry.ListenPort
        byEndpoint := (sharedFXPEntryEndpoints u entry).foldl (fun byEndpoint => pushIndex byEndpoint group.slots.length)
          group.byEndpoint } := by
  unfold MutableSharedFXPEntryGroup.add
  dsimp only
  rw [h.normal, h.shared, h.tunnel, h.version]
  simp

theorem mem_pushIndex {κ : Type} [DecidableEq κ] (f : κ → List Nat) (i j : Nat) (key k : κ) :
    j ∈ pushIndex f i key k ↔ j ∈ f k ∨ (j = i ∧ k = key) := by
  unfold pushIndex
  by_cases hk : k = key
  · subst hk
    rw [Function.update_self, List.mem_append, List.mem_singleton]
    simp
  · rw [Function.update_of_ne hk]
    simp [hk]

/-- An index is found under the keys that it is put under, besides those it had. -/
theorem mem_pushIndexes {κ : Type} [DecidableEq κ] (keys : List κ) (f : κ → List Nat) (i j : Nat) (k : κ) :
    j ∈ keys.foldl (fun f => pushIndex f i) f k ↔ j ∈ f k ∨ (j = i ∧ k ∈ keys) := by
  induction keys generalizing f with
  | nil => simp
  | cons key keys ih =>
    rw [List.foldl_cons, ih, mem_pushIndex, List.mem_cons]
    tauto

/-- A group whose entries are those of `g` and another one. -/
structure Adds (u : Unicode) (g g' : MutableSharedFXPEntryGroup) (entry : FxpEntry) : Prop where
  inv : Inv u g'
  entries : g'.entries = g.entries ++ [entry]
  tunnel : g'.tunnelID = g.tunnelID
  version : g'.transportVersion = g.transportVersion

theorem add_adds (hi : Inv u g) {entry : FxpEntry} (h : Settled u g.tunnelID g.transportVersion entry) :
    Adds u g (g.add u entry) entry := by
  obtain ⟨endpoints, hendpoints⟩ : ∃ endpoints, sharedFXPEntryEndpoints u entry = endpoints := ⟨_, rfl⟩
  rw [add_eq g h, hendpoints]
  have hcases : ∀ {j : Nat} {s : SharedFXPEntrySlot}, (g.slots ++ [⟨entry, true⟩])[j]? = some s →
      g.slots[j]? = some s ∨ (j = g.slots.length ∧ s = ⟨entry, true⟩) := by
    intro j s hs
    rcases Nat.lt_trichotomy j g.slots.length with hlt | rfl | hgt
    · rw [List.getElem?_append_left hlt] at hs
      exact Or.inl hs
    · rw [List.getElem?_append_right (Nat.le_refl _), Nat.sub_self] at hs
      exact Or.inr ⟨rfl, (Option.some.inj hs).symm⟩
    · rw [List.getElem?_eq_none (by rw [List.length_append]; exact hgt)] at hs
      cases hs
  have hold : ∀ {j : Nat} {s : SharedFXPEntrySlot}, g.slots[j]? = some s → (g.slots ++ [⟨entry, true⟩])[j]? = some s := by
    intro j s hs
    rw [List.getElem?_append_left (List.getElem?_eq_some_iff.mp hs).1, hs]
  have hnew : (g.slots ++ [(⟨entry, true⟩ : SharedFXPEntrySlot)])[g.slots.length]? = some ⟨entry, true⟩ := by
    rw [List.getElem?_append_right (Nat.le_refl _), Nat.sub_self]
    rfl
  have hendpoint := mem_pushIndexes endpoints g.byEndpoint g.slots.length
  refine ⟨⟨fun j s hs => ?_, fun j s hs hsActive => ?_, fun j s hs hsActive => ?_, fun j s hs hsActive => ?_,
    fun j s hs hsActive e he => ?_, fun j r hj => ?_, fun j e hj => ?_⟩, ?_, rfl, rfl⟩
  · rcases hcases hs with hs | ⟨_, rfl⟩
    · exact hi.settled j s hs
    · exact h
  · rcases hcases hs with hs | ⟨rfl, rfl⟩
    · exact List.mem_append_left _ (hi.active j s hs hsActive)
    · exact List.mem_append_right _ (List.mem_singleton_self _)
  · refine (mem_pushIndex _ _ _ _ _).mpr ?_
    rcases hcases hs with hs | ⟨rfl, rfl⟩
    · exact Or.inl (hi.rule j s hs hsActive)
    · exact Or.inr ⟨rfl, rfl⟩
  · refine (mem_pushIndex _ _ _ _ _).mpr ?_
    rcases hcases hs with hs | ⟨rfl, rfl⟩
    · exact Or.inl (hi.port j s hs hsActive)
    · exact Or.inr ⟨rfl, rfl⟩
  · refine (hendpoint j e).mpr ?_
    rcases hcases hs with hs | ⟨rfl, rfl⟩
    · exact Or.inl (hi.endpoint j s hs hsActive e he)
    · exact Or.inr ⟨rfl, hendpoints ▸ he⟩
  · rcases (mem_pushIndex _ _ _ _ _).mp hj with hj | ⟨rfl, rfl⟩
    · obtain ⟨s, hs, hr⟩ := hi.ofRule j r hj
      exact ⟨s, hold hs, hr⟩
    · exact ⟨⟨entry, true⟩, hnew, rfl⟩
  · rcases (hendpoint j e).mp hj with hj | ⟨rfl, he⟩
    · obtain ⟨s, hs, he⟩ := hi.ofEndpoint j e hj
      exact ⟨s, hold hs, he⟩
    · exact ⟨⟨entry, true⟩, hnew, hendpoints ▸ he⟩
  · unfold MutableSharedFXPEntryGroup.entries
    simp

end MutableSharedFXPEntryGroup

end ForwardX.Agent.EntryGroups
