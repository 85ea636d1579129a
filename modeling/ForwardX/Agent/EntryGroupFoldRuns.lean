import ForwardX.Agent.EntryGroupSlots

/- A batch folds over mutable groups as it does over plain lists (`indexed_fold_iff`), but for an apply whose
   operation is `apply` only after it is trimmed: its entry is added, and what is of its rule or listens where it does
   stays. -/
namespace ForwardX.Agent.EntryGroups
open Fxp.Traffic (trimSpace)
open Fxp.Control (Unicode lowerTrim asciiUnicode)
open MutableSharedFXPEntryGroup (Inv Drops Adds endpointsMeet removeMatching_drops removeRule_drops
  removeListenConflicts_drops add_adds)

variable {u : Unicode}

/-! ## Endpoints and keys -/

theorem sharedEndpoints_eq {t : Int} {v : String} {e : FxpEntry} (h : Settled u t v e) :
    sharedFXPEntryEndpoints u e = singleListenEndpoints u e := by
  have hlisten := (ports_of_shared h.shared).2.2
  have hudp := h.udpPort_pos
  have hword := normalizeRuntimeProtocol_word u e.Protocol
  rw [h.protocol] at hword
  unfold singleListenEndpoints sharedFXPEntryEndpoints
  dsimp only
  rw [h.normal, runtimeProtocols, h.protocol]
  rcases hword with hword | hword | hword <;> rw [hword]
  · simp [hudp]
  · simp [hudp, hlisten]
  · simp [hlisten]

theorem conflict_eq_meet {t : Int} {v : String} {a b : FxpEntry} (ha : Settled u t v a) (hb : Settled u t v b) :
    fxpSpecsListenConflict u { toFxpEntry := a } { toFxpEntry := b } = endpointsMeet u b a := by
  rw [Bool.eq_iff_iff, conflict_single_iff ha hb, endpointsMeet, sharedEndpoints_eq ha, sharedEndpoints_eq hb,
    List.any_eq_true]
  unfold EndpointsMeet
  constructor
  · rintro ⟨endpoint, hA, hB⟩
    exact ⟨endpoint, hB, List.contains_iff_mem.mpr hA⟩
  · rintro ⟨endpoint, hB, hA⟩
    exact ⟨endpoint, List.contains_iff_mem.mp hA, hB⟩

theorem key_inj {v v' : String} {t t' : Int} (h : v ++ ":" ++ toString t = v' ++ ":" ++ toString t') : v = v' ∧ t = t' := by
  have hcolon : ∀ n : Int, ':' ∉ (toString n).toList.reverse := by
    intro n hmem
    rcases DecimalText.mem_toString (List.mem_reverse.mp hmem) with hdigit | hminus
    · revert hdigit
      decide
    · revert hminus
      decide
  have hchars := congrArg (fun s => s.toList.reverse) h
  simp only [String.toList_append, List.reverse_append] at hchars
  obtain ⟨htunnel, hversion⟩ := DecimalText.join_inj (hcolon t) (hcolon t') hchars
  exact ⟨String.toList_inj.mp (List.reverse_injective hversion),
    DecimalText.toString_inj (String.toList_inj.mp (List.reverse_injective htunnel))⟩

/-! ## Mutations -/

structure MutationOk (u : Unicode) (m : SharedFXPEntryGroupMutation) : Prop where
  key : m.key = fxpEntryGroupKey u m.spec.TransportVersion m.spec.TunnelID
  settled : m.appendEntry = true → Settled u m.spec.TunnelID m.spec.TransportVersion m.spec
  replaces : m.replaceConflicts = true → m.appendEntry = true

theorem normal_of_shared {raw : FxpSpec} (h : isSharedFXPEntry u (normalizeFXPSpec u raw).toFxpEntry = true) :
    normalizeSingle u (normalizeFXPSpec u raw).toFxpEntry = (normalizeFXPSpec u raw).toFxpEntry := by
  by_cases hrole : lowerTrim u raw.Role = fxpEntryGroupRole
  · have hfold : equalFold (trimSpace (normalizeFXPSpec u raw).Role) "entry" = true := by
      unfold isSharedFXPEntry at h
      simp only [Bool.and_eq_true] at h
      exact h.1.1.1.1
    rw [normalizeFXPSpec_role hrole] at hfold
    exact absurd hfold (by decide)
  · rw [normalizeFXPSpec_single hrole]
    exact normalizeSingle_idem u raw.toFxpEntry

theorem mutationOk {item : Action} {m : SharedFXPEntryGroupMutation}
    (h : sharedFXPEntryGroupMutationForAction u item = some m) : MutationOk u m := by
  unfold sharedFXPEntryGroupMutationForAction at h
  cases hfxp : item.Fxp with
  | none =>
    rw [hfxp] at h
    cases h
  | some raw =>
    rw [hfxp] at h
    dsimp only at h
    by_cases hremove : trimSpace item.Op = "remove"
    · rw [if_pos hremove] at h
      split at h
      · cases h
      · obtain rfl := Option.some.inj h
        exact ⟨rfl, fun hfalse => (nomatch hfalse), fun hfalse => (nomatch hfalse)⟩
    · rw [if_neg hremove] at h
      have hnormal := @normal_of_shared u raw
      generalize (normalizeFXPSpec u raw).toFxpEntry = spec at h hnormal
      split at h
      · cases h
      · rename_i hshared
        obtain rfl := Option.some.inj h
        rw [Bool.not_eq_true', Bool.not_eq_false] at hshared
        refine ⟨rfl, fun _ => settled_of_shared (hnormal hshared) hshared, fun hop => ?_⟩
        · have hop : item.Op = "apply" := of_decide_eq_true hop
          show decide (trimSpace item.Op = "apply") = true
          rw [hop]
          decide

/-- What a mutation drops of its group. -/
def SharedFXPEntryGroupMutation.codeDrops (u : Unicode) (m : SharedFXPEntryGroupMutation) (e : FxpEntry) : Bool :=
  fxpRemovalMatchesEntry u m.spec e || (m.replaceConflicts && (decide (e.RuleID = m.spec.RuleID) || endpointsMeet u m.spec e))

variable {e : FxpEntry} {g : MutableSharedFXPEntryGroup}

theorem apply_spec {m : SharedFXPEntryGroupMutation} (hi : Inv u g)
    (hm : m.appendEntry = true → Settled u g.tunnelID g.transportVersion m.spec) : Inv u (m.apply u g) ∧
      (m.apply u g).entries = g.entries.filter (fun e => !m.codeDrops u e) ++ (if m.appendEntry then [m.spec] else []) ∧
      (m.apply u g).tunnelID = g.tunnelID ∧ (m.apply u g).transportVersion = g.transportVersion := by
  have hmatch := removeMatching_drops hi m.spec
  obtain ⟨g', hg', hdrops⟩ : ∃ g', (if m.replaceConflicts then
      ((g.removeMatching u m.spec).removeRule m.spec.RuleID).removeListenConflicts u m.spec else g.removeMatching u m.spec) = g' ∧
      Drops u g g' (m.codeDrops u) := by
    by_cases hreplace : m.replaceConflicts = true
    · have hrule := removeRule_drops hmatch.inv m.spec.RuleID
      have hall := (hmatch.trans hrule).trans (removeListenConflicts_drops hrule.inv m.spec)
      have hfun : (fun e => (fxpRemovalMatchesEntry u m.spec e || decide (e.RuleID = m.spec.RuleID)) || endpointsMeet u m.spec e) =
          m.codeDrops u := by
        funext e
        rw [SharedFXPEntryGroupMutation.codeDrops, hreplace, Bool.true_and, Bool.or_assoc]
      rw [hfun] at hall
      rw [if_pos hreplace]
      exact ⟨_, rfl, hall⟩
    · have hfun : fxpRemovalMatchesEntry u m.spec = m.codeDrops u := by
        funext e
        rw [SharedFXPEntryGroupMutation.codeDrops, Bool.eq_false_iff.mpr hreplace, Bool.false_and, Bool.or_false]
      rw [hfun] at hmatch
      rw [if_neg hreplace]
      exact ⟨_, rfl, hmatch⟩
  unfold SharedFXPEntryGroupMutation.apply
  dsimp only
  rw [hg']
  by_cases happend : m.appendEntry = true
  · rw [if_pos happend, if_pos happend]
    have hsettled := hm happend
    rw [← hdrops.tunnel, ← hdrops.version] at hsettled
    have hadds := add_adds hdrops.inv hsettled
    exact ⟨hadds.inv, by rw [hadds.entries, hdrops.entries], hadds.tunnel.trans hdrops.tunnel,
      hadds.version.trans hdrops.version⟩
  · rw [if_neg happend, if_neg happend, List.append_nil]
    exact ⟨hdrops.inv, hdrops.entries, hdrops.tunnel, hdrops.version⟩

/-! ## Groups and lists -/

/-- Every group is a good one of its key, and holds the list of the key. -/
def Agrees (u : Unicode) (groups : Groups) (lists : String → List FxpEntry) : Prop :=
  ∀ key g, groups key = some g → Inv u g ∧ normalizeFXPTransportVersion u g.transportVersion = g.transportVersion ∧
    g.transportVersion ++ ":" ++ toString g.tunnelID = key ∧ g.entries = lists key

variable {groups : Groups} {lists : String → List FxpEntry}

theorem Agrees.modify (h : Agrees u groups lists) {key : String} {f : MutableSharedFXPEntryGroup → MutableSharedFXPEntryGroup}
    {l : List FxpEntry} (hf : ∀ g, groups key = some g → Inv u (f g) ∧ (f g).entries = l ∧ (f g).tunnelID = g.tunnelID ∧
      (f g).transportVersion = g.transportVersion) : Agrees u (groups.modify key f) (Function.update lists key l) := by
  intro k g hg
  by_cases hk : k = key
  · subst hk
    rw [Groups.modify, Function.update_self] at hg
    obtain ⟨g₀, hg₀, rfl⟩ := Option.map_eq_some_iff.mp hg
    obtain ⟨_, hnormal, hkey, _⟩ := h k g₀ hg₀
    obtain ⟨hinv, hentries, htunnel, hversion⟩ := hf g₀ hg₀
    rw [Function.update_self, htunnel, hversion]
    exact ⟨hinv, hnormal, hkey, hentries⟩
  · rw [Groups.modify, Function.update_of_ne hk] at hg
    rw [Function.update_of_ne hk]
    exact h k g hg

theorem isSome_modify (groups : Groups) (key k : String) (f : MutableSharedFXPEntryGroup → MutableSharedFXPEntryGroup) :
    (groups.modify key f k).isSome = (groups k).isSome := by
  by_cases hk : k = key
  · subst hk
    rw [Groups.modify, Function.update_self, Option.isSome_map]
  · rw [Groups.modify, Function.update_of_ne hk]

theorem inv_new (u : Unicode) (t : Int) (v : String) : Inv u (newMutableSharedFXPEntryGroup u t v) where
  settled _ _ hs := nomatch hs
  active _ _ hs := nomatch hs
  rule _ _ hs := nomatch hs
  port _ _ hs := nomatch hs
  endpoint _ _ hs := nomatch hs
  ofRule _ _ hj := nomatch hj
  ofEndpoint _ _ hj := nomatch hj

theorem new_version (u : Unicode) (t : Int) (v : String) :
    (newMutableSharedFXPEntryGroup u t v).transportVersion = normalizeFXPTransportVersion u v := by
  rw [newMutableSharedFXPEntryGroup]

theorem new_tunnel (u : Unicode) (t : Int) (v : String) : (newMutableSharedFXPEntryGroup u t v).tunnelID = t := by
  rw [newMutableSharedFXPEntryGroup]

theorem Agrees.create (h : Agrees u groups fun _ => []) {m : SharedFXPEntryGroupMutation} (hm : MutationOk u m) :
    Agrees u (groups.create u m) fun _ => [] := by
  unfold Groups.create
  by_cases hsome : (groups m.key).isSome = true
  · rw [if_pos hsome]
    exact h
  · rw [if_neg hsome]
    intro k g hg
    by_cases hk : k = m.key
    · subst hk
      rw [Function.update_self] at hg
      obtain rfl := Option.some.inj hg
      rw [new_version, new_tunnel]
      exact ⟨inv_new u _ _, normalizeFXPTransportVersion_idem u _, hm.key.symm, rfl⟩
    · rw [Function.update_of_ne hk] at hg
      exact h k g hg

theorem isSome_create {m : SharedFXPEntryGroupMutation} {k : String} (h : (groups k).isSome = true ∨ k = m.key) :
    (groups.create u m k).isSome = true := by
  unfold Groups.create
  by_cases hsome : (groups m.key).isSome = true
  · rw [if_pos hsome]
    exact h.elim id fun hk => hk ▸ hsome
  · rw [if_neg hsome]
    by_cases hk : k = m.key
    · rw [hk, Function.update_self]
      rfl
    · rw [Function.update_of_ne hk]
      exact h.resolve_right hk

theorem Agrees.settled (h : Agrees u groups lists) {key : String} (hg : groups key = some g)
    (he : Settled u e.TunnelID e.TransportVersion e) (hkey : fxpEntryGroupKey u e.TransportVersion e.TunnelID = key) :
    Settled u g.tunnelID g.transportVersion e := by
  obtain ⟨_, _, hgroup, _⟩ := h key g hg
  obtain ⟨hversion, htunnel⟩ := key_inj (hgroup.trans hkey.symm)
  rw [hversion, htunnel, he.versionNormal]
  exact he

theorem Agrees.addPersisted (h : Agrees u groups lists) {p : FxpEntry} (hp : normalizeSingle u p = p) :
    Agrees u (groups.addPersisted u p) fun key => lists key ++
      if isSharedFXPEntry u p && fxpEntryGroupKey u p.TransportVersion p.TunnelID = key then [p] else [] := by
  unfold Groups.addPersisted
  by_cases hshared : isSharedFXPEntry u p = true
  · rw [hshared, Bool.not_true, if_neg Bool.false_ne_true]
    have hsettled := settled_of_shared hp hshared
    have hmodify := @Agrees.modify u groups lists h (fxpEntryGroupKey u p.TransportVersion p.TunnelID) _ _ fun g hg => by
      have hadds := add_adds (h _ g hg).1 (h.settled hg hsettled rfl)
      exact ⟨hadds.inv, by rw [hadds.entries, (h _ g hg).2.2.2], hadds.tunnel, hadds.version⟩
    intro k g hg
    obtain ⟨hinv, hnormal, hkey, hentries⟩ := hmodify k g hg
    refine ⟨hinv, hnormal, hkey, hentries.trans ?_⟩
    by_cases hk : fxpEntryGroupKey u p.TransportVersion p.TunnelID = k
    · subst hk
      simp
    · rw [Function.update_of_ne (Ne.symm hk)]
      simp [hk]
  · rw [Bool.eq_false_iff.mpr hshared, Bool.not_false, if_pos rfl]
    simpa using h

theorem Agrees.supersede (h : Agrees u groups lists) (item : Action) :
    Agrees u (groups.supersede u item) fun key =>
      (lists key).filter fun e => !(superseded item).any fun removal => fxpRemovalMatchesEntry u removal e := by
  unfold Groups.supersede
  cases superseded item with
  | none => simpa using h
  | some removal =>
    intro k g hg
    obtain ⟨g₀, hg₀, rfl⟩ := Option.map_eq_some_iff.mp hg
    obtain ⟨hinv, hnormal, hkey, hentries⟩ := h k g₀ hg₀
    have hdrops := removeMatching_drops hinv removal
    rw [hdrops.tunnel, hdrops.version, hdrops.entries, hentries]
    refine ⟨hdrops.inv, hnormal, hkey, ?_⟩
    simp only [Option.any_some]

theorem Agrees.mutate (h : Agrees u groups lists) {m : SharedFXPEntryGroupMutation} (hm : MutationOk u m) :
    Agrees u (groups.mutate u m) (Function.update lists m.key
      ((lists m.key).filter (fun e => !m.codeDrops u e) ++ if m.appendEntry then [m.spec] else [])) := by
  refine h.modify fun g hg => ?_
  have hspec := apply_spec (h _ g hg).1 fun happend => h.settled hg (hm.settled happend) hm.key.symm
  rw [(h _ g hg).2.2.2] at hspec
  exact hspec

/-! ## Before the first mutation -/

abbrev mutationsOf (u : Unicode) (actions : List Action) : List SharedFXPEntryGroupMutation :=
  actions.filterMap (sharedFXPEntryGroupMutationForAction u)

theorem mutationsOk {actions : List Action} {m : SharedFXPEntryGroupMutation} (h : m ∈ mutationsOf u actions) :
    MutationOk u m := by
  obtain ⟨item, _, hm⟩ := List.mem_filterMap.mp h
  exact mutationOk hm

theorem agrees_created {mutations : List SharedFXPEntryGroupMutation} (hok : ∀ m ∈ mutations, MutationOk u m)
    (h : Agrees u groups fun _ => []) : Agrees u (mutations.foldl (Groups.create u) groups) fun _ => [] := by
  induction mutations generalizing groups with
  | nil => exact h
  | cons m mutations ih =>
    exact ih (fun m' hm' => hok m' (List.mem_cons_of_mem m hm')) (h.create (hok m List.mem_cons_self))

theorem isSome_created {mutations : List SharedFXPEntryGroupMutation} {k : String}
    (h : (groups k).isSome = true ∨ ∃ m ∈ mutations, m.key = k) :
    (mutations.foldl (Groups.create u) groups k).isSome = true := by
  induction mutations generalizing groups with
  | nil => exact h.resolve_right fun ⟨m, hm, _⟩ => nomatch hm
  | cons m mutations ih =>
    apply ih
    rcases h with h | ⟨m', hm', hkey⟩
    · exact Or.inl (isSome_create (Or.inl h))
    · rcases List.mem_cons.mp hm' with rfl | hm'
      · exact Or.inl (isSome_create (Or.inr hkey.symm))
      · exact Or.inr ⟨m', hm', hkey⟩

theorem agrees_persisted {persisted : List FxpEntry} (hnormal : ∀ p ∈ persisted, normalizeSingle u p = p)
    (h : Agrees u groups lists) : Agrees u (persisted.foldl (Groups.addPersisted u) groups) fun key => lists key ++
      persisted.filter fun p => isSharedFXPEntry u p && fxpEntryGroupKey u p.TransportVersion p.TunnelID = key := by
  induction persisted generalizing groups lists with
  | nil => simpa using h
  | cons p persisted ih =>
    have hrest := ih (fun p' hp' => hnormal p' (List.mem_cons_of_mem p hp')) (h.addPersisted (hnormal p List.mem_cons_self))
    intro k g hg
    obtain ⟨hinv, hversion, hkey, hentries⟩ := hrest k g hg
    refine ⟨hinv, hversion, hkey, hentries.trans ?_⟩
    dsimp only
    rw [List.append_assoc, List.filter_cons]
    split
    · rw [List.singleton_append]
    · rw [List.nil_append]

theorem agrees_superseded {actions : List Action} (h : Agrees u groups lists) :
    Agrees u (actions.foldl (Groups.supersede u) groups) fun key => (lists key).filter fun e =>
      !(actions.filterMap superseded).any fun removal => fxpRemovalMatchesEntry u removal e := by
  induction actions generalizing groups lists with
  | nil => simpa using h
  | cons item actions ih =>
    have hrest := ih (h.supersede item)
    intro k g hg
    obtain ⟨hinv, hversion, hkey, hentries⟩ := hrest k g hg
    refine ⟨hinv, hversion, hkey, hentries.trans ?_⟩
    dsimp only
    rw [List.filter_filter]
    apply List.filter_congr
    intro e _
    cases hitem : superseded item with
    | none => simp [hitem]
    | some removal => simp [hitem, Bool.and_comm]

theorem isSome_persisted (persisted : List FxpEntry) (groups : Groups) (k : String) :
    (persisted.foldl (Groups.addPersisted u) groups k).isSome = (groups k).isSome := by
  induction persisted generalizing groups with
  | nil => rfl
  | cons p persisted ih =>
    rw [List.foldl_cons, ih]
    unfold Groups.addPersisted
    split
    · rfl
    · exact isSome_modify groups _ k _

theorem isSome_superseded (actions : List Action) (groups : Groups) (k : String) :
    (actions.foldl (Groups.supersede u) groups k).isSome = (groups k).isSome := by
  induction actions generalizing groups with
  | nil => rfl
  | cons item actions ih =>
    rw [List.foldl_cons, ih]
    unfold Groups.supersede
    cases superseded item with
    | none => rfl
    | some removal => exact Option.isSome_map

variable {persisted : List FxpEntry} {actions : List Action}

theorem agrees_initial (hnormal : ∀ p ∈ persisted, normalizeSingle u p = p) :
    Agrees u (initialGroups u persisted actions) (plainInitial u persisted actions) := by
  have hempty : Agrees u (fun _ => none) fun _ => [] := fun _ _ h => nomatch h
  have hcreated := agrees_created (fun m hm => @mutationsOk u actions m hm) hempty
  exact agrees_superseded (agrees_persisted hnormal hcreated)

theorem isSome_initial {m : SharedFXPEntryGroupMutation} (h : m ∈ mutationsOf u actions) :
    (initialGroups u persisted actions m.key).isSome = true := by
  unfold initialGroups
  rw [isSome_superseded, isSome_persisted]
  exact isSome_created (Or.inr ⟨m, h, rfl⟩)

/-! ## Every prefix of a batch -/

def groupsAfter (u : Unicode) (persisted : List FxpEntry) (actions : List Action) (n : Nat) : Groups :=
  ((mutationsOf u actions).take n).foldl (Groups.mutate u) (initialGroups u persisted actions)

variable {n : Nat} {m : SharedFXPEntryGroupMutation}

theorem take_succ_of_get {α : Type*} {l : List α} {n : Nat} {a : α} (h : l[n]? = some a) : l.take (n + 1) = l.take n ++ [a] := by
  rw [List.take_add_one, h]
  rfl

theorem groupsAfter_succ (h : (mutationsOf u actions)[n]? = some m) :
    groupsAfter u persisted actions (n + 1) = (groupsAfter u persisted actions n).mutate u m := by
  rw [groupsAfter, take_succ_of_get h, List.foldl_append, List.foldl_cons, List.foldl_nil, groupsAfter]

theorem plainAfter_succ (h : (mutationsOf u actions)[n]? = some m) (key : String) :
    plainAfter u persisted actions key (n + 1) = plainStep u key (plainAfter u persisted actions key n) m := by
  rw [plainAfter, take_succ_of_get h, List.foldl_append, List.foldl_cons, List.foldl_nil, plainAfter]

theorem take_succ_of_none {α : Type*} {l : List α} {n : Nat} (h : l[n]? = none) : l.take (n + 1) = l.take n := by
  rw [List.take_add_one, h, Option.toList_none, List.append_nil]

theorem isSome_after (h : m ∈ mutationsOf u actions) : (groupsAfter u persisted actions n m.key).isSome = true := by
  have hstep : ∀ (l : List SharedFXPEntryGroupMutation) (groups : Groups),
      (l.foldl (Groups.mutate u) groups m.key).isSome = (groups m.key).isSome := by
    intro l
    induction l with
    | nil => exact fun _ => rfl
    | cons m' l ih => exact fun groups => (ih _).trans (isSome_modify groups _ _ _)
  rw [groupsAfter, hstep]
  exact isSome_initial h

theorem agrees_after (hnormal : ∀ p ∈ persisted, normalizeSingle u p = p) (n : Nat) :
    ∃ lists, Agrees u (groupsAfter u persisted actions n) lists := by
  induction n with
  | zero => exact ⟨_, agrees_initial hnormal⟩
  | succ n ih =>
    obtain ⟨lists, h⟩ := ih
    cases hm : (mutationsOf u actions)[n]? with
    | none =>
      rw [groupsAfter, take_succ_of_none hm]
      exact ⟨lists, h⟩
    | some m =>
      rw [groupsAfter_succ hm]
      exact ⟨_, h.mutate (mutationsOk (List.mem_of_getElem? hm))⟩

/-- Of a settled entry a mutation drops what it matches and, on the plain list where it is an apply, in the group where
its operation is `apply` as it stands, what is of its rule or listens where it does. -/
theorem drops_cases (h : Agrees u groups lists) (hg : groups m.key = some g) (hm : MutationOk u m) (he : e ∈ g.entries)
    (hreplace : m.appendEntry = m.replaceConflicts) : m.codeDrops u e = m.drops u e := by
  unfold SharedFXPEntryGroupMutation.codeDrops SharedFXPEntryGroupMutation.drops
  rw [hreplace]
  by_cases happend : m.appendEntry = true
  · obtain ⟨s, hs, rfl⟩ := List.mem_map.mp he
    obtain ⟨j, hj⟩ := List.mem_iff_getElem?.mp (List.mem_filter.mp hs).1
    rw [conflict_eq_meet ((h _ g hg).1.settled j s hj) (h.settled hg (hm.settled happend) hm.key.symm)]
  · rw [← hreplace, Bool.eq_false_iff.mpr happend, Bool.false_and, Bool.false_and]

/-- The condition: an apply whose operation is `apply` only after it is trimmed finds nothing to replace, but for
what it matches. -/
def NothingSkipped (u : Unicode) (persisted : List FxpEntry) (actions : List Action) : Prop :=
  ∀ n m, (mutationsOf u actions)[n]? = some m → m.appendEntry = true → m.replaceConflicts = false →
    ∀ e ∈ plainAfter u persisted actions m.key n, m.drops u e = true → fxpRemovalMatchesEntry u m.spec e = true

theorem codeDrops_of_skipped (hreplace : m.replaceConflicts = false) (e : FxpEntry) :
    m.codeDrops u e = fxpRemovalMatchesEntry u m.spec e ∧
      (fxpRemovalMatchesEntry u m.spec e = true → m.drops u e = true) := by
  unfold SharedFXPEntryGroupMutation.codeDrops SharedFXPEntryGroupMutation.drops
  rw [hreplace, Bool.false_and, Bool.or_false]
  exact ⟨rfl, fun hmatch => by rw [hmatch, Bool.true_or]⟩

/-- Where nothing is skipped the group and the plain list lose the same entries. -/
theorem drops_eq (h : Agrees u groups lists) (hg : groups m.key = some g) (hm : MutationOk u m) (he : e ∈ g.entries)
    (hskip : m.appendEntry = true → m.replaceConflicts = false →
      m.drops u e = true → fxpRemovalMatchesEntry u m.spec e = true) : m.codeDrops u e = m.drops u e := by
  by_cases hsame : m.appendEntry = m.replaceConflicts
  · exact drops_cases h hg hm he hsame
  · have happend : m.appendEntry = true := by
      by_contra hfalse
      have hreplace : m.replaceConflicts = false := Bool.eq_false_iff.mpr fun htrue => hfalse (hm.replaces htrue)
      exact hsame ((Bool.eq_false_iff.mpr hfalse).trans hreplace.symm)
    have hreplace : m.replaceConflicts = false := Bool.eq_false_iff.mpr fun htrue => hsame (happend.trans htrue.symm)
    obtain ⟨hcode, hmatch⟩ := @codeDrops_of_skipped u m hreplace e
    rw [hcode, Bool.eq_iff_iff]
    exact ⟨hmatch, hskip happend hreplace⟩

/-- The step lemma: after a mutation that skips nothing the groups hold the plain lists again. -/
theorem Agrees.step (h : Agrees u (groupsAfter u persisted actions n) fun key => plainAfter u persisted actions key n)
    (hget : (mutationsOf u actions)[n]? = some m) (hskip : m.appendEntry = true → m.replaceConflicts = false →
      ∀ e ∈ plainAfter u persisted actions m.key n, m.drops u e = true → fxpRemovalMatchesEntry u m.spec e = true) :
    Agrees u (groupsAfter u persisted actions (n + 1)) fun key => plainAfter u persisted actions key (n + 1) := by
  have hok := mutationsOk (List.mem_of_getElem? hget)
  have hmutate := h.mutate hok
  rw [groupsAfter_succ hget]
  intro key g hg
  obtain ⟨hinv, hversion, hkey, hentries⟩ := hmutate key g hg
  refine ⟨hinv, hversion, hkey, hentries.trans ?_⟩
  dsimp only
  rw [plainAfter_succ hget, plainStep]
  by_cases hk : m.key = key
  · subst hk
    rw [Function.update_self, if_pos rfl]
    obtain ⟨g₀, hg₀⟩ := Option.isSome_iff_exists.mp (@isSome_after u persisted actions n m (List.mem_of_getElem? hget))
    have hlist := (h m.key g₀ hg₀).2.2.2
    have hfilter : (plainAfter u persisted actions m.key n).filter (fun e => !m.codeDrops u e) =
        (plainAfter u persisted actions m.key n).filter fun e => !m.drops u e := by
      apply List.filter_congr
      intro e he
      rw [drops_eq h hg₀ hok (hlist ▸ he) fun happend hreplace => hskip happend hreplace e he]
    rw [hfilter]
  · rw [Function.update_of_ne (Ne.symm hk), if_neg hk]

/-- The run lemma: the groups hold the plain lists after every prefix of the batch. -/
theorem agrees_plain (hnormal : ∀ p ∈ persisted, normalizeSingle u p = p) (hskip : NothingSkipped u persisted actions) (n : Nat) :
    Agrees u (groupsAfter u persisted actions n) fun key => plainAfter u persisted actions key n := by
  induction n with
  | zero => exact agrees_initial hnormal
  | succ n ih =>
    cases hm : (mutationsOf u actions)[n]? with
    | none =>
      unfold groupsAfter plainAfter at ih ⊢
      rw [take_succ_of_none hm]
      exact ih
    | some m => exact ih.step hm (hskip n m hm)

/-! ## The group on demand -/

theorem build_version (entries : List FxpEntry) (t : Int) (v : String) :
    buildSharedFXPEntryGroup u entries t (normalizeFXPTransportVersion u v) = buildSharedFXPEntryGroup u entries t v := by
  unfold buildSharedFXPEntryGroup
  rw [normalizeFXPTransportVersion_idem]

/-- The persisted entries that stay beside a new one. -/
def desiredSiblings (u : Unicode) (persisted : List FxpEntry) (c : FxpEntry) : List FxpEntry :=
  persisted.filter fun p => isSharedFXPEntry u p && p.TunnelID = c.TunnelID && p.TransportVersion = c.TransportVersion &&
    !(p.RuleID = c.RuleID || fxpSpecsListenConflict u { toFxpEntry := p } { toFxpEntry := c })

theorem desired_current {c : FxpEntry} (hc : Settled u c.TunnelID c.TransportVersion c) :
    desiredSharedFXPEntryGroup u persisted (some c) none =
      buildSharedFXPEntryGroup u (desiredSiblings u persisted c ++ [c]) c.TunnelID c.TransportVersion := by
  have htunnel := (ports_of_shared hc.shared).1
  have hshared := sharedVersion_of_shared hc.shared
  rw [hc.versionNormal] at hshared
  have hversion : c.TransportVersion ≠ "" := by
    intro hempty
    rw [hempty] at hshared
    revert hshared
    decide
  have hfold : ∀ (l acc : List FxpEntry), l.foldl (fun (state : Int × List FxpEntry) (p : FxpEntry) =>
      if !isSharedFXPEntry u p then state
      else if 0 < state.1 && p.TunnelID ≠ state.1 then state
      else if p.TransportVersion ≠ c.TransportVersion then state
      else if p.RuleID = c.RuleID || fxpSpecsListenConflict u { toFxpEntry := p } { toFxpEntry := c } then state
      else (state.1, state.2 ++ [p])) (c.TunnelID, acc) = (c.TunnelID, acc ++ desiredSiblings u l c) := by
    intro l
    induction l with
    | nil => exact fun acc => by rw [List.foldl_nil, desiredSiblings, List.filter_nil, List.append_nil]
    | cons p l ih =>
      intro acc
      rw [List.foldl_cons]
      by_cases hgood : (isSharedFXPEntry u p && p.TunnelID = c.TunnelID && p.TransportVersion = c.TransportVersion &&
          !(p.RuleID = c.RuleID || fxpSpecsListenConflict u { toFxpEntry := p } { toFxpEntry := c })) = true
      · have hsiblings : desiredSiblings u (p :: l) c = p :: desiredSiblings u l c := List.filter_cons_of_pos hgood
        simp only [Bool.and_eq_true, decide_eq_true_eq, Bool.not_eq_true'] at hgood
        obtain ⟨⟨⟨hp, ht⟩, hv⟩, hfree⟩ := hgood
        rw [hsiblings, hp, ht, hv, hfree]
        simp only [Bool.not_true, Bool.false_eq_true, if_false, ne_eq, not_true_eq_false, decide_false, Bool.and_false]
        rw [ih, List.append_assoc, List.singleton_append]
      · have hsiblings : desiredSiblings u (p :: l) c = desiredSiblings u l c := List.filter_cons_of_neg hgood
        rw [hsiblings]
        refine Eq.trans (congrArg (fun state => l.foldl _ state) ?_) (ih acc)
        by_cases hp : isSharedFXPEntry u p = true
        · by_cases ht : p.TunnelID = c.TunnelID
          · by_cases hv : p.TransportVersion = c.TransportVersion
            · have hbad : (p.RuleID = c.RuleID || fxpSpecsListenConflict u { toFxpEntry := p } { toFxpEntry := c }) = true := by
                by_contra hfree
                exact hgood (by simp only [hp, ht, hv, Bool.eq_false_iff.mpr hfree, decide_true, Bool.not_false, Bool.and_true])
              simp only [hp, ht, hv, hbad, Bool.not_true, Bool.false_eq_true, if_false, ne_eq, not_true_eq_false, decide_false,
                Bool.and_false, if_true]
            · simp only [hp, ht, hv, Bool.not_true, Bool.false_eq_true, if_false, ne_eq, not_true_eq_false, decide_false,
                Bool.and_false, not_false_eq_true, if_true]
          · simp only [hp, ht, htunnel, Bool.not_true, Bool.false_eq_true, if_false, ne_eq, not_false_eq_true, decide_true,
              Bool.and_true, if_true]
        · simp only [Bool.eq_false_iff.mpr hp, Bool.not_false, if_true]
  unfold desiredSharedFXPEntryGroup
  simp only [Option.map_some, Option.getD_some, Option.bind_none, Option.getD_none, Option.map_none, hc.versionNormal,
    if_neg (not_le.mpr htunnel), if_neg hversion, Option.any_none, Option.any_some, Bool.false_eq_true, if_false, hfold,
    List.nil_append, Option.toList_some]

/-- With one apply of a process the plain list is that of the group on demand. -/
theorem plain_single (hnormal : ∀ p ∈ persisted, normalizeSingle u p = p) {item : Action}
    (hitem : sharedFXPEntryGroupMutationForAction u item = some m) (happend : m.appendEntry = true) :
    plainAfter u persisted [item] m.key 1 = desiredSiblings u persisted m.spec ++ [m.spec] := by
  have hok := mutationOk hitem
  have hsettled := hok.settled happend
  have hnone : superseded item = none := by
    have hsome : item.Fxp.isSome = true := by
      by_contra hfxp
      rw [sharedFXPEntryGroupMutationForAction, Option.not_isSome_iff_eq_none.mp hfxp] at hitem
      cases hitem
    rw [superseded, hsome]
    simp
  have hmutations : (mutationsOf u [item])[0]? = some m := by
    rw [mutationsOf, List.filterMap_cons_some hitem]
    rfl
  have hinitial : plainAfter u persisted [item] m.key 0 =
      persisted.filter fun p => isSharedFXPEntry u p && fxpEntryGroupKey u p.TransportVersion p.TunnelID = m.key := by
    rw [plainAfter, List.take_zero, List.foldl_nil, plainInitial, List.filterMap_cons_none hnone, List.filterMap_nil]
    simp
  rw [plainAfter_succ hmutations, plainStep, if_pos rfl, if_pos happend, hinitial, List.filter_filter, desiredSiblings]
  refine congrArg (fun l => l ++ [m.spec]) (List.filter_congr fun p hp => ?_)
  by_cases hshared : isSharedFXPEntry u p = true
  · have hpSettled := settled_of_shared (hnormal p hp) hshared
    have hkey : fxpEntryGroupKey u p.TransportVersion p.TunnelID = m.key ↔
        p.TunnelID = m.spec.TunnelID ∧ p.TransportVersion = m.spec.TransportVersion := by
      rw [hok.key, fxpEntryGroupKey, fxpEntryGroupKey, hpSettled.versionNormal, hsettled.versionNormal]
      constructor
      · intro heq
        exact ⟨(key_inj heq).2, (key_inj heq).1⟩
      · rintro ⟨ht, hv⟩
        rw [ht, hv]
    have hdrops : m.drops u p = (decide (p.RuleID = m.spec.RuleID) ||
        fxpSpecsListenConflict u { toFxpEntry := p } { toFxpEntry := m.spec }) := by
      rw [SharedFXPEntryGroupMutation.drops, happend, Bool.true_and]
      by_cases hmatch : fxpRemovalMatchesEntry u m.spec p = true
      · have hrule := (MutableSharedFXPEntryGroup.matches_keys hmatch).1 (ports_of_shared hsettled.shared).2.1
        rw [hmatch, Bool.true_or, decide_eq_true hrule, Bool.true_or]
      · rw [Bool.eq_false_iff.mpr hmatch, Bool.false_or]
    rw [hdrops, hshared, Bool.true_and, Bool.true_and, Bool.and_comm, ← Bool.decide_and, decide_eq_decide.mpr hkey]
  · rw [Bool.eq_false_iff.mpr hshared]
    simp

/-! ## The fold and the plain list -/

/-- The fold over groups is that over plain lists: the groups hold them after every prefix of the batch, what is
attached to an action is the group that is built from the last one, and for one apply alone it is the group on
demand. -/
structure FoldsPlainly (u : Unicode) (persisted : List FxpEntry) (actions : List Action) : Prop where
  lists : ∀ n key group, groupsAfter u persisted actions n key = some group →
    group.entries = plainAfter u persisted actions key n
  attached : ∀ (i : Nat) item m, actions[i]? = some item → sharedFXPEntryGroupMutationForAction u item = some m →
    (attachDesiredSharedFXPEntryGroups u persisted actions)[i]? = some { item with
      FXPEntryGroup := some (buildSharedFXPEntryGroup u (plainAfter u persisted actions m.key (mutationsOf u actions).length)
        m.spec.TunnelID m.spec.TransportVersion).1 }
  others : ∀ (i : Nat) item, actions[i]? = some item → sharedFXPEntryGroupMutationForAction u item = none →
    (attachDesiredSharedFXPEntryGroups u persisted actions)[i]? = some item
  onDemand : ∀ item m, actions = [item] → sharedFXPEntryGroupMutationForAction u item = some m → m.appendEntry = true →
    attachDesiredSharedFXPEntryGroups u persisted actions =
      [{ item with FXPEntryGroup := some (desiredSharedFXPEntryGroup u persisted (some m.spec) none).1 }]

theorem attach_get (i : Nat) :
    (attachDesiredSharedFXPEntryGroups u persisted actions)[i]? = (actions[i]?).map fun item =>
      (sharedFXPEntryGroupMutationForAction u item).elim item fun m => { item with
        FXPEntryGroup := (groupsAfter u persisted actions (mutationsOf u actions).length m.key).map fun group => group.snapshot u } := by
  unfold attachDesiredSharedFXPEntryGroups
  dsimp only
  by_cases hempty : (mutationsOf u actions).isEmpty = true
  · rw [if_pos hempty]
    cases hget : actions[i]? with
    | none => rfl
    | some item =>
      have hnone : sharedFXPEntryGroupMutationForAction u item = none := by
        have hall := List.filterMap_eq_nil_iff.mp (List.isEmpty_iff.mp hempty)
        exact hall item (List.mem_of_getElem? hget)
      rw [Option.map_some, hnone, Option.elim_none]
  · rw [if_neg hempty, List.getElem?_map, groupsAfter, List.take_length]

theorem snapshot_eq (h : Agrees u groups lists) (hm : MutationOk u m) (hg : groups m.key = some g) :
    g.snapshot u = (buildSharedFXPEntryGroup u (lists m.key) m.spec.TunnelID m.spec.TransportVersion).1 := by
  obtain ⟨_, _, hkey, hentries⟩ := h m.key g hg
  obtain ⟨hversion, htunnel⟩ := key_inj (hkey.trans hm.key)
  rw [MutableSharedFXPEntryGroup.snapshot, hentries, hversion, htunnel, build_version]

theorem NothingSkipped.attached (hnormal : ∀ p ∈ persisted, normalizeSingle u p = p) (hskip : NothingSkipped u persisted actions)
    {i : Nat} {item : Action} (hitem : actions[i]? = some item) (hm : sharedFXPEntryGroupMutationForAction u item = some m) :
    (attachDesiredSharedFXPEntryGroups u persisted actions)[i]? = some { item with
      FXPEntryGroup := some (buildSharedFXPEntryGroup u (plainAfter u persisted actions m.key (mutationsOf u actions).length)
        m.spec.TunnelID m.spec.TransportVersion).1 } := by
  have hmem : m ∈ mutationsOf u actions := List.mem_filterMap.mpr ⟨item, List.mem_of_getElem? hitem, hm⟩
  obtain ⟨g, hg⟩ := Option.isSome_iff_exists.mp (@isSome_after u persisted actions (mutationsOf u actions).length m hmem)
  have hsnapshot := snapshot_eq (agrees_plain hnormal hskip _) (mutationsOk hmem) hg
  rw [attach_get, hitem, Option.map_some, hm, Option.elim_some, hg, Option.map_some, hsnapshot]

theorem NothingSkipped.foldsPlainly (hnormal : ∀ p ∈ persisted, normalizeSingle u p = p)
    (hskip : NothingSkipped u persisted actions) : FoldsPlainly u persisted actions where
  lists n key group hg := (agrees_plain hnormal hskip n key group hg).2.2.2
  attached i item m hitem hm := hskip.attached hnormal hitem hm
  others i item hitem hnone := by
    rw [attach_get, hitem, Option.map_some, hnone, Option.elim_none]
  onDemand item m hactions hm happend := by
    subst hactions
    have hmutations : mutationsOf u [item] = [m] := by rw [mutationsOf, List.filterMap_cons_some hm, List.filterMap_nil]
    have hattached := @NothingSkipped.attached u persisted [item] m hnormal hskip 0 item rfl hm
    rw [hmutations, List.length_singleton, plain_single hnormal hm happend,
      ← desired_current ((mutationOk hm).settled happend)] at hattached
    have hlength : (attachDesiredSharedFXPEntryGroups u persisted [item]).length = 1 := by
      unfold attachDesiredSharedFXPEntryGroups
      dsimp only
      split
      · rfl
      · rw [List.length_map, List.length_singleton]
    obtain ⟨a, ha⟩ := List.length_eq_one_iff.mp hlength
    rw [ha] at hattached ⊢
    rw [Option.some.inj hattached]

theorem FoldsPlainly.nothingSkipped (hnormal : ∀ p ∈ persisted, normalizeSingle u p = p) (h : FoldsPlainly u persisted actions) :
    NothingSkipped u persisted actions := by
  intro n m hget happend hreplace e he hdrops
  have hmem := List.mem_of_getElem? hget
  obtain ⟨lists, hagrees⟩ := @agrees_after u persisted actions hnormal n
  obtain ⟨g, hg⟩ := Option.isSome_iff_exists.mp (@isSome_after u persisted actions n m hmem)
  obtain ⟨g', hg'⟩ := Option.isSome_iff_exists.mp (@isSome_after u persisted actions (n + 1) m hmem)
  have hbefore := h.lists n m.key g hg
  have hafter := h.lists (n + 1) m.key g' hg'
  rw [groupsAfter_succ hget] at hg'
  have hentries := (hagrees.mutate (mutationsOk hmem) m.key g' hg').2.2.2
  rw [Function.update_self, ← (hagrees m.key g hg).2.2.2, hbefore, hafter, plainAfter_succ hget, plainStep, if_pos rfl] at hentries
  have hlists := List.append_cancel_right hentries
  by_contra hmatch
  have hcode : m.codeDrops u e = false := by
    rw [(codeDrops_of_skipped hreplace e).1]
    exact Bool.eq_false_iff.mpr hmatch
  have hkept : e ∈ (plainAfter u persisted actions m.key n).filter fun e => !m.codeDrops u e :=
    List.mem_filter.mpr ⟨he, by rw [hcode]; rfl⟩
  rw [← hlists] at hkept
  have hgood := (List.mem_filter.mp hkept).2
  rw [hdrops] at hgood
  cases hgood

/-- A batch folds over groups as over plain lists exactly where nothing is skipped. -/
theorem indexed_fold_iff (u : Unicode) (loaded : List FxpEntry) (actions : List Action) :
    FoldsPlainly u (loaded.map (scrubSingle u)) actions ↔ NothingSkipped u (loaded.map (scrubSingle u)) actions := by
  have hnormal : ∀ p ∈ loaded.map (scrubSingle u), normalizeSingle u p = p := by
    intro p hp
    obtain ⟨e, _, rfl⟩ := List.mem_map.mp hp
    exact normalizeSingle_scrub u e
  exact ⟨fun h => h.nothingSkipped hnormal, fun h => h.foldsPlainly hnormal⟩

/-- An apply with blanks around its operation is added beside the persisted entry of its port, which the plain list
drops. -/
theorem blank_apply_keeps_conflict : ¬ ∀ (u : Unicode) (loaded : List FxpEntry) (actions : List Action),
    FoldsPlainly u (loaded.map (scrubSingle u)) actions := by
  intro h
  obtain ⟨item, hitem⟩ : ∃ item : Action, item = { Op := " apply ", Fxp := some { toFxpEntry := plainMember 2 8443 } } :=
    ⟨_, rfl⟩
  have hsome : (sharedFXPEntryGroupMutationForAction asciiUnicode item).isSome = true := by
    rw [hitem]
    decide +kernel
  obtain ⟨m, hm⟩ := Option.isSome_iff_exists.mp hsome
  have hattached := (h asciiUnicode [plainMember 1 8443] [item]).attached 0 item m rfl hm
  have hcode : (((attachDesiredSharedFXPEntryGroups asciiUnicode ([plainMember 1 8443].map (scrubSingle asciiUnicode)) [item])[0]?).bind
      Action.FXPEntryGroup).map (fun group => group.Entries.map FxpEntry.RuleID) = some [1, 2] := by
    rw [hitem]
    decide +kernel
  have hplain : (sharedFXPEntryGroupMutationForAction asciiUnicode item).map (fun m => (buildSharedFXPEntryGroup asciiUnicode
      (plainAfter asciiUnicode ([plainMember 1 8443].map (scrubSingle asciiUnicode)) [item] m.key
        (mutationsOf asciiUnicode [item]).length) m.spec.TunnelID m.spec.TransportVersion).1.Entries.map FxpEntry.RuleID) =
      some [2] := by
    rw [hitem]
    decide +kernel
  rw [hattached, Option.bind_some, Option.map_some] at hcode
  rw [hm, Option.map_some] at hplain
  cases (hcode.symm.trans hplain)

end ForwardX.Agent.EntryGroups
