import ForwardX.Agent.FxpSpec

/- Normal forms of specs. Bringing a spec to its normal form twice is doing it once; the entries of a normal
   group are its members, each with an identity of its own, and a group that is built from such members has
   these entries (`build_members`). -/
namespace ForwardX.Agent.EntryGroups
open Fxp.Traffic (trimSpace)
open Fxp.Control (Unicode lowerTrim lowerTrim_word lowerTrim_tcp lowerTrim_udp lowerTrim_both lowerTrim_lowerTrim toList_lowerTrim
  toList_trimSpace trimSpace_trimSpace UdpTarget portOr portOr_portOr
  normalizeExitStrategy normalizeExitStrategy_idem normalizeUDPTargets normalizeUDPTargets_eq normalizeUDPTargets_normal)

variable (u : Unicode)

/-! ## Fields -/

theorem normalizeFXPTransportVersion_idem (version : String) :
    normalizeFXPTransportVersion u (normalizeFXPTransportVersion u version) = normalizeFXPTransportVersion u version := by
  have hv1 : lowerTrim u "v1" = "v1" := lowerTrim_word u (by decide) (by decide)
  by_cases hempty : lowerTrim u version = ""
  · simp [normalizeFXPTransportVersion, hempty, hv1]
  · simp [normalizeFXPTransportVersion, hempty, lowerTrim_lowerTrim]

theorem normalizeRuntimeProtocol_word (protocol : String) : normalizeRuntimeProtocol u protocol = "udp" ∨
    normalizeRuntimeProtocol u protocol = "both" ∨ normalizeRuntimeProtocol u protocol = "tcp" := by
  unfold normalizeRuntimeProtocol
  dsimp only
  split
  · exact Or.inl rfl
  · split
    · exact Or.inr (Or.inl rfl)
    · exact Or.inr (Or.inr rfl)

theorem normalizeRuntimeProtocol_idem (protocol : String) :
    normalizeRuntimeProtocol u (normalizeRuntimeProtocol u protocol) = normalizeRuntimeProtocol u protocol := by
  rcases normalizeRuntimeProtocol_word u protocol with hword | hword | hword <;> rw [hword, normalizeRuntimeProtocol]
  · simp [lowerTrim_udp]
  · simp [lowerTrim_both]
  · rw [lowerTrim_tcp, if_neg (by decide), if_neg (by decide +kernel)]

theorem normalizeExit_idem (key : String) (exit : FxpExitEndpoint) :
    normalizeExit key (normalizeExit key exit) = normalizeExit key exit := by
  by_cases hset : exit.Key = ""
  · simp [normalizeExit, trimSpace_trimSpace, portOr_portOr, hset]
  · simp [normalizeExit, trimSpace_trimSpace, portOr_portOr, hset]

theorem normalizeSingle_idem (spec : FxpEntry) : normalizeSingle u (normalizeSingle u spec) = normalizeSingle u spec := by
  have hexits : (spec.Exits.map (normalizeExit spec.Key)).map (normalizeExit spec.Key) =
      spec.Exits.map (normalizeExit spec.Key) := by
    rw [List.map_map]
    exact List.map_congr_left fun exit _ => normalizeExit_idem spec.Key exit
  simp only [normalizeSingle, lowerTrim_lowerTrim, normalizeFXPTransportVersion_idem, trimSpace_trimSpace,
    normalizeRuntimeProtocol_idem, normalizeExitStrategy_idem, portOr_portOr, hexits,
    normalizeUDPTargets_eq (normalizeUDPTargets_normal _)]

theorem normalizeSingle_scrub (spec : FxpEntry) : normalizeSingle u (scrubSingle u spec) = scrubSingle u spec := by
  have hexits : (spec.Exits.map (normalizeExit spec.Key)).map (normalizeExit spec.Key) =
      spec.Exits.map (normalizeExit spec.Key) := by
    rw [List.map_map]
    exact List.map_congr_left fun exit _ => normalizeExit_idem spec.Key exit
  simp only [scrubSingle, normalizeSingle, lowerTrim_lowerTrim, normalizeFXPTransportVersion_idem, trimSpace_trimSpace,
    normalizeRuntimeProtocol_idem, normalizeExitStrategy_idem, portOr_portOr, hexits,
    normalizeUDPTargets_eq (normalizeUDPTargets_normal _)]

section
variable (e : FxpEntry)

theorem normalizeSingle_role : (normalizeSingle u e).Role = lowerTrim u e.Role := by rw [normalizeSingle]

theorem normalizeSingle_version :
    (normalizeSingle u e).TransportVersion = normalizeFXPTransportVersion u e.TransportVersion := by rw [normalizeSingle]

theorem normalizeSingle_transport : (normalizeSingle u e).V3Transport = lowerTrim u e.V3Transport := by rw [normalizeSingle]

theorem normalizeSingle_protocol : (normalizeSingle u e).Protocol = normalizeRuntimeProtocol u e.Protocol := by
  rw [normalizeSingle]

theorem normalizeSingle_tunnel : (normalizeSingle u e).TunnelID = e.TunnelID := by rw [normalizeSingle]

theorem normalizeSingle_rule : (normalizeSingle u e).RuleID = e.RuleID := by rw [normalizeSingle]

theorem normalizeSingle_port : (normalizeSingle u e).ListenPort = e.ListenPort := by rw [normalizeSingle]

theorem normalizeSingle_udpPort : (normalizeSingle u e).UDPListenPort = portOr e.UDPListenPort e.ListenPort := by
  rw [normalizeSingle]

theorem normalizeSingle_key : (normalizeSingle u e).Key = e.Key := by rw [normalizeSingle]

theorem fxpEntryIdentity_eq : fxpEntryIdentity u e =
    toString e.RuleID ++ ":" ++ toString e.ListenPort ++ ":" ++ normalizeRuntimeProtocol u e.Protocol := by
  rw [fxpEntryIdentity, normalizeSingle_rule, normalizeSingle_port, normalizeSingle_protocol]

end

theorem lowerTrim_of_fold {s word : String} (hword : word.toList.all (fun c => c.val < 128 && c.toLower = c) = true)
    (h : equalFold (trimSpace (lowerTrim u s)) word = true) : lowerTrim u s = word := by
  have htrim : trimSpace (lowerTrim u s) = lowerTrim u s := by
    rw [← String.toList_inj, toList_trimSpace, toList_lowerTrim, Trim.trim_map _ u.space_lower, Trim.trim_trim]
  have hlower : ∀ c ∈ (lowerTrim u s).toList, u.toLower c = c := by
    intro c hc
    rw [toList_lowerTrim] at hc
    obtain ⟨c', _, rfl⟩ := List.mem_map.mp hc
    exact u.lower_lower c'
  have hascii : ∀ c ∈ word.toList, c.val < 128 ∧ c.toLower = c := by
    intro c hc
    have hc := List.all_eq_true.mp hword c hc
    rwa [Bool.and_eq_true, decide_eq_true_eq, decide_eq_true_eq] at hc
  have hfold : (lowerTrim u s).toList.map Char.toLower = word.toList := by
    rw [htrim, equalFold, decide_eq_true_eq] at h
    calc (lowerTrim u s).toList.map Char.toLower = word.toList.map Char.toLower := h
      _ = word.toList.map id := List.map_congr_left fun c hc => (hascii c hc).2
      _ = word.toList := List.map_id _
  have hfixed : ∀ c ∈ (lowerTrim u s).toList, c.toLower = c := by
    intro c hc
    have hmem : c.toLower ∈ word.toList := by
      rw [← hfold]
      exact List.mem_map_of_mem hc
    have hsmall : c.val < 128 := by
      have hsmall := (hascii _ hmem).1
      unfold Char.toLower at hsmall
      split at hsmall
      · rename_i hupper
        exact UInt32.lt_of_le_of_lt hupper.2 (by decide)
      · exact hsmall
    rw [← u.lower_ascii c hsmall, hlower c hc]
  rw [← String.toList_inj, ← hfold]
  calc (lowerTrim u s).toList = (lowerTrim u s).toList.map id := (List.map_id _).symm
    _ = (lowerTrim u s).toList.map Char.toLower := List.map_congr_left fun c hc => (hfixed c hc).symm

theorem lowerTrim_entry : lowerTrim u "entry" = "entry" := lowerTrim_word u (by decide) (by decide)

theorem lowerTrim_group : lowerTrim u fxpEntryGroupRole = fxpEntryGroupRole := lowerTrim_word u (by decide) (by decide)

/-! ## Members -/

/-- An entry of a tunnel and version in its normal form. -/
structure Settled (tunnelID : Int) (transportVersion : String) (e : FxpEntry) : Prop where
  role : e.Role = "entry"
  version : e.TransportVersion = transportVersion
  tunnel : e.TunnelID = tunnelID
  normal : normalizeSingle u e = e
  shared : isSharedFXPEntry u e = true

structure Member (tunnelID : Int) (transportVersion : String) (e : FxpEntry) : Prop
    extends Settled u tunnelID transportVersion e where
  key : e.Key ≠ ""

variable {u} {t : Int} {v : String} {e : FxpEntry}

/-- A shared entry in its normal form is settled in its tunnel and version. -/
theorem settled_of_shared (hnormal : normalizeSingle u e = e) (hshared : isSharedFXPEntry u e = true) :
    Settled u e.TunnelID e.TransportVersion e := by
  have hrole : lowerTrim u e.Role = e.Role := by rw [← normalizeSingle_role, hnormal]
  have hfold : equalFold (trimSpace (lowerTrim u e.Role)) "entry" = true := by
    unfold isSharedFXPEntry at hshared
    simp only [Bool.and_eq_true] at hshared
    rw [hrole]
    exact hshared.1.1.1.1
  exact ⟨hrole.symm.trans (lowerTrim_of_fold u (by decide) hfold), rfl, rfl, hnormal, hshared⟩

theorem Settled.protocol (h : Settled u t v e) : normalizeRuntimeProtocol u e.Protocol = e.Protocol := by
  rw [← normalizeSingle_protocol, h.normal]

theorem Settled.versionNormal (h : Settled u t v e) : normalizeFXPTransportVersion u v = v := by
  rw [← h.version, ← normalizeSingle_version, h.normal]

theorem Settled.groupEntry (h : Settled u t v e) : groupEntry u v t e = e := by
  rw [EntryGroups.groupEntry, ← h.tunnel, ← h.version, ← h.role]
  exact h.normal

theorem sharedVersion_of_shared (h : isSharedFXPEntry u e = true) :
    sharedVersion (normalizeFXPTransportVersion u e.TransportVersion) = true := by
  unfold isSharedFXPEntry at h
  simp only [Bool.and_eq_true] at h
  exact h.1.1.1.2

theorem ports_of_shared (h : isSharedFXPEntry u e = true) : 0 < e.TunnelID ∧ 0 < e.RuleID ∧ 0 < e.ListenPort := by
  unfold isSharedFXPEntry at h
  simp only [Bool.and_eq_true, decide_eq_true_eq] at h
  exact ⟨h.1.1.2, h.1.2, h.2⟩

theorem groupEntry_member (hversion : normalizeFXPTransportVersion u v = v)
    (hshared : isSharedFXPEntry u (groupEntry u v t e) = true) (hkey : (groupEntry u v t e).Key ≠ "") :
    Member u t v (groupEntry u v t e) where
  role := (normalizeSingle_role u _).trans (lowerTrim_entry u)
  version := (normalizeSingle_version u _).trans hversion
  tunnel := normalizeSingle_tunnel u _
  normal := normalizeSingle_idem u _
  shared := hshared
  key := hkey

theorem Settled.udpPort (h : Settled u t v e) : portOr e.UDPListenPort e.ListenPort = e.UDPListenPort := by
  rw [← normalizeSingle_udpPort, h.normal]

theorem Settled.udpPort_pos (h : Settled u t v e) : 0 < e.UDPListenPort := by
  by_contra hle
  have hport := h.udpPort
  rw [portOr, if_pos (by omega)] at hport
  have := (ports_of_shared h.shared).2.2
  omega

/-! ## Identities -/

theorem identity_inj {a b : FxpEntry} (h : fxpEntryIdentity u a = fxpEntryIdentity u b) : a.RuleID = b.RuleID := by
  have hcolon : ∀ n : Int, ':' ∉ (toString n).toList := by
    intro n hmem
    rcases DecimalText.mem_toString hmem with hdigit | hminus
    · revert hdigit
      decide
    · revert hminus
      decide
  rw [fxpEntryIdentity_eq, fxpEntryIdentity_eq] at h
  have hchars := congrArg String.toList h
  simp only [String.toList_append, List.append_assoc] at hchars
  have hrule := (DecimalText.join_inj (hcolon a.RuleID) (hcolon b.RuleID) hchars).1
  exact DecimalText.toString_inj (String.toList_inj.mp hrule)

theorem identity_congr {a b : FxpEntry} (hrule : a.RuleID = b.RuleID) (hport : a.ListenPort = b.ListenPort)
    (hprotocol : a.Protocol = b.Protocol) : fxpEntryIdentity u a = fxpEntryIdentity u b := by
  rw [fxpEntryIdentity_eq, fxpEntryIdentity_eq, hrule, hport, hprotocol]

variable (u) in
theorem mem_uniqueEntries {entries : List FxpEntry} (h : e ∈ uniqueEntries u entries) : e ∈ entries := by
  obtain ⟨row, hrow, rfl⟩ := List.mem_map.mp h
  rcases Assoc.of_mem_foldl_assign (fun e => (fxpEntryIdentity u e, e)) hrow with hnil | ⟨b, hb, rfl⟩
  · cases hnil
  · exact hb

variable (u) in
theorem nodup_uniqueEntries (entries : List FxpEntry) : ((uniqueEntries u entries).map (fxpEntryIdentity u)).Nodup := by
  have hkeys := Assoc.nodup_foldl_assign (fun e => (fxpEntryIdentity u e, e)) entries (l := []) List.nodup_nil
  have hsame : (uniqueEntries u entries).map (fxpEntryIdentity u) =
      Assoc.keys (entries.foldl (fun m entry => Assoc.assign m (fxpEntryIdentity u entry) entry) []) := by
    unfold uniqueEntries
    rw [List.map_map]
    apply List.map_congr_left
    intro row hrow
    rcases Assoc.of_mem_foldl_assign (fun e => (fxpEntryIdentity u e, e)) hrow with hnil | ⟨b, _, rfl⟩
    · cases hnil
    · rfl
  rw [hsame]
  exact hkeys

variable (u) in
theorem uniqueEntries_of_nodup {entries : List FxpEntry} (h : (entries.map (fxpEntryIdentity u)).Nodup) :
    uniqueEntries u entries = entries := by
  have hfold := Assoc.foldl_assign_of_nodup (fun e => (fxpEntryIdentity u e, e)) (l := []) h
  unfold uniqueEntries
  rw [hfold, List.nil_append, List.map_map]
  exact List.map_id entries

/-! ## Groups -/

structure V3Options where
  transport : String
  host : String
  path : String
  userAgent : String
  serverName : String
  multiplex : Option Bool

def FxpEntry.options (e : FxpEntry) : V3Options :=
  ⟨e.V3Transport, e.V3Host, e.V3Path, e.V3UserAgent, e.V3ServerName, e.V3Multiplex⟩

/-- A group as `normalizeFXPSpec` leaves it. -/
structure NormalGroup (u : Unicode) (group : FxpSpec) : Prop where
  role : group.Role = fxpEntryGroupRole
  version : normalizeFXPTransportVersion u group.TransportVersion = group.TransportVersion
  members : ∀ e ∈ group.Entries, Member u group.TunnelID group.TransportVersion e
  nodup : (group.Entries.map (fxpEntryIdentity u)).Nodup

theorem normalizeFXPSpec_single {spec : FxpSpec} (h : lowerTrim u spec.Role ≠ fxpEntryGroupRole) :
    normalizeFXPSpec u spec = { toFxpEntry := normalizeSingle u spec.toFxpEntry } := by
  rw [normalizeFXPSpec, if_neg h]

/-- What is a group after it is brought to its normal form has the role of one. -/
theorem isFXPEntryGroup_role {spec : FxpSpec} (h : isFXPEntryGroup u (normalizeFXPSpec u spec).toFxpEntry = true) :
    lowerTrim u spec.Role = fxpEntryGroupRole := by
  by_contra hne
  rw [normalizeFXPSpec_single hne] at h
  have hfold : equalFold (trimSpace (lowerTrim u spec.Role)) fxpEntryGroupRole = true := by
    unfold isFXPEntryGroup at h
    simp only [normalizeSingle_role, Bool.and_eq_true] at h
    exact h.1.1
  exact hne (lowerTrim_of_fold u (by decide) hfold)

section
variable {spec : FxpSpec} (h : lowerTrim u spec.Role = fxpEntryGroupRole)
include h

theorem normalizeFXPSpec_role : (normalizeFXPSpec u spec).Role = fxpEntryGroupRole := by
  rw [normalizeFXPSpec, if_pos h, h]

theorem normalizeFXPSpec_version :
    (normalizeFXPSpec u spec).TransportVersion = normalizeFXPTransportVersion u spec.TransportVersion := by
  rw [normalizeFXPSpec, if_pos h]

theorem normalizeFXPSpec_tunnel : (normalizeFXPSpec u spec).TunnelID = spec.TunnelID := by
  rw [normalizeFXPSpec, if_pos h]

theorem normalizeFXPSpec_options : (normalizeFXPSpec u spec).options =
    { spec.options with transport := lowerTrim u spec.V3Transport } := by
  rw [normalizeFXPSpec, if_pos h, FxpEntry.options, FxpEntry.options]

theorem normalizeFXPSpec_entries : (normalizeFXPSpec u spec).Entries =
    normalizeEntries u (normalizeFXPTransportVersion u spec.TransportVersion) spec.TunnelID spec.Entries := by
  rw [normalizeFXPSpec, if_pos h]

end

variable {entries : List FxpEntry}

theorem mem_normalizeEntries (hversion : normalizeFXPTransportVersion u v = v) (he : e ∈ normalizeEntries u v t entries) :
    Member u t v e := by
  have he := mem_uniqueEntries u ((List.perm_insertionSort _ _).mem_iff.mp he)
  obtain ⟨hmem, hgood⟩ := List.mem_filter.mp he
  obtain ⟨raw, _, rfl⟩ := List.mem_map.mp hmem
  rw [Bool.and_eq_true, decide_eq_true_eq] at hgood
  exact groupEntry_member hversion hgood.1 hgood.2

variable (u v t entries) in
theorem nodup_normalizeEntries : ((normalizeEntries u v t entries).map (fxpEntryIdentity u)).Nodup := by
  rw [normalizeEntries]
  exact (((List.perm_insertionSort _ _).map _).nodup_iff).mpr (nodup_uniqueEntries u _)

theorem normalGroup_normalize {spec : FxpSpec} (h : lowerTrim u spec.Role = fxpEntryGroupRole) :
    NormalGroup u (normalizeFXPSpec u spec) where
  role := normalizeFXPSpec_role h
  version := by rw [normalizeFXPSpec_version h, normalizeFXPTransportVersion_idem]
  members e he := by
    rw [normalizeFXPSpec_entries h] at he
    rw [normalizeFXPSpec_version h, normalizeFXPSpec_tunnel h]
    exact mem_normalizeEntries (normalizeFXPTransportVersion_idem u spec.TransportVersion) he
  nodup := by
    rw [normalizeFXPSpec_entries h]
    exact nodup_normalizeEntries u _ _ _

theorem normalizeEntries_members (hmembers : ∀ e ∈ entries, Member u t v e)
    (hnodup : (entries.map (fxpEntryIdentity u)).Nodup) :
    normalizeEntries u v t entries = entries.insertionSort fun a b => entryLess b a = false := by
  have hmap : entries.map (groupEntry u v t) = entries := by
    calc entries.map (groupEntry u v t) = entries.map id := List.map_congr_left fun e he => (hmembers e he).groupEntry
      _ = entries := List.map_id _
  have hfilter : entries.filter (fun entry => isSharedFXPEntry u entry && entry.Key ≠ "") = entries := by
    apply List.filter_eq_self.mpr
    intro e he
    rw [(hmembers e he).shared, Bool.true_and, decide_eq_true_eq]
    exact (hmembers e he).key
  unfold normalizeEntries
  dsimp only
  rw [hmap, hfilter, uniqueEntries_of_nodup u hnodup]

theorem normalizeEntries_perm (hmembers : ∀ e ∈ entries, Member u t v e)
    (hnodup : (entries.map (fxpEntryIdentity u)).Nodup) : (normalizeEntries u v t entries).Perm entries := by
  rw [normalizeEntries_members hmembers hnodup]
  exact List.perm_insertionSort _ _

variable {group : FxpSpec}

theorem NormalGroup.entries_perm (h : NormalGroup u group) : (normalizeFXPSpec u group).Entries.Perm group.Entries := by
  rw [normalizeFXPSpec_entries (by rw [h.role, lowerTrim_group]), h.version]
  exact normalizeEntries_perm h.members h.nodup

theorem isFXPEntryGroup_iff (h : NormalGroup u group) :
    isFXPEntryGroup u group.toFxpEntry = true ↔ sharedVersion group.TransportVersion = true ∧ 0 < group.TunnelID := by
  have hrole : equalFold (trimSpace fxpEntryGroupRole) fxpEntryGroupRole = true := by decide
  unfold isFXPEntryGroup
  rw [h.role, h.version, hrole, Bool.true_and, Bool.and_eq_true, decide_eq_true_eq]

/-- The group that is built from members with identities of their own. -/
structure Built (u : Unicode) (tunnelID : Int) (transportVersion : String) (entries : List FxpEntry) (group : FxpSpec) :
    Prop where
  normal : NormalGroup u group
  tunnel : group.TunnelID = tunnelID
  version : group.TransportVersion = transportVersion
  perm : group.Entries.Perm entries
  plain : transportVersion ≠ "v3" → group.options = ⟨"", "", "", "", "", none⟩
  options : transportVersion = "v3" → ∀ first ∈ entries.head?, group.options = first.options

theorem compatibleEntries_settled (hmembers : ∀ e ∈ entries, Settled u t v e) : compatibleEntries u entries t v = entries := by
  have hmap : entries.map (normalizeSingle u) = entries := by
    calc entries.map (normalizeSingle u) = entries.map id := List.map_congr_left fun e he => (hmembers e he).normal
      _ = entries := List.map_id _
  unfold compatibleEntries
  rw [hmap]
  apply List.filter_eq_self.mpr
  intro e he
  simp [(hmembers e he).tunnel, (hmembers e he).version, (hmembers e he).shared]

theorem Built.of_normalize (hrole : group.Role = fxpEntryGroupRole) (ht : group.TunnelID = t)
    (hv : group.TransportVersion = v) (he : group.Entries = entries)
    (htransport : lowerTrim u group.V3Transport = group.V3Transport)
    (hplain : v ≠ "v3" → group.options = ⟨"", "", "", "", "", none⟩)
    (hoptions : v = "v3" → ∀ first ∈ entries.head?, group.options = first.options)
    (hversion : normalizeFXPTransportVersion u v = v) (hmembers : ∀ e ∈ entries, Member u t v e)
    (hnodup : (entries.map (fxpEntryIdentity u)).Nodup) : Built u t v entries (normalizeFXPSpec u group) := by
  subst ht hv he
  have hrole' : lowerTrim u group.Role = fxpEntryGroupRole := by rw [hrole, lowerTrim_group]
  have hnormal : NormalGroup u group := ⟨hrole, hversion, hmembers, hnodup⟩
  have hsame : (normalizeFXPSpec u group).options = group.options := by
    rw [normalizeFXPSpec_options hrole', htransport]
    rw [FxpEntry.options]
  exact
    { normal := normalGroup_normalize hrole'
      tunnel := normalizeFXPSpec_tunnel hrole'
      version := (normalizeFXPSpec_version hrole').trans hversion
      perm := hnormal.entries_perm
      plain := fun h => hsame.trans (hplain h)
      options := fun h first hfirst => hsame.trans (hoptions h first hfirst) }

theorem build_members (hversion : normalizeFXPTransportVersion u v = v) (hmembers : ∀ e ∈ entries, Member u t v e)
    (hnodup : (entries.map (fxpEntryIdentity u)).Nodup) :
    Built u t v entries (buildSharedFXPEntryGroup u entries t v).1 := by
  have hempty : lowerTrim u "" = "" := lowerTrim_word u (by decide) (by decide)
  unfold buildSharedFXPEntryGroup
  dsimp only
  rw [hversion, compatibleEntries_settled fun e he => (hmembers e he).toSettled]
  by_cases hv3 : v = "v3"
  · rw [if_pos hv3]
    cases entries with
    | nil =>
      rw [List.head?_nil, Option.elim_none]
      exact Built.of_normalize rfl rfl rfl rfl hempty (fun hne => absurd hv3 hne) (fun _ _ hfirst => nomatch hfirst) hversion
        hmembers hnodup
    | cons first entries =>
      have htransport : lowerTrim u first.V3Transport = first.V3Transport := by
        rw [← normalizeSingle_transport, (hmembers first List.mem_cons_self).normal]
      rw [List.head?_cons, Option.elim_some, copyFXPV3Options]
      refine Built.of_normalize rfl rfl rfl rfl htransport (fun hne => absurd hv3 hne) (fun _ e hfirst => ?_) hversion
        hmembers hnodup
      obtain rfl := Option.some.inj hfirst
      rw [FxpEntry.options, FxpEntry.options]
  · rw [if_neg hv3]
    refine Built.of_normalize rfl rfl rfl rfl hempty (fun _ => ?_) (fun hv' => absurd hv' hv3) hversion hmembers hnodup
    rw [FxpEntry.options]

/-! ## Listen endpoints -/

def EndpointsMeet (u : Unicode) (a b : FxpEntry) : Prop := ∃ endpoint ∈ singleListenEndpoints u a, endpoint ∈ singleListenEndpoints u b

theorem Settled.role_ne (h : Settled u t v e) : lowerTrim u e.Role ≠ fxpEntryGroupRole := by
  rw [h.role, lowerTrim_entry]
  decide

theorem listenEndpoints_single (h : Settled u t v e) : fxpListenEndpoints u { toFxpEntry := e } = singleListenEndpoints u e := by
  have hrole : lowerTrim u ({ toFxpEntry := e } : FxpSpec).Role ≠ fxpEntryGroupRole := h.role_ne
  have hnot : isFXPEntryGroup u e = false := by
    have hword : equalFold (trimSpace "entry") fxpEntryGroupRole = false := by decide
    rw [isFXPEntryGroup, h.role, hword, Bool.false_and, Bool.false_and]
  unfold fxpListenEndpoints
  dsimp only
  rw [normalizeFXPSpec_single hrole]
  dsimp only
  rw [h.normal, hnot]
  rfl

theorem listenEndpoints_group (hg : NormalGroup u group) (hgroup : isFXPEntryGroup u group.toFxpEntry = true) :
    fxpListenEndpoints u group =
      (normalizeFXPSpec u group).Entries.flatMap fun entry =>
        (singleListenEndpoints u entry).map fun e => (e.1 ++ ":" ++ toString e.2, e.2) := by
  have hrole : lowerTrim u group.Role = fxpEntryGroupRole := by rw [hg.role, lowerTrim_group]
  have hagain : isFXPEntryGroup u (normalizeFXPSpec u group).toFxpEntry = true := by
    rw [isFXPEntryGroup_iff (normalGroup_normalize hrole), normalizeFXPSpec_version hrole, normalizeFXPSpec_tunnel hrole, hg.version]
    exact (isFXPEntryGroup_iff hg).mp hgroup
  unfold fxpListenEndpoints
  dsimp only
  rw [hagain, if_pos rfl]

theorem endpoint_word {endpoint : String × Int} (h : endpoint ∈ singleListenEndpoints u e) :
    0 < endpoint.2 ∧ (endpoint.1 = "tcp" ∨ endpoint.1 = "udp") := by
  unfold singleListenEndpoints at h
  dsimp only at h
  generalize normalizeSingle u e = spec at h
  obtain ⟨protocol, hprotocol, hsome⟩ := List.mem_filterMap.mp h
  have hword : protocol = "tcp" ∨ protocol = "udp" := by
    unfold runtimeProtocols at hprotocol
    split at hprotocol
    · exact Or.inr (List.mem_singleton.mp hprotocol)
    · split at hprotocol
      · simpa using hprotocol
      · exact Or.inl (List.mem_singleton.mp hprotocol)
  split at hsome
  · obtain ⟨hpos, heq⟩ := Option.ite_none_right_eq_some.mp hsome
    obtain rfl := Option.some.inj heq
    exact ⟨hpos, hword⟩
  · obtain ⟨hpos, heq⟩ := Option.ite_none_right_eq_some.mp hsome
    obtain rfl := Option.some.inj heq
    exact ⟨hpos, hword⟩

theorem laneProtocol_word {protocol : String} (h : protocol = "tcp" ∨ protocol = "udp") (port : String) :
    laneProtocol (protocol ++ ":" ++ port) = protocol ∧ laneProtocol protocol = protocol := by
  rcases h with rfl | rfl
  · refine ⟨?_, by decide⟩
    rw [laneProtocol, String.toList_append, String.toList_append]
    rfl
  · refine ⟨?_, by decide⟩
    rw [laneProtocol, String.toList_append, String.toList_append]
    rfl

theorem conflict_single_iff {a b : FxpEntry} (ha : Settled u t v a) (hb : Settled u t v b) :
    fxpSpecsListenConflict u { toFxpEntry := a } { toFxpEntry := b } = true ↔ EndpointsMeet u a b := by
  unfold fxpSpecsListenConflict
  rw [listenEndpoints_single ha, listenEndpoints_single hb, List.any_eq_true]
  constructor
  · rintro ⟨l, hl, hany⟩
    obtain ⟨r, hr, hmeet⟩ := List.any_eq_true.mp hany
    simp only [Bool.and_eq_true, decide_eq_true_eq, (laneProtocol_word (endpoint_word hl).2 "").2,
      (laneProtocol_word (endpoint_word hr).2 "").2] at hmeet
    have hsame : l = r := Prod.ext hmeet.2 hmeet.1.2
    exact ⟨l, hl, hsame ▸ hr⟩
  · rintro ⟨endpoint, hl, hr⟩
    refine ⟨endpoint, hl, List.any_eq_true.mpr ⟨endpoint, hr, ?_⟩⟩
    simp [(endpoint_word hl).1]

/-- A member is in conflict with a group in the endpoints of one of its entries. -/
theorem conflict_group_iff (hg : NormalGroup u group) (hgroup : isFXPEntryGroup u group.toFxpEntry = true)
    (he : Settled u group.TunnelID group.TransportVersion e) :
    fxpSpecsListenConflict u { toFxpEntry := e } group = true ↔ ∃ d ∈ group.Entries, EndpointsMeet u e d := by
  unfold fxpSpecsListenConflict
  rw [listenEndpoints_single he, listenEndpoints_group hg hgroup, List.any_eq_true]
  constructor
  · rintro ⟨l, hl, hany⟩
    obtain ⟨r, hr, hmeet⟩ := List.any_eq_true.mp hany
    obtain ⟨d, hd, hrow⟩ := List.mem_flatMap.mp hr
    obtain ⟨endpoint, hendpoint, rfl⟩ := List.mem_map.mp hrow
    simp only [Bool.and_eq_true, decide_eq_true_eq, (laneProtocol_word (endpoint_word hl).2 "").2,
      (laneProtocol_word (endpoint_word hendpoint).2 (toString endpoint.2)).1] at hmeet
    have hsame : l = endpoint := Prod.ext hmeet.2 hmeet.1.2
    exact ⟨d, hg.entries_perm.mem_iff.mp hd, l, hl, hsame ▸ hendpoint⟩
  · rintro ⟨d, hd, endpoint, hl, hendpoint⟩
    have hlane := (laneProtocol_word (endpoint_word hl).2 (toString endpoint.2)).1
    refine ⟨endpoint, hl, List.any_eq_true.mpr ⟨(endpoint.1 ++ ":" ++ toString endpoint.2, endpoint.2), ?_, ?_⟩⟩
    · exact List.mem_flatMap.mpr ⟨d, hg.entries_perm.mem_iff.mpr hd, List.mem_map.mpr ⟨endpoint, hendpoint, rfl⟩⟩
    · simp only [Bool.and_eq_true, decide_eq_true_eq, hlane, (laneProtocol_word (endpoint_word hl).2 "").2]
      exact ⟨⟨(endpoint_word hl).1, trivial⟩, trivial⟩

/-- An entry of tunnel 5 on V1. -/
def plainMember (ruleID port : Int) : FxpEntry :=
  { Role := "entry", TransportVersion := "v1", TunnelID := 5, RuleID := ruleID, ListenPort := port, Protocol := "tcp",
    ExitHost := "exit.example", ExitPort := 9000, TargetIP := "10.0.0.1", TargetPort := 80, Key := "k" }

end ForwardX.Agent.EntryGroups
