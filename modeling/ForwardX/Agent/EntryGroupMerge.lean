import ForwardX.Agent.FxpNormalForm
import ForwardX.Fxp.ListenLanes

/- An apply that finds its group running is merged into it (`mergeFXPApplyGroup` in `fxp_additive_sync.go`): the
   group goes on with the entries of the apply's snapshot and with its own entries of other rules. The merge looks
   at rules alone; what makes the result valid is that no entry it keeps listens where the snapshot does, and that
   on V3 it has the snapshot's options (`merged_group_valid_iff`). -/
namespace ForwardX.Agent.EntryGroups
open Fxp.Traffic (trimSpace)
open Fxp.Control (Unicode lowerTrim lowerTrim_tcp lowerTrim_udp lowerTrim_both lowerTrim_lowerTrim trimSpace_trimSpace portOr
  portOr_portOr containsAny
  Settings Config Network ExitEndpoint normalizeSettings normalizeConfig normalizeConfigs validateEntryGroupConfig
  validateConfig validateTransportConfig validateEntries EntryValid EntriesConflict protocolHas listenPort udpListenPort
  normalizeProtocol asciiUnicode)

/-! ## The agent's validation -/

/-- `json.Marshal` of the list of the options, and the SHA-256 digest of a text in hexadecimal. -/
structure Encoding where
  marshal : List String → Bool → String
  digest : String → String

def fxpV3OptionsSignature (enc : Encoding) (o : V3Options) : String :=
  "v3-options:" ++ enc.digest
    (enc.marshal [o.transport, o.host, o.path, o.userAgent, o.serverName] (o.multiplex.getD true))

inductive TransportError
  | v3Options
  | httpHostPath
  | serverName
  | transport
  | version (version : String)
  | entry (ruleID : Int) (err : TransportError)
  | inconsistent (ruleID : Int)

/-- `err.Error()`; `quote` is the verb `%q`. -/
def TransportError.text (quote : String → String) : TransportError → String
  | v3Options => "V3 options require transportVersion v3"
  | httpHostPath => "invalid V3 HTTP host/path"
  | serverName => "invalid V3 TLS server name"
  | transport => "V3 requires http, ws, or tls transport"
  | version v => "unsupported FXP transport version " ++ quote v
  | entry ruleID err => "entry rule=" ++ toString ruleID ++ ": " ++ err.text quote
  | inconsistent ruleID => "entry rule=" ++ toString ruleID ++ " has inconsistent V3 transport options"

/-- The switch of `validateFXPTransport`. -/
def validateTransport (version : String) (o : V3Options) : Option TransportError :=
  if version = "v1" ∨ version = "v2" then
    if o.transport ≠ "" ∨ o.host ≠ "" ∨ o.path ≠ "" ∨ o.userAgent ≠ "" ∨ o.serverName ≠ "" ∨ o.multiplex.isSome then
      some .v3Options
    else none
  else if version = "v3" then
    if o.transport = "http" ∨ o.transport = "ws" then
      if containsAny o.host "\r\n\x00\t " || containsAny o.path "\r\n\x00\t " ||
          32 * 1024 - 256 < o.host.utf8ByteSize + o.path.utf8ByteSize then
        some .httpHostPath
      else none
    else if o.transport = "tls" then
      if 253 < o.serverName.utf8ByteSize || containsAny o.serverName "\x00\r\n\t /\\" then some .serverName else none
    else some .transport
  else some (.version version)

/-- The entries of a normal group are no groups. -/
def validateFXPTransport (enc : Encoding) (spec : FxpSpec) : Option TransportError :=
  validateTransport spec.TransportVersion spec.options <|>
    if spec.Role = fxpEntryGroupRole then
      spec.Entries.findSome? fun entry =>
        (validateTransport entry.TransportVersion entry.options).map (.entry entry.RuleID) <|>
          if spec.TransportVersion = "v3" ∧ fxpV3OptionsSignature enc spec.options ≠ fxpV3OptionsSignature enc entry.options then
            some (.inconsistent entry.RuleID)
          else none
    else none

theorem validateFXPTransport_none {enc : Encoding} {spec : FxpSpec} (hrole : spec.Role = fxpEntryGroupRole) :
    validateFXPTransport enc spec = none ↔ validateTransport spec.TransportVersion spec.options = none ∧
      ∀ e ∈ spec.Entries, validateTransport e.TransportVersion e.options = none ∧ (spec.TransportVersion = "v3" →
        fxpV3OptionsSignature enc spec.options = fxpV3OptionsSignature enc e.options) := by
  unfold validateFXPTransport
  rw [if_pos hrole, Option.orElse_eq_none, List.findSome?_eq_none_iff]
  apply and_congr_right
  intro _
  apply forall₂_congr
  intro e _
  rw [Option.orElse_eq_none, Option.map_eq_none_iff]
  apply and_congr_right
  intro _
  by_cases hbad : spec.TransportVersion = "v3" ∧ fxpV3OptionsSignature enc spec.options ≠ fxpV3OptionsSignature enc e.options
  · simp only [if_pos hbad, reduceCtorEq, false_iff]
    exact fun h => hbad.2 (h hbad.1)
  · simp only [if_neg hbad, true_iff]
    exact fun hv => by_contra fun hne => hbad ⟨hv, hne⟩

/-! ## The configuration of the process -/

def FxpExitEndpoint.config (exit : FxpExitEndpoint) : ExitEndpoint := ⟨exit.Host, exit.Port, exit.UDPPort, exit.Key⟩

/-- What the process decodes of a spec that the agent encodes. -/
def FxpEntry.config (e : FxpEntry) : Settings where
  InstallationID := e.InstallationID
  ControlSocket := e.ControlSocket
  Role := e.Role
  TransportVersion := e.TransportVersion
  V3Transport := e.V3Transport
  V3Host := e.V3Host
  V3Path := e.V3Path
  V3UserAgent := e.V3UserAgent
  V3ServerName := e.V3ServerName
  V3Multiplex := e.V3Multiplex
  TunnelID := e.TunnelID
  RuleID := e.RuleID
  ListenPort := e.ListenPort
  UDPListenPort := e.UDPListenPort
  ListenHost := e.ListenHost
  Protocol := e.Protocol
  ExitHost := e.ExitHost
  ExitPort := e.ExitPort
  UDPExitPort := e.UDPExitPort
  Exits := e.Exits.map FxpExitEndpoint.config
  ExitStrategy := e.ExitStrategy
  TargetIP := e.TargetIP
  TargetPort := e.TargetPort
  UDPTargets := e.UDPTargets
  Key := e.Key
  LimitIn := e.LimitIn
  LimitOut := e.LimitOut
  MaxConnections := e.MaxConnections
  MaxIPs := e.MaxIPs
  AccessScope := e.AccessScope
  BlockHTTP := e.BlockHTTP
  BlockSocks := e.BlockSocks
  BlockTLS := e.BlockTLS
  ProxyProtocolReceive := e.ProxyProtocolReceive
  ProxyProtocolSend := e.ProxyProtocolSend
  ProxyProtocolExitReceive := e.ProxyProtocolExitReceive
  ProxyProtocolExitSend := e.ProxyProtocolExitSend
  ProxyProtocolVersion := e.ProxyProtocolVersion
  TCPFastOpen := e.TCPFastOpen
  PanelURL := e.PanelURL
  Token := e.Token
  RelayExitHost := e.RelayExitHost
  RelayExitPort := e.RelayExitPort
  UDPRelayExitPort := e.UDPRelayExitPort
  RelayKey := e.RelayKey
  DNSGeneration := e.DNSGeneration

def FxpSpec.config (spec : FxpSpec) : Config := .mk spec.toFxpEntry.config (spec.Entries.map fun e => .mk e.config [])

def Accepts (u : Unicode) (group : FxpSpec) : Prop :=
  validateEntryGroupConfig (normalizeConfig u group.config) = none

/-! ## The merge -/

def mergeFXPApplyGroup (u : Unicode) (current desired : FxpSpec) : FxpSpec :=
  let byID := desired.Entries.map FxpEntry.RuleID
  let entries := desired.Entries ++ current.Entries.filter fun entry => !byID.contains entry.RuleID
  let built := buildSharedFXPEntryGroup u entries desired.TunnelID desired.TransportVersion
  if built.2 then built.1 else desired

/-! ## The process's validation -/

theorem validateEntries_valid {tunnelID : Int} {lanes : Fxp.Control.EntryListenLaneRegistry} {i : Nat} {entries : List Config}
    (h : validateEntries tunnelID lanes i entries = none) : ∀ e ∈ entries, EntryValid tunnelID e := by
  induction entries generalizing lanes i with
  | nil => exact fun e he => absurd he List.not_mem_nil
  | cons first entries ih =>
    rw [validateEntries] at h
    by_cases hrole : first.settings.Role = "entry"
    · by_cases htunnel : first.settings.TunnelID = tunnelID
      · rw [if_neg (not_not.mpr hrole), if_neg (not_not.mpr htunnel)] at h
        cases hvalid : validateConfig first with
        | some err =>
          rw [hvalid] at h
          cases h
        | none =>
          rw [hvalid] at h
          dsimp only at h
          split at h
          · cases h
          · intro e he
            rcases List.mem_cons.mp he with rfl | he
            · exact ⟨hrole, htunnel, hvalid⟩
            · exact ih h e he
      · rw [if_neg (not_not.mpr hrole), if_pos htunnel] at h
        cases h
    · rw [if_pos hrole] at h
      cases h

/-- A group is accepted that has entries, each valid and no two in conflict. -/
theorem validateEntryGroupConfig_none {cfg : Settings} {entries : List Config} :
    validateEntryGroupConfig (.mk cfg entries) = none ↔ entries ≠ [] ∧ (∀ e ∈ entries, EntryValid cfg.TunnelID e) ∧
      entries.Pairwise fun a b => ¬ EntriesConflict a.settings b.settings := by
  have hadd := Fxp.Control.EntryListenLaneRegistry.Holds.new.addAll_ok_iff (Fxp.Control.groupLanes 0 entries)
  rw [and_iff_right (by simp), Fxp.Control.groupLanes_pairwise] at hadd
  have hloop : (∀ e ∈ entries, EntryValid cfg.TunnelID e) →
      (validateEntries cfg.TunnelID Fxp.Control.newEntryListenLaneRegistry 0 entries = none ↔
        entries.Pairwise fun a b => ¬ EntriesConflict a.settings b.settings) := by
    intro hvalid
    rw [← hadd]
    have hlanes := Fxp.Control.validateEntries_lanes hvalid Fxp.Control.newEntryListenLaneRegistry 0
    cases hall : Fxp.Control.newEntryListenLaneRegistry.addAll (Fxp.Control.groupLanes 0 entries) with
    | ok registry =>
      refine ⟨fun _ => ⟨registry, rfl⟩, fun _ => ?_⟩
      apply Option.eq_none_iff_forall_ne_some.mpr
      intro err herr
      have := (hlanes err).mp herr
      rw [hall] at this
      cases this
    | error err =>
      rw [(hlanes err).mpr hall]
      simp
  show (Fxp.Control.refuse entries.isEmpty .noEntries <|>
    validateEntries cfg.TunnelID Fxp.Control.newEntryListenLaneRegistry 0 entries) = none ↔ _
  rw [Option.orElse_eq_none]
  have hempty : Fxp.Control.refuse entries.isEmpty .noEntries = none ↔ entries ≠ [] := by
    cases entries with
    | nil => simp [Fxp.Control.refuse]
    | cons _ _ => simp [Fxp.Control.refuse]
  rw [hempty]
  apply and_congr_right
  intro _
  exact ⟨fun h => ⟨validateEntries_valid h, (hloop (validateEntries_valid h)).mp h⟩, fun h => (hloop h.1).mpr h.2⟩

theorem normalizeConfigs_map {u : Unicode} {α : Type} (f : α → Config) (l : List α) :
    normalizeConfigs u (l.map f) = l.map fun a => normalizeConfig u (f a) := by
  induction l with
  | nil => rw [List.map_nil, List.map_nil, normalizeConfigs]
  | cons a l ih => rw [List.map_cons, List.map_cons, normalizeConfigs, ih]

/-! ## Listen endpoints -/

section
variable {u : Unicode} {t : Int} {v : String} {a b e : FxpEntry}

def processEntry (u : Unicode) (e : FxpEntry) : Settings := normalizeSettings u e.config

theorem processEntry_protocol (h : Settled u t v e) : (processEntry u e).Protocol = e.Protocol := by
  have hword := normalizeRuntimeProtocol_word u e.Protocol
  rw [h.protocol] at hword
  have hfield : (processEntry u e).Protocol = normalizeProtocol u e.Protocol := by
    rw [processEntry, normalizeSettings, FxpEntry.config]
  rw [hfield]
  rcases hword with hword | hword | hword <;> rw [hword, normalizeProtocol]
  · rw [lowerTrim_udp, if_pos rfl]
  · rw [lowerTrim_both, if_neg (by decide), if_pos (Or.inl rfl)]
  · rw [lowerTrim_tcp, if_neg (by decide), if_neg (by decide)]

theorem singleListenEndpoints_eq (h : Settled u t v e) : singleListenEndpoints u e =
    [Network.tcp, Network.udp].filterMap fun network =>
      if protocolHas (processEntry u e) network then some (network.text, listenPort (processEntry u e) network) else none := by
  have htcp : listenPort (processEntry u e) .tcp = e.ListenPort := rfl
  have hudp : listenPort (processEntry u e) .udp = e.UDPListenPort := by
    show (if 0 < portOr e.UDPListenPort e.ListenPort then portOr e.UDPListenPort e.ListenPort else e.ListenPort) = _
    rw [h.udpPort, if_pos h.udpPort_pos]
  have hlisten := (ports_of_shared h.shared).2.2
  have hudpPos := h.udpPort_pos
  have hword := normalizeRuntimeProtocol_word u e.Protocol
  rw [h.protocol] at hword
  unfold singleListenEndpoints
  dsimp only
  rw [h.normal, runtimeProtocols, h.protocol]
  unfold protocolHas
  rw [processEntry_protocol h]
  rcases hword with hword | hword | hword <;> rw [hword]
  · simp [Network.text, hudp, hudpPos]
  · simp [Network.text, hudp, htcp, hudpPos, hlisten]
  · simp [Network.text, htcp, hlisten]

theorem endpointsMeet_iff (ha : Settled u t v a) (hb : Settled u t v b) : EndpointsMeet u a b ↔
    ∃ network, protocolHas (processEntry u a) network = true ∧ protocolHas (processEntry u b) network = true ∧
      listenPort (processEntry u a) network = listenPort (processEntry u b) network := by
  have htext : ∀ {m n : Network}, m.text = n.text → m = n := by
    intro m n h
    cases m <;> cases n <;> first | rfl | exact absurd h (by decide)
  have hnetworks : ∀ n : Network, n ∈ [Network.tcp, Network.udp] := by
    intro n
    cases n <;> decide
  unfold EndpointsMeet
  rw [singleListenEndpoints_eq ha, singleListenEndpoints_eq hb]
  constructor
  · rintro ⟨endpoint, hmemA, hmemB⟩
    obtain ⟨m, _, hm⟩ := List.mem_filterMap.mp hmemA
    obtain ⟨n, _, hn⟩ := List.mem_filterMap.mp hmemB
    rw [Option.ite_none_right_eq_some] at hm hn
    obtain ⟨hmHas, hmEq⟩ := hm
    obtain ⟨hnHas, hnEq⟩ := hn
    have hpair := (Option.some.inj hmEq).trans (Option.some.inj hnEq).symm
    obtain rfl := htext (congrArg Prod.fst hpair)
    exact ⟨m, hmHas, hnHas, congrArg Prod.snd hpair⟩
  · rintro ⟨n, hhasA, hhasB, hport⟩
    exact ⟨(n.text, listenPort (processEntry u a) n), List.mem_filterMap.mpr ⟨n, hnetworks n, if_pos hhasA⟩,
      List.mem_filterMap.mpr ⟨n, hnetworks n, by rw [if_pos hhasB, hport]⟩⟩

theorem entriesConflict_meet (ha : Settled u t v a) (hb : Settled u t v b)
    (h : EntriesConflict (processEntry u a) (processEntry u b)) : EndpointsMeet u a b := by
  obtain ⟨network, hhasA, hhasB, hport, _⟩ := h
  exact (endpointsMeet_iff ha hb).mpr ⟨network, hhasA, hhasB, hport⟩

/-! ## The merged group -/

variable {enc : Encoding} {C D group : FxpSpec}

theorem accepts_iff : Accepts u group ↔ group.Entries ≠ [] ∧
    (∀ e ∈ group.Entries, EntryValid group.TunnelID (.mk (processEntry u e) [])) ∧
    group.Entries.Pairwise fun a b => ¬ EntriesConflict (processEntry u a) (processEntry u b) := by
  have hentry : ∀ e : FxpEntry, normalizeConfig u (.mk e.config []) = .mk (processEntry u e) [] := by
    intro e
    rw [normalizeConfig, normalizeConfigs, processEntry]
  have hconfig : normalizeConfig u group.config = .mk (normalizeSettings u group.toFxpEntry.config)
      (group.Entries.map fun e => .mk (processEntry u e) []) := by
    rw [FxpSpec.config, normalizeConfig, normalizeConfigs_map]
    rw [List.map_congr_left fun e _ => hentry e]
  have htunnel : (normalizeSettings u group.toFxpEntry.config).TunnelID = group.TunnelID := by
    rw [normalizeSettings, FxpEntry.config]
  rw [Accepts, hconfig, validateEntryGroupConfig_none, htunnel, List.pairwise_map]
  simp only [ne_eq, List.map_eq_nil_iff, List.forall_mem_map, Config.settings_mk]

def keptEntries (current desired : FxpSpec) : List FxpEntry :=
  current.Entries.filter fun entry => !(desired.Entries.map FxpEntry.RuleID).contains entry.RuleID

theorem mem_keptEntries : e ∈ keptEntries C D ↔ e ∈ C.Entries ∧ e.RuleID ∉ D.Entries.map FxpEntry.RuleID := by
  rw [keptEntries, List.mem_filter, Bool.not_eq_true', ← Bool.not_eq_true, List.contains_iff_mem]

/-- The merged group is built from the entries of the snapshot and those that are kept. -/
theorem merge_built (hC : NormalGroup u C) (hD : NormalGroup u D) (ht : C.TunnelID = D.TunnelID)
    (hv : C.TransportVersion = D.TransportVersion) (hpos : 0 < D.TunnelID) (hne : D.Entries ≠ []) :
    Built u D.TunnelID D.TransportVersion (D.Entries ++ keptEntries C D) (mergeFXPApplyGroup u C D) := by
  have hmembers : ∀ e ∈ D.Entries ++ keptEntries C D, Member u D.TunnelID D.TransportVersion e := by
    intro e he
    rcases List.mem_append.mp he with he | he
    · exact hD.members e he
    · rw [← ht, ← hv]
      exact hC.members e (mem_keptEntries.mp he).1
  have hkept : ((keptEntries C D).map (fxpEntryIdentity u)).Nodup :=
    hC.nodup.sublist (List.filter_sublist.map _)
  have hnodup : ((D.Entries ++ keptEntries C D).map (fxpEntryIdentity u)).Nodup := by
    rw [List.map_append]
    refine List.nodup_append.mpr ⟨hD.nodup, hkept, ?_⟩
    intro x hx y hy hxy
    obtain ⟨d, hd, rfl⟩ := List.mem_map.mp hx
    obtain ⟨c, hc, rfl⟩ := List.mem_map.mp hy
    have hrule := identity_inj hxy
    exact (mem_keptEntries.mp hc).2 (hrule ▸ List.mem_map_of_mem hd)
  have hbuilt := build_members hD.version hmembers hnodup
  have hok : (buildSharedFXPEntryGroup u (D.Entries ++ keptEntries C D) D.TunnelID D.TransportVersion).2 = true := by
    have hentries : (buildSharedFXPEntryGroup u (D.Entries ++ keptEntries C D) D.TunnelID D.TransportVersion).1.Entries ≠ [] := by
      intro hnil
      have hperm := hbuilt.perm
      rw [hnil] at hperm
      exact hne (List.append_eq_nil_iff.mp hperm.nil_eq.symm).1
    show (decide (0 < D.TunnelID) && !(buildSharedFXPEntryGroup u (D.Entries ++ keptEntries C D) D.TunnelID
      D.TransportVersion).1.Entries.isEmpty) = true
    rw [decide_eq_true hpos, Bool.true_and, Bool.not_eq_true', List.isEmpty_eq_false_iff]
    exact hentries
  have hmerge : mergeFXPApplyGroup u C D =
      (buildSharedFXPEntryGroup u (D.Entries ++ keptEntries C D) D.TunnelID D.TransportVersion).1 := by
    unfold mergeFXPApplyGroup
    exact if_pos hok
  rw [hmerge]
  exact hbuilt

/-- The merge goes well: the group has the snapshot's entries and, of its own, those of other rules that listen
elsewhere; no two entries have one identity; the agent and the process accept it. -/
structure MergedWell (u : Unicode) (enc : Encoding) (current desired : FxpSpec) : Prop where
  entries : ∀ e, e ∈ (mergeFXPApplyGroup u current desired).Entries ↔ e ∈ desired.Entries ∨
    (e ∈ current.Entries ∧ e.RuleID ∉ desired.Entries.map FxpEntry.RuleID ∧
      fxpSpecsListenConflict u { toFxpEntry := e } desired = false)
  unique : ((mergeFXPApplyGroup u current desired).Entries.map fun e => (e.RuleID, e.ListenPort, e.Protocol)).Nodup
  agent : validateFXPTransport enc (mergeFXPApplyGroup u current desired) = none
  process : Accepts u (mergeFXPApplyGroup u current desired)

/-- The entries of the running group whose rules the snapshot does not have listen elsewhere and, on V3, have its
options. -/
def Compatible (u : Unicode) (enc : Encoding) (current desired : FxpSpec) : Prop :=
  ∀ e ∈ current.Entries, e.RuleID ∉ desired.Entries.map FxpEntry.RuleID →
    fxpSpecsListenConflict u { toFxpEntry := e } desired = false ∧
      (desired.TransportVersion = "v3" → fxpV3OptionsSignature enc e.options = fxpV3OptionsSignature enc desired.options)

theorem nodup_identity {entries : List FxpEntry} (h : (entries.map (fxpEntryIdentity u)).Nodup) :
    (entries.map fun e => (e.RuleID, e.ListenPort, e.Protocol)).Nodup := by
  have hfun : fxpEntryIdentity u = (fun k : Int × Int × String =>
      toString k.1 ++ ":" ++ toString k.2.1 ++ ":" ++ normalizeRuntimeProtocol u k.2.2) ∘
        fun e : FxpEntry => (e.RuleID, e.ListenPort, e.Protocol) := by
    funext e
    exact fxpEntryIdentity_eq u e
  rw [hfun, ← List.map_map] at h
  exact List.Nodup.of_map _ h

/-- Where the entries that are kept are compatible with the snapshot the merge goes well. -/
theorem Compatible.mergedWell (h : Compatible u enc C D) (hC : NormalGroup u C) (hD : NormalGroup u D)
    (hgroup : isFXPEntryGroup u D.toFxpEntry = true) (ht : C.TunnelID = D.TunnelID)
    (hv : C.TransportVersion = D.TransportVersion) (hagentC : validateFXPTransport enc C = none)
    (hagentD : validateFXPTransport enc D = none) (hprocessC : Accepts u C) (hprocessD : Accepts u D) :
    MergedWell u enc C D := by
  obtain ⟨hne, hvalidD, hpairD⟩ := accepts_iff.mp hprocessD
  obtain ⟨_, hvalidC, hpairC⟩ := accepts_iff.mp hprocessC
  have hbuilt := merge_built hC hD ht hv ((isFXPEntryGroup_iff hD).mp hgroup).2 hne
  obtain ⟨_, hentriesC⟩ := (validateFXPTransport_none hC.role).mp hagentC
  obtain ⟨_, hentriesD⟩ := (validateFXPTransport_none hD.role).mp hagentD
  have hmem : ∀ e, e ∈ (mergeFXPApplyGroup u C D).Entries ↔ e ∈ D.Entries ∨ e ∈ keptEntries C D := fun e =>
    hbuilt.perm.mem_iff.trans List.mem_append
  obtain ⟨first, rest, hfirst⟩ := List.exists_cons_of_ne_nil hne
  have hfirstMem : first ∈ D.Entries := by
    rw [hfirst]
    exact List.mem_cons_self
  have hoptions : D.TransportVersion = "v3" → (mergeFXPApplyGroup u C D).options = first.options := by
    intro hv3
    refine hbuilt.options hv3 first ?_
    rw [hfirst]
    rfl
  refine ⟨fun e => ?_, nodup_identity hbuilt.normal.nodup, ?_, ?_⟩
  · rw [hmem, mem_keptEntries]
    apply or_congr_right
    exact ⟨fun he => ⟨he.1, he.2, (h e he.1 he.2).1⟩, fun he => ⟨he.1, he.2.1⟩⟩
  · rw [validateFXPTransport_none hbuilt.normal.role, hbuilt.version]
    constructor
    · by_cases hv3 : D.TransportVersion = "v3"
      · rw [hoptions hv3, ← (hD.members first hfirstMem).version]
        exact (hentriesD first hfirstMem).1
      · rw [hbuilt.plain hv3]
        have hshared := ((isFXPEntryGroup_iff hD).mp hgroup).1
        unfold sharedVersion at hshared
        simp only [Bool.or_eq_true, decide_eq_true_eq, hv3, or_false] at hshared
        have hplain : D.TransportVersion = "v1" ∨ D.TransportVersion = "v2" := hshared
        rw [validateTransport, if_pos hplain]
        decide
    · intro e he
      rcases (hmem e).mp he with he | he
      · refine ⟨(hentriesD e he).1, fun hv3 => ?_⟩
        rw [hoptions hv3, ← (hentriesD first hfirstMem).2 hv3]
        exact (hentriesD e he).2 hv3
      · obtain ⟨heC, hrule⟩ := mem_keptEntries.mp he
        refine ⟨(hentriesC e heC).1, fun hv3 => ?_⟩
        rw [hoptions hv3, ← (hentriesD first hfirstMem).2 hv3]
        exact ((h e heC hrule).2 hv3).symm
  · refine accepts_iff.mpr ⟨?_, fun e he => ?_, ?_⟩
    · intro hnil
      have := (hmem first).mpr (Or.inl hfirstMem)
      rw [hnil] at this
      exact List.not_mem_nil this
    · rw [hbuilt.tunnel]
      rcases (hmem e).mp he with he | he
      · exact hvalidD e he
      · rw [← ht]
        exact hvalidC e (mem_keptEntries.mp he).1
    · have hsymm : ∀ {a b : FxpEntry}, ¬ EntriesConflict (processEntry u a) (processEntry u b) →
          ¬ EntriesConflict (processEntry u b) (processEntry u a) := fun hab hba => hab hba.symm
      rw [hbuilt.perm.pairwise_iff hsymm, List.pairwise_append]
      refine ⟨hpairD, hpairC.sublist List.filter_sublist, fun d hd c hc hconflict => ?_⟩
      obtain ⟨hcC, hrule⟩ := mem_keptEntries.mp hc
      have hcMember : Member u D.TunnelID D.TransportVersion c := by
        rw [← ht, ← hv]
        exact hC.members c hcC
      have hmeet : EndpointsMeet u c d := entriesConflict_meet hcMember.toSettled (hD.members d hd).toSettled hconflict.symm
      have htrue := (conflict_group_iff hD hgroup hcMember.toSettled).mpr ⟨d, hd, hmeet⟩
      rw [(h c hcC hrule).1] at htrue
      cases htrue

theorem MergedWell.compatible (h : MergedWell u enc C D) (hC : NormalGroup u C) (hD : NormalGroup u D)
    (hgroup : isFXPEntryGroup u D.toFxpEntry = true) (ht : C.TunnelID = D.TunnelID)
    (hv : C.TransportVersion = D.TransportVersion) (hagentD : validateFXPTransport enc D = none) (hne : D.Entries ≠ []) :
    Compatible u enc C D := by
  have hbuilt := merge_built hC hD ht hv ((isFXPEntryGroup_iff hD).mp hgroup).2 hne
  obtain ⟨_, hentriesD⟩ := (validateFXPTransport_none hD.role).mp hagentD
  obtain ⟨_, hentries⟩ := (validateFXPTransport_none hbuilt.normal.role).mp h.agent
  intro e he hrule
  have hkept : e ∈ (mergeFXPApplyGroup u C D).Entries :=
    hbuilt.perm.mem_iff.mpr (List.mem_append_right _ (mem_keptEntries.mpr ⟨he, hrule⟩))
  constructor
  · rcases (h.entries e).mp hkept with hdesired | ⟨_, _, hfree⟩
    · exact absurd (List.mem_map_of_mem hdesired) hrule
    · exact hfree
  · intro hv3
    obtain ⟨first, hfirst⟩ := List.exists_mem_of_ne_nil _ hne
    have hfirstMem : first ∈ (mergeFXPApplyGroup u C D).Entries := hbuilt.perm.mem_iff.mpr (List.mem_append_left _ hfirst)
    have hversion : (mergeFXPApplyGroup u C D).TransportVersion = "v3" := hbuilt.version.trans hv3
    rw [← (hentries e hkept).2 hversion, (hentries first hfirstMem).2 hversion, ← (hentriesD first hfirst).2 hv3]

end

/-! ## Running groups -/

theorem merged_group_valid_iff (u : Unicode) (enc : Encoding) (current desired : FxpSpec)
    (hcurrent : isFXPEntryGroup u (normalizeFXPSpec u current).toFxpEntry = true)
    (hdesired : isFXPEntryGroup u (normalizeFXPSpec u desired).toFxpEntry = true)
    (htunnel : (normalizeFXPSpec u current).TunnelID = (normalizeFXPSpec u desired).TunnelID)
    (hversion : (normalizeFXPSpec u current).TransportVersion = (normalizeFXPSpec u desired).TransportVersion)
    (hagentCurrent : validateFXPTransport enc (normalizeFXPSpec u current) = none)
    (hagentDesired : validateFXPTransport enc (normalizeFXPSpec u desired) = none)
    (hprocessCurrent : Accepts u (normalizeFXPSpec u current)) (hprocessDesired : Accepts u (normalizeFXPSpec u desired)) :
    MergedWell u enc (normalizeFXPSpec u current) (normalizeFXPSpec u desired) ↔
      Compatible u enc (normalizeFXPSpec u current) (normalizeFXPSpec u desired) := by
  have hC := normalGroup_normalize (isFXPEntryGroup_role hcurrent)
  have hD := normalGroup_normalize (isFXPEntryGroup_role hdesired)
  exact
    ⟨fun h => h.compatible hC hD hdesired htunnel hversion hagentDesired (accepts_iff.mp hprocessDesired).1,
      fun h => h.mergedWell hC hD hdesired htunnel hversion hagentCurrent hagentDesired hprocessCurrent hprocessDesired⟩

def plainGroup (entries : List FxpEntry) : FxpSpec :=
  { Role := fxpEntryGroupRole, TransportVersion := "v1", TunnelID := 5, Entries := entries }

def plainEncoding : Encoding := ⟨fun texts multiplex => String.join texts ++ toString multiplex, id⟩

theorem accepts_of_isNone {u : Unicode} {group : FxpSpec}
    (h : (validateEntryGroupConfig (normalizeConfig u group.config)).isNone = true) : Accepts u group :=
  Option.isNone_iff_eq_none.mp h

theorem transport_of_isNone {enc : Encoding} {group : FxpSpec} (h : (validateFXPTransport enc group).isNone = true) :
    validateFXPTransport enc group = none :=
  Option.isNone_iff_eq_none.mp h

def webSocketMember (ruleID port : Int) : FxpEntry :=
  { plainMember ruleID port with
    TransportVersion := "v3", V3Transport := "ws", V3Host := "entry.example", V3Path := "/fx", V3Multiplex := some true }

def webSocketGroup (entries : List FxpEntry) : FxpSpec :=
  { plainGroup entries with
    TransportVersion := "v3", V3Transport := "ws", V3Host := "entry.example", V3Path := "/fx", V3Multiplex := some true }

/-- A rule is added while another runs, on V1. -/
def addedRule : FxpSpec × FxpSpec := (plainGroup [plainMember 1 8443], plainGroup [plainMember 2 9443])

/-- The same on V3. -/
def addedWebSocketRule : FxpSpec × FxpSpec :=
  (webSocketGroup [webSocketMember 1 8443], webSocketGroup [webSocketMember 2 9443])

theorem other_rule_is_merged :
    MergedWell asciiUnicode plainEncoding (normalizeFXPSpec asciiUnicode addedRule.1)
      (normalizeFXPSpec asciiUnicode addedRule.2) ∧
    MergedWell asciiUnicode plainEncoding (normalizeFXPSpec asciiUnicode addedWebSocketRule.1)
      (normalizeFXPSpec asciiUnicode addedWebSocketRule.2) := by
  have hchecks : ∀ groups ∈ [addedRule, addedWebSocketRule],
      isFXPEntryGroup asciiUnicode (normalizeFXPSpec asciiUnicode groups.1).toFxpEntry = true ∧
      isFXPEntryGroup asciiUnicode (normalizeFXPSpec asciiUnicode groups.2).toFxpEntry = true ∧
      (normalizeFXPSpec asciiUnicode groups.1).TunnelID = (normalizeFXPSpec asciiUnicode groups.2).TunnelID ∧
      (normalizeFXPSpec asciiUnicode groups.1).TransportVersion =
        (normalizeFXPSpec asciiUnicode groups.2).TransportVersion ∧
      (validateFXPTransport plainEncoding (normalizeFXPSpec asciiUnicode groups.1)).isNone = true ∧
      (validateFXPTransport plainEncoding (normalizeFXPSpec asciiUnicode groups.2)).isNone = true ∧
      (validateEntryGroupConfig (normalizeConfig asciiUnicode
        (normalizeFXPSpec asciiUnicode groups.1).config)).isNone = true ∧
      (validateEntryGroupConfig (normalizeConfig asciiUnicode
        (normalizeFXPSpec asciiUnicode groups.2).config)).isNone = true := by decide +kernel
  have hfree : ∀ groups ∈ [addedRule, addedWebSocketRule], ∀ e ∈ (normalizeFXPSpec asciiUnicode groups.1).Entries,
      fxpSpecsListenConflict asciiUnicode { toFxpEntry := e } (normalizeFXPSpec asciiUnicode groups.2) = false ∧
        fxpV3OptionsSignature plainEncoding e.options =
          fxpV3OptionsSignature plainEncoding (normalizeFXPSpec asciiUnicode groups.2).options := by decide +kernel
  have hmerged : ∀ groups ∈ [addedRule, addedWebSocketRule], MergedWell asciiUnicode plainEncoding
      (normalizeFXPSpec asciiUnicode groups.1) (normalizeFXPSpec asciiUnicode groups.2) := by
    intro groups hgroups
    obtain ⟨hcurrent, hdesired, htunnel, hversion, hagent, hagent', hprocess, hprocess'⟩ := hchecks groups hgroups
    refine (merged_group_valid_iff asciiUnicode plainEncoding groups.1 groups.2 hcurrent hdesired htunnel hversion
      (transport_of_isNone hagent) (transport_of_isNone hagent') (accepts_of_isNone hprocess)
      (accepts_of_isNone hprocess')).mpr fun e he _ => ?_
    exact ⟨(hfree groups hgroups e he).1, fun _ => (hfree groups hgroups e he).2⟩
  exact ⟨hmerged _ List.mem_cons_self, hmerged _ (List.mem_cons_of_mem _ List.mem_cons_self)⟩

/-- A port moves from one rule to another: the merge keeps the old entry of the port, and the process refuses the
group. -/
theorem moved_port_is_refused : ¬ ∀ (u : Unicode) (enc : Encoding) (current desired : FxpSpec),
    isFXPEntryGroup u (normalizeFXPSpec u current).toFxpEntry = true →
    isFXPEntryGroup u (normalizeFXPSpec u desired).toFxpEntry = true →
    (normalizeFXPSpec u current).TunnelID = (normalizeFXPSpec u desired).TunnelID →
    (normalizeFXPSpec u current).TransportVersion = (normalizeFXPSpec u desired).TransportVersion →
    validateFXPTransport enc (normalizeFXPSpec u current) = none →
    validateFXPTransport enc (normalizeFXPSpec u desired) = none →
    Accepts u (normalizeFXPSpec u current) → Accepts u (normalizeFXPSpec u desired) →
    MergedWell u enc (normalizeFXPSpec u current) (normalizeFXPSpec u desired) := by
  intro h
  have hwell := h asciiUnicode plainEncoding (plainGroup [plainMember 1 8443]) (plainGroup [plainMember 2 8443])
    (by decide +kernel) (by decide +kernel) (by decide +kernel) (by decide +kernel)
    (transport_of_isNone (by decide +kernel)) (transport_of_isNone (by decide +kernel))
    (accepts_of_isNone (by decide +kernel)) (accepts_of_isNone (by decide +kernel))
  have hrefused : (validateEntryGroupConfig (normalizeConfig asciiUnicode (mergeFXPApplyGroup asciiUnicode
      (normalizeFXPSpec asciiUnicode (plainGroup [plainMember 1 8443]))
      (normalizeFXPSpec asciiUnicode (plainGroup [plainMember 2 8443]))).config)).isSome = true := by decide +kernel
  have haccepted := hwell.process
  rw [Accepts] at haccepted
  rw [haccepted] at hrefused
  cases hrefused

end ForwardX.Agent.EntryGroups
