import ForwardX.Lib.DecimalText
import ForwardX.Lib.Index
import ForwardX.Fxp.Configuration

/- The lanes of an entry group. The registry has seen some lanes one by one; `Holds` says what
   its three maps then know, and from it follows that a lane is refused exactly when it meets
   one of those before it. Over all entries that is the pairwise definition
   (`entry_lanes_pairwise`). -/
namespace ForwardX.Fxp.Control
open Traffic (trimSpace)
open Index

/-! ## Keys -/

theorem toList_key (lane : EntryListenLane) :
    lane.key.toList = lane.network.text.toList ++ ':' :: (toString lane.port).toList := by
  unfold EntryListenLane.key
  rw [String.toList_append, String.toList_append, List.append_assoc]
  rfl

theorem key_inj {a b : EntryListenLane} : a.key = b.key ↔ a.network = b.network ∧ a.port = b.port := by
  have hcolon : ∀ network : Network, ':' ∉ network.text.toList := by
    intro network
    cases network <;> decide
  constructor
  · intro h
    have hchars := congrArg String.toList h
    rw [toList_key, toList_key] at hchars
    obtain ⟨hnetwork, hport⟩ := DecimalText.join_inj (hcolon _) (hcolon _) hchars
    refine ⟨?_, DecimalText.toString_inj (String.toList_inj.mp hport)⟩
    cases ha : a.network <;> cases hb : b.network <;> rw [ha, hb] at hnetwork
    · exact absurd hnetwork (by decide)
    · exact absurd hnetwork (by decide)
  · rintro ⟨hnetwork, hport⟩
    unfold EntryListenLane.key
    rw [hnetwork, hport]

theorem exactKey_inj {a b : EntryListenLane} :
    a.exactKey = b.exactKey ↔ a.key = b.key ∧ a.host = b.host := by
  have hzero : ∀ lane : EntryListenLane, '\x00' ∉ lane.key.toList := by
    intro lane hmem
    rw [toList_key, List.mem_append, List.mem_cons] at hmem
    rcases hmem with hmem | hmem | hmem
    · revert hmem
      cases lane.network <;> decide
    · exact absurd hmem (by decide)
    · rcases DecimalText.mem_toString hmem with h | h <;> exact absurd h (by decide)
  have hchars : ∀ lane : EntryListenLane,
      lane.exactKey.toList = lane.key.toList ++ '\x00' :: lane.host.toList := by
    intro lane
    unfold EntryListenLane.exactKey
    rw [String.toList_append, String.toList_append, List.append_assoc]
    rfl
  constructor
  · intro h
    have h := congrArg String.toList h
    rw [hchars, hchars] at h
    obtain ⟨hkey, hhost⟩ := DecimalText.join_inj (hzero a) (hzero b) h
    exact ⟨String.toList_inj.mp hkey, String.toList_inj.mp hhost⟩
  · rintro ⟨hkey, hhost⟩
    unfold EntryListenLane.exactKey
    rw [hkey, hhost]

/-! ## Lanes that meet -/

def HostsOverlap (a b : String) : Prop := a = b ∨ a = "" ∨ b = ""

def Meets (a b : EntryListenLane) : Prop :=
  a.network = b.network ∧ a.port = b.port ∧ HostsOverlap a.host b.host

/-- What the registry knows of the lanes that were added: the lanes of each key, those without
a host and those of each key and host. -/
structure EntryListenLaneRegistry.Holds (registry : EntryListenLaneRegistry) (lanes : List EntryListenLane) :
    Prop where
  first : Indexes registry.first EntryListenLane.key (fun _ => True) lanes
  wildcard : Indexes registry.wildcard EntryListenLane.key (fun lane => lane.host = "") lanes
  exact : Indexes registry.exact EntryListenLane.exactKey (fun lane => lane.host ≠ "") lanes

namespace EntryListenLaneRegistry

variable {registry registry' : EntryListenLaneRegistry} {lanes : List EntryListenLane}

theorem Holds.new : newEntryListenLaneRegistry.Holds [] := ⟨.empty, .empty, .empty⟩

theorem Holds.existing_some (h : registry.Holds lanes) {lane other : EntryListenLane}
    (hother : registry.existing lane = some other) : other ∈ lanes ∧ Meets other lane := by
  unfold existing at hother
  split at hother
  · rename_i hhost
    obtain ⟨hmem, hkey, _⟩ := h.first.sound _ _ hother
    obtain ⟨hnetwork, hport⟩ := key_inj.mp hkey
    exact ⟨hmem, hnetwork, hport, .inr (.inr hhost)⟩
  · rw [Option.orElse_eq_orElse, Option.orElse_eq_or, Option.or_eq_some_iff] at hother
    rcases hother with hfound | ⟨_, hfound⟩
    · obtain ⟨hmem, hkey, hhost⟩ := h.wildcard.sound _ _ hfound
      obtain ⟨hnetwork, hport⟩ := key_inj.mp hkey
      exact ⟨hmem, hnetwork, hport, .inr (.inl hhost)⟩
    · obtain ⟨hmem, hkey, _⟩ := h.exact.sound _ _ hfound
      obtain ⟨hkey, hhost⟩ := exactKey_inj.mp hkey
      obtain ⟨hnetwork, hport⟩ := key_inj.mp hkey
      exact ⟨hmem, hnetwork, hport, .inl hhost⟩

theorem Holds.existing_none (h : registry.Holds lanes) {lane other : EntryListenLane}
    (hnone : registry.existing lane = none) (hother : other ∈ lanes) : ¬ Meets other lane := by
  rintro ⟨hnetwork, hport, hhosts⟩
  have hkey : other.key = lane.key := key_inj.mpr ⟨hnetwork, hport⟩
  unfold existing at hnone
  split at hnone
  · have hsome := h.first.complete other hother trivial
    rw [hkey, hnone] at hsome
    cases hsome
  · rename_i hhost
    rw [Option.orElse_eq_orElse, Option.orElse_eq_or, Option.or_eq_none_iff] at hnone
    by_cases hempty : other.host = ""
    · have hsome := h.wildcard.complete other hother hempty
      rw [hkey, hnone.1] at hsome
      cases hsome
    · have hsame : other.host = lane.host := by
        rcases hhosts with h | h | h
        · exact h
        · exact absurd h hempty
        · exact absurd h hhost
      have hsome := h.exact.complete other hother hempty
      rw [exactKey_inj.mpr ⟨hkey, hsame⟩, hnone.2] at hsome
      cases hsome

theorem Holds.add (h : registry.Holds lanes) {lane : EntryListenLane} (hadd : registry.add lane = .ok registry') :
    registry'.Holds (lanes ++ [lane.trim]) := by
  unfold EntryListenLaneRegistry.add at hadd
  dsimp only at hadd
  split at hadd
  · cases hadd
  · have hfirst : Indexes (if (registry.first.lookup lane.trim.key).isSome = true then registry
        else { registry with first := Assoc.put registry.first lane.trim.key lane.trim }).first
        EntryListenLane.key (fun _ => True) (lanes ++ [lane.trim]) := by
      split
      · rename_i hsome
        exact h.first.skip fun _ => hsome
      · exact h.first.put trivial
    have hrest : ∀ first, (if (registry.first.lookup lane.trim.key).isSome = true then registry
        else { registry with first := first }).wildcard = registry.wildcard ∧
        (if (registry.first.lookup lane.trim.key).isSome = true then registry
        else { registry with first := first }).exact = registry.exact := by
      intro first
      split <;> exact ⟨rfl, rfl⟩
    split at hadd
    · rename_i hhost
      obtain rfl := Except.ok.inj hadd
      refine ⟨hfirst, ?_, ?_⟩
      · dsimp only
        rw [(hrest _).1]
        exact h.wildcard.put hhost
      · dsimp only
        rw [(hrest _).2]
        exact h.exact.skip fun hne => absurd hhost hne
    · rename_i hhost
      obtain rfl := Except.ok.inj hadd
      refine ⟨hfirst, ?_, ?_⟩
      · dsimp only
        rw [(hrest _).1]
        exact h.wildcard.skip fun hempty => absurd hempty hhost
      · dsimp only
        rw [(hrest _).2]
        exact h.exact.put hhost

theorem Holds.add_ok_iff (h : registry.Holds lanes) (lane : EntryListenLane) :
    (∃ registry', registry.add lane = .ok registry') ↔ ∀ other ∈ lanes, ¬ Meets other lane.trim := by
  unfold EntryListenLaneRegistry.add
  dsimp only
  cases hexisting : registry.existing lane.trim with
  | some other =>
    obtain ⟨hmem, hmeets⟩ := h.existing_some hexisting
    constructor
    · rintro ⟨_, hok⟩
      cases hok
    · intro hnone
      exact absurd hmeets (hnone other hmem)
  | none =>
    constructor
    · intro _ other hother
      exact h.existing_none hexisting hother
    · intro _
      dsimp only
      split
      · exact ⟨_, rfl⟩
      · exact ⟨_, rfl⟩

theorem add_error {lane : EntryListenLane} {err : ConfigError} (h : registry.add lane = .error err) :
    ∃ first second network address, err = .lanes first second network address := by
  unfold EntryListenLaneRegistry.add at h
  dsimp only at h
  split at h
  · obtain rfl := Except.error.inj h
    exact ⟨_, _, _, _, rfl⟩
  · split at h <;> cases h

theorem addAll_error {err : ConfigError} (h : registry.addAll lanes = .error err) :
    ∃ first second network address, err = .lanes first second network address := by
  induction lanes generalizing registry with
  | nil => cases h
  | cons lane lanes ih =>
    unfold addAll at h
    split at h
    · rename_i hadd
      obtain rfl := Except.error.inj h
      exact add_error hadd
    · exact ih h

theorem Holds.addAll_ok_iff (h : registry.Holds lanes) (more : List EntryListenLane) :
    (∃ registry', registry.addAll more = .ok registry') ↔
      (∀ lane ∈ more, ∀ other ∈ lanes, ¬ Meets other lane.trim) ∧
        more.Pairwise (fun a b => ¬ Meets a.trim b.trim) := by
  induction more generalizing registry lanes with
  | nil => simp [addAll]
  | cons lane more ih =>
    unfold addAll
    rw [List.forall_mem_cons, List.pairwise_cons, ← h.add_ok_iff]
    cases hadd : registry.add lane with
    | error err => simp
    | ok registry' =>
      dsimp only
      rw [ih (h.add hadd)]
      simp only [List.mem_append, List.mem_singleton, or_imp, forall_and, forall_eq, Except.ok.injEq,
        exists_eq', true_and]
      tauto

theorem addAll_cons (lane : EntryListenLane) (more : List EntryListenLane) :
    registry.addAll (lane :: more) = (registry.add lane).bind (fun r => r.addAll more) := by
  rw [addAll.eq_def]
  dsimp only
  cases registry.add lane <;> rfl

theorem addAll_append (first second : List EntryListenLane) :
    registry.addAll (first ++ second) = (registry.addAll first).bind (fun r => r.addAll second) := by
  induction first generalizing registry with
  | nil => rfl
  | cons lane first ih =>
    rw [List.cons_append, addAll_cons, addAll_cons]
    cases registry.add lane with
    | error err => rfl
    | ok registry' => exact ih

end EntryListenLaneRegistry

/-! ## Entries -/

/-- The lanes of all entries, the first of which has the index `i`. -/
def groupLanes (i : Nat) : List Config → List EntryListenLane
  | [] => []
  | entry :: entries => entryLanes i entry.settings ++ groupLanes (i + 1) entries

/-- Two entries occupy a network and port with hosts that overlap. -/
def EntriesConflict (a b : Settings) : Prop :=
  ∃ network, protocolHas a network = true ∧ protocolHas b network = true ∧
    listenPort a network = listenPort b network ∧ HostsOverlap (trimSpace a.ListenHost) (trimSpace b.ListenHost)

def LanesRefused (cfg : Config) : Prop :=
  ∃ first second network address, validateEntryGroupConfig cfg = some (.lanes first second network address)

/-- What makes an entry valid on its own in a group of tunnel `tunnelID`. -/
def EntryValid (tunnelID : Int) (entry : Config) : Prop :=
  entry.settings.Role = "entry" ∧ entry.settings.TunnelID = tunnelID ∧ validateConfig entry = none

variable {tunnelID : Int} {entries : List Config}

theorem validateEntries_lanes (hvalid : ∀ entry ∈ entries, EntryValid tunnelID entry)
    (registry : EntryListenLaneRegistry) (i : Nat) (err : ConfigError) :
    validateEntries tunnelID registry i entries = some err ↔
      registry.addAll (groupLanes i entries) = .error err := by
  induction entries generalizing registry i with
  | nil => simp [validateEntries, groupLanes, EntryListenLaneRegistry.addAll]
  | cons entry entries ih =>
    obtain ⟨⟨hrole, htunnel, hentry⟩, hrest⟩ := List.forall_mem_cons.mp hvalid
    unfold validateEntries groupLanes
    rw [if_neg (not_not.mpr hrole), if_neg (not_not.mpr htunnel), hentry, EntryListenLaneRegistry.addAll_append]
    dsimp only
    cases hadd : registry.addAll (entryLanes i entry.settings) with
    | error first => simp [Except.bind]
    | ok registry' => exact ih hrest registry' (i + 1)

theorem mem_entryLanes {i : Nat} {entry : Settings} {lane : EntryListenLane} :
    lane ∈ entryLanes i entry ↔ ∃ network, protocolHas entry network = true ∧
      lane = ⟨network, entry.ListenHost, listenPort entry network, i⟩ := by
  unfold entryLanes
  rw [List.mem_filterMap]
  constructor
  · rintro ⟨network, _, hlane⟩
    split at hlane
    · rename_i hhas
      exact ⟨network, hhas, (Option.some.inj hlane).symm⟩
    · cases hlane
  · rintro ⟨network, hhas, rfl⟩
    refine ⟨network, ?_, if_pos hhas⟩
    cases network <;> simp

theorem entryLanes_pairwise (i : Nat) (entry : Settings) :
    (entryLanes i entry).Pairwise (fun a b => ¬ Meets a.trim b.trim) := by
  have hdiffer : ([Network.tcp, Network.udp] : List Network).Pairwise (· ≠ ·) := by simp
  apply List.pairwise_filterMap.mpr
  apply hdiffer.imp
  intro a b hab lane hlane other hother hmeets
  split at hlane <;> split at hother
  · obtain rfl := Option.some.inj hlane
    obtain rfl := Option.some.inj hother
    exact hab hmeets.1
  · cases hother
  · cases hlane
  · cases hlane

theorem entriesConflict_iff (i j : Nat) (a b : Settings) :
    EntriesConflict a b ↔ ∃ lane ∈ entryLanes i a, ∃ other ∈ entryLanes j b, Meets lane.trim other.trim := by
  constructor
  · rintro ⟨network, ha, hb, hport, hhosts⟩
    exact ⟨_, mem_entryLanes.mpr ⟨network, ha, rfl⟩, _, mem_entryLanes.mpr ⟨network, hb, rfl⟩, rfl, hport, hhosts⟩
  · rintro ⟨_, hlane, _, hother, hnetwork, hport, hhosts⟩
    obtain ⟨network, ha, rfl⟩ := mem_entryLanes.mp hlane
    obtain ⟨network', hb, rfl⟩ := mem_entryLanes.mp hother
    obtain rfl : network = network' := hnetwork
    exact ⟨network, ha, hb, hport, hhosts⟩

theorem mem_groupLanes {i : Nat} {lane : EntryListenLane} :
    lane ∈ groupLanes i entries → ∃ j, ∃ entry ∈ entries, lane ∈ entryLanes j entry.settings := by
  induction entries generalizing i with
  | nil => simp [groupLanes]
  | cons entry entries ih =>
    unfold groupLanes
    rw [List.mem_append]
    rintro (hlane | hlane)
    · exact ⟨i, entry, List.mem_cons_self, hlane⟩
    · obtain ⟨j, other, hother, hmem⟩ := ih hlane
      exact ⟨j, other, List.mem_cons_of_mem _ hother, hmem⟩

theorem groupLanes_of_mem {i : Nat} {entry : Config} (hentry : entry ∈ entries) :
    ∃ j, ∀ lane ∈ entryLanes j entry.settings, lane ∈ groupLanes i entries := by
  induction entries generalizing i with
  | nil => cases hentry
  | cons first entries ih =>
    unfold groupLanes
    rcases List.mem_cons.mp hentry with rfl | hmem
    · exact ⟨i, fun lane hlane => List.mem_append_left _ hlane⟩
    · obtain ⟨j, hj⟩ := @ih (i + 1) hmem
      exact ⟨j, fun lane hlane => List.mem_append_right _ (hj lane hlane)⟩

/-- No two lanes of the group meet exactly when no two entries conflict. -/
theorem groupLanes_pairwise (i : Nat) :
    (groupLanes i entries).Pairwise (fun a b => ¬ Meets a.trim b.trim) ↔
      entries.Pairwise (fun a b => ¬ EntriesConflict a.settings b.settings) := by
  induction entries generalizing i with
  | nil => simp [groupLanes]
  | cons entry entries ih =>
    unfold groupLanes
    rw [List.pairwise_append, List.pairwise_cons, ih, and_iff_right (entryLanes_pairwise i entry.settings), and_comm]
    apply and_congr_left
    intro _
    constructor
    · intro h other hother hconflict
      obtain ⟨j, hj⟩ := groupLanes_of_mem (i := i + 1) hother
      obtain ⟨lane, hlane, lane', hlane', hmeets⟩ := (entriesConflict_iff i j _ _).mp hconflict
      exact h lane hlane lane' (hj lane' hlane') hmeets
    · intro h lane hlane lane' hlane' hmeets
      obtain ⟨j, other, hother, hmem⟩ := mem_groupLanes hlane'
      exact h other hother ((entriesConflict_iff i j _ _).mpr ⟨lane, hlane, lane', hmem, hmeets⟩)

/-- The group is refused for its lanes exactly when two of its entries conflict. -/
theorem lanesRefused_iff {cfg : Settings} (hvalid : ∀ entry ∈ entries, EntryValid cfg.TunnelID entry) :
    LanesRefused (.mk cfg entries) ↔
      ¬ entries.Pairwise (fun a b => ¬ EntriesConflict a.settings b.settings) := by
  have hadd := EntryListenLaneRegistry.Holds.new.addAll_ok_iff (groupLanes 0 entries)
  rw [and_iff_right (by simp), groupLanes_pairwise] at hadd
  have hrefused : LanesRefused (.mk cfg entries) ↔ ∃ first second network address,
      validateEntries cfg.TunnelID newEntryListenLaneRegistry 0 entries =
        some (.lanes first second network address) := by
    unfold LanesRefused validateEntryGroupConfig
    cases entries with
    | nil => simp [refuse, validateEntries]
    | cons entry entries => rfl
  rw [hrefused, ← hadd]
  simp only [validateEntries_lanes hvalid]
  constructor
  · rintro ⟨_, _, _, _, herr⟩ ⟨registry, hok⟩
    rw [herr] at hok
    cases hok
  · intro hnone
    cases hresult : newEntryListenLaneRegistry.addAll (groupLanes 0 entries) with
    | ok registry => exact absurd ⟨registry, hresult⟩ hnone
    | error err =>
      obtain ⟨first, second, network, address, rfl⟩ := EntryListenLaneRegistry.addAll_error hresult
      exact ⟨first, second, network, address, rfl⟩

theorem EntriesConflict.symm {a b : Settings} (h : EntriesConflict a b) : EntriesConflict b a := by
  obtain ⟨network, ha, hb, hport, hhosts⟩ := h
  refine ⟨network, hb, ha, hport.symm, ?_⟩
  rcases hhosts with h | h | h
  · exact .inl h.symm
  · exact .inr (.inr h)
  · exact .inr (.inl h)

/-- One pass over the entries finds what a comparison of all pairs finds, in whatever order
the entries stand. -/
theorem entry_lanes_pairwise {cfg : Settings} (hvalid : ∀ entry ∈ entries, EntryValid cfg.TunnelID entry) :
    (LanesRefused (.mk cfg entries) ↔ ∃ (i j : Nat) (a b : Config), i ≠ j ∧ entries[i]? = some a ∧
      entries[j]? = some b ∧ EntriesConflict a.settings b.settings) ∧
    ∀ reordered : List Config, reordered.Perm entries →
      (LanesRefused (.mk cfg reordered) ↔ LanesRefused (.mk cfg entries)) := by
  constructor
  · rw [lanesRefused_iff hvalid, List.pairwise_iff_getElem]
    constructor
    · intro h
      simp only [not_forall, not_not] at h
      obtain ⟨i, j, hi, hj, hij, hconflict⟩ := h
      exact ⟨i, j, _, _, Nat.ne_of_lt hij, List.getElem?_eq_getElem hi, List.getElem?_eq_getElem hj, hconflict⟩
    · rintro ⟨i, j, a, b, hij, ha, hb, hconflict⟩ h
      obtain ⟨hi, rfl⟩ := List.getElem?_eq_some_iff.mp ha
      obtain ⟨hj, rfl⟩ := List.getElem?_eq_some_iff.mp hb
      rcases Nat.lt_or_gt_of_ne hij with hlt | hlt
      · exact h i j hi hj hlt hconflict
      · exact h j i hj hi hlt hconflict.symm
  · intro reordered hperm
    have hvalid' : ∀ entry ∈ reordered, EntryValid cfg.TunnelID entry :=
      fun entry hentry => hvalid entry (hperm.mem_iff.mp hentry)
    rw [lanesRefused_iff hvalid, lanesRefused_iff hvalid', not_iff_not]
    apply List.Perm.pairwise_iff _ hperm
    intro a b hab hba
    exact hab hba.symm

/-- A plain entry of tunnel 5. -/
def plainEntry (ruleID : Int) (host protocol : String) (port udpPort : Int) : Config :=
  .mk
    { InstallationID := "", ControlSocket := "", Role := "entry", TransportVersion := "", V3Transport := "",
      V3Host := "", V3Path := "", V3UserAgent := "", V3ServerName := "", V3Multiplex := none, TunnelID := 5,
      RuleID := ruleID, ListenPort := port, UDPListenPort := udpPort, ListenHost := host, Protocol := protocol,
      ExitHost := "exit.example", ExitPort := 9000, UDPExitPort := 9000, Exits := [],
      ExitStrategy := "round_robin", TargetIP := "10.0.0.1", TargetPort := 80, UDPTargets := [], Key := "k",
      LimitIn := 0, LimitOut := 0, MaxConnections := 0, MaxIPs := 0, AccessScope := "", BlockHTTP := false,
      BlockSocks := false, BlockTLS := false, ProxyProtocolReceive := false, ProxyProtocolSend := false,
      ProxyProtocolExitReceive := false, ProxyProtocolExitSend := false, ProxyProtocolVersion := 1,
      TCPFastOpen := false, PanelURL := "", Token := "", RelayExitHost := "", RelayExitPort := 0,
      UDPRelayExitPort := 0, RelayKey := "", DNSGeneration := 0 } []

/-- A wildcard behind a host, at the UDP port that overrides the other entry's. -/
theorem wildcard_after_host_refused :
    LanesRefused (.mk { (plainEntry 0 "" "tcp" 0 0).settings with Role := "entry-group" }
      [plainEntry 1 "127.0.0.1" "both" 8443 9443, plainEntry 2 "" "udp" 9443 0]) := by
  refine (entry_lanes_pairwise ?_).1.mpr ⟨0, 1, _, _, by decide, rfl, rfl, .udp, by decide, by decide, by decide,
    .inr (.inr (by decide))⟩
  intro entry hentry
  rcases List.mem_cons.mp hentry with rfl | hentry
  · exact ⟨by decide, by decide, by decide +kernel⟩
  · rw [List.mem_singleton] at hentry
    rw [hentry]
    exact ⟨by decide, by decide, by decide +kernel⟩

end ForwardX.Fxp.Control
