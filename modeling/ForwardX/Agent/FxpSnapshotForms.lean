import Mathlib.Data.List.Sort
import ForwardX.Agent.FxpPersistence

/- What the snapshot files hold. A file has a spec of its own or a group, in a form that scrubbing leaves as it is.
   The names of the files determine what the server ids do, up to the split of version and role. -/
namespace ForwardX.Agent.EntryGroups
open Fxp.Traffic (trimSpace)
open Fxp.Control (Unicode lowerTrim lowerTrim_lowerTrim)
open Files

variable (u : Unicode)

/-! ## The order of a group -/

theorem entryLess_iff (a b : FxpEntry) : entryLess b a = false ↔
    a.RuleID < b.RuleID ∨ (a.RuleID = b.RuleID ∧ (a.ListenPort < b.ListenPort ∨
      (a.ListenPort = b.ListenPort ∧ a.Protocol ≤ b.Protocol))) := by
  unfold entryLess
  by_cases hrule : b.RuleID = a.RuleID
  · rw [if_neg (not_not_intro hrule)]
    by_cases hport : b.ListenPort = a.ListenPort
    · rw [if_neg (not_not_intro hport), decide_eq_false_iff_not, not_lt]
      simp [hrule, hport]
    · rw [if_pos hport, decide_eq_false_iff_not, not_lt]
      have hne : a.ListenPort ≠ b.ListenPort := fun h => hport h.symm
      simp only [hrule, lt_irrefl, hne, true_and, false_and, false_or, or_false]
      omega
  · rw [if_pos hrule, decide_eq_false_iff_not, not_lt]
    have hne : a.RuleID ≠ b.RuleID := fun h => hrule h.symm
    simp only [hne, false_and, or_false]
    omega

instance : Std.Total fun a b : FxpEntry => entryLess b a = false where
  total a b := by
    rw [entryLess_iff, entryLess_iff]
    have hprotocol := le_total a.Protocol b.Protocol
    grind

instance : IsTrans FxpEntry fun a b => entryLess b a = false where
  trans a b c hab hbc := by
    rw [entryLess_iff] at hab hbc ⊢
    have hprotocol : a.Protocol ≤ b.Protocol → b.Protocol ≤ c.Protocol → a.Protocol ≤ c.Protocol := le_trans
    grind

def Ordered (entries : List FxpEntry) : Prop := entries.Pairwise fun a b => entryLess b a = false

theorem ordered_normalizeEntries (v : String) (t : Int) (entries : List FxpEntry) : Ordered (normalizeEntries u v t entries) :=
  List.pairwise_insertionSort _ _

variable {u}

/-- Members in their order, with identities of their own, stay as they are. -/
theorem normalizeEntries_eq {v : String} {t : Int} {entries : List FxpEntry} (hmembers : ∀ e ∈ entries, Member u t v e)
    (hnodup : (entries.map (fxpEntryIdentity u)).Nodup) (hordered : Ordered entries) :
    normalizeEntries u v t entries = entries := by
  rw [normalizeEntries_members hmembers hnodup]
  exact hordered.insertionSort_eq

/-! ## Specs of their own -/

theorem scrubSingle_eq {e : FxpEntry} (h : normalizeSingle u e = e) : scrubSingle u e = { e with PanelURL := "", Token := "" } := by
  rw [scrubSingle, h]

theorem scrubSingle_fields (e : FxpEntry) : (scrubSingle u e).Role = lowerTrim u e.Role ∧
    (scrubSingle u e).TransportVersion = normalizeFXPTransportVersion u e.TransportVersion ∧
    (scrubSingle u e).TunnelID = e.TunnelID ∧ (scrubSingle u e).RuleID = e.RuleID ∧
    (scrubSingle u e).ListenPort = e.ListenPort ∧ (scrubSingle u e).Protocol = normalizeRuntimeProtocol u e.Protocol ∧
    (scrubSingle u e).Key = e.Key := by
  rw [← normalizeSingle_role, ← normalizeSingle_version, ← normalizeSingle_protocol, ← normalizeSingle_tunnel u e,
    ← normalizeSingle_rule u e, ← normalizeSingle_port u e, ← normalizeSingle_key u e, scrubSingle]
  generalize normalizeSingle u e = n
  exact ⟨rfl, rfl, normalizeSingle_tunnel u n, normalizeSingle_rule u n, normalizeSingle_port u n, rfl, normalizeSingle_key u n⟩

structure StoredSingle (u : Unicode) (e : FxpEntry) : Prop where
  scrubbed : scrubSingle u e = e
  single : lowerTrim u e.Role ≠ fxpEntryGroupRole
  identity : hasIdentity e = true

theorem normal_of_scrubbed {e : FxpEntry} (h : scrubSingle u e = e) : normalizeSingle u e = e := by
  calc normalizeSingle u e = normalizeSingle u (scrubSingle u e) := by rw [h]
    _ = scrubSingle u e := normalizeSingle_scrub u e
    _ = e := h

theorem scrubSingle_idem (e : FxpEntry) : scrubSingle u (scrubSingle u e) = scrubSingle u e := by
  rw [scrubSingle_eq (normalizeSingle_scrub u e), scrubSingle]

section
variable {e : FxpEntry} (h : StoredSingle u e)
include h

theorem StoredSingle.normalize : normalizeFXPSpec u { toFxpEntry := e } = { toFxpEntry := e } := by
  have hrole : lowerTrim u ({ toFxpEntry := e } : FxpSpec).Role ≠ fxpEntryGroupRole := h.single
  rw [normalizeFXPSpec_single hrole]
  exact congrArg (fun e => ({ toFxpEntry := e } : FxpSpec)) (normal_of_scrubbed h.scrubbed)

theorem StoredSingle.not_group : isFXPEntryGroup u e = false := by
  cases hgroup : isFXPEntryGroup u e with
  | false => rfl
  | true =>
    have hnormal : isFXPEntryGroup u (normalizeFXPSpec u { toFxpEntry := e }).toFxpEntry = true := by
      rw [h.normalize]
      exact hgroup
    exact absurd (isFXPEntryGroup_role hnormal) h.single

theorem StoredSingle.scrub : scrubFXPSpec u { toFxpEntry := e } = { toFxpEntry := e } := by
  have hscrub : { e with PanelURL := "", Token := "" } = e := by
    rw [← scrubSingle_eq (normal_of_scrubbed h.scrubbed)]
    exact h.scrubbed
  unfold scrubFXPSpec
  dsimp only
  rw [h.normalize, h.not_group, if_neg Bool.false_ne_true]
  exact congrArg (fun e => ({ toFxpEntry := e } : FxpSpec)) hscrub

end

theorem hasIdentity_iff (e : FxpEntry) : hasIdentity e = true ↔ e.Role ≠ "" ∧ 0 < e.TunnelID ∧ 0 < e.ListenPort ∧ e.Key ≠ "" := by
  simp only [hasIdentity, Bool.and_eq_true, decide_eq_true_eq, and_assoc]

theorem storedSingle_scrub {s : FxpSpec} (hgroup : isFXPEntryGroup u (scrubFXPSpec u s).toFxpEntry = false)
    (hidentity : hasIdentity (scrubFXPSpec u s).toFxpEntry = true) :
    scrubFXPSpec u s = { toFxpEntry := scrubSingle u s.toFxpEntry } ∧ StoredSingle u (scrubSingle u s.toFxpEntry) := by
  have hsingle : isFXPEntryGroup u (normalizeFXPSpec u s).toFxpEntry = false := by
    cases hnormal : isFXPEntryGroup u (normalizeFXPSpec u s).toFxpEntry with
    | false => rfl
    | true =>
      unfold scrubFXPSpec at hgroup
      dsimp only at hgroup
      rw [hnormal, if_pos rfl] at hgroup
      exact absurd hgroup (by rw [hnormal]; decide)
  have hscrub : scrubFXPSpec u s = { normalizeFXPSpec u s with PanelURL := "", Token := "" } := by
    unfold scrubFXPSpec
    dsimp only
    rw [hsingle, if_neg Bool.false_ne_true]
  have hrole : lowerTrim u s.Role ≠ fxpEntryGroupRole := by
    intro hrole
    have hkey : (scrubFXPSpec u s).Key = "" := by rw [hscrub, normalizeFXPSpec, if_pos hrole]
    exact ((hasIdentity_iff _).mp hidentity).2.2.2 hkey
  have hform : scrubFXPSpec u s = { toFxpEntry := scrubSingle u s.toFxpEntry } := by
    rw [hscrub, normalizeFXPSpec_single hrole, scrubSingle]
  refine ⟨hform, scrubSingle_idem s.toFxpEntry, ?_, ?_⟩
  · rw [(scrubSingle_fields s.toFxpEntry).1, lowerTrim_lowerTrim]
    exact hrole
  · rw [hform] at hidentity
    exact hidentity

/-! ## Groups -/

structure PlainHead (u : Unicode) (g : FxpSpec) : Prop where
  transport : lowerTrim u g.V3Transport = g.V3Transport
  rule : g.RuleID = 0
  port : g.ListenPort = 0
  udpPort : g.UDPListenPort = 0
  protocol : g.Protocol = ""
  key : g.Key = ""

structure StoredGroup (u : Unicode) (g : FxpSpec) : Prop where
  normal : NormalGroup u g
  head : PlainHead u g
  ordered : Ordered g.Entries
  group : isFXPEntryGroup u g.toFxpEntry = true
  scrubbed : ∀ m ∈ g.Entries, scrubSingle u m = m
  nonempty : g.Entries ≠ []

theorem head_eq (g : FxpSpec) {role version transport protocol key : String} {rule port udpPort : Int}
    {es : List FxpEntry} (hrole : role = g.Role) (hversion : version = g.TransportVersion)
    (htransport : transport = g.V3Transport) (hes : es = g.Entries) (hrule : rule = g.RuleID) (hport : port = g.ListenPort)
    (hudp : udpPort = g.UDPListenPort) (hprotocol : protocol = g.Protocol) (hkey : key = g.Key) :
    ({ g with
      Role := role, TransportVersion := version, V3Transport := transport, Entries := es, RuleID := rule,
      ListenPort := port, UDPListenPort := udpPort, Protocol := protocol, Key := key } : FxpSpec) = g := by
  subst hrole hversion htransport hes hrule hport hudp hprotocol hkey
  rfl

theorem StoredGroup.normalize {g : FxpSpec} (h : StoredGroup u g) : normalizeFXPSpec u g = g := by
  have hrole : lowerTrim u g.Role = fxpEntryGroupRole := by rw [h.normal.role, lowerTrim_group]
  have hentries : normalizeEntries u (normalizeFXPTransportVersion u g.TransportVersion) g.TunnelID g.Entries = g.Entries := by
    rw [h.normal.version]
    exact normalizeEntries_eq h.normal.members h.normal.nodup h.ordered
  rw [normalizeFXPSpec, if_pos hrole]
  exact head_eq g (hrole.trans h.normal.role.symm) h.normal.version h.head.transport hentries h.head.rule.symm
    h.head.port.symm h.head.udpPort.symm h.head.protocol.symm h.head.key.symm

theorem StoredGroup.scrub {g : FxpSpec} (h : StoredGroup u g) : scrubFXPSpec u g = g := by
  have hmap : g.Entries.map (scrubSingle u) = g.Entries := by
    calc g.Entries.map (scrubSingle u) = g.Entries.map id := List.map_congr_left fun m hm => h.scrubbed m hm
      _ = g.Entries := List.map_id _
  unfold scrubFXPSpec
  dsimp only
  rw [h.normalize, h.group, if_pos rfl, hmap]

theorem StoredGroup.sublist {g : FxpSpec} (h : StoredGroup u g) {es : List FxpEntry} (hes : es.Sublist g.Entries)
    (hne : es ≠ []) : StoredGroup u { g with Entries := es } where
  normal := {
    role := h.normal.role
    version := h.normal.version
    members := fun e he => h.normal.members e (hes.subset he)
    nodup := h.normal.nodup.sublist (hes.map _) }
  head := ⟨h.head.transport, h.head.rule, h.head.port, h.head.udpPort, h.head.protocol, h.head.key⟩
  ordered := h.ordered.sublist hes
  group := h.group
  scrubbed m hm := h.scrubbed m (hes.subset hm)
  nonempty := hne

theorem member_scrub {t : Int} {v : String} {m : FxpEntry} (h : Member u t v m) : Member u t v (scrubSingle u m) where
  role := by rw [(scrubSingle_fields m).1, h.role, lowerTrim_entry]
  version := by rw [(scrubSingle_fields m).2.1, h.version, h.versionNormal]
  tunnel := by rw [(scrubSingle_fields m).2.2.1, h.tunnel]
  normal := normalizeSingle_scrub u m
  shared := by
    have hshared := h.shared
    rw [scrubSingle_eq h.normal]
    exact hshared
  key := by
    rw [(scrubSingle_fields m).2.2.2.2.2.2]
    exact h.key

theorem storedGroup_map {n : FxpSpec} (hgood : NormalGroup u n) (hhead : PlainHead u n) (hordered : Ordered n.Entries)
    (hgroup : isFXPEntryGroup u n.toFxpEntry = true) (hne : n.Entries ≠ []) :
    StoredGroup u { n with Entries := n.Entries.map (scrubSingle u) } := by
  have hkeep : ∀ m ∈ n.Entries, (scrubSingle u m).RuleID = m.RuleID ∧ (scrubSingle u m).ListenPort = m.ListenPort ∧
      (scrubSingle u m).Protocol = m.Protocol := by
    intro m hm
    obtain ⟨-, -, -, hr, hp, hproto, -⟩ := scrubSingle_fields (u := u) m
    exact ⟨hr, hp, hproto.trans (hgood.members m hm).protocol⟩
  have hidentities : (n.Entries.map (scrubSingle u)).map (fxpEntryIdentity u) = n.Entries.map (fxpEntryIdentity u) := by
    rw [List.map_map]
    apply List.map_congr_left
    intro m hm
    obtain ⟨hr, hp, hproto⟩ := hkeep m hm
    exact identity_congr hr hp hproto
  have hmembers : ∀ m ∈ n.Entries.map (scrubSingle u), Member u n.TunnelID n.TransportVersion m := by
    intro m hm
    obtain ⟨raw, hraw, rfl⟩ := List.mem_map.mp hm
    exact member_scrub (hgood.members raw hraw)
  have hsorted : Ordered (n.Entries.map (scrubSingle u)) := by
    apply List.pairwise_map.mpr
    apply hordered.imp_of_mem
    intro a b ha hb hab
    obtain ⟨har, hap, haproto⟩ := hkeep a ha
    obtain ⟨hbr, hbp, hbproto⟩ := hkeep b hb
    rw [entryLess_iff] at hab ⊢
    rw [har, hap, haproto, hbr, hbp, hbproto]
    exact hab
  have hscrubbed : ∀ m ∈ n.Entries.map (scrubSingle u), scrubSingle u m = m := by
    intro m hm
    obtain ⟨raw, -, rfl⟩ := List.mem_map.mp hm
    exact scrubSingle_idem raw
  have hnodup : ((n.Entries.map (scrubSingle u)).map (fxpEntryIdentity u)).Nodup := by
    rw [hidentities]
    exact hgood.nodup
  have hnonempty : n.Entries.map (scrubSingle u) ≠ [] := fun hnil => hne (List.map_eq_nil_iff.mp hnil)
  generalize n.Entries.map (scrubSingle u) = es at hmembers hsorted hscrubbed hnodup hnonempty
  exact {
    normal := ⟨hgood.role, hgood.version, hmembers, hnodup⟩
    head := ⟨hhead.transport, hhead.rule, hhead.port, hhead.udpPort, hhead.protocol, hhead.key⟩
    ordered := hsorted
    group := hgroup
    scrubbed := hscrubbed
    nonempty := hnonempty }

theorem storedGroup_scrub {s : FxpSpec} (hgroup : isFXPEntryGroup u (scrubFXPSpec u s).toFxpEntry = true)
    (hne : (scrubFXPSpec u s).Entries ≠ []) : StoredGroup u (scrubFXPSpec u s) := by
  have hnormal : isFXPEntryGroup u (normalizeFXPSpec u s).toFxpEntry = true := by
    cases hnormal : isFXPEntryGroup u (normalizeFXPSpec u s).toFxpEntry with
    | true => rfl
    | false =>
      have hsame : isFXPEntryGroup u (scrubFXPSpec u s).toFxpEntry = isFXPEntryGroup u (normalizeFXPSpec u s).toFxpEntry := by
        unfold scrubFXPSpec
        dsimp only
        rw [hnormal, if_neg Bool.false_ne_true, ← hnormal]
        generalize normalizeFXPSpec u s = n
        rfl
      rw [← hsame, hgroup] at hnormal
      cases hnormal
  have hrole := isFXPEntryGroup_role hnormal
  have hscrub : scrubFXPSpec u s =
      { normalizeFXPSpec u s with Entries := (normalizeFXPSpec u s).Entries.map (scrubSingle u) } := by
    unfold scrubFXPSpec
    dsimp only
    rw [hnormal, if_pos rfl]
  have hhead : PlainHead u (normalizeFXPSpec u s) := by
    rw [normalizeFXPSpec, if_pos hrole]
    exact ⟨lowerTrim_lowerTrim u s.V3Transport, rfl, rfl, rfl, rfl, rfl⟩
  have hordered : Ordered (normalizeFXPSpec u s).Entries := by
    rw [normalizeFXPSpec_entries hrole]
    exact ordered_normalizeEntries u _ _ _
  have hgood := normalGroup_normalize hrole
  rw [hscrub] at hne ⊢
  exact storedGroup_map hgood hhead hordered hnormal fun hnil => hne (by rw [hnil, List.map_nil])

end ForwardX.Agent.EntryGroups
