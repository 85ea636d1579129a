import ForwardX.Lib.Assoc
import ForwardX.Lib.DecimalText
import ForwardX.Fxp.Normalization

/- What the agent runs a ForwardX process from (`fxpSpec` in `main.go`). The entries of a tunnel share one
   process: their specs are those of an `entry-group`, one for each identity (rule, listen port and
   protocol). Every function brings a spec to its normal form before it reads it. -/
namespace ForwardX.Agent.EntryGroups
open Fxp.Traffic (trimSpace)
open Fxp.Control (Unicode lowerTrim lowerTrim_word lowerTrim_lowerTrim trimSpace_trimSpace UdpTarget portOr portOr_portOr
  normalizeExitStrategy normalizeExitStrategy_idem normalizeUDPTargets normalizeUDPTargets_eq normalizeUDPTargets_normal)

/-! ## The data -/

structure FxpExitEndpoint where
  Host : String := ""
  Port : Int := 0
  UDPPort : Int := 0
  Key : String := ""
  PeerID : String := ""
  deriving DecidableEq, Repr

/-- The fields of `fxpSpec`, but for the entries. A field that is not given has Go's zero value. -/
structure FxpEntry where
  ControlSocket : String := ""
  Role : String := ""
  TransportVersion : String := ""
  V3Transport : String := ""
  V3Host : String := ""
  V3Path : String := ""
  V3UserAgent : String := ""
  V3ServerName : String := ""
  V3Multiplex : Option Bool := none
  TunnelID : Int := 0
  RuleID : Int := 0
  ListenPort : Int := 0
  UDPListenPort : Int := 0
  ListenHost : String := ""
  Protocol : String := ""
  ExitHost : String := ""
  ExitPort : Int := 0
  UDPExitPort : Int := 0
  ExitPeerID : String := ""
  Exits : List FxpExitEndpoint := []
  ExitStrategy : String := ""
  TargetIP : String := ""
  TargetPort : Int := 0
  UDPTargets : List UdpTarget := []
  Key : String := ""
  LimitIn : Int := 0
  LimitOut : Int := 0
  MaxConnections : Int := 0
  MaxIPs : Int := 0
  AccessScope : String := ""
  BlockHTTP : Bool := false
  BlockSocks : Bool := false
  BlockTLS : Bool := false
  ProxyProtocolReceive : Bool := false
  ProxyProtocolSend : Bool := false
  ProxyProtocolExitReceive : Bool := false
  ProxyProtocolExitSend : Bool := false
  ProxyProtocolVersion : Int := 0
  TCPFastOpen : Bool := false
  PanelURL : String := ""
  Token : String := ""
  InstallationID : String := ""
  RelayExitHost : String := ""
  RelayExitPort : Int := 0
  UDPRelayExitPort : Int := 0
  RelayPeerID : String := ""
  RelayKey : String := ""
  DNSGeneration : Int := 0
  deriving DecidableEq, Repr

/-- `fxpSpec`. An entry of a group has no entries: `normalizeFXPSpec` drops them before it reads it. -/
structure FxpSpec extends FxpEntry where
  Entries : List FxpEntry := []
  deriving DecidableEq, Repr

def fxpEntryGroupRole : String := "entry-group"

def forwardXWireGuardVersion : String := "v2"

/-- `strings.EqualFold` with a word that has no `k` and no `s`, the letters that characters beyond ASCII
fold to. -/
def equalFold (s word : String) : Bool := s.toList.map Char.toLower = word.toList.map Char.toLower

section
variable (u : Unicode)

/-! ## Normal forms -/

def normalizeFXPTransportVersion (version : String) : String :=
  if lowerTrim u version = "" then "v1" else lowerTrim u version

def normalizeRuntimeProtocol (protocol : String) : String :=
  let value := lowerTrim u protocol
  let compact := String.ofList (value.toList.filter fun c => !([' ', '\t', '_', '+', '-', '/'].contains c))
  if value = "udp" then "udp"
  else if value = "both" ∨ compact = "tcpudp" ∨ compact = "udptcp" ∨ compact = "tcpandudp" ∨ compact = "udpandtcp" then "both"
  else "tcp"

def runtimeProtocols (protocol : String) : List String :=
  if normalizeRuntimeProtocol u protocol = "udp" then ["udp"]
  else if normalizeRuntimeProtocol u protocol = "both" then ["tcp", "udp"]
  else ["tcp"]

def runtimeProtocolsOverlap (left right : String) : Bool :=
  normalizeRuntimeProtocol u left = "both" || normalizeRuntimeProtocol u right = "both" ||
    normalizeRuntimeProtocol u left = normalizeRuntimeProtocol u right

/-- The loop over the exits of `normalizeFXPSpec`. -/
def normalizeExit (key : String) (exit : FxpExitEndpoint) : FxpExitEndpoint where
  Host := trimSpace exit.Host
  Port := exit.Port
  UDPPort := portOr exit.UDPPort exit.Port
  Key := if exit.Key = "" then key else exit.Key
  PeerID := trimSpace exit.PeerID

/-- `normalizeFXPSpec` of a spec that is no entry group. -/
def normalizeSingle (spec : FxpEntry) : FxpEntry :=
  { spec with
    Role := lowerTrim u spec.Role
    TransportVersion := normalizeFXPTransportVersion u spec.TransportVersion
    V3Transport := lowerTrim u spec.V3Transport
    Protocol := normalizeRuntimeProtocol u spec.Protocol
    ListenHost := trimSpace spec.ListenHost
    ExitHost := trimSpace spec.ExitHost
    ExitStrategy := normalizeExitStrategy u spec.ExitStrategy
    ExitPeerID := trimSpace spec.ExitPeerID
    TargetIP := trimSpace spec.TargetIP
    RelayExitHost := trimSpace spec.RelayExitHost
    RelayPeerID := trimSpace spec.RelayPeerID
    UDPListenPort := portOr spec.UDPListenPort spec.ListenPort
    UDPExitPort := portOr spec.UDPExitPort spec.ExitPort
    UDPRelayExitPort := portOr spec.UDPRelayExitPort spec.RelayExitPort
    Exits := spec.Exits.map (normalizeExit spec.Key)
    UDPTargets := normalizeUDPTargets spec.UDPTargets }

def sharedVersion (version : String) : Bool :=
  version = "v1" || version = forwardXWireGuardVersion || version = "v3"

def isSharedFXPEntry (spec : FxpEntry) : Bool :=
  equalFold (trimSpace spec.Role) "entry" && sharedVersion (normalizeFXPTransportVersion u spec.TransportVersion) &&
    0 < spec.TunnelID && 0 < spec.RuleID && 0 < spec.ListenPort

def isFXPEntryGroup (spec : FxpEntry) : Bool :=
  equalFold (trimSpace spec.Role) fxpEntryGroupRole &&
    sharedVersion (normalizeFXPTransportVersion u spec.TransportVersion) && 0 < spec.TunnelID

def fxpEntryGroupKey (transportVersion : String) (tunnelID : Int) : String :=
  normalizeFXPTransportVersion u transportVersion ++ ":" ++ toString tunnelID

/-- `fxpEntryIdentity` of a spec that is no entry group. -/
def fxpEntryIdentity (spec : FxpEntry) : String :=
  let spec := normalizeSingle u spec
  toString spec.RuleID ++ ":" ++ toString spec.ListenPort ++ ":" ++ spec.Protocol

/-- An entry takes the version and tunnel of its group. -/
def groupEntry (transportVersion : String) (tunnelID : Int) (entry : FxpEntry) : FxpEntry :=
  normalizeSingle u { entry with Role := "entry", TransportVersion := transportVersion, TunnelID := tunnelID }

def entryLess (a b : FxpEntry) : Bool :=
  if a.RuleID ≠ b.RuleID then a.RuleID < b.RuleID
  else if a.ListenPort ≠ b.ListenPort then a.ListenPort < b.ListenPort
  else a.Protocol < b.Protocol

/-- One entry for each identity: a later one takes the place of an earlier one. -/
def uniqueEntries (entries : List FxpEntry) : List FxpEntry :=
  (entries.foldl (fun byIdentity entry => Assoc.assign byIdentity (fxpEntryIdentity u entry) entry) []).map Prod.snd

/-- The loop over the entries of `normalizeFXPSpec`. -/
def normalizeEntries (transportVersion : String) (tunnelID : Int) (entries : List FxpEntry) : List FxpEntry :=
  let usable := (entries.map (groupEntry u transportVersion tunnelID)).filter fun entry =>
    isSharedFXPEntry u entry && entry.Key ≠ ""
  (uniqueEntries u usable).insertionSort fun a b => entryLess b a = false

def normalizeFXPSpec (spec : FxpSpec) : FxpSpec :=
  if lowerTrim u spec.Role = fxpEntryGroupRole then
    { spec with
      Role := lowerTrim u spec.Role
      TransportVersion := normalizeFXPTransportVersion u spec.TransportVersion
      V3Transport := lowerTrim u spec.V3Transport
      Entries := normalizeEntries u (normalizeFXPTransportVersion u spec.TransportVersion) spec.TunnelID spec.Entries
      RuleID := 0
      ListenPort := 0
      UDPListenPort := 0
      Protocol := ""
      Key := "" }
  else { toFxpEntry := normalizeSingle u spec.toFxpEntry }

/-- `scrubFXPSpec` of a spec that is no entry group: credentials come from the agent at launch. -/
def scrubSingle (spec : FxpEntry) : FxpEntry := { normalizeSingle u spec with PanelURL := "", Token := "" }

/-! ## Listen endpoints -/

/-- `fxpListenEndpoints` of a spec that is no entry group: the port of each protocol. -/
def singleListenEndpoints (spec : FxpEntry) : List (String × Int) :=
  let spec := normalizeSingle u spec
  (runtimeProtocols u spec.Protocol).filterMap fun protocol =>
    if protocol = "udp" then
      if 0 < spec.UDPListenPort then some (protocol, spec.UDPListenPort) else none
    else if 0 < spec.ListenPort then some (protocol, spec.ListenPort) else none

/-- The pairs of the map: in a group the key holds the port. -/
def fxpListenEndpoints (spec : FxpSpec) : List (String × Int) :=
  let spec := normalizeFXPSpec u spec
  if isFXPEntryGroup u spec.toFxpEntry then
    spec.Entries.flatMap fun entry => (singleListenEndpoints u entry).map fun e => (e.1 ++ ":" ++ toString e.2, e.2)
  else singleListenEndpoints u spec.toFxpEntry

/-- `strings.SplitN(lane, ":", 2)[0]`. -/
def laneProtocol (lane : String) : String := String.ofList (lane.toList.takeWhile fun c => c != ':')

def fxpSpecsListenConflict (left right : FxpSpec) : Bool :=
  (fxpListenEndpoints u left).any fun l => (fxpListenEndpoints u right).any fun r =>
    0 < l.2 && l.2 = r.2 && laneProtocol l.1 = laneProtocol r.1

/-! ## Groups -/

def copyFXPV3Options (dst src : FxpEntry) : FxpEntry :=
  { dst with
    V3Transport := src.V3Transport, V3Host := src.V3Host, V3Path := src.V3Path, V3UserAgent := src.V3UserAgent,
    V3ServerName := src.V3ServerName, V3Multiplex := src.V3Multiplex }

/-- The entries of a tunnel and version, in their normal form. No entry group is among them. -/
def compatibleEntries (entries : List FxpEntry) (tunnelID : Int) (transportVersion : String) : List FxpEntry :=
  (entries.map (normalizeSingle u)).filter fun entry =>
    entry.TunnelID = tunnelID && entry.TransportVersion = transportVersion && isSharedFXPEntry u entry

/-- The group, and whether it has a tunnel and entries. -/
def buildSharedFXPEntryGroup (entries : List FxpEntry) (tunnelID : Int) (transportVersion : String) : FxpSpec × Bool :=
  let transportVersion := normalizeFXPTransportVersion u transportVersion
  let compatible := compatibleEntries u entries tunnelID transportVersion
  let group : FxpEntry := { Role := fxpEntryGroupRole, TransportVersion := transportVersion, TunnelID := tunnelID }
  let group :=
    if transportVersion = "v3" then compatible.head?.elim group (copyFXPV3Options group) else group
  let group := normalizeFXPSpec u { toFxpEntry := group, Entries := compatible }
  (group, 0 < tunnelID && !group.Entries.isEmpty)

end

end ForwardX.Agent.EntryGroups
