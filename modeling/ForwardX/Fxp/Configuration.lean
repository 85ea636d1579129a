import Mathlib.Data.List.Sort
import ForwardX.Fxp.Traffic

/- The configuration of a process (`config_types.go`, `config.go`): how it is normalised and
   what makes it valid. A configuration of role `entry-group` holds one of role `entry` for
   each of its rules. The validation of a group stops at two entries that would listen at one
   address; `EntryListenLaneRegistry` finds them in one pass. -/
namespace ForwardX.Fxp.Control
open Traffic (isSpace trimSpace)

/-! ## The data -/

structure ExitEndpoint where
  Host : String
  Port : Int
  UDPPort : Int
  Key : String
  deriving DecidableEq, Repr

structure UdpTarget where
  RuleID : Int
  TargetIP : String
  TargetPort : Int
  deriving DecidableEq, Repr

/-- The fields of `config`, but for the entries. -/
structure Settings where
  InstallationID : String
  ControlSocket : String
  Role : String
  TransportVersion : String
  V3Transport : String
  V3Host : String
  V3Path : String
  V3UserAgent : String
  V3ServerName : String
  V3Multiplex : Option Bool
  TunnelID : Int
  RuleID : Int
  ListenPort : Int
  UDPListenPort : Int
  ListenHost : String
  Protocol : String
  ExitHost : String
  ExitPort : Int
  UDPExitPort : Int
  Exits : List ExitEndpoint
  ExitStrategy : String
  TargetIP : String
  TargetPort : Int
  UDPTargets : List UdpTarget
  Key : String
  LimitIn : Int
  LimitOut : Int
  MaxConnections : Int
  MaxIPs : Int
  AccessScope : String
  BlockHTTP : Bool
  BlockSocks : Bool
  BlockTLS : Bool
  ProxyProtocolReceive : Bool
  ProxyProtocolSend : Bool
  ProxyProtocolExitReceive : Bool
  ProxyProtocolExitSend : Bool
  ProxyProtocolVersion : Int
  TCPFastOpen : Bool
  PanelURL : String
  Token : String
  RelayExitHost : String
  RelayExitPort : Int
  UDPRelayExitPort : Int
  RelayKey : String
  DNSGeneration : Int
  deriving DecidableEq, Repr

inductive Config
  | mk (settings : Settings) (Entries : List Config)

namespace Config

def settings : Config → Settings
  | mk s _ => s

def Entries : Config → List Config
  | mk _ es => es

@[simp] theorem settings_mk (s : Settings) (es : List Config) : (mk s es).settings = s := rfl

@[simp] theorem Entries_mk (s : Settings) (es : List Config) : (mk s es).Entries = es := rfl

mutual

/-- `reflect.DeepEqual` decides equality: normalised configurations differ in no nil slices. -/
def decEq : (a b : Config) → Decidable (a = b)
  | mk s es, mk t fs =>
    if hs : s = t then
      match decEqs es fs with
      | isTrue he => isTrue (by rw [hs, he])
      | isFalse he => isFalse (fun h => he (by injection h))
    else isFalse (fun h => hs (by injection h))

def decEqs : (as bs : List Config) → Decidable (as = bs)
  | [], [] => isTrue rfl
  | [], _ :: _ => isFalse (fun h => by cases h)
  | _ :: _, [] => isFalse (fun h => by cases h)
  | a :: as, b :: bs =>
    match decEq a b with
    | isTrue h =>
      match decEqs as bs with
      | isTrue hs => isTrue (by rw [h, hs])
      | isFalse hs => isFalse (fun he => hs (by injection he))
    | isFalse h => isFalse (fun he => h (by injection he))

end

instance : DecidableEq Config := decEq

end Config

/-! ## Normalisation -/

/-- `unicode.ToLower`: lower case has no lower case of its own, no letter is lowered to a
space, nor a space to a letter, and of the ASCII characters the capitals are lowered. -/
structure Unicode where
  toLower : Char → Char
  lower_ascii : ∀ c, c.val < 128 → toLower c = c.toLower
  lower_lower : ∀ c, toLower (toLower c) = toLower c
  space_lower : ∀ c, isSpace (toLower c) = isSpace c

/-- `strings.ToLower`. -/
def Unicode.lower (u : Unicode) (s : String) : String := String.ofList (s.toList.map u.toLower)

section
variable (u : Unicode)

/-- `strings.ToLower(strings.TrimSpace(s))`. -/
def lowerTrim (s : String) : String := u.lower (trimSpace s)

def normalizeProtocol (protocol : String) : String :=
  if lowerTrim u protocol = "udp" then "udp"
  else if lowerTrim u protocol = "both" ∨ lowerTrim u protocol = "tcp+udp" then "both"
  else "tcp"

def normalizeExitStrategy (value : String) : String :=
  if lowerTrim u value ∈ ["fallback", "random", "ip_hash"] then lowerTrim u value else "round_robin"

def normalizeProxyProtocolVersion (version : Int) : Int := if version = 2 then 2 else 1

def portOr (port other : Int) : Int := if port ≤ 0 then other else port

/-- The loop over the exits of `normalizeConfig`. -/
def normalizeExit (key : String) (exit : ExitEndpoint) : ExitEndpoint where
  Host := trimSpace exit.Host
  Port := exit.Port
  UDPPort := portOr exit.UDPPort exit.Port
  Key := if exit.Key = "" then key else exit.Key

/-- The loop over the UDP targets of `normalizeConfig`: the usable targets, the first of each
rule. -/
def usableUDPTargets (seen : List Int) : List UdpTarget → List UdpTarget
  | [] => []
  | target :: targets =>
    let target := { target with TargetIP := trimSpace target.TargetIP }
    if target.RuleID ≤ 0 ∨ target.TargetIP = "" ∨ target.TargetPort ≤ 0 ∨ 65535 < target.TargetPort ∨
        target.RuleID ∈ seen then usableUDPTargets seen targets
    else target :: usableUDPTargets (target.RuleID :: seen) targets

def normalizeUDPTargets (targets : List UdpTarget) : List UdpTarget :=
  (usableUDPTargets [] targets).insertionSort (fun a b => a.RuleID ≤ b.RuleID)

/-- What `normalizeConfig` does to the fields. -/
def normalizeSettings (cfg : Settings) : Settings :=
  { cfg with
    Role := lowerTrim u cfg.Role
    TransportVersion := lowerTrim u cfg.TransportVersion
    V3Transport := lowerTrim u cfg.V3Transport
    V3UserAgent := trimSpace cfg.V3UserAgent
    Protocol := normalizeProtocol u cfg.Protocol
    TargetIP := trimSpace cfg.TargetIP
    ExitHost := trimSpace cfg.ExitHost
    ExitStrategy := normalizeExitStrategy u cfg.ExitStrategy
    RelayExitHost := trimSpace cfg.RelayExitHost
    ListenHost := trimSpace cfg.ListenHost
    ProxyProtocolVersion := normalizeProxyProtocolVersion cfg.ProxyProtocolVersion
    UDPListenPort := portOr cfg.UDPListenPort cfg.ListenPort
    UDPExitPort := portOr cfg.UDPExitPort cfg.ExitPort
    UDPRelayExitPort := portOr cfg.UDPRelayExitPort cfg.RelayExitPort
    Exits := cfg.Exits.map (normalizeExit cfg.Key)
    UDPTargets := normalizeUDPTargets cfg.UDPTargets }

mutual

def normalizeConfig : Config → Config
  | .mk settings entries => .mk (normalizeSettings u settings) (normalizeConfigs entries)

def normalizeConfigs : List Config → List Config
  | [] => []
  | entry :: entries => normalizeConfig entry :: normalizeConfigs entries

end

end

/-! ## Validation -/

/-- The errors of `validateConfig`, with the values that they print. -/
inductive ConfigError
  | v3Options
  | unsupportedTransportVersion (version : String)
  | httpValues
  | httpHeaderTooLarge
  | v3ServerName
  | v3Transport (transport : String)
  | emptyKey
  | badListenPort (port : Int)
  | badUDPListenPort (port : Int)
  | unsupportedListenHost (host : String)
  | entryExit
  | entryExits
  | entryUDPExitPort
  | entryTarget
  | proxyProtocol
  | relayExit
  | relayUDPExitPort
  | noEntries
  | entryRole (index : Nat)
  | entryTunnel (index : Nat) (tunnelID group : Int)
  | entry (index : Nat) (err : ConfigError)
  | lanes (first second : Nat) (network address : String)

/-- `err.Error()`; `quote` is the verb `%q`. -/
def ConfigError.text (quote : String → String) : ConfigError → String
  | v3Options => "V3 options require transportVersion v3"
  | unsupportedTransportVersion version => "unsupported transportVersion " ++ quote version
  | httpValues => "v3: invalid HTTP handshake host, path or user agent"
  | httpHeaderTooLarge => "v3: HTTP handshake header too large"
  | v3ServerName => "invalid V3 TLS server name"
  | v3Transport transport => "V3 requires http, ws, or tls transport, got " ++ quote transport
  | emptyKey => "empty key"
  | badListenPort port => "bad listen port " ++ toString port
  | badUDPListenPort port => "bad udp listen port " ++ toString port
  | unsupportedListenHost host => "unsupported listen host " ++ quote host
  | entryExit => "entry requires exit host and port"
  | entryExits => "entry exits require host and port"
  | entryUDPExitPort => "entry requires a valid udp exit port"
  | entryTarget => "entry requires target host and port"
  | proxyProtocol => "proxy protocol requires tcp protocol"
  | relayExit => "relay requires relay exit host, port, and key"
  | relayUDPExitPort => "relay requires a valid udp relay exit port"
  | noEntries => "entry-group requires at least one entry"
  | entryRole index => "entry-group entry " ++ toString index ++ " requires role entry"
  | entryTunnel index tunnelID group =>
    "entry-group entry " ++ toString index ++ " tunnel " ++ toString tunnelID ++
      " does not match group tunnel " ++ toString group
  | entry index err => "entry-group entry " ++ toString index ++ ": " ++ err.text quote
  | lanes first second network address =>
    "entry-group entries " ++ toString first ++ " and " ++ toString second ++ " conflict on " ++ network ++
      " listen " ++ address

def refuse (condition : Bool) (err : ConfigError) : Option ConfigError := if condition then some err else none

def containsAny (s chars : String) : Bool := s.toList.any (fun c => chars.toList.contains c)

/-- `validHeaderValue` of the V3 transport. -/
def validHeaderValue (value : String) : Bool := !containsAny value "\r\n\x00\t "

def DefaultUserAgent : String :=
  "Mozilla/5.0 (Windows NT 10.0; Win64; x64) AppleWebKit/537.36 (KHTML, like Gecko) Chrome/124.0.0.0 Safari/537.36"

/-- `v3.HTTPRequest`: the preface, or its error. -/
def HTTPRequest (host path userAgent : String) (wsStyle : Bool) (wsKey : String) : Except ConfigError String :=
  if !validHeaderValue host || !validHeaderValue path || !validHeaderValue userAgent then .error .httpValues
  else
    let path := if path.startsWith "/" then path else "/" ++ path
    let userAgent := if userAgent = "" then DefaultUserAgent else userAgent
    let b := "GET " ++ path ++ " HTTP/1.1\r\n" ++ "User-Agent: " ++ userAgent ++ "\r\n" ++
      (if wsStyle then
        "Connection: upgrade\r\nUpgrade: websocket\r\nSec-WebSocket-Version: 13\r\nSec-WebSocket-Key: " ++ wsKey ++
          "\r\n"
      else "") ++ "\r\n"
    if 32768 < b.utf8ByteSize then .error .httpHeaderTooLarge else .ok b

def validateTransportConfig (cfg : Settings) : Option ConfigError :=
  if cfg.TransportVersion = "" ∨ cfg.TransportVersion = "v1" ∨ cfg.TransportVersion = "v2" then
    refuse (cfg.V3Transport ≠ "" || cfg.V3Host ≠ "" || cfg.V3Path ≠ "" || cfg.V3UserAgent ≠ "" ||
      cfg.V3ServerName ≠ "" || cfg.V3Multiplex.isSome) .v3Options
  else if cfg.TransportVersion ≠ "v3" then some (.unsupportedTransportVersion cfg.TransportVersion)
  else if cfg.V3Transport = "http" ∨ cfg.V3Transport = "ws" then
    match HTTPRequest cfg.V3Host cfg.V3Path cfg.V3UserAgent (cfg.V3Transport = "ws") "" with
    | .error err => some err
    | .ok _ => none
  else if cfg.V3Transport = "tls" then
    refuse (253 < cfg.V3ServerName.utf8ByteSize || containsAny cfg.V3ServerName "\x00\r\n\t /\\") .v3ServerName
  else some (.v3Transport cfg.V3Transport)

/-- A port outside `1` to `65535`. -/
def badPort (port : Int) : Bool := port ≤ 0 || 65535 < port

/-- What `validateConfig` checks of an entry. -/
def validateEntry (cfg : Settings) : Option ConfigError :=
  refuse (cfg.ExitHost = "" || badPort cfg.ExitPort) .entryExit <|>
  refuse (cfg.Exits.any (fun exit => exit.Host = "" || badPort exit.Port || badPort exit.UDPPort)) .entryExits <|>
  refuse (cfg.UDPExitPort < 0 || 65535 < cfg.UDPExitPort) .entryUDPExitPort <|>
  refuse (cfg.TargetIP = "" || badPort cfg.TargetPort) .entryTarget

/-- What `validateConfig` checks of a relay. -/
def validateRelay (cfg : Settings) : Option ConfigError :=
  refuse (cfg.RelayExitHost = "" || badPort cfg.RelayExitPort || cfg.RelayKey = "") .relayExit <|>
  refuse (cfg.UDPRelayExitPort < 0 || 65535 < cfg.UDPRelayExitPort) .relayUDPExitPort

/-- `validateConfig` behind the branch of the group: the checks of everything that listens. -/
def validateListener (cfg : Settings) : Option ConfigError :=
  refuse (cfg.Key = "") .emptyKey <|>
  refuse (badPort cfg.ListenPort) (.badListenPort cfg.ListenPort) <|>
  refuse (cfg.UDPListenPort < 0 || 65535 < cfg.UDPListenPort) (.badUDPListenPort cfg.UDPListenPort) <|>
  refuse (cfg.ListenHost ≠ "" && cfg.ListenHost ≠ "127.0.0.1" && cfg.ListenHost ≠ "::1")
    (.unsupportedListenHost cfg.ListenHost) <|>
  (if cfg.Role = "entry" then validateEntry cfg else none) <|>
  refuse ((cfg.ProxyProtocolReceive || cfg.ProxyProtocolSend || cfg.ProxyProtocolExitReceive ||
    cfg.ProxyProtocolExitSend) && cfg.Protocol = "udp") .proxyProtocol <|>
  (if cfg.Role = "relay" then validateRelay cfg else none)

/-! ### Listen lanes -/

inductive Network
  | tcp
  | udp
  deriving DecidableEq, Repr

def Network.text : Network → String
  | tcp => "tcp"
  | udp => "udp"

def protocolHas (cfg : Settings) (network : Network) : Bool :=
  cfg.Protocol = "both" || cfg.Protocol = network.text

def udpListenPort (cfg : Settings) : Int := if 0 < cfg.UDPListenPort then cfg.UDPListenPort else cfg.ListenPort

def listenPort (cfg : Settings) : Network → Int
  | .tcp => cfg.ListenPort
  | .udp => udpListenPort cfg

/-- `net.JoinHostPort(strings.TrimSpace(host), strconv.Itoa(port))`. -/
def listenAddress (host : String) (port : Int) : String :=
  if containsAny (trimSpace host) ":" then "[" ++ trimSpace host ++ "]:" ++ toString port
  else trimSpace host ++ ":" ++ toString port

structure EntryListenLane where
  network : Network
  host : String
  port : Int
  index : Nat
  deriving DecidableEq, Repr

structure EntryListenLaneRegistry where
  first : List (String × EntryListenLane)
  wildcard : List (String × EntryListenLane)
  exact : List (String × EntryListenLane)
  deriving Repr

def newEntryListenLaneRegistry : EntryListenLaneRegistry := ⟨[], [], []⟩

def EntryListenLane.key (lane : EntryListenLane) : String := lane.network.text ++ ":" ++ toString lane.port

def EntryListenLane.exactKey (lane : EntryListenLane) : String := lane.key ++ "\x00" ++ lane.host

def EntryListenLane.trim (lane : EntryListenLane) : EntryListenLane := { lane with host := trimSpace lane.host }

/-- The lane that stands in the way of one whose host is trimmed. -/
def EntryListenLaneRegistry.existing (registry : EntryListenLaneRegistry) (lane : EntryListenLane) :
    Option EntryListenLane :=
  if lane.host = "" then registry.first.lookup lane.key
  else registry.wildcard.lookup lane.key <|> registry.exact.lookup lane.exactKey

def EntryListenLaneRegistry.add (registry : EntryListenLaneRegistry) (lane : EntryListenLane) :
    Except ConfigError EntryListenLaneRegistry :=
  let lane := lane.trim
  match registry.existing lane with
  | some existing =>
    .error (.lanes existing.index lane.index lane.network.text (listenAddress lane.host lane.port))
  | none =>
    let registry :=
      if (registry.first.lookup lane.key).isSome then registry
      else { registry with first := Assoc.put registry.first lane.key lane }
    if lane.host = "" then .ok { registry with wildcard := Assoc.put registry.wildcard lane.key lane }
    else .ok { registry with exact := Assoc.put registry.exact lane.exactKey lane }

/-- The lanes of an entry, in the order in which they are added. -/
def entryLanes (index : Nat) (entry : Settings) : List EntryListenLane :=
  [Network.tcp, Network.udp].filterMap (fun network =>
    if protocolHas entry network then some ⟨network, entry.ListenHost, listenPort entry network, index⟩ else none)

def EntryListenLaneRegistry.addAll (registry : EntryListenLaneRegistry) :
    List EntryListenLane → Except ConfigError EntryListenLaneRegistry
  | [] => .ok registry
  | lane :: lanes =>
    match registry.add lane with
    | .error err => .error err
    | .ok registry => registry.addAll lanes

mutual

/-- `validateConfig`; of a group it is `validateEntryGroupConfig`. -/
def validateConfig : Config → Option ConfigError
  | .mk cfg entries =>
    validateTransportConfig cfg <|>
    (if cfg.Role = "entry-group" then
      refuse entries.isEmpty .noEntries <|> validateEntries cfg.TunnelID newEntryListenLaneRegistry 0 entries
    else validateListener cfg)

/-- The loop of `validateEntryGroupConfig`. -/
def validateEntries (tunnelID : Int) (lanes : EntryListenLaneRegistry) (i : Nat) :
    List Config → Option ConfigError
  | [] => none
  | entry :: entries =>
    if entry.settings.Role ≠ "entry" then some (.entryRole i)
    else if entry.settings.TunnelID ≠ tunnelID then some (.entryTunnel i entry.settings.TunnelID tunnelID)
    else
      match validateConfig entry with
      | some err => some (.entry i err)
      | none =>
        match lanes.addAll (entryLanes i entry.settings) with
        | .error err => some err
        | .ok lanes => validateEntries tunnelID lanes (i + 1) entries

end

def validateEntryGroupConfig (cfg : Config) : Option ConfigError :=
  refuse cfg.Entries.isEmpty .noEntries <|>
    validateEntries cfg.settings.TunnelID newEntryListenLaneRegistry 0 cfg.Entries

end ForwardX.Fxp.Control
