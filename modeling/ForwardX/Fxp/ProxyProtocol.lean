import ForwardX.Lib.ByteSearch
import ForwardX.Lib.NetAddress

/- PROXY protocol headers (`main.go`, `formatProxyProtocol`,
   `consumeProxyProtocolFromConn`), versions 1 (text) and 2 (binary). A header is read from
   the first bytes of a connection; where they hold a part of it only, more is read. -/
namespace ForwardX.Fxp
open Wire AsciiText NetAddress

/-! ## Headers -/

/-- The fields of `helloFrame` that a header is made of. -/
structure HelloFrame where
  targetIP : Bytes
  targetPort : Int
  proxySourceIP : Bytes
  proxySourcePort : Int
  proxyDestIP : Bytes
  proxyDestPort : Int
  proxyProtocolVersion : Int
  deriving DecidableEq, Repr

structure ProxyProtocolInfo where
  sourceIP : Bytes
  sourcePort : Int
  destIP : Bytes
  destPort : Int
  deriving DecidableEq, Repr

/-- `proxyProtocolInfo{}`. -/
def ProxyProtocolInfo.zero : ProxyProtocolInfo := ⟨[], 0, [], 0⟩

def ascii (s : String) : Bytes := s.toUTF8.toList

def proxyPrefix : Bytes := ascii "PROXY "

def lineEnd : Bytes := [0x0d, 0x0a]

def proxyProtocolV2Signature : Bytes :=
  [0x0d, 0x0a, 0x0d, 0x0a, 0x00, 0x0d, 0x0a, 0x51, 0x55, 0x49, 0x54, 0x0a]

def normalizeProxyProtocolVersion (version : Int) : Int := if version = 2 then 2 else 1

def proxyProtocolHelloValues (hello : HelloFrame) : ProxyProtocolInfo :=
  let sourceIP := trimSpace hello.proxySourceIP
  let destIP := trimSpace hello.proxyDestIP
  { sourceIP := sourceIP
    sourcePort := hello.proxySourcePort
    destIP := if destIP = [] then trimSpace hello.targetIP else destIP
    destPort := if hello.proxyDestPort ≤ 0 then hello.targetPort else hello.proxyDestPort }

def formatProxyProtocolV1 (hello : HelloFrame) : Bytes :=
  let v := proxyProtocolHelloValues hello
  let family := if v.sourceIP.contains 0x3a || v.destIP.contains 0x3a then ascii "TCP6" else ascii "TCP4"
  [0x20].intercalate
    [ascii "PROXY", family, v.sourceIP, v.destIP, decimalInt v.sourcePort, decimalInt v.destPort] ++ lineEnd

def formatProxyProtocolV2Local : Bytes := proxyProtocolV2Signature ++ [0x20, 0x00, 0x00, 0x00]

/-- `uint16` of an int, in big endian. -/
def putPort (port : Int) : Bytes := putBE 2 (port % 65536).toNat

def formatProxyProtocolV2 (hello : HelloFrame) : Bytes :=
  let v := proxyProtocolHelloValues hello
  match parseIP v.sourceIP, parseIP v.destIP with
  | some src, some dst =>
    if v.sourcePort ≤ 0 ∨ v.destPort ≤ 0 then formatProxyProtocolV2Local
    else
      match to4 src, to4 dst with
      | some src4, some dst4 =>
        proxyProtocolV2Signature ++ ([0x21, 0x11] ++ (putBE 2 12 ++
          (src4 ++ (dst4 ++ (putPort v.sourcePort ++ putPort v.destPort)))))
      | none, none =>
        match to16 src, to16 dst with
        | some src16, some dst16 =>
          proxyProtocolV2Signature ++ ([0x21, 0x21] ++ (putBE 2 36 ++
            (src16 ++ (dst16 ++ (putPort v.sourcePort ++ putPort v.destPort)))))
        | _, _ => formatProxyProtocolV2Local
      | _, _ => formatProxyProtocolV2Local
  | _, _ => formatProxyProtocolV2Local

def formatProxyProtocol (hello : HelloFrame) : Bytes :=
  if normalizeProxyProtocolVersion hello.proxyProtocolVersion = 2 then formatProxyProtocolV2 hello
  else formatProxyProtocolV1 hello

/-! ## Reading a header -/

/-- A header that was consumed, or, without `ok`, data that starts with none. -/
structure Consumed where
  info : ProxyProtocolInfo
  remaining : Bytes
  ok : Bool
  deriving DecidableEq, Repr

abbrev Consume := Except String Consumed

def portField (s : Bytes) : Option Int :=
  match atoi s with
  | none => none
  | some port => if port ≤ 0 ∨ port > 65535 then none else some port

/-- The fields of a text header, and what follows it. -/
def consumeFields (parts : List Bytes) (remaining : Bytes) : Consume :=
  if parts.length < 2 ∨ parts.head? ≠ some (ascii "PROXY") then .error "invalid proxy protocol header"
  else if parts.getD 1 [] = ascii "UNKNOWN" then .ok ⟨.zero, remaining, true⟩
  else if parts.length ≠ 6 ∨ (parts.getD 1 [] ≠ ascii "TCP4" ∧ parts.getD 1 [] ≠ ascii "TCP6") then
    .error "unsupported proxy protocol header"
  else
    match portField (parts.getD 4 []) with
    | none => .error "invalid proxy protocol source port"
    | some srcPort =>
      match portField (parts.getD 5 []) with
      | none => .error "invalid proxy protocol destination port"
      | some dstPort => .ok ⟨⟨parts.getD 2 [], srcPort, parts.getD 3 [], dstPort⟩, remaining, true⟩

def consumeProxyProtocolV1 (data : Bytes) : Consume :=
  if !proxyPrefix.isPrefixOf data then .ok ⟨.zero, data, false⟩
  else
    match ByteSearch.index lineEnd data with
    | none => .error "incomplete proxy protocol header"
    | some fin => consumeFields (fields (data.take fin)) (data.drop (fin + 2))

/-- The payload of a binary header of a family, and what follows it. -/
def consumeFamily (familyProtocol : UInt8) (payload remaining : Bytes) : Consume :=
  if familyProtocol = 0x11 then
    if payload.length < 12 then .error "invalid proxy protocol v2 tcp4 payload"
    else .ok ⟨⟨ipString (payload.take 4), getBE ((payload.drop 8).take 2),
      ipString ((payload.drop 4).take 4), getBE ((payload.drop 10).take 2)⟩, remaining, true⟩
  else if familyProtocol = 0x21 then
    if payload.length < 36 then .error "invalid proxy protocol v2 tcp6 payload"
    else .ok ⟨⟨ipString (payload.take 16), getBE ((payload.drop 32).take 2),
      ipString ((payload.drop 16).take 16), getBE ((payload.drop 34).take 2)⟩, remaining, true⟩
  else if familyProtocol = 0x00 then .ok ⟨.zero, remaining, true⟩
  else .error "unsupported proxy protocol v2 address family"

def consumeProxyProtocolV2 (data : Bytes) : Consume :=
  if !proxyProtocolV2Signature.isPrefixOf data then .ok ⟨.zero, data, false⟩
  else if data.length < 16 then .error "incomplete proxy protocol v2 header"
  else
    let versionCommand := data.getD 12 0
    if versionCommand >>> 4 ≠ 0x2 then .error "invalid proxy protocol v2 version"
    else
      let command := versionCommand &&& 0x0f
      let length := getBE ((data.drop 14).take 2)
      if data.length < 16 + length then .error "incomplete proxy protocol v2 payload"
      else
        let payload := (data.drop 16).take length
        let remaining := data.drop (16 + length)
        if command = 0x0 then .ok ⟨.zero, remaining, true⟩
        else if command ≠ 0x1 then .error "unsupported proxy protocol v2 command"
        else consumeFamily (data.getD 13 0) payload remaining

def consumeProxyProtocol (data : Bytes) : Consume :=
  if proxyPrefix.isPrefixOf data then consumeProxyProtocolV1 data
  else if proxyProtocolV2Signature.isPrefixOf data then consumeProxyProtocolV2 data
  else if data.length > 0 && data.length < proxyProtocolV2Signature.length &&
      data.isPrefixOf proxyProtocolV2Signature then
    .error "incomplete proxy protocol v2 header"
  else .ok ⟨.zero, data, false⟩

/-! ## Reading more -/

inductive ConnFailure
  | timeout
  | failed (message : String)
  deriving DecidableEq, Repr

/-- What a connection will deliver: segments, a read taking the first or as much of it as
it asks for, and an error after the last. -/
structure ProxyConn where
  segments : List Bytes
  err : ConnFailure
  deriving DecidableEq, Repr

/-- `conn.Read` into `limit` bytes. -/
def ProxyConn.read (c : ProxyConn) (limit : Nat) : Bytes × Option ConnFailure × ProxyConn :=
  match c.segments with
  | [] => ([], some c.err, c)
  | segment :: rest =>
    if segment.length ≤ limit then (segment, none, { c with segments := rest })
    else (segment.take limit, none, { c with segments := segment.drop limit :: rest })

def ConnFailure.message : ConnFailure → String
  | .timeout => "i/o timeout"
  | .failed message => message

/-- The loop of `consumeProxyProtocolV1FromConn`; a round that goes on has read a byte, so
that 108 rounds are enough. -/
def readMoreV1 : Nat → Bytes → ProxyConn → Except String Bytes × ProxyConn
  | 0, buf, c => (.ok buf, c)
  | fuel + 1, buf, c =>
    if buf.length > 0 ∧ buf.length < 108 ∧
        (proxyPrefix.isPrefixOf buf = true ∨ buf.isPrefixOf proxyPrefix = true) ∧
        ByteSearch.index lineEnd buf = none then
      let (more, err, c') := c.read (108 - buf.length)
      match err with
      | some .timeout => (.ok (buf ++ more), c')
      | some (.failed message) => (.error message, c')
      | none => if more.length = 0 then (.ok buf, c') else readMoreV1 fuel (buf ++ more) c'
    else (.ok buf, c)

def consumeProxyProtocolV1FromConn (data : Bytes) (c : ProxyConn) : Consume × ProxyConn :=
  match readMoreV1 108 data c with
  | (.error message, c') => (.error message, c')
  | (.ok buf, c') => (consumeProxyProtocolV1 buf, c')

/-- The loops of `consumeProxyProtocolFromConn` around `readProxyProtocolMore`, up to `need`
bytes; a round that goes on has read a byte, so that `need` rounds are enough. -/
def readMoreV2 (need : Nat) (incomplete : String) : Nat → Bytes → ProxyConn → Except String Bytes × ProxyConn
  | 0, buf, c => (.ok buf, c)
  | fuel + 1, buf, c =>
    if buf.length < need then
      let (more, err, c') := c.read (need - buf.length)
      match err with
      | some err => (.error err.message, c')
      | none =>
        if more.length = 0 then (.error incomplete, c')
        else readMoreV2 need incomplete fuel (buf ++ more) c'
    else (.ok buf, c)

def consumeProxyProtocolFromConn (data : Bytes) (c : ProxyConn) : Consume × ProxyConn :=
  if data.length = 0 then (consumeProxyProtocol data, c)
  else if proxyPrefix.isPrefixOf data || data.isPrefixOf proxyPrefix then
    consumeProxyProtocolV1FromConn data c
  else if proxyProtocolV2Signature.isPrefixOf data || data.isPrefixOf proxyProtocolV2Signature then
    match readMoreV2 16 "incomplete proxy protocol v2 header" 16 data c with
    | (.error message, c') => (.error message, c')
    | (.ok buf, c') =>
      let need := 16 + getBE ((buf.drop 14).take 2)
      match readMoreV2 need "incomplete proxy protocol v2 payload" need buf c' with
      | (.error message, c'') => (.error message, c'')
      | (.ok buf', c'') => (consumeProxyProtocol buf', c'')
  else (consumeProxyProtocol data, c)

end ForwardX.Fxp
