import Mathlib.Data.List.Nodup
import ForwardX.Lib.Aead

/- The FXP UDP datagram format (`udp_direct.go`, `udp_fragment.go`): a 32-byte
   header that names the packet type, the tunnel, the rule, the session, the
   sequence and the fragment, and a payload sealed under a key of the first four
   and a nonce of the last two. A payload above 1152 bytes is sealed as several
   fragments of one sequence. -/
namespace ForwardX.Udp
open Wire Aead

/-- The bytes of `"FXPU"`. -/
def fxpUDPMagic : Bytes := [0x46, 0x58, 0x50, 0x55]
def fxpUDPVersion : UInt8 := 3
def fxpUDPTypeData : UInt8 := 1
def fxpUDPTypeReturn : UInt8 := 2
def fxpUDPHeaderSize : Nat := 32
def fxpUDPAuthTagSize : Nat := 16
def fxpUDPMaxDatagramPayload : Nat := 65507
def fxpUDPMaxSinglePayload : Nat := 65507 - fxpUDPHeaderSize - fxpUDPAuthTagSize
def fxpUDPMaxWirePacketSize : Nat := 1200
def fxpUDPFragmentPayloadSize : Nat := fxpUDPMaxWirePacketSize - fxpUDPHeaderSize - fxpUDPAuthTagSize
def fxpUDPMaxFragments : Nat :=
  (fxpUDPMaxDatagramPayload + fxpUDPFragmentPayloadSize - 1) / fxpUDPFragmentPayloadSize

/-- The largest `uint64`. -/
def maxUint64 : UInt64 := 0xffffffffffffffff

/-- The fields of a packet that its key is derived from. -/
structure Context where
  packetType : UInt8
  tunnelID : Int
  ruleID : Int
  sessionID : UInt64
  deriving DecidableEq, Repr

/-- `fxpUDPPacket`. -/
structure Packet where
  context : Context
  sequence : UInt64
  fragment : UInt8
  fragments : UInt8
  payload : Bytes
  deriving DecidableEq, Repr

def validFXPUDPFragmentMetadata (fragment fragments : UInt8) : Bool :=
  if fragments = 0 then fragment = 0
  else fragments ≥ 2 && fragments.toNat ≤ fxpUDPMaxFragments && fragment < fragments

def validateFXPUDPContext (c : Context) : Except String Unit :=
  if c.packetType ≠ fxpUDPTypeData ∧ c.packetType ≠ fxpUDPTypeReturn then
    .error "invalid udp packet type"
  else if c.tunnelID < 0 ∨ c.ruleID < 0 ∨ c.sessionID = 0 then .error "invalid udp packet fields"
  else .ok ()

def validateFXPUDPPacket (packet : Packet) : Except String Unit := do
  validateFXPUDPContext packet.context
  if packet.sequence = 0 then throw "invalid udp packet fields"
  if !validFXPUDPFragmentMetadata packet.fragment packet.fragments then
    throw "invalid udp fragment metadata"

def fxpUDPFragmentCount (payloadSize : Nat) : Except String Nat :=
  if payloadSize > fxpUDPMaxDatagramPayload then
    .error s!"udp datagram payload too large: {payloadSize}"
  else if payloadSize ≤ fxpUDPFragmentPayloadSize then .ok 1
  else
    let count := (payloadSize + fxpUDPFragmentPayloadSize - 1) / fxpUDPFragmentPayloadSize
    if count > fxpUDPMaxFragments then .error s!"udp datagram requires too many fragments: {count}"
    else .ok count

/-- `writeFXPUDPHeader` into a 32-byte buffer. -/
def writeFXPUDPHeader (packet : Packet) : Except String Bytes := do
  validateFXPUDPPacket packet
  return fxpUDPMagic ++ [fxpUDPVersion, packet.context.packetType, packet.fragment, packet.fragments] ++
    putBE 4 packet.context.tunnelID.toNat ++ putBE 4 packet.context.ruleID.toNat ++
    putBE 8 packet.context.sessionID.toNat ++ putBE 8 packet.sequence.toNat

def fxpUDPHasMagic (raw : Bytes) : Bool :=
  fxpUDPHeaderSize ≤ raw.length && raw.take 4 == fxpUDPMagic

/-- The bytes `raw[i:j]`. -/
def slice (raw : Bytes) (i j : Nat) : Bytes := (raw.drop i).take (j - i)

def parseFXPUDPHeader (raw : Bytes) : Except String Packet :=
  if raw.length < fxpUDPHeaderSize + fxpUDPAuthTagSize then .error "udp packet too small"
  else if !fxpUDPHasMagic raw || raw.getD 4 0 != fxpUDPVersion then .error "invalid udp packet header"
  else do
    let packet : Packet := {
      context := {
        packetType := raw.getD 5 0
        tunnelID := getBE (slice raw 8 12)
        ruleID := getBE (slice raw 12 16)
        sessionID := UInt64.ofNat (getBE (slice raw 16 24)) }
      sequence := UInt64.ofNat (getBE (slice raw 24 32))
      fragment := raw.getD 6 0
      fragments := raw.getD 7 0
      payload := [] }
    validateFXPUDPPacket packet
    return packet

/-- `fillFXPUDPNonce` into a zeroed 12-byte buffer. -/
def fillFXPUDPNonce (sequence : UInt64) (fragment : UInt8) : Bytes :=
  [0, 0, 0, fragment] ++ putBE 8 sequence.toNat

/-- `fxpUDPCodec`. -/
structure Codec where
  context : Context
  aead : Cipher

/-- `newFXPUDPCodec`; `fxpUDPAEAD` is the AEAD of a key and a context. -/
def newFXPUDPCodec (fxpUDPAEAD : String → Context → Cipher) (key : String) (c : Context) :
    Except String Codec := do
  validateFXPUDPContext c
  if key = "" then throw "empty udp key"
  return ⟨c, fxpUDPAEAD key c⟩

def Codec.matches (codec : Codec) (packet : Packet) : Bool := packet.context = codec.context

def Codec.sealPacket (codec : Codec) (packet : Packet) : Except String Bytes := do
  if !codec.matches packet then throw "udp packet does not match cached encryption context"
  if packet.payload.length > fxpUDPMaxSinglePayload then
    let size := packet.payload.length
    throw s!"udp payload too large: {size}"
  let header ← writeFXPUDPHeader packet
  return header ++
    codec.aead.sealText (fillFXPUDPNonce packet.sequence packet.fragment) packet.payload header

def Codec.openParsedPacket (codec : Codec) (raw : Bytes) (packet : Packet) : Except String Packet :=
  if !codec.matches packet then
    .error "udp packet does not match cached decryption context"
  else
    match codec.aead.openText (fillFXPUDPNonce packet.sequence packet.fragment)
      (raw.drop fxpUDPHeaderSize) (raw.take fxpUDPHeaderSize) with
    | none => .error "invalid udp packet authentication"
    | some payload => .ok { packet with payload := payload }

/-- `nextFXPUDPSequence`: the sequence and the counter after it. -/
def nextFXPUDPSequence (counter : UInt64) : Except String UInt64 :=
  if counter = maxUint64 then .error "udp packet sequence exhausted" else .ok (counter + 1)

/-- Fragment `index` of `count` of a datagram. -/
def fragmentAt (packet : Packet) (sequence : UInt64) (count index : Nat) : Packet :=
  let payload := (packet.payload.drop (index * fxpUDPFragmentPayloadSize)).take fxpUDPFragmentPayloadSize
  if count > 1 then
    { packet with sequence := sequence, payload := payload, fragment := UInt8.ofNat index,
                  fragments := UInt8.ofNat count }
  else { packet with sequence := sequence, payload := payload }

/-- What `sealFXPUDPDatagramsWithCodec` leaves behind: the counter, the packets it
has sealed, and the wire packets or the error it returns. -/
structure SealedDatagram where
  counter : UInt64
  packets : List Packet
  frames : Except String (List Bytes)

/-- The loop of `sealFXPUDPDatagramsWithCodec` over the fragments still to seal. -/
def sealFragments (codec : Codec) : List Packet → List Packet × Except String (List Bytes)
  | [] => ([], .ok [])
  | fragment :: rest =>
    match codec.sealPacket fragment with
    | .error e => ([], .error e)
    | .ok frame =>
      if frame.length > fxpUDPMaxWirePacketSize then
        let size := frame.length
        ([fragment], .error s!"sealed udp fragment exceeds wire limit: {size}")
      else
        let r := sealFragments codec rest
        (fragment :: r.1, r.2.map (frame :: ·))

def sealFXPUDPDatagramsWithCodec (packet : Packet) (codec : Codec) (counter : UInt64) :
    SealedDatagram :=
  if packet.fragment ≠ 0 ∨ packet.fragments ≠ 0 ∨ packet.sequence ≠ 0 then
    ⟨counter, [], .error "udp datagram already has wire metadata"⟩
  else if !codec.matches packet then
    ⟨counter, [], .error "udp datagram does not match cached encryption context"⟩
  else
    match fxpUDPFragmentCount packet.payload.length with
    | .error e => ⟨counter, [], .error e⟩
    | .ok count =>
      match nextFXPUDPSequence counter with
      | .error e => ⟨counter, [], .error e⟩
      | .ok sequence =>
        let r := sealFragments codec ((List.range count).map (fragmentAt packet sequence count))
        ⟨sequence, r.1, r.2⟩

/-! ## Nonces and fragments -/

/-- A datagram has at least one fragment and few enough for the one-byte index. -/
theorem fxpUDPFragmentCount_bounds {size count : Nat} (h : fxpUDPFragmentCount size = .ok count) :
    1 ≤ count ∧ count ≤ fxpUDPMaxFragments := by
  unfold fxpUDPFragmentCount at h
  split at h
  · cases h
  · split at h
    · cases h
      decide
    · rename_i hsize
      have hpayload : fxpUDPFragmentPayloadSize = 1152 := rfl
      rw [hpayload] at h hsize
      by_cases hmax : (size + 1152 - 1) / 1152 > fxpUDPMaxFragments
      · simp only [hmax, if_true] at h
        cases h
      · simp only [hmax, if_false] at h
        cases h
        omega

theorem nextFXPUDPSequence_eq {counter sequence : UInt64}
    (h : nextFXPUDPSequence counter = .ok sequence) : sequence.toNat = counter.toNat + 1 := by
  unfold nextFXPUDPSequence at h
  split at h
  · cases h
  · rename_i hne
    cases h
    have hlt := counter.toNat_lt
    have hmax : counter.toNat ≠ 2^64 - 1 := fun he => hne (UInt64.toNat_inj.mp he)
    rw [UInt64.toNat_add]
    simp only [UInt64.reduceToNat]
    omega

@[simp] theorem fragmentAt_context (packet : Packet) (sequence : UInt64) (count index : Nat) :
    (fragmentAt packet sequence count index).context = packet.context := by
  unfold fragmentAt
  dsimp only
  split <;> rfl

@[simp] theorem fragmentAt_sequence (packet : Packet) (sequence : UInt64) (count index : Nat) :
    (fragmentAt packet sequence count index).sequence = sequence := by
  unfold fragmentAt
  dsimp only
  split <;> rfl

theorem sealFragments_prefix (codec : Codec) (fragments : List Packet) :
    (sealFragments codec fragments).1 <+: fragments := by
  induction fragments with
  | nil => exact List.prefix_rfl
  | cons fragment rest ih =>
    unfold sealFragments
    split
    · exact List.nil_prefix
    · split
      · exact (List.prefix_cons_inj fragment).mpr List.nil_prefix
      · exact (List.prefix_cons_inj fragment).mpr ih

theorem fragmentAt_nodup {count : Nat} (packet : Packet) (sequence : UInt64)
    (hcount : count ≤ fxpUDPMaxFragments) :
    (((List.range count).map (fragmentAt packet sequence count)).map Packet.fragment).Nodup := by
  rw [List.map_map]
  refine List.Nodup.map_on ?_ List.nodup_range
  intro i hi j hj h
  rw [List.mem_range] at hi hj
  have hmax : fxpUDPMaxFragments = 57 := rfl
  by_cases hc : count > 1
  · simp only [Function.comp, fragmentAt, hc, if_true] at h
    have := congrArg UInt8.toNat h
    rw [UInt8.toNat_ofNat', UInt8.toNat_ofNat'] at this
    omega
  · omega

/-- What sealing one datagram does: either it takes no sequence and seals nothing,
or it takes the next one and every packet it seals has that sequence, the
datagram's context and its own fragment index. -/
theorem sealFXPUDPDatagramsWithCodec_cases (packet : Packet) (codec : Codec) (counter : UInt64) :
    let r := sealFXPUDPDatagramsWithCodec packet codec counter
    (r.counter = counter ∧ r.packets = []) ∨
    (r.counter.toNat = counter.toNat + 1 ∧
      (∀ p ∈ r.packets, p.context = codec.context ∧ p.sequence = r.counter) ∧
      (r.packets.map Packet.fragment).Nodup) := by
  intro r
  have hr : r = sealFXPUDPDatagramsWithCodec packet codec counter := rfl
  unfold sealFXPUDPDatagramsWithCodec at hr
  split at hr
  · exact .inl ⟨by rw [hr], by rw [hr]⟩
  split at hr
  · exact .inl ⟨by rw [hr], by rw [hr]⟩
  rename_i hmatches
  cases hcount : fxpUDPFragmentCount packet.payload.length with
  | error e =>
    simp only [hcount] at hr
    exact .inl ⟨by rw [hr], by rw [hr]⟩
  | ok count =>
    cases hseq : nextFXPUDPSequence counter with
    | error e =>
      simp only [hcount, hseq] at hr
      exact .inl ⟨by rw [hr], by rw [hr]⟩
    | ok sequence =>
      simp only [hcount, hseq] at hr
      have hpre := sealFragments_prefix codec
        ((List.range count).map (fragmentAt packet sequence count))
      rw [hr]
      refine .inr ⟨nextFXPUDPSequence_eq hseq, ?_, ?_⟩
      · intro p hp
        obtain ⟨index, -, rfl⟩ := List.mem_map.mp (hpre.subset hp)
        rw [fragmentAt_context, fragmentAt_sequence]
        simpa [Codec.matches] using hmatches
      · have hnodup := fragmentAt_nodup packet sequence (fxpUDPFragmentCount_bounds hcount).2
        exact (hpre.map Packet.fragment).sublist.nodup hnodup

end ForwardX.Udp
