import ForwardX.Lib.Gather
import ForwardX.Udp.Packet

/- Sealing and opening are inverse (`udp_direct.go`, `udp_fragment.go`): a header that
   `writeFXPUDPHeader` wrote is what `parseFXPUDPHeader` reads, `openPacket` gives back
   the packet that `sealPacket` took, and a datagram of up to 65507 bytes is sealed as
   packets of at most 1200 bytes, whose payloads in their order are the datagram
   (`sealFXPUDPDatagramsWithCodec_ok`). The header has four bytes for each of the tunnel
   and the rule, so their ids have to fit (`WireContext`). -/
namespace ForwardX.Udp
open Wire Aead Gather

def Codec.openPacket (codec : Codec) (raw : Bytes) : Except String Packet := do
  let packet ← parseFXPUDPHeader raw
  codec.openParsedPacket raw packet

/-- A context that the header carries as it is. -/
structure WireContext (c : Context) : Prop where
  valid : validateFXPUDPContext c = .ok ()
  tunnelID : c.tunnelID < 256^4
  ruleID : c.ruleID < 256^4

/-- A datagram as the callers hand it over: without wire metadata. -/
structure Unsealed (codec : Codec) (packet : Packet) : Prop where
  matching : packet.context = codec.context
  fragment : packet.fragment = 0
  fragments : packet.fragments = 0
  sequence : packet.sequence = 0
  fits : packet.payload.length ≤ fxpUDPMaxDatagramPayload

/-! ## The header -/

theorem validateFXPUDPContext_ok {c : Context} (h : validateFXPUDPContext c = .ok ()) :
    0 ≤ c.tunnelID ∧ 0 ≤ c.ruleID := by
  unfold validateFXPUDPContext at h
  split at h
  · cases h
  split at h
  · cases h
  · rename_i hfields
    rw [not_or, not_or] at hfields
    omega

theorem validateFXPUDPPacket_ok {packet : Packet} (hcontext : validateFXPUDPContext packet.context = .ok ())
    (hsequence : packet.sequence ≠ 0)
    (hfragment : validFXPUDPFragmentMetadata packet.fragment packet.fragments = true) :
    validateFXPUDPPacket packet = .ok () := by
  simp [validateFXPUDPPacket, hcontext, hsequence, hfragment]

theorem writeFXPUDPHeader_ok {packet : Packet} (h : validateFXPUDPPacket packet = .ok ()) :
    writeFXPUDPHeader packet = .ok (fxpUDPMagic ++
      [fxpUDPVersion, packet.context.packetType, packet.fragment, packet.fragments] ++
      putBE 4 packet.context.tunnelID.toNat ++ putBE 4 packet.context.ruleID.toNat ++
      putBE 8 packet.context.sessionID.toNat ++ putBE 8 packet.sequence.toNat) := by
  unfold writeFXPUDPHeader
  rw [h]
  rfl

theorem slice_append {a b c : Bytes} {i j : Nat} (hi : a.length = i) (hj : i + b.length = j) :
    slice (a ++ (b ++ c)) i j = b := by
  have hlen : j - i = b.length := by omega
  rw [slice, hlen, ← hi, List.drop_left, List.take_left]

theorem getBE_putBE_id {n : Int} (h₀ : 0 ≤ n) (h : n < 256^4) : (getBE (putBE 4 n.toNat) : Int) = n := by
  rw [getBE_putBE, Nat.mod_eq_of_lt (by omega)]
  omega

theorem getBE_putBE_uint64 (n : UInt64) : UInt64.ofNat (getBE (putBE 8 n.toNat)) = n := by
  have hlt := n.toNat_lt
  rw [getBE_putBE, Nat.mod_eq_of_lt (by omega), UInt64.ofNat_toNat]

theorem parseFXPUDPHeader_append {packet : Packet} {header : Bytes} (text : Bytes)
    (hvalid : validateFXPUDPPacket packet = .ok ()) (hcontext : WireContext packet.context)
    (hheader : writeFXPUDPHeader packet = .ok header) (htext : fxpUDPAuthTagSize ≤ text.length) :
    parseFXPUDPHeader (header ++ text) = .ok { packet with payload := [] } ∧
    header.length = fxpUDPHeaderSize := by
  obtain ⟨htunnel, hrule⟩ := validateFXPUDPContext_ok hcontext.valid
  rw [writeFXPUDPHeader_ok hvalid] at hheader
  obtain rfl := Except.ok.inj hheader
  -- the fields one after the other, as the slices of the parser see them
  generalize hraw : fxpUDPMagic ++
    [fxpUDPVersion, packet.context.packetType, packet.fragment, packet.fragments] ++
    putBE 4 packet.context.tunnelID.toNat ++ putBE 4 packet.context.ruleID.toNat ++
    putBE 8 packet.context.sessionID.toNat ++ putBE 8 packet.sequence.toNat ++ text = raw
  have hlen : raw.length = 32 + text.length := by
    rw [← hraw]
    simp [fxpUDPMagic]
    omega
  have hsmall : ¬ raw.length < fxpUDPHeaderSize + fxpUDPAuthTagSize := by
    rw [hlen]
    exact Nat.not_lt.mpr (Nat.add_le_add_left htext 32)
  have hmagic : fxpUDPHasMagic raw = true := by
    have hsize : fxpUDPHeaderSize ≤ raw.length := by
      rw [hlen]
      exact Nat.le_add_right 32 _
    rw [fxpUDPHasMagic, decide_eq_true hsize, ← hraw]
    rfl
  have hversion : raw.getD 4 0 = fxpUDPVersion := by rw [← hraw]; rfl
  have htype : raw.getD 5 0 = packet.context.packetType := by rw [← hraw]; rfl
  have hfragment : raw.getD 6 0 = packet.fragment := by rw [← hraw]; rfl
  have hfragments : raw.getD 7 0 = packet.fragments := by rw [← hraw]; rfl
  have htunnelID : (getBE (slice raw 8 12) : Int) = packet.context.tunnelID := by
    rw [← hraw]
    simp only [List.append_assoc]
    rw [← List.append_assoc, slice_append (by simp [fxpUDPMagic]) (by simp)]
    exact getBE_putBE_id htunnel hcontext.tunnelID
  have hruleID : (getBE (slice raw 12 16) : Int) = packet.context.ruleID := by
    rw [← hraw]
    simp only [List.append_assoc]
    rw [← List.append_assoc, ← List.append_assoc, slice_append (by simp [fxpUDPMagic]) (by simp)]
    exact getBE_putBE_id hrule hcontext.ruleID
  have hsession : UInt64.ofNat (getBE (slice raw 16 24)) = packet.context.sessionID := by
    rw [← hraw]
    simp only [List.append_assoc]
    rw [← List.append_assoc, ← List.append_assoc, ← List.append_assoc,
      slice_append (by simp [fxpUDPMagic]) (by simp)]
    exact getBE_putBE_uint64 _
  have hsequence : UInt64.ofNat (getBE (slice raw 24 32)) = packet.sequence := by
    rw [← hraw]
    simp only [List.append_assoc]
    rw [← List.append_assoc, ← List.append_assoc, ← List.append_assoc, ← List.append_assoc,
      slice_append (by simp [fxpUDPMagic]) (by simp)]
    exact getBE_putBE_uint64 _
  have hagain : validateFXPUDPPacket { packet with payload := [] } = .ok () := hvalid
  constructor
  · unfold parseFXPUDPHeader
    rw [if_neg hsmall, hmagic, hversion, htype, hfragment, hfragments, htunnelID, hruleID, hsession,
      hsequence]
    simp only [Bool.not_true, bne_self_eq_false, Bool.or_self, Bool.false_eq_true, if_false]
    rw [hagain]
    rfl
  · simp [fxpUDPMagic, fxpUDPHeaderSize]

/-! ## One packet -/

variable {packet : Packet} {codec : Codec}

/-- What `sealPacket` makes of a valid packet opens to it and is 48 bytes longer than its
payload. -/
theorem Codec.openPacket_sealPacket (hmatches : packet.context = codec.context) (hcontext : WireContext codec.context)
    (hvalid : validateFXPUDPPacket packet = .ok ()) (hsize : packet.payload.length ≤ fxpUDPMaxSinglePayload) :
    ∃ frame, codec.sealPacket packet = .ok frame ∧ codec.openPacket frame = .ok packet ∧
      frame.length = fxpUDPHeaderSize + packet.payload.length + fxpUDPAuthTagSize := by
  rw [← hmatches] at hcontext
  have hheader := writeFXPUDPHeader_ok hvalid
  generalize fxpUDPMagic ++ [fxpUDPVersion, packet.context.packetType, packet.fragment, packet.fragments] ++
    putBE 4 packet.context.tunnelID.toNat ++ putBE 4 packet.context.ruleID.toNat ++
    putBE 8 packet.context.sessionID.toNat ++ putBE 8 packet.sequence.toNat = header at hheader
  let nonce := fillFXPUDPNonce packet.sequence packet.fragment
  let text := codec.aead.sealText nonce packet.payload header
  have htext : text.length = packet.payload.length + 16 := codec.aead.sealText_length _ _ _
  obtain ⟨hparse, hlen⟩ := parseFXPUDPHeader_append text hvalid hcontext hheader
    (by rw [htext]; exact Nat.le_add_left _ _)
  have hmatch : codec.matches packet = true := decide_eq_true hmatches
  have hopen : codec.aead.openText nonce text header = some packet.payload :=
    codec.aead.openText_sealText nonce packet.payload header
  refine ⟨header ++ text, ?_, ?_, ?_⟩
  · simp only [Codec.sealPacket, hmatch, hheader, Nat.not_lt.mpr hsize]
    rfl
  · have hbody : (header ++ text).drop fxpUDPHeaderSize = text := by rw [← hlen, List.drop_left]
    have hhead : (header ++ text).take fxpUDPHeaderSize = header := by rw [← hlen, List.take_left]
    have hagain : codec.matches { packet with payload := [] } = true := hmatch
    unfold Codec.openPacket
    rw [hparse]
    show codec.openParsedPacket (header ++ text) { packet with payload := [] } = .ok packet
    unfold Codec.openParsedPacket
    rw [hagain, hbody, hhead]
    simp only [Bool.not_true, Bool.false_eq_true, if_false]
    rw [hopen]
  · rw [List.length_append, hlen, htext, Nat.add_assoc]
    rfl

/-! ## All fragments of a datagram -/

/-- A datagram that is not too large has as many fragments as it has pieces. -/
theorem fxpUDPFragmentCount_ok {size : Nat} (h : size ≤ fxpUDPMaxDatagramPayload) :
    ∃ count, fxpUDPFragmentCount size = .ok count ∧ size ≤ count * fxpUDPFragmentPayloadSize ∧
      (1 < count → (count - 1) * fxpUDPFragmentPayloadSize < size) := by
  have hpiece : fxpUDPFragmentPayloadSize = 1152 := rfl
  have hlimit : fxpUDPMaxDatagramPayload = 65507 := rfl
  have hmost : fxpUDPMaxFragments = 57 := rfl
  unfold fxpUDPFragmentCount
  rw [if_neg (Nat.not_lt.mpr h), hpiece, hmost]
  rw [hlimit] at h
  by_cases hone : size ≤ 1152
  · rw [if_pos hone]
    exact ⟨1, rfl, by omega, fun hlt => absurd hlt (Nat.lt_irrefl 1)⟩
  · rw [if_neg hone]
    dsimp only
    have hfew : ¬ (size + 1152 - 1) / 1152 > 57 := by omega
    rw [if_neg hfew]
    exact ⟨_, rfl, by omega, fun _ => by omega⟩

theorem fragmentAt_payload (packet : Packet) (sequence : UInt64) (count index : Nat) :
    (fragmentAt packet sequence count index).payload =
      piece fxpUDPFragmentPayloadSize packet.payload index := by
  unfold fragmentAt
  dsimp only
  split
  · rfl
  · rfl

theorem fragmentAt_of_many (packet : Packet) (sequence : UInt64) {count index : Nat}
    (hmany : 1 < count) (hmax : count ≤ fxpUDPMaxFragments) (hindex : index < count) :
    (fragmentAt packet sequence count index).fragment.toNat = index ∧
    (fragmentAt packet sequence count index).fragments.toNat = count := by
  have hmost : fxpUDPMaxFragments = 57 := rfl
  simp only [fragmentAt, if_pos hmany, UInt8.toNat_ofNat']
  omega

theorem fragmentAt_of_one (h : Unsealed codec packet) (sequence : UInt64) (index : Nat) :
    (fragmentAt packet sequence 1 index).fragment = 0 ∧
    (fragmentAt packet sequence 1 index).fragments = 0 := ⟨h.fragment, h.fragments⟩

theorem fragmentAt_metadata (h : Unsealed codec packet) {sequence : UInt64} {count index : Nat}
    (hmax : count ≤ fxpUDPMaxFragments) (hindex : index < count) :
    validFXPUDPFragmentMetadata (fragmentAt packet sequence count index).fragment
      (fragmentAt packet sequence count index).fragments = true := by
  by_cases hmany : 1 < count
  · obtain ⟨hfragment, hfragments⟩ := fragmentAt_of_many packet sequence hmany hmax hindex
    have hne : (fragmentAt packet sequence count index).fragments ≠ 0 := by
      intro hzero
      rw [hzero] at hfragments
      exact absurd hfragments (Nat.ne_of_lt (Nat.lt_trans Nat.zero_lt_one hmany))
    have htwo : (2 : UInt8) ≤ (fragmentAt packet sequence count index).fragments := by
      rw [UInt8.le_iff_toNat_le, hfragments]
      exact hmany
    have hlt : (fragmentAt packet sequence count index).fragment <
        (fragmentAt packet sequence count index).fragments := by
      rw [UInt8.lt_iff_toNat_lt, hfragment, hfragments]
      exact hindex
    rw [validFXPUDPFragmentMetadata, if_neg hne, hfragments]
    simp [htwo, hmax, hlt]
  · obtain rfl : count = 1 := by omega
    obtain ⟨hfragment, hfragments⟩ := fragmentAt_of_one h sequence index
    rw [hfragment, hfragments]
    decide

/-- The loop seals every packet when each of them can be sealed within the wire limit. -/
theorem sealFragments_ok (codec : Codec) (fragments : List Packet)
    (h : ∀ p ∈ fragments, ∃ frame, codec.sealPacket p = .ok frame ∧
      codec.openPacket frame = .ok p ∧ frame.length ≤ fxpUDPMaxWirePacketSize) :
    ∃ frames, sealFragments codec fragments = (fragments, .ok frames) ∧
      List.Forall₂ (fun p frame => codec.openPacket frame = .ok p ∧
        frame.length ≤ fxpUDPMaxWirePacketSize) fragments frames := by
  induction fragments with
  | nil => exact ⟨[], rfl, List.Forall₂.nil⟩
  | cons fragment rest ih =>
    obtain ⟨frame, hseal, hopen, hlen⟩ := h fragment List.mem_cons_self
    obtain ⟨frames, hrest, hall⟩ := ih (fun p hp => h p (List.mem_cons_of_mem _ hp))
    refine ⟨frame :: frames, ?_, List.Forall₂.cons ⟨hopen, hlen⟩ hall⟩
    simp only [sealFragments, hseal, if_neg (Nat.not_lt.mpr hlen), hrest]
    rfl

/-- A datagram of up to 65507 bytes is sealed: it takes the next sequence, and its frames
open to its fragments. -/
theorem sealFXPUDPDatagramsWithCodec_ok {counter : UInt64} (hcontext : WireContext codec.context)
    (h : Unsealed codec packet) (hcounter : counter ≠ maxUint64) :
    ∃ count frames, fxpUDPFragmentCount packet.payload.length = .ok count ∧
      sealFXPUDPDatagramsWithCodec packet codec counter =
        ⟨counter + 1, (List.range count).map (fragmentAt packet (counter + 1) count), .ok frames⟩ ∧
      List.Forall₂ (fun p frame => codec.openPacket frame = .ok p ∧
          frame.length ≤ fxpUDPMaxWirePacketSize)
        ((List.range count).map (fragmentAt packet (counter + 1) count)) frames := by
  obtain ⟨count, hcount, -, -⟩ := fxpUDPFragmentCount_ok h.fits
  obtain ⟨-, hmax⟩ := fxpUDPFragmentCount_bounds hcount
  have hnext : nextFXPUDPSequence counter = .ok (counter + 1) := by
    rw [nextFXPUDPSequence, if_neg hcounter]
  have hsequence : counter + 1 ≠ 0 := by
    have hval := nextFXPUDPSequence_eq hnext
    intro hzero
    rw [hzero] at hval
    exact absurd hval (Nat.ne_of_lt (Nat.succ_pos _))
  obtain ⟨frames, hseal, hall⟩ := sealFragments_ok codec
    ((List.range count).map (fragmentAt packet (counter + 1) count)) (by
      intro p hp
      obtain ⟨index, hindex, rfl⟩ := List.mem_map.mp hp
      have hmatches : (fragmentAt packet (counter + 1) count index).context = codec.context := by
        rw [fragmentAt_context, h.matching]
      have hvalid : validateFXPUDPPacket (fragmentAt packet (counter + 1) count index) = .ok () := by
        apply validateFXPUDPPacket_ok
        · rw [hmatches]
          exact hcontext.valid
        · rw [fragmentAt_sequence]
          exact hsequence
        · exact fragmentAt_metadata h hmax (List.mem_range.mp hindex)
      have hpiece : (fragmentAt packet (counter + 1) count index).payload.length
          ≤ fxpUDPFragmentPayloadSize := by
        rw [fragmentAt_payload]
        exact length_piece_le _ _ _
      obtain ⟨frame, hframe, hopen, hlen⟩ := Codec.openPacket_sealPacket hmatches hcontext hvalid
        (Nat.le_trans hpiece (by decide))
      refine ⟨frame, hframe, hopen, ?_⟩
      rw [hlen]
      exact Nat.add_le_add_right (Nat.add_le_add_left hpiece _) _)
  refine ⟨count, frames, hcount, ?_, hall⟩
  have hmatch : codec.matches packet = true := decide_eq_true h.matching
  have hbare : ¬ (packet.fragment ≠ 0 ∨ packet.fragments ≠ 0 ∨ packet.sequence ≠ 0) := by
    simp [h.fragment, h.fragments, h.sequence]
  unfold sealFXPUDPDatagramsWithCodec
  rw [if_neg hbare, hmatch]
  simp only [Bool.not_true, Bool.false_eq_true, if_false]
  rw [hcount, hnext]
  dsimp only
  rw [hseal]

theorem flatten_fragments {count : Nat} (sequence : UInt64) (h : fxpUDPFragmentCount packet.payload.length = .ok count)
    (hfits : packet.payload.length ≤ fxpUDPMaxDatagramPayload) :
    (((List.range count).map (fragmentAt packet sequence count)).map Packet.payload).flatten =
      packet.payload := by
  obtain ⟨count', hcount, hsize, -⟩ := fxpUDPFragmentCount_ok hfits
  obtain rfl : count' = count := Except.ok.inj (hcount.symm.trans h)
  have hpieces : Packet.payload ∘ fragmentAt packet sequence count' =
      piece fxpUDPFragmentPayloadSize packet.payload :=
    funext fun index => fragmentAt_payload packet sequence count' index
  rw [List.map_map, hpieces, flatten_pieces hsize]

/-! ## Datagrams one after the other -/

/-- A datagram on its way: its sequence, its payload and its frames. -/
structure Transmission where
  sequence : UInt64
  payload : Bytes
  frames : List Bytes
  deriving DecidableEq, Repr

/-- Datagrams sealed one after the other, with one counter. -/
def transmit (codec : Codec) : UInt64 → List Packet → Except String (List Transmission)
  | _, [] => .ok []
  | counter, packet :: rest =>
    let r := sealFXPUDPDatagramsWithCodec packet codec counter
    match r.frames with
    | .error e => .error e
    | .ok frames => (transmit codec r.counter rest).map (⟨r.counter, packet.payload, frames⟩ :: ·)

/-- What the frames of a transmission carry: the fragments of its payload, in their
order, under its sequence. -/
structure Carried (codec : Codec) (t : Transmission) (fragments : List Packet) : Prop where
  opens : List.Forall₂ (fun p frame => codec.openPacket frame = .ok p ∧
    frame.length ≤ fxpUDPMaxWirePacketSize) fragments t.frames
  sequence : ∀ p ∈ fragments, p.sequence = t.sequence
  payload : (fragments.map Packet.payload).flatten = t.payload
  size : t.payload.length ≤ fxpUDPMaxDatagramPayload
  shape : (∃ p, fragments = [p] ∧ p.fragment = 0 ∧ p.fragments = 0) ∨
    (2 ≤ fragments.length ∧ ∀ (i : Nat) (p : Packet), fragments[i]? = some p →
      p.fragment.toNat = i ∧ p.fragments.toNat = fragments.length ∧
      validFXPUDPFragmentMetadata p.fragment p.fragments = true ∧
      0 < p.payload.length ∧ p.payload.length ≤ fxpUDPFragmentPayloadSize)

theorem carried_of_sealed {sequence : UInt64} {count : Nat} {frames : List Bytes} (h : Unsealed codec packet)
    (hcount : fxpUDPFragmentCount packet.payload.length = .ok count)
    (hframes : List.Forall₂ (fun p frame => codec.openPacket frame = .ok p ∧
        frame.length ≤ fxpUDPMaxWirePacketSize)
      ((List.range count).map (fragmentAt packet sequence count)) frames) :
    Carried codec ⟨sequence, packet.payload, frames⟩
      ((List.range count).map (fragmentAt packet sequence count)) where
  opens := hframes
  sequence p hp := by
    obtain ⟨index, -, rfl⟩ := List.mem_map.mp hp
    exact fragmentAt_sequence packet sequence count index
  payload := flatten_fragments sequence hcount h.fits
  size := h.fits
  shape := by
    obtain ⟨hmin, hmax⟩ := fxpUDPFragmentCount_bounds hcount
    obtain ⟨count', hcount', -, hlast⟩ := fxpUDPFragmentCount_ok h.fits
    obtain rfl : count' = count := Except.ok.inj (hcount'.symm.trans hcount)
    by_cases hmany : 1 < count'
    · right
      rw [List.length_map, List.length_range]
      refine ⟨hmany, fun i p hp => ?_⟩
      rw [List.getElem?_map] at hp
      obtain ⟨index, hindex, rfl⟩ := Option.map_eq_some_iff.mp hp
      obtain ⟨hlt, hval⟩ := List.getElem?_eq_some_iff.mp hindex
      rw [List.length_range] at hlt
      rw [List.getElem_range] at hval
      subst hval
      obtain ⟨hfragment, hfragments⟩ := fragmentAt_of_many packet sequence hmany hmax hlt
      refine ⟨hfragment, hfragments, fragmentAt_metadata h hmax hlt, ?_, ?_⟩
      · rw [fragmentAt_payload]
        refine length_piece_pos (by decide) (Nat.lt_of_le_of_lt ?_ (hlast hmany))
        exact Nat.mul_le_mul_right _ (by omega)
      · rw [fragmentAt_payload]
        exact length_piece_le _ _ _
    · obtain rfl : count' = 1 := by omega
      exact .inl ⟨fragmentAt packet sequence 1 0, rfl, fragmentAt_of_one h sequence 0⟩

/-- Every list of datagrams is transmitted, as long as the counter lasts: each gets a
sequence of its own above the counter. -/
theorem transmit_ok (hcontext : WireContext codec.context) {packets : List Packet} {counter : UInt64}
    (h : ∀ packet ∈ packets, Unsealed codec packet) (hcounter : counter.toNat + packets.length ≤ maxUint64.toNat) :
    ∃ ts, transmit codec counter packets = .ok ts ∧ ts.map Transmission.payload = packets.map Packet.payload ∧
      (ts.map Transmission.sequence).Nodup ∧ (∀ t ∈ ts, counter.toNat < t.sequence.toNat) ∧
      ∀ t ∈ ts, ∃ fragments, Carried codec t fragments := by
  induction packets generalizing counter with
  | nil => exact ⟨[], rfl, rfl, List.nodup_nil, fun t ht => (List.not_mem_nil ht).elim,
      fun t ht => (List.not_mem_nil ht).elim⟩
  | cons packet rest ih =>
    rw [List.length_cons] at hcounter
    have hunsealed := h packet List.mem_cons_self
    have hleft : counter ≠ maxUint64 := by
      rintro rfl
      omega
    obtain ⟨count, frames, hcount, hseal, hframes⟩ :=
      sealFXPUDPDatagramsWithCodec_ok hcontext hunsealed hleft
    have hnext : (counter + 1).toNat = counter.toNat + 1 := by
      apply nextFXPUDPSequence_eq
      rw [nextFXPUDPSequence, if_neg hleft]
    obtain ⟨ts, hts, hpayloads, hnodup, hgt, hcarried⟩ :=
      ih (fun p hp => h p (List.mem_cons_of_mem _ hp)) (by rw [hnext]; omega)
    refine ⟨⟨counter + 1, packet.payload, frames⟩ :: ts, ?_, ?_, ?_, ?_, ?_⟩
    · rw [transmit, hseal]
      dsimp only
      rw [hts]
      rfl
    · rw [List.map_cons, List.map_cons, hpayloads]
    · rw [List.map_cons]
      refine List.nodup_cons.mpr ⟨fun hmem => ?_, hnodup⟩
      obtain ⟨t, ht, heq⟩ := List.mem_map.mp hmem
      have := hgt t ht
      rw [heq] at this
      exact absurd this (Nat.lt_irrefl _)
    · intro t ht
      rcases List.mem_cons.mp ht with rfl | ht
      · show counter.toNat < (counter + 1).toNat
        omega
      · have := hgt t ht
        omega
    · intro t ht
      rcases List.mem_cons.mp ht with rfl | ht
      · exact ⟨_, carried_of_sealed hunsealed hcount hframes⟩
      · exact hcarried t ht

end ForwardX.Udp
