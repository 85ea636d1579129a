import ForwardX.Fxp.ProxyProtocol

/- A PROXY header that is written is read back, however the connection cuts it and what
   follows: the loops that read more stop with the whole header in the buffer
   (`readMoreV1_spec`, `readMoreV2_spec`), and a buffer that starts with it parses to the
   hello's addresses and leaves the rest (`consumeV1_format`, `consumeV2_header`). -/
namespace ForwardX.Fxp
open Wire AsciiText NetAddress

/-! ## What a connection still delivers -/

def ProxyConn.pending (c : ProxyConn) : Bytes := c.segments.flatten

def ProxyConn.Proper (c : ProxyConn) : Prop := ∀ segment ∈ c.segments, segment ≠ []

instance (c : ProxyConn) : Decidable c.Proper :=
  inferInstanceAs (Decidable (∀ segment ∈ c.segments, segment ≠ []))

variable {c : ProxyConn}

theorem ProxyConn.read_spec (h : c.Proper) (hpending : c.pending ≠ []) {limit : Nat} (hlimit : 0 < limit) :
    ∃ (more : Bytes) (c' : ProxyConn),
    c.read limit = (more, none, c') ∧ more ≠ [] ∧ more ++ c'.pending = c.pending ∧ c'.Proper := by
  obtain ⟨segments, err⟩ := c
  cases segments with
  | nil => exact absurd rfl hpending
  | cons segment rest =>
    have hsegment : segment ≠ [] := h segment List.mem_cons_self
    have hrest : ∀ s ∈ rest, s ≠ [] := fun s hs => h s (List.mem_cons_of_mem segment hs)
    unfold ProxyConn.read
    dsimp only
    split
    · exact ⟨segment, ⟨rest, err⟩, rfl, hsegment, rfl, hrest⟩
    next hlong =>
      refine ⟨segment.take limit, ⟨segment.drop limit :: rest, err⟩, rfl, ?_, ?_, ?_⟩
      · intro hnil
        obtain hzero | hempty := List.take_eq_nil_iff.mp hnil
        · omega
        · exact hsegment hempty
      · simp only [ProxyConn.pending, List.flatten_cons]
        rw [← List.append_assoc, List.take_append_drop]
      · intro s hs
        obtain rfl | hs := List.mem_cons.mp hs
        · intro hnil
          have := List.drop_eq_nil_iff.mp hnil
          omega
        · exact hrest s hs

theorem readMoreV2_spec {need : Nat} (incomplete : String) {whole : Bytes} (hwhole : need ≤ whole.length) (fuel : Nat)
    {buf : Bytes} (hfuel : need ≤ fuel + buf.length) (h : c.Proper) (hstream : buf ++ c.pending = whole) :
    ∃ (buf' : Bytes) (c' : ProxyConn),
    readMoreV2 need incomplete fuel buf c = (.ok buf', c') ∧ buf' ++ c'.pending = whole ∧
      need ≤ buf'.length ∧ c'.Proper := by
  induction fuel generalizing buf c with
  | zero => exact ⟨buf, c, rfl, hstream, by omega, h⟩
  | succ fuel ih =>
    rw [readMoreV2]
    split
    next hshort =>
      have hpending : c.pending ≠ [] := by
        intro hnil
        rw [hnil, List.append_nil] at hstream
        rw [hstream] at hshort
        omega
      obtain ⟨more, c', hread, hmore, hrest, hproper⟩ :=
        c.read_spec h hpending (by omega : 0 < need - buf.length)
      have hpos : 0 < more.length := List.length_pos_of_ne_nil hmore
      rw [hread]
      dsimp only
      rw [if_neg (Nat.ne_of_gt hpos)]
      apply ih
      · rw [List.length_append]
        omega
      · exact hproper
      · rw [List.append_assoc, hrest, hstream]
    next hlong => exact ⟨buf, c, rfl, hstream, by omega, h⟩

/-- The loop for text headers goes on until the line is there: the line ends before the
108 bytes are full. -/
theorem readMoreV1_spec {line payload whole : Bytes} (hwhole : whole = (line ++ lineEnd) ++ payload)
    (hstarts : proxyPrefix <+: whole) (hline : 0x0d ∉ line) (hlength : line.length + 2 < 108) (fuel : Nat) {buf : Bytes}
    (hfuel : 108 ≤ fuel + buf.length) (hbuf : buf ≠ []) (h : c.Proper) (hstream : buf ++ c.pending = whole) :
    ∃ (buf' : Bytes) (c' : ProxyConn),
    readMoreV1 fuel buf c = (.ok buf', c') ∧ buf' ++ c'.pending = whole ∧ line ++ lineEnd <+: buf' := by
  have hend : lineEnd.length = 2 := rfl
  have hheader : line ++ lineEnd <+: whole := ⟨payload, hwhole.symm⟩
  have hindex : ByteSearch.index lineEnd whole = some line.length := by
    rw [hwhole, List.append_assoc]
    exact ByteSearch.index_append hline rfl
  -- a buffer as long as the header starts with it
  have hlong : ∀ buf : Bytes, buf <+: whole → line.length + 2 ≤ buf.length → line ++ lineEnd <+: buf := by
    intro buf hpre hle
    refine List.prefix_of_prefix_length_le hheader hpre ?_
    rw [List.length_append, hend]
    exact hle
  induction fuel generalizing buf c with
  | zero => exact ⟨buf, c, rfl, hstream, hlong buf ⟨_, hstream⟩ (by omega)⟩
  | succ fuel ih =>
    have hpre : buf <+: whole := ⟨_, hstream⟩
    rw [readMoreV1]
    split
    next hmore =>
      obtain ⟨-, hshort, -, hnone⟩ := hmore
      have hpending : c.pending ≠ [] := by
        intro hnil
        rw [hnil, List.append_nil] at hstream
        rw [hstream, hindex] at hnone
        cases hnone
      obtain ⟨more, c', hread, hmore, hrest, hproper⟩ :=
        c.read_spec h hpending (by omega : 0 < 108 - buf.length)
      have hpos : 0 < more.length := List.length_pos_of_ne_nil hmore
      rw [hread]
      dsimp only
      rw [if_neg (Nat.ne_of_gt hpos)]
      apply ih
      · rw [List.length_append]
        omega
      · exact List.append_ne_nil_of_left_ne_nil hbuf _
      · exact hproper
      · rw [List.append_assoc, hrest, hstream]
    next hstop =>
      refine ⟨buf, c, rfl, hstream, hlong buf hpre ?_⟩
      by_contra hshort
      apply hstop
      refine ⟨List.length_pos_of_ne_nil hbuf, by omega, ?_, ?_⟩
      · rw [List.isPrefixOf_iff_prefix, List.isPrefixOf_iff_prefix]
        exact List.prefix_or_prefix_of_prefix hstarts hpre
      · cases hfound : ByteSearch.index lineEnd buf with
        | none => rfl
        | some i =>
          -- a line end in the buffer is that of the header
          have hsame := ByteSearch.index_extend hpre hfound
          have hle := ByteSearch.length_le_of_index hfound
          rw [hindex] at hsame
          obtain rfl := Option.some.inj hsame
          omega

/-! ## Headers of a hello -/

/-- A hello with two addresses of one family in canonical text, and two ports. -/
structure HelloFrame.Addressed (hello : HelloFrame) (src dst : Bytes) : Prop where
  source : Canonical hello.proxySourceIP src
  dest : Canonical hello.proxyDestIP dst
  family : (to4 src).isSome = (to4 dst).isSome
  sourcePort : 1 ≤ hello.proxySourcePort ∧ hello.proxySourcePort ≤ 65535
  destPort : 1 ≤ hello.proxyDestPort ∧ hello.proxyDestPort ≤ 65535

def HelloFrame.proxyInfo (hello : HelloFrame) : ProxyProtocolInfo :=
  ⟨hello.proxySourceIP, hello.proxySourcePort, hello.proxyDestIP, hello.proxyDestPort⟩

theorem trimSpace_canonical {text ip : Bytes} (h : Canonical text ip) : trimSpace text = text :=
  trimSpace_graphic (fun b hb => graphic_of_addressByte (h.text.1.bytes b hb))

theorem helloValues_addressed {hello : HelloFrame} {src dst : Bytes} (h : hello.Addressed src dst) :
    proxyProtocolHelloValues hello = hello.proxyInfo := by
  have hport := h.destPort.1
  unfold proxyProtocolHelloValues
  rw [trimSpace_canonical h.source, trimSpace_canonical h.dest]
  dsimp only
  rw [if_neg h.dest.text.2.1, if_neg (by omega)]
  rfl

/-! ## Text headers -/

theorem atoi_decimal (n : Nat) : atoi (decimal n) = some (n : Int) := by
  have hread := readDecimal_decimal n
  cases hd : decimal n with
  | nil => exact absurd hd (decimal_ne_nil n)
  | cons b s =>
    have hb : isDigit b = true := decimal_digits n b (by rw [hd]; exact List.mem_cons_self)
    rw [hd] at hread
    have hminus : b ≠ 0x2d := by
      rintro rfl
      cases hb
    have hplus : b ≠ 0x2b := by
      rintro rfl
      cases hb
    rw [atoi, if_neg hminus, if_neg hplus, hread]
    rfl

variable {hello : HelloFrame} {src dst : Bytes} {port : Int}

theorem portField_decimal (h : 1 ≤ port ∧ port ≤ 65535) : portField (decimalInt port) = some port := by
  obtain ⟨n, rfl⟩ := Int.eq_ofNat_of_zero_le (by omega : 0 ≤ port)
  show portField (decimal n) = some (n : Int)
  unfold portField
  rw [atoi_decimal]
  dsimp only
  rw [if_neg (by omega)]

theorem decimalInt_graphic (h : 0 ≤ port) : decimalInt port ≠ [] ∧ ∀ b ∈ decimalInt port, graphic b = true := by
  obtain ⟨n, rfl⟩ := Int.eq_ofNat_of_zero_le h
  refine ⟨decimal_ne_nil n, fun b hb => ?_⟩
  have hdigit : isDigit b = true := decimal_digits n b hb
  exact graphic_of_addressByte (by simp [addressByte, isHexDigit, hdigit])

theorem length_decimalInt (h : 1 ≤ port ∧ port ≤ 65535) : (decimalInt port).length ≤ 5 := by
  obtain ⟨n, rfl⟩ := Int.eq_ofNat_of_zero_le (by omega : 0 ≤ port)
  exact length_decimal_le (by decide) (by omega)

/-- The words of a text header. -/
def helloWords (hello : HelloFrame) : List Bytes :=
  [ascii "PROXY",
    if hello.proxySourceIP.contains 0x3a || hello.proxyDestIP.contains 0x3a then ascii "TCP6"
    else ascii "TCP4",
    hello.proxySourceIP, hello.proxyDestIP, decimalInt hello.proxySourcePort,
    decimalInt hello.proxyDestPort]

def helloLine (hello : HelloFrame) : Bytes := [0x20].intercalate (helloWords hello)

theorem formatV1_addressed (h : hello.Addressed src dst) :
    formatProxyProtocolV1 hello = helloLine hello ++ lineEnd := by
  unfold formatProxyProtocolV1
  rw [helloValues_addressed h]
  rfl

theorem helloWords_graphic (h : hello.Addressed src dst) :
    ∀ word ∈ helloWords hello, word ≠ [] ∧ ∀ b ∈ word, graphic b = true := by
  have hliteral : ∀ word ∈ [ascii "PROXY", ascii "TCP6", ascii "TCP4"],
      word ≠ [] ∧ ∀ b ∈ word, graphic b = true := by decide +kernel
  have htext : ∀ {text ip : Bytes}, Canonical text ip → text ≠ [] ∧ ∀ b ∈ text, graphic b = true :=
    fun hc => ⟨hc.text.2.1, fun b hb => graphic_of_addressByte (hc.text.1.bytes b hb)⟩
  have hsp := h.sourcePort
  have hdp := h.destPort
  intro word hword
  simp only [helloWords, List.mem_cons, List.not_mem_nil, or_false] at hword
  obtain rfl | rfl | rfl | rfl | rfl | rfl := hword
  · exact hliteral _ (by simp)
  · split
    · exact hliteral _ (by simp)
    · exact hliteral _ (by simp)
  · exact htext h.source
  · exact htext h.dest
  · exact decimalInt_graphic (by omega)
  · exact decimalInt_graphic (by omega)

/-- The line has no carriage return, and leaves room for its end in the 108 bytes. -/
theorem helloLine_spec (h : hello.Addressed src dst) :
    0x0d ∉ helloLine hello ∧ (helloLine hello).length + 2 < 108 ∧ proxyPrefix <+: helloLine hello := by
  have hwords := helloWords_graphic h
  have hliteral : (ascii "PROXY").length = 5 ∧ (ascii "TCP6").length = 4 ∧ (ascii "TCP4").length = 4 ∧
      ascii "PROXY" ++ [0x20] = proxyPrefix := by decide +kernel
  refine ⟨?_, ?_, ?_⟩
  · intro hmem
    have hall : ∀ words : List Bytes, (∀ word ∈ words, ∀ b ∈ word, graphic b = true) →
        0x0d ∉ [0x20].intercalate words := by
      intro words
      induction words with
      | nil => exact fun _ => List.not_mem_nil
      | cons word words ih =>
        intro hgraphic hmem
        cases words with
        | nil =>
          rw [List.intercalate_singleton] at hmem
          have := hgraphic word List.mem_cons_self _ hmem
          cases this
        | cons next words =>
          rw [List.intercalate_cons_cons] at hmem
          obtain hmem | hmem := List.mem_append.mp hmem
          · obtain hmem | hmem := List.mem_append.mp hmem
            · have := hgraphic word List.mem_cons_self _ hmem
              cases this
            · exact absurd hmem (by decide)
          · exact ih (fun w hw => hgraphic w (List.mem_cons_of_mem word hw)) hmem
    exact hall _ (fun word hword => (hwords word hword).2) hmem
  · have hs := h.source.text.1.length_le
    have hd := h.dest.text.1.length_le
    have hsp := length_decimalInt h.sourcePort
    have hdp := length_decimalInt h.destPort
    have hfamily : ∀ b : Bool, (if b then ascii "TCP6" else ascii "TCP4").length = 4 := by
      intro b
      cases b
      · exact hliteral.2.2.1
      · exact hliteral.2.1
    simp only [helloLine, helloWords, List.intercalate_cons_cons, List.intercalate_singleton,
      List.length_append, List.length_singleton, hfamily, hliteral.1]
    omega
  · rw [helloLine, helloWords, List.intercalate_cons_cons, hliteral.2.2.2]
    exact List.prefix_append _ _

theorem consumeV1_format (h : hello.Addressed src dst) (rest : Bytes) :
    consumeProxyProtocolV1 ((helloLine hello ++ lineEnd) ++ rest) = .ok ⟨hello.proxyInfo, rest, true⟩ := by
  obtain ⟨hline, -, hstarts⟩ := helloLine_spec h
  have hbuffer : proxyPrefix.isPrefixOf ((helloLine hello ++ lineEnd) ++ rest) = true := by
    rw [List.isPrefixOf_iff_prefix, List.append_assoc]
    exact hstarts.trans (List.prefix_append _ _)
  have hindex : ByteSearch.index lineEnd ((helloLine hello ++ lineEnd) ++ rest) =
      some (helloLine hello).length := by
    rw [List.append_assoc]
    exact ByteSearch.index_append hline rfl
  have hdrop : ((helloLine hello ++ lineEnd) ++ rest).drop ((helloLine hello).length + 2) = rest :=
    List.drop_left' (by simp [lineEnd])
  have htake : ((helloLine hello ++ lineEnd) ++ rest).take (helloLine hello).length = helloLine hello := by
    rw [List.append_assoc, List.take_left]
  unfold consumeProxyProtocolV1
  rw [hbuffer, hindex]
  dsimp only [Bool.not_true]
  rw [if_neg (by decide), htake, hdrop, helloLine, fields_join (helloWords_graphic h)]
  have hliteral : ascii "TCP6" ≠ ascii "UNKNOWN" ∧ ascii "TCP4" ≠ ascii "UNKNOWN" := by decide +kernel
  have hsp := portField_decimal h.sourcePort
  have hdp := portField_decimal h.destPort
  unfold consumeFields helloWords
  generalize (hello.proxySourceIP.contains 0x3a || hello.proxyDestIP.contains 0x3a) = colon
  cases colon
  · simp [hliteral, hsp, hdp, HelloFrame.proxyInfo]
  · simp [hliteral, hsp, hdp, HelloFrame.proxyInfo]

/-! ## Binary headers -/

theorem getBE_putPort (h : 1 ≤ port ∧ port ≤ 65535) : (getBE (putPort port) : Int) = port := by
  have hmod : (port % 65536).toNat < 256^2 := by omega
  rw [putPort, getBE_putBE, Nat.mod_eq_of_lt hmod]
  omega

/-- A buffer that starts with a binary header: its family parses its payload. -/
theorem consumeV2_header (familyProtocol : UInt8) (payload rest : Bytes) (h : payload.length < 256^2) :
    consumeProxyProtocolV2 (proxyProtocolV2Signature ++ ([0x21, familyProtocol] ++
      (putBE 2 payload.length ++ (payload ++ rest)))) = consumeFamily familyProtocol payload rest := by
  obtain ⟨hi, lo, hput⟩ : ∃ hi lo, putBE 2 payload.length = [hi, lo] := ⟨_, _, rfl⟩
  have hlength : getBE [hi, lo] = payload.length := by
    rw [← hput, getBE_putBE, Nat.mod_eq_of_lt h]
  have hsignature : proxyProtocolV2Signature.isPrefixOf (proxyProtocolV2Signature ++
      ([0x21, familyProtocol] ++ (putBE 2 payload.length ++ (payload ++ rest)))) = true := by
    rw [List.isPrefixOf_iff_prefix]
    exact List.prefix_append _ _
  unfold consumeProxyProtocolV2
  rw [hsignature, hput]
  simp only [proxyProtocolV2Signature, List.cons_append, List.nil_append, Bool.not_true,
    Bool.false_eq_true, if_false, List.drop_succ_cons, List.drop_zero, List.take_succ_cons,
    List.take_zero, hlength, List.length_cons, List.length_append, List.getD_cons_zero,
    List.getD_cons_succ]
  have hroom : ¬ payload.length + rest.length + 1 + 1 + 1 + 1 + 1 + 1 + 1 + 1 + 1 + 1 + 1 + 1 + 1 + 1 +
      1 + 1 < 16 + payload.length := by omega
  rw [if_neg (by omega), if_neg (by decide), if_neg hroom, if_neg (by decide), if_neg (by decide),
    List.take_left, Nat.add_comm 16 payload.length]
  simp only [List.drop_succ_cons, List.drop_left]

structure BinaryHeader (hello : HelloFrame) (header : Bytes) (familyProtocol : UInt8) (payload : Bytes) :
    Prop where
  header : header = proxyProtocolV2Signature ++ ([0x21, familyProtocol] ++ (putBE 2 payload.length ++ payload))
  short : payload.length < 256^2
  parsed : ∀ rest, consumeFamily familyProtocol payload rest = .ok ⟨hello.proxyInfo, rest, true⟩

theorem addresses_ports (a b p q : Bytes) (hab : a.length = b.length) (hp : p.length = 2)
    (hq : q.length = 2) :
    ((a ++ (b ++ (p ++ q))).take a.length = a) ∧
    ((a ++ (b ++ (p ++ q))).drop a.length).take a.length = b ∧
    ((a ++ (b ++ (p ++ q))).drop (2 * a.length)).take 2 = p ∧
    ((a ++ (b ++ (p ++ q))).drop (2 * a.length + 2)).take 2 = q := by
  have hsplit : a ++ (b ++ (p ++ q)) = (a ++ b) ++ (p ++ q) := by rw [List.append_assoc]
  have hsplit' : a ++ (b ++ (p ++ q)) = (a ++ (b ++ p)) ++ q := by simp only [List.append_assoc]
  refine ⟨List.take_left, ?_, ?_, ?_⟩
  · rw [List.drop_left, List.take_left' hab.symm]
  · rw [hsplit, List.drop_left' (by rw [List.length_append]; omega), List.take_left' hp]
  · rw [hsplit', List.drop_left' (by simp only [List.length_append]; omega),
      List.take_of_length_le (Nat.le_of_eq hq)]

theorem formatV2_addressed (h : hello.Addressed src dst) :
    ∃ familyProtocol payload, BinaryHeader hello (formatProxyProtocolV2 hello) familyProtocol payload := by
  have hsp := getBE_putPort h.sourcePort
  have hdp := getBE_putPort h.destPort
  have hsrc := h.source.2
  have hdst := h.dest.2
  have hfamily := h.family
  have hlen := length_parseIP h.source.1
  have hlen' := length_parseIP h.dest.1
  have hsourcePort := h.sourcePort.1
  have hdestPort := h.destPort.1
  have hports : ¬ (hello.proxySourcePort ≤ 0 ∨ hello.proxyDestPort ≤ 0) := by omega
  have hport : ∀ port, (putPort port).length = 2 := fun _ => rfl
  cases hsrc4 : to4 src with
  | some src4 =>
    cases hdst4 : to4 dst with
    | none =>
      rw [hsrc4, hdst4] at hfamily
      cases hfamily
    | some dst4 =>
      have h4 := length_to4 hsrc4
      have h4' := length_to4 hdst4
      obtain ⟨hfst, hsnd, hthird, hfourth⟩ := addresses_ports src4 dst4 (putPort hello.proxySourcePort)
        (putPort hello.proxyDestPort) (h4.trans h4'.symm) (hport _) (hport _)
      rw [h4] at hfst hsnd hthird hfourth
      have hpayload : (src4 ++ (dst4 ++ (putPort hello.proxySourcePort ++ putPort hello.proxyDestPort))).length
          = 12 := by
        simp only [List.length_append, hport]
        omega
      refine ⟨0x11, src4 ++ (dst4 ++ (putPort hello.proxySourcePort ++ putPort hello.proxyDestPort)),
        ?_, ?_, fun rest => ?_⟩
      · unfold formatProxyProtocolV2
        rw [helloValues_addressed h]
        simp only [HelloFrame.proxyInfo, h.source.1, h.dest.1, if_neg hports, hsrc4, hdst4, hpayload]
      · rw [hpayload]
        decide
      · unfold consumeFamily
        rw [if_pos rfl, if_neg (by omega), hfst, hsnd, hthird, hfourth, ipString_to4 hsrc4,
          ipString_to4 hdst4, hsrc, hdst, hsp, hdp]
        rfl
  | none =>
    cases hdst4 : to4 dst with
    | some dst4 =>
      rw [hsrc4, hdst4] at hfamily
      cases hfamily
    | none =>
      have h16 : to16 src = some src := by
        unfold to16
        rw [if_neg (by omega), if_pos hlen]
      have h16' : to16 dst = some dst := by
        unfold to16
        rw [if_neg (by omega), if_pos hlen']
      obtain ⟨hfst, hsnd, hthird, hfourth⟩ := addresses_ports src dst (putPort hello.proxySourcePort)
        (putPort hello.proxyDestPort) (hlen.trans hlen'.symm) (hport _) (hport _)
      rw [hlen] at hfst hsnd hthird hfourth
      have hpayload : (src ++ (dst ++ (putPort hello.proxySourcePort ++ putPort hello.proxyDestPort))).length
          = 36 := by
        simp only [List.length_append, hport]
        omega
      refine ⟨0x21, src ++ (dst ++ (putPort hello.proxySourcePort ++ putPort hello.proxyDestPort)),
        ?_, ?_, fun rest => ?_⟩
      · unfold formatProxyProtocolV2
        rw [helloValues_addressed h]
        simp only [HelloFrame.proxyInfo, h.source.1, h.dest.1, if_neg hports, hsrc4, hdst4, h16, h16',
          hpayload]
      · rw [hpayload]
        decide
      · unfold consumeFamily
        rw [if_neg (by decide), if_pos rfl, if_neg (by omega), hfst, hsnd, hthird, hfourth, hsrc, hdst,
          hsp, hdp]
        rfl

/-! ## The round trip -/

theorem consumeFromConn_v1 (h : hello.Addressed src dst) {first payload : Bytes} (hfirst : first ≠ []) (hc : c.Proper)
    (hstream : first ++ c.pending = formatProxyProtocolV1 hello ++ payload) : ∃ (remaining : Bytes) (c' : ProxyConn),
      consumeProxyProtocolFromConn first c = (.ok ⟨hello.proxyInfo, remaining, true⟩, c') ∧
      remaining ++ c'.pending = payload := by
  obtain ⟨hline, hlength, hstarts⟩ := helloLine_spec h
  rw [formatV1_addressed h] at hstream
  have hwhole : proxyPrefix <+: (helloLine hello ++ lineEnd) ++ payload := by
    rw [List.append_assoc]
    exact hstarts.trans (List.prefix_append _ _)
  obtain ⟨buf, c', hread, hrest, tail, rfl⟩ :=
    readMoreV1_spec rfl hwhole hline hlength 108 (by omega) hfirst hc hstream
  have hstart : (proxyPrefix.isPrefixOf first || first.isPrefixOf proxyPrefix) = true := by
    rw [Bool.or_eq_true, List.isPrefixOf_iff_prefix, List.isPrefixOf_iff_prefix]
    exact List.prefix_or_prefix_of_prefix hwhole ⟨_, hstream⟩
  refine ⟨tail, c', ?_, ?_⟩
  · unfold consumeProxyProtocolFromConn consumeProxyProtocolV1FromConn
    rw [if_neg (Nat.ne_of_gt (List.length_pos_of_ne_nil hfirst)), if_pos hstart, hread]
    dsimp only
    rw [consumeV1_format h]
  · rw [List.append_assoc] at hrest
    exact List.append_cancel_left hrest

theorem consumeFromConn_v2 {header : Bytes} {familyProtocol : UInt8} {body : Bytes}
    (h : BinaryHeader hello header familyProtocol body) {first payload : Bytes} (hfirst : first ≠ []) (hc : c.Proper)
    (hstream : first ++ c.pending = header ++ payload) : ∃ (remaining : Bytes) (c' : ProxyConn),
      consumeProxyProtocolFromConn first c = (.ok ⟨hello.proxyInfo, remaining, true⟩, c') ∧
      remaining ++ c'.pending = payload := by
  have hheader := h.header
  have hput : (putBE 2 body.length).length = 2 := rfl
  have hlength : header.length = 16 + body.length := by
    rw [hheader]
    simp only [List.length_append, hput, proxyProtocolV2Signature, List.length_cons, List.length_nil]
    omega
  have hsignature : proxyProtocolV2Signature <+: header ++ payload := by
    rw [hheader, List.append_assoc]
    exact List.prefix_append _ _
  -- a carriage return starts no text header
  obtain ⟨b, first', rfl⟩ := List.exists_cons_of_ne_nil hfirst
  have hb : b = 0x0d := by
    have hhead := congrArg List.head? hstream
    rw [hheader] at hhead
    exact Option.some.inj hhead
  have hletter : proxyPrefix = 0x50 :: ascii "ROXY " := by decide +kernel
  have htext : (proxyPrefix.isPrefixOf (b :: first') || (b :: first').isPrefixOf proxyPrefix) = false := by
    rw [hb, hletter]
    rfl
  have hbinary : (proxyProtocolV2Signature.isPrefixOf (b :: first') ||
      (b :: first').isPrefixOf proxyProtocolV2Signature) = true := by
    rw [Bool.or_eq_true, List.isPrefixOf_iff_prefix, List.isPrefixOf_iff_prefix]
    exact List.prefix_or_prefix_of_prefix hsignature ⟨_, hstream⟩
  have hwhole : (header ++ payload).length = 16 + body.length + payload.length := by
    rw [List.length_append, hlength]
  obtain ⟨buf, c', hread, hrest, hneed, hproper⟩ := readMoreV2_spec "incomplete proxy protocol v2 header"
    (by omega : 16 ≤ (header ++ payload).length) 16 (by omega) hc hstream
  -- the length field is in the first 16 bytes
  have hfield : getBE ((buf.drop 14).take 2) = body.length := by
    have hsame : (buf.drop 14).take 2 = ((header ++ payload).drop 14).take 2 := by
      rw [← hrest, List.drop_append_of_le_length (by omega), List.take_append_of_le_length]
      rw [List.length_drop]
      omega
    rw [hsame, hheader, List.append_assoc, List.append_assoc, List.append_assoc]
    show getBE ((putBE 2 body.length ++ (body ++ payload)).take 2) = body.length
    rw [List.take_left' hput, getBE_putBE, Nat.mod_eq_of_lt h.short]
  obtain ⟨buf', c'', hread', hrest', hneed', -⟩ := readMoreV2_spec "incomplete proxy protocol v2 payload"
    (by omega : 16 + body.length ≤ (header ++ payload).length) (16 + body.length) (by omega) hproper hrest
  obtain ⟨tail, rfl⟩ : header <+: buf' :=
    List.prefix_of_prefix_length_le (List.prefix_append _ _) ⟨_, hrest'⟩ (by omega)
  refine ⟨tail, c'', ?_, ?_⟩
  · unfold consumeProxyProtocolFromConn
    rw [if_neg (by simp), htext, if_neg (by decide), if_pos hbinary, hread]
    dsimp only
    rw [hfield, hread']
    dsimp only
    have hproxy : proxyPrefix.isPrefixOf (header ++ tail) = false := by
      rw [hheader, hletter]
      rfl
    have hsig : proxyProtocolV2Signature.isPrefixOf (header ++ tail) = true := by
      rw [List.isPrefixOf_iff_prefix, hheader, List.append_assoc]
      exact List.prefix_append _ _
    unfold consumeProxyProtocol
    rw [hproxy, if_neg (by decide), if_pos hsig, hheader]
    have hparse := consumeV2_header familyProtocol body tail h.short
    simp only [List.append_assoc] at hparse ⊢
    rw [hparse, h.parsed]
  · rw [List.append_assoc] at hrest'
    exact List.append_cancel_left hrest'

/-- For every hello with two canonical addresses of one family and two ports, in both
versions, however the header and the payload behind it are cut into segments: the reader
recovers the addresses and the ports, and what it leaves unparsed and unread is the
payload. -/
theorem proxy_protocol_round_trip {hello : HelloFrame} {src dst : Bytes} (h : hello.Addressed src dst)
    {first payload : Bytes} {c : ProxyConn} (hfirst : first ≠ []) (hc : c.Proper)
    (hstream : first ++ c.pending = formatProxyProtocol hello ++ payload) :
    ∃ (remaining : Bytes) (c' : ProxyConn),
      consumeProxyProtocolFromConn first c =
        (.ok ⟨⟨hello.proxySourceIP, hello.proxySourcePort, hello.proxyDestIP, hello.proxyDestPort⟩,
          remaining, true⟩, c') ∧
      remaining ++ c'.pending = payload := by
  unfold formatProxyProtocol at hstream
  split at hstream
  · obtain ⟨familyProtocol, body, hheader⟩ := formatV2_addressed h
    exact consumeFromConn_v2 hheader hfirst hc hstream
  · exact consumeFromConn_v1 h hfirst hc hstream

def exampleHello : HelloFrame :=
  ⟨ascii "10.0.0.9", 443, ascii "192.0.2.7", 50000, ascii "198.51.100.1", 443, 2⟩

/-- The header comes one byte first, then in two segments, the second with the payload. -/
theorem proxy_round_trip_in_segments :
    let header := formatProxyProtocol exampleHello
    let c : ProxyConn := ⟨[(header.drop 1).take 14, header.drop 15 ++ [1, 2, 3]], .timeout⟩
    ∃ (remaining : Bytes) (c' : ProxyConn),
      consumeProxyProtocolFromConn (header.take 1) c =
        (.ok ⟨⟨ascii "192.0.2.7", 50000, ascii "198.51.100.1", 443⟩, remaining, true⟩, c') ∧
      remaining ++ c'.pending = [1, 2, 3] := by
  have haddressed : exampleHello.Addressed (v4InV6Prefix ++ [192, 0, 2, 7]) (v4InV6Prefix ++ [198, 51, 100, 1]) :=
    ⟨⟨by decide +kernel, by decide +kernel⟩, ⟨by decide +kernel, by decide +kernel⟩, by decide +kernel,
      by decide +kernel, by decide +kernel⟩
  exact proxy_protocol_round_trip haddressed (by decide +kernel) (by decide +kernel) (by decide +kernel)

end ForwardX.Fxp
