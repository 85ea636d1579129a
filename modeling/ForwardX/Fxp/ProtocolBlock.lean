import ForwardX.Lib.ByteSearch
import ForwardX.Lib.Wire

/- Protocol blocking on the entry of a tunnel (`main.go`, `detectBlockedProtocol`,
   `copyPlainToSecureWithPolicy`, `handleEntryTCP`). The detectors run on every growing
   prefix of a client's bytes, up to 512 of them. A detector that fires on a prefix fires
   on every longer one (`detectBlockedProtocol_extend`), and at most one of them can
   fire, by the first byte (`head_of_detectHTTP`, `head_of_detectTLS`, `head_of_detectSocks`); so the
   verdict is that of the first 512 bytes of the stream, however the reads cut it. -/
namespace ForwardX.Fxp
open Wire

/-! ## The detectors -/

structure ProtocolPolicy where
  blockHTTP : Bool
  blockSocks : Bool
  blockTLS : Bool
  deriving DecidableEq, Repr

def http2Preface : Bytes := "PRI * HTTP/2.0\r\n\r\nSM\r\n\r\n".toUTF8.toList

def shortestRequestLine : Bytes := "GET / HTTP/1.0\r\n".toUTF8.toList

def crlf : Bytes := [0x0d, 0x0a]

def httpMethods : List Bytes :=
  ["GET", "POST", "PUT", "DELETE", "HEAD", "OPTIONS", "PATCH", "CONNECT", "TRACE"].map
    fun method => method.toUTF8.toList

def httpVersions : List Bytes := ["HTTP/1.0", "HTTP/1.1"].map fun version => version.toUTF8.toList

/-- `bytes.ToLower`, of ASCII. -/
def toLowerASCII (data : Bytes) : Bytes :=
  data.map fun value => if 0x41 ≤ value ∧ value ≤ 0x5a then value + 0x20 else value

def validHTTPRequestTarget (method target : Bytes) : Bool :=
  if target.length = 0 then false
  else if target.any fun value => value < 0x21 || value > 0x7e then false
  else if method = "CONNECT".toUTF8.toList then target.contains 0x3a
  else if target = "*".toUTF8.toList then method = "OPTIONS".toUTF8.toList
  else if target.head? = some 0x2f then true
  else
    let lower := toLowerASCII target
    "http://".toUTF8.toList.isPrefixOf lower || "https://".toUTF8.toList.isPrefixOf lower

/-- The checks of a request line. -/
def validRequestLine (line : Bytes) : Bool :=
  match line.splitOn 0x20 with
  | [method, target, version] =>
    httpMethods.contains method && httpVersions.contains version && validHTTPRequestTarget method target
  | _ => false

def detectHTTPProtocol (data : Bytes) : Bool :=
  if http2Preface.isPrefixOf data then true
  else
    let limit := min data.length 256
    if limit < shortestRequestLine.length then false
    else
      match ByteSearch.index crlf (data.take limit) with
      | none => false
      | some lineEnd => validRequestLine (data.take lineEnd)

def detectTLSProtocol (data : Bytes) : Bool :=
  data.length ≥ 5 && data.getD 0 0 == 0x16 && data.getD 1 0 == 0x03 && data.getD 2 0 ≥ 0x01 &&
    data.getD 2 0 ≤ 0x04

def detectSocksProtocol (data : Bytes) : Bool :=
  if data.length < 2 then false
  else if data.getD 0 0 == 0x04 then
    data.length ≥ 7 && (data.getD 1 0 == 0x01 || data.getD 1 0 == 0x02)
  else if data.getD 0 0 != 0x05 then false
  else
    let nMethods := (data.getD 1 0).toNat
    if nMethods = 0 ∨ data.length < 2 + nMethods then false
    else ((data.drop 2).take nMethods).any fun method => method == 0x00 || method == 0x02

def detectBlockedProtocol (data : Bytes) (policy : ProtocolPolicy) : String :=
  if policy.blockHTTP && detectHTTPProtocol data then "http"
  else if policy.blockTLS && detectTLSProtocol data then "tls"
  else if policy.blockSocks && detectSocksProtocol data then "socks"
  else ""

/-! ## The copy loop -/

def fxpProtocolSampleMax : Nat := 512

inductive ReadError
  | eof
  | other (message : String)
  deriving DecidableEq, Repr

/-- One `Read`: the bytes it returns, and its error. -/
structure Read where
  chunk : Bytes
  err : Option ReadError
  deriving DecidableEq, Repr

inductive CopyEnd
  | running
  | blocked (proto : String)
  | readFailed (message : String)
  | writeFailed
  | closed
  deriving DecidableEq, Repr

/-- What a copy has written and counted, and the block it reported. -/
structure Copied where
  frames : List Bytes
  counted : Nat
  reported : Option String
  result : CopyEnd
  deriving DecidableEq, Repr

def ProtocolPolicy.enabled (policy : ProtocolPolicy) : Bool :=
  policy.blockHTTP || policy.blockSocks || policy.blockTLS

/-- The closure `inspect`: the protocol, or `""`, and the sample after it. -/
def inspect (policy : ProtocolPolicy) (sample chunk : Bytes) : String × Bytes :=
  if !policy.enabled || chunk.length = 0 || sample.length ≥ fxpProtocolSampleMax then ("", sample)
  else
    let remaining := min (fxpProtocolSampleMax - sample.length) chunk.length
    let sample := sample ++ chunk.take remaining
    (detectBlockedProtocol sample policy, sample)

/-- The loop of `copyPlainToSecureWithPolicy` over the reads of a connection; the write of
a frame fails where `fails` says so of the number of frames written before. -/
def copyLoop (policy : ProtocolPolicy) (fails : Nat → Bool) : Bytes → List Bytes → Nat → List Read → Copied
  | _, frames, counted, [] => ⟨frames, counted, none, .running⟩
  | sample, frames, counted, read :: reads =>
    let (proto, sample') := if read.chunk.length > 0 then inspect policy sample read.chunk else ("", sample)
    if proto ≠ "" then ⟨frames, counted, some proto, .blocked proto⟩
    else if read.chunk.length > 0 && fails frames.length then ⟨frames, counted, none, .writeFailed⟩
    else
      let frames' := if read.chunk.length > 0 then frames ++ [read.chunk] else frames
      let counted' := counted + read.chunk.length
      match read.err with
      | none => copyLoop policy fails sample' frames' counted' reads
      | some .eof =>
        if fails frames'.length then ⟨frames', counted', none, .writeFailed⟩
        else ⟨frames' ++ [[]], counted', none, .closed⟩
      | some (.other message) => ⟨frames', counted', none, .readFailed message⟩

/-- `copyPlainToSecureWithPolicy`, on a connection that `frames` were written to. -/
def copyPlainToSecureWithPolicy (policy : ProtocolPolicy) (fails : Nat → Bool) (frames : List Bytes)
    (counted : Nat) (initialSample : Bytes) (reads : List Read) : Copied :=
  copyLoop policy fails (initialSample.take fxpProtocolSampleMax) frames counted reads

/-- `handleEntryTCP`, from the bytes `first` that the PROXY header has left of its
pre-read. -/
def handleEntryTCP (policy : ProtocolPolicy) (fails : Nat → Bool) (first : Bytes) (reads : List Read) :
    Copied :=
  if first.length > 0 then
    let proto := detectBlockedProtocol first policy
    if proto ≠ "" then ⟨[], 0, some proto, .blocked proto⟩
    else if fails 0 then ⟨[], 0, none, .writeFailed⟩
    else copyPlainToSecureWithPolicy policy fails [first] first.length first reads
  else copyPlainToSecureWithPolicy policy fails [] 0 first reads

/-! ## Detectors on longer and shorter data -/

theorem getD_append_left {d t : Bytes} {i : Nat} (h : i < d.length) : (d ++ t).getD i 0 = d.getD i 0 := by
  rw [List.getD_eq_getElem?_getD, List.getD_eq_getElem?_getD, List.getElem?_append_left h]

theorem detectHTTPProtocol_extend {d e : Bytes} (h : d <+: e) (hd : detectHTTPProtocol d = true) :
    detectHTTPProtocol e = true := by
  unfold detectHTTPProtocol at hd ⊢
  by_cases hpreface : http2Preface <+: e
  · rw [if_pos (List.isPrefixOf_iff_prefix.mpr hpreface)]
  have hnot : ¬ http2Preface.isPrefixOf d = true :=
    fun hp => hpreface ((List.isPrefixOf_iff_prefix.mp hp).trans h)
  rw [if_neg hnot] at hd
  rw [if_neg (fun hp => hpreface (List.isPrefixOf_iff_prefix.mp hp))]
  dsimp only at hd ⊢
  have hlen := h.length_le
  split at hd
  next => cases hd
  next hlong =>
    rw [if_neg (by omega)]
    split at hd
    next => cases hd
    next lineEnd hindex =>
      -- the line end of the shorter data is that of the longer data
      have htake : d.take (min d.length 256) <+: e.take (min e.length 256) := by
        obtain ⟨t, rfl⟩ := h
        rw [List.prefix_take_iff]
        exact ⟨(List.take_prefix _ _).trans (List.prefix_append _ _), by
          rw [List.length_take]
          omega⟩
      have hend := ByteSearch.length_le_of_index hindex
      rw [List.length_take] at hend
      rw [ByteSearch.index_extend htake hindex]
      obtain ⟨t, rfl⟩ := h
      dsimp only
      rw [List.take_append_of_le_length (by omega)]
      exact hd

variable {d e : Bytes} {n : Nat}

theorem detectHTTPProtocol_take (hn : 256 ≤ n) : detectHTTPProtocol (e.take n) = detectHTTPProtocol e := by
  have hpreface : http2Preface.isPrefixOf (e.take n) = http2Preface.isPrefixOf e := by
    rw [Bool.eq_iff_iff, List.isPrefixOf_iff_prefix, List.isPrefixOf_iff_prefix, List.prefix_take_iff]
    have hlength : http2Preface.length = 24 := by decide +kernel
    constructor
    · exact fun hp => hp.1
    · exact fun hp => ⟨hp, by omega⟩
  have hlimit : min (e.take n).length 256 = min e.length 256 := by
    rw [List.length_take]
    omega
  have hmin : min (min e.length 256) n = min e.length 256 := by omega
  unfold detectHTTPProtocol
  rw [hpreface, hlimit]
  simp only [List.take_take, hmin]
  cases hindex : ByteSearch.index crlf (e.take (min e.length 256)) with
  | none => rfl
  | some lineEnd =>
    have hend := ByteSearch.length_le_of_index hindex
    rw [List.length_take] at hend
    have hline : min lineEnd n = lineEnd := by omega
    simp only [hline]

theorem detectTLSProtocol_extend (h : d <+: e) (hd : detectTLSProtocol d = true) : detectTLSProtocol e = true := by
  obtain ⟨t, rfl⟩ := h
  unfold detectTLSProtocol at hd ⊢
  have hlen : 5 ≤ d.length := by
    simp only [Bool.and_eq_true, decide_eq_true_eq, ge_iff_le] at hd
    exact hd.1.1.1.1
  rw [getD_append_left (by omega), getD_append_left (by omega), getD_append_left (by omega)]
  simp only [Bool.and_eq_true, decide_eq_true_eq, ge_iff_le, List.length_append] at hd ⊢
  exact ⟨⟨⟨⟨by omega, hd.1.1.1.2⟩, hd.1.1.2⟩, hd.1.2⟩, hd.2⟩

theorem detectTLSProtocol_take (hn : 5 ≤ n) (he : detectTLSProtocol e = true) :
    detectTLSProtocol (e.take n) = true := by
  have hsplit := List.take_append_drop n e
  have hlen : 5 ≤ e.length := by
    unfold detectTLSProtocol at he
    simp only [Bool.and_eq_true, decide_eq_true_eq, ge_iff_le] at he
    exact he.1.1.1.1
  have htake : 5 ≤ (e.take n).length := by
    rw [List.length_take]
    omega
  rw [← hsplit] at he
  unfold detectTLSProtocol at he ⊢
  rw [getD_append_left (by omega), getD_append_left (by omega), getD_append_left (by omega)] at he
  simp only [Bool.and_eq_true, decide_eq_true_eq, ge_iff_le] at he ⊢
  exact ⟨⟨⟨⟨htake, he.1.1.1.2⟩, he.1.1.2⟩, he.1.2⟩, he.2⟩

theorem detectSocksProtocol_iff (data : Bytes) : detectSocksProtocol data = true ↔
    (data.getD 0 0 = 0x04 ∧ 7 ≤ data.length ∧ (data.getD 1 0 = 0x01 ∨ data.getD 1 0 = 0x02)) ∨
    (data.getD 0 0 = 0x05 ∧ 0 < (data.getD 1 0).toNat ∧ 2 + (data.getD 1 0).toNat ≤ data.length ∧
      ((data.drop 2).take (data.getD 1 0).toNat).any (fun method => method == 0x00 || method == 0x02) = true) := by
  unfold detectSocksProtocol
  by_cases hshort : data.length < 2
  · rw [if_pos hshort]
    constructor
    · exact fun h => by cases h
    · rintro (h | h) <;> omega
  rw [if_neg hshort]
  generalize data.getD 0 0 = version
  generalize data.getD 1 0 = command
  by_cases h4 : version = 0x04
  · subst h4
    simp
  · by_cases h5 : version = 0x05
    · subst h5
      have hzero : command.toNat = 0 ↔ ¬ 0 < command.toNat := by omega
      by_cases hfew : command.toNat = 0 ∨ data.length < 2 + command.toNat
      · have hnot : ¬ (0 < command.toNat ∧ 2 + command.toNat ≤ data.length) := by omega
        simp [hfew]
        omega
      · have hpos : 0 < command.toNat := by omega
        have hroom : 2 + command.toNat ≤ data.length := by omega
        simp [hpos, hroom, Nat.ne_of_gt hpos]
    · simp [h4, h5]

theorem detectSocksProtocol_extend (h : d <+: e) (hd : detectSocksProtocol d = true) :
    detectSocksProtocol e = true := by
  obtain ⟨t, rfl⟩ := h
  rw [detectSocksProtocol_iff] at hd ⊢
  have hlen : 2 ≤ d.length := by omega
  rw [getD_append_left (by omega), getD_append_left (by omega), List.length_append]
  obtain ⟨h4, h7, hcommand⟩ | ⟨h5, hpos, hroom, hany⟩ := hd
  · exact .inl ⟨h4, by omega, hcommand⟩
  · refine .inr ⟨h5, hpos, by omega, ?_⟩
    rw [List.drop_append_of_le_length hlen, List.take_append_of_le_length]
    · exact hany
    · rw [List.length_drop]
      omega

theorem detectSocksProtocol_take (hn : 257 ≤ n) (he : detectSocksProtocol e = true) :
    detectSocksProtocol (e.take n) = true := by
  rw [detectSocksProtocol_iff] at he ⊢
  have hlen : 2 ≤ (e.take n).length := by
    rw [List.length_take]
    omega
  have hsplit := List.take_append_drop n e
  have h0 : (e.take n).getD 0 0 = e.getD 0 0 := by
    conv_rhs => rw [← hsplit]
    rw [getD_append_left (by omega)]
  have h1 : (e.take n).getD 1 0 = e.getD 1 0 := by
    conv_rhs => rw [← hsplit]
    rw [getD_append_left (by omega)]
  have hmethods : (e.getD 1 0).toNat < 256 := UInt8.toNat_lt _
  rw [h0, h1, List.length_take]
  obtain ⟨h4, h7, hcommand⟩ | ⟨h5, hpos, hroom, hany⟩ := he
  · exact .inl ⟨h4, by omega, hcommand⟩
  · refine .inr ⟨h5, hpos, by omega, ?_⟩
    rw [List.drop_take, List.take_take, Nat.min_eq_left (by omega)]
    exact hany

/-! ## At most one detector fires -/

theorem head_of_detectHTTP {data : Bytes} (h : detectHTTPProtocol data = true) : 0x41 ≤ data.getD 0 0 := by
  unfold detectHTTPProtocol at h
  split at h
  next hpreface =>
    obtain ⟨t, rfl⟩ := List.isPrefixOf_iff_prefix.mp hpreface
    have hlength : 0 < http2Preface.length := by decide +kernel
    rw [getD_append_left hlength]
    decide +kernel
  next =>
    dsimp only at h
    split at h
    next => cases h
    next =>
      split at h
      next => cases h
      next lineEnd hindex =>
        unfold validRequestLine at h
        split at h
        next method target version hparts =>
          have hmethod : method ∈ httpMethods := by
            simp only [Bool.and_eq_true, List.contains_iff_mem] at h
            exact h.1.1
          have hall : ∀ m ∈ httpMethods, 0 < m.length ∧ 0x41 ≤ m.getD 0 0 := by decide +kernel
          obtain ⟨hpos, hhead⟩ := hall method hmethod
          have hline : [0x20].intercalate ((data.take lineEnd).splitOn 0x20) = data.take lineEnd :=
            List.intercalate_splitOn 0x20
          rw [hparts, List.intercalate_cons_cons] at hline
          have hdata := List.take_append_drop lineEnd data
          rw [← hline] at hdata
          rw [← hdata]
          simp only [List.append_assoc]
          rw [getD_append_left hpos]
          exact hhead
        next => cases h

theorem head_of_detectTLS {data : Bytes} (h : detectTLSProtocol data = true) : data.getD 0 0 = 0x16 := by
  unfold detectTLSProtocol at h
  simp only [Bool.and_eq_true, beq_iff_eq] at h
  exact h.1.1.1.2

theorem head_of_detectSocks {data : Bytes} (h : detectSocksProtocol data = true) :
    data.getD 0 0 = 0x04 ∨ data.getD 0 0 = 0x05 := by
  rw [detectSocksProtocol_iff] at h
  obtain h | h := h
  · exact .inl h.1
  · exact .inr h.1

/-- Which protocol is blocked, by the detectors: the first byte tells them apart. -/
theorem detectBlockedProtocol_iff (data : Bytes) (policy : ProtocolPolicy) {proto : String}
    (hproto : proto ≠ "") : detectBlockedProtocol data policy = proto ↔
    (proto = "http" ∧ policy.blockHTTP = true ∧ detectHTTPProtocol data = true) ∨
    (proto = "tls" ∧ policy.blockTLS = true ∧ detectTLSProtocol data = true) ∨
    (proto = "socks" ∧ policy.blockSocks = true ∧ detectSocksProtocol data = true) := by
  have htls : detectTLSProtocol data = true → ¬ detectHTTPProtocol data = true := by
    intro h hhttp
    have := head_of_detectHTTP hhttp
    rw [head_of_detectTLS h] at this
    exact absurd this (by decide)
  have hsocks : detectSocksProtocol data = true →
      ¬ detectHTTPProtocol data = true ∧ ¬ detectTLSProtocol data = true := by
    intro h
    constructor
    · intro hhttp
      have := head_of_detectHTTP hhttp
      obtain hhead | hhead := head_of_detectSocks h
      · rw [hhead] at this
        exact absurd this (by decide)
      · rw [hhead] at this
        exact absurd this (by decide)
    · intro htls
      have := head_of_detectTLS htls
      obtain hhead | hhead := head_of_detectSocks h
      · rw [hhead] at this
        exact absurd this (by decide)
      · rw [hhead] at this
        exact absurd this (by decide)
  unfold detectBlockedProtocol
  simp only [Bool.and_eq_true]
  constructor
  · intro h
    split at h
    next hhttp => exact .inl ⟨h.symm, hhttp⟩
    next =>
      split at h
      next htls => exact .inr (.inl ⟨h.symm, htls⟩)
      next =>
        split at h
        next hsocks => exact .inr (.inr ⟨h.symm, hsocks⟩)
        next => exact absurd h.symm hproto
  · intro h
    obtain ⟨rfl, hblock, hdetect⟩ | ⟨rfl, hblock, hdetect⟩ | ⟨rfl, hblock, hdetect⟩ := h
    · rw [if_pos ⟨hblock, hdetect⟩]
    · rw [if_neg (fun hhttp => htls hdetect hhttp.2), if_pos ⟨hblock, hdetect⟩]
    · rw [if_neg (fun hhttp => (hsocks hdetect).1 hhttp.2),
        if_neg (fun htls => (hsocks hdetect).2 htls.2), if_pos ⟨hblock, hdetect⟩]

variable {policy : ProtocolPolicy}

theorem detectBlockedProtocol_extend {proto : String} (hproto : proto ≠ "") (h : d <+: e)
    (hd : detectBlockedProtocol d policy = proto) : detectBlockedProtocol e policy = proto := by
  rw [detectBlockedProtocol_iff _ _ hproto] at hd ⊢
  obtain ⟨hname, hblock, hdetect⟩ | ⟨hname, hblock, hdetect⟩ | ⟨hname, hblock, hdetect⟩ := hd
  · exact .inl ⟨hname, hblock, detectHTTPProtocol_extend h hdetect⟩
  · exact .inr (.inl ⟨hname, hblock, detectTLSProtocol_extend h hdetect⟩)
  · exact .inr (.inr ⟨hname, hblock, detectSocksProtocol_extend h hdetect⟩)

theorem detectBlockedProtocol_take (e : Bytes) (policy : ProtocolPolicy) :
    detectBlockedProtocol (e.take fxpProtocolSampleMax) policy = detectBlockedProtocol e policy := by
  have hmax : fxpProtocolSampleMax = 512 := rfl
  by_cases hverdict : detectBlockedProtocol e policy = ""
  · rw [hverdict]
    by_contra hne
    exact hne ((detectBlockedProtocol_extend hne (List.take_prefix _ e) rfl).symm.trans hverdict)
  · rw [detectBlockedProtocol_iff _ _ hverdict]
    obtain ⟨hname, hblock, hdetect⟩ | ⟨hname, hblock, hdetect⟩ | ⟨hname, hblock, hdetect⟩ :=
      (detectBlockedProtocol_iff e policy hverdict).mp rfl
    · exact .inl ⟨hname, hblock, by rwa [detectHTTPProtocol_take (by omega)]⟩
    · exact .inr (.inl ⟨hname, hblock, detectTLSProtocol_take (by omega) hdetect⟩)
    · exact .inr (.inr ⟨hname, hblock, detectSocksProtocol_take (by omega) hdetect⟩)

theorem detectBlockedProtocol_disabled (h : policy.enabled = false) (data : Bytes) :
    detectBlockedProtocol data policy = "" := by
  simp only [ProtocolPolicy.enabled, Bool.or_eq_false_iff] at h
  simp [detectBlockedProtocol, h.1.1, h.1.2, h.2]

/-! ## Every segmentation -/

/-- The sample is the start of the bytes seen so far, unless nothing is inspected, and no
protocol was found in them. -/
structure Sampled (policy : ProtocolPolicy) (sample seen : Bytes) : Prop where
  take : policy.enabled = true → sample = seen.take fxpProtocolSampleMax
  clean : detectBlockedProtocol seen policy = ""

/-- One chunk: the verdict on all bytes seen, and the sample for the next. -/
theorem Sampled.inspect {sample seen : Bytes} (h : Sampled policy sample seen) (chunk : Bytes) :
    (inspect policy sample chunk).1 = detectBlockedProtocol (seen ++ chunk) policy ∧
    (policy.enabled = true →
      (inspect policy sample chunk).2 = (seen ++ chunk).take fxpProtocolSampleMax) := by
  unfold Fxp.inspect
  split
  next hskip =>
    by_cases henabled : policy.enabled = true
    · have hsample := h.take henabled
      -- the sample is full, or there is nothing to add
      have hsame : (seen ++ chunk).take fxpProtocolSampleMax = seen.take fxpProtocolSampleMax := by
        simp only [henabled, Bool.not_true, Bool.false_or, Bool.or_eq_true, decide_eq_true_eq,
          ge_iff_le] at hskip
        obtain hempty | hfull := hskip
        · rw [List.eq_nil_of_length_eq_zero hempty, List.append_nil]
        · rw [hsample, List.length_take] at hfull
          rw [List.take_append_of_le_length (by omega)]
      refine ⟨?_, fun _ => ?_⟩
      · rw [← detectBlockedProtocol_take, hsame, detectBlockedProtocol_take, h.clean]
      · rw [hsame, hsample]
    · rw [detectBlockedProtocol_disabled (by simpa using henabled)]
      exact ⟨rfl, fun hon => absurd hon henabled⟩
  next hlook =>
    simp only [Bool.or_eq_true, Bool.not_eq_true', decide_eq_true_eq, not_or, ge_iff_le] at hlook
    have henabled : policy.enabled = true := by simpa using hlook.1.1
    have hsample := h.take henabled
    have hshort : seen.length < fxpProtocolSampleMax := by
      have := hlook.2
      rw [hsample, List.length_take] at this
      omega
    have hall : sample = seen := hsample.trans (List.take_of_length_le (Nat.le_of_lt hshort))
    have hnext : sample ++ chunk.take (min (fxpProtocolSampleMax - sample.length) chunk.length) =
        (seen ++ chunk).take fxpProtocolSampleMax := by
      rw [hall, List.take_append, List.take_of_length_le (Nat.le_of_lt hshort), ← List.take_eq_take_min]
    dsimp only
    rw [hnext]
    exact ⟨detectBlockedProtocol_take _ _, fun _ => rfl⟩

/-- A connection that reads `chunks` without an error, and then `last` with `err`. -/
def readsOf (chunks : List Bytes) (last : Bytes) (err : Option ReadError) : List Read :=
  chunks.map (fun chunk => ⟨chunk, none⟩) ++ [⟨last, err⟩]

def neverFails : Nat → Bool := fun _ => false

/-- What a copy must come to: the verdict on the whole stream, and the stream itself if
nothing is blocked. -/
structure Verdict (policy : ProtocolPolicy) (stream : Bytes) (copied : Copied) : Prop where
  reported : ∀ proto, copied.reported = some proto ↔
    proto ≠ "" ∧ detectBlockedProtocol stream policy = proto
  frames : copied.reported = none → copied.frames.flatten = stream

theorem Verdict.of_blocked {seen stream : Bytes} {proto : String} {copied : Copied} (hproto : proto ≠ "")
    (hseen : seen <+: stream) (hdetect : detectBlockedProtocol seen policy = proto)
    (hreported : copied.reported = some proto) : Verdict policy stream copied where
  reported proto' := by
    have hstream := detectBlockedProtocol_extend hproto hseen hdetect
    rw [hreported, hstream, Option.some.injEq]
    exact ⟨fun h => ⟨h ▸ hproto, h⟩, fun h => h.2⟩
  frames h := by
    rw [hreported] at h
    cases h

theorem Verdict.of_clean {stream : Bytes} {copied : Copied} (hclean : detectBlockedProtocol stream policy = "")
    (hreported : copied.reported = none) (hframes : copied.frames.flatten = stream) : Verdict policy stream copied where
  reported proto := by
    rw [hreported, hclean]
    constructor
    · intro h
      cases h
    · exact fun h => absurd h.2.symm h.1
  frames _ := hframes

/-- One read: the verdict on the bytes seen so far, or on with one more frame. -/
theorem copyLoop_cons {sample seen : Bytes} {frames : List Bytes} (h : Sampled policy sample seen)
    (hframes : frames.flatten = seen) (counted : Nat) (read : Read) (reads : List Read) :
    (∃ proto ≠ "", detectBlockedProtocol (seen ++ read.chunk) policy = proto ∧
      (copyLoop policy neverFails sample frames counted (read :: reads)).reported = some proto) ∨
    ∃ (sample' : Bytes) (frames' : List Bytes) (counted' : Nat),
      Sampled policy sample' (seen ++ read.chunk) ∧ frames'.flatten = seen ++ read.chunk ∧
      (read.err = none → copyLoop policy neverFails sample frames counted (read :: reads) =
        copyLoop policy neverFails sample' frames' counted' reads) ∧
      (read.err.isSome → ∃ (frames'' : List Bytes) (result : CopyEnd),
        copyLoop policy neverFails sample frames counted (read :: reads) =
          ⟨frames'', counted', none, result⟩ ∧ frames''.flatten = seen ++ read.chunk) := by
  have hclean : ∀ (sample' : Bytes) (frames' : List Bytes), frames'.flatten = seen ++ read.chunk →
      copyLoop policy neverFails sample frames counted (read :: reads) =
        (match read.err with
        | none => copyLoop policy neverFails sample' frames' (counted + read.chunk.length) reads
        | some .eof => ⟨frames' ++ [[]], counted + read.chunk.length, none, .closed⟩
        | some (.other message) =>
          ⟨frames', counted + read.chunk.length, none, .readFailed message⟩) →
      Sampled policy sample' (seen ++ read.chunk) →
      ∃ (sample' : Bytes) (frames' : List Bytes) (counted' : Nat),
        Sampled policy sample' (seen ++ read.chunk) ∧ frames'.flatten = seen ++ read.chunk ∧
        (read.err = none → copyLoop policy neverFails sample frames counted (read :: reads) =
          copyLoop policy neverFails sample' frames' counted' reads) ∧
        (read.err.isSome → ∃ (frames'' : List Bytes) (result : CopyEnd),
          copyLoop policy neverFails sample frames counted (read :: reads) =
            ⟨frames'', counted', none, result⟩ ∧ frames''.flatten = seen ++ read.chunk) := by
    intro sample' frames' hflatten hloop hsampled
    refine ⟨sample', frames', counted + read.chunk.length, hsampled, hflatten, fun hnone => ?_, fun hsome => ?_⟩
    · rw [hloop, hnone]
    · rw [hloop]
      cases herr : read.err with
      | none => rw [herr] at hsome; cases hsome
      | some err =>
        cases err with
        | eof => exact ⟨_, _, rfl, by simpa using hflatten⟩
        | other message => exact ⟨_, _, rfl, hflatten⟩
  by_cases hempty : read.chunk.length > 0
  · obtain ⟨hverdict, hnext⟩ := h.inspect read.chunk
    by_cases hproto : (inspect policy sample read.chunk).1 = ""
    · right
      refine hclean (inspect policy sample read.chunk).2 (frames ++ [read.chunk]) (by simp [hframes]) ?_ ⟨hnext, hverdict.symm.trans hproto⟩
      rw [copyLoop]
      simp only [if_pos hempty, hproto, ne_eq, not_true_eq_false, if_false, neverFails, Bool.and_false,
        Bool.false_eq_true]
    · left
      refine ⟨_, hproto, hverdict.symm, ?_⟩
      rw [copyLoop]
      simp only [if_pos hempty, ne_eq, hproto, not_false_eq_true, if_true]
  · right
    have hnil : read.chunk = [] := List.eq_nil_of_length_eq_zero (by omega)
    refine hclean sample frames (by rw [hnil, List.append_nil, hframes]) ?_
      (by rw [hnil, List.append_nil]; exact h)
    rw [copyLoop]
    simp only [if_neg hempty, ne_eq, not_true_eq_false, if_false, neverFails, Bool.and_false,
      Bool.false_eq_true]

theorem copyLoop_verdict (chunks : List Bytes) (last : Bytes) (err : Option ReadError) {sample seen : Bytes}
    {frames : List Bytes} (h : Sampled policy sample seen) (hframes : frames.flatten = seen) (counted : Nat) :
    Verdict policy (seen ++ (chunks.flatten ++ last))
      (copyLoop policy neverFails sample frames counted (readsOf chunks last err)) := by
  induction chunks generalizing sample seen frames counted with
  | nil =>
    rw [List.flatten_nil, List.nil_append]
    show Verdict policy (seen ++ last) (copyLoop policy neverFails sample frames counted [⟨last, err⟩])
    obtain ⟨proto, hproto, hdetect, hreported⟩ | ⟨sample', frames', counted', hnext, hflatten, hgo, hend⟩ :=
      copyLoop_cons h hframes counted ⟨last, err⟩ []
    · exact Verdict.of_blocked hproto (List.prefix_refl _) hdetect hreported
    · cases herr : err with
      | none =>
        rw [← herr, hgo herr]
        exact Verdict.of_clean hnext.clean rfl hflatten
      | some e =>
        obtain ⟨frames'', result, hloop, hflatten'⟩ := hend (by rw [herr]; rfl)
        rw [← herr, hloop]
        exact Verdict.of_clean hnext.clean rfl hflatten'
  | cons chunk chunks ih =>
    rw [List.flatten_cons, List.append_assoc, ← List.append_assoc]
    show Verdict policy _ (copyLoop policy neverFails sample frames counted
      (⟨chunk, none⟩ :: readsOf chunks last err))
    obtain ⟨proto, hproto, hdetect, hreported⟩ | ⟨sample', frames', counted', hnext, hflatten, hgo, -⟩ :=
      copyLoop_cons h hframes counted ⟨chunk, none⟩ (readsOf chunks last err)
    · exact Verdict.of_blocked hproto (List.prefix_append _ _) hdetect hreported
    · rw [hgo rfl]
      exact ih hnext hflatten counted'

/-- However a client's stream is cut into the bytes `first` and reads, the entry reports a
blocked protocol exactly when the detectors find it in the first 512 bytes of the stream;
and when it reports none, the frames it writes make up the stream. -/
theorem block_verdict_ignores_segmentation (policy : ProtocolPolicy) (first : Bytes)
    (chunks : List Bytes) (last : Bytes) (err : Option ReadError) :
    let stream := first ++ (chunks.flatten ++ last)
    let copied := handleEntryTCP policy neverFails first (readsOf chunks last err)
    (∀ proto, copied.reported = some proto ↔
      proto ≠ "" ∧ detectBlockedProtocol (stream.take (min 512 stream.length)) policy = proto) ∧
    (copied.reported = none → copied.frames.flatten = stream) := by
  intro stream copied
  have hverdict : Verdict policy stream copied := by
    show Verdict policy (first ++ (chunks.flatten ++ last)) (handleEntryTCP policy neverFails first _)
    unfold handleEntryTCP copyPlainToSecureWithPolicy
    by_cases hfirst : first.length > 0
    · rw [if_pos hfirst]
      by_cases hproto : detectBlockedProtocol first policy = ""
      · simp only [hproto, ne_eq, not_true_eq_false, if_false, neverFails, Bool.false_eq_true]
        exact copyLoop_verdict chunks last err ⟨fun _ => rfl, hproto⟩ (by simp) first.length
      · simp only [ne_eq, hproto, not_false_eq_true, if_true]
        exact Verdict.of_blocked hproto (List.prefix_append _ _) rfl rfl
    · rw [if_neg hfirst]
      have hnil : first = [] := List.eq_nil_of_length_eq_zero (by omega)
      subst hnil
      have hsampled : Sampled policy (List.take fxpProtocolSampleMax []) [] := by
        refine ⟨fun _ => rfl, ?_⟩
        by_contra hne
        have hhead := (detectBlockedProtocol_iff [] policy hne).mp rfl
        have hhttp : detectHTTPProtocol [] = false := by decide +kernel
        simp [hhttp, detectTLSProtocol, detectSocksProtocol] at hhead
      have hnothing : List.flatten ([] : List Bytes) = [] := rfl
      exact copyLoop_verdict chunks last err hsampled hnothing 0
  have htake : stream.take (min 512 stream.length) = stream.take fxpProtocolSampleMax := by
    rw [← List.take_eq_take_min]
    rfl
  rw [htake, detectBlockedProtocol_take]
  exact ⟨hverdict.reported, hverdict.frames⟩

end ForwardX.Fxp
