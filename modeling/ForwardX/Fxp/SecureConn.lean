import ForwardX.Lib.Aead
import ForwardX.Lib.Machine

/- The V1/V2 secure connection (`main.go`, `secureConn`). A frame is its length
   sealed under `lenWriteAEAD` followed by its payload sealed under
   `dataWriteAEAD`, both under nonces made of the direction, the frame counter and
   the kind. `writeEncryptedFrame` advances the counter only after the whole frame
   is written, so the frame after a failed write is sealed under the same nonces:
   `nonceSafe_iff` says exactly when that exposes two plaintexts. -/
namespace ForwardX.Fxp
open Wire Aead Machine

def fxpMaxFrame : Nat := 16 * 1024 * 1024
def fxpEntryToExit : UInt32 := 1
def fxpExitToEntry : UInt32 := 2

/-- `fillFXPNonce` into a 12-byte buffer. -/
def fillFXPNonce (direction : UInt32) (counter : UInt64) (kind : UInt8) : Bytes :=
  (putBE 4 direction.toNat ++ putBE 8 counter.toNat).modify 3 (· ^^^ kind)

inductive WriteError where
  | frameTooLarge
  | conn
  | shortWrite
  deriving DecidableEq, Repr

/-- `writeFull` of `size` bytes, `written` of them written so far, against a
connection that answers with `ws` and then fails. -/
def writeFull (size written : Nat) : List Wrote → Nat × Option WriteError
  | [] => if written < size then (written, some .conn) else (written, none)
  | w :: ws =>
    if written < size then
      let n := min w.n (size - written)
      if w.failed then (written + n, some .conn)
      else if n = 0 then (written + n, some .shortWrite)
      else writeFull size (written + n) ws
    else (written, none)

inductive FrameKey where
  | length
  | data
  deriving DecidableEq, Repr

/-- `secureConn` with encrypted frames. -/
structure SecureConn where
  maxReadFrame : UInt32
  lenWriteAEAD : Cipher
  dataWriteAEAD : Cipher
  lenReadAEAD : Cipher
  dataReadAEAD : Cipher
  lengthAD : Bytes
  payloadAD : Bytes
  writeDir : UInt32
  readDir : UInt32
  writeCounter : UInt64
  readCounter : UInt64

/-- What a call of `writeEncryptedFrame` leaves behind: the connection, the error
it returns, the bytes the underlying connection took, and what it sealed. -/
structure FrameWrite where
  conn : SecureConn
  err : Option WriteError
  emitted : Bytes
  sealings : List (Sealing FrameKey)

/-- `writeEncryptedFrame`; `ws` is how the underlying connection answers. -/
def writeEncryptedFrame (c : SecureConn) (plain : Bytes) (ws : List Wrote) : FrameWrite :=
  if plain.length > fxpMaxFrame then ⟨c, some .frameTooLarge, [], []⟩
  else
    let counter := c.writeCounter
    let lenPlain := putBE 4 plain.length
    let lenNonce := fillFXPNonce c.writeDir counter 0
    let dataNonce := fillFXPNonce c.writeDir counter 1
    let lenCipher := c.lenWriteAEAD.sealText lenNonce lenPlain c.lengthAD
    let wire := lenCipher ++ c.dataWriteAEAD.sealText dataNonce plain c.payloadAD
    let r := writeFull wire.length 0 ws
    let sealings : List (Sealing FrameKey) :=
      [⟨.length, lenNonce, lenPlain, decide (0 < r.1)⟩,
        ⟨.data, dataNonce, plain, decide (lenCipher.length < r.1)⟩]
    match r.2 with
    | some e => ⟨c, some e, wire.take r.1, sealings⟩
    | none =>
      if r.1 ≠ wire.length then ⟨c, some .shortWrite, wire.take r.1, sealings⟩
      else ⟨{ c with writeCounter := c.writeCounter + 1 }, none, wire, sealings⟩

/-- `decryptFrameLength` of the frame with this counter. -/
def SecureConn.decryptFrameLength (c : SecureConn) (counter : UInt64) (lenCipher : Bytes) :
    Option Nat :=
  match c.lenReadAEAD.openText (fillFXPNonce c.readDir counter 0) lenCipher c.lengthAD with
  | none => none
  | some lenPlain =>
    if lenPlain.length ≠ 4 then none
    else
      let n := getBE lenPlain
      if n > fxpMaxFrame ∨ (c.maxReadFrame > 0 ∧ n > c.maxReadFrame.toNat) then none else some n

/-- `decryptFrameData` of the frame with this counter. -/
def SecureConn.decryptFrameData (c : SecureConn) (counter : UInt64) (dataCipher : Bytes) :
    Option Bytes :=
  c.dataReadAEAD.openText (fillFXPNonce c.readDir counter 1) dataCipher c.payloadAD

/-- A call of `writeFrame`: the frame, and the answers of the connection during
the call. -/
structure Call where
  plain : Bytes
  ws : List Wrote
  deriving DecidableEq, Repr

def Call.wireSize (x : Call) : Nat := 4 + Cipher.overhead + x.plain.length + Cipher.overhead

def Call.tooLarge (x : Call) : Bool := decide (x.plain.length > fxpMaxFrame)

def Call.emitted (x : Call) : Nat := (writeFull x.wireSize 0 x.ws).1

def Call.completed (x : Call) : Bool :=
  !x.tooLarge && (writeFull x.wireSize 0 x.ws).2.isNone

def nextConn (c : SecureConn) (x : Call) : SecureConn := (writeEncryptedFrame c x.plain x.ws).conn

def sealed (c : SecureConn) (x : Call) : List (Sealing FrameKey) :=
  (writeEncryptedFrame c x.plain x.ws).sealings

def sealings (c : SecureConn) (calls : List Call) : List (Sealing FrameKey) :=
  outputs nextConn sealed c calls

/-- Two frames have the same length if bytes of both leave, and are equal if payload
bytes of both leave. -/
def Call.Agree (x y : Call) : Prop :=
  (0 < x.emitted → 0 < y.emitted → x.plain.length = y.plain.length) ∧
  (4 + Cipher.overhead < x.emitted → 4 + Cipher.overhead < y.emitted → x.plain = y.plain)

/-- Any two frames written at one counter agree: from the first up to the second a
multiple of `2^64` calls complete, in practice none. -/
def RetriesAgree (calls : List Call) : Prop :=
  ∀ pre x mid y post, calls = pre ++ x :: (mid ++ y :: post) →
    x.tooLarge = false → y.tooLarge = false →
    (x :: mid).countP Call.completed % 2^64 = 0 → x.Agree y

/-! ## Nonces -/

theorem fillFXPNonce_eq (direction : UInt32) (counter : UInt64) (kind : UInt8) :
    fillFXPNonce direction counter kind =
      [UInt8.ofNat (direction.toNat / 256^3), UInt8.ofNat (direction.toNat / 256^2),
        UInt8.ofNat (direction.toNat / 256), UInt8.ofNat direction.toNat ^^^ kind] ++
      putBE 8 counter.toNat := by
  simp [fillFXPNonce, putBE]

theorem fillFXPNonce_counter {d : UInt32} {n n' : UInt64} {k : UInt8} :
    fillFXPNonce d n k = fillFXPNonce d n' k ↔ n = n' := by
  constructor
  · intro h
    rw [fillFXPNonce_eq, fillFXPNonce_eq] at h
    exact UInt64.toNat_inj.mp (putBE_inj n.toNat_lt n'.toNat_lt (List.append_inj h rfl).2)
  · intro h
    rw [h]

/-! ## One call -/

theorem writeFull_ok {size written : Nat} {ws : List Wrote} (hle : written ≤ size)
    (h : (writeFull size written ws).2 = none) : (writeFull size written ws).1 = size := by
  induction ws generalizing written with
  | nil =>
    unfold writeFull at h ⊢
    split at h
    · cases h
    · rename_i hlt
      simp only [hlt, if_false]
      omega
  | cons w ws ih =>
    unfold writeFull at h ⊢
    by_cases hlt : written < size
    · simp only [hlt, if_true] at h ⊢
      by_cases hf : w.failed = true
      · simp [hf] at h
      · by_cases hz : min w.n (size - written) = 0
        · simp [hf, hz] at h
        · simp only [hf, hz, if_false, Bool.false_eq_true] at h ⊢
          exact ih (by omega) h
    · simp only [hlt, if_false] at h ⊢
      omega

theorem wire_length (c : SecureConn) (plain lenNonce dataNonce : Bytes) :
    (c.lenWriteAEAD.sealText lenNonce (putBE 4 plain.length) c.lengthAD ++
      c.dataWriteAEAD.sealText dataNonce plain c.payloadAD).length =
    4 + Cipher.overhead + plain.length + Cipher.overhead := by
  rw [List.length_append, Cipher.sealText_length, Cipher.sealText_length, putBE_length]
  simp only [Cipher.overhead]
  omega

/-- What a call seals: nothing for a frame that is too large, and otherwise the
length and the payload at the current counter. -/
theorem sealed_eq (c : SecureConn) (x : Call) :
    sealed c x = if x.tooLarge then [] else
      [⟨.length, fillFXPNonce c.writeDir c.writeCounter 0, putBE 4 x.plain.length,
          decide (0 < x.emitted)⟩,
        ⟨.data, fillFXPNonce c.writeDir c.writeCounter 1, x.plain,
          decide (4 + Cipher.overhead < x.emitted)⟩] := by
  unfold sealed writeEncryptedFrame Call.tooLarge Call.emitted Call.wireSize
  by_cases hl : x.plain.length > fxpMaxFrame
  · simp [hl]
  · simp only [hl, if_false, decide_false, Bool.false_eq_true, wire_length, Cipher.sealText_length,
      putBE_length]
    split
    · rfl
    · split <;> rfl

/-- The connection `k` completed frames later. -/
def SecureConn.advance (c : SecureConn) (k : Nat) : SecureConn :=
  { c with writeCounter := c.writeCounter + UInt64.ofNat k }

theorem SecureConn.advance_zero (c : SecureConn) : c.advance 0 = c := by
  simp [SecureConn.advance]

theorem SecureConn.advance_add (c : SecureConn) (j k : Nat) :
    (c.advance j).advance k = c.advance (j + k) := by
  simp [SecureConn.advance, UInt64.ofNat_add, UInt64.add_assoc]

/-- A call advances the counter when it completes and changes nothing else. -/
theorem nextConn_eq (c : SecureConn) (x : Call) :
    nextConn c x = c.advance (if x.completed then 1 else 0) := by
  unfold nextConn writeEncryptedFrame Call.completed Call.tooLarge Call.wireSize
  by_cases hl : x.plain.length > fxpMaxFrame
  · simp [hl, SecureConn.advance_zero]
  · simp only [hl, if_false, decide_false, Bool.not_false, Bool.true_and, wire_length]
    split
    · rename_i e he
      simp [he, SecureConn.advance_zero]
    · rename_i he
      have hw := writeFull_ok (Nat.zero_le _) he
      simp [he, hw, SecureConn.advance]

/-! ## Any number of calls -/

theorem after_eq (c : SecureConn) (calls : List Call) :
    after nextConn c calls = c.advance (calls.countP Call.completed) := by
  induction calls generalizing c with
  | nil => exact c.advance_zero.symm
  | cons x calls ih =>
    rw [after_cons, ih, nextConn_eq, SecureConn.advance_add, List.countP_cons, Nat.add_comm]

/-- The counters before and after some calls agree when a multiple of `2^64` of
them completes. -/
theorem counter_eq_iff (n : UInt64) (k : Nat) : n = n + UInt64.ofNat k ↔ k % 2^64 = 0 := by
  rw [← UInt64.toNat_inj, UInt64.toNat_add, UInt64.toNat_ofNat']
  have := n.toNat_lt
  omega

theorem lenPlain_inj {x y : Call} (hx : x.tooLarge = false) (hy : y.tooLarge = false) :
    putBE 4 x.plain.length = putBE 4 y.plain.length ↔ x.plain.length = y.plain.length := by
  have hx' : ¬ x.plain.length > 16 * 1024 * 1024 := of_decide_eq_false hx
  have hy' : ¬ y.plain.length > 16 * 1024 * 1024 := of_decide_eq_false hy
  constructor
  · intro h
    exact putBE_inj (by omega) (by omega) h
  · intro h
    rw [h]

/-- A call seals nothing that conflicts: its two sealings are under two keys. -/
theorem sealed_pairwise (c : SecureConn) (x : Call) :
    (sealed c x).Pairwise (fun a b => ¬ Conflict a b) := by
  rw [sealed_eq]
  cases x.tooLarge with
  | true => exact List.Pairwise.nil
  | false =>
    refine List.pairwise_pair.mpr ?_
    intro h
    cases h.1

/-- Two calls with `k` completed calls from the first up to the second conflict
unless their frames agree. -/
theorem sealed_cross_iff (c : SecureConn) (x y : Call) (k : Nat) :
    (∀ a ∈ sealed c x, ∀ b ∈ sealed (c.advance k) y, ¬ Conflict a b) ↔
    (x.tooLarge = false → y.tooLarge = false → k % 2^64 = 0 → x.Agree y) := by
  rw [sealed_eq, sealed_eq, ← counter_eq_iff c.writeCounter k, SecureConn.advance]
  by_cases hx : x.tooLarge = true
  · simp [hx]
  by_cases hy : y.tooLarge = true
  · simp [hy]
  simp only [Bool.not_eq_true] at hx hy
  simp only [hx, hy, Bool.false_eq_true, if_false, List.mem_cons, List.not_mem_nil, or_false,
    forall_eq_or_imp, forall_eq, Conflict, reduceCtorEq, false_and, not_false_iff, and_true,
    true_and, decide_eq_true_eq, fillFXPNonce_counter, ne_eq, lenPlain_inj hx hy, forall_const]
  constructor
  · intro h hc
    obtain ⟨hlen, hdata⟩ := h
    refine ⟨fun h0 h0' => ?_, fun h20 h20' => ?_⟩
    · exact Decidable.not_not.mp (fun hne => hlen ⟨hc, hne, h0, h0'⟩)
    · exact Decidable.not_not.mp (fun hne => hdata ⟨hc, hne, h20, h20'⟩)
  · intro h
    refine ⟨fun hl => ?_, fun hd => ?_⟩
    · obtain ⟨hc, hne, h0, h0'⟩ := hl
      exact hne ((h hc).1 h0 h0')
    · obtain ⟨hc, hne, h20, h20'⟩ := hd
      exact hne ((h hc).2 h20 h20')

/-- No two exposed frames share a nonce and differ, exactly when frames written at
one counter agree as far as they are exposed. -/
theorem nonceSafe_iff (c : SecureConn) (calls : List Call) :
    NonceSafe (sealings c calls) ↔ RetriesAgree calls := by
  unfold NonceSafe sealings
  rw [pairwise_outputs_iff]
  have hafter : ∀ pre x mid, after nextConn c (pre ++ x :: mid) =
      (after nextConn c pre).advance ((x :: mid).countP Call.completed) := by
    intro pre x mid
    rw [after_append, after_eq (after nextConn c pre) (x :: mid)]
  constructor
  · intro h pre x mid y post heq
    have hcross := h.2 pre x mid y post heq
    rw [hafter] at hcross
    exact (sealed_cross_iff _ x y _).mp hcross
  · intro h
    refine ⟨fun pre x post _ => sealed_pairwise _ _, fun pre x mid y post heq => ?_⟩
    rw [hafter]
    exact (sealed_cross_iff _ x y _).mpr (h pre x mid y post heq)

/-- A frame half written and another one written in its place: bytes of both
payloads leave under one nonce. -/
theorem retry_reuses_nonce :
    ¬ ∀ (c : SecureConn) (calls : List Call), NonceSafe (sealings c calls) := by
  intro h
  have hsafe := h ⟨0, .null, .null, .null, .null, [], [], fxpEntryToExit, fxpExitToEntry, 0, 0⟩
    [⟨[1], [⟨30, true⟩]⟩, ⟨[2], [⟨37, false⟩]⟩]
  exact absurd hsafe (by decide)

end ForwardX.Fxp
