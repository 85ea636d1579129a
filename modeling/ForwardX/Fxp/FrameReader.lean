import ForwardX.Lib.ByteStream
import ForwardX.Fxp.SecureConn

/- The two decoders of frames (`main.go`, `secureConn.readFrame`; `frame_reader.go`). Forwarding
   reads through a `secureFrameReader`, whose arrays hold what earlier frames left in them and
   whose frames lie in a buffer of the process's pools; handshakes read frames that they keep.
   Both do what `decode` does, which knows no buffers (`readFrame_decode`, `borrow_decode`), so
   any number of frames is read alike (`borrowed_frames_agree`). -/
namespace ForwardX.Fxp
open Wire Aead ByteStream

/-! ## Pools -/

/-- `fxpBytePool`, with the buffers that lie in it. -/
structure BytePool where
  size : Nat
  buffers : List Bytes
  full : ∀ buffer ∈ buffers, buffer.length = size

/-- `getFXPByteBuffer`; a pool that is empty makes a buffer. -/
def getFXPByteBuffer (pools : List BytePool) (size : Nat) : Bytes :=
  if size = 0 then []
  else
    match pools.find? (fun pool => size ≤ pool.size) with
    | some pool => (pool.buffers.headD (List.replicate pool.size 0)).take size
    | none => List.replicate size 0

theorem getFXPByteBuffer_length (pools : List BytePool) (size : Nat) :
    (getFXPByteBuffer pools size).length = size := by
  unfold getFXPByteBuffer
  split
  · rename_i hzero
    exact hzero.symm
  · split
    · rename_i pool hpool
      have hle : size ≤ pool.size := by simpa using List.find?_some hpool
      have hfull : (pool.buffers.headD (List.replicate pool.size 0)).length = pool.size := by
        cases hbuffers : pool.buffers with
        | nil => exact List.length_replicate
        | cons buffer buffers => exact pool.full buffer (hbuffers ▸ List.mem_cons_self)
      rw [List.length_take, hfull, Nat.min_eq_left hle]
    · exact List.length_replicate

/-! ## The decoders -/

def v3LogicalFrameLimit : Nat := 128 * 1024

/-- `secureConn` as it is read: with encrypted frames, or with the plain ones of a stream. -/
structure ReadConn extends SecureConn where
  logicalFrames : Bool

inductive FrameError
  | stream (err : StreamError)
  /-- What `Open` fails with. -/
  | auth
  | encryptedLength
  | length
  | size (n : Nat)
  | tooLarge
  deriving DecidableEq, Repr

def FrameError.text (stream : StreamError → String) : FrameError → String
  | .stream err => stream err
  | auth => "chacha20poly1305: message authentication failed"
  | encryptedLength => "invalid encrypted frame length"
  | length => "invalid frame length"
  | size n => "invalid frame size " ++ toString n
  | tooLarge => "v3: business frame too large"

abbrev Result := Bytes × Option FrameError

def lenSize : Nat := 4 + Cipher.overhead

/-- `fillFXPNonce`, over what the array holds. -/
def fillNonce (nonce : FixedArray 12) (direction : UInt32) (counter : UInt64) (kind : UInt8) : FixedArray 12 :=
  ((nonce.write 0 (putBE 4 direction.toNat)).write 4 (putBE 8 counter.toNat)).modify 3 (· ^^^ kind)

def readV3LogicalFrame (stream : Stream) : Result × Stream :=
  match readFull [] 4 stream with
  | (_, rest, some err) => (([], some (.stream err)), rest)
  | (header, rest, none) =>
    if v3LogicalFrameLimit < getBE header then (([], some .tooLarge), rest)
    else
      match readFull [] (getBE header) rest with
      | (p, rest, err) => ((p, err.map .stream), rest)

namespace ReadConn

def next (c : ReadConn) : ReadConn := { c with readCounter := c.readCounter + 1 }

/-- `decryptFrameLength`. -/
def decryptLength (c : ReadConn) (counter : UInt64) (lenCipher : Bytes) : Except FrameError Nat :=
  match c.lenReadAEAD.openText (fillNonce (.zero 12) c.readDir counter 0).bytes lenCipher c.lengthAD with
  | none => .error .auth
  | some lenPlain =>
    if lenPlain.length ≠ 4 then .error .length
    else if fxpMaxFrame < getBE lenPlain ∨ (0 < c.maxReadFrame ∧ c.maxReadFrame.toNat < getBE lenPlain) then
      .error (.size (getBE lenPlain))
    else .ok (getBE lenPlain)

/-- `readEncryptedFrame`; `pools` is what the pools are when it takes a buffer. -/
def readEncryptedFrame (c : ReadConn) (pools : List BytePool) (stream : Stream) : Result × ReadConn × Stream :=
  let counter := c.readCounter
  let lenCipher := FixedArray.zero 64
  if 64 < lenSize then (([], some .encryptedLength), c.next, stream)
  else
    match readFull [] lenSize stream with
    | (_, rest, some err) => (([], some (.stream err)), c.next, rest)
    | (bytes, rest, none) =>
      match c.decryptLength counter ((lenCipher.write 0 bytes).bytes.take lenSize) with
      | .error err => (([], some err), c.next, rest)
      | .ok n =>
        let dataCipher := getFXPByteBuffer pools (n + Cipher.overhead)
        match readFull [] dataCipher.length rest with
        | (_, rest, some err) => (([], some (.stream err)), c.next, rest)
        | (bytes, rest, none) =>
          let dataCipher := FixedArray.overwrite dataCipher 0 bytes
          match c.dataReadAEAD.openText (fillNonce (.zero 12) c.readDir counter 1).bytes dataCipher c.payloadAD with
          | none => (([], some .auth), c.next, rest)
          | some frame => ((frame, none), c.next, rest)

def readFrame (c : ReadConn) (pools : List BytePool) (stream : Stream) : Result × ReadConn × Stream :=
  if c.logicalFrames then ((readV3LogicalFrame stream).1, c, (readV3LogicalFrame stream).2)
  else c.readEncryptedFrame pools stream

end ReadConn

/-- `secureFrameReader`. -/
structure FrameReader where
  conn : ReadConn
  buffer : Bytes
  lenCipher : FixedArray 64
  lenPlain : FixedArray 4
  nonce : FixedArray 12

/-- A frame that its caller owns, or the first bytes of the reader's buffer. -/
inductive Frame
  | owned (bytes : Bytes)
  | borrowed (size : Nat)

namespace FrameReader

def contents (r : FrameReader) : Frame → Bytes
  | .owned bytes => bytes
  | .borrowed size => r.buffer.take size

/-- `secureFrameReader.release`; the buffer goes back into the pools. -/
def release (r : FrameReader) : FrameReader := { r with buffer := [] }

/-- `secureFrameReader.readFrame`; `pools` is what the pools are when it takes a buffer. -/
def readFrame (r : FrameReader) (pools : List BytePool) (stream : Stream) :
    (Frame × Option FrameError) × FrameReader × Stream :=
  let r := r.release
  if r.conn.logicalFrames then
    match readV3LogicalFrame stream with
    | ((p, err), rest) => ((.owned p, err), r, rest)
  else
    let counter := r.conn.readCounter
    let r := { r with conn := r.conn.next }
    if 64 < lenSize then ((.owned [], some .encryptedLength), r, stream)
    else
      match readFull [] lenSize stream with
      | (bytes, rest, some err) =>
        ((.owned [], some (.stream err)), { r with lenCipher := r.lenCipher.write 0 bytes }, rest)
      | (bytes, rest, none) =>
        let r := { r with
          lenCipher := r.lenCipher.write 0 bytes
          nonce := fillNonce r.nonce r.conn.readDir counter 0 }
        match r.conn.lenReadAEAD.openText r.nonce.bytes (r.lenCipher.bytes.take lenSize) r.conn.lengthAD with
        | none => ((.owned [], some .auth), r, rest)
        | some plain =>
          let r := { r with lenPlain := r.lenPlain.write 0 plain }
          if plain.length ≠ 4 then ((.owned [], some .length), r, rest)
          else if fxpMaxFrame < getBE plain ∨ (0 < r.conn.maxReadFrame ∧ r.conn.maxReadFrame.toNat < getBE plain) then
            ((.owned [], some (.size (getBE plain))), r, rest)
          else
            let r := { r with buffer := getFXPByteBuffer pools (getBE plain + Cipher.overhead) }
            match readFull [] r.buffer.length rest with
            | (_, rest, some err) => ((.owned [], some (.stream err)), r.release, rest)
            | (bytes, rest, none) =>
              let r := { r with
                buffer := FixedArray.overwrite r.buffer 0 bytes
                nonce := fillNonce r.nonce r.conn.readDir counter 1 }
              match r.conn.dataReadAEAD.openText r.nonce.bytes r.buffer r.conn.payloadAD with
              | none => ((.owned [], some .auth), r.release, rest)
              -- The plaintext is written over the text that it was opened from.
              | some frame =>
                ((.borrowed frame.length, none), { r with buffer := frame ++ r.buffer.drop frame.length }, rest)

end FrameReader

/-! ## What both do -/

theorem fillNonce_bytes (nonce : FixedArray 12) (direction : UInt32) (counter : UInt64) (kind : UInt8) :
    (fillNonce nonce direction counter kind).bytes = fillFXPNonce direction counter kind := by
  have hwrite := nonce.write_write (putBE 4 direction.toNat) (putBE 8 counter.toNat) rfl
  rw [fillNonce, fillFXPNonce, FixedArray.modify, ← hwrite]
  rfl

/-- A frame without buffers: the length under its nonce, then the payload under the other. -/
def decode (c : ReadConn) (stream : Stream) : Result × ReadConn × Stream :=
  if c.logicalFrames then ((readV3LogicalFrame stream).1, c, (readV3LogicalFrame stream).2)
  else
    match readFull [] lenSize stream with
    | (_, rest, some err) => (([], some (.stream err)), c.next, rest)
    | (lenCipher, rest, none) =>
      match c.decryptLength c.readCounter lenCipher with
      | .error err => (([], some err), c.next, rest)
      | .ok n =>
        match readFull [] (n + Cipher.overhead) rest with
        | (_, rest, some err) => (([], some (.stream err)), c.next, rest)
        | (dataCipher, rest, none) =>
          match c.decryptFrameData c.readCounter dataCipher with
          | none => (([], some .auth), c.next, rest)
          | some frame => ((frame, none), c.next, rest)

theorem overwrite_all {buffer bytes : Bytes} (h : bytes.length = buffer.length) :
    FixedArray.overwrite buffer 0 bytes = bytes := by
  rw [FixedArray.overwrite, List.take_zero, List.nil_append, Nat.sub_zero, List.take_of_length_le (Nat.le_of_eq h),
    List.drop_eq_nil_of_le (by omega), List.append_nil]

theorem lenSize_fits : ¬64 < lenSize := by decide

theorem readFrame_decode (c : ReadConn) (pools : List BytePool) (stream : Stream) :
    c.readFrame pools stream = decode c stream := by
  unfold ReadConn.readFrame decode ReadConn.readEncryptedFrame
  split
  · rfl
  · dsimp only
    rw [if_neg lenSize_fits]
    split
    · rfl
    · rename_i lenCipher rest hhead
      have hlength : lenCipher.length = lenSize := by simpa using readFull_length hhead
      have htake := (FixedArray.zero 64).take_write lenCipher (by rw [hlength]; decide)
      rw [hlength] at htake
      rw [htake]
      cases c.decryptLength c.readCounter lenCipher with
      | error err => rfl
      | ok n =>
        dsimp only
        rw [getFXPByteBuffer_length]
        split
        · rfl
        · rename_i dataCipher rest' hbody
          have hbodyLength : dataCipher.length = n + Cipher.overhead := by simpa using readFull_length hbody
          rw [overwrite_all (by rw [hbodyLength, getFXPByteBuffer_length]), fillNonce_bytes]
          rfl

/-- What a call of the reader gives, with the frame as it is then. -/
def FrameReader.read (r : FrameReader) (pools : List BytePool) (stream : Stream) : Result × FrameReader × Stream :=
  match r.readFrame pools stream with
  | ((frame, err), r, rest) => ((r.contents frame, err), r, rest)

/-- `secureFrameReader.readFrame` is the decoder, whatever lies in the pools and in the arrays of
the reader. -/
theorem borrow_decode (r : FrameReader) (pools : List BytePool) (stream : Stream) :
    ((r.read pools stream).1, (r.read pools stream).2.1.conn, (r.read pools stream).2.2) = decode r.conn stream := by
  unfold FrameReader.read FrameReader.readFrame decode FrameReader.release
  by_cases hlogical : r.conn.logicalFrames = true
  · simp only [hlogical, if_true]
    obtain ⟨⟨p, err⟩, rest⟩ := readV3LogicalFrame stream
    rfl
  · simp only [hlogical, Bool.false_eq_true, if_false, lenSize_fits]
    generalize hhead : readFull [] lenSize stream = head
    obtain ⟨lenCipher, rest, _ | err⟩ := head
    · have hlength : lenCipher.length = lenSize := by simpa using readFull_length hhead
      have htake := r.lenCipher.take_write lenCipher (by rw [hlength]; decide)
      rw [hlength] at htake
      simp only [htake, fillNonce_bytes, ReadConn.decryptLength, ReadConn.next]
      cases r.conn.lenReadAEAD.openText (fillFXPNonce r.conn.readDir r.conn.readCounter 0) lenCipher r.conn.lengthAD with
      | none => rfl
      | some plain =>
        dsimp only
        by_cases hfour : plain.length ≠ 4
        · simp only [if_pos hfour]
          rfl
        · simp only [if_neg hfour]
          split
          · rfl
          · simp only [getFXPByteBuffer_length]
            generalize hbody : readFull [] (getBE plain + Cipher.overhead) rest = body
            obtain ⟨dataCipher, rest', _ | err⟩ := body
            · have hbodyLength : dataCipher.length = getBE plain + Cipher.overhead := by
                simpa using readFull_length hbody
              simp only [overwrite_all (hbodyLength.trans (getFXPByteBuffer_length pools _).symm),
                SecureConn.decryptFrameData]
              cases r.conn.dataReadAEAD.openText (fillFXPNonce r.conn.readDir r.conn.readCounter 1) dataCipher
                r.conn.payloadAD with
              | none => rfl
              | some frame => simp only [FrameReader.contents, List.take_left]
            · rfl
    · rfl

/-! ## Any number of frames -/

/-- `k` frames that are kept; `pools` is what the pools are at each of them. -/
def ReadConn.readFrames (c : ReadConn) (pools : Nat → List BytePool) (stream : Stream) :
    Nat → List Result × ReadConn × Stream
  | 0 => ([], c, stream)
  | k + 1 =>
    let (results, c, stream) := c.readFrames pools stream k
    let (result, c, stream) := c.readFrame (pools k) stream
    (results ++ [result], c, stream)

/-- `k` frames that are borrowed, each looked at before the next is read. -/
def FrameReader.readFrames (r : FrameReader) (pools : Nat → List BytePool) (stream : Stream) :
    Nat → List Result × FrameReader × Stream
  | 0 => ([], r, stream)
  | k + 1 =>
    let (results, r, stream) := r.readFrames pools stream k
    let (result, r, stream) := r.read (pools k) stream
    (results ++ [result], r, stream)

/-- Any number of frames is read alike by the two decoders, from any stream and in any state of
the pools and of the reader's arrays: the same frames and errors, and then the same connection,
with its counter, and the same rest of the stream. -/
theorem borrowed_frames_agree (r : FrameReader) (pools pools' : Nat → List BytePool) (stream : Stream) (k : Nat) :
    (r.readFrames pools stream k).1 = (r.conn.readFrames pools' stream k).1 ∧
      (r.readFrames pools stream k).2.1.conn = (r.conn.readFrames pools' stream k).2.1 ∧
      (r.readFrames pools stream k).2.2 = (r.conn.readFrames pools' stream k).2.2 := by
  induction k with
  | zero => exact ⟨rfl, rfl, rfl⟩
  | succ k ih =>
    obtain ⟨hresults, hconn, hrest⟩ := ih
    have hborrowed := borrow_decode (r.readFrames pools stream k).2.1 (pools k) (r.readFrames pools stream k).2.2
    rw [hconn, hrest, ← readFrame_decode _ (pools' k)] at hborrowed
    have hresult := congrArg Prod.fst hborrowed
    have hafter := congrArg Prod.snd hborrowed
    simp only [FrameReader.readFrames, ReadConn.readFrames]
    rw [hresults, hrest]
    exact ⟨congrArg (fun result => _ ++ [result]) hresult, congrArg Prod.fst hafter, congrArg Prod.snd hafter⟩

end ForwardX.Fxp
