import Mathlib.Data.List.Nodup
import Mathlib.Logic.Function.Basic
import ForwardX.Lib.Aead
import ForwardX.V3.Handshake

/- The V3 inner record layer (`internal/v3/inner.go`). A record is its length sealed
   under a length key followed by its payload sealed under a data key, both under
   nonces made of the direction, the kind and the record counter. `Session` is the
   two ends of one connection on a network that delivers what bytes it likes; the
   AEAD is ideal, so what an end opens was sealed under its key and nonce, by the
   other end or in another session (`Act.foreign`).

   The writer advances its counter before it writes and the reader after it has
   opened both parts, so they name the same record, or the reader has failed: a read
   error is kept, and every later `Read` returns it. A `Read` into an empty buffer
   returns nothing and no error before it looks (`empty_read_after_rejection`).

   What is read is compared with the arguments of the calls that write: each seals the
   first bytes of its argument, and all of it unless it fails (`WriteCall.Sound`). -/
namespace ForwardX.V3.Record
open Wire Aead Transition Handshake

def innerInfo : Bytes := "ss-neko-aead".toUTF8.toList
def innerPayloadLimit : Nat := 0x400f - 2 - 16
def innerMaxCounter : Nat := 2^62 - 1
def innerDirClientToServer : UInt8 := 1
def innerDirServerToClient : UInt8 := 2
def innerKindLength : UInt8 := 0
def innerKindData : UInt8 := 1
def overhead : Nat := 16

/-! ## Keys -/

/-- The expansion loop of `hkdfSHA256`, with at most `fuel` blocks to go. -/
def hkdfExpand (H : Hash) (prk info : Bytes) (length : Nat) :
    Nat → Bytes → Bytes → UInt8 → Bytes
  | 0, out, _, _ => out
  | fuel + 1, out, block, counter =>
    if out.length < length then
      let block := H.hmacSHA256 prk (block ++ info ++ [counter])
      hkdfExpand H prk info length fuel (out ++ block) block (counter + 1)
    else out

def hkdfSHA256 (H : Hash) (secret salt info : Bytes) (length : Nat) : Bytes :=
  let salt := if salt.length = 0 then List.replicate 32 0 else salt
  let prk := H.hmacSHA256 salt secret
  (hkdfExpand H prk info length length [] [] 1).take length

structure InnerKeys where
  c2sLen : Bytes
  c2sData : Bytes
  s2cLen : Bytes
  s2cData : Bytes

def deriveInnerKeys (H : Hash) (psk salt : Bytes) : InnerKeys :=
  let material := hkdfSHA256 H (H.sha256 psk) salt innerInfo 64
  ⟨material.take 16, (material.drop 16).take 16, (material.drop 32).take 16,
    (material.drop 48).take 16⟩

def innerSalt (client server : Bytes) : Bytes := client ++ server

/-! ## The connection -/

inductive WriteError where
  | frameTooLarge
  | nonce
  | shortWrite
  | conn
  deriving DecidableEq, Repr

/-- The errors that `writeFull` returns. -/
def WriteError.ofConn : WriteError → Bool
  | .shortWrite | .conn => true
  | _ => false

inductive ReadError where
  | conn
  | nonce
  | record
  | frameTooLarge
  deriving DecidableEq, Repr

/-- `InnerConn`. The AEADs are the keys they are under; `readBuf` is what is left of
the buffer. The counters stay far below `2^64`, so they do not wrap. -/
structure InnerConn where
  writeKey : Bytes
  readKey : Bytes
  lenWriteKey : Bytes
  lenReadKey : Bytes
  writeCounter : Nat
  readCounter : Nat
  writeDir : UInt8
  readDir : UInt8
  readBuf : Bytes
  readErr : Option ReadError
  maxPayload : Nat
  deriving DecidableEq, Repr

def selectKey (dir : UInt8) (c2s s2c : Bytes) : Bytes :=
  if dir = innerDirClientToServer then c2s else s2c

def buildInnerConn (keys : InnerKeys) (writeDir readDir : UInt8) : InnerConn where
  writeKey := selectKey writeDir keys.c2sData keys.s2cData
  readKey := selectKey readDir keys.c2sData keys.s2cData
  lenWriteKey := selectKey writeDir keys.c2sLen keys.s2cLen
  lenReadKey := selectKey readDir keys.c2sLen keys.s2cLen
  writeCounter := 0
  readCounter := 0
  writeDir := writeDir
  readDir := readDir
  readBuf := []
  readErr := none
  maxPayload := innerPayloadLimit

def innerNonce (dir : UInt8) (counter : Nat) (kind : UInt8) : Bytes :=
  dir :: kind :: 0 :: 0 :: putBE 8 counter

/-- One direction of a session: its two keys and its byte in the nonces. -/
structure Half where
  lenKey : Bytes
  dataKey : Bytes
  dir : UInt8
  deriving DecidableEq, Repr

def InnerConn.writing (c : InnerConn) : Half := ⟨c.lenWriteKey, c.writeKey, c.writeDir⟩
def InnerConn.reading (c : InnerConn) : Half := ⟨c.lenReadKey, c.readKey, c.readDir⟩

/-- The two texts of record `i` of a direction. -/
def Half.sealAt (A : Sealer) (h : Half) (i : Nat) (payload : Bytes) : List Sealed :=
  [A.sealed h.lenKey (innerNonce h.dir i innerKindLength) (putBE 2 payload.length) [],
    A.sealed h.dataKey (innerNonce h.dir i innerKindData) payload []]

def wire (seals : List Sealed) : Bytes := (seals.map Sealed.text).flatten

/-- `sealRecord`: the connection and the texts, the length first. -/
def sealRecord (A : Sealer) (c : InnerConn) (payload : Bytes) :
    Except WriteError (InnerConn × List Sealed) :=
  if payload.length > c.maxPayload then .error .frameTooLarge
  else if c.writeCounter > innerMaxCounter then .error .nonce
  else .ok ({ c with writeCounter := c.writeCounter + 1 },
    c.writing.sealAt A c.writeCounter payload)

/-- `writeFull` (`frame.go`) against a connection that answers with `ws` and then
fails: the bytes that left, and the error. -/
def writeFull : Bytes → List Wrote → Bytes × Option WriteError
  | p, [] => if p.isEmpty then ([], none) else ([], some .conn)
  | p, w :: ws =>
    if p.isEmpty then ([], none)
    else if w.n > p.length then (p, some .shortWrite)
    else if w.failed then (p.take w.n, some .conn)
    else if w.n = 0 then ([], some .shortWrite)
    else
      let r := writeFull (p.drop w.n) ws
      (p.take w.n ++ r.1, r.2)

/-- What a call that writes leaves behind: the connection, what it sealed and the
payloads of these records, the bytes that left, the count it returns and its error. -/
structure WriteResult where
  conn : InnerConn
  seals : List Sealed
  payloads : List Bytes
  emitted : Bytes
  written : Nat
  err : Option WriteError

/-- `WriteRecord`, whose count is the payload's if it succeeds. -/
def writeRecord (A : Sealer) (c : InnerConn) (payload : Bytes) (ws : List Wrote) : WriteResult :=
  match sealRecord A c payload with
  | .error e => ⟨c, [], [], [], 0, some e⟩
  | .ok (c, seals) =>
    match writeFull (wire seals) ws with
    | (emitted, some e) => ⟨c, seals, [payload], emitted, 0, some e⟩
    | (emitted, none) => ⟨c, seals, [payload], emitted, payload.length, none⟩

/-- The loop of `Write`, with at most `fuel` records to go; `wss` is how the
underlying connection answers for each record. -/
def writeLoop (A : Sealer) : Nat → InnerConn → Bytes → List (List Wrote) → WriteResult
  | 0, c, _, _ => ⟨c, [], [], [], 0, none⟩
  | fuel + 1, c, p, wss =>
    if p.length = 0 then ⟨c, [], [], [], 0, none⟩
    else
      let first := writeRecord A c (p.take c.maxPayload) wss.headI
      if first.err.isSome then first
      else
        let rest := writeLoop A fuel first.conn (p.drop c.maxPayload) wss.tail
        ⟨rest.conn, first.seals ++ rest.seals, first.payloads ++ rest.payloads,
          first.emitted ++ rest.emitted, first.written + rest.written, rest.err⟩

def write (A : Sealer) (c : InnerConn) (p : Bytes) (wss : List (List Wrote)) : WriteResult :=
  writeLoop A p.length c p wss

/-- What `io.ReadFull` does on a connection that has delivered `inbox`, and ends
there if `cut`: it blocks, fails, or returns the bytes and what is left. -/
inductive Full where
  | blocked
  | failed
  | ok (bs rest : Bytes)

def readFull (inbox : Bytes) (cut : Bool) (n : Nat) : Full :=
  if n ≤ inbox.length then .ok (inbox.take n) (inbox.drop n)
  else if cut then .failed
  else .blocked

/-- What `readRecord` does. -/
inductive RecordRead where
  | blocked
  | failed (e : ReadError) (rest : Bytes)
  | ok (c : InnerConn) (rest : Bytes)

/-- `readRecord`; `log` is everything that was ever sealed. -/
def readRecord (log : List Sealed) (cut : Bool) (c : InnerConn) (inbox : Bytes) : RecordRead :=
  match readFull inbox cut (2 + overhead) with
  | .blocked => .blocked
  | .failed => .failed .conn []
  | .ok head rest =>
    if c.readCounter > innerMaxCounter then .failed .nonce rest
    else
      match openSealed log c.lenReadKey (innerNonce c.readDir c.readCounter innerKindLength) head [] with
      | none => .failed .record rest
      | some lenPlain =>
        if lenPlain.length ≠ 2 then .failed .record rest
        else if getBE lenPlain > c.maxPayload then .failed .frameTooLarge rest
        else
          match readFull rest cut (getBE lenPlain + overhead) with
          | .blocked => .blocked
          | .failed => .failed .conn []
          | .ok body rest =>
            match openSealed log c.readKey (innerNonce c.readDir c.readCounter innerKindData) body [] with
            | none => .failed .record rest
            | some plain => .ok { c with readCounter := c.readCounter + 1, readBuf := plain } rest

/-- What `Read` does: it blocks, or returns bytes or an error. -/
inductive ReadResult where
  | blocked
  | returned (c : InnerConn) (rest : Bytes) (bs : Bytes) (err : Option ReadError)

/-- The loop of `Read` into `size` bytes, with at most `fuel` records to go. -/
def readLoop (log : List Sealed) (cut : Bool) (size : Nat) :
    Nat → InnerConn → Bytes → ReadResult
  | 0, _, _ => .blocked
  | fuel + 1, c, inbox =>
    if c.readBuf.length > 0 then
      .returned { c with readBuf := c.readBuf.drop size } inbox (c.readBuf.take size) none
    else
      match c.readErr with
      | some e => .returned c inbox [] (some e)
      | none =>
        match readRecord log cut c inbox with
        | .blocked => .blocked
        | .failed e rest => .returned { c with readErr := some e } rest [] (some e)
        | .ok c rest => readLoop log cut size fuel c rest

/-- `Read` into a buffer of `size` bytes. -/
def read (log : List Sealed) (cut : Bool) (c : InnerConn) (inbox : Bytes) (size : Nat) :
    ReadResult :=
  if size = 0 then .returned c inbox [] none
  else readLoop log cut size (inbox.length + 1) c inbox

/-! ## Two ends and a network -/

inductive Side where
  | client
  | server
  deriving DecidableEq, Repr

def Side.other : Side → Side
  | .client => .server
  | .server => .client

/-- A call of `Read`: the size of its buffer, the bytes it returned and its error. -/
structure ReadCall where
  size : Nat
  bs : Bytes
  err : Option ReadError
  deriving DecidableEq, Repr

/-- A call of `Write` or `WriteRecord`: its argument, how the underlying connection answered
for each record, the payloads of the records it sealed, the count it returned and its error. -/
structure WriteCall where
  p : Bytes
  answers : List (List Wrote)
  payloads : List Bytes
  written : Nat
  err : Option WriteError
  deriving DecidableEq, Repr

def WriteCall.sent (w : WriteCall) : Bytes := w.payloads.flatten

def WriteCall.broken (w : WriteCall) : Bool := w.err.any WriteError.ofConn

/-- One end. Besides its connection: the bytes delivered to it that it has not read,
and of its past all the bytes delivered to it, whether these stopped being what the
peer had emitted, its calls of `Read` and those that write, what it sealed in order, and
the bytes that left. -/
structure Endpoint where
  conn : InnerConn
  inbox : Bytes
  delivered : Bytes
  tampered : Bool
  reads : List ReadCall
  writes : List WriteCall
  seals : List Sealed
  emitted : Bytes
  deriving DecidableEq, Repr

def Endpoint.init (c : InnerConn) : Endpoint := ⟨c, [], [], false, [], [], [], []⟩

/-- All the bytes the calls of `Read` have returned. -/
def Endpoint.got (e : Endpoint) : Bytes := (e.reads.map ReadCall.bs).flatten

def Endpoint.payloads (e : Endpoint) : List Bytes := (e.writes.map WriteCall.payloads).flatten

def Endpoint.sent (e : Endpoint) : Bytes := (e.writes.map WriteCall.sent).flatten

def Endpoint.written (e : Endpoint) : Bytes := (e.writes.map WriteCall.p).flatten

def Endpoint.broken (e : Endpoint) : Bool := e.writes.any WriteCall.broken

structure Session where
  ends : Side → Endpoint
  foreign : List Sealed

/-- The two ends after the handshake. -/
def Session.init (H : Hash) (psk client server : Bytes) : Session where
  ends
    | .client => .init (buildInnerConn (deriveInnerKeys H psk (innerSalt client server))
        innerDirClientToServer innerDirServerToClient)
    | .server => .init (buildInnerConn (deriveInnerKeys H psk (innerSalt client server))
        innerDirServerToClient innerDirClientToServer)
  foreign := []

def Session.log (s : Session) : List Sealed :=
  (s.ends .client).seals ++ (s.ends .server).seals ++ s.foreign

/-- What can happen next: a call of `Write` or `WriteRecord` at one end, with the
answers of the underlying connection; another session seals a text; the network
delivers bytes; a call of `Read`, on a connection that ends with what is delivered
if `cut`. -/
inductive Act where
  | write (side : Side) (p : Bytes) (wss : List (List Wrote))
  | writeRecord (side : Side) (payload : Bytes) (ws : List Wrote)
  | foreign (e : Sealed)
  | deliver (side : Side) (bs : Bytes)
  | read (side : Side) (size : Nat) (cut : Bool)

def Session.put (s : Session) (side : Side) (e : Endpoint) : Session :=
  { s with ends := Function.update s.ends side e }

/-- The end after a call that writes. -/
def Endpoint.wrote (e : Endpoint) (p : Bytes) (answers : List (List Wrote)) (r : WriteResult) :
    Endpoint :=
  { e with conn := r.conn, writes := e.writes ++ [⟨p, answers, r.payloads, r.written, r.err⟩],
           seals := e.seals ++ r.seals, emitted := e.emitted ++ r.emitted }

/-- The end after the network has delivered bytes, of which `sent` is all it had. -/
def Endpoint.deliver (e : Endpoint) (bs sent : Bytes) : Endpoint :=
  { e with inbox := e.inbox ++ bs, delivered := e.delivered ++ bs,
           tampered := e.tampered || !(e.delivered ++ bs).isPrefixOf sent }

/-- One step; `none` where the action is not enabled. -/
def step (A : Sealer) (s : Session) : Act → Option Session
  | .write side p wss =>
    some (s.put side ((s.ends side).wrote p wss (Record.write A (s.ends side).conn p wss)))
  | .writeRecord side payload ws =>
    some (s.put side ((s.ends side).wrote payload [ws]
      (Record.writeRecord A (s.ends side).conn payload ws)))
  | .foreign e => some { s with foreign := e :: s.foreign }
  | .deliver side bs =>
    some (s.put side ((s.ends side).deliver bs (s.ends side.other).emitted))
  | .read side size cut =>
    match Record.read s.log cut (s.ends side).conn (s.ends side).inbox size with
    | .blocked => none
    | .returned c rest bs err =>
      some (s.put side { s.ends side with
        conn := c, inbox := rest, reads := (s.ends side).reads ++ [⟨size, bs, err⟩] })

/-- The texts sealed elsewhere are under keys that are not this session's. -/
def OtherKeys (s : Session) : Act → Prop
  | .foreign e => ∀ side, e.key ≠ (s.ends side).conn.lenWriteKey ∧ e.key ≠ (s.ends side).conn.writeKey
  | _ => True

def session (A : Sealer) : Steps Session Act := Guarded OtherKeys (Steps.ofFn (step A))

/-! ## What holds of every run -/

/-- The texts of the records `i, i + 1, ..` of a direction. -/
def Half.sealsFrom (A : Sealer) (h : Half) : Nat → List Bytes → List Sealed
  | _, [] => []
  | i, p :: ps => h.sealAt A i p ++ h.sealsFrom A (i + 1) ps

/-- The underlying connection takes `n` bytes, in as many writes as it likes. -/
def takes : Nat → List Wrote → Bool
  | 0, _ => true
  | _ + 1, [] => false
  | n + 1, w :: ws => !w.failed && 0 < w.n && w.n ≤ n + 1 && takes (n + 1 - w.n) ws

def recordSize (payload : Bytes) : Nat := 2 + overhead + (payload.length + overhead)

/-- What a call that writes has done: the records it sealed fit and carry the first bytes of its
argument, at least those it counts, and all of the argument unless it failed. It blames
the underlying connection only where that has not taken a record. -/
structure WriteCall.Sound (w : WriteCall) : Prop where
  fits : ∀ payload ∈ w.payloads, payload.length ≤ innerPayloadLimit
  carried : w.sent <+: w.p
  counted : w.written ≤ w.sent.length
  whole : w.err = none → w.sent = w.p ∧ w.written = w.p.length
  blames : w.broken = true → ∃ i payload, w.payloads[i]? = some payload ∧
    takes (recordSize payload) (w.answers.getD i []) = false

/-- An end seals the records of its calls one after the other, and what a call has sealed is what
it was given. -/
def SealsWhatIsWritten (A : Sealer) (s : Session) : Prop :=
  ∀ side, (s.ends side).seals = (s.ends side).conn.writing.sealsFrom A 0 (s.ends side).payloads ∧
    ∀ w ∈ (s.ends side).writes, w.Sound

/-- What an end has read is a prefix of what the calls of the other have sealed. -/
def InOrder (s : Session) : Prop := ∀ side, (s.ends side).got <+: (s.ends side.other).sent

/-- After a call of `Read` that failed, every later one into a non-empty buffer fails,
with the same error. -/
def StaysFailed (s : Session) : Prop :=
  ∀ side pre r post, (s.ends side).reads = pre ++ r :: post → r.err ≠ none →
    ∀ r' ∈ post, 0 < r'.size → r'.err = r.err

def NoncesDistinct (s : Session) : Prop :=
  (((s.ends .client).seals ++ (s.ends .server).seals).map (fun e => (e.key, e.nonce))).Nodup

/-- The network has delivered to this end what the other emitted, and no write of
the other to its connection failed. -/
def Intact (s : Session) (side : Side) : Prop :=
  (s.ends side).tampered = false ∧ (s.ends side.other).broken = false

/-- Where nothing was manipulated no record is rejected; and once all of it has
arrived, a `Read` into a non-empty buffer returns bytes until all that was sealed has
been read, which is all that was written if every call succeeded. -/
def Complete (s : Session) : Prop :=
  ∀ side, Intact s side →
    (∀ r ∈ (s.ends side).reads, r.err = none ∨ r.err = some .conn) ∧
    (∀ size cut, 0 < size → (s.ends side).delivered = (s.ends side.other).emitted →
      (s.ends side).conn.readErr = none →
      (s.ends side).got = (s.ends side.other).sent ∨
      ∃ c rest b bs, Record.read s.log cut (s.ends side).conn (s.ends side).inbox size =
        .returned c rest (b :: bs) none) ∧
    ((∀ w ∈ (s.ends side.other).writes, w.err = none) →
      (s.ends side.other).sent = (s.ends side.other).written)

/-! ## Nonces and texts of one direction -/

theorem innerNonce_inj {d d' k k' : UInt8} {i j : Nat} (hi : i ≤ innerMaxCounter)
    (hj : j ≤ innerMaxCounter) (h : innerNonce d i k = innerNonce d' j k') :
    d = d' ∧ k = k' ∧ i = j := by
  have hpow : innerMaxCounter < 256 ^ 8 := by decide
  unfold innerNonce at h
  obtain ⟨hd, h⟩ := List.cons.inj h
  obtain ⟨hk, h⟩ := List.cons.inj h
  obtain ⟨-, h⟩ := List.cons.inj h
  obtain ⟨-, h⟩ := List.cons.inj h
  exact ⟨hd, hk, putBE_inj (by omega) (by omega) h⟩

section
variable {A : Sealer} {h : Half}

theorem Half.sealsFrom_append (i : Nat) (ps qs : List Bytes) :
    h.sealsFrom A i (ps ++ qs) = h.sealsFrom A i ps ++ h.sealsFrom A (i + ps.length) qs := by
  induction ps generalizing i with
  | nil => rfl
  | cons p ps ih =>
    rw [List.cons_append, sealsFrom, sealsFrom, ih, List.append_assoc, List.length_cons,
      Nat.add_assoc, Nat.add_comm 1]

theorem Half.mem_sealsFrom {i : Nat} {ps : List Bytes} {e : Sealed} :
    e ∈ h.sealsFrom A i ps ↔ ∃ j p, ps[j]? = some p ∧ e ∈ h.sealAt A (i + j) p := by
  induction ps generalizing i with
  | nil => simp [sealsFrom]
  | cons q ps ih =>
    rw [sealsFrom, List.mem_append, ih]
    constructor
    · intro hmem
      rcases hmem with hmem | ⟨j, p, hp, hmem⟩
      · exact ⟨0, q, rfl, hmem⟩
      · refine ⟨j + 1, p, hp, ?_⟩
        rwa [Nat.add_assoc, Nat.add_comm 1] at hmem
    · intro hex
      obtain ⟨j, p, hp, hmem⟩ := hex
      cases j with
      | zero =>
        obtain rfl := Option.some.inj hp
        exact .inl hmem
      | succ j =>
        refine .inr ⟨j, p, hp, ?_⟩
        rwa [Nat.add_assoc, Nat.add_comm 1]

theorem Half.nonce_of_mem_sealAt {i : Nat} {p : Bytes} {e : Sealed} (hmem : e ∈ h.sealAt A i p) :
    (e = A.sealed h.lenKey (innerNonce h.dir i innerKindLength) (putBE 2 p.length) [] ∨
      e = A.sealed h.dataKey (innerNonce h.dir i innerKindData) p []) := by
  rcases List.mem_cons.mp hmem with heq | hmem
  · exact .inl heq
  · exact .inr (List.mem_singleton.mp hmem)

theorem Half.nonces_nodup (i : Nat) (ps : List Bytes) (hle : i + ps.length ≤ innerMaxCounter + 1) :
    ((h.sealsFrom A i ps).map Sealed.nonce).Nodup := by
  induction ps generalizing i with
  | nil => exact List.nodup_nil
  | cons p ps ih =>
    rw [List.length_cons] at hle
    rw [sealsFrom, List.map_append]
    refine List.Nodup.append ?_ (ih (i + 1) (by omega)) ?_
    · show [innerNonce h.dir i innerKindLength, innerNonce h.dir i innerKindData].Nodup
      refine List.nodup_cons.mpr ⟨fun hmem => ?_, List.nodup_singleton _⟩
      obtain ⟨-, hkind, -⟩ := innerNonce_inj (by omega) (by omega) (List.mem_singleton.mp hmem)
      exact absurd hkind (by decide)
    · intro n hn hn'
      obtain ⟨e, he, rfl⟩ := List.mem_map.mp hn
      obtain ⟨e', he', heq⟩ := List.mem_map.mp hn'
      obtain ⟨j, q, hq, he'⟩ := mem_sealsFrom.mp he'
      have hj := (List.getElem?_eq_some_iff.mp hq).1
      -- a later record has a later counter
      have hne : ∀ k k', innerNonce h.dir (i + 1 + j) k ≠ innerNonce h.dir i k' := by
        intro k k' heq
        obtain ⟨-, -, hij⟩ := innerNonce_inj (by omega) (by omega) heq
        omega
      rcases nonce_of_mem_sealAt he with rfl | rfl <;>
        rcases nonce_of_mem_sealAt he' with rfl | rfl <;>
        exact hne _ _ heq

theorem wire_append (es es' : List Sealed) : wire (es ++ es') = wire es ++ wire es' := by
  unfold wire
  rw [List.map_append, List.flatten_append]

end

/-! ## The writing side -/

def WriteResult.call (r : WriteResult) (p : Bytes) (answers : List (List Wrote)) : WriteCall :=
  ⟨p, answers, r.payloads, r.written, r.err⟩

/-- What a call that writes does: it seals the next records, of the bytes it is given, and
what left is their texts unless the underlying connection failed. -/
structure WriteOk (A : Sealer) (c : InnerConn) (p : Bytes) (answers : List (List Wrote))
    (r : WriteResult) : Prop where
  conn : r.conn = { c with writeCounter := c.writeCounter + r.payloads.length }
  seals : r.seals = c.writing.sealsFrom A c.writeCounter r.payloads
  counter : r.payloads ≠ [] → c.writeCounter + r.payloads.length ≤ innerMaxCounter + 1
  emitted : (r.call p answers).broken = false → r.emitted = wire r.seals
  sound : (r.call p answers).Sound

/-- A call that seals nothing either fails before it writes or has nothing to write. -/
theorem WriteOk.nothing {A : Sealer} (c : InnerConn) {p : Bytes} (answers : List (List Wrote))
    {err : Option WriteError} (hp : err = none → p = []) (herr : err.any WriteError.ofConn = false) :
    WriteOk A c p answers ⟨c, [], [], [], 0, err⟩ where
  conn := rfl
  seals := rfl
  counter h := absurd rfl h
  emitted _ := rfl
  sound :=
    { fits := fun _ h => nomatch h
      carried := List.nil_prefix
      counted := Nat.le_refl 0
      whole := fun h => by
        obtain rfl := hp h
        exact ⟨rfl, rfl⟩
      blames := fun h => absurd (herr.symm.trans h) (by decide) }

/-- `writeFull` succeeds where the connection takes all the bytes, and then they have left. -/
theorem writeFull_spec (p : Bytes) (ws : List Wrote) :
    (takes p.length ws = true ∧ writeFull p ws = (p, none)) ∨
      (takes p.length ws = false ∧ ∃ left e, writeFull p ws = (left, some e) ∧ e.ofConn = true) := by
  induction ws generalizing p with
  | nil =>
    cases p with
    | nil => exact .inl ⟨rfl, rfl⟩
    | cons b p => exact .inr ⟨rfl, [], .conn, rfl, rfl⟩
  | cons w ws ih =>
    cases p with
    | nil => exact .inl ⟨rfl, rfl⟩
    | cons b p =>
      have hdrop := ih ((b :: p).drop w.n)
      rw [List.length_drop] at hdrop
      unfold writeFull
      rw [List.length_cons] at hdrop ⊢
      rw [takes, if_neg (show ¬ (b :: p).isEmpty = true from Bool.false_ne_true)]
      by_cases hlong : w.n > p.length + 1
      · rw [if_pos hlong]
        exact .inr ⟨by simp [show ¬ w.n ≤ p.length + 1 by omega], _, _, rfl, rfl⟩
      by_cases hfailed : w.failed = true
      · rw [if_neg hlong, if_pos hfailed]
        exact .inr ⟨by simp [hfailed], _, _, rfl, rfl⟩
      by_cases hzero : w.n = 0
      · rw [if_neg hlong, if_neg hfailed, if_pos hzero]
        exact .inr ⟨by simp [hzero], _, _, rfl, rfl⟩
      rw [if_neg hlong, if_neg hfailed, if_neg hzero]
      have htest : (!w.failed && decide (0 < w.n) && decide (w.n ≤ p.length + 1)) = true := by
        simp [hfailed, Nat.pos_of_ne_zero hzero, Nat.le_of_not_lt hlong]
      rw [htest, Bool.true_and]
      rcases hdrop with ⟨htakes, hrest⟩ | ⟨htakes, left, e, hrest, he⟩
      · refine .inl ⟨htakes, ?_⟩
        rw [hrest]
        dsimp only
        rw [List.take_append_drop]
      · rw [hrest]
        exact .inr ⟨htakes, _, e, rfl, he⟩

theorem wire_sealAt_length {A : Sealer} {h : Half} (i : Nat) (payload : Bytes) :
    (wire (h.sealAt A i payload)).length = recordSize payload := by
  show ((_ : Bytes) ++ (_ ++ [])).length = _
  rw [List.append_nil, List.length_append]
  show (A.sealText _ _ _ _).length + (A.sealText _ _ _ _).length = _
  rw [A.sealText_length, A.sealText_length, putBE_length]
  rfl

variable {c : InnerConn} {A : Sealer}

theorem writeRecord_ok (A : Sealer) (hmax : c.maxPayload = innerPayloadLimit) (payload : Bytes) (ws : List Wrote) :
    WriteOk A c payload [ws] (writeRecord A c payload ws) := by
  unfold writeRecord sealRecord
  by_cases hlarge : payload.length > c.maxPayload
  · rw [if_pos hlarge]
    exact WriteOk.nothing c _ (fun h => nomatch h) rfl
  by_cases hspent : c.writeCounter > innerMaxCounter
  · rw [if_neg hlarge, if_pos hspent]
    exact WriteOk.nothing c _ (fun h => nomatch h) rfl
  rw [if_neg hlarge, if_neg hspent]
  dsimp only
  have hseals : c.writing.sealAt A c.writeCounter payload =
      c.writing.sealsFrom A c.writeCounter [payload] := by
    show _ = _ ++ []
    rw [List.append_nil]
  have hsent : ([payload] : List Bytes).flatten = payload := List.flatten_singleton
  have hfits : ∀ p ∈ [payload], p.length ≤ innerPayloadLimit := by
    intro p hp
    obtain rfl := List.mem_singleton.mp hp
    omega
  have hcounter : c.writeCounter + 1 ≤ innerMaxCounter + 1 := by omega
  have hfull := writeFull_spec (wire (c.writing.sealAt A c.writeCounter payload)) ws
  rw [wire_sealAt_length] at hfull
  rcases hfull with ⟨-, hfull⟩ | ⟨htakes, left, e, hfull, he⟩
  · rw [hfull]
    refine ⟨rfl, hseals, fun _ => hcounter, fun _ => rfl, hfits, ?_, ?_, fun _ => ⟨hsent, rfl⟩,
      fun h => nomatch h⟩
    · exact (congrArg (· <+: payload) hsent).mpr (List.prefix_refl payload)
    · exact Nat.le_of_eq (congrArg List.length hsent).symm
  · rw [hfull]
    refine ⟨rfl, hseals, fun _ => hcounter, fun h => ?_, hfits, ?_, Nat.zero_le _,
      fun h => (nomatch h), fun _ => ⟨0, payload, rfl, htakes⟩⟩
    · exact absurd (he.symm.trans h) (by decide)
    · exact (congrArg (· <+: payload) hsent).mpr (List.prefix_refl payload)

theorem writeRecord_payloads (A : Sealer) (c : InnerConn) (payload : Bytes) (ws : List Wrote) :
    (writeRecord A c payload ws).payloads = [payload] ∨
      (writeRecord A c payload ws).payloads = [] ∧ (writeRecord A c payload ws).err.isSome = true := by
  unfold writeRecord
  split
  · exact .inr ⟨rfl, rfl⟩
  · split <;> exact .inl rfl

theorem WriteOk.failed {p q : Bytes} {wss : List (List Wrote)} {r : WriteResult} (h : WriteOk A c p [wss.headI] r)
    (hone : r.payloads.length ≤ 1) (herr : r.err.isSome = true) (hpre : p <+: q) : WriteOk A c q wss r := by
  refine ⟨h.conn, h.seals, h.counter, h.emitted, h.sound.fits, h.sound.carried.trans hpre,
    h.sound.counted, fun hnone => ?_, fun hb => ?_⟩
  · rw [show r.err = none from hnone] at herr
    cases herr
  · obtain ⟨i, payload, hget, htakes⟩ := h.sound.blames hb
    obtain ⟨hi, -⟩ := List.getElem?_eq_some_iff.mp hget
    have hlast : r.payloads.length ≤ 1 := hone
    obtain rfl : i = 0 := by
      have : i < r.payloads.length := hi
      omega
    refine ⟨0, payload, hget, ?_⟩
    cases wss with
    | nil => exact htakes
    | cons ws wss => exact htakes

theorem WriteOk.cons {p q payload : Bytes} {wss : List (List Wrote)} {r r' : WriteResult}
    (h : WriteOk A c p [wss.headI] r) (hone : r.payloads = [payload]) (hr : r.err = none)
    (h' : WriteOk A r.conn q wss.tail r') :
    WriteOk A c (p ++ q) wss ⟨r'.conn, r.seals ++ r'.seals, r.payloads ++ r'.payloads,
      r.emitted ++ r'.emitted, r.written + r'.written, r'.err⟩ := by
  have hcounter : r.conn.writeCounter = c.writeCounter + r.payloads.length := by rw [h.conn]
  have hlength : r.payloads.length = 1 := by rw [hone]; rfl
  obtain ⟨hsent, hwritten⟩ := h.sound.whole hr
  have hall : (r.payloads ++ r'.payloads).flatten = p ++ r'.payloads.flatten := by
    rw [List.flatten_append]
    exact congrArg (· ++ _) hsent
  refine ⟨?_, ?_, fun _ => ?_, fun hb => ?_, ?_, ?_, ?_, fun hnone => ?_, fun hb => ?_⟩
  · rw [h'.conn, h.conn]
    dsimp only
    rw [List.length_append, Nat.add_assoc]
  · have hwriting : r.conn.writing = c.writing := by
      rw [h.conn]
      rfl
    dsimp only
    rw [h.seals, h'.seals, hcounter, hwriting, Half.sealsFrom_append]
  · dsimp only
    rw [List.length_append]
    by_cases hnil : r'.payloads = []
    · have := h.counter (by rw [hone]; exact List.cons_ne_nil _ _)
      rw [hnil, List.length_nil]
      omega
    · have := h'.counter hnil
      omega
  · dsimp only
    rw [h.emitted (by show r.err.any _ = false; rw [hr]; rfl), h'.emitted hb, wire_append]
  · intro payload hmem
    rcases List.mem_append.mp hmem with hmem | hmem
    · exact h.sound.fits payload hmem
    · exact h'.sound.fits payload hmem
  · show (r.payloads ++ r'.payloads).flatten <+: p ++ q
    rw [hall]
    exact (List.prefix_append_right_inj p).mpr h'.sound.carried
  · show r.written + r'.written ≤ (r.payloads ++ r'.payloads).flatten.length
    have hrest : r'.written ≤ r'.payloads.flatten.length := h'.sound.counted
    rw [hall, List.length_append, show r.written = p.length from hwritten]
    omega
  · obtain ⟨hrest, hcount⟩ := h'.sound.whole hnone
    refine ⟨hall.trans (congrArg (p ++ ·) hrest), ?_⟩
    show r.written + r'.written = (p ++ q).length
    rw [List.length_append]
    exact congrArg₂ (· + ·) hwritten hcount
  · -- the record that the connection has not taken is one of the later ones
    obtain ⟨i, payload', hget, htakes⟩ := h'.sound.blames hb
    refine ⟨i + 1, payload', ?_, ?_⟩
    · show (r.payloads ++ r'.payloads)[i + 1]? = some payload'
      rw [List.getElem?_append_right (by omega), hlength]
      exact hget
    · cases wss with
      | nil => exact htakes
      | cons ws wss => exact htakes

theorem write_ok (A : Sealer) (hmax : c.maxPayload = innerPayloadLimit) (p : Bytes) (wss : List (List Wrote)) :
    WriteOk A c p wss (write A c p wss) := by
  have hloop : ∀ fuel, p.length ≤ fuel → WriteOk A c p wss (writeLoop A fuel c p wss) := by
    intro fuel hfuel
    induction fuel generalizing c p wss with
    | zero =>
      exact WriteOk.nothing c _ (fun _ => List.length_eq_zero_iff.mp (by omega)) rfl
    | succ fuel ih =>
      unfold writeLoop
      split
      · rename_i hp
        exact WriteOk.nothing c _ (fun _ => List.length_eq_zero_iff.mp hp) rfl
      rename_i hp
      have hfirst := writeRecord_ok A hmax (p.take c.maxPayload) wss.headI
      have hpos : 0 < c.maxPayload := by
        rw [hmax]
        decide
      dsimp only
      split
      · rename_i herr
        refine hfirst.failed ?_ herr (List.take_prefix _ p)
        rcases writeRecord_payloads A c (p.take c.maxPayload) wss.headI with hone | ⟨hnone, -⟩
        · exact Nat.le_of_eq (congrArg List.length hone)
        · exact (congrArg List.length hnone).trans_le (Nat.zero_le 1)
      · rename_i herr
        replace herr := Option.not_isSome_iff_eq_none.mp herr
        have hmax' : (writeRecord A c (p.take c.maxPayload) wss.headI).conn.maxPayload =
            innerPayloadLimit := by
          rw [hfirst.conn]
          exact hmax
        have hrest := ih hmax' (p.drop c.maxPayload) wss.tail (by rw [List.length_drop]; omega)
        rcases writeRecord_payloads A c (p.take c.maxPayload) wss.headI with hone | ⟨-, hsome⟩
        · have hall := hfirst.cons hone herr hrest
          rwa [List.take_append_drop] at hall
        · rw [herr] at hsome
          cases hsome
  exact hloop p.length (Nat.le_refl _)

/-! ## The reading side -/

/-- Of all the texts, only those of the records `payloads` of this direction are under
its keys and nonces, and all of these are there. -/
structure Authentic (A : Sealer) (h : Half) (payloads : List Bytes) (log : List Sealed) : Prop where
  mem : ∀ e ∈ h.sealsFrom A 0 payloads, e ∈ log
  own : ∀ e ∈ log, ∀ i kind, i ≤ innerMaxCounter → (e.key = h.lenKey ∨ e.key = h.dataKey) →
    e.nonce = innerNonce h.dir i kind → e ∈ h.sealsFrom A 0 payloads
  counter : payloads.length ≤ innerMaxCounter + 1
  fits : ∀ p ∈ payloads, p.length ≤ innerPayloadLimit

section
variable {A : Sealer} {h : Half} {payloads : List Bytes} {log : List Sealed}

/-- A text under the keys and a nonce of the direction is the one of that record and
kind. -/
theorem Authentic.record (hauth : Authentic A h payloads log) {e : Sealed} (hmem : e ∈ log)
    {i : Nat} {kind : UInt8} (hi : i ≤ innerMaxCounter)
    (hkey : e.key = h.lenKey ∨ e.key = h.dataKey) (hnonce : e.nonce = innerNonce h.dir i kind) :
    ∃ p, payloads[i]? = some p ∧
      ((kind = innerKindLength ∧
          e = A.sealed h.lenKey (innerNonce h.dir i innerKindLength) (putBE 2 p.length) []) ∨
        (kind = innerKindData ∧ e = A.sealed h.dataKey (innerNonce h.dir i innerKindData) p [])) := by
  obtain ⟨j, p, hp, he⟩ := Half.mem_sealsFrom.mp (hauth.own e hmem i kind hi hkey hnonce)
  rw [Nat.zero_add] at he
  have hj := (List.getElem?_eq_some_iff.mp hp).1
  have hcounter := hauth.counter
  rcases Half.nonce_of_mem_sealAt he with rfl | rfl <;>
    obtain ⟨-, hkind, rfl⟩ := innerNonce_inj (by omega) hi hnonce
  · exact ⟨p, hp, .inl ⟨hkind.symm, rfl⟩⟩
  · exact ⟨p, hp, .inr ⟨hkind.symm, rfl⟩⟩

theorem Authentic.open_length (hauth : Authentic A h payloads log) {i : Nat} {text plain : Bytes}
    (hi : i ≤ innerMaxCounter)
    (hopen : openSealed log h.lenKey (innerNonce h.dir i innerKindLength) text [] = some plain) :
    ∃ p, payloads[i]? = some p ∧ plain = putBE 2 p.length ∧
      text = A.sealText h.lenKey (innerNonce h.dir i innerKindLength) (putBE 2 p.length) [] := by
  obtain ⟨p, hp, ⟨-, heq⟩ | ⟨hkind, -⟩⟩ :=
    hauth.record (openSealed_eq_some hopen) hi (.inl rfl) rfl
  · injection heq with _ _ hplain _ htext
    exact ⟨p, hp, hplain, htext⟩
  · exact absurd hkind (by decide)

theorem Authentic.open_data (hauth : Authentic A h payloads log) {i : Nat} {text plain : Bytes}
    (hi : i ≤ innerMaxCounter)
    (hopen : openSealed log h.dataKey (innerNonce h.dir i innerKindData) text [] = some plain) :
    payloads[i]? = some plain ∧
      text = A.sealText h.dataKey (innerNonce h.dir i innerKindData) plain [] := by
  obtain ⟨p, hp, ⟨hkind, -⟩ | ⟨-, heq⟩⟩ :=
    hauth.record (openSealed_eq_some hopen) hi (.inr rfl) rfl
  · exact absurd hkind (by decide)
  · injection heq with _ _ hplain _ htext
    subst hplain
    exact ⟨hp, htext⟩

theorem Authentic.opens (hauth : Authentic A h payloads log) {i : Nat} {p : Bytes}
    (hp : payloads[i]? = some p) :
    openSealed log h.lenKey (innerNonce h.dir i innerKindLength)
      (A.sealText h.lenKey (innerNonce h.dir i innerKindLength) (putBE 2 p.length) []) [] =
        some (putBE 2 p.length) ∧
    openSealed log h.dataKey (innerNonce h.dir i innerKindData)
      (A.sealText h.dataKey (innerNonce h.dir i innerKindData) p []) [] = some p := by
  have hi := (List.getElem?_eq_some_iff.mp hp).1
  have hcounter := hauth.counter
  have hsealed : ∀ e ∈ h.sealAt A i p, e ∈ log := by
    intro e he
    refine hauth.mem e (Half.mem_sealsFrom.mpr ⟨i, p, hp, ?_⟩)
    rwa [Nat.zero_add]
  refine ⟨?_, ?_⟩
  · refine openSealed_of_unique (e := A.sealed h.lenKey _ _ []) (hsealed _ List.mem_cons_self) ?_
    intro e he hkey hnonce
    obtain ⟨q, hq, ⟨-, rfl⟩ | ⟨hkind, -⟩⟩ := hauth.record he (by omega) (.inl hkey) hnonce
    · obtain rfl := Option.some.inj (hp ▸ hq)
      rfl
    · exact absurd hkind (by decide)
  · refine openSealed_of_unique (e := A.sealed h.dataKey _ _ [])
      (hsealed _ (List.mem_cons_of_mem _ List.mem_cons_self)) ?_
    intro e he hkey hnonce
    obtain ⟨q, hq, ⟨hkind, -⟩ | ⟨-, rfl⟩⟩ := hauth.record he (by omega) (.inr hkey) hnonce
    · exact absurd hkind (by decide)
    · obtain rfl := Option.some.inj (hp ▸ hq)
      rfl

variable {cut : Bool} {i n : Nat}

theorem readFull_ok {inbox bs rest : Bytes} (hfull : readFull inbox cut n = .ok bs rest) : inbox = bs ++ rest := by
  unfold readFull at hfull
  split at hfull
  · injection hfull with hbs hrest
    rw [← hbs, ← hrest, List.take_append_drop]
  · split at hfull <;> cases hfull

theorem readFull_append (bs rest : Bytes) (cut : Bool) (hn : bs.length = n) :
    readFull (bs ++ rest) cut n = .ok bs rest := by
  unfold readFull
  subst hn
  rw [if_pos (by rw [List.length_append]; omega), List.take_left, List.drop_left]

theorem readFull_prefix {inbox bs rest : Bytes} (cut : Bool) (hn : bs.length = n) (hpre : inbox <+: bs ++ rest) :
    (inbox ≠ bs ++ rest ∧ (readFull inbox cut n = .blocked ∨ readFull inbox cut n = .failed)) ∨
      ∃ more, inbox = bs ++ more ∧ more <+: rest := by
  rcases Nat.lt_or_ge inbox.length n with hlt | hge
  · left
    have hshort : inbox ≠ bs ++ rest := by
      rintro rfl
      rw [List.length_append] at hlt
      omega
    unfold readFull
    rw [if_neg (by omega)]
    cases cut with
    | true => exact ⟨hshort, .inr rfl⟩
    | false => exact ⟨hshort, .inl rfl⟩
  · right
    obtain ⟨more, rfl⟩ := List.prefix_of_prefix_length_le (List.prefix_append bs rest) hpre (by omega)
    exact ⟨more, rfl, (List.prefix_append_right_inj bs).mp hpre⟩

theorem sealAt_wire (i : Nat) (p : Bytes) :
    wire (h.sealAt A i p) =
      A.sealText h.lenKey (innerNonce h.dir i innerKindLength) (putBE 2 p.length) [] ++
        A.sealText h.dataKey (innerNonce h.dir i innerKindData) p [] := by
  show _ ++ (_ ++ []) = _
  rw [List.append_nil]
  rfl

theorem Authentic.getBE_length (hauth : Authentic A h payloads log) {p : Bytes} (hp : payloads[i]? = some p) :
    getBE (putBE 2 p.length) = p.length := by
  have hfits := hauth.fits p (List.mem_of_getElem? hp)
  have hlimit : innerPayloadLimit < 256 ^ 2 := by decide
  rw [getBE_putBE, Nat.mod_eq_of_lt (by omega)]

/-- A record that is read is the next one of the other end, and it took exactly the
texts of this record from the connection. -/
theorem readRecord_ok (hauth : Authentic A h payloads log) {c c' : InnerConn} {inbox rest : Bytes}
    (hreading : c.reading = h) (hread : readRecord log cut c inbox = .ok c' rest) :
    ∃ p, payloads[c.readCounter]? = some p ∧
      c' = { c with readCounter := c.readCounter + 1, readBuf := p } ∧
      inbox = wire (h.sealAt A c.readCounter p) ++ rest := by
  subst hreading
  -- every way out of `readRecord` but the last is a failure
  unfold readRecord at hread
  split at hread
  · cases hread
  · cases hread
  rename_i head rest₀ hhead
  split at hread
  · cases hread
  rename_i hspent
  split at hread
  · cases hread
  rename_i lenPlain hlen
  split at hread
  · cases hread
  split at hread
  · cases hread
  split at hread
  · cases hread
  · cases hread
  rename_i body rest₁ hbody
  split at hread
  · cases hread
  rename_i plain hdata
  injection hread with hc hrest
  obtain ⟨p, hp, rfl, hheadText⟩ := hauth.open_length (by omega) hlen
  obtain ⟨hplain, hbodyText⟩ := hauth.open_data (by omega) hdata
  obtain rfl : p = plain := Option.some.inj (hp ▸ hplain)
  refine ⟨p, hp, hc.symm, ?_⟩
  rw [readFull_ok hhead, readFull_ok hbody, sealAt_wire, hrest, List.append_assoc]
  exact congrArg₂ (· ++ ·) hheadText (congrArg (· ++ rest) hbodyText)

/-- On a connection that has delivered a prefix of the records to come, a record is
not rejected, and it is read if all of them are there. -/
theorem readRecord_clean (hauth : Authentic A h payloads log) {inbox : Bytes} (cut : Bool) (hreading : c.reading = h)
    (hmax : c.maxPayload = innerPayloadLimit)
    (hpre : inbox <+: wire (h.sealsFrom A c.readCounter (payloads.drop c.readCounter))) :
    ((readRecord log cut c inbox = .blocked ∨ readRecord log cut c inbox = .failed .conn []) ∧
        (inbox = wire (h.sealsFrom A c.readCounter (payloads.drop c.readCounter)) →
          payloads.drop c.readCounter = [])) ∨
      ∃ p rest, payloads[c.readCounter]? = some p ∧
        inbox = wire (h.sealAt A c.readCounter p) ++ rest ∧
        readRecord log cut c inbox =
          .ok { c with readCounter := c.readCounter + 1, readBuf := p } rest := by
  subst hreading
  cases hdrop : payloads.drop c.readCounter with
  | nil =>
    left
    rw [hdrop] at hpre
    obtain rfl := List.prefix_nil.mp hpre
    refine ⟨?_, fun _ => rfl⟩
    unfold readRecord readFull
    cases cut with
    | true => exact .inr rfl
    | false => exact .inl rfl
  | cons p ps =>
    have hp : payloads[c.readCounter]? = some p := by
      rw [← List.head?_drop, hdrop]
      rfl
    have hi := (List.getElem?_eq_some_iff.mp hp).1
    have hcounter := hauth.counter
    have hfits := hauth.fits p (List.mem_of_getElem? hp)
    obtain ⟨hopenLen, hopenData⟩ := hauth.opens hp
    have hheadLen : ∀ key nonce,
        (A.sealText key nonce (putBE 2 p.length) []).length = 2 + overhead := by
      intro key nonce
      rw [A.sealText_length, putBE_length]
      rfl
    have hbodyLen : ∀ key nonce, (A.sealText key nonce p []).length = p.length + overhead :=
      fun key nonce => A.sealText_length key nonce p []
    rw [hdrop, Half.sealsFrom, wire_append, sealAt_wire, List.append_assoc] at hpre
    replace hopenLen : openSealed log c.lenReadKey _ _ [] = _ := hopenLen
    replace hopenData : openSealed log c.readKey _ _ [] = _ := hopenData
    rw [Half.sealsFrom, wire_append, sealAt_wire, List.append_assoc]
    unfold readRecord
    dsimp only [InnerConn.reading] at hopenLen hopenData hpre ⊢
    -- the text of the length has not arrived, or only that of the data, or both have
    rcases readFull_prefix cut (hheadLen _ _) hpre with ⟨hshort, hfull⟩ | ⟨more, rfl, hmore⟩
    · left
      refine ⟨?_, fun heq => absurd heq hshort⟩
      rcases hfull with hfull | hfull
      · exact .inl (by rw [hfull])
      · exact .inr (by rw [hfull])
    rw [readFull_append _ _ _ (hheadLen _ _)]
    dsimp only
    rw [if_neg (by omega), hopenLen]
    dsimp only
    rw [if_neg (by rw [putBE_length]; decide), hauth.getBE_length hp, if_neg (by omega)]
    rcases readFull_prefix cut (hbodyLen _ _) hmore with ⟨hshort, hfull⟩ | ⟨more', rfl, -⟩
    · left
      refine ⟨?_, fun heq => absurd (List.append_cancel_left heq) hshort⟩
      rcases hfull with hfull | hfull
      · exact .inl (by rw [hfull])
      · exact .inr (by rw [hfull])
    right
    rw [readFull_append _ _ _ (hbodyLen _ _)]
    dsimp only
    rw [hopenData]
    refine ⟨p, more', hp, ?_, rfl⟩
    rw [sealAt_wire, List.append_assoc]

/-- Where a reader stands: what it has returned and still has buffered is what the
records it has read carry, and until it fails it has taken exactly the texts of these
records from what was delivered. -/
structure Tracks (A : Sealer) (h : Half) (payloads : List Bytes) (c : InnerConn)
    (inbox delivered got : Bytes) : Prop where
  reading : c.reading = h
  maxPayload : c.maxPayload = innerPayloadLimit
  count : c.readCounter ≤ payloads.length
  bytes : got ++ c.readBuf = (payloads.take c.readCounter).flatten
  place : c.readErr = none →
    delivered = wire (h.sealsFrom A 0 (payloads.take c.readCounter)) ++ inbox
  stopped : c.readErr ≠ none → c.readBuf = []

theorem wire_take_drop (hi : i ≤ payloads.length) : wire (h.sealsFrom A 0 payloads) =
      wire (h.sealsFrom A 0 (payloads.take i)) ++ wire (h.sealsFrom A i (payloads.drop i)) := by
  calc wire (h.sealsFrom A 0 payloads)
      = wire (h.sealsFrom A 0 (payloads.take i ++ payloads.drop i)) := by rw [List.take_append_drop]
    _ = _ := by
      rw [Half.sealsFrom_append, wire_append, List.length_take, Nat.zero_add, Nat.min_eq_left hi]

variable {bs delivered got inbox p rest : Bytes} {c c' : InnerConn}

/-- What a reader that has not failed has left is the rest of what was delivered. -/
theorem Tracks.inbox_prefix (ht : Tracks A h payloads c inbox delivered got) (herr : c.readErr = none)
    (hclean : delivered <+: wire (h.sealsFrom A 0 payloads)) :
    inbox <+: wire (h.sealsFrom A c.readCounter (payloads.drop c.readCounter)) := by
  rw [ht.place herr, wire_take_drop ht.count] at hclean
  exact (List.prefix_append_right_inj _).mp hclean

theorem take_succ_of_get (hp : payloads[i]? = some p) : payloads.take (i + 1) = payloads.take i ++ [p] := by
  rw [List.take_add_one, hp]
  rfl

theorem Tracks.record (ht : Tracks A h payloads c inbox delivered got) (herr : c.readErr = none) (hbuf : c.readBuf = [])
    (hp : payloads[c.readCounter]? = some p) (hinbox : inbox = wire (h.sealAt A c.readCounter p) ++ rest) :
    Tracks A h payloads { c with readCounter := c.readCounter + 1, readBuf := p } rest delivered
      got := by
  have hi := (List.getElem?_eq_some_iff.mp hp).1
  refine ⟨ht.reading, ht.maxPayload, hi, ?_, fun _ => ?_, fun hne => absurd herr hne⟩
  · dsimp only
    rw [take_succ_of_get hp, List.flatten_append, ← ht.bytes, hbuf, List.append_nil,
      List.flatten_singleton]
  · dsimp only
    rw [take_succ_of_get hp, Half.sealsFrom_append, wire_append, List.length_take,
      Nat.min_eq_left ht.count, Nat.zero_add, ht.place herr, hinbox, List.append_assoc]
    show _ = _ ++ (wire (_ ++ []) ++ rest)
    rw [List.append_nil]

/-- What a call of `Read` does that returns `bs` and `err`: the reader stays in place,
its error is the one it keeps, and it does not reject what is delivered in order. -/
structure ReadOk (A : Sealer) (h : Half) (payloads : List Bytes) (size : Nat) (c : InnerConn)
    (delivered got : Bytes) (c' : InnerConn) (rest bs : Bytes) (err : Option ReadError) : Prop where
  tracks : Tracks A h payloads c' rest delivered (got ++ bs)
  writing : c'.writing = c.writing
  writeCounter : c'.writeCounter = c.writeCounter
  kept : err = none → c'.readErr = c.readErr
  failed : err ≠ none → c'.readErr = err
  again : 0 < size ∨ err ≠ none → c.readErr ≠ none → err = c.readErr
  clean : delivered <+: wire (h.sealsFrom A 0 payloads) → c.readErr = none →
    err = none ∨ err = some .conn

theorem readLoop_ok (hauth : Authentic A h payloads log) {size fuel : Nat} {err : Option ReadError}
    (ht : Tracks A h payloads c inbox delivered got)
    (hread : readLoop log cut size fuel c inbox = .returned c' rest bs err) :
    ReadOk A h payloads size c delivered got c' rest bs err := by
  induction fuel generalizing c inbox with
  | zero => cases hread
  | succ fuel ih =>
    unfold readLoop at hread
    split at hread
    · -- bytes are left in the buffer
      rename_i hbuf
      injection hread with hc hrest hbs herr
      subst hc hrest hbs herr
      have hok : c.readErr = none := by
        by_contra hne
        rw [ht.stopped hne] at hbuf
        cases hbuf
      refine ⟨⟨ht.reading, ht.maxPayload, ht.count, ?_, ht.place, fun hne => absurd hok hne⟩, rfl, rfl,
        fun _ => rfl, fun hne => absurd rfl hne, fun _ hne => absurd hok hne, fun _ _ => .inl rfl⟩
      dsimp only
      rw [List.append_assoc, List.take_append_drop]
      exact ht.bytes
    rename_i hbuf
    replace hbuf : c.readBuf = [] := List.length_eq_zero_iff.mp (by omega)
    split at hread
    · -- the error of an earlier call
      rename_i e hkept
      injection hread with hc hrest hbs herr
      subst hc hrest hbs herr
      have hne : c.readErr ≠ none := by
        rw [hkept]
        exact Option.some_ne_none e
      refine ⟨?_, rfl, rfl, fun hnone => absurd hnone (Option.some_ne_none e), fun _ => hkept,
        fun _ _ => hkept.symm, fun _ hnone => absurd hnone hne⟩
      rw [List.append_nil]
      exact ht
    rename_i hok
    split at hread
    · cases hread
    · -- this call fails
      rename_i e rest₀ hrec
      injection hread with hc hrest hbs herr
      subst hc hrest hbs herr
      refine ⟨⟨ht.reading, ht.maxPayload, ht.count, ?_, fun hnone => absurd hnone
          (Option.some_ne_none e), fun _ => hbuf⟩, rfl, rfl,
        fun hnone => absurd hnone (Option.some_ne_none e), fun _ => rfl,
        fun _ hne => absurd hok hne, fun hclean _ => ?_⟩
      · rw [List.append_nil]
        exact ht.bytes
      rcases readRecord_clean hauth cut ht.reading ht.maxPayload (ht.inbox_prefix hok hclean) with
        ⟨hblocked | hfailed, -⟩ | ⟨p, more, -, -, hrecord⟩
      · rw [hblocked] at hrec
        cases hrec
      · rw [hfailed] at hrec
        injection hrec with he
        exact .inr (congrArg some he.symm)
      · rw [hrecord] at hrec
        cases hrec
    · -- a record was read, and the loop goes on
      rename_i c₁ rest₁ hrec
      obtain ⟨p, hp, rfl, hinbox⟩ := readRecord_ok hauth ht.reading hrec
      have hloop := ih (ht.record hok hbuf hp hinbox) hread
      exact ⟨hloop.tracks, hloop.writing, hloop.writeCounter, hloop.kept, hloop.failed,
        hloop.again, hloop.clean⟩

theorem ReadOk.stays {size : Nat} {err : Option ReadError}
    (hok : ReadOk A h payloads size c delivered got c' rest bs err) (hne : c.readErr ≠ none) :
    c'.readErr = c.readErr := by
  by_cases herr : err = none
  · exact hok.kept herr
  · exact (hok.failed herr).trans (hok.again (.inr herr) hne)

theorem read_ok (hauth : Authentic A h payloads log) {size : Nat} {err : Option ReadError}
    (ht : Tracks A h payloads c inbox delivered got) (hread : read log cut c inbox size = .returned c' rest bs err) :
    ReadOk A h payloads size c delivered got c' rest bs err := by
  unfold read at hread
  split at hread
  · rename_i hsize
    injection hread with hc hrest hbs herr
    subst hc hrest hbs herr
    refine ⟨?_, rfl, rfl, fun _ => rfl, fun hne => absurd rfl hne, fun hpos => ?_, fun _ _ => .inl rfl⟩
    · rw [List.append_nil]
      exact ht
    · rcases hpos with hpos | hne
      · omega
      · exact absurd rfl hne
  · exact readLoop_ok hauth ht hread

theorem Tracks.inbox_of_all (ht : Tracks A h payloads c inbox delivered got) (hok : c.readErr = none)
    (hall : delivered = wire (h.sealsFrom A 0 payloads)) :
    inbox = wire (h.sealsFrom A c.readCounter (payloads.drop c.readCounter)) := by
  have hplace := ht.place hok
  rw [hall, wire_take_drop ht.count] at hplace
  exact (List.append_cancel_left hplace).symm

theorem read_next (hauth : Authentic A h payloads log) (cut : Bool) {size : Nat}
    (ht : Tracks A h payloads c inbox delivered got) (hok : c.readErr = none) (hbuf : c.readBuf = [])
    (hall : delivered = wire (h.sealsFrom A 0 payloads)) (hp : payloads[c.readCounter]? = some p) (hpos : 0 < p.length)
    (hsize : p.length ≤ size) : ∃ rest, read log cut c inbox size =
      .returned { c with readCounter := c.readCounter + 1, readBuf := [] } rest p none := by
  have hinbox := ht.inbox_of_all hok hall
  rcases readRecord_clean hauth cut ht.reading ht.maxPayload ⟨[], by rw [List.append_nil, ← hinbox]⟩ with
    ⟨-, hnone⟩ | ⟨p', rest, hp', htexts, hrecord⟩
  · have hi := (List.getElem?_eq_some_iff.mp hp).1
    have := List.drop_eq_nil_iff.mp (hnone hinbox)
    omega
  obtain rfl := Option.some.inj (hp.symm.trans hp')
  refine ⟨rest, ?_⟩
  have hfuel : ∃ fuel, inbox.length = fuel + 1 := by
    refine ⟨inbox.length - 1, ?_⟩
    rw [htexts, List.length_append, sealAt_wire, List.length_append, A.sealText_length]
    omega
  obtain ⟨fuel, hfuel⟩ := hfuel
  unfold read
  rw [if_neg (by omega), hfuel, readLoop, if_neg (by rw [hbuf]; decide), hok]
  dsimp only
  rw [hrecord]
  dsimp only
  rw [readLoop, if_pos hpos, List.take_of_length_le hsize, List.drop_of_length_le hsize]
  simp only [hok]

/-- Once all records have arrived, a `Read` returns bytes until all were read. -/
theorem readLoop_progress (hauth : Authentic A h payloads log) (cut : Bool) {size fuel : Nat} (hsize : 0 < size)
    (hfuel : inbox.length < fuel) (ht : Tracks A h payloads c inbox delivered got) (hok : c.readErr = none)
    (hall : delivered = wire (h.sealsFrom A 0 payloads)) : got = payloads.flatten ∨
      ∃ c' rest b bs, readLoop log cut size fuel c inbox = .returned c' rest (b :: bs) none := by
  induction fuel generalizing c inbox with
  | zero => omega
  | succ fuel ih =>
    unfold readLoop
    cases hbuf : c.readBuf with
    | cons b bs =>
      right
      rw [if_pos (by rw [List.length_cons]; omega)]
      obtain ⟨size, rfl⟩ : ∃ k, size = k + 1 := ⟨size - 1, by omega⟩
      exact ⟨_, _, b, bs.take size, rfl⟩
    | nil =>
      rw [if_neg (by decide), hok]
      dsimp only
      have hinbox := ht.inbox_of_all hok hall
      rcases readRecord_clean hauth cut ht.reading ht.maxPayload ⟨[], by rw [List.append_nil, ← hinbox]⟩ with
        ⟨-, hnone⟩ | ⟨p, rest, hp, htexts, hrecord⟩
      · -- there is no record to come
        left
        have hbytes := ht.bytes
        rwa [hbuf, List.append_nil, List.take_of_length_le (List.drop_eq_nil_iff.mp (hnone hinbox))]
          at hbytes
      · rw [hrecord]
        refine ih ?_ (ht.record hok hbuf hp htexts) hok
        have hshorter : 0 < (wire (h.sealAt A c.readCounter p)).length := by
          rw [sealAt_wire, List.length_append, A.sealText_length]
          omega
        rw [htexts, List.length_append] at hfuel
        omega

end

/-! ## Both ends -/

/-- What an end has sealed: its records in order, under its keys and counters. -/
structure Writes (A : Sealer) (h : Half) (e : Endpoint) : Prop where
  writing : e.conn.writing = h
  maxPayload : e.conn.maxPayload = innerPayloadLimit
  counter : e.conn.writeCounter = e.payloads.length
  seals : e.seals = h.sealsFrom A 0 e.payloads
  sound : ∀ w ∈ e.writes, w.Sound
  spent : e.payloads.length ≤ innerMaxCounter + 1
  emitted : e.broken = false → e.emitted = wire e.seals

/-- What an end has read, of the records of the other end. -/
structure Reads (A : Sealer) (h : Half) (peer e : Endpoint) : Prop where
  tracks : Tracks A h peer.payloads e.conn e.inbox e.delivered e.got
  kept : ∀ r ∈ e.reads, r.err ≠ none → e.conn.readErr = r.err
  failed : e.reads.Pairwise (fun r r' => r.err ≠ none → 0 < r'.size → r'.err = r.err)
  intact : e.tampered = false → peer.broken = false →
    e.delivered <+: peer.emitted ∧ (e.conn.readErr = none ∨ e.conn.readErr = some .conn)

/-- The invariant of a session whose two directions are `D`. -/
structure Inv (A : Sealer) (D : Side → Half) (s : Session) : Prop where
  dirs : (D .client).dir ≠ (D .server).dir
  writes : ∀ side, Writes A (D side) (s.ends side)
  reads : ∀ side, Reads A (D side.other) (s.ends side.other) (s.ends side)
  foreign : ∀ e ∈ s.foreign, ∀ side, e.key ≠ (D side).lenKey ∧ e.key ≠ (D side).dataKey

theorem Writes.fits {h : Half} {e : Endpoint} (hw : Writes A h e) : ∀ p ∈ e.payloads, p.length ≤ innerPayloadLimit := by
  intro p hp
  obtain ⟨_, hmem, hp⟩ := List.mem_flatten.mp hp
  obtain ⟨w, hw', rfl⟩ := List.mem_map.mp hmem
  exact (hw.sound w hw').fits p hp

theorem Endpoint.payloads_wrote (e : Endpoint) (p : Bytes) (answers : List (List Wrote))
    (r : WriteResult) : (e.wrote p answers r).payloads = e.payloads ++ r.payloads := by
  simp [payloads, wrote]

theorem Endpoint.broken_wrote (e : Endpoint) (p : Bytes) (answers : List (List Wrote))
    (r : WriteResult) :
    (e.wrote p answers r).broken = (e.broken || (r.call p answers).broken) := by
  simp [broken, wrote, WriteResult.call]

theorem Endpoint.sent_eq (e : Endpoint) : e.sent = e.payloads.flatten := by
  unfold sent payloads
  rw [List.flatten_flatten, List.map_map]
  rfl

theorem Side.other_other (side : Side) : side.other.other = side := by cases side <;> rfl

theorem Side.other_ne (side : Side) : side.other ≠ side := by cases side <;> decide

section
variable {A : Sealer} {D : Side → Half} {s : Session}

theorem Session.mem_log {e : Sealed} (side : Side) :
    e ∈ s.log ↔ e ∈ (s.ends side).seals ∨ e ∈ (s.ends side.other).seals ∨ e ∈ s.foreign := by
  unfold log
  rw [List.mem_append, List.mem_append, or_assoc]
  cases side with
  | client => exact Iff.rfl
  | server => exact or_left_comm

theorem Inv.dir_ne (h : Inv A D s) (side : Side) : (D side).dir ≠ (D side.other).dir := by
  cases side with
  | client => exact h.dirs
  | server => exact h.dirs.symm

theorem Inv.authentic (h : Inv A D s) (side : Side) :
    Authentic A (D side) (s.ends side).payloads s.log where
  mem e he := by
    rw [← (h.writes side).seals] at he
    exact (Session.mem_log side).mpr (.inl he)
  own e he i kind hi hkey hnonce := by
    rcases (Session.mem_log side).mp he with he | he | he
    · rwa [(h.writes side).seals] at he
    · -- the other end's texts carry its direction in their nonces
      rw [(h.writes side.other).seals] at he
      obtain ⟨j, p, hp, he⟩ := Half.mem_sealsFrom.mp he
      have hj := (List.getElem?_eq_some_iff.mp hp).1
      have hspent := (h.writes side.other).spent
      have hdir : ∀ k, innerNonce (D side.other).dir (0 + j) k ≠ innerNonce (D side).dir i kind := by
        intro k heq
        exact h.dir_ne side (innerNonce_inj (by omega) hi heq).1.symm
      rcases Half.nonce_of_mem_sealAt he with rfl | rfl <;> exact absurd hnonce (hdir _)
    · have hforeign := h.foreign e he side
      rcases hkey with hkey | hkey
      · exact absurd hkey hforeign.1
      · exact absurd hkey hforeign.2
  counter := (h.writes side).spent
  fits := (h.writes side).fits

/-! ### One step -/

theorem Session.put_self (s : Session) (side : Side) (e : Endpoint) : (s.put side e).ends side = e := by
  show Function.update s.ends side e side = e
  rw [Function.update_self]

theorem Session.put_other (s : Session) (side : Side) (e : Endpoint) :
    (s.put side e).ends side.other = s.ends side.other := by
  show Function.update s.ends side e side.other = s.ends side.other
  rw [Function.update_of_ne (Side.other_ne side)]

/-- An end changes: what it writes goes on, what it reads goes on, and so does what
the other end reads of it. -/
theorem Inv.put (h : Inv A D s) {side : Side} {e : Endpoint} (hw : Writes A (D side) e)
    (hr : Reads A (D side.other) (s.ends side.other) e)
    (hpeer : Reads A (D side) e (s.ends side.other)) : Inv A D (s.put side e) := by
  have hcases : ∀ t : Side, t = side ∨ t = side.other := by
    intro t
    cases t <;> cases side <;> decide
  refine ⟨h.dirs, fun t => ?_, fun t => ?_, h.foreign⟩
  · rcases hcases t with rfl | rfl
    · rw [Session.put_self]
      exact hw
    · rw [Session.put_other]
      exact h.writes _
  · rcases hcases t with rfl | rfl
    · rw [Session.put_self, Session.put_other]
      exact hr
    · rw [Side.other_other, Session.put_self, Session.put_other]
      exact hpeer

variable {p : Bytes} {r : WriteResult} {answers : List (List Wrote)} {h : Half}

theorem Writes.wrote {e : Endpoint} (hw : Writes A h e) (hr : WriteOk A e.conn p answers r) :
    Writes A h (e.wrote p answers r) where
  writing := by
    show r.conn.writing = h
    rw [hr.conn]
    exact hw.writing
  maxPayload := by
    show r.conn.maxPayload = _
    rw [hr.conn]
    exact hw.maxPayload
  counter := by
    show r.conn.writeCounter = _
    rw [Endpoint.payloads_wrote, hr.conn, List.length_append]
    exact congrArg (· + r.payloads.length) hw.counter
  seals := by
    show e.seals ++ r.seals = _
    rw [Endpoint.payloads_wrote, Half.sealsFrom_append, hw.seals, hr.seals, hw.counter, hw.writing,
      Nat.zero_add]
  sound w hmem := by
    rcases List.mem_append.mp hmem with hmem | hmem
    · exact hw.sound w hmem
    · obtain rfl := List.mem_singleton.mp hmem
      exact hr.sound
  spent := by
    rw [Endpoint.payloads_wrote, List.length_append]
    by_cases hnil : r.payloads = []
    · rw [hnil]
      exact hw.spent
    · have := hr.counter hnil
      rw [hw.counter] at this
      omega
  emitted hb := by
    rw [Endpoint.broken_wrote] at hb
    obtain ⟨hb, hb'⟩ := Bool.or_eq_false_iff.mp hb
    show e.emitted ++ r.emitted = wire (e.seals ++ r.seals)
    rw [wire_append, hw.emitted hb, hr.emitted hb']

theorem Reads.wrote {peer e : Endpoint} (hr : Reads A h peer e) : Reads A h (peer.wrote p answers r) e where
  tracks := by
    have ht := hr.tracks
    have htake : (peer.payloads ++ r.payloads).take e.conn.readCounter =
        peer.payloads.take e.conn.readCounter := List.take_append_of_le_length ht.count
    rw [Endpoint.payloads_wrote]
    refine ⟨ht.reading, ht.maxPayload, ?_, ?_, fun hok => ?_, ht.stopped⟩
    · rw [List.length_append]
      have := ht.count
      omega
    · rw [htake]
      exact ht.bytes
    · rw [htake]
      exact ht.place hok
  kept := hr.kept
  failed := hr.failed
  intact ht hb := by
    rw [Endpoint.broken_wrote] at hb
    obtain ⟨hpre, herr⟩ := hr.intact ht (Bool.or_eq_false_iff.mp hb).1
    exact ⟨hpre.trans (List.prefix_append _ _), herr⟩

theorem Reads.self_wrote {peer e : Endpoint} (hr : Reads A h peer e)
    (hconn : r.conn = { e.conn with writeCounter := e.conn.writeCounter + r.payloads.length }) :
    Reads A h peer (e.wrote p answers r) := by
  have ht := hr.tracks
  refine ⟨?_, ?_, hr.failed, ?_⟩
  · show Tracks A h peer.payloads r.conn e.inbox e.delivered e.got
    rw [hconn]
    exact ⟨ht.reading, ht.maxPayload, ht.count, ht.bytes, ht.place, ht.stopped⟩
  · show ∀ c ∈ e.reads, c.err ≠ none → r.conn.readErr = c.err
    rw [hconn]
    exact hr.kept
  · show e.tampered = false → peer.broken = false →
      e.delivered <+: peer.emitted ∧ (r.conn.readErr = none ∨ r.conn.readErr = some .conn)
    rw [hconn]
    exact hr.intact

theorem Inv.wrote (h : Inv A D s) (side : Side) (hr : WriteOk A (s.ends side).conn p answers r) :
    Inv A D (s.put side ((s.ends side).wrote p answers r)) := by
  have hpeer := h.reads side.other
  rw [Side.other_other] at hpeer
  exact h.put ((h.writes side).wrote hr) ((h.reads side).self_wrote hr.conn) hpeer.wrote

theorem Inv.deliver (h : Inv A D s) (side : Side) (bs : Bytes) :
    Inv A D (s.put side ((s.ends side).deliver bs (s.ends side.other).emitted)) := by
  have hw := h.writes side
  have hr := h.reads side
  have hpeer := h.reads side.other
  rw [Side.other_other] at hpeer
  have ht := hr.tracks
  refine h.put ⟨hw.writing, hw.maxPayload, hw.counter, hw.seals, hw.sound, hw.spent, hw.emitted⟩
    ⟨⟨ht.reading, ht.maxPayload, ht.count, ht.bytes, fun hok => ?_, ht.stopped⟩, hr.kept, hr.failed,
      fun htampered hb => ?_⟩
    ⟨hpeer.tracks, hpeer.kept, hpeer.failed, hpeer.intact⟩
  · show (s.ends side).delivered ++ bs = _ ++ ((s.ends side).inbox ++ bs)
    rw [ht.place hok, List.append_assoc]
    rfl
  · obtain ⟨htampered, hpre⟩ := Bool.or_eq_false_iff.mp htampered
    refine ⟨?_, (hr.intact htampered hb).2⟩
    rw [Bool.not_eq_eq_eq_not, Bool.not_false] at hpre
    exact List.isPrefixOf_iff_prefix.mp hpre

theorem Endpoint.got_concat (e : Endpoint) (r : ReadCall) :
    ((e.reads ++ [r]).map ReadCall.bs).flatten = e.got ++ r.bs := by
  rw [List.map_append, List.flatten_append]
  show _ ++ (r.bs ++ []) = _
  rw [List.append_nil]
  rfl

theorem Inv.read (h : Inv A D s) (side : Side) {size : Nat} {cut : Bool} {rest bs : Bytes} {err : Option ReadError}
    (hread : Record.read s.log cut (s.ends side).conn (s.ends side).inbox size =
      .returned c rest bs err) : Inv A D (s.put side { s.ends side with
      conn := c, inbox := rest, reads := (s.ends side).reads ++ [⟨size, bs, err⟩] }) := by
  have hw := h.writes side
  have hr := h.reads side
  have hpeer := h.reads side.other
  rw [Side.other_other] at hpeer
  have hok := read_ok (h.authentic side.other) hr.tracks hread
  refine h.put ⟨hok.writing.trans hw.writing, hok.tracks.maxPayload,
      hok.writeCounter.trans hw.counter, hw.seals, hw.sound, hw.spent, hw.emitted⟩
    ⟨?_, fun r hmem hne => ?_, ?_, fun htampered hb => ?_⟩
    ⟨hpeer.tracks, hpeer.kept, hpeer.failed, hpeer.intact⟩
  · have hgot := Endpoint.got_concat (s.ends side) ⟨size, bs, err⟩
    show Tracks A _ _ c rest _ (List.map ReadCall.bs _).flatten
    rw [hgot]
    exact hok.tracks
  · -- the error that is kept is the one of every call that failed
    rcases List.mem_append.mp hmem with hmem | hmem
    · have hkept := hr.kept r hmem hne
      exact (hok.stays (by rw [hkept]; exact hne)).trans hkept
    · obtain rfl := List.mem_singleton.mp hmem
      exact hok.failed hne
  · refine List.pairwise_append.mpr ⟨hr.failed, List.pairwise_singleton _ _, ?_⟩
    intro r hmem r' hmem' hne hsize
    obtain rfl := List.mem_singleton.mp hmem'
    have hkept := hr.kept r hmem hne
    exact (hok.again (.inl hsize) (by rw [hkept]; exact hne)).trans hkept
  · obtain ⟨hpre, herr⟩ := hr.intact htampered hb
    refine ⟨hpre, ?_⟩
    by_cases hfailed : (s.ends side).conn.readErr = none
    · have hsent : (s.ends side.other).emitted =
          wire ((D side.other).sealsFrom A 0 (s.ends side.other).payloads) := by
        rw [(h.writes side.other).emitted hb, (h.writes side.other).seals]
      rcases hok.clean (hsent ▸ hpre) hfailed with hnone | hconn
      · exact .inl ((hok.kept hnone).trans hfailed)
      · refine .inr ((hok.failed ?_).trans hconn)
        rw [hconn]
        exact Option.some_ne_none _
    · dsimp only
      rw [hok.stays hfailed]
      exact herr

theorem Inv.step {s' : Session} {a : Act} (h : Inv A D s) (hkeys : OtherKeys s a)
    (hstep : step A s a = some s') : Inv A D s' := by
  cases a with
  | write side p wss =>
    obtain rfl := Option.some.inj hstep
    exact h.wrote side (write_ok A (h.writes side).maxPayload p wss)
  | writeRecord side payload ws =>
    obtain rfl := Option.some.inj hstep
    exact h.wrote side (writeRecord_ok A (h.writes side).maxPayload payload ws)
  | foreign e =>
    obtain rfl := Option.some.inj hstep
    refine ⟨h.dirs, h.writes, h.reads, fun e' he' side => ?_⟩
    rcases List.mem_cons.mp he' with rfl | he'
    · have hkey := hkeys side
      have hwriting := (h.writes side).writing
      rw [← hwriting]
      exact hkey
    · exact h.foreign e' he' side
  | deliver side bs =>
    obtain rfl := Option.some.inj hstep
    exact h.deliver side bs
  | read side size cut =>
    simp only [Record.step] at hstep
    split at hstep
    · cases hstep
    · rename_i c rest bs err hread
      obtain rfl := Option.some.inj hstep
      exact h.read side hread

/-! ### What follows -/

theorem Inv.sealsWhatIsWritten (h : Inv A D s) : SealsWhatIsWritten A s := by
  intro side
  have hw := h.writes side
  rw [hw.writing]
  exact ⟨hw.seals, hw.sound⟩

theorem Inv.inOrder (h : Inv A D s) : InOrder s := by
  intro side
  rw [Endpoint.sent_eq]
  have ht := (h.reads side).tracks
  have hbuffered : (s.ends side).got <+:
      ((s.ends side.other).payloads.take (s.ends side).conn.readCounter).flatten := by
    rw [← ht.bytes]
    exact List.prefix_append _ _
  refine hbuffered.trans ?_
  rw [← congrArg List.flatten (List.take_append_drop (s.ends side).conn.readCounter
    (s.ends side.other).payloads), List.flatten_append]
  exact List.prefix_append _ _

theorem Inv.staysFailed (h : Inv A D s) : StaysFailed s := by
  intro side pre r post heq hne r' hmem hsize
  have hpair := (h.reads side).failed
  rw [heq] at hpair
  exact (List.pairwise_cons.mp (List.pairwise_append.mp hpair).2.1).1 r' hmem hne hsize

theorem Inv.noncesDistinct (h : Inv A D s) : NoncesDistinct s := by
  have hnonces : (((s.ends .client).seals ++ (s.ends .server).seals).map Sealed.nonce).Nodup := by
    have hc := h.writes .client
    have hs := h.writes .server
    have hspentC := hc.spent
    have hspentS := hs.spent
    rw [List.map_append, hc.seals, hs.seals]
    refine List.Nodup.append (Half.nonces_nodup 0 _ (by omega)) (Half.nonces_nodup 0 _ (by omega)) ?_
    intro n hn hn'
    obtain ⟨e, he, rfl⟩ := List.mem_map.mp hn
    obtain ⟨e', he', heq⟩ := List.mem_map.mp hn'
    obtain ⟨i, p, hp, he⟩ := Half.mem_sealsFrom.mp he
    obtain ⟨j, q, hq, he'⟩ := Half.mem_sealsFrom.mp he'
    have hi := (List.getElem?_eq_some_iff.mp hp).1
    have hj := (List.getElem?_eq_some_iff.mp hq).1
    have hdir : ∀ k k', innerNonce (D .server).dir (0 + j) k ≠ innerNonce (D .client).dir (0 + i) k' :=
      fun k k' heq => h.dirs (innerNonce_inj (by omega) (by omega) heq).1.symm
    rcases Half.nonce_of_mem_sealAt he with rfl | rfl <;>
      rcases Half.nonce_of_mem_sealAt he' with rfl | rfl <;>
      exact hdir _ _ heq
  refine List.Nodup.of_map Prod.snd ?_
  rw [List.map_map]
  exact hnonces

theorem Inv.complete (h : Inv A D s) : Complete s := by
  intro side hintact
  have hr := h.reads side
  have hw := h.writes side.other
  obtain ⟨-, herr⟩ := hr.intact hintact.1 hintact.2
  refine ⟨fun r hmem => ?_, fun size cut hsize hall hok => ?_, fun hwhole => ?_⟩
  · by_cases hne : r.err = none
    · exact .inl hne
    · rw [hr.kept r hmem hne] at herr
      exact herr
  · rw [Endpoint.sent_eq]
    unfold Record.read
    rw [if_neg (by omega)]
    refine readLoop_progress (h.authentic side.other) cut hsize (by omega) hr.tracks hok ?_
    rw [hall, hw.emitted hintact.2, hw.seals]
  · refine congrArg List.flatten (List.map_congr_left fun w hmem => ?_)
    exact ((hw.sound w hmem).whole (hwhole w hmem)).1

/-- The end that reads the next record. -/
def Endpoint.readNext (e : Endpoint) (size : Nat) (p rest : Bytes) : Endpoint :=
  { e with conn := { e.conn with readCounter := e.conn.readCounter + 1, readBuf := [] },
           inbox := rest, reads := e.reads ++ [⟨size, p, none⟩] }

/-- With all of it arrived, a `Read` that has room for the next record takes it. -/
theorem Inv.read_next (h : Inv A D s) (side : Side) (cut : Bool) {size : Nat}
    (hbroken : (s.ends side.other).broken = false) (hok : (s.ends side).conn.readErr = none)
    (hbuf : (s.ends side).conn.readBuf = []) (hall : (s.ends side).delivered = (s.ends side.other).emitted)
    (hp : (s.ends side.other).payloads[(s.ends side).conn.readCounter]? = some p) (hpos : 0 < p.length)
    (hsize : p.length ≤ size) :
    ∃ rest, Record.step A s (.read side size cut) = some (s.put side ((s.ends side).readNext size p rest)) := by
  have hw := h.writes side.other
  have hsent : (s.ends side).delivered =
      wire ((D side.other).sealsFrom A 0 (s.ends side.other).payloads) := by
    rw [hall, hw.emitted hbroken, hw.seals]
  obtain ⟨rest, hread⟩ := Record.read_next (h.authentic side.other) cut (h.reads side).tracks hok hbuf
    hsent hp hpos hsize
  refine ⟨rest, ?_⟩
  simp only [Record.step, hread]
  rfl

end

def halves (H : Hash) (psk client server : Bytes) : Side → Half :=
  fun side => ((Session.init H psk client server).ends side).conn.writing

theorem Inv.init (A : Sealer) (H : Hash) (psk client server : Bytes) :
    Inv A (halves H psk client server) (Session.init H psk client server) where
  dirs := by
    show innerDirClientToServer ≠ innerDirServerToClient
    decide
  writes side := by
    cases side <;>
      exact ⟨rfl, rfl, rfl, rfl, fun _ h => (nomatch h), Nat.zero_le _, fun _ => rfl⟩
  reads side := by
    cases side <;>
      exact ⟨⟨rfl, rfl, Nat.zero_le _, rfl, fun _ => rfl, fun _ => rfl⟩, fun _ h => (nomatch h),
        List.Pairwise.nil, fun _ _ => ⟨List.prefix_refl _, .inl rfl⟩⟩
  foreign _ h := nomatch h

/-- In every run, whatever the network does and however writes fail, each call that writes
seals what it is given; what an end has read is a prefix of what the other has sealed, and
all of it once it has arrived unmanipulated; a reader that has failed goes on failing; and
no key and nonce is used twice. -/
theorem secure_pipe (A : Sealer) (H : Hash) (psk client server : Bytes) (as : List Act)
    (s : Session) (hrun : Run (session A) (Session.init H psk client server) as s) :
    SealsWhatIsWritten A s ∧ InOrder s ∧ StaysFailed s ∧ NoncesDistinct s ∧ Complete s := by
  have hinv : Inv A (halves H psk client server) s := hrun.preserves
    (fun s a s' hs h => h.step hs.1 hs.2) (Inv.init A H psk client server)
  exact ⟨hinv.sealsWhatIsWritten, hinv.inOrder, hinv.staysFailed, hinv.noncesDistinct, hinv.complete⟩

/-! ## Two runs -/

def ours (_ : Session) : Act → Bool
  | .foreign _ => false
  | _ => true

theorem otherKeys_of_ours {s : Session} {a : Act} (h : ours s a = true) : OtherKeys s a := by
  cases a with
  | foreign e => cases h
  | write side p wss => trivial
  | writeRecord side payload ws => trivial
  | deliver side bs => trivial
  | read side size cut => trivial

theorem writeRecord_takes (A : Sealer) {payload : Bytes} {ws : List Wrote} (hfits : payload.length ≤ c.maxPayload)
    (hspent : c.writeCounter ≤ innerMaxCounter) (htakes : takes (recordSize payload) ws = true) :
    writeRecord A c payload ws = ⟨{ c with writeCounter := c.writeCounter + 1 },
      c.writing.sealAt A c.writeCounter payload, [payload],
      wire (c.writing.sealAt A c.writeCounter payload), payload.length, none⟩ := by
  unfold writeRecord sealRecord
  rw [if_neg (by omega), if_neg (by omega)]
  dsimp only
  rcases writeFull_spec (wire (c.writing.sealAt A c.writeCounter payload)) ws with
    ⟨-, hfull⟩ | ⟨hshort, -⟩
  · rw [hfull]
  · rw [wire_sealAt_length, htakes] at hshort
    cases hshort

theorem writeLoop_nil (A : Sealer) (fuel : Nat) (c : InnerConn) (wss : List (List Wrote)) :
    writeLoop A fuel c [] wss = ⟨c, [], [], [], 0, none⟩ := by
  cases fuel <;> rfl

theorem write_two (A : Sealer) {p q : Bytes} {ws ws' : List Wrote} (hmax : c.maxPayload = innerPayloadLimit)
    (hcounter : c.writeCounter = 0) (hp : p.length = innerPayloadLimit) (hq : q.length = 1)
    (htakes : takes (recordSize p) ws = true) (htakes' : takes (recordSize q) ws' = true) :
    (write A c (p ++ q) [ws, ws']).payloads = [p, q] ∧ (write A c (p ++ q) [ws, ws']).err = none := by
  have hlength : (p ++ q).length = innerPayloadLimit - 1 + 1 + 1 := by
    rw [List.length_append, hp, hq]
    rfl
  have htake : (p ++ q).take c.maxPayload = p := by rw [hmax, ← hp, List.take_left]
  have hdrop : (p ++ q).drop c.maxPayload = q := by rw [hmax, ← hp, List.drop_left]
  have hspent : 1 ≤ innerMaxCounter := by decide
  have hfirst := writeRecord_takes A (c := c) (by omega) (by omega) htakes
  have hsecond := writeRecord_takes A (c := { c with writeCounter := c.writeCounter + 1 })
    (by rw [hmax, hq]; decide) (by rw [hcounter]; exact hspent) htakes'
  have hlast : q.take c.maxPayload = q ∧ q.drop c.maxPayload = [] := by
    have hle : q.length ≤ c.maxPayload := by
      rw [hmax, hq]
      decide
    exact ⟨List.take_of_length_le hle, List.drop_of_length_le hle⟩
  unfold write
  rw [hlength, writeLoop, if_neg (by omega), htake, hdrop]
  simp only [List.headI_cons, List.tail_cons, hfirst, Option.isSome_none, Bool.false_eq_true,
    if_false]
  rw [writeLoop, if_neg (by omega)]
  simp only [hlast.1, hlast.2, List.headI_cons, List.tail_cons, hsecond, Option.isSome_none,
    Bool.false_eq_true, if_false, writeLoop_nil]
  exact ⟨rfl, trivial⟩

theorem takes_once (n : Nat) : takes n [⟨n, false⟩] = true := by
  cases n with
  | zero => rfl
  | succ n => simp [takes]

section
variable (A : Sealer) (H : Hash) (psk client server : Bytes) (p q : Bytes)

/-- How the underlying connection answers: each record leaves in one write. -/
def answers : List (List Wrote) := [[⟨recordSize p, false⟩], [⟨recordSize q, false⟩]]

/-- After one call of `Write`, and after its texts have arrived. -/
def afterWrite : Session :=
  let s := Session.init H psk client server
  s.put .client ((s.ends .client).wrote (p ++ q) (answers p q)
    (write A (s.ends .client).conn (p ++ q) (answers p q)))

def afterDelivery : Session :=
  let s := afterWrite A H psk client server p q
  s.put .server ((s.ends .server).deliver (s.ends .client).emitted (s.ends .client).emitted)

theorem run_afterDelivery : Run (session A) (Session.init H psk client server)
    [.write .client (p ++ q) (answers p q),
      .deliver .server ((afterWrite A H psk client server p q).ends .client).emitted]
    (afterDelivery A H psk client server p q) :=
  Run.cons ⟨trivial, rfl⟩ (Run.single ⟨trivial, rfl⟩)

/-- Two records are written by one call, arrive and are read, one at a time. -/
theorem two_records_delivered {p q : Bytes} (hp : p.length = innerPayloadLimit) (hq : q.length = 1) :
    ∃ as s, Run (session A) (Session.init H psk client server) as s ∧ (s.ends .server).got = p ++ q := by
  have hwrite := write_two A (c := ((Session.init H psk client server).ends .client).conn) rfl rfl hp hq
    (takes_once (recordSize p)) (takes_once (recordSize q))
  have hrun := run_afterDelivery A H psk client server p q
  have hinv : Inv A (halves H psk client server) (afterDelivery A H psk client server p q) :=
    hrun.preserves (fun s a s' hs h => h.step hs.1 hs.2) (Inv.init A H psk client server)
  generalize hs : afterDelivery A H psk client server p q = s at hrun hinv
  have hpayloads : (s.ends .client).payloads = [p, q] := by
    subst hs
    exact (Endpoint.payloads_wrote _ _ _ _).trans hwrite.1
  have hbroken : (s.ends .client).broken = false := by
    subst hs
    refine (Endpoint.broken_wrote _ _ _ _).trans ?_
    show (false || Option.any _ (write _ _ _ _).err) = false
    rw [answers, hwrite.2]
    rfl
  have hserver : (s.ends .server).conn.readErr = none ∧ (s.ends .server).conn.readBuf = [] ∧
      (s.ends .server).conn.readCounter = 0 ∧ (s.ends .server).reads = [] ∧
      (s.ends .server).delivered = (s.ends .client).emitted := by
    subst hs
    exact ⟨rfl, rfl, rfl, rfl, rfl⟩
  obtain ⟨hok, hbuf, hcount, hreads, hall⟩ := hserver
  have hlimit : 0 < innerPayloadLimit := by decide
  obtain ⟨rest, hfirst⟩ := hinv.read_next .server false (p := p) hbroken hok hbuf hall
    (by rw [hcount]; exact congrArg (·[0]?) hpayloads) (by omega) (Nat.le_refl _)
  have hinv' := hinv.step (a := .read .server p.length false) trivial hfirst
  obtain ⟨rest', hsecond⟩ := hinv'.read_next .server false (p := q) hbroken hok rfl hall
    (by
      show (s.ends .client).payloads[(s.ends .server).conn.readCounter + 1]? = _
      rw [hcount]
      exact congrArg (·[1]?) hpayloads)
    (by omega) (Nat.le_refl _)
  have hreading : Run (session A) s [.read .server p.length false, .read .server q.length false] _ :=
    Run.cons ⟨trivial, hfirst⟩ (Run.single ⟨trivial, hsecond⟩)
  refine ⟨_, _, hrun.trans hreading, ?_⟩
  show (List.map ReadCall.bs (((s.ends .server).reads ++ [_]) ++ [_])).flatten = _
  rw [hreads]
  show p ++ (q ++ []) = p ++ q
  rw [List.append_nil]

end

/-- One byte more than a record holds is written, arrives and is read. -/
theorem secure_pipe_delivers :
    ∃ s, (s.ends .server).got = List.replicate innerPayloadLimit 7 ++ [8] ∧
      (SealsWhatIsWritten .null s ∧ InOrder s ∧ StaysFailed s ∧ NoncesDistinct s ∧ Complete s) := by
  obtain ⟨as, s, hrun, hgot⟩ := two_records_delivered .null zeroHash [] [] []
    (List.length_replicate (n := innerPayloadLimit) (a := (7 : UInt8))) (rfl : [(8 : UInt8)].length = 1)
  exact ⟨s, hgot, secure_pipe .null zeroHash [] [] [] as s hrun⟩

/-- After a call of `Read` that failed, every later one fails, whatever its buffer. -/
def EveryReadFails (s : Session) : Prop :=
  ∀ side pre r post, (s.ends side).reads = pre ++ r :: post → r.err ≠ none →
    ∀ r' ∈ post, r'.err ≠ none

/-- A `Read` into an empty buffer succeeds after a record was rejected. -/
theorem empty_read_after_rejection :
    ¬ ∀ (A : Sealer) (H : Hash) (psk client server : Bytes) (as : List Act) (s : Session),
      Run (session A) (Session.init H psk client server) as s →
        SealsWhatIsWritten A s ∧ InOrder s ∧ EveryReadFails s ∧ NoncesDistinct s ∧ Complete s := by
  intro h
  have hexec : ∃ s, exec (fun s a => if ours s a then step .null s a else none)
      (Session.init zeroHash [] [] [])
      [.deliver .server (List.replicate 18 0), .read .server 4 false, .read .server 0 false] =
        some s ∧
      (s.ends .server).reads = [⟨4, [], some .record⟩, ⟨0, [], none⟩] := ⟨_, rfl, rfl⟩
  obtain ⟨s, hexec, hreads⟩ := hexec
  have hfails := (h .null zeroHash [] [] [] _ s
    (exec_guarded (fun _ _ => otherKeys_of_ours) hexec)).2.2.1
  exact hfails .server [] _ _ hreads (Option.some_ne_none _) _ List.mem_cons_self rfl

end ForwardX.V3.Record
