import Mathlib.Data.List.Basic
import ForwardX.Lib.Transition
import ForwardX.Lib.Wire

/- The V3 inner handshake (`internal/v3/inner.go`): each side sends a mode byte
   with 16 bytes of random material, then a 16-byte tag over both materials under
   the tunnel PSK. `Net` is any number of honest endpoints on a network an
   adversary controls: it delivers what bytes it likes to whom it likes, so it may
   replay, reorder and reflect. The hash is arbitrary; that its tags are
   unforgeable is the condition `Admissible` puts on a delivered proof, and that
   materials are fresh is the condition it puts on a draw.

   The tag binds the ordered pair of materials and not the role. A server is
   therefore always authenticated (`Inv.server_auth`), while a client is only when
   no client ever holds the mirrored pair: the pair of a client that reads its own
   init back is its own mirror. -/
namespace ForwardX.V3.Handshake
open Wire Transition

/-- SHA-256 and HMAC-SHA256. -/
structure Hash where
  sha256 : Bytes → Bytes
  hmacSHA256 : Bytes → Bytes → Bytes
  hmac_length : ∀ key msg, (hmacSHA256 key msg).length = 32

def innerHandshakeSize : Nat := 17
def innerMaterialSize : Nat := 16
def innerTagSize : Nat := 16
def innerModeAEAD : UInt8 := 2

/-- The label hashed in front of the PSK, its terminating NUL included. -/
def innerTagLabel : Bytes := "forwardx-v3 inner handshake".toUTF8.toList ++ [0]

/-- `innerTag`: the tag over both materials, the local one first. -/
def innerTag (H : Hash) (psk own peer : Bytes) : Bytes :=
  (H.hmacSHA256 (H.sha256 (innerTagLabel ++ psk)) (own ++ peer)).take innerTagSize

/-- `writeInnerInit`: mode byte and material, or an error on a wrong length. -/
def writeInnerInit (material : Bytes) : Option Bytes :=
  if material.length ≠ innerMaterialSize then none else some (innerModeAEAD :: material)

/-- `readInnerInit` on the 17 bytes it has read. -/
def readInnerInit : Bytes → Option Bytes
  | [] => none
  | mode :: material => if mode ≠ innerModeAEAD then none else some material

/-- `readInnerProof` on the 16 bytes it has read. -/
def readInnerProof (H : Hash) (psk own peer proof : Bytes) : Bool :=
  proof == innerTag H psk peer own

inductive Role where
  | client
  | server
  deriving DecidableEq, Repr

/-- Where an honest endpoint stands: blocked in `readInnerInit`, blocked in
`readInnerProof` with the peer's material read, or returned, with a connection
for the peer's material or with an error. -/
inductive Phase where
  | readInit
  | readProof (peer : Bytes)
  | returned (peer : Bytes)
  | rejected
  deriving DecidableEq, Repr

/-- An honest endpoint. `conn` holds the bytes the network has delivered and the
endpoint has not read. -/
structure Endpoint where
  role : Role
  psk : Bytes
  material : Option Bytes
  phase : Phase
  conn : Bytes
  deriving DecidableEq, Repr

/-- A proof an honest endpoint has written: the tag over `own ++ peer`. -/
structure Proof where
  role : Role
  psk : Bytes
  own : Bytes
  peer : Bytes
  deriving DecidableEq, Repr

structure Net where
  endpoints : List Endpoint
  drawn : List (Role × Bytes)
  proofs : List Proof

def Net.init : Net := ⟨[], [], []⟩

/-- What can happen next. `client` and `server` call `InnerClient` and
`InnerServer`; `deliver` is the network; `hangup` ends a read with an error; `read`
completes the blocked read of endpoint `i`, with the material `rand.Read` yields if
the endpoint draws now and with the outcome `ok` of the write that follows it. -/
inductive Act where
  | client (psk material : Bytes) (ok : Bool)
  | server (psk : Bytes)
  | deliver (i : Nat) (bs : Bytes)
  | hangup (i : Nat)
  | read (i : Nat) (material : Bytes) (ok : Bool)

/-- `innerClientHandshake` up to its first read. -/
def clientStart (psk material : Bytes) (ok : Bool) : Endpoint :=
  match writeInnerInit material with
  | some _ => ⟨.client, psk, some material, if ok then .readInit else .rejected, []⟩
  | none => ⟨.client, psk, some material, .rejected, []⟩

/-- `innerServerHandshake` up to its first read. -/
def serverStart (psk : Bytes) : Endpoint := ⟨.server, psk, none, .readInit, []⟩

/-- The endpoint after `readInnerInit` has read `msg`: the client writes its
proof; the server draws its material and writes its init. -/
def afterInit (e : Endpoint) (msg material : Bytes) (ok : Bool) :
    Endpoint × List (Role × Bytes) × List Proof :=
  match readInnerInit msg with
  | none => ({ e with phase := .rejected }, [], [])
  | some peer =>
    let next := if ok then .readProof peer else .rejected
    match e.role, e.material with
    | .client, some own => ({ e with phase := next }, [], [⟨.client, e.psk, own, peer⟩])
    | .client, none => ({ e with phase := .rejected }, [], [])
    | .server, _ => ({ e with material := some material, phase := next }, [(.server, material)], [])

/-- The endpoint after `readInnerProof` has read `proof`: the client returns; the
server writes its own proof and returns. -/
def afterProof (H : Hash) (e : Endpoint) (peer proof : Bytes) (ok : Bool) :
    Endpoint × List Proof :=
  match e.material with
  | none => ({ e with phase := .rejected }, [])
  | some own =>
    if readInnerProof H e.psk own peer proof then
      match e.role with
      | .client => ({ e with phase := .returned peer }, [])
      | .server =>
        ({ e with phase := if ok then .returned peer else .rejected }, [⟨.server, e.psk, own, peer⟩])
    else ({ e with phase := .rejected }, [])

/-- One step of the network; `none` where the action is not enabled. -/
def step (H : Hash) (s : Net) : Act → Option Net
  | .client psk material ok =>
    some { s with endpoints := s.endpoints ++ [clientStart psk material ok],
                  drawn := s.drawn ++ [(.client, material)] }
  | .server psk => some { s with endpoints := s.endpoints ++ [serverStart psk] }
  | .deliver i bs => (s.endpoints[i]?).map fun e =>
      { s with endpoints := s.endpoints.set i { e with conn := e.conn ++ bs } }
  | .hangup i => (s.endpoints[i]?).map fun e =>
      { s with endpoints := s.endpoints.set i { e with phase := .rejected } }
  | .read i material ok => (s.endpoints[i]?).bind fun e =>
      match e.phase with
      | .readInit =>
        if e.conn.length < innerHandshakeSize then none
        else
          let r := afterInit { e with conn := e.conn.drop innerHandshakeSize }
            (e.conn.take innerHandshakeSize) material ok
          some ⟨s.endpoints.set i r.1, s.drawn ++ r.2.1, s.proofs ++ r.2.2⟩
      | .readProof peer =>
        if e.conn.length < innerTagSize then none
        else
          let r := afterProof H { e with conn := e.conn.drop innerTagSize } peer
            (e.conn.take innerTagSize) ok
          some ⟨s.endpoints.set i r.1, s.drawn, s.proofs ++ r.2⟩
      | _ => none

/-- `rand.Read` yields 16 bytes no honest endpoint has drawn before. -/
def Fresh (s : Net) (material : Bytes) : Prop :=
  material.length = innerMaterialSize ∧ ∀ r, (r, material) ∉ s.drawn

/-- The bytes at the head of the connection, when they verify as the proof for
`(own, peer)`, were not forged: some honest endpoint with this PSK has written the
tag of exactly the message the verifier recomputes. -/
def Unforged (H : Hash) (s : Net) (psk own peer proof : Bytes) : Prop :=
  readInnerProof H psk own peer proof = true →
    ∃ pr ∈ s.proofs, pr.psk = psk ∧ pr.own ++ pr.peer = peer ++ own

/-- What the environment is bound to: draws are fresh and proofs are not forged. -/
def Admissible (H : Hash) (s : Net) : Act → Prop
  | .client _ material _ => Fresh s material
  | .read i material _ => ∀ e, s.endpoints[i]? = some e →
      (e.role = .server → e.phase = .readInit → Fresh s material) ∧
      ∀ own peer, e.material = some own → e.phase = .readProof peer →
        Unforged H s e.psk own peer (e.conn.take innerTagSize)
  | _ => True

def net (H : Hash) : Steps Net Act := Guarded (Admissible H) (Steps.ofFn (step H))

/-- Whenever a client has returned a connection for `(own, peer)`, a server with
its PSK has written the proof for exactly that pair. -/
def ClientAuth (s : Net) : Prop :=
  ∀ e ∈ s.endpoints, ∀ own peer, e.role = .client → e.material = some own →
    e.phase = .returned peer → ⟨.server, e.psk, peer, own⟩ ∈ s.proofs

def ServerAuth (s : Net) : Prop :=
  ∀ e ∈ s.endpoints, ∀ own peer, e.role = .server → e.material = some own →
    e.phase = .returned peer → ⟨.client, e.psk, peer, own⟩ ∈ s.proofs

/-- The init a client is about to read does not complete a mirror: it carries
neither the client's own material nor that of a client with the same PSK that has
already written its proof for this client's material. -/
def NotMirrored (s : Net) : Act → Prop
  | .read i _ _ => ∀ e own peer, s.endpoints[i]? = some e → e.role = .client →
      e.phase = .readInit → e.material = some own →
      readInnerInit (e.conn.take innerHandshakeSize) = some peer →
      peer ≠ own ∧ ⟨.client, e.psk, peer, own⟩ ∉ s.proofs
  | _ => True

/-! ## What one read does -/

/-- What completing a blocked read can do to endpoint `i`, which was `e`: the
endpoint becomes `e'`, draws `d` and writes the proofs `p`. -/
inductive ReadEffect (H : Hash) (e : Endpoint) (material : Bytes) :
    Endpoint → List (Role × Bytes) → List Proof → Prop
  | reject (conn : Bytes) : ReadEffect H e material { e with conn := conn, phase := .rejected } [] []
  | clientProves {own peer conn : Bytes} (ok : Bool) :
      e.role = .client → e.phase = .readInit → e.material = some own →
      readInnerInit (e.conn.take innerHandshakeSize) = some peer → peer.length = innerMaterialSize →
      ReadEffect H e material
        { e with conn := conn, phase := if ok then .readProof peer else .rejected }
        [] [⟨.client, e.psk, own, peer⟩]
  | serverDraws {peer conn : Bytes} (ok : Bool) :
      e.role = .server → e.phase = .readInit → peer.length = innerMaterialSize →
      ReadEffect H e material
        { e with conn := conn, material := some material,
                 phase := if ok then .readProof peer else .rejected }
        [(.server, material)] []
  | clientReturns {own peer conn : Bytes} :
      e.role = .client → e.phase = .readProof peer → e.material = some own →
      readInnerProof H e.psk own peer (e.conn.take innerTagSize) = true →
      ReadEffect H e material { e with conn := conn, phase := .returned peer } [] []
  | serverProves {own peer conn : Bytes} (ok : Bool) :
      e.role = .server → e.phase = .readProof peer → e.material = some own →
      readInnerProof H e.psk own peer (e.conn.take innerTagSize) = true →
      ReadEffect H e material
        { e with conn := conn, phase := if ok then .returned peer else .rejected }
        [] [⟨.server, e.psk, own, peer⟩]

theorem readInnerInit_length {msg peer : Bytes} (h : readInnerInit msg = some peer) :
    msg.length = peer.length + 1 := by
  cases msg with
  | nil => simp [readInnerInit] at h
  | cons mode material =>
    simp only [readInnerInit] at h
    split at h
    · cases h
    · simp at h
      simp [h]

theorem afterInit_effect (H : Hash) {e : Endpoint} (material : Bytes) (ok : Bool)
    (hp : e.phase = .readInit) (hl : innerHandshakeSize ≤ e.conn.length) :
    let r := afterInit { e with conn := e.conn.drop innerHandshakeSize }
      (e.conn.take innerHandshakeSize) material ok
    ReadEffect H e material r.1 r.2.1 r.2.2 := by
  intro r
  have hr : r = afterInit { e with conn := e.conn.drop innerHandshakeSize }
      (e.conn.take innerHandshakeSize) material ok := rfl
  unfold afterInit at hr
  cases hi : readInnerInit (e.conn.take innerHandshakeSize) with
  | none =>
    rw [hi] at hr
    rw [hr]
    exact .reject _
  | some peer =>
    have hlen : peer.length = innerMaterialSize := by
      have := readInnerInit_length hi
      rw [List.length_take, Nat.min_eq_left hl] at this
      simp only [innerHandshakeSize] at this
      simp only [innerMaterialSize]
      omega
    rw [hi] at hr
    cases hrole : e.role with
    | client =>
      cases hm : e.material with
      | none =>
        simp only [hrole, hm] at hr
        have heff : ReadEffect H e material
            { e with conn := e.conn.drop innerHandshakeSize, phase := .rejected } [] [] := .reject _
        rw [hr]
        simpa only [hrole, hm] using heff
      | some own =>
        simp only [hrole, hm] at hr
        have heff : ReadEffect H e material
            { e with conn := e.conn.drop innerHandshakeSize,
                     phase := if ok then .readProof peer else .rejected }
            [] [⟨.client, e.psk, own, peer⟩] := .clientProves ok hrole hp hm hi hlen
        rw [hr]
        simpa only [hrole, hm] using heff
    | server =>
      simp only [hrole] at hr
      have heff : ReadEffect H e material
          { e with conn := e.conn.drop innerHandshakeSize, material := some material,
                   phase := if ok then .readProof peer else .rejected }
          [(.server, material)] [] := .serverDraws ok hrole hp hlen
      rw [hr]
      simpa only [hrole] using heff

theorem afterProof_effect (H : Hash) {e : Endpoint} {peer : Bytes} (material : Bytes) (ok : Bool)
    (hp : e.phase = .readProof peer) :
    let r := afterProof H { e with conn := e.conn.drop innerTagSize } peer
      (e.conn.take innerTagSize) ok
    ReadEffect H e material r.1 [] r.2 := by
  intro r
  have hr : r = afterProof H { e with conn := e.conn.drop innerTagSize } peer
      (e.conn.take innerTagSize) ok := rfl
  unfold afterProof at hr
  have hreject : ReadEffect H e material
      { e with conn := e.conn.drop innerTagSize, phase := .rejected } [] [] := .reject _
  cases hm : e.material with
  | none =>
    simp only [hm] at hr
    rw [hr]
    simpa only [hm] using hreject
  | some own =>
    simp only [hm] at hr
    cases hv : readInnerProof H e.psk own peer (e.conn.take innerTagSize) with
    | false =>
      simp only [hv, Bool.false_eq_true, if_false] at hr
      rw [hr]
      simpa only [hm] using hreject
    | true =>
      simp only [hv, if_true] at hr
      cases hrole : e.role with
      | client =>
        simp only [hrole] at hr
        have heff : ReadEffect H e material
            { e with conn := e.conn.drop innerTagSize, phase := .returned peer } [] [] :=
          .clientReturns hrole hp hm hv
        rw [hr]
        simpa only [hrole, hm] using heff
      | server =>
        simp only [hrole] at hr
        have heff : ReadEffect H e material
            { e with conn := e.conn.drop innerTagSize,
                     phase := if ok then .returned peer else .rejected }
            [] [⟨.server, e.psk, own, peer⟩] := .serverProves ok hrole hp hm hv
        rw [hr]
        simpa only [hrole, hm] using heff

variable {e : Endpoint} {i : Nat} {s s' : Net} {H : Hash}

/-- A completed read has one of the effects, on the endpoint it is about. -/
theorem step_read {material : Bytes} {ok : Bool} (h : step H s (.read i material ok) = some s') :
    ∃ e e' d p, s.endpoints[i]? = some e ∧ ReadEffect H e material e' d p ∧
      s' = ⟨s.endpoints.set i e', s.drawn ++ d, s.proofs ++ p⟩ := by
  simp only [step] at h
  obtain ⟨e, he, h⟩ := Option.bind_eq_some_iff.mp h
  cases hp : e.phase with
  | readInit =>
    simp only [hp] at h
    split at h
    · cases h
    · rename_i hl
      simp only [Option.some.injEq] at h
      have hr := afterInit_effect H material ok hp (Nat.le_of_not_lt hl)
      simp only [hp] at hr
      exact ⟨e, _, _, _, he, hr, h.symm⟩
  | readProof peer =>
    simp only [hp] at h
    split at h
    · cases h
    · simp only [Option.some.injEq] at h
      have hr := afterProof_effect H material ok hp
      simp only [hp] at hr
      refine ⟨e, _, [], _, he, hr, ?_⟩
      rw [← h, List.append_nil]
  | returned peer => simp [hp] at h
  | rejected => simp [hp] at h

/-! ## The invariant -/

/-- What holds of an endpoint: its material is drawn in its role, a client past its
first read has written its proof, and an endpoint that has returned verified a
proof for the mirror of its pair. -/
structure EndpointOk (s : Net) (e : Endpoint) : Prop where
  own_drawn : ∀ own, e.material = some own → (e.role, own) ∈ s.drawn
  peer_length : ∀ peer, e.phase = .readProof peer → peer.length = innerMaterialSize
  proved : ∀ own peer, e.role = .client → e.material = some own →
    e.phase = .readProof peer ∨ e.phase = .returned peer → ⟨.client, e.psk, own, peer⟩ ∈ s.proofs
  verified : ∀ own peer, e.material = some own → e.phase = .returned peer →
    ∃ r, ⟨r, e.psk, peer, own⟩ ∈ s.proofs

structure Inv (s : Net) : Prop where
  one_role : ∀ m, (.client, m) ∈ s.drawn → (.server, m) ∉ s.drawn
  drawn_length : ∀ d ∈ s.drawn, d.2.length = innerMaterialSize
  proof_drawn : ∀ pr ∈ s.proofs, (pr.role, pr.own) ∈ s.drawn
  peer_length : ∀ pr ∈ s.proofs, pr.peer.length = innerMaterialSize
  server_answers : ∀ psk own peer, ⟨.server, psk, own, peer⟩ ∈ s.proofs →
    ⟨.client, psk, peer, own⟩ ∈ s.proofs
  endpoints : ∀ e ∈ s.endpoints, EndpointOk s e

theorem EndpointOk.mono (h : EndpointOk s e) (hd : s.drawn ⊆ s'.drawn) (hp : s.proofs ⊆ s'.proofs) :
    EndpointOk s' e where
  own_drawn own hm := hd (h.own_drawn own hm)
  peer_length := h.peer_length
  proved own peer hr hm hph := hp (h.proved own peer hr hm hph)
  verified own peer hm hph := (h.verified own peer hm hph).imp (fun _ h => hp h)

theorem EndpointOk.rejected (h : EndpointOk s e) (conn : Bytes) :
    EndpointOk s { e with conn := conn, phase := .rejected } where
  own_drawn := h.own_drawn
  peer_length _ hph := nomatch hph
  proved _ _ _ _ hph := by rcases hph with hph | hph <;> cases hph
  verified _ _ _ hph := nomatch hph

theorem Inv.init : Inv Net.init := by
  constructor <;> simp [Net.init]

/-- Changing one endpoint keeps the invariant when the new one is sound. -/
theorem Inv.update (h : Inv s) {es : List Endpoint} (e' : Endpoint) (hes : ∀ e ∈ es, e ∈ s.endpoints ∨ e = e')
    (he' : EndpointOk s e') : Inv { s with endpoints := es } where
  one_role := h.one_role
  drawn_length := h.drawn_length
  proof_drawn := h.proof_drawn
  peer_length := h.peer_length
  server_answers := h.server_answers
  endpoints e he := by
    rcases hes e he with he | rfl
    · exact (h.endpoints e he).mono (List.Subset.refl _) (List.Subset.refl _)
    · exact he'.mono (List.Subset.refl _) (List.Subset.refl _)

theorem Inv.draw (h : Inv s) {r : Role} {m : Bytes} (hf : Fresh s m) : Inv { s with drawn := s.drawn ++ [(r, m)] } where
  one_role m' hc hs := by
    simp only [List.mem_append, List.mem_singleton, Prod.mk.injEq] at hc hs
    rcases hc with hc | ⟨rfl, rfl⟩ <;> rcases hs with hs | ⟨hr, hm⟩
    · exact h.one_role m' hc hs
    · exact hf.2 _ (hm ▸ hc)
    · exact hf.2 _ hs
    · cases hr
  drawn_length d hd := by
    rcases List.mem_append.mp hd with hd | hd
    · exact h.drawn_length d hd
    · rw [List.mem_singleton.mp hd]
      exact hf.1
  proof_drawn pr hpr := List.mem_append_left _ (h.proof_drawn pr hpr)
  peer_length := h.peer_length
  server_answers := h.server_answers
  endpoints e he := (h.endpoints e he).mono (List.subset_append_left _ _) (List.Subset.refl _)

/-- A new proof keeps the invariant when its author holds the material and, for a
server, when a client has written the proof it answers. -/
theorem Inv.prove (h : Inv s) (pr : Proof) (hd : (pr.role, pr.own) ∈ s.drawn) (hl : pr.peer.length = innerMaterialSize)
    (ha : pr.role = .server → ⟨.client, pr.psk, pr.peer, pr.own⟩ ∈ s.proofs) :
    Inv { s with proofs := s.proofs ++ [pr] } where
  one_role := h.one_role
  drawn_length := h.drawn_length
  proof_drawn p hp := by
    rcases List.mem_append.mp hp with hp | hp
    · exact h.proof_drawn p hp
    · rw [List.mem_singleton.mp hp]
      exact hd
  peer_length p hp := by
    rcases List.mem_append.mp hp with hp | hp
    · exact h.peer_length p hp
    · rw [List.mem_singleton.mp hp]
      exact hl
  server_answers psk own peer hp := by
    rcases List.mem_append.mp hp with hp | hp
    · exact List.mem_append_left _ (h.server_answers psk own peer hp)
    · obtain rfl := List.mem_singleton.mp hp
      exact List.mem_append_left _ (ha rfl)
  endpoints e he := (h.endpoints e he).mono (List.Subset.refl _) (List.subset_append_left _ _)

/-- A proof that verifies was written for exactly the mirrored pair: both halves
have the fixed length, so the concatenation splits one way only. -/
theorem Inv.proof_of_verifies (h : Inv s) {own peer proof : Bytes} (he : EndpointOk s e) (hm : e.material = some own)
    (hph : e.phase = .readProof peer) (hu : Unforged H s e.psk own peer proof)
    (hv : readInnerProof H e.psk own peer proof = true) : ∃ r, ⟨r, e.psk, peer, own⟩ ∈ s.proofs := by
  obtain ⟨⟨r, psk, own', peer'⟩, hpr, rfl, happ⟩ := hu hv
  have hlen : own'.length = peer.length := by
    rw [h.drawn_length _ (h.proof_drawn _ hpr), he.peer_length peer hph]
  obtain ⟨rfl, rfl⟩ := List.append_inj happ hlen
  exact ⟨r, hpr⟩

/-- The owner of server material has a mirrored proof from a client only: a server's
proof answers a client, which would have drawn that material too. -/
theorem Inv.client_of_mirror (h : Inv s) {r : Role} {psk own peer : Bytes} (hd : (.server, own) ∈ s.drawn)
    (hpr : ⟨r, psk, peer, own⟩ ∈ s.proofs) : ⟨.client, psk, peer, own⟩ ∈ s.proofs := by
  cases r with
  | client => exact hpr
  | server =>
    have hclient : (Role.client, own) ∈ s.drawn :=
      h.proof_drawn _ (h.server_answers _ _ _ hpr)
    exact absurd hd (h.one_role own hclient)

theorem mem_of_endpoint (he : s.endpoints[i]? = some e) : e ∈ s.endpoints :=
  List.mem_of_getElem? he

theorem Inv.read (h : Inv s) {e e' : Endpoint} {material : Bytes} {ok : Bool} {d : List (Role × Bytes)} {p : List Proof}
    (he : s.endpoints[i]? = some e) (hadm : Admissible H s (.read i material ok))
    (heff : ReadEffect H e material e' d p) : Inv ⟨s.endpoints.set i e', s.drawn ++ d, s.proofs ++ p⟩ := by
  have hok : EndpointOk s e := h.endpoints e (mem_of_endpoint he)
  obtain ⟨hfresh, hunf⟩ := hadm e he
  cases heff with
  | reject conn =>
    simp only [List.append_nil]
    exact h.update _ (fun _ => List.mem_or_eq_of_mem_set) (hok.rejected conn)
  | @clientProves own peer conn ok hr hph hm hin hlen =>
    simp only [List.append_nil]
    have hp := h.prove ⟨.client, e.psk, own, peer⟩ (hr ▸ hok.own_drawn own hm) hlen
      (fun hs => nomatch hs)
    refine hp.update _ (fun _ => List.mem_or_eq_of_mem_set) ⟨hok.own_drawn, ?_, ?_, ?_⟩
    · intro peer' hph'
      cases ok <;> cases hph'
      exact hlen
    · intro own' peer' _ hm' hph'
      obtain rfl : own = own' := Option.some.inj (hm ▸ hm')
      cases ok <;> rcases hph' with hph' | hph' <;> cases hph'
      exact List.mem_append_right _ (List.mem_singleton.mpr rfl)
    · intro _ _ _ hph'
      cases ok <;> cases hph'
  | @serverDraws peer conn ok hr hph hlen =>
    simp only [List.append_nil]
    refine (h.draw (r := .server) (hfresh hr hph)).update _
      (fun _ => List.mem_or_eq_of_mem_set) ⟨?_, ?_, ?_, ?_⟩
    · intro own hm
      obtain rfl := Option.some.inj hm
      exact List.mem_append_right _ (by rw [hr]; exact List.mem_singleton.mpr rfl)
    · intro peer' hph'
      cases ok <;> cases hph'
      exact hlen
    · intro _ _ hr' _ _
      exact absurd (hr.symm.trans hr') (by decide)
    · intro _ _ _ hph'
      cases ok <;> cases hph'
  | @clientReturns own peer conn hr hph hm hv =>
    simp only [List.append_nil]
    have hmirror := h.proof_of_verifies hok hm hph (hunf own peer hm hph) hv
    refine h.update _ (fun _ => List.mem_or_eq_of_mem_set) ⟨hok.own_drawn, ?_, ?_, ?_⟩
    · exact fun _ hph' => nomatch hph'
    · intro own' peer' hr' hm' hph'
      rcases hph' with hph' | hph' <;> cases hph'
      exact hok.proved own' peer hr' hm' (.inl hph)
    · intro own' peer' hm' hph'
      obtain rfl : own = own' := Option.some.inj (hm ▸ hm')
      cases hph'
      exact hmirror
  | @serverProves own peer conn ok hr hph hm hv =>
    simp only [List.append_nil]
    obtain ⟨r, hpr⟩ := h.proof_of_verifies hok hm hph (hunf own peer hm hph) hv
    have hclient := h.client_of_mirror (hr ▸ hok.own_drawn own hm) hpr
    have hp := h.prove ⟨.server, e.psk, own, peer⟩ (hr ▸ hok.own_drawn own hm)
      (hok.peer_length peer hph) (fun _ => hclient)
    refine hp.update _ (fun _ => List.mem_or_eq_of_mem_set) ⟨hok.own_drawn, ?_, ?_, ?_⟩
    · intro peer' hph'
      cases ok <;> cases hph'
    · intro _ _ hr' _ _
      exact absurd (hr.symm.trans hr') (by decide)
    · intro own' peer' hm' hph'
      obtain rfl : own = own' := Option.some.inj (hm ▸ hm')
      cases ok <;> cases hph'
      exact ⟨.client, List.mem_append_left _ hclient⟩

theorem Inv.step {a : Act} (h : Inv s) (hstep : net H s a s') : Inv s' := by
  obtain ⟨hadm, hstep⟩ := hstep
  cases a with
  | client psk material ok =>
    simp only [Steps.ofFn, ForwardX.V3.Handshake.step, Option.some.injEq] at hstep
    subst hstep
    refine (h.draw (r := .client) hadm).update (clientStart psk material ok) (by simp) ?_
    unfold clientStart
    constructor <;> cases ok <;> cases writeInnerInit material <;> simp
  | server psk =>
    simp only [Steps.ofFn, ForwardX.V3.Handshake.step, Option.some.injEq] at hstep
    subst hstep
    refine h.update (serverStart psk) (by simp) ?_
    constructor <;> simp [serverStart]
  | deliver i bs =>
    simp only [Steps.ofFn, ForwardX.V3.Handshake.step] at hstep
    obtain ⟨e, he, rfl⟩ := Option.map_eq_some_iff.mp hstep
    have hok := h.endpoints e (mem_of_endpoint he)
    exact h.update _ (fun _ => List.mem_or_eq_of_mem_set)
      ⟨hok.own_drawn, hok.peer_length, hok.proved, hok.verified⟩
  | hangup i =>
    simp only [Steps.ofFn, ForwardX.V3.Handshake.step] at hstep
    obtain ⟨e, he, rfl⟩ := Option.map_eq_some_iff.mp hstep
    exact h.update _ (fun _ => List.mem_or_eq_of_mem_set)
      ((h.endpoints e (mem_of_endpoint he)).rejected e.conn)
  | read i material ok =>
    obtain ⟨e, e', d, p, he, heff, rfl⟩ := step_read hstep
    exact h.read he hadm heff

theorem inv_of_run {as : List Act} (hrun : Run (net H) Net.init as s) : Inv s :=
  hrun.preserves (fun _ _ _ hstep h => h.step hstep) Inv.init

/-! ## Authentication -/

theorem Inv.server_auth (h : Inv s) : ServerAuth s := by
  intro e he own peer hr hm hph
  have hok := h.endpoints e he
  obtain ⟨r, hpr⟩ := hok.verified own peer hm hph
  exact h.client_of_mirror (hr ▸ hok.own_drawn own hm) hpr

/-- A client that has returned was answered by a server exactly when no client
wrote the proof it accepted. -/
theorem Inv.client_auth_iff (h : Inv s) {own peer : Bytes} (he : e ∈ s.endpoints) (hm : e.material = some own)
    (hph : e.phase = .returned peer) :
    ⟨.server, e.psk, peer, own⟩ ∈ s.proofs ↔ ⟨.client, e.psk, peer, own⟩ ∉ s.proofs := by
  constructor
  · intro hs hc
    exact h.one_role peer (h.proof_drawn _ hc) (h.proof_drawn _ hs)
  · intro hc
    obtain ⟨r, hpr⟩ := (h.endpoints e he).verified own peer hm hph
    cases r with
    | client => exact absurd hpr hc
    | server => exact hpr

def NoMirror (s : Net) : Prop :=
  ∀ psk a b, ⟨.client, psk, a, b⟩ ∈ s.proofs → ⟨.client, psk, b, a⟩ ∉ s.proofs

/-- A step that completes no mirror creates none: only a client's first read adds a
client proof, and its mirror is neither itself nor an older one. -/
theorem noMirror_step {a : Act} (h : NoMirror s) (hstep : Guarded NotMirrored (net H) s a s') : NoMirror s' := by
  obtain ⟨hnm, -, hstep⟩ := hstep
  cases a with
  | client psk material ok =>
    simp only [Steps.ofFn, ForwardX.V3.Handshake.step, Option.some.injEq] at hstep
    subst hstep
    exact h
  | server psk =>
    simp only [Steps.ofFn, ForwardX.V3.Handshake.step, Option.some.injEq] at hstep
    subst hstep
    exact h
  | deliver i bs =>
    simp only [Steps.ofFn, ForwardX.V3.Handshake.step] at hstep
    obtain ⟨e, he, rfl⟩ := Option.map_eq_some_iff.mp hstep
    exact h
  | hangup i =>
    simp only [Steps.ofFn, ForwardX.V3.Handshake.step] at hstep
    obtain ⟨e, he, rfl⟩ := Option.map_eq_some_iff.mp hstep
    exact h
  | read i material ok =>
    obtain ⟨e, e', d, p, he, heff, rfl⟩ := step_read hstep
    intro psk a b hab hba
    cases heff with
    | clientProves ok hr hph hm hin hlen =>
      obtain ⟨hne, hfree⟩ := hnm e _ _ he hr hph hm hin
      simp only [List.mem_append, List.mem_singleton, Proof.mk.injEq, true_and] at hab hba
      rcases hab with hab | ⟨rfl, rfl, rfl⟩ <;> rcases hba with hba | ⟨hk, hb, ha⟩
      · exact h psk a b hab hba
      · subst hk hb ha
        exact hfree hab
      · exact hfree hba
      · exact hne hb
    | serverProves ok hr hph hm hv =>
      simp only [List.mem_append, List.mem_singleton, Proof.mk.injEq, reduceCtorEq, false_and,
        or_false] at hab hba
      exact h psk a b hab hba
    | reject => exact h psk a b (by simpa using hab) (by simpa using hba)
    | serverDraws => exact h psk a b (by simpa using hab) (by simpa using hba)
    | clientReturns => exact h psk a b (by simpa using hab) (by simpa using hba)

theorem noMirror_of_run {as : List Act} (hrun : Run (Guarded NotMirrored (net H)) Net.init as s) : NoMirror s :=
  hrun.preserves (fun _ _ _ hstep h => noMirror_step h hstep) (by simp [NoMirror, Net.init])

/-- In every run a returned server is authenticated, and a returned client is
exactly when no client wrote the proof it accepted; in every run whose client
reads complete no mirror, every returned client is authenticated too. -/
theorem handshake_auth (H : Hash) :
    (∀ as s, Run (net H) Net.init as s → ServerAuth s ∧
      ∀ e ∈ s.endpoints, ∀ own peer, e.role = .client → e.material = some own →
        e.phase = .returned peer →
        (⟨.server, e.psk, peer, own⟩ ∈ s.proofs ↔ ⟨.client, e.psk, peer, own⟩ ∉ s.proofs)) ∧
    (∀ as s, Run (Guarded NotMirrored (net H)) Net.init as s → ClientAuth s ∧ ServerAuth s) := by
  refine ⟨fun as s hrun => ?_, fun as s hrun => ?_⟩
  · have h := inv_of_run hrun
    exact ⟨h.server_auth, fun e he own peer _ hm hph => h.client_auth_iff he hm hph⟩
  · have h := inv_of_run hrun.of_guarded
    refine ⟨fun e he own peer hr hm hph => ?_, h.server_auth⟩
    have hown := (h.endpoints e he).proved own peer hr hm (.inr hph)
    exact (h.client_auth_iff he hm hph).mpr (noMirror_of_run hrun e.psk own peer hown)

theorem innerTag_length (H : Hash) (psk own peer : Bytes) :
    (innerTag H psk own peer).length = innerTagSize := by
  simp [innerTag, H.hmac_length, innerTagSize]

/-! ## An honest exchange -/

/-- A client and a server that exchange their messages undisturbed. -/
def exchange (H : Hash) (psk mc ms : Bytes) : List Act :=
  [.client psk mc true, .server psk, .deliver 1 (innerModeAEAD :: mc), .read 1 ms true,
    .deliver 0 (innerModeAEAD :: ms), .read 0 [] true, .deliver 1 (innerTag H psk mc ms),
    .read 1 [] true, .deliver 0 (innerTag H psk ms mc), .read 0 [] true]

/-- Both ends of the exchange return, and its one client read completes no mirror. -/
theorem exchange_run (H : Hash) (psk mc ms : Bytes) (hc : mc.length = innerMaterialSize)
    (hs : ms.length = innerMaterialSize) (hne : ms ≠ mc) :
    Run (Guarded NotMirrored (net H)) Net.init (exchange H psk mc ms)
      ⟨[⟨.client, psk, some mc, .returned ms, []⟩, ⟨.server, psk, some ms, .returned mc, []⟩],
        [(.client, mc), (.server, ms)], [⟨.client, psk, mc, ms⟩, ⟨.server, psk, ms, mc⟩]⟩ := by
  have htag : ∀ own peer, (innerTag H psk own peer).length = 16 := innerTag_length H psk
  simp only [innerMaterialSize] at hc hs
  have htake : (innerModeAEAD :: ms).take innerHandshakeSize = innerModeAEAD :: ms :=
    List.take_of_length_le (by simp [innerHandshakeSize, hs])
  refine Run.cons (t := ⟨[⟨.client, psk, some mc, .readInit, []⟩], [(.client, mc)], []⟩)
    ⟨trivial, ⟨hc, by simp [Net.init]⟩, ?_⟩ ?_
  · simp [Steps.ofFn, step, clientStart, writeInnerInit, innerMaterialSize, hc, Net.init]
  refine Run.cons (t := ⟨[⟨.client, psk, some mc, .readInit, []⟩,
    ⟨.server, psk, none, .readInit, []⟩], [(.client, mc)], []⟩) ⟨trivial, trivial, ?_⟩ ?_
  · simp [Steps.ofFn, step, serverStart]
  refine Run.cons (t := ⟨[⟨.client, psk, some mc, .readInit, []⟩,
    ⟨.server, psk, none, .readInit, innerModeAEAD :: mc⟩], [(.client, mc)], []⟩)
    ⟨trivial, trivial, ?_⟩ ?_
  · simp [Steps.ofFn, step]
  refine Run.cons (t := ⟨[⟨.client, psk, some mc, .readInit, []⟩,
    ⟨.server, psk, some ms, .readProof mc, []⟩], [(.client, mc), (.server, ms)], []⟩)
    ⟨?_, ?_, ?_⟩ ?_
  · rintro e own peer he hr
    cases he
    cases hr
  · rintro e he
    cases he
    exact ⟨fun _ _ => ⟨hs, by simpa using hne⟩, fun _ _ hm => (by cases hm)⟩
  · simp [Steps.ofFn, step, afterInit, readInnerInit, innerHandshakeSize, hc, List.take_of_length_le]
  refine Run.cons (t := ⟨[⟨.client, psk, some mc, .readInit, innerModeAEAD :: ms⟩,
    ⟨.server, psk, some ms, .readProof mc, []⟩], [(.client, mc), (.server, ms)], []⟩)
    ⟨trivial, trivial, ?_⟩ ?_
  · simp [Steps.ofFn, step]
  refine Run.cons (t := ⟨[⟨.client, psk, some mc, .readProof ms, []⟩,
    ⟨.server, psk, some ms, .readProof mc, []⟩], [(.client, mc), (.server, ms)],
    [⟨.client, psk, mc, ms⟩]⟩) ⟨?_, ?_, ?_⟩ ?_
  · rintro e own peer he - - hm hi
    cases he
    cases hm
    rw [htake] at hi
    cases hi
    exact ⟨hne, List.not_mem_nil⟩
  · rintro e he
    cases he
    exact ⟨fun hr => (by cases hr), fun _ _ _ hph => (by cases hph)⟩
  · simp [Steps.ofFn, step, afterInit, readInnerInit, innerHandshakeSize, hs, List.take_of_length_le]
  refine Run.cons (t := ⟨[⟨.client, psk, some mc, .readProof ms, []⟩,
    ⟨.server, psk, some ms, .readProof mc, innerTag H psk mc ms⟩],
    [(.client, mc), (.server, ms)], [⟨.client, psk, mc, ms⟩]⟩) ⟨trivial, trivial, ?_⟩ ?_
  · simp [Steps.ofFn, step]
  refine Run.cons (t := ⟨[⟨.client, psk, some mc, .readProof ms, []⟩,
    ⟨.server, psk, some ms, .returned mc, []⟩], [(.client, mc), (.server, ms)],
    [⟨.client, psk, mc, ms⟩, ⟨.server, psk, ms, mc⟩]⟩) ⟨?_, ?_, ?_⟩ ?_
  · rintro e own peer he hr
    cases he
    cases hr
  · rintro e he
    cases he
    refine ⟨fun _ hph => (by cases hph), fun own peer hm hph _ => ?_⟩
    cases hm
    cases hph
    exact ⟨_, List.mem_singleton.mpr rfl, rfl, rfl⟩
  · simp [Steps.ofFn, step, afterProof, readInnerProof, innerTagSize, htag, List.take_of_length_le]
  refine Run.cons (t := ⟨[⟨.client, psk, some mc, .readProof ms, innerTag H psk ms mc⟩,
    ⟨.server, psk, some ms, .returned mc, []⟩], [(.client, mc), (.server, ms)],
    [⟨.client, psk, mc, ms⟩, ⟨.server, psk, ms, mc⟩]⟩) ⟨trivial, trivial, ?_⟩ ?_
  · simp [Steps.ofFn, step]
  refine Run.single ⟨?_, ?_, ?_⟩
  · rintro e own peer he - hph
    cases he
    cases hph
  · rintro e he
    cases he
    refine ⟨fun hr => (by cases hr), fun own peer hm hph _ => ?_⟩
    cases hm
    cases hph
    exact ⟨_, List.mem_cons_of_mem _ (List.mem_singleton.mpr rfl), rfl, rfl⟩
  · simp [Steps.ofFn, step, afterProof, readInnerProof, innerTagSize, htag, List.take_of_length_le]

def zeroHash : Hash := ⟨id, fun _ _ => List.replicate 32 0, fun _ _ => List.length_replicate⟩

/-- The two ends of an exchange authenticate each other. -/
theorem handshake_auth_exchange :
    ∃ s, Run (net zeroHash) Net.init
        (exchange zeroHash [1] (List.replicate 16 2) (List.replicate 16 3)) s ∧
      ClientAuth s ∧ ServerAuth s := by
  have hrun := exchange_run zeroHash [1] (List.replicate 16 2) (List.replicate 16 3) rfl rfl
    (by decide)
  exact ⟨_, hrun.of_guarded, (handshake_auth zeroHash).2 _ _ hrun⟩

/-! ## Reflection -/

/-- What the client sends is all a peer without the PSK needs: its init and its
proof, echoed, are accepted. -/
def echo (H : Hash) (psk material : Bytes) : List Act :=
  [.client psk material true, .deliver 0 (innerModeAEAD :: material), .read 0 [] true,
    .deliver 0 (innerTag H psk material material), .read 0 [] true]

theorem echo_run (H : Hash) (psk material : Bytes)
    (hl : material.length = innerMaterialSize) :
    Run (net H) Net.init (echo H psk material)
      ⟨[⟨.client, psk, some material, .returned material, []⟩], [(.client, material)],
        [⟨.client, psk, material, material⟩]⟩ := by
  have htag := innerTag_length H psk material material
  simp only [innerMaterialSize] at hl
  simp only [innerTagSize] at htag
  refine Run.cons (t := ⟨[⟨.client, psk, some material, .readInit, []⟩], [(.client, material)], []⟩)
    ⟨⟨hl, by simp [Net.init]⟩, ?_⟩ ?_
  · simp [Steps.ofFn, step, clientStart, writeInnerInit, innerMaterialSize, hl, Net.init]
  refine Run.cons (t := ⟨[⟨.client, psk, some material, .readInit, innerModeAEAD :: material⟩],
    [(.client, material)], []⟩) ⟨trivial, ?_⟩ ?_
  · simp [Steps.ofFn, step]
  refine Run.cons (t := ⟨[⟨.client, psk, some material, .readProof material, []⟩],
    [(.client, material)], [⟨.client, psk, material, material⟩]⟩) ⟨?_, ?_⟩ ?_
  · intro e he
    simp only [List.getElem?_cons_zero, Option.some.injEq] at he
    subst he
    exact ⟨fun hr => (by cases hr), fun _ _ _ hph => (by cases hph)⟩
  · simp [Steps.ofFn, step, afterInit, readInnerInit, innerHandshakeSize, hl, List.take_of_length_le]
  refine Run.cons (t := ⟨[⟨.client, psk, some material, .readProof material,
    innerTag H psk material material⟩], [(.client, material)],
    [⟨.client, psk, material, material⟩]⟩) ⟨trivial, ?_⟩ ?_
  · simp [Steps.ofFn, step]
  refine Run.single ⟨?_, ?_⟩
  · intro e he
    simp only [List.getElem?_cons_zero, Option.some.injEq] at he
    subst he
    refine ⟨fun hr => (by cases hr), fun own peer hm hph _ => ?_⟩
    cases hm
    cases hph
    exact ⟨_, List.mem_singleton.mpr rfl, rfl, rfl⟩
  · simp [Steps.ofFn, step, afterProof, readInnerProof, innerTagSize, htag, List.take_of_length_le]

/-- A client under the PSK `"psk"` that reads its own init and proof back returns. -/
theorem reflection_accepted :
    ¬ ∀ (H : Hash) (as : List Act) (s : Net), Run (net H) Net.init as s →
      ClientAuth s ∧ ServerAuth s := by
  intro hauth
  have hrun := echo_run zeroHash "psk".toUTF8.toList (List.replicate 16 0x5a) rfl
  have := (hauth _ _ _ hrun).1 _ (List.mem_singleton.mpr rfl) _ _ rfl rfl rfl
  simp at this

end ForwardX.V3.Handshake
