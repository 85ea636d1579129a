import ForwardX.Agent.Crypto

/- The two places that accept an agent's encrypted request: `agentEncryptionMiddleware`
   and the stream route (`agentEncryptionMiddleware.ts`, `agentAuth.ts`, `agentRoutes.ts`).

   A request reads the protocol clock when it starts and then waits for the database, once
   or twice, before its proof is verified or its envelope is opened under a candidate; so a
   request is a small machine (`Stage`) whose steps interleave with those of other requests.
   What the database answers is chosen by the environment. The panel keeps running: its
   caches start empty. Around it are the agents, which seal envelopes and sign proofs, and
   the panel's own encrypted responses. -/
namespace ForwardX.Agent

open Transition Wire

universe u

/-- A request: where it arrived, its text (the body, or the query of the stream route) and
its Authorization header. -/
structure Request where
  stream : Bool
  method : String
  path : String
  text : String
  authorization : Option String

def Request.envelope (P : Primitives) (r : Request) : Option EncryptedEnvelope :=
  (P.parseBody r.text).bind isEncryptedEnvelope

/-- What `trim` removes at the ends of a text. -/
def isBlank (c : Char) : Bool :=
  [9, 10, 11, 12, 13, 32, 0xa0, 0x1680, 0x2028, 0x2029, 0x202f, 0x205f, 0x3000, 0xfeff].contains c.toNat ||
    (0x2000 ≤ c.toNat && c.toNat ≤ 0x200a)

def trimBlanks (text : String) : String :=
  String.ofList ((text.toList.dropWhile isBlank).reverse.dropWhile isBlank).reverse

def startsWith (text start : String) : Bool := decide (text.toList.take start.length = start.toList)

/-- The credential of an Authorization header, if it has one. -/
def Request.credential (r : Request) : Option String :=
  match r.authorization with
  | none => none
  | some header =>
    if startsWith header "Bearer " then
      let credential := trimBlanks (String.ofList (header.toList.drop 7))
      if credential = "" then none else some credential
    else none

def isProof (credential : String) : Bool := startsWith credential "v1." || startsWith credential "v2."

/-- The text that a proof of a request must cover: the stream route signs its query in a
proof of version 2 and nothing in one of version 1. -/
def Request.signedText (r : Request) (credential : String) : String :=
  if startsWith credential "v2." then r.text else if r.stream then "" else r.text

inductive Stage
  /-- for the candidates that verify the credential -/
  | resolve
  /-- for the candidates again, read from the database -/
  | resolveForced
  /-- resolved to a token; `clockless` after a proof of version 2 -/
  | authorized (token : String) (clockless : Bool)
  /-- for the candidates to open the envelope with -/
  | candidates
  /-- for the candidates again, read from the database -/
  | candidatesForced

/-- A request that is being checked, with the protocol clock it read when it started. -/
structure Pending (K : Type u) where
  request : Request
  envelope : EncryptedEnvelope
  protocolNowMs : Int
  startedMs : K
  stage : Stage

/-- What a step of a request leads to. -/
inductive Outcome
  | waits (stage : Stage)
  | rejected
  | accepted (token : String)

/-- `AGENT_TUNNEL_PATHS`. -/
def agentTunnelPaths : List String :=
  ["/api/agent/register", "/api/agent/heartbeat", "/api/agent/presence", "/api/agent/selftest-pull",
    "/api/agent/selftest-result", "/api/agent/looking-glass-result", "/api/agent/looking-glass-progress",
    "/api/agent/iperf3-result", "/api/agent/ip-switch-claim", "/api/agent/ip-switch-result",
    "/api/agent/plugin-action-result", "/api/agent/support-bundle-result", "/api/agent/migration-rollback",
    "/api/agent/traffic", "/api/agent/tcping", "/api/agent/protocol-block", "/api/agent/rule-status",
    "/api/agent/rule-status-batch"]

/-- The end of a request whose envelope opened: its payload must parse, and name a tunnelled
path on the sync route. -/
def finish (P : Primitives) (r : Request) (envelope : EncryptedEnvelope) (token : String) : Outcome :=
  match P.payloadPath token envelope.contents.iv envelope.contents.ct with
  | none => .rejected
  | some path =>
    if !r.stream && r.path = "/api/sync" && !agentTunnelPaths.contains (trimBlanks path) then .rejected
    else .accepted token

/-- `decryptPayloadWithCandidates`: the first candidate that opens the envelope to a payload that parses. -/
def decryptPayloadWithCandidates (P : Primitives) (envelope : EncryptedEnvelope) (tokens : List String)
    (protocolNowMs : Int) : Option String :=
  tokens.find? fun token => openEnvelope P envelope token true protocolNowMs &&
    (P.payloadPath token envelope.contents.iv envelope.contents.ct).isSome

/-- `tokenCandidateForProof`: the last token with the fingerprint of the proof. -/
def tokenCandidateForProof (P : Primitives) (raw : String) (tokens : List String) : Option String :=
  match parseAgentAuthProof raw with
  | none => none
  | some (.v1 fingerprint _ _ _) => tokens.reverse.find? fun token => P.fingerprint token = fingerprint
  | some (.v2 fingerprint _ _ _) => tokens.reverse.find? fun token => P.fingerprint token = fingerprint

section
variable {K : Type u} [Field K] [LinearOrder K]

/-- `verify` in `resolveAgentTokenFromAuthorization`. -/
def verifyCredential (P : Primitives) (c : Caches K) (p : Pending K) (credential : String) (tokens : List String)
    (nowMs : K) : Verdict × Caches K :=
  match tokenCandidateForProof P credential tokens with
  | none => (.null, c)
  | some candidate =>
    verifyAgentAuthProofDetails P c credential [candidate] p.request.method p.request.path
      (p.request.signedText credential) p.protocolNowMs nowMs

/-- The rest of a request after the database answered `known` and `tokens`, up to its next wait. -/
def Pending.proceed (P : Primitives) (c : Caches K) (p : Pending K) (known : Bool) (tokens : List String)
    (nowMs : K) : Outcome × Caches K :=
  match p.stage with
  | .resolve =>
    match p.request.credential with
    | none => (.waits .candidates, c)
    | some credential =>
      if !isProof credential then
        (if known then .waits (.authorized credential false) else .waits .resolveForced, c)
      else
        match verifyCredential P c p credential tokens nowMs with
        | (.null, c') => (.waits .resolveForced, c')
        | (.thrown, c') => (.rejected, c')
        | (.verified token clockless, c') => (.waits (.authorized token clockless), c')
  | .resolveForced =>
    match p.request.credential with
    | none => (.rejected, c)
    | some credential =>
      if !isProof credential then
        (if known then .waits (.authorized credential false) else .rejected, c)
      else
        match verifyCredential P c p credential tokens nowMs with
        | (.null, c') => (.rejected, c')
        | (.thrown, c') => (.rejected, c')
        | (.verified token clockless, c') => (.waits (.authorized token clockless), c')
  | .authorized token clockless =>
    if !openEnvelope P p.envelope token (!clockless) p.protocolNowMs then (.rejected, c)
    else
      match rememberOnce c.seenEnvelopeMacs p.envelope.mac nowMs with
      | none => (.rejected, c)
      | some seenEnvelopeMacs => (finish P p.request p.envelope token, { c with seenEnvelopeMacs })
  | .candidates =>
    match decryptPayloadWithCandidates P p.envelope tokens p.protocolNowMs with
    | none => (.waits .candidatesForced, c)
    | some token =>
      match rememberOnce c.seenEnvelopeMacs p.envelope.mac nowMs with
      | none => (.rejected, c)
      | some seenEnvelopeMacs => (finish P p.request p.envelope token, { c with seenEnvelopeMacs })
  | .candidatesForced =>
    match decryptPayloadWithCandidates P p.envelope tokens p.protocolNowMs with
    | none => (.rejected, c)
    | some token =>
      match rememberOnce c.seenEnvelopeMacs p.envelope.mac nowMs with
      | none => (.rejected, c)
      | some seenEnvelopeMacs => (finish P p.request p.envelope token, { c with seenEnvelopeMacs })

end

/-! ### Runs -/

/-- An envelope that a holder of the token sealed: an agent, which may have signed a proof
of version 2 over the text that carries it, or the panel in a response. -/
structure Sealed (K : Type u) where
  token : String
  contents : Contents
  atMs : K
  byAgent : Bool
  proof : Option (String × String)

/-- An accepted request. -/
structure Accepted (K : Type u) where
  token : String
  envelope : EncryptedEnvelope
  atMs : K

/-- The panel with what happened so far: the challenges it issued, the envelopes sealed
under tokens, and the requests it accepted. -/
structure EnvelopePanel (K : Type u) where
  nowMs : K
  caches : Caches K
  pending : List (Pending K)
  issued : List (Issued K)
  envelopes : List (Sealed K)
  accepted : List (Accepted K)

inductive EnvelopeAct (K : Type u)
  | tick (elapsedMs : K)
  | issue (random : Bytes)
  /-- an agent sends an envelope in the text, with a proof over the challenge if it has one -/
  | send (token : String) (contents : Contents) (text : String) (challenge : Option String)
  /-- the panel encrypts a response -/
  | respond (token : String) (contents : Contents)
  /-- a request arrives -/
  | arrive (request : Request)
  /-- the database answers the `i`-th request -/
  | proceed (i : Nat) (known : Bool) (tokens : List String)
  /-- the database fails the `i`-th request -/
  | fail (i : Nat)

section
variable {K : Type u} [Field K] [LinearOrder K]

/-- `panelCryptoNowMs` of a clock that runs `offset` ahead of the monotonic one. -/
def panelCryptoNowMs [FloorRing K] (offset nowMs : K) : Int := ⌊offset + nowMs + 1 / 2⌋

structure EnvelopePanel.Start (s : EnvelopePanel K) : Prop where
  nowMs : 0 ≤ s.nowMs
  caches : s.caches = ⟨OnceCache.empty, OnceCache.empty, OnceCache.empty⟩
  pending : s.pending = []
  issued : s.issued = []
  envelopes : s.envelopes = []
  accepted : s.accepted = []

/-- The state after the `i`-th request went one step. -/
def EnvelopePanel.settle (s : EnvelopePanel K) (i : Nat) (p : Pending K) (r : Outcome × Caches K) :
    EnvelopePanel K :=
  match r.1 with
  | .waits stage => { s with caches := r.2, pending := s.pending.set i { p with stage } }
  | .rejected => { s with caches := r.2, pending := s.pending.eraseIdx i }
  | .accepted token =>
    { s with
      caches := r.2
      pending := s.pending.eraseIdx i
      accepted := s.accepted ++ [⟨token, p.envelope, s.nowMs⟩] }

def EnvelopePanel.step [FloorRing K] (P : Primitives) (offset : K) (s : EnvelopePanel K) :
    EnvelopeAct K → Option (EnvelopePanel K)
  | .tick elapsedMs => if 0 ≤ elapsedMs then some { s with nowMs := s.nowMs + elapsedMs } else none
  | .issue random =>
    if random.length ≠ challengeRandomBytes then none
    else
      (issueAgentAuthChallenge P.challengeMac random s.nowMs).map fun c =>
        { s with issued := s.issued ++ [⟨c.1, c.2, s.nowMs⟩] }
  | .send token contents text challenge =>
    -- the text spells the envelope that the agent seals
    if sealedEnvelope P token contents = none ∨
        (P.parseBody text).bind isEncryptedEnvelope ≠ sealedEnvelope P token contents then none
    else
      let proof := challenge.map fun challenge => (challenge, text)
      some { s with envelopes := s.envelopes ++ [⟨token, contents, s.nowMs, true, proof⟩] }
  | .respond token contents =>
    if sealedEnvelope P token contents = none then none
    else some { s with envelopes := s.envelopes ++ [⟨token, contents, s.nowMs, false, none⟩] }
  | .arrive request =>
    (request.envelope P).map fun envelope =>
      { s with pending := s.pending ++ [⟨request, envelope, panelCryptoNowMs offset s.nowMs, s.nowMs, .resolve⟩] }
  | .proceed i known tokens =>
    s.pending[i]?.map fun p => s.settle i p (p.proceed P s.caches known tokens s.nowMs)
  | .fail i => if i < s.pending.length then some { s with pending := s.pending.eraseIdx i } else none

def envelopePanel [FloorRing K] (P : Primitives) (offset : K) : Steps (EnvelopePanel K) (EnvelopeAct K) :=
  Steps.ofFn (EnvelopePanel.step P offset)

def Pending.opensWith (p : Pending K) (tokens : List String) : List String :=
  match p.stage with
  | .authorized token _ => [token]
  | .candidates | .candidatesForced => tokens
  | _ => []

/-- What is assumed of the primitives. An envelope whose MAC matches under a token of the
database was sealed by a holder of it; a proof of version 2 that verifies was signed by an
agent for that challenge and that text; a challenge with the right MAC is known only once
it was issued; and random IVs keep the panel's responses apart from every other envelope. -/
def Ideal (P : Primitives) (s : EnvelopePanel K) : EnvelopeAct K → Prop
  | .proceed i _ tokens => ∀ p, s.pending[i]? = some p →
      (∀ token ∈ p.opensWith tokens, macMatches P token p.envelope = true →
        ∃ e ∈ s.envelopes, e.token = token ∧ e.contents = p.envelope.contents) ∧
      ∀ credential fingerprint challenge nonce sig, p.request.credential = some credential →
        parseAgentAuthProof credential = some (.v2 fingerprint challenge nonce sig) →
        ∀ token ∈ tokens, timingSafeEqualHex (signAgentChallengeAuthProof P token p.request.method p.request.path
          (p.request.signedText credential) challenge nonce) sig = true →
          ∃ e ∈ s.envelopes, e.token = token ∧ e.byAgent = true ∧
            e.proof = some (challenge, p.request.signedText credential)
  | .send _ contents _ challenge =>
      (∀ e ∈ s.envelopes, e.byAgent = false → e.contents ≠ contents) ∧
      ∀ c, challenge = some c → ∀ decoded, decodeChallenge c = some decoded →
        challengeReceivedMac decoded = P.challengeMac (challengePayload decoded) →
        ∃ i ∈ s.issued, i.payload = challengePayload decoded
  | .respond _ contents => ∀ e ∈ s.envelopes, e.contents ≠ contents
  | _ => True

def EnvelopePanel.sealedByAgents (s : EnvelopePanel K) (contents : Contents) : Nat :=
  s.envelopes.countP fun e => e.byAgent && decide (e.contents = contents)

/-- No two accepted requests carry envelopes with the same contents, unless the agents
sealed two such envelopes. -/
def EnvelopePanel.AcceptedOnce (s : EnvelopePanel K) : Prop :=
  s.accepted.Pairwise fun a b =>
    a.envelope.contents = b.envelope.contents → 2 ≤ s.sealedByAgents a.envelope.contents

def CanonicalMac (envelope : EncryptedEnvelope) : Prop := toHex (fromHex envelope.mac.toList) = envelope.mac

/-- Where an envelope is opened, its mac, if it is the right one, is spelled in lower-case hex
with nothing after it; on a proof of version 2 it is not dated ahead of the window; and less
than 9999 ms have passed since the request read the protocol clock. -/
def InStep [FloorRing K] (P : Primitives) (offset : K) (s : EnvelopePanel K) : EnvelopeAct K → Prop
  | .proceed i _ tokens => ∀ p, s.pending[i]? = some p → ∀ token ∈ p.opensWith tokens,
      (macMatches P token p.envelope = true → CanonicalMac p.envelope) ∧
      (p.stage = .authorized token true →
        p.envelope.ts ≤ ((panelCryptoNowMs offset s.nowMs + replayWindowMs : Int) : Rat)) ∧
      s.nowMs < p.startedMs + 9999
  | _ => True

end

end ForwardX.Agent
