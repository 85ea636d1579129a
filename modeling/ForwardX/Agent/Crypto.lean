import Mathlib.Data.Rat.Defs
import Mathlib.Algebra.Order.Ring.Rat
import ForwardX.Agent.AuthChallenge

/- The encrypted requests of agents (`agentCrypto.ts`): the envelope with its MAC, the
   proofs in the Authorization header, and the caches that keep what was seen.

   Correspondence: `fromHex` is `Buffer.from(text, "hex")`, which reads digits of either
   case and stops at what is no pair of digits; `Primitives` holds what is computed from a
   token (its digests, MACs and key stream) and `JSON.parse`; a block of code without an
   `await` reads one value of the monotonic clock. -/
namespace ForwardX.Agent

open Wire

universe u

/-! ### Hexadecimal -/

/-- The value of a hex digit of either case. -/
def hexDigit (c : Char) : Option Nat :=
  if '0' ≤ c ∧ c ≤ '9' then some (c.toNat - 48)
  else if 'a' ≤ c ∧ c ≤ 'f' then some (c.toNat - 87)
  else if 'A' ≤ c ∧ c ≤ 'F' then some (c.toNat - 55)
  else none

/-- `Buffer.from(text, "hex")`. -/
def fromHex : List Char → Bytes
  | c₀ :: c₁ :: cs =>
    match hexDigit c₀, hexDigit c₁ with
    | some a, some b => UInt8.ofNat (a * 16 + b) :: fromHex cs
    | _, _ => []
  | _ => []

def hexChar (n : Nat) : Char := "0123456789abcdef".toList.getD n '0'

/-- `toString("hex")`. -/
def toHex (bs : Bytes) : String :=
  String.ofList (bs.flatMap fun b => [hexChar (b.toNat / 16), hexChar (b.toNat % 16)])

def timingSafeEqualHex (a b : String) : Bool := decide (fromHex a.toList = fromHex b.toList)

/-! ### Envelopes -/

def ivLen : Nat := 16
def replayWindowMs : Nat := 5 * 60 * 1000
def replayCacheCleanupIntervalMs : Nat := 10 * 1000
def replayCacheTtlMs : Nat := 2 * replayWindowMs + replayCacheCleanupIntervalMs

structure EncryptedEnvelope where
  iv : String
  ct : String
  mac : String
  ts : Rat
  deriving DecidableEq

/-- The fields of a parsed body that have the type an envelope needs. -/
structure Body where
  v : Option Rat
  iv : Option String
  ct : Option String
  mac : Option String
  ts : Option Rat

def isEncryptedEnvelope (body : Body) : Option EncryptedEnvelope :=
  match body with
  | ⟨some v, some iv, some ct, some mac, some ts⟩ => if v = 1 then some ⟨iv, ct, mac, ts⟩ else none
  | _ => none

/-- What the code takes from `crypto` and `JSON.parse`. -/
structure Primitives where
  /-- `agentTokenFingerprint`: a digest of the token. -/
  fingerprint : String → String
  /-- HMAC-SHA256 under the token's MAC key. -/
  envelopeMac : String → Bytes → Bytes
  /-- HMAC-SHA256 under the token's auth key. -/
  authMac : String → String → Bytes
  /-- SHA-256 of a text, in hex. -/
  sha256Hex : String → String
  /-- HMAC-SHA256 under the panel's challenge secret. -/
  challengeMac : Bytes → Bytes
  /-- `JSON.parse` of a request's text. -/
  parseBody : String → Option Body
  /-- `JSON.parse` of the decrypted text: the `path` of the payload. -/
  payloadPath : String → Bytes → Bytes → Option String

/-- `macInput`; `BigInt` takes no fraction and `writeBigUInt64BE` 64 bits. -/
def macInput (iv ct : Bytes) (ts : Rat) : Option Bytes :=
  if ts.den = 1 ∧ 0 ≤ ts.num ∧ ts.num < 256^8 then
    some ("v1".toUTF8.toList ++ iv ++ ct ++ putBE 8 ts.num.toNat)
  else none

structure Contents where
  iv : Bytes
  ct : Bytes
  ts : Rat
  deriving DecidableEq

def EncryptedEnvelope.contents (envelope : EncryptedEnvelope) : Contents :=
  ⟨fromHex envelope.iv.toList, fromHex envelope.ct.toList, envelope.ts⟩

/-- The MAC of an envelope is the one of its contents under the token. -/
def macMatches (P : Primitives) (token : String) (envelope : EncryptedEnvelope) : Bool :=
  let c := envelope.contents
  match macInput c.iv c.ct c.ts with
  | none => false
  | some input => decide (P.envelopeMac token input = fromHex envelope.mac.toList)

/-- The envelope that `encryptPayload` writes, and the agent's `encryptAt`. -/
def sealedEnvelope (P : Primitives) (token : String) (c : Contents) : Option EncryptedEnvelope :=
  (macInput c.iv c.ct c.ts).map fun input => ⟨toHex c.iv, toHex c.ct, toHex (P.envelopeMac token input), c.ts⟩

/-- `decryptPayload` up to the replay cache: the checks of an envelope under a token, and
whether its payload parses. -/
def openEnvelope (P : Primitives) (envelope : EncryptedEnvelope) (token : String) (validateTimestamp : Bool)
    (protocolNowMs : Int) : Bool :=
  if envelope.contents.iv.length ≠ ivLen then false
  else if validateTimestamp ∧ (replayWindowMs : Rat) < |(protocolNowMs : Rat) - envelope.ts| then false
  else macMatches P token envelope

/-! ### The replay caches -/

section
variable {K : Type u} [Field K] [LinearOrder K]

/-- `rememberOnce`: the cache with the key, or `none` for the error. -/
def rememberOnce (cache : OnceCache.Cache String K) (key : String) (nowMs : K) :
    Option (OnceCache.Cache String K) :=
  let existingExpiry := OnceCache.expiry cache key
  if nowMs < existingExpiry then none
  else
    let kept := if 0 < existingExpiry then { cache with entries := Assoc.erase cache.entries key } else cache
    some (OnceCache.remember (replayCacheTtlMs : K)
      (OnceCache.sweep (replayCacheCleanupIntervalMs : K) kept nowMs) key nowMs)

/-- The module's caches and the consumed challenges. -/
structure Caches (K : Type u) where
  seenEnvelopeMacs : OnceCache.Cache String K
  seenAuthProofs : OnceCache.Cache String K
  consumedChallenges : OnceCache.Cache String K

/-! ### Proofs -/

/-- The result of `parseAgentAuthProof`. -/
inductive AuthProof
  | v1 (fingerprint : String) (ts : Nat) (nonce sig : String)
  | v2 (fingerprint challenge nonce sig : String)

def isHex (text : String) : Bool := text.toList.all fun c => (hexDigit c).isSome

def isLowerHex (text : String) : Bool :=
  text.toList.all fun c => (hexDigit c).isSome && !decide ('A' ≤ c ∧ c ≤ 'F')

/-- `parseAgentAuthProof` of a trimmed text. -/
def parseAgentAuthProof (value : String) : Option AuthProof :=
  let kind := value.toList.take 3
  let fields := (String.ofList (value.toList.drop 3)).splitOn "."
  if kind = "v1.".toList ∨ kind = "V1.".toList then
    match fields with
    | [fingerprint, ts, nonce, sig] =>
      if isHex fingerprint ∧ fingerprint.length = 32 ∧ ts.toList.all Char.isDigit ∧ 10 ≤ ts.length ∧ isHex nonce ∧
          16 ≤ nonce.length ∧ nonce.length ≤ 64 ∧ isHex sig ∧ sig.length = 64 then
        some (.v1 fingerprint.toLower (ts.toList.foldl (fun n c => n * 10 + (c.toNat - 48)) 0) nonce.toLower
          sig.toLower)
      else none
    | _ => none
  else if kind = "v2.".toList then
    match fields with
    | [fingerprint, challenge, nonce, sig] =>
      if isLowerHex fingerprint ∧ fingerprint.length = 32 ∧ challenge.toList.all (base64urlAlphabet.contains ·) ∧
          80 ≤ challenge.length ∧ challenge.length ≤ 100 ∧ isLowerHex nonce ∧ 16 ≤ nonce.length ∧
          nonce.length ≤ 64 ∧ isLowerHex sig ∧ sig.length = 64 then
        some (.v2 fingerprint challenge nonce sig)
      else none
    | _ => none
  else none

def authInput (P : Primitives) (method path bodyText : String) (ts : Nat) (nonce : String) : String :=
  "\n".intercalate ["v1", method.toUpper, path, toString ts, nonce, P.sha256Hex bodyText]

def challengeAuthInput (P : Primitives) (method path bodyText challenge nonce : String) : String :=
  "\n".intercalate ["v2", method.toUpper, path, challenge, nonce, P.sha256Hex bodyText]

def signAgentAuthProof (P : Primitives) (token method path bodyText : String) (ts : Nat) (nonce : String) : String :=
  toHex (P.authMac token (authInput P method path bodyText ts nonce))

def signAgentChallengeAuthProof (P : Primitives) (token method path bodyText challenge nonce : String) : String :=
  toHex (P.authMac token (challengeAuthInput P method path bodyText challenge nonce))

/-- What `verifyAgentAuthProofDetails` does: it returns null, throws, or returns the token
and whether the proof is one of version 2. -/
inductive Verdict
  | null
  | thrown
  | verified (token : String) (clockless : Bool)

def verifyAgentAuthProofDetails (P : Primitives) (c : Caches K) (raw : String) (candidateTokens : List String)
    (method path bodyText : String) (protocolNowMs : Int) (nowMs : K) : Verdict × Caches K :=
  match parseAgentAuthProof raw with
  | none => (.null, c)
  | some (.v1 fingerprint ts nonce sig) =>
    if (replayWindowMs : Int) < |protocolNowMs - ts| then (.null, c)
    else
      match candidateTokens.find? (fun token => P.fingerprint token = fingerprint) with
      | none => (.null, c)
      | some token =>
        if !timingSafeEqualHex (signAgentAuthProof P token method path bodyText ts nonce) sig then (.null, c)
        else
          match rememberOnce c.seenAuthProofs (":".intercalate [fingerprint, toString ts, nonce, sig]) nowMs with
          | none => (.thrown, c)
          | some seenAuthProofs => (.verified token false, { c with seenAuthProofs })
  | some (.v2 fingerprint challenge nonce sig) =>
    if !validateAgentAuthChallenge P.challengeMac challenge nowMs then (.null, c)
    else
      match candidateTokens.find? (fun token => P.fingerprint token = fingerprint) with
      | none => (.null, c)
      | some token =>
        if !timingSafeEqualHex (signAgentChallengeAuthProof P token method path bodyText challenge nonce) sig then
          (.null, c)
        else
          let r := consumeAgentAuthChallenge P.challengeMac c.consumedChallenges challenge nowMs
          (if r.1 then .verified token true else .null, { c with consumedChallenges := r.2 })

end

end ForwardX.Agent
