import ForwardX.Agent.EncryptionMiddleware

/- An agent's encrypted request is accepted once (`agentCrypto.ts`,
   `agentEncryptionMiddleware.ts`, the stream route of `agentRoutes.ts`).

   The replay cache keeps the mac as it is spelled for `replayCacheTtlMs`, which is longer
   than the two windows in which the timestamp passes. So what was accepted is refused as
   long as it is spelled the same, unless it was dated ahead when a proof of version 2
   spared it the timestamp check, or a request waits ten seconds for the database
   (`accepted_once`). Spelled in upper case a recorded request is accepted again
   (`accepted_respelled`). -/
namespace ForwardX.Agent

open Transition Wire

universe u

/-! ### Hexadecimal -/

theorem hexDigit_hexChar : ∀ n, n < 16 → hexDigit (hexChar n) = some n := by
  decide

theorem fromHex_toHex (bs : Bytes) : fromHex (toHex bs).toList = bs := by
  rw [toHex, String.toList_ofList]
  induction bs with
  | nil => rfl
  | cons b bs ih =>
    have hlow : b.toNat % 16 < 16 := Nat.mod_lt _ (by decide)
    have hhigh : b.toNat / 16 < 16 := by
      have := b.toNat_lt
      omega
    have hbyte : UInt8.ofNat (b.toNat / 16 * 16 + b.toNat % 16) = b := by
      rw [Nat.div_add_mod', UInt8.ofNat_toNat]
    simp only [List.flatMap_cons, List.cons_append, List.nil_append, fromHex, hexDigit_hexChar _ hhigh,
      hexDigit_hexChar _ hlow, hbyte, ih]

theorem contents_of_sealed {P : Primitives} {token : String} {c : Contents} {envelope : EncryptedEnvelope}
    (h : sealedEnvelope P token c = some envelope) : envelope.contents = c := by
  obtain ⟨input, _, rfl⟩ := Option.map_eq_some_iff.mp h
  simp [EncryptedEnvelope.contents, fromHex_toHex]

/-- Two canonical macs that match under one token for the same contents are one text. -/
theorem mac_eq_of_matches {P : Primitives} {token : String} {a b : EncryptedEnvelope}
    (ha : macMatches P token a = true) (hb : macMatches P token b = true) (hca : CanonicalMac a)
    (hcb : CanonicalMac b) (hsame : a.contents = b.contents) : a.mac = b.mac := by
  unfold macMatches at ha hb
  dsimp only at ha hb
  rw [← hsame] at hb
  cases hinput : macInput a.contents.iv a.contents.ct a.contents.ts with
  | none => simp [hinput] at ha
  | some input =>
    simp only [hinput, decide_eq_true_eq] at ha hb
    calc a.mac = toHex (fromHex a.mac.toList) := hca.symm
      _ = toHex (fromHex b.mac.toList) := by rw [← ha, ← hb]
      _ = b.mac := hcb

/-! ### The replay cache -/

section
variable {K : Type u} [Field K] [LinearOrder K]

/-- Remembering a key: it was free, and it is in the cache after a sweep. -/
theorem rememberOnce_some {cache cache' : OnceCache.Cache String K} {key : String} {nowMs : K}
    (h : rememberOnce cache key nowMs = some cache') :
    OnceCache.expiry cache key ≤ nowMs ∧
      cache' = OnceCache.remember (replayCacheTtlMs : K)
        (OnceCache.sweep (replayCacheCleanupIntervalMs : K) cache nowMs) key nowMs := by
  unfold rememberOnce at h
  dsimp only at h
  split at h
  · cases h
  · rename_i hfree
    refine ⟨not_lt.mp hfree, ?_⟩
    rw [← Option.some.inj h]
    split
    · exact OnceCache.remember_sweep_erase _ _ _ _ _
    · rfl

end

/-! ### What a step of a request does -/

section
variable {K : Type u} [Field K] [LinearOrder K] {P : Primitives}

theorem verify_seen (c : Caches K) (raw : String) (candidateTokens : List String) (method path bodyText : String)
    (protocolNowMs : Int) (nowMs : K) :
    (verifyAgentAuthProofDetails P c raw candidateTokens method path bodyText protocolNowMs nowMs).2.seenEnvelopeMacs =
      c.seenEnvelopeMacs := by
  unfold verifyAgentAuthProofDetails
  split
  · rfl
  · split
    · rfl
    · split
      · rfl
      · split
        · rfl
        · split <;> rfl
  · split
    · rfl
    · split
      · rfl
      · split <;> rfl

/-- What verified as a proof of version 2: a valid challenge, signed under the token. -/
theorem verify_clockless {c : Caches K} {raw : String} {candidate : String} {method path bodyText : String}
    {protocolNowMs : Int} {nowMs : K} {token : String}
    (h : (verifyAgentAuthProofDetails P c raw [candidate] method path bodyText protocolNowMs nowMs).1 =
      .verified token true) :
    token = candidate ∧ ∃ fingerprint challenge nonce sig,
      parseAgentAuthProof raw = some (.v2 fingerprint challenge nonce sig) ∧
      validateAgentAuthChallenge P.challengeMac challenge nowMs = true ∧
      timingSafeEqualHex (signAgentChallengeAuthProof P token method path bodyText challenge nonce) sig = true := by
  unfold verifyAgentAuthProofDetails at h
  split at h
  · cases h
  · split at h
    · cases h
    · split at h
      · cases h
      · split at h
        · cases h
        · split at h
          · cases h
          · cases h
  · rename_i fingerprint challenge nonce sig hparse
    split at h
    · cases h
    · rename_i hvalid
      split at h
      · cases h
      · rename_i found hfound
        split at h
        · cases h
        · rename_i hsig
          have hmem : found = candidate := List.mem_singleton.mp (List.mem_of_find?_eq_some hfound)
          dsimp only at h
          split at h
          · obtain ⟨rfl, -⟩ := Verdict.verified.inj h
            exact ⟨hmem, fingerprint, challenge, nonce, sig, hparse, by simpa using hvalid, by simpa using hsig⟩
          · cases h

theorem verifyCredential_seen (c : Caches K) (p : Pending K) (credential : String) (tokens : List String)
    (nowMs : K) : (verifyCredential P c p credential tokens nowMs).2.seenEnvelopeMacs = c.seenEnvelopeMacs := by
  unfold verifyCredential
  split
  · rfl
  · exact verify_seen _ _ _ _ _ _ _ _

theorem tokenCandidateForProof_mem {raw : String} {tokens : List String} {candidate : String}
    (h : tokenCandidateForProof P raw tokens = some candidate) : candidate ∈ tokens := by
  unfold tokenCandidateForProof at h
  split at h
  · cases h
  · exact List.mem_reverse.mp (List.mem_of_find?_eq_some h)
  · exact List.mem_reverse.mp (List.mem_of_find?_eq_some h)

/-- A request resolved on a proof of version 2 carries one that a token of the database signed. -/
def SignedNow (P : Primitives) (p : Pending K) (tokens : List String) (nowMs : K) (token : String) : Prop :=
  ∃ credential fingerprint challenge nonce sig, p.request.credential = some credential ∧
    parseAgentAuthProof credential = some (.v2 fingerprint challenge nonce sig) ∧ token ∈ tokens ∧
    validateAgentAuthChallenge P.challengeMac challenge nowMs = true ∧
    timingSafeEqualHex (signAgentChallengeAuthProof P token p.request.method p.request.path
      (p.request.signedText credential) challenge nonce) sig = true

variable {c c' : Caches K} {p : Pending K} {nowMs : K} {tokens : List String} {token : String}

theorem verifyCredential_clockless {credential : String} (hcred : p.request.credential = some credential)
    (h : verifyCredential P c p credential tokens nowMs = (.verified token true, c')) :
    SignedNow P p tokens nowMs token := by
  unfold verifyCredential at h
  split at h
  · cases h
  · rename_i candidate hcandidate
    obtain ⟨rfl, fingerprint, challenge, nonce, sig, hparse, hvalid, hsig⟩ :=
      verify_clockless (congrArg Prod.fst h)
    exact ⟨credential, fingerprint, challenge, nonce, sig, hcred, hparse,
      tokenCandidateForProof_mem hcandidate, hvalid, hsig⟩

theorem finish_not_waits (r : Request) (envelope : EncryptedEnvelope) (token : String) (stage : Stage) :
    finish P r envelope token ≠ .waits stage := by
  unfold finish
  intro h
  split at h
  · cases h
  · split at h <;> cases h

theorem finish_accepted {r : Request} {envelope : EncryptedEnvelope} {token token' : String}
    (h : finish P r envelope token = .accepted token') : token' = token := by
  unfold finish at h
  split at h
  · cases h
  · split at h
    · cases h
    · exact (Outcome.accepted.inj h).symm

/-- An envelope that opens under a token has the right mac, and a timestamp in the window
if it is checked. -/
theorem openEnvelope_true {envelope : EncryptedEnvelope} {validateTimestamp : Bool} {protocolNowMs : Int}
    (h : openEnvelope P envelope token validateTimestamp protocolNowMs = true) : macMatches P token envelope = true ∧
      (validateTimestamp = true → |(protocolNowMs : Rat) - envelope.ts| ≤ (replayWindowMs : Rat)) := by
  unfold openEnvelope at h
  split at h
  · cases h
  · split at h
    · cases h
    · rename_i hwindow
      refine ⟨h, fun hvalidate => ?_⟩
      rw [not_and] at hwindow
      exact not_lt.mp (hwindow hvalidate)

structure Passed (P : Primitives) (c c' : Caches K) (p : Pending K) (tokens : List String) (nowMs : K)
    (token : String) : Prop where
  opened : token ∈ p.opensWith tokens
  mac : macMatches P token p.envelope = true
  dated : p.stage = .authorized token true ∨ |(p.protocolNowMs : Rat) - p.envelope.ts| ≤ (replayWindowMs : Rat)
  remembered : rememberOnce c.seenEnvelopeMacs p.envelope.mac nowMs = some c'.seenEnvelopeMacs

theorem candidates_passed {found token : String} {seen : OnceCache.Cache String K}
    (hstage : p.opensWith tokens = tokens)
    (hfound : decryptPayloadWithCandidates P p.envelope tokens p.protocolNowMs = some found)
    (hseen : rememberOnce c.seenEnvelopeMacs p.envelope.mac nowMs = some seen)
    (h : (finish P p.request p.envelope found, { c with seenEnvelopeMacs := seen }) = (.accepted token, c')) :
    Passed P c c' p tokens nowMs token := by
  obtain ⟨hfinish, rfl⟩ := Prod.mk.inj h
  obtain rfl := finish_accepted hfinish
  unfold decryptPayloadWithCandidates at hfound
  have hopen := List.find?_some hfound
  rw [Bool.and_eq_true] at hopen
  have hfacts := openEnvelope_true hopen.1
  constructor
  · rw [hstage]
    exact List.mem_of_find?_eq_some hfound
  · exact hfacts.1
  · exact Or.inr (hfacts.2 rfl)
  · exact hseen

theorem proceed_accepted {known : Bool} (h : p.proceed P c known tokens nowMs = (.accepted token, c')) :
    Passed P c c' p tokens nowMs token := by
  unfold Pending.proceed at h
  split at h
  case h_1 hstage =>
    split at h
    · cases h
    · split at h
      · split at h <;> cases h
      · split at h <;> cases h
  case h_2 hstage =>
    split at h
    · cases h
    · split at h
      · split at h <;> cases h
      · split at h <;> cases h
  case h_3 found clockless hstage =>
    split at h
    · cases h
    · rename_i hopen
      split at h
      · cases h
      · rename_i seen hseen
        obtain ⟨hfinish, rfl⟩ := Prod.mk.inj h
        obtain rfl := finish_accepted hfinish
        have hfacts := openEnvelope_true (by simpa using hopen)
        constructor
        · simp [Pending.opensWith, hstage]
        · exact hfacts.1
        · cases clockless with
          | true => exact Or.inl hstage
          | false => exact Or.inr (hfacts.2 rfl)
        · exact hseen
  case h_4 hstage =>
    split at h
    · cases h
    · rename_i found hfound
      split at h
      · cases h
      · rename_i seen hseen
        exact candidates_passed (by simp [Pending.opensWith, hstage]) hfound hseen h
  case h_5 hstage =>
    split at h
    · cases h
    · rename_i found hfound
      split at h
      · cases h
      · rename_i seen hseen
        exact candidates_passed (by simp [Pending.opensWith, hstage]) hfound hseen h

/-- A step remembers the mac of the envelope or leaves the cache of macs alone. -/
theorem proceed_seen (c : Caches K) (p : Pending K) (known : Bool) (tokens : List String) (nowMs : K) :
    (p.proceed P c known tokens nowMs).2.seenEnvelopeMacs = c.seenEnvelopeMacs ∨
      rememberOnce c.seenEnvelopeMacs p.envelope.mac nowMs =
        some (p.proceed P c known tokens nowMs).2.seenEnvelopeMacs := by
  unfold Pending.proceed
  split
  · split
    · exact Or.inl rfl
    · rename_i credential _
      split
      · exact Or.inl rfl
      · have hverify := verifyCredential_seen (P := P) c p credential tokens nowMs
        split <;> rename_i heq <;> rw [heq] at hverify <;> exact Or.inl hverify
  · split
    · exact Or.inl rfl
    · rename_i credential _
      split
      · exact Or.inl rfl
      · have hverify := verifyCredential_seen (P := P) c p credential tokens nowMs
        split <;> rename_i heq <;> rw [heq] at hverify <;> exact Or.inl hverify
  · split
    · exact Or.inl rfl
    · split
      · exact Or.inl rfl
      · rename_i seen hseen
        exact Or.inr hseen
  · split
    · exact Or.inl rfl
    · split
      · exact Or.inl rfl
      · rename_i seen hseen
        exact Or.inr hseen
  · split
    · exact Or.inl rfl
    · split
      · exact Or.inl rfl
      · rename_i seen hseen
        exact Or.inr hseen

/-- A request that gets the clockless stage was resolved on a proof of version 2. -/
theorem proceed_clockless {known : Bool}
    (h : p.proceed P c known tokens nowMs = (.waits (.authorized token true), c')) :
    SignedNow P p tokens nowMs token := by
  unfold Pending.proceed at h
  split at h
  · split at h
    · cases h
    · rename_i credential hcred
      split at h
      · split at h <;> cases h
      · split at h
        · cases h
        · cases h
        · rename_i heq
          cases h
          exact verifyCredential_clockless hcred heq
  · split at h
    · cases h
    · rename_i credential hcred
      split at h
      · split at h <;> cases h
      · split at h
        · cases h
        · cases h
        · rename_i heq
          cases h
          exact verifyCredential_clockless hcred heq
  · split at h
    · cases h
    · split at h
      · cases h
      · exact absurd (congrArg Prod.fst h) (finish_not_waits _ _ _ _)
  · split at h
    · cases h
    · split at h
      · cases h
      · exact absurd (congrArg Prod.fst h) (finish_not_waits _ _ _ _)
  · split at h
    · cases h
    · split at h
      · cases h
      · exact absurd (congrArg Prod.fst h) (finish_not_waits _ _ _ _)

end

/-! ### The invariant -/

section
variable {K : Type u} [Field K] [LinearOrder K] {P : Primitives}

theorem parse_v2_startsWith {credential fingerprint challenge nonce sig : String}
    (h : parseAgentAuthProof credential = some (.v2 fingerprint challenge nonce sig)) :
    startsWith credential "v2." = true := by
  unfold parseAgentAuthProof at h
  dsimp only at h
  split at h
  · split at h
    · split at h <;> cases h
    · cases h
  · split at h
    · rename_i hkind
      exact decide_eq_true hkind
    · cases h

/-- What is known of a sealed envelope: an agent's text spells it, and its challenge was
issued before. -/
structure SealedOk (P : Primitives) (s : EnvelopePanel K) (e : Sealed K) : Prop where
  atMs : e.atMs ≤ s.nowMs
  text : ∀ challenge text, e.proof = some (challenge, text) →
    (P.parseBody text).bind isEncryptedEnvelope = sealedEnvelope P e.token e.contents ∧
      (sealedEnvelope P e.token e.contents).isSome
  challenge : ∀ challenge text, e.proof = some (challenge, text) → ∀ decoded, decodeChallenge challenge = some decoded →
    challengeReceivedMac decoded = P.challengeMac (challengePayload decoded) → (issuedAtMs decoded : K) ≤ e.atMs

/-- A sealed envelope carries these contents under the token, at most as late as `atMs`. -/
def SealedBy (s : EnvelopePanel K) (token : String) (contents : Contents) (atMs : K) : Prop :=
  ∃ e ∈ s.envelopes, e.token = token ∧ e.contents = contents ∧ e.atMs ≤ atMs

structure PendingOk [FloorRing K] (P : Primitives) (offset : K) (s : EnvelopePanel K) (p : Pending K) : Prop where
  startedMs : p.startedMs ≤ s.nowMs
  protocolNowMs : p.protocolNowMs = panelCryptoNowMs offset p.startedMs
  envelope : p.request.envelope P = some p.envelope
  clockless : ∀ token, p.stage = .authorized token true → ∃ e ∈ s.envelopes, e.token = token ∧
    e.contents = p.envelope.contents ∧ p.startedMs ≤ e.atMs + challengeValidityMs

/-- What is known of an accepted request: it was sealed before, and dated in the window. -/
structure AcceptedOk [FloorRing K] (P : Primitives) (offset : K) (s : EnvelopePanel K) (a : Accepted K) : Prop where
  atMs : a.atMs ≤ s.nowMs
  canonical : CanonicalMac a.envelope
  mac : macMatches P a.token a.envelope = true
  sealedBy : SealedBy s a.token a.envelope.contents a.atMs
  dated : a.envelope.ts ≤ ((panelCryptoNowMs offset a.atMs + replayWindowMs : Int) : Rat)

structure EnvelopePanel.Inv [FloorRing K] (P : Primitives) (offset : K) (s : EnvelopePanel K) : Prop where
  nowMs : 0 ≤ s.nowMs
  keyed : OnceCache.Keyed s.caches.seenEnvelopeMacs
  remembers : OnceCache.Remembers (replayCacheTtlMs : K) (s.accepted.map fun a => (a.envelope.mac, a.atMs)) s.nowMs
    s.caches.seenEnvelopeMacs
  issued : ∀ i ∈ s.issued, i.atMs ≤ s.nowMs ∧ (getBE (i.payload.take 8) : K) ≤ i.atMs
  envelopes : ∀ e ∈ s.envelopes, SealedOk P s e
  unique : ∀ e ∈ s.envelopes, ∀ e' ∈ s.envelopes, e'.contents = e.contents →
    e' = e ∨ 2 ≤ s.sealedByAgents e.contents
  pending : ∀ p ∈ s.pending, PendingOk P offset s p
  accepted : ∀ a ∈ s.accepted, AcceptedOk P offset s a

/-- What is sealed grows, and so does the count of a content. -/
structure Extends (s s' : EnvelopePanel K) : Prop where
  nowMs : s.nowMs ≤ s'.nowMs
  envelopes : ∀ e ∈ s.envelopes, e ∈ s'.envelopes
  sealedByAgents : ∀ contents, s.sealedByAgents contents ≤ s'.sealedByAgents contents

variable {s s' : EnvelopePanel K}

theorem SealedOk.mono (hext : Extends s s') {e : Sealed K} (h : SealedOk P s e) : SealedOk P s' e :=
  ⟨h.atMs.trans hext.nowMs, h.text, h.challenge⟩

omit [Field K] in
theorem SealedBy.mono (hext : Extends s s') {token : String} {contents : Contents} {atMs : K}
    (h : SealedBy s token contents atMs) : SealedBy s' token contents atMs := by
  obtain ⟨e, he, hrest⟩ := h
  exact ⟨e, hext.envelopes e he, hrest⟩

omit [Field K] in
theorem EnvelopePanel.AcceptedOnce.mono (hext : Extends s s') (haccepted : s'.accepted = s.accepted)
    (h : s.AcceptedOnce) : s'.AcceptedOnce := by
  rw [AcceptedOnce, haccepted]
  exact h.imp fun htwo hsame => (htwo hsame).trans (hext.sealedByAgents _)

variable [FloorRing K] {offset : K}

theorem PendingOk.mono (hext : Extends s s') {p : Pending K} (h : PendingOk P offset s p) :
    PendingOk P offset s' p := by
  constructor
  · exact h.startedMs.trans hext.nowMs
  · exact h.protocolNowMs
  · exact h.envelope
  · intro token hstage
    obtain ⟨e, he, hrest⟩ := h.clockless token hstage
    exact ⟨e, hext.envelopes e he, hrest⟩

theorem AcceptedOk.mono (hext : Extends s s') {a : Accepted K} (h : AcceptedOk P offset s a) :
    AcceptedOk P offset s' a :=
  ⟨h.atMs.trans hext.nowMs, h.canonical, h.mac, h.sealedBy.mono hext, h.dated⟩

theorem start_envelopes (h : s.Start) : s.Inv P offset := by
  obtain ⟨hnow, hcaches, hpending, hissued, henvelopes, haccepted⟩ := h
  constructor
  · exact hnow
  · rw [hcaches]
    exact List.nodup_nil
  · rw [hcaches, haccepted]
    exact OnceCache.Remembers.empty _ _
  · simp [hissued]
  · simp [henvelopes]
  · simp [henvelopes]
  · simp [hpending]
  · simp [haccepted]

namespace EnvelopePanel

variable {s : EnvelopePanel K}

theorem Inv.fail (h : s.Inv P offset) (i : Nat) :
    ({ s with pending := s.pending.eraseIdx i } : EnvelopePanel K).Inv P offset := by
  have hext : Extends s { s with pending := s.pending.eraseIdx i } := ⟨le_refl _, fun _ he => he, fun _ => le_refl _⟩
  constructor
  · exact h.nowMs
  · exact h.keyed
  · exact h.remembers
  · exact h.issued
  · exact fun e he => (h.envelopes e he).mono hext
  · exact h.unique
  · exact fun p hp => (h.pending p (List.mem_of_mem_eraseIdx hp)).mono hext
  · exact fun a ha => (h.accepted a ha).mono hext

theorem Inv.arrive (h : s.Inv P offset) {request : Request} {envelope : EncryptedEnvelope}
    (henvelope : request.envelope P = some envelope) : ({ s with pending := s.pending ++
        [⟨request, envelope, panelCryptoNowMs offset s.nowMs, s.nowMs, .resolve⟩] } : EnvelopePanel K).Inv P offset := by
  have hext : Extends s { s with pending := s.pending ++
      [⟨request, envelope, panelCryptoNowMs offset s.nowMs, s.nowMs, .resolve⟩] } :=
    ⟨le_refl _, fun _ he => he, fun _ => le_refl _⟩
  constructor
  · exact h.nowMs
  · exact h.keyed
  · exact h.remembers
  · exact h.issued
  · exact fun e he => (h.envelopes e he).mono hext
  · exact h.unique
  · intro p hp
    rcases List.mem_append.mp hp with hold | hnew
    · exact (h.pending p hold).mono hext
    · obtain rfl := List.mem_singleton.mp hnew
      exact ⟨le_refl _, rfl, henvelope, fun token hstage => (by cases hstage)⟩
  · exact fun a ha => (h.accepted a ha).mono hext

theorem Inv.issue (h : s.Inv P offset) {random : Bytes} {c : Bytes × String}
    (hc : issueAgentAuthChallenge P.challengeMac random s.nowMs = some c) :
    ({ s with issued := s.issued ++ [⟨c.1, c.2, s.nowMs⟩] } : EnvelopePanel K).Inv P offset := by
  have hext : Extends s { s with issued := s.issued ++ [⟨c.1, c.2, s.nowMs⟩] } :=
    ⟨le_refl _, fun _ he => he, fun _ => le_refl _⟩
  constructor
  · exact h.nowMs
  · exact h.keyed
  · exact h.remembers
  · intro i hi
    rcases List.mem_append.mp hi with hold | hnew
    · exact h.issued i hold
    · obtain rfl := List.mem_singleton.mp hnew
      exact ⟨le_refl _, (issue_spec h.nowMs hc).2⟩
  · exact fun e he => (h.envelopes e he).mono hext
  · exact h.unique
  · exact fun p hp => (h.pending p hp).mono hext
  · exact fun a ha => (h.accepted a ha).mono hext

omit [Field K] [LinearOrder K] [FloorRing K] in
theorem sealedByAgents_seal (s : EnvelopePanel K) (e : Sealed K) (contents : Contents) :
    ({ s with envelopes := s.envelopes ++ [e] } : EnvelopePanel K).sealedByAgents contents =
      s.sealedByAgents contents + if e.byAgent && decide (e.contents = contents) then 1 else 0 := by
  simp only [sealedByAgents, List.countP_append, List.countP_singleton]

omit [Field K] [FloorRing K] in
theorem extends_seal (s : EnvelopePanel K) (e : Sealed K) : Extends s { s with envelopes := s.envelopes ++ [e] } :=
  ⟨le_refl _, fun _ he => List.mem_append_left _ he,
    fun contents => (sealedByAgents_seal s e contents) ▸ Nat.le_add_right _ _⟩

theorem Inv.seal (h : s.Inv P offset) {e : Sealed K} (hok : SealedOk P s e)
    (hagain : ∀ e' ∈ s.envelopes, e'.contents = e.contents → e'.byAgent = true ∧ e.byAgent = true) :
    ({ s with envelopes := s.envelopes ++ [e] } : EnvelopePanel K).Inv P offset := by
  have hext := extends_seal s e
  -- a second envelope with the contents is the agents' second
  have htwice : ∀ e' ∈ s.envelopes, e'.contents = e.contents →
      2 ≤ ({ s with envelopes := s.envelopes ++ [e] } : EnvelopePanel K).sealedByAgents e.contents := by
    intro e' he' hsame
    obtain ⟨hold, hnew⟩ := hagain e' he' hsame
    have hone : 0 < s.sealedByAgents e.contents :=
      List.countP_pos_iff.mpr ⟨e', he', by simp [hold, hsame]⟩
    rw [sealedByAgents_seal]
    simp only [hnew, decide_true, Bool.and_self, if_true]
    omega
  constructor
  · exact h.nowMs
  · exact h.keyed
  · exact h.remembers
  · exact h.issued
  · intro e' he'
    rcases List.mem_append.mp he' with hold | hnew
    · exact (h.envelopes e' hold).mono hext
    · obtain rfl := List.mem_singleton.mp hnew
      exact hok.mono hext
  · intro e₁ he₁ e₂ he₂ hsame
    rcases List.mem_append.mp he₁ with hold₁ | hnew₁
    · rcases List.mem_append.mp he₂ with hold₂ | hnew₂
      · exact (h.unique e₁ hold₁ e₂ hold₂ hsame).imp_right fun htwo => htwo.trans (hext.sealedByAgents _)
      · obtain rfl := List.mem_singleton.mp hnew₂
        exact Or.inr (hsame ▸ htwice e₁ hold₁ hsame.symm)
    · obtain rfl := List.mem_singleton.mp hnew₁
      rcases List.mem_append.mp he₂ with hold₂ | hnew₂
      · exact Or.inr (htwice e₂ hold₂ hsame)
      · exact Or.inl (List.mem_singleton.mp hnew₂)
  · exact fun p hp => (h.pending p hp).mono hext
  · exact fun a ha => (h.accepted a ha).mono hext

end EnvelopePanel

end

section
variable {K : Type u} [Field K] [LinearOrder K] [IsStrictOrderedRing K] [FloorRing K] {P : Primitives} {offset : K}

namespace EnvelopePanel

theorem Inv.tick {s : EnvelopePanel K} (h : s.Inv P offset) {elapsedMs : K} (hpos : 0 ≤ elapsedMs) :
    ({ s with nowMs := s.nowMs + elapsedMs } : EnvelopePanel K).Inv P offset := by
  have hle : s.nowMs ≤ s.nowMs + elapsedMs := le_add_of_nonneg_right hpos
  have hext : Extends s { s with nowMs := s.nowMs + elapsedMs } := ⟨hle, fun _ he => he, fun _ => le_refl _⟩
  constructor
  · exact h.nowMs.trans hle
  · exact h.keyed
  · exact h.remembers.later hle
  · exact fun i hi => ⟨(h.issued i hi).1.trans hle, (h.issued i hi).2⟩
  · exact fun e he => (h.envelopes e he).mono hext
  · exact h.unique
  · exact fun p hp => (h.pending p hp).mono hext
  · exact fun a ha => (h.accepted a ha).mono hext

variable {p : Pending K} {i : Nat} {s : EnvelopePanel K} {tokens : List String} {known : Bool}

/-- A request that resolves on a proof of version 2 started while the challenge of its
envelope was valid. -/
theorem Inv.signed (h : s.Inv P offset) (hideal : Ideal P s (.proceed i known tokens)) (hp : s.pending[i]? = some p)
    {token : String} (hsigned : SignedNow P p tokens s.nowMs token) :
    ∃ e ∈ s.envelopes, e.token = token ∧ e.contents = p.envelope.contents ∧
      p.startedMs ≤ e.atMs + challengeValidityMs := by
  obtain ⟨credential, fingerprint, challenge, nonce, sig, hcred, hparse, htoken, hvalid, hsig⟩ := hsigned
  obtain ⟨e, he, hetoken, _, hproof⟩ :=
    (hideal p hp).2 credential fingerprint challenge nonce sig hcred hparse token htoken hsig
  have hpok := h.pending p (List.mem_of_getElem? hp)
  have htext : p.request.signedText credential = p.request.text := by
    simp [Request.signedText, parse_v2_startsWith hparse]
  rw [htext] at hproof
  have hspelled := ((h.envelopes e he).text challenge p.request.text hproof).1
  have hcontents : p.envelope.contents = e.contents :=
    contents_of_sealed (hspelled.symm.trans hpok.envelope)
  obtain ⟨decoded, hdec, hmac, _, hage⟩ := validate_iff.mp hvalid
  have hissued := (h.envelopes e he).challenge challenge p.request.text hproof decoded hdec hmac
  refine ⟨e, he, hetoken, hcontents.symm, ?_⟩
  calc p.startedMs ≤ s.nowMs := hpok.startedMs
    _ ≤ issuedAtMs decoded + challengeValidityMs := by linarith
    _ ≤ e.atMs + challengeValidityMs := by linarith

theorem panelCryptoNowMs_mono {a b : K} (hle : a ≤ b) : panelCryptoNowMs offset a ≤ panelCryptoNowMs offset b :=
  Int.floor_le_floor (by linarith)

theorem Inv.passed (h : s.Inv P offset) (hideal : Ideal P s (.proceed i known tokens))
    (hin : InStep P offset s (.proceed i known tokens)) (hp : s.pending[i]? = some p) {token : String} {c' : Caches K}
    (hpassed : Passed P s.caches c' p tokens s.nowMs token) : AcceptedOk P offset s ⟨token, p.envelope, s.nowMs⟩ := by
  have hpok := h.pending p (List.mem_of_getElem? hp)
  obtain ⟨hcanonical, hahead, _⟩ := hin p hp token hpassed.opened
  constructor
  · exact le_refl _
  · exact hcanonical hpassed.mac
  · exact hpassed.mac
  · obtain ⟨e, he, hetoken, hcontents⟩ := (hideal p hp).1 token hpassed.opened hpassed.mac
    exact ⟨e, he, hetoken, hcontents, (h.envelopes e he).atMs⟩
  · rcases hpassed.dated with hstage | hwindow
    · exact hahead hstage
    · have hclock : p.protocolNowMs ≤ panelCryptoNowMs offset s.nowMs := by
        rw [hpok.protocolNowMs]
        exact panelCryptoNowMs_mono hpok.startedMs
      have hclock' : (p.protocolNowMs : Rat) ≤ (panelCryptoNowMs offset s.nowMs : Rat) := by exact_mod_cast hclock
      have hlow := (abs_le.mp hwindow).1
      push_cast
      linarith

/-- A timestamp that passes at two readings of the clock: the later one is two windows after
the earlier one at most, but for the rounding. -/
theorem started_before {accepted started : K} {ts ts' : Rat}
    (hdated : ts ≤ ((panelCryptoNowMs offset accepted + replayWindowMs : Int) : Rat)) (hts : ts = ts')
    (hwindow : |((panelCryptoNowMs offset started : Int) : Rat) - ts'| ≤ (replayWindowMs : Rat)) :
    started < accepted + 600001 := by
  have hhigh := (abs_le.mp hwindow).2
  have hclock : ((panelCryptoNowMs offset started : Int) : Rat) ≤
      ((panelCryptoNowMs offset accepted + 2 * replayWindowMs : Int) : Rat) := by
    push_cast at hdated ⊢
    linarith
  have hint : panelCryptoNowMs offset started ≤ panelCryptoNowMs offset accepted + 600000 := by
    have hcast := Int.cast_le.mp hclock
    have hwidth : (2 * replayWindowMs : Int) = 600000 := by decide
    omega
  have hbelow : offset + started + 1 / 2 < (panelCryptoNowMs offset started : K) + 1 := Int.lt_floor_add_one _
  have habove : (panelCryptoNowMs offset accepted : K) ≤ offset + accepted + 1 / 2 := Int.floor_le _
  have hcast : (panelCryptoNowMs offset started : K) ≤ (panelCryptoNowMs offset accepted : K) + 600000 := by
    exact_mod_cast hint
  linarith

/-- A request that is accepted now was not accepted before, unless the agents sealed its
contents twice. -/
theorem Inv.once (h : s.Inv P offset) (hideal : Ideal P s (.proceed i known tokens))
    (hin : InStep P offset s (.proceed i known tokens)) (hp : s.pending[i]? = some p) {token : String} {c' : Caches K}
    (hpassed : Passed P s.caches c' p tokens s.nowMs token) {a : Accepted K} (ha : a ∈ s.accepted)
    (hsame : a.envelope.contents = p.envelope.contents) : 2 ≤ s.sealedByAgents a.envelope.contents := by
  have hpok := h.pending p (List.mem_of_getElem? hp)
  have haok := h.accepted a ha
  have hnew := h.passed hideal hin hp hpassed
  obtain ⟨eₐ, heₐ, htokenₐ, hcontentsₐ, hatₐ⟩ := haok.sealedBy
  obtain ⟨e, he, htoken, hcontents, _⟩ := hnew.sealedBy
  by_contra hone
  have honly : ∀ e' ∈ s.envelopes, e'.contents = p.envelope.contents → e' = eₐ := by
    intro e' he' hcontents'
    have hsame' : e'.contents = eₐ.contents := hcontents'.trans (hsame.symm.trans hcontentsₐ.symm)
    rcases h.unique eₐ heₐ e' he' hsame' with heq | htwo
    · exact heq
    · exact absurd (hcontentsₐ ▸ htwo) hone
  -- sealed once: the mac is the one that was remembered
  have hmac : a.envelope.mac = p.envelope.mac := by
    have htokens : a.token = token := by
      calc a.token = eₐ.token := htokenₐ.symm
        _ = e.token := congrArg Sealed.token (honly e he hcontents).symm
        _ = token := htoken
    exact mac_eq_of_matches haok.mac (htokens ▸ hpassed.mac) haok.canonical hnew.canonical hsame
  have hlog : (p.envelope.mac, a.atMs) ∈ s.accepted.map fun a => (a.envelope.mac, a.atMs) :=
    List.mem_map.mpr ⟨a, ha, by rw [hmac]⟩
  have hlate : a.atMs + replayCacheTtlMs ≤ s.nowMs :=
    h.remembers.late (rememberOnce_some hpassed.remembered).1 hlog
  have hprompt := (hin p hp token hpassed.opened).2.2
  have httl : (replayCacheTtlMs : K) = 610000 := by
    norm_num [replayCacheTtlMs, replayWindowMs, replayCacheCleanupIntervalMs]
  rcases hpassed.dated with hstage | hwindow
  · obtain ⟨e', he', _, hcontents', hstarted⟩ := hpok.clockless token hstage
    have hvalidity : (challengeValidityMs : K) = 600000 := by norm_num [challengeValidityMs]
    rw [honly e' he' hcontents'] at hstarted
    linarith
  · have hstarted := started_before haok.dated (congrArg Contents.ts hsame) (hpok.protocolNowMs ▸ hwindow)
    linarith

/-- The cache of macs after a step keeps what the accepted requests need. -/
theorem Inv.cache (h : s.Inv P offset) {mac : String} {seen : OnceCache.Cache String K}
    (hseen : seen = s.caches.seenEnvelopeMacs ∨ rememberOnce s.caches.seenEnvelopeMacs mac s.nowMs = some seen) :
    OnceCache.Keyed seen ∧ OnceCache.Remembers (replayCacheTtlMs : K)
      (s.accepted.map fun a => (a.envelope.mac, a.atMs)) s.nowMs seen := by
  rcases hseen with rfl | hseen
  · exact ⟨h.keyed, h.remembers⟩
  · obtain ⟨_, rfl⟩ := rememberOnce_some hseen
    refine ⟨OnceCache.keyed_remember (OnceCache.keyed_sweep h.keyed _ _) _ _ _, fun k n hmem => ?_⟩
    refine (h.remembers.sweep h.keyed _).remember (fun k n hlog => ?_) mac k n (List.mem_append_left _ hmem)
    obtain ⟨a, ha, heq⟩ := List.mem_map.mp hlog
    obtain ⟨_, rfl⟩ := Prod.mk.inj heq
    exact (h.accepted a ha).atMs

theorem Inv.settle (h : s.Inv P offset) (hideal : Ideal P s (.proceed i known tokens))
    (hin : InStep P offset s (.proceed i known tokens)) (hp : s.pending[i]? = some p) :
    (s.settle i p (p.proceed P s.caches known tokens s.nowMs)).Inv P offset := by
  have hcache := h.cache (proceed_seen s.caches p known tokens s.nowMs (P := P))
  have hpok := h.pending p (List.mem_of_getElem? hp)
  cases hr : p.proceed P s.caches known tokens s.nowMs with
  | mk outcome c' =>
    rw [hr] at hcache
    cases outcome with
    | waits stage =>
      have hext : Extends s { s with caches := c', pending := s.pending.set i { p with stage } } :=
        ⟨le_refl _, fun _ he => he, fun _ => le_refl _⟩
      constructor
      · exact h.nowMs
      · exact hcache.1
      · exact hcache.2
      · exact h.issued
      · exact fun e he => (h.envelopes e he).mono hext
      · exact h.unique
      · intro p' hp'
        rcases List.mem_or_eq_of_mem_set hp' with hold | rfl
        · exact (h.pending p' hold).mono hext
        · refine ⟨hpok.startedMs, hpok.protocolNowMs, hpok.envelope, fun token hstage => ?_⟩
          obtain rfl : stage = .authorized token true := hstage
          exact h.signed hideal hp (proceed_clockless hr)
      · exact fun a ha => (h.accepted a ha).mono hext
    | rejected =>
      have hext : Extends s { s with caches := c', pending := s.pending.eraseIdx i } :=
        ⟨le_refl _, fun _ he => he, fun _ => le_refl _⟩
      constructor
      · exact h.nowMs
      · exact hcache.1
      · exact hcache.2
      · exact h.issued
      · exact fun e he => (h.envelopes e he).mono hext
      · exact h.unique
      · exact fun p' hp' => (h.pending p' (List.mem_of_mem_eraseIdx hp')).mono hext
      · exact fun a ha => (h.accepted a ha).mono hext
    | accepted token =>
      have hpassed := proceed_accepted hr
      have hext : Extends s { s with
          caches := c'
          pending := s.pending.eraseIdx i
          accepted := s.accepted ++ [⟨token, p.envelope, s.nowMs⟩] } :=
        ⟨le_refl _, fun _ he => he, fun _ => le_refl _⟩
      constructor
      · exact h.nowMs
      · exact hcache.1
      · obtain ⟨_, hseen⟩ := rememberOnce_some hpassed.remembered
        have hlog : ∀ k n, (k, n) ∈ (s.accepted.map fun a => (a.envelope.mac, a.atMs)) → n ≤ s.nowMs := by
          intro k n hmem
          obtain ⟨a, ha, heq⟩ := List.mem_map.mp hmem
          obtain ⟨_, rfl⟩ := Prod.mk.inj heq
          exact (h.accepted a ha).atMs
        have hremembers := (h.remembers.sweep h.keyed (replayCacheCleanupIntervalMs : K)).remember hlog p.envelope.mac
        simp only [EnvelopePanel.settle, List.map_append, List.map_cons, List.map_nil, hseen]
        exact hremembers
      · exact h.issued
      · exact fun e he => (h.envelopes e he).mono hext
      · exact h.unique
      · exact fun p' hp' => (h.pending p' (List.mem_of_mem_eraseIdx hp')).mono hext
      · intro a ha
        rcases List.mem_append.mp ha with hold | hnew
        · exact (h.accepted a hold).mono hext
        · obtain rfl := List.mem_singleton.mp hnew
          exact (h.passed hideal hin hp hpassed).mono hext

omit [IsStrictOrderedRing K] in
theorem Inv.send (h : s.Inv P offset) {token text : String} {contents : Contents} {challenge : Option String}
    (hideal : Ideal P s (.send token contents text challenge)) (hsealed : sealedEnvelope P token contents ≠ none)
    (htext : (P.parseBody text).bind isEncryptedEnvelope = sealedEnvelope P token contents) :
    ({ s with envelopes := s.envelopes ++
        [⟨token, contents, s.nowMs, true, challenge.map fun c => (c, text)⟩] } : EnvelopePanel K).Inv P offset := by
  refine h.seal ⟨le_refl _, ?_, ?_⟩ ?_
  · intro c text' hproof
    obtain ⟨_, _, heq⟩ := Option.map_eq_some_iff.mp hproof
    obtain ⟨_, rfl⟩ := Prod.mk.inj heq
    exact ⟨htext, Option.isSome_iff_ne_none.mpr hsealed⟩
  · intro c text' hproof decoded hdec hmac
    obtain ⟨_, hchallenge, heq⟩ := Option.map_eq_some_iff.mp hproof
    obtain ⟨rfl, _⟩ := Prod.mk.inj heq
    obtain ⟨i, hi, hpayload⟩ := hideal.2 _ hchallenge decoded hdec hmac
    obtain ⟨hat, hcarried⟩ := h.issued i hi
    rw [hpayload] at hcarried
    exact hcarried.trans hat
  · intro e' he' hsame
    refine ⟨?_, rfl⟩
    by_contra hpanel
    exact hideal.1 e' he' (Bool.not_eq_true _ ▸ hpanel) hsame

theorem Inv.step {s s' : EnvelopePanel K} {a : EnvelopeAct K}
    (hstep : Guarded (InStep P offset) (Guarded (Ideal P) (envelopePanel P offset)) s a s') (h : s.Inv P offset) :
    s'.Inv P offset := by
  obtain ⟨hin, hideal, hstep⟩ := hstep
  simp only [envelopePanel, Steps.ofFn] at hstep
  cases a with
  | tick elapsedMs =>
    simp only [EnvelopePanel.step] at hstep
    split at hstep
    · rename_i hpos
      obtain rfl := Option.some.inj hstep
      exact h.tick hpos
    · cases hstep
  | issue random =>
    simp only [EnvelopePanel.step] at hstep
    split at hstep
    · cases hstep
    · obtain ⟨c, hc, rfl⟩ := Option.map_eq_some_iff.mp hstep
      exact h.issue hc
  | send token contents text challenge =>
    simp only [EnvelopePanel.step] at hstep
    split at hstep
    · cases hstep
    · rename_i hspelled
      obtain rfl := Option.some.inj hstep
      obtain ⟨hsealed, htext⟩ := not_or.mp hspelled
      exact h.send hideal hsealed (not_not.mp htext)
  | respond token contents =>
    simp only [EnvelopePanel.step] at hstep
    split at hstep
    · cases hstep
    · obtain rfl := Option.some.inj hstep
      refine h.seal ⟨le_refl _, fun _ _ hproof => (by cases hproof), fun _ _ hproof => (by cases hproof)⟩ ?_
      intro e' he' hsame
      exact absurd hsame (hideal e' he')
  | arrive request =>
    obtain ⟨envelope, henvelope, rfl⟩ := Option.map_eq_some_iff.mp hstep
    exact h.arrive henvelope
  | proceed i known tokens =>
    obtain ⟨p, hp, rfl⟩ := Option.map_eq_some_iff.mp hstep
    exact h.settle hideal hin hp
  | fail i =>
    simp only [EnvelopePanel.step] at hstep
    split at hstep
    · obtain rfl := Option.some.inj hstep
      exact h.fail i
    · cases hstep

theorem Inv.once_settle (h : s.Inv P offset) (hideal : Ideal P s (.proceed i known tokens))
    (hin : InStep P offset s (.proceed i known tokens)) (hp : s.pending[i]? = some p) (honce : s.AcceptedOnce) :
    (s.settle i p (p.proceed P s.caches known tokens s.nowMs)).AcceptedOnce := by
  cases hr : p.proceed P s.caches known tokens s.nowMs with
  | mk outcome c' =>
    cases outcome with
    | waits stage => exact honce
    | rejected => exact honce
    | accepted token =>
      refine List.pairwise_append.mpr ⟨honce, List.pairwise_singleton _ _, fun a ha b hb hsame => ?_⟩
      obtain rfl := List.mem_singleton.mp hb
      exact h.once hideal hin hp (proceed_accepted hr) ha hsame

theorem Inv.once_step {s s' : EnvelopePanel K} {a : EnvelopeAct K} (h : s.Inv P offset)
    (hstep : Guarded (InStep P offset) (Guarded (Ideal P) (envelopePanel P offset)) s a s') (honce : s.AcceptedOnce) :
    s'.AcceptedOnce := by
  obtain ⟨hin, hideal, hstep⟩ := hstep
  simp only [envelopePanel, Steps.ofFn] at hstep
  cases a with
  | tick elapsedMs =>
    simp only [EnvelopePanel.step] at hstep
    split at hstep
    · obtain rfl := Option.some.inj hstep
      exact honce
    · cases hstep
  | issue random =>
    simp only [EnvelopePanel.step] at hstep
    split at hstep
    · cases hstep
    · obtain ⟨c, _, rfl⟩ := Option.map_eq_some_iff.mp hstep
      exact honce
  | send token contents text challenge =>
    simp only [EnvelopePanel.step] at hstep
    split at hstep
    · cases hstep
    · obtain rfl := Option.some.inj hstep
      exact honce.mono (extends_seal _ _) rfl
  | respond token contents =>
    simp only [EnvelopePanel.step] at hstep
    split at hstep
    · cases hstep
    · obtain rfl := Option.some.inj hstep
      exact honce.mono (extends_seal _ _) rfl
  | arrive request =>
    obtain ⟨envelope, _, rfl⟩ := Option.map_eq_some_iff.mp hstep
    exact honce
  | proceed i known tokens =>
    obtain ⟨p, hp, rfl⟩ := Option.map_eq_some_iff.mp hstep
    exact h.once_settle hideal hin hp honce
  | fail i =>
    simp only [EnvelopePanel.step] at hstep
    split at hstep
    · obtain rfl := Option.some.inj hstep
      exact honce
    · cases hstep

end EnvelopePanel

/-- No two accepted requests carry envelopes with the same contents unless the agents sealed
two, in every run in which the macs are spelled as they were sealed, no request on a proof
of version 2 is dated ahead of the window, and none waits ten seconds for its envelope. -/
theorem accepted_once {s₀ s : EnvelopePanel K} {as : List (EnvelopeAct K)} (hstart : s₀.Start)
    (hrun : Run (Guarded (InStep P offset) (Guarded (Ideal P) (envelopePanel P offset))) s₀ as s) :
    s.AcceptedOnce := by
  have hempty : s₀.AcceptedOnce := by
    rw [EnvelopePanel.AcceptedOnce, hstart.accepted]
    exact List.Pairwise.nil
  have hboth := hrun.preserves (P := fun t => t.Inv P offset ∧ t.AcceptedOnce)
    (fun t a t' hstep h => ⟨h.1.step hstep, h.1.once_step hstep h.2⟩) ⟨start_envelopes hstart, hempty⟩
  exact hboth.2

end

/-! ### A recorded request in upper case -/

def envelopeText (iv ct mac : String) : String :=
  "\x7b\"v\":1,\"iv\":\"" ++ iv ++ "\",\"ct\":\"" ++ ct ++ "\",\"mac\":\"" ++ mac ++ "\",\"ts\":5\x7d"

def recordedIv : Bytes := List.replicate 16 1
def recordedCt : Bytes := [0xab]
def recordedMac : String := toHex (List.replicate 32 0xcd)
def respelledMac : String := String.ofList (List.replicate 32 ['C', 'D']).flatten
def recordedText : String := envelopeText (toHex recordedIv) (toHex recordedCt) recordedMac
def respelledText : String := envelopeText (toHex recordedIv) (toHex recordedCt) respelledMac

/-- Primitives under which the recorded envelope is sealed, and that parse the two texts. -/
def recordedPrimitives : Primitives where
  fingerprint := id
  envelopeMac := fun token input =>
    if token = "token" ∧ macInput recordedIv recordedCt 5 = some input then List.replicate 32 0xcd else []
  authMac := fun _ _ => []
  sha256Hex := id
  challengeMac := id
  parseBody := fun text =>
    if text = recordedText then some ⟨some 1, some (toHex recordedIv), some (toHex recordedCt), some recordedMac, some 5⟩
    else if text = respelledText then
      some ⟨some 1, some (toHex recordedIv), some (toHex recordedCt), some respelledMac, some 5⟩
    else none
  payloadPath := fun _ _ _ => some "/api/agent/heartbeat"

def unsignedRequest (text : String) : Request := ⟨false, "POST", "/api/sync", text, none⟩

/-- An agent sends an envelope, and a request without its proof delivers it. -/
def recordedRun : List (EnvelopeAct Rat) :=
  [.send "token" ⟨recordedIv, recordedCt, 5⟩ recordedText none, .arrive (unsignedRequest recordedText),
    .proceed 0 false [], .proceed 0 false ["token"]]

def respelledRun : List (EnvelopeAct Rat) :=
  recordedRun ++ [.arrive (unsignedRequest respelledText), .proceed 0 false [], .proceed 0 false ["token"]]

def quietPanel : EnvelopePanel Rat :=
  ⟨5, ⟨OnceCache.empty, OnceCache.empty, OnceCache.empty⟩, [], [], [], []⟩

theorem quietPanel_start : quietPanel.Start := ⟨by decide, rfl, rfl, rfl, rfl, rfl⟩

/-- A test of `Ideal` for runs without proofs. -/
def sealedBefore (s : EnvelopePanel Rat) : EnvelopeAct Rat → Bool
  | .proceed i _ tokens => s.pending[i]?.all fun p => p.request.authorization.isNone &&
      (p.opensWith tokens).all fun token =>
        s.envelopes.any fun e => decide (e.token = token) && decide (e.contents = p.envelope.contents)
  | .send _ contents _ challenge => challenge.isNone && s.envelopes.all fun e => decide (e.contents ≠ contents)
  | .respond _ contents => s.envelopes.all fun e => decide (e.contents ≠ contents)
  | _ => true

theorem ideal_of_sealedBefore {P : Primitives} (s : EnvelopePanel Rat) (a : EnvelopeAct Rat)
    (h : sealedBefore s a = true) : Ideal P s a := by
  cases a with
  | proceed i known tokens =>
    intro p hp
    simp only [sealedBefore, hp, Option.all_some, Bool.and_eq_true, List.all_eq_true] at h
    constructor
    · intro token htoken _
      obtain ⟨e, he, hboth⟩ := List.any_eq_true.mp (h.2 token htoken)
      exact ⟨e, he, by simpa using hboth⟩
    · intro credential _ _ _ _ hcred
      have hnone := Option.isNone_iff_eq_none.mp h.1
      simp [Request.credential, hnone] at hcred
  | send token contents text challenge =>
    simp only [sealedBefore, Bool.and_eq_true, List.all_eq_true] at h
    constructor
    · exact fun e he _ => of_decide_eq_true (h.2 e he)
    · intro c hc
      rw [Option.isNone_iff_eq_none.mp h.1] at hc
      cases hc
  | respond token contents =>
    exact fun e he => of_decide_eq_true (List.all_eq_true.mp h e he)
  | _ => trivial

/-- A test of `InStep` for runs without proofs. -/
def inStepHere (s : EnvelopePanel Rat) : EnvelopeAct Rat → Bool
  | .proceed i _ tokens => s.pending[i]?.all fun p => (p.opensWith tokens).isEmpty ||
      (decide (toHex (fromHex p.envelope.mac.toList) = p.envelope.mac) && decide (s.nowMs < p.startedMs + 9999) &&
        match p.stage with
        | .authorized _ _ => false
        | _ => true)
  | _ => true

theorem inStep_of_inStepHere {P : Primitives} (s : EnvelopePanel Rat) (a : EnvelopeAct Rat)
    (h : inStepHere s a = true) : InStep P 0 s a := by
  cases a with
  | proceed i known tokens =>
    intro p hp token htoken
    simp only [inStepHere, hp, Option.all_some, Bool.or_eq_true] at h
    rcases h with hempty | h
    · rw [List.isEmpty_iff.mp hempty] at htoken
      cases htoken
    · rw [Bool.and_eq_true, Bool.and_eq_true] at h
      have hmac : toHex (fromHex p.envelope.mac.toList) = p.envelope.mac := of_decide_eq_true h.1.1
      refine ⟨fun _ => hmac, fun hstage => ?_, of_decide_eq_true h.1.2⟩
      simp [hstage] at h
  | _ => trivial

theorem accepted_once_recorded : ∃ s : EnvelopePanel Rat, s.accepted.length = 1 ∧ s.AcceptedOnce := by
  have hexec : ((exec (fun s a => if inStepHere s a && sealedBefore s a then
      EnvelopePanel.step recordedPrimitives 0 s a else none) quietPanel recordedRun).any (fun s =>
        s.accepted.length = 1)) = true := by
    decide +kernel
  obtain ⟨s, hs, hlength⟩ := (Option.any_eq_true _ _).mp hexec
  have hrun := exec_guarded (G := fun s a => InStep recordedPrimitives 0 s a ∧ Ideal recordedPrimitives s a)
    (fun s a h => (by
      rw [Bool.and_eq_true] at h
      exact ⟨inStep_of_inStepHere s a h.1, ideal_of_sealedBefore s a h.2⟩)) hs
  have hboth : Run (Guarded (InStep recordedPrimitives 0) (Guarded (Ideal recordedPrimitives)
      (envelopePanel recordedPrimitives 0))) quietPanel recordedRun s :=
    hrun.mono fun _ _ _ h => ⟨h.1.1, h.1.2, h.2⟩
  exact ⟨s, of_decide_eq_true hlength, accepted_once quietPanel_start hboth⟩

/-- The recorded request is accepted again when its mac is written in upper case. -/
theorem accepted_respelled :
    ¬ ∀ (P : Primitives) (offset : Rat) (s₀ s : EnvelopePanel Rat) (as : List (EnvelopeAct Rat)), s₀.Start →
      Run (Guarded (Ideal P) (envelopePanel P offset)) s₀ as s → s.AcceptedOnce := by
  intro hclaim
  have hexec : ((exec (fun s a => if sealedBefore s a then EnvelopePanel.step recordedPrimitives 0 s a else none)
      quietPanel respelledRun).any (fun s => s.accepted[0]?.any fun a => s.accepted[1]?.any fun b =>
        decide (a.envelope.contents = b.envelope.contents) &&
          decide (s.sealedByAgents a.envelope.contents < 2))) = true := by
    decide +kernel
  obtain ⟨s, hs, htwice⟩ := (Option.any_eq_true _ _).mp hexec
  have hrun := exec_guarded (G := Ideal recordedPrimitives) ideal_of_sealedBefore hs
  have honce := hclaim recordedPrimitives 0 quietPanel s _ quietPanel_start hrun
  obtain ⟨a, ha, htwice⟩ := (Option.any_eq_true _ _).mp htwice
  obtain ⟨b, hb, htwice⟩ := (Option.any_eq_true _ _).mp htwice
  rw [Bool.and_eq_true] at htwice
  obtain ⟨h₀, rfl⟩ := List.getElem?_eq_some_iff.mp ha
  obtain ⟨h₁, rfl⟩ := List.getElem?_eq_some_iff.mp hb
  have htwo := List.pairwise_iff_getElem.mp honce 0 1 h₀ h₁ (by decide) (of_decide_eq_true htwice.1)
  exact absurd htwo (not_le.mpr (of_decide_eq_true htwice.2))

end ForwardX.Agent
