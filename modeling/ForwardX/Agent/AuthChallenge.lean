import Mathlib.Algebra.Order.Floor.Ring
import Mathlib.Algebra.Order.Field.Rat
import Mathlib.Data.Rat.Floor
import Mathlib.Tactic.Linarith
import ForwardX.Lib.Transition
import ForwardX.Lib.Wire
import ForwardX.Lib.OnceCache

/- The challenges of agent requests (`agentAuthChallenge.ts`): the panel issues a string
   that carries its clock reading and a MAC, accepts it for ten minutes, and keeps the
   strings it has consumed so that each authorises one request.

   An accepted string was issued, is accepted within its ten minutes, and no other string
   decodes to it. Its consumed entry lives for ten minutes from the consumption and is dead
   at the last instant of the ten minutes, so a challenge that was consumed at the very
   reading it carries is accepted again at the last instant it is valid
   (`challenge_consumed_twice`), and no challenge is accepted twice otherwise
   (`challenge_consumed_once`). -/
namespace ForwardX.Agent

open Transition Wire

universe u

/-! ### Base64url -/

def base64urlAlphabet : List Char :=
  "ABCDEFGHIJKLMNOPQRSTUVWXYZabcdefghijklmnopqrstuvwxyz0123456789-_".toList

def base64urlChar (n : Nat) : Char := base64urlAlphabet.getD (n % 64) 'A'

def base64urlIndex (c : Char) : Nat := base64urlAlphabet.idxOf c

/-- `toString("base64url")`: no padding. -/
def toBase64url : Bytes → List Char
  | b₀ :: b₁ :: b₂ :: bs =>
    let n := b₀.toNat * 65536 + b₁.toNat * 256 + b₂.toNat
    base64urlChar (n / 262144) :: base64urlChar (n / 4096) :: base64urlChar (n / 64) :: base64urlChar n ::
      toBase64url bs
  | [b₀, b₁] =>
    let n := b₀.toNat * 65536 + b₁.toNat * 256
    [base64urlChar (n / 262144), base64urlChar (n / 4096), base64urlChar (n / 64)]
  | [b₀] => [base64urlChar (b₀.toNat / 4), base64urlChar (b₀.toNat * 16)]
  | [] => []

/-- `Buffer.from(value, "base64url")` of characters of the alphabet: the bits that do not
fill a byte are dropped. -/
def fromBase64url : List Char → Bytes
  | c₀ :: c₁ :: c₂ :: c₃ :: cs =>
    let n := base64urlIndex c₀ * 262144 + base64urlIndex c₁ * 4096 + base64urlIndex c₂ * 64 + base64urlIndex c₃
    UInt8.ofNat (n / 65536) :: UInt8.ofNat (n / 256) :: UInt8.ofNat n :: fromBase64url cs
  | [c₀, c₁, c₂] =>
    let n := base64urlIndex c₀ * 262144 + base64urlIndex c₁ * 4096 + base64urlIndex c₂ * 64
    [UInt8.ofNat (n / 65536), UInt8.ofNat (n / 256)]
  | [c₀, c₁] => [UInt8.ofNat ((base64urlIndex c₀ * 64 + base64urlIndex c₁) / 16)]
  | _ => []

/-! ### The functions of the module -/

def challengeRandomBytes : Nat := 24
def challengeMacBytes : Nat := 32
def challengePayloadBytes : Nat := 8 + challengeRandomBytes
def challengeBytes : Nat := challengePayloadBytes + challengeMacBytes
def challengeValidityMs : Nat := 10 * 60 * 1000
def challengeFutureToleranceMs : Nat := 1000
def consumedCacheCleanupIntervalMs : Nat := 10000

def decodeChallenge (value : String) : Option Bytes :=
  let chars := value.toList
  if !(80 ≤ chars.length && chars.length ≤ 100 && chars.all (base64urlAlphabet.contains ·)) then none
  else
    let decoded := fromBase64url chars
    if decoded.length ≠ challengeBytes ∨ toBase64url decoded ≠ chars then none
    else some decoded

def challengePayload (decoded : Bytes) : Bytes := decoded.take challengePayloadBytes

def challengeReceivedMac (decoded : Bytes) : Bytes := decoded.drop challengePayloadBytes

def issuedAtMs (decoded : Bytes) : Nat := getBE ((challengePayload decoded).take 8)

section
variable {K : Type u} [Field K] [LinearOrder K]

/-- `issueAgentAuthChallenge` with the random bytes it draws: the payload and the string.
`writeBigUInt64BE` takes no number of more than 64 bits. -/
def issueAgentAuthChallenge [FloorRing K] (challengeMac : Bytes → Bytes) (random : Bytes) (nowMs : K) :
    Option (Bytes × String) :=
  let issuedAt := (max 0 ⌊nowMs⌋).toNat
  if issuedAt < 256^8 then
    let payload := putBE 8 issuedAt ++ random
    some (payload, String.ofList (toBase64url (payload ++ challengeMac payload)))
  else none

def validateAgentAuthChallenge (challengeMac : Bytes → Bytes) (challenge : String) (nowMs : K) : Bool :=
  match decodeChallenge challenge with
  | none => false
  | some decoded =>
    if challengeReceivedMac decoded ≠ challengeMac (challengePayload decoded) then false
    else
      let ageMs := nowMs - issuedAtMs decoded
      decide (-challengeFutureToleranceMs ≤ ageMs) && decide (ageMs ≤ challengeValidityMs)

/-- `consumeAgentAuthChallenge`: what it answers and the consumed challenges after it. -/
def consumeAgentAuthChallenge (challengeMac : Bytes → Bytes) (consumedChallenges : OnceCache.Cache String K)
    (challenge : String) (nowMs : K) : Bool × OnceCache.Cache String K :=
  if !validateAgentAuthChallenge challengeMac challenge nowMs then (false, consumedChallenges)
  else
    let swept := OnceCache.sweep (consumedCacheCleanupIntervalMs : K) consumedChallenges nowMs
    if nowMs < OnceCache.expiry swept challenge then (false, swept)
    else (true, OnceCache.remember (challengeValidityMs : K) swept challenge nowMs)

end

/-! ### Runs of the panel -/

/-- A challenge the panel issued: its payload, its string and the reading. -/
structure Issued (K : Type u) where
  payload : Bytes
  challenge : String
  atMs : K

/-- The panel: its monotonic clock, the consumed challenges, and what happened so far: what
was issued, every call of `consumeAgentAuthChallenge` and the calls that answered true. -/
structure ChallengePanel (K : Type u) where
  nowMs : K
  consumedChallenges : OnceCache.Cache String K
  issued : List (Issued K)
  presented : List (String × K)
  accepted : List (String × K)

inductive ChallengeAct (K : Type u)
  | tick (elapsedMs : K)
  | issue (random : Bytes)
  | validate (challenge : String)
  | consume (challenge : String)

section
variable {K : Type u} [Field K] [LinearOrder K]

/-- A panel that starts: `performance.now()` counts from zero. -/
structure ChallengePanel.Start (s : ChallengePanel K) : Prop where
  nowMs : 0 ≤ s.nowMs
  consumedChallenges : s.consumedChallenges = OnceCache.empty
  issued : s.issued = []
  presented : s.presented = []
  accepted : s.accepted = []

/-- The panel after a call of `consumeAgentAuthChallenge`. -/
def ChallengePanel.consume (challengeMac : Bytes → Bytes) (s : ChallengePanel K) (challenge : String) : ChallengePanel K :=
  let r := consumeAgentAuthChallenge challengeMac s.consumedChallenges challenge s.nowMs
  { s with
    consumedChallenges := r.2
    presented := s.presented ++ [(challenge, s.nowMs)]
    accepted := if r.1 then s.accepted ++ [(challenge, s.nowMs)] else s.accepted }

def ChallengePanel.step [FloorRing K] (challengeMac : Bytes → Bytes) (s : ChallengePanel K) : ChallengeAct K → Option (ChallengePanel K)
  | .tick elapsedMs => if 0 ≤ elapsedMs then some { s with nowMs := s.nowMs + elapsedMs } else none
  | .issue random =>
    if random.length ≠ challengeRandomBytes then none
    else
      (issueAgentAuthChallenge challengeMac random s.nowMs).map fun c =>
        { s with issued := s.issued ++ [⟨c.1, c.2, s.nowMs⟩] }
  | .validate _ => some s
  | .consume challenge => some (s.consume challengeMac challenge)

def challengePanel [FloorRing K] (challengeMac : Bytes → Bytes) : Steps (ChallengePanel K) (ChallengeAct K) :=
  Steps.ofFn (ChallengePanel.step challengeMac)

/-- A string with the right MAC is presented only for a payload whose MAC the panel gave away. -/
def Unforged (challengeMac : Bytes → Bytes) (s : ChallengePanel K) : ChallengeAct K → Prop
  | .consume challenge => ∀ decoded, decodeChallenge challenge = some decoded →
      challengeReceivedMac decoded = challengeMac (challengePayload decoded) →
      ∃ i ∈ s.issued, i.payload = challengePayload decoded
  | _ => True

/-- No string that is valid is presented at the last instant of its validity when it was
presented before at the very reading it carries. -/
def NotAtExpiry (challengeMac : Bytes → Bytes) (s : ChallengePanel K) : ChallengeAct K → Prop
  | .consume challenge => ∀ decoded, decodeChallenge challenge = some decoded →
      (challenge, (issuedAtMs decoded : K)) ∈ s.presented → s.nowMs = issuedAtMs decoded + challengeValidityMs →
      validateAgentAuthChallenge challengeMac challenge s.nowMs = false
  | _ => True

def ChallengePanel.Once (s : ChallengePanel K) : Prop := (s.accepted.map Prod.fst).Nodup

/-- An accepted string was issued, is not older than its validity, and is the one string
that decodes to its bytes. -/
def ChallengePanel.Fresh (s : ChallengePanel K) : Prop :=
  ∀ challenge n, (challenge, n) ∈ s.accepted →
    (∃ i ∈ s.issued, i.challenge = challenge ∧ i.atMs ≤ n ∧ n ≤ i.atMs + challengeValidityMs) ∧
    ∀ other, decodeChallenge other = decodeChallenge challenge → other = challenge

end

/-! ### What the functions do -/

theorem decodeChallenge_some {value : String} {decoded : Bytes} (h : decodeChallenge value = some decoded) :
    String.ofList (toBase64url decoded) = value := by
  unfold decodeChallenge at h
  dsimp only at h
  split at h
  · cases h
  · split at h
    · cases h
    · rename_i hsame
      obtain rfl := Option.some.inj h
      have hchars := not_not.mp (not_or.mp hsame).2
      rw [hchars, String.ofList_toList]

theorem decodeChallenge_inj {value other : String} {decoded : Bytes} (h : decodeChallenge value = some decoded)
    (hother : decodeChallenge other = decodeChallenge value) : other = value :=
  (decodeChallenge_some (hother.trans h)).symm.trans (decodeChallenge_some h)

section
variable {K : Type u} [Field K] [LinearOrder K] {challengeMac : Bytes → Bytes}

theorem validate_iff {challenge : String} {nowMs : K} :
    validateAgentAuthChallenge challengeMac challenge nowMs = true ↔
      ∃ decoded, decodeChallenge challenge = some decoded ∧
        challengeReceivedMac decoded = challengeMac (challengePayload decoded) ∧
        -(challengeFutureToleranceMs : K) ≤ nowMs - issuedAtMs decoded ∧
        nowMs - issuedAtMs decoded ≤ (challengeValidityMs : K) := by
  unfold validateAgentAuthChallenge
  cases hdec : decodeChallenge challenge with
  | none => simp
  | some decoded =>
    by_cases hmac : challengeReceivedMac decoded = challengeMac (challengePayload decoded)
    · simp [hmac]
    · simp [hmac]

abbrev swept (cache : OnceCache.Cache String K) (nowMs : K) : OnceCache.Cache String K :=
  OnceCache.sweep (consumedCacheCleanupIntervalMs : K) cache nowMs

theorem consume_cases (challengeMac : Bytes → Bytes) (cache : OnceCache.Cache String K) (challenge : String) (nowMs : K) :
    (validateAgentAuthChallenge challengeMac challenge nowMs = true ∧
      OnceCache.expiry (swept cache nowMs) challenge ≤ nowMs ∧
      consumeAgentAuthChallenge challengeMac cache challenge nowMs =
        (true, OnceCache.remember (challengeValidityMs : K) (swept cache nowMs) challenge nowMs)) ∨
    ((validateAgentAuthChallenge challengeMac challenge nowMs = true →
        nowMs < OnceCache.expiry (swept cache nowMs) challenge) ∧
      ∃ kept, (kept = cache ∨ kept = swept cache nowMs) ∧
        consumeAgentAuthChallenge challengeMac cache challenge nowMs = (false, kept)) := by
  unfold consumeAgentAuthChallenge
  by_cases hvalid : validateAgentAuthChallenge challengeMac challenge nowMs = true
  · by_cases hlive : nowMs < OnceCache.expiry (swept cache nowMs) challenge
    · exact Or.inr ⟨fun _ => hlive, swept cache nowMs, Or.inr rfl, by simp [hvalid, hlive]⟩
    · exact Or.inl ⟨hvalid, not_lt.mp hlive, by simp [hvalid, hlive]⟩
  · exact Or.inr ⟨fun h => absurd h hvalid, cache, Or.inl rfl, by simp [hvalid]⟩

end

/-- A string with the right MAC is the one that was issued for its payload. -/
theorem challenge_of_payload {challengeMac : Bytes → Bytes} {challenge : String} {decoded : Bytes}
    (hdec : decodeChallenge challenge = some decoded)
    (hmac : challengeReceivedMac decoded = challengeMac (challengePayload decoded)) :
    String.ofList (toBase64url (challengePayload decoded ++ challengeMac (challengePayload decoded))) =
      challenge := by
  have hparts : challengePayload decoded ++ challengeReceivedMac decoded = decoded :=
    List.take_append_drop challengePayloadBytes decoded
  rw [← hmac, hparts]
  exact decodeChallenge_some hdec

section
variable {K : Type u} [Field K] [LinearOrder K] [FloorRing K] {challengeMac : Bytes → Bytes}

/-- What is issued: the reading is floored into the payload, and the string spells the
payload with its MAC. -/
theorem issue_spec {random payload : Bytes} {challenge : String} {nowMs : K} (hnow : 0 ≤ nowMs)
    (h : issueAgentAuthChallenge challengeMac random nowMs = some (payload, challenge)) :
    challenge = String.ofList (toBase64url (payload ++ challengeMac payload)) ∧
      (getBE (payload.take 8) : K) ≤ nowMs := by
  unfold issueAgentAuthChallenge at h
  dsimp only at h
  split at h
  · rename_i hbound
    obtain ⟨rfl, rfl⟩ := Prod.mk.inj (Option.some.inj h)
    have htake : (putBE 8 (max 0 ⌊nowMs⌋).toNat ++ random).take 8 = putBE 8 (max 0 ⌊nowMs⌋).toNat := by
      rw [List.take_append_of_le_length (by simp), List.take_of_length_le (by simp)]
    have hfloor : (((max 0 ⌊nowMs⌋).toNat : Int) : K) = (⌊nowMs⌋ : K) := by
      rw [Int.toNat_of_nonneg (le_max_left _ _), max_eq_right (Int.floor_nonneg.mpr hnow)]
    refine ⟨rfl, ?_⟩
    rw [htake, getBE_putBE, Nat.mod_eq_of_lt hbound]
    calc (((max 0 ⌊nowMs⌋).toNat : Nat) : K) = (((max 0 ⌊nowMs⌋).toNat : Int) : K) := (Int.cast_natCast _).symm
      _ = (⌊nowMs⌋ : K) := hfloor
      _ ≤ nowMs := Int.floor_le nowMs
  · cases h

end

/-! ### The invariant -/

section
variable {K : Type u} [Field K] [LinearOrder K]

structure ChallengePanel.Inv (challengeMac : Bytes → Bytes) (s : ChallengePanel K) : Prop where
  nowMs : 0 ≤ s.nowMs
  keyed : OnceCache.Keyed s.consumedChallenges
  remembers : OnceCache.Remembers (challengeValidityMs : K) s.accepted s.nowMs s.consumedChallenges
  fromLog : OnceCache.FromLog (challengeValidityMs : K) s.accepted s.consumedChallenges
  issued : ∀ i ∈ s.issued, i.atMs ≤ s.nowMs ∧ (getBE (i.payload.take 8) : K) ≤ i.atMs ∧
    i.challenge = String.ofList (toBase64url (i.payload ++ challengeMac i.payload))
  accepted : ∀ challenge n, (challenge, n) ∈ s.accepted → n ≤ s.nowMs ∧ (challenge, n) ∈ s.presented ∧
    ∃ decoded, decodeChallenge challenge = some decoded ∧ n ≤ issuedAtMs decoded + challengeValidityMs ∧
      ∃ i ∈ s.issued, i.payload = challengePayload decoded ∧ i.challenge = challenge ∧ i.atMs ≤ n
  presented : ∀ challenge n, (challenge, n) ∈ s.presented →
    validateAgentAuthChallenge challengeMac challenge n = true → ∃ n', (challenge, n') ∈ s.accepted ∧ n' ≤ n

namespace ChallengePanel
variable {challengeMac : Bytes → Bytes} {challenge : String} {s : ChallengePanel K}

theorem Inv.issuedAt_le (h : s.Inv challengeMac) {n : K} (hmem : (challenge, n) ∈ s.accepted) {decoded : Bytes}
    (hdec : decodeChallenge challenge = some decoded) : (issuedAtMs decoded : K) ≤ n := by
  obtain ⟨_, _, decoded', hdec', _, i, hi, hpayload, _, hle⟩ := h.accepted challenge n hmem
  obtain rfl := Option.some.inj (hdec.symm.trans hdec')
  have hcarried := (h.issued i hi).2.1
  rw [hpayload] at hcarried
  exact hcarried.trans hle

theorem start_inv (h : s.Start) : s.Inv challengeMac := by
  obtain ⟨hnow, hcache, hissued, hpresented, haccepted⟩ := h
  constructor
  · exact hnow
  · rw [hcache]
    exact List.nodup_nil
  · rw [hcache, haccepted]
    exact OnceCache.Remembers.empty _ _
  · rw [hcache, haccepted]
    exact OnceCache.FromLog.empty _
  · simp [hissued]
  · simp [haccepted]
  · simp [hpresented]

theorem Inv.issue [FloorRing K] (h : s.Inv challengeMac) {random : Bytes} {c : Bytes × String}
    (hc : issueAgentAuthChallenge challengeMac random s.nowMs = some c) :
    ({ s with issued := s.issued ++ [⟨c.1, c.2, s.nowMs⟩] } : ChallengePanel K).Inv challengeMac := by
  constructor
  · exact h.nowMs
  · exact h.keyed
  · exact h.remembers
  · exact h.fromLog
  · intro i hi
    rcases List.mem_append.mp hi with hold | hnew
    · exact h.issued i hold
    · obtain rfl := List.mem_singleton.mp hnew
      have hspec := issue_spec h.nowMs hc
      exact ⟨le_refl _, hspec.2, hspec.1⟩
  · intro challenge n hmem
    obtain ⟨hn, hpres, decoded, hdec, hlate, i, hi, hrest⟩ := h.accepted challenge n hmem
    exact ⟨hn, hpres, decoded, hdec, hlate, i, List.mem_append_left _ hi, hrest⟩
  · exact h.presented

/-- A call that answers false leaves the log as it is, and a cache that knows as much. -/
theorem Inv.refused (h : s.Inv challengeMac) {kept : OnceCache.Cache String K}
    (hkept : kept = s.consumedChallenges ∨ kept = swept s.consumedChallenges s.nowMs)
    (hlogged : validateAgentAuthChallenge challengeMac challenge s.nowMs = true →
      ∃ n', (challenge, n') ∈ s.accepted ∧ n' ≤ s.nowMs) :
    ({ s with consumedChallenges := kept, presented := s.presented ++ [(challenge, s.nowMs)] } :
      ChallengePanel K).Inv challengeMac := by
  constructor
  · exact h.nowMs
  · rcases hkept with rfl | rfl
    · exact h.keyed
    · exact OnceCache.keyed_sweep h.keyed _ _
  · rcases hkept with rfl | rfl
    · exact h.remembers
    · exact h.remembers.sweep h.keyed _
  · rcases hkept with rfl | rfl
    · exact h.fromLog
    · exact h.fromLog.sweep h.keyed _ _
  · exact h.issued
  · intro challenge' n hmem
    obtain ⟨hn, hpres, hrest⟩ := h.accepted challenge' n hmem
    exact ⟨hn, List.mem_append_left _ hpres, hrest⟩
  · intro challenge' n hmem hvalid
    rcases List.mem_append.mp hmem with hold | hnew
    · exact h.presented challenge' n hold hvalid
    · obtain ⟨rfl, rfl⟩ := Prod.mk.inj (List.mem_singleton.mp hnew)
      exact hlogged hvalid

theorem Inv.recent (h : s.Inv challengeMac)
    (hlive : s.nowMs < OnceCache.expiry (swept s.consumedChallenges s.nowMs) challenge) :
    ∃ n, (challenge, n) ∈ s.accepted ∧ s.nowMs < n + challengeValidityMs :=
  (h.fromLog.sweep h.keyed _ _).recent h.nowMs hlive

end ChallengePanel

end

section
variable {K : Type u} [Field K] [LinearOrder K] [IsStrictOrderedRing K] {challengeMac : Bytes → Bytes}

namespace ChallengePanel

theorem Inv.tick {s : ChallengePanel K} (h : s.Inv challengeMac) {elapsedMs : K} (hpos : 0 ≤ elapsedMs) :
    ({ s with nowMs := s.nowMs + elapsedMs } : ChallengePanel K).Inv challengeMac := by
  have hle : s.nowMs ≤ s.nowMs + elapsedMs := le_add_of_nonneg_right hpos
  constructor
  · exact h.nowMs.trans hle
  · exact h.keyed
  · exact h.remembers.later hle
  · exact h.fromLog
  · intro i hi
    exact ⟨(h.issued i hi).1.trans hle, (h.issued i hi).2⟩
  · intro challenge n hmem
    obtain ⟨hn, hrest⟩ := h.accepted challenge n hmem
    exact ⟨hn.trans hle, hrest⟩
  · exact h.presented

variable {challenge : String} {s : ChallengePanel K}

theorem Inv.of_valid (h : s.Inv challengeMac) (hunforged : Unforged challengeMac s (.consume challenge))
    (hvalid : validateAgentAuthChallenge challengeMac challenge s.nowMs = true) :
    ∃ decoded, decodeChallenge challenge = some decoded ∧ s.nowMs ≤ issuedAtMs decoded + challengeValidityMs ∧
      ∃ i ∈ s.issued, i.payload = challengePayload decoded ∧ i.challenge = challenge ∧ i.atMs ≤ s.nowMs := by
  obtain ⟨decoded, hdec, hmac, _, hage⟩ := validate_iff.mp hvalid
  obtain ⟨i, hi, hpayload⟩ := hunforged decoded hdec hmac
  obtain ⟨hat, _, hstring⟩ := h.issued i hi
  have hsame : i.challenge = challenge := by
    rw [hstring, hpayload]
    exact challenge_of_payload hdec hmac
  exact ⟨decoded, hdec, by linarith, i, hi, hpayload, hsame, hat⟩

/-- A call that answers true logs the string and remembers it for its validity. -/
theorem Inv.accept (h : s.Inv challengeMac) (hunforged : Unforged challengeMac s (.consume challenge))
    (hvalid : validateAgentAuthChallenge challengeMac challenge s.nowMs = true) : ({ s with
        consumedChallenges :=
          OnceCache.remember (challengeValidityMs : K) (swept s.consumedChallenges s.nowMs) challenge s.nowMs
        presented := s.presented ++ [(challenge, s.nowMs)]
        accepted := s.accepted ++ [(challenge, s.nowMs)] } : ChallengePanel K).Inv challengeMac := by
  have hkeyed := OnceCache.keyed_sweep h.keyed (consumedCacheCleanupIntervalMs : K) s.nowMs
  constructor
  · exact h.nowMs
  · exact OnceCache.keyed_remember hkeyed _ _ _
  · exact (h.remembers.sweep h.keyed _).remember (fun k n hmem => (h.accepted k n hmem).1) challenge
  · exact (h.fromLog.sweep h.keyed _ _).remember challenge s.nowMs
  · exact h.issued
  · intro challenge' n hmem
    rcases List.mem_append.mp hmem with hold | hnew
    · obtain ⟨hn, hpres, hrest⟩ := h.accepted challenge' n hold
      exact ⟨hn, List.mem_append_left _ hpres, hrest⟩
    · obtain ⟨rfl, rfl⟩ := Prod.mk.inj (List.mem_singleton.mp hnew)
      exact ⟨le_refl _, List.mem_append_right _ (List.mem_singleton_self _), h.of_valid hunforged hvalid⟩
  · intro challenge' n hmem hvalid'
    rcases List.mem_append.mp hmem with hold | hnew
    · obtain ⟨n', hn', hle⟩ := h.presented challenge' n hold hvalid'
      exact ⟨n', List.mem_append_left _ hn', hle⟩
    · obtain ⟨rfl, rfl⟩ := Prod.mk.inj (List.mem_singleton.mp hnew)
      exact ⟨_, List.mem_append_right _ (List.mem_singleton_self _), le_refl _⟩

theorem Inv.consume (h : s.Inv challengeMac) (hunforged : Unforged challengeMac s (.consume challenge)) :
    (s.consume challengeMac challenge).Inv challengeMac := by
  unfold ChallengePanel.consume
  rcases consume_cases challengeMac s.consumedChallenges challenge s.nowMs with
    ⟨hvalid, _, heq⟩ | ⟨hlive, kept, hkept, heq⟩
  · rw [heq]
    exact h.accept hunforged hvalid
  · rw [heq]
    refine h.refused hkept fun hvalid => ?_
    obtain ⟨n, hmem, _⟩ := h.recent (hlive hvalid)
    exact ⟨n, hmem, (h.accepted challenge n hmem).1⟩

/-- A call keeps the strings accepted once exactly when it is not the one at the last
instant of a string that was presented at its payload's reading. -/
theorem Inv.once_consume (h : s.Inv challengeMac) (hunforged : Unforged challengeMac s (.consume challenge)) :
    (s.consume challengeMac challenge).Once ↔ s.Once ∧ NotAtExpiry challengeMac s (.consume challenge) := by
  -- a valid string that was presented at its payload's reading was accepted at that reading
  have hread : ∀ decoded, decodeChallenge challenge = some decoded →
      validateAgentAuthChallenge challengeMac challenge s.nowMs = true →
      (challenge, (issuedAtMs decoded : K)) ∈ s.presented → (challenge, (issuedAtMs decoded : K)) ∈ s.accepted := by
    intro decoded hdec hvalid hpres
    obtain ⟨decoded', hdec', hmac, _, _⟩ := validate_iff.mp hvalid
    obtain rfl := Option.some.inj (hdec.symm.trans hdec')
    have hthen : validateAgentAuthChallenge challengeMac challenge (issuedAtMs decoded : K) = true :=
      validate_iff.mpr ⟨decoded, hdec, hmac, by simp, by simp⟩
    obtain ⟨n', hn', hle⟩ := h.presented challenge _ hpres hthen
    have hsame : n' = (issuedAtMs decoded : K) := le_antisymm hle (h.issuedAt_le hn' hdec)
    exact hsame ▸ hn'
  unfold ChallengePanel.consume
  rcases consume_cases challengeMac s.consumedChallenges challenge s.nowMs with
    ⟨hvalid, hfree, heq⟩ | ⟨hlive, kept, _, heq⟩
  · rw [heq]
    have hsplit : (s.accepted ++ [(challenge, s.nowMs)]).map Prod.fst = s.accepted.map Prod.fst ++ [challenge] := by
      simp
    simp only [Once, if_true, hsplit, List.nodup_append, List.nodup_singleton, List.mem_singleton]
    refine ⟨fun ⟨honce, _, hnew⟩ => ⟨honce, ?_⟩, fun ⟨honce, hcond⟩ => ⟨honce, trivial, ?_⟩⟩
    · intro decoded hdec hpres _
      have hmem := List.mem_map_of_mem (f := Prod.fst) (hread decoded hdec hvalid hpres)
      exact absurd rfl (hnew challenge hmem challenge rfl)
    · intro other hother challenge' hchallenge hsame
      obtain ⟨⟨_, n⟩, hmem, rfl⟩ := List.mem_map.mp hother
      obtain rfl : _ = challenge := hsame.trans hchallenge
      obtain ⟨_, hpres, decoded, hdec, hlate, _⟩ := h.accepted _ n hmem
      obtain ⟨decoded', hdec', _, _, hage⟩ := validate_iff.mp hvalid
      obtain rfl := Option.some.inj (hdec.symm.trans hdec')
      have hgone : n + challengeValidityMs ≤ s.nowMs := (h.remembers.sweep h.keyed _).late hfree hmem
      have hearly := h.issuedAt_le hmem hdec
      have hn : n = (issuedAtMs decoded : K) := by linarith
      have hnow : s.nowMs = (issuedAtMs decoded : K) + challengeValidityMs := by linarith
      have hinvalid := hcond decoded hdec (hn ▸ hpres) hnow
      rw [hvalid] at hinvalid
      cases hinvalid
  · rw [heq]
    refine ⟨fun honce => ⟨honce, ?_⟩, fun hboth => hboth.1⟩
    intro decoded hdec hpres hnow
    by_contra hvalid
    rw [Bool.not_eq_false] at hvalid
    obtain ⟨n, hmem, hrecent⟩ := h.recent (hlive hvalid)
    have hsame := List.inj_on_of_nodup_map honce hmem (hread decoded hdec hvalid hpres) rfl
    obtain ⟨_, rfl⟩ := Prod.mk.inj hsame
    exact lt_irrefl _ (hnow ▸ hrecent)

theorem Inv.step [FloorRing K] {s s' : ChallengePanel K} {a : ChallengeAct K}
    (hstep : Guarded (Unforged challengeMac) (challengePanel challengeMac) s a s') (h : s.Inv challengeMac) :
    s'.Inv challengeMac := by
  obtain ⟨hunforged, hstep⟩ := hstep
  cases a with
  | tick elapsedMs =>
    obtain ⟨hpos, rfl⟩ : 0 ≤ elapsedMs ∧ { s with nowMs := s.nowMs + elapsedMs } = s' := by
      simpa [challengePanel, Steps.ofFn, ChallengePanel.step] using hstep
    exact h.tick hpos
  | issue random =>
    simp only [challengePanel, Steps.ofFn, ChallengePanel.step] at hstep
    split at hstep
    · cases hstep
    · obtain ⟨c, hc, rfl⟩ := Option.map_eq_some_iff.mp hstep
      exact h.issue hc
  | validate challenge =>
    obtain rfl : s = s' := Option.some.inj hstep
    exact h
  | consume challenge =>
    obtain rfl : s.consume challengeMac challenge = s' := Option.some.inj hstep
    exact h.consume hunforged

/-- A step keeps the strings accepted once exactly when it is no call at the last instant. -/
theorem Inv.once_step [FloorRing K] {s s' : ChallengePanel K} {a : ChallengeAct K} (h : s.Inv challengeMac)
    (hstep : Guarded (Unforged challengeMac) (challengePanel challengeMac) s a s') :
    s'.Once ↔ s.Once ∧ NotAtExpiry challengeMac s a := by
  obtain ⟨hunforged, hstep⟩ := hstep
  cases a with
  | tick elapsedMs =>
    obtain ⟨_, rfl⟩ : 0 ≤ elapsedMs ∧ { s with nowMs := s.nowMs + elapsedMs } = s' := by
      simpa [challengePanel, Steps.ofFn, ChallengePanel.step] using hstep
    exact ⟨fun honce => ⟨honce, trivial⟩, fun hboth => hboth.1⟩
  | issue random =>
    simp only [challengePanel, Steps.ofFn, ChallengePanel.step] at hstep
    split at hstep
    · cases hstep
    · obtain ⟨c, _, rfl⟩ := Option.map_eq_some_iff.mp hstep
      exact ⟨fun honce => ⟨honce, trivial⟩, fun hboth => hboth.1⟩
  | validate challenge =>
    obtain rfl : s = s' := Option.some.inj hstep
    exact ⟨fun honce => ⟨honce, trivial⟩, fun hboth => hboth.1⟩
  | consume challenge =>
    obtain rfl : s.consume challengeMac challenge = s' := Option.some.inj hstep
    exact h.once_consume hunforged

theorem Inv.fresh (h : s.Inv challengeMac) : s.Fresh := by
  intro challenge n hmem
  obtain ⟨_, _, decoded, hdec, hlate, i, hi, hpayload, hsame, hle⟩ := h.accepted challenge n hmem
  refine ⟨⟨i, hi, hsame, hle, ?_⟩, fun other => decodeChallenge_inj hdec⟩
  have hcarried : (issuedAtMs decoded : K) ≤ i.atMs := by
    have := (h.issued i hi).2.1
    rwa [hpayload] at this
  calc n ≤ issuedAtMs decoded + challengeValidityMs := hlate
    _ ≤ i.atMs + challengeValidityMs := by simpa using hcarried

end ChallengePanel

variable [FloorRing K]

/-- An accepted string was issued at most its validity ago, and no other string decodes to
it. No string is accepted twice exactly when none is presented at the last instant of its
validity that was presented at the very reading it carries. -/
theorem challenge_consumed_once {s₀ s : ChallengePanel K} {as : List (ChallengeAct K)} (hstart : s₀.Start)
    (hrun : Run (Guarded (Unforged challengeMac) (challengePanel challengeMac)) s₀ as s) :
    (s.Once ∧ s.Fresh) ↔
      Run (Guarded (NotAtExpiry challengeMac) (Guarded (Unforged challengeMac) (challengePanel challengeMac)))
        s₀ as s := by
  have hinv := hrun.preserves (P := fun t => t.Inv challengeMac) (fun _ _ _ hstep h => h.step hstep) (ChallengePanel.start_inv hstart)
  have hnone : s₀.Once := by
    rw [ChallengePanel.Once, hstart.accepted]
    exact List.nodup_nil
  have honce := hrun.guarded_iff (P := ChallengePanel.Once) (fun _ _ _ hstep h => ChallengePanel.Inv.step hstep h)
    (fun _ _ _ hstep h => h.once_step hstep) (ChallengePanel.start_inv hstart) hnone
  constructor
  · intro hboth
    exact honce.mp hboth.1
  · intro hguarded
    exact ⟨honce.mpr hguarded, hinv.fresh⟩

end

/-! ### A challenge that is consumed twice -/

/-- The test of `Unforged`. -/
def presentsIssued (s : ChallengePanel Rat) : ChallengeAct Rat → Bool
  | .consume challenge => (decodeChallenge challenge).all fun decoded =>
      s.issued.any fun i => decide (i.payload = challengePayload decoded)
  | _ => true

theorem unforged_of_presentsIssued {challengeMac : Bytes → Bytes} (s : ChallengePanel Rat) (a : ChallengeAct Rat)
    (h : presentsIssued s a = true) : Unforged challengeMac s a := by
  cases a with
  | consume challenge =>
    intro decoded hdec _
    simp only [presentsIssued, hdec, Option.all_some] at h
    obtain ⟨i, hi, hpayload⟩ := List.any_eq_true.mp h
    exact ⟨i, hi, of_decide_eq_true hpayload⟩
  | _ => trivial

def freshPanel : ChallengePanel Rat := ⟨5, OnceCache.empty, [], [], []⟩

theorem freshPanel_start : freshPanel.Start := ⟨by decide, rfl, rfl, rfl, rfl⟩

/-- The challenge issued there with random bytes that are all zero, under a MAC that repeats its input. -/
def freshChallenge : String :=
  String.ofList (toBase64url (putBE 8 5 ++ List.replicate 24 0 ++ (putBE 8 5 ++ List.replicate 24 0)))

theorem challenge_consumed_once_at_reading : ∃ s : ChallengePanel Rat,
    s.accepted = [(freshChallenge, 5)] ∧ ((s.Once ∧ s.Fresh) ↔
      Run (Guarded (NotAtExpiry id) (Guarded (Unforged id) (challengePanel id))) freshPanel
        [.issue (List.replicate 24 0), .consume freshChallenge] s) := by
  have hexec : ((exec (fun s a => if presentsIssued s a then ChallengePanel.step id s a else none) freshPanel
      [.issue (List.replicate 24 0), .consume freshChallenge]).any (fun s =>
        s.accepted = [(freshChallenge, 5)])) = true := by
    decide +kernel
  obtain ⟨s, hs, haccepted⟩ := (Option.any_eq_true _ _).mp hexec
  exact ⟨s, of_decide_eq_true haccepted,
    challenge_consumed_once freshPanel_start (exec_guarded (G := Unforged id) unforged_of_presentsIssued hs)⟩

/-- It is consumed at the reading it carries and again ten minutes later. -/
theorem challenge_consumed_twice :
    ¬ ∀ (challengeMac : Bytes → Bytes) (s₀ s : ChallengePanel Rat) (as : List (ChallengeAct Rat)), s₀.Start →
      Run (Guarded (Unforged challengeMac) (challengePanel challengeMac)) s₀ as s → s.Once ∧ s.Fresh := by
  intro hclaim
  have hexec : ((exec (fun s a => if presentsIssued s a then ChallengePanel.step id s a else none) freshPanel
      [.issue (List.replicate 24 0), .consume freshChallenge, .tick 600000, .consume freshChallenge]).any (fun s =>
        decide (¬ (s.accepted.map Prod.fst).Nodup))) = true := by
    decide +kernel
  obtain ⟨s, hs, htwice⟩ := (Option.any_eq_true _ _).mp hexec
  have hrun := exec_guarded (G := Unforged id) unforged_of_presentsIssued hs
  exact of_decide_eq_true htwice (hclaim id freshPanel s _ freshPanel_start hrun).1

end ForwardX.Agent
