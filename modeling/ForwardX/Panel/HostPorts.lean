import ForwardX.Panel.RuleQuota

/- Reservations of the ports of a host (`portReservations.ts`). A creator takes a port in the
   registry first and asks then whether a rule uses it; what it is told reflects the rules there
   were when it asked. The order of the map of hosts is read by nothing. -/
namespace ForwardX.Panel.HostPorts
open Transition Assoc
open RuleQuota (Rule)

inductive ForwardRuleProtocol where
  | tcp
  | udp
  | both
  deriving DecidableEq

/-- `ReservationEntry`; a token is a number that is used once. -/
structure ReservationEntry where
  token : Nat
  protocol : ForwardRuleProtocol
  deriving DecidableEq

/-- `reservations`: by host, then by port. -/
abbrev Registry := List (Int × List (Int × List ReservationEntry))

structure HostPortReservation where
  hostId : Int
  port : Int
  protocol : ForwardRuleProtocol
  token : Nat
  deriving DecidableEq

def protocolsConflict (_left _right : ForwardRuleProtocol) : Bool := true

def normalizedHostId (value : Int) : Int := if 0 < value then value else 0
def normalizedPort (value : Int) : Int := if 1 ≤ value ∧ value ≤ 65535 then value else 0

def reservedHostPorts (reservations : Registry) (hostIdValue : Int) (protocol : ForwardRuleProtocol) : List Int :=
  (((reservations.lookup (normalizedHostId hostIdValue)).getD []).filter
    (fun e => e.2.any fun entry => protocolsConflict entry.protocol protocol)).map Prod.fst

/-- `tryReserveHostPort`; a map of a host that is new has no entries to conflict with. -/
def tryReserveHostPort (reservations : Registry) (token : Nat) (hostIdValue portValue : Int) (protocol : ForwardRuleProtocol) :
    Option (Registry × HostPortReservation) :=
  let hostId := normalizedHostId hostIdValue
  let port := normalizedPort portValue
  if hostId = 0 ∨ port = 0 then none
  else
    let hostReservations := (reservations.lookup hostId).getD []
    let entries := (hostReservations.lookup port).getD []
    if entries.any (fun entry => protocolsConflict entry.protocol protocol) then none
    else some (put reservations hostId (put hostReservations port (entries ++ [⟨token, protocol⟩])),
      ⟨hostId, port, protocol, token⟩)

/-- `release`, the first time. -/
def release (reservations : Registry) (r : HostPortReservation) : Registry :=
  match reservations.lookup r.hostId with
  | none => reservations
  | some currentHost =>
    match currentHost.lookup r.port with
    | none => reservations
    | some currentEntries =>
      let remaining := currentEntries.filter (fun entry => entry.token != r.token)
      let host := if 0 < remaining.length then put currentHost r.port remaining else erase currentHost r.port
      if host.length = 0 then erase reservations r.hostId else put reservations r.hostId host

def attempts (maxAttempts : Option Int) : Int := max 1 (min 256 (if maxAttempts.getD 0 = 0 then 64 else maxAttempts.getD 0))

/-- How far a creator is with its port: it looks for one, with the ports it was told are reserved;
it has one and asks whether a rule uses it, which one did or did not when it asked; it holds it; it
released it; it got none. -/
inductive PortStage where
  | idle
  | finding (attempt : Nat) (reservedPorts : List Int)
  | checking (attempt : Option Nat) (reservation : HostPortReservation) (used : Bool)
  | held (reservation : HostPortReservation)
  | released
  | refused
  deriving DecidableEq

def PortStage.live : PortStage → Option HostPortReservation
  | .checking _ r _ | .held r => some r
  | .idle | .finding _ _ | .released | .refused => none

/-- A creator: what it asks for, how far it is, and whether it has inserted its rule. -/
structure PortClient where
  hostId : Int
  protocol : ForwardRuleProtocol
  maxAttempts : Option Int
  stage : PortStage
  inserted : Bool
  deriving DecidableEq

structure PortState where
  reservations : Registry
  nextToken : Nat
  clients : List PortClient
  deriving DecidableEq

def PortState.initial : PortState := ⟨[], 0, []⟩

def usedBy (rules : List Rule) (hostId port : Int) : Bool := rules.any (fun r => r.hostId == hostId && r.sourcePort == port)

namespace PortState

/-- Creator `k` is at another stage. -/
def toStage (s : PortState) (k : Nat) (c : PortClient) (stage : PortStage) : PortState :=
  { s with clients := s.clients.set k { c with stage := stage } }

/-- A port was taken, and the creator asks whether a rule uses it. -/
def check (s : PortState) (rules : List Rule) (k : Nat) (c : PortClient) (attempt : Option Nat)
    (taken : Registry × HostPortReservation) : PortState :=
  { s.toStage k c (.checking attempt taken.2 (usedBy rules taken.2.hostId taken.2.port)) with
    reservations := taken.1, nextToken := s.nextToken + 1 }

/-- `reserveSpecificHostPort`, up to its answer. -/
def reserveSpecificHostPort (s : PortState) (rules : List Rule) (k : Nat) (c : PortClient) (port : Int) : PortState :=
  match tryReserveHostPort s.reservations s.nextToken c.hostId port c.protocol with
  | none => s.toStage k c .refused
  | some taken => s.check rules k c none taken

/-- The loop of `reserveAvailableHostPort`, from an attempt on. -/
def reserveAvailableHostPort (s : PortState) (k : Nat) (c : PortClient) (attempt : Nat) : PortState :=
  if (attempt : Int) < attempts c.maxAttempts then
    s.toStage k c (.finding attempt (reservedHostPorts s.reservations c.hostId c.protocol))
  else s.toStage k c .refused

/-- `findPort` gave a port, none, or an error. -/
def found (s : PortState) (rules : List Rule) (k : Nat) (c : PortClient) (attempt : Nat) (result : Option (Option Int)) :
    PortState :=
  let port := (result.bind id).getD 0
  if port = 0 then s.toStage k c .refused
  else
    match tryReserveHostPort s.reservations s.nextToken c.hostId port c.protocol with
    | none => s.reserveAvailableHostPort k c (attempt + 1)
    | some taken => s.check rules k c (some attempt) taken

/-- `isUsed` answered, or failed. -/
def checked (s : PortState) (k : Nat) (c : PortClient) (attempt : Option Nat) (r : HostPortReservation)
    (result : Option Bool) : PortState :=
  if result = some false then s.toStage k c (.held r)
  else
    let s := { s with reservations := release s.reservations r }
    match attempt, result with
    | some attempt, some _ => s.reserveAvailableHostPort k c (attempt + 1)
    | _, _ => s.toStage k c .refused

end PortState

/-- What can happen: a creator asks for a port, or for any; `findPort` and `isUsed` answer or fail;
a creator releases its port. -/
inductive PortAction where
  | reserveSpecific (k : Nat) (port : Int)
  | reserveAvailable (k : Nat)
  | found (k : Nat) (result : Option (Option Int))
  | checked (k : Nat) (result : Option Bool)
  | release (k : Nat)

/-- A creator comes. -/
def PortState.start (s : PortState) (hostId : Int) (protocol : ForwardRuleProtocol) (maxAttempts : Option Int) : PortState :=
  { s with clients := s.clients ++ [⟨hostId, protocol, maxAttempts, .idle, false⟩] }

/-- One step, with the rules there are. -/
def PortState.step (rules : List Rule) (s : PortState) : PortAction → Option PortState
  | .reserveSpecific k port => s.clients[k]?.bind fun c =>
    if c.stage = .idle then some (s.reserveSpecificHostPort rules k c port) else none
  | .reserveAvailable k => s.clients[k]?.bind fun c =>
    if c.stage = .idle then some (s.reserveAvailableHostPort k c 0) else none
  | .found k result => s.clients[k]?.bind fun c =>
    match c.stage with
    | .finding attempt _ => some (s.found rules k c attempt result)
    | _ => none
  | .checked k result => s.clients[k]?.bind fun c =>
    match c.stage with
    | .checking attempt r used =>
      -- what it is told reflects the rules it asked about
      if used = true ∧ result = some false then none else some (s.checked k c attempt r result)
    | _ => none
  | .release k => s.clients[k]?.bind fun c =>
    match c.stage with
    | .held r => some { s.toStage k c .released with reservations := HostPorts.release s.reservations r }
    | .released => some s
    | _ => none

/-- A creator that holds a port inserts its rule. -/
def PortState.insert (s : PortState) (k : Nat) : Option (PortState × HostPortReservation) :=
  s.clients[k]?.bind fun c =>
    match c.stage with
    | .held r =>
      if c.inserted = false then some ({ s with clients := s.clients.set k { c with inserted := true } }, r) else none
    | _ => none

/-! ## The registry -/

def holderAt (reservations : Registry) (hostId port : Int) : Option (List ReservationEntry) :=
  (reservations.lookup hostId).bind (·.lookup port)

/-- No map of a host is empty, and a port has one entry. -/
structure WellFormed (reservations : Registry) : Prop where
  hosts : ∀ hostId ports, reservations.lookup hostId = some ports → ports ≠ []
  ports : ∀ hostId port entries, holderAt reservations hostId port = some entries → ∃ e, entries = [e]

section
variable {reservations : Registry} {hostId port : Int}

theorem holderAt_put (ports : List (Int × List ReservationEntry)) (h p : Int) :
    holderAt (put reservations hostId ports) h p = if h = hostId then ports.lookup p else holderAt reservations h p := by
  unfold holderAt
  by_cases hh : h = hostId
  · rw [if_pos hh, hh, lookup_put_self, Option.bind_some]
  · rw [if_neg hh, lookup_put_ne _ hh]

theorem holderAt_erase (h p : Int) :
    holderAt (erase reservations hostId) h p = if h = hostId then none else holderAt reservations h p := by
  unfold holderAt
  by_cases hh : h = hostId
  · rw [if_pos hh, hh, lookup_erase_self, Option.bind_none]
  · rw [if_neg hh, lookup_erase_ne _ hh]

theorem holderAt_getD (p : Int) : ((reservations.lookup hostId).getD []).lookup p = holderAt reservations hostId p := by
  unfold holderAt
  cases reservations.lookup hostId <;> rfl

theorem WellFormed.lookup_none (h : WellFormed reservations) (hfree : ∀ p, holderAt reservations hostId p = none) :
    reservations.lookup hostId = none := by
  cases hlook : reservations.lookup hostId with
  | none => rfl
  | some ports =>
    cases ports with
    | nil => exact absurd rfl (h.hosts hostId [] hlook)
    | cons e rest =>
      have hhead := hfree e.1
      rw [holderAt, hlook, Option.bind_some, List.lookup_cons, beq_self_eq_true] at hhead
      cases hhead

theorem tryReserve_spec (h : WellFormed reservations) {token : Nat} {hostIdValue portValue : Int}
    {protocol : ForwardRuleProtocol} {taken : Registry × HostPortReservation}
    (ht : tryReserveHostPort reservations token hostIdValue portValue protocol = some taken) :
    WellFormed taken.1 ∧ taken.2.token = token ∧ holderAt reservations taken.2.hostId taken.2.port = none ∧
    ∀ a b, holderAt taken.1 a b =
      if a = taken.2.hostId ∧ b = taken.2.port then some [⟨token, protocol⟩] else holderAt reservations a b := by
  unfold tryReserveHostPort at ht
  by_cases hzero : normalizedHostId hostIdValue = 0 ∨ normalizedPort portValue = 0
  · simp only [if_pos hzero] at ht
    cases ht
  · simp only [if_neg hzero, holderAt_getD] at ht
    cases hhold : holderAt reservations (normalizedHostId hostIdValue) (normalizedPort portValue) with
    | some entries =>
      obtain ⟨e, rfl⟩ := h.ports _ _ _ hhold
      simp [hhold, protocolsConflict] at ht
    | none =>
      simp only [hhold, Option.getD_none, List.any_nil, Bool.false_eq_true, if_false, List.nil_append,
        Option.some.injEq] at ht
      subst ht
      have hview : ∀ a b, holderAt (put reservations (normalizedHostId hostIdValue)
            (put ((reservations.lookup (normalizedHostId hostIdValue)).getD []) (normalizedPort portValue) [⟨token, protocol⟩]))
          a b = if a = normalizedHostId hostIdValue ∧ b = normalizedPort portValue then some [⟨token, protocol⟩]
            else holderAt reservations a b := by
        intro a b
        rw [holderAt_put]
        by_cases ha : a = normalizedHostId hostIdValue
        · by_cases hb : b = normalizedPort portValue
          · rw [if_pos ha, if_pos ⟨ha, hb⟩, hb, lookup_put_self]
          · rw [if_pos ha, if_neg fun h => hb h.2, lookup_put_ne _ hb, ha, holderAt_getD]
        · rw [if_neg ha, if_neg fun h => ha h.1]
      refine ⟨⟨fun a ports ha => ?_, fun a b entries hentries => ?_⟩, rfl, hhold, hview⟩
      · by_cases haa : a = normalizedHostId hostIdValue
        · rw [haa, lookup_put_self] at ha
          obtain rfl := Option.some.inj ha
          exact List.append_ne_nil_of_right_ne_nil _ (List.cons_ne_nil _ _)
        · rw [lookup_put_ne _ haa] at ha
          exact h.hosts a ports ha
      · rw [hview] at hentries
        split at hentries
        · exact ⟨_, (Option.some.inj hentries).symm⟩
        · exact h.ports a b entries hentries

/-- A reservation that is released frees its port, and nothing else changes. -/
theorem release_spec (h : WellFormed reservations) {r : HostPortReservation}
    (hheld : holderAt reservations r.hostId r.port = some [⟨r.token, r.protocol⟩]) :
    WellFormed (release reservations r) ∧
    ∀ a b, holderAt (release reservations r) a b =
      if a = r.hostId ∧ b = r.port then none else holderAt reservations a b := by
  obtain ⟨ports, hports, hport⟩ := Option.bind_eq_some_iff.mp hheld
  have hremain : [(⟨r.token, r.protocol⟩ : ReservationEntry)].filter (fun entry => entry.token != r.token) = [] := by
    simp
  have hrelease : release reservations r =
      if (erase ports r.port).length = 0 then erase reservations r.hostId
      else put reservations r.hostId (erase ports r.port) := by
    simp only [release, hports, hport, hremain]
    rfl
  have hview : ∀ a b, holderAt (release reservations r) a b =
      if a = r.hostId ∧ b = r.port then none else holderAt reservations a b := by
    intro a b
    have hhost : ∀ b, holderAt reservations r.hostId b = ports.lookup b := fun b => by
      rw [holderAt, hports, Option.bind_some]
    rw [hrelease]
    by_cases hlen : (erase ports r.port).length = 0
    · rw [if_pos hlen, holderAt_erase]
      by_cases ha : a = r.hostId
      · by_cases hb : b = r.port
        · rw [if_pos ha, if_pos ⟨ha, hb⟩]
        · have := lookup_erase_ne ports hb
          rw [List.length_eq_zero_iff.mp hlen] at this
          rw [if_pos ha, if_neg fun h => hb h.2, ha, hhost, ← this]
          rfl
      · rw [if_neg ha, if_neg fun h => ha h.1]
    · rw [if_neg hlen, holderAt_put]
      by_cases ha : a = r.hostId
      · by_cases hb : b = r.port
        · rw [if_pos ha, if_pos ⟨ha, hb⟩, hb, lookup_erase_self]
        · rw [if_pos ha, if_neg fun h => hb h.2, lookup_erase_ne _ hb, ha, hhost]
      · rw [if_neg ha, if_neg fun h => ha h.1]
  refine ⟨⟨fun a m ha => ?_, fun a b entries hentries => ?_⟩, hview⟩
  · rw [hrelease] at ha
    by_cases hlen : (erase ports r.port).length = 0
    · rw [if_pos hlen] at ha
      by_cases haa : a = r.hostId
      · rw [haa, lookup_erase_self] at ha
        cases ha
      · rw [lookup_erase_ne _ haa] at ha
        exact h.hosts a m ha
    · rw [if_neg hlen] at ha
      by_cases haa : a = r.hostId
      · rw [haa, lookup_put_self] at ha
        obtain rfl := Option.some.inj ha
        exact fun hnil => hlen (List.length_eq_zero_iff.mpr hnil)
      · rw [lookup_put_ne _ haa] at ha
        exact h.hosts a m ha
  · rw [hview] at hentries
    split at hentries
    · cases hentries
    · exact h.ports a b entries hentries

end

end ForwardX.Panel.HostPorts
