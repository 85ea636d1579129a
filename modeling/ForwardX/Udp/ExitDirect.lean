import Mathlib.Data.List.Nodup
import ForwardX.Lib.Slots
import ForwardX.Lib.Transition
import ForwardX.Udp.Fragment

/- The UDP direct exit (`udp_direct.go`, `serveExitUDPDirect`): one loop reads
   datagrams, finds or creates the session of their source address, rule and
   session ID, and hands the authenticated ones through that session's replay window
   to the rule's target. Sessions are detached, closed and created again while the
   loop is between two of its critical sections.

   The key of a datagram does not name the source address, the replay window does:
   a recorded datagram that arrives from a second address, or after its session is
   gone, meets a window that has never seen it. `atMostOnce_of_oneWindow` is what
   remains true. -/
namespace ForwardX.Udp.ExitDirect
open Wire Aead Transition Slots

structure UDPAddr where
  ip : Bytes
  port : Nat
  zone : Bytes
  deriving DecidableEq, Repr

/-- The key `udpRuleSessionKey` formats, as the fields it is made of. -/
structure SessionKey where
  ruleID : Int
  addr : UDPAddr
  sessionID : UInt64
  deriving DecidableEq, Repr

def udpRuleSessionKey (addr : UDPAddr) (ruleID : Int) (sessionID : UInt64) : SessionKey :=
  ⟨ruleID, addr, sessionID⟩

/-- The fields of the configuration that the exit reads. -/
structure Config where
  tunnelID : Int
  ruleID : Int
  key : String

/-- `udpTarget`, without the rule it belongs to. -/
structure Target where
  targetIP : String
  targetPort : Int
  deriving DecidableEq, Repr

def fxpUDPMaxSessions : Nat := 1024

def packetMatchesConfig (packet : Packet) (cfg : Config) : Bool :=
  packet.context.tunnelID = cfg.tunnelID &&
    (cfg.ruleID ≤ 0 || packet.context.ruleID = cfg.ruleID)

/-- `checkFXPUDPSessionCapacity` as the exit calls it: only the total counts. -/
def sessionCapacity (total : Nat) : Bool := total < fxpUDPMaxSessions

/-- `udpDirectExitSession`. `accepted` are the sequences its window has accepted and
`written` the datagrams its sending loop has written to the target. -/
structure Session where
  key : SessionKey
  dataOpener : Codec
  target : Target
  dataReplay : ReplayWindow
  dataFragments : Reassembler
  send : List Packet
  done : Bool
  accepted : List UInt64
  written : List Packet

/-- Where the reading loop stands: at `ReadFromUDP`; past the lookup of a datagram,
with the session it found or the preflight verdict; past the critical section that
admitted a packet to a session; or past the session's `accept`. -/
inductive Reader where
  | idle
  | found (raw : Bytes) (header : Packet) (key : SessionKey) (session : Nat)
  | absent (raw : Bytes) (header : Packet) (key : SessionKey) (allow : Bool)
  | admitted (session : Nat) (packet : Packet)
  | accepted (session : Nat) (packet : Packet)
  | stopped

/-- The exit. Session objects are numbered in order of creation; `sessions` is the
map of the live ones. -/
structure Exit where
  objects : List Session
  sessions : List (SessionKey × Nat)
  reader : Reader

def Exit.init : Exit := ⟨[], [], .idle⟩

/-- What can happen next. The first five are the reading loop, with what it is told
by the live target table, by the sockets and the seed allocator (`created`), by the
clock and the byte budget, and by the send queue (how many old packets it drops for
the new one, and whether it takes it). The rest are the sweeper, the sending loop
and the phases of `close`. -/
inductive Act where
  | receive (addr : UDPAddr) (raw : Bytes)
  | process (target : Option Target) (created : Bool)
  | accept (now : Int) (reserved : Bool)
  | forward (drop : Nat) (queued : Bool)
  | stop
  | detach (i : Nat)
  | expire (i : Nat) (now : Int)
  | write (i : Nat) (superseded : Bool)
  | close (i : Nat)
  | closeQueue (i : Nat)
  | closeFragments (i : Nat)

/-- `detachSessionLocked`. -/
def detachSession (sessions : List (SessionKey × Nat)) (key : SessionKey) (i : Nat) :
    List (SessionKey × Nat) :=
  if sessions.lookup key = some i then sessions.filter (fun e => e.1 != key) else sessions

/-- `newUDPDirectExitSession`. -/
def newSession (codec : Codec) (key : SessionKey) (target : Target) : Session :=
  ⟨key, codec, target, .new, .new, [], false, [], []⟩

/-- `openFXPUDPPacket`: open a packet under a codec made for its header. -/
def openFXPUDPPacket (fxpUDPAEAD : String → Context → Cipher) (raw : Bytes) (header : Packet)
    (key : String) : Except String (Codec × Packet) := do
  let codec ← newFXPUDPCodec fxpUDPAEAD key header.context
  let packet ← codec.openParsedPacket raw header
  return (codec, packet)

/-- The reading loop after `ReadFromUDP`, up to the end of its first critical section. -/
def receive (cfg : Config) (s : Exit) (addr : UDPAddr) (raw : Bytes) : Exit :=
  match parseFXPUDPHeader raw with
  | .error _ => s
  | .ok header =>
    if header.context.packetType ≠ fxpUDPTypeData ∨ !packetMatchesConfig header cfg then s
    else
      let key := udpRuleSessionKey addr header.context.ruleID header.context.sessionID
      match s.sessions.lookup key with
      | some i => { s with reader := .found raw header key i }
      | none => { s with reader := .absent raw header key (sessionCapacity s.sessions.length) }

/-- The reading loop for a datagram whose session exists, up to the end of its second
critical section. -/
def processFound (cfg : Config) (s : Exit) (raw : Bytes) (header : Packet) (key : SessionKey)
    (i : Nat) (x : Session) (target : Option Target) : Exit :=
  let idle := { s with reader := .idle }
  match x.dataOpener.openParsedPacket raw header, target with
  | .error _, _ => idle
  | .ok _, none => idle
  | .ok packet, some target =>
    if packet.context.packetType ≠ fxpUDPTypeData ∨ !packetMatchesConfig packet cfg then idle
    else if s.sessions.lookup key ≠ some i then idle
    else if x.target ≠ target then idle
    else { s with reader := .admitted i packet }

/-- The reading loop for a datagram without a session, up to the end of its second
critical section. -/
def processAbsent (fxpUDPAEAD : String → Context → Cipher) (cfg : Config) (s : Exit) (raw : Bytes)
    (header : Packet) (key : SessionKey) (allow : Bool) (target : Option Target) (created : Bool) :
    Exit :=
  let idle := { s with reader := .idle }
  if !allow then idle
  else
    match openFXPUDPPacket fxpUDPAEAD raw header cfg.key, target with
    | .error _, _ => idle
    | .ok _, none => idle
    | .ok (codec, packet), some target =>
      if packet.context.packetType ≠ fxpUDPTypeData ∨ !packetMatchesConfig packet cfg then idle
      else if !created then idle
      else
        match s.sessions.lookup key with
        | some i => { s with reader := .admitted i packet }
        | none =>
          if !sessionCapacity s.sessions.length then idle
          else
            { objects := s.objects ++ [newSession codec key target]
              sessions := (key, s.objects.length) :: s.sessions
              reader := .admitted s.objects.length packet }

/-- Replace session object `i`. -/
def Exit.put (s : Exit) (i : Nat) (x : Session) : Exit := { s with objects := s.objects.set i x }

/-- The session's `accept`: what its window accepts is noted. -/
def acceptPacket (s : Exit) (i : Nat) (x : Session) (packet : Packet) (now : Int)
    (reserved : Bool) : Exit :=
  let a := x.dataFragments.accept packet x.dataReplay now reserved
  match a.payload with
  | none =>
    { s.put i { x with dataFragments := a.reassembler, dataReplay := a.replay } with reader := .idle }
  | some payload =>
    { s.put i { x with dataFragments := a.reassembler, dataReplay := a.replay,
                       accepted := packet.sequence :: x.accepted } with
      reader := .accepted i { packet with payload := payload } }

def forwardToTarget (s : Exit) (i : Nat) (x : Session) (packet : Packet) (drop : Nat)
    (queued : Bool) : Exit :=
  if x.done || !queued then { s with reader := .idle }
  else { s.put i { x with send := x.send.drop drop ++ [packet] } with reader := .idle }

/-- One step of the exit; `none` where the action is not enabled. -/
def step (fxpUDPAEAD : String → Context → Cipher) (cfg : Config) (s : Exit) : Act → Option Exit
  | .receive addr raw =>
    match s.reader with
    | .idle => some (receive cfg s addr raw)
    | _ => none
  | .process target created =>
    match s.reader with
    | .found raw header key i =>
      (s.objects[i]?).map fun x => processFound cfg s raw header key i x target
    | .absent raw header key allow =>
      some (processAbsent fxpUDPAEAD cfg s raw header key allow target created)
    | _ => none
  | .accept now reserved =>
    match s.reader with
    | .admitted i packet => (s.objects[i]?).map fun x => acceptPacket s i x packet now reserved
    | _ => none
  | .forward drop queued =>
    match s.reader with
    | .accepted i packet => (s.objects[i]?).map fun x => forwardToTarget s i x packet drop queued
    | _ => none
  | .stop =>
    match s.reader with
    | .idle => some { s with reader := .stopped }
    | _ => none
  | .detach i => (s.objects[i]?).map fun x =>
    { s with sessions := detachSession s.sessions x.key i }
  | .expire i now => (s.objects[i]?).map fun x =>
    if x.dataFragments.closed then s
    else s.put i { x with dataFragments := x.dataFragments.expire now }
  | .write i superseded => (s.objects[i]?).bind fun x =>
    match x.send with
    | [] => none
    | packet :: rest =>
      some (s.put i { x with send := rest,
                             written := if superseded then x.written else x.written ++ [packet] })
  | .close i => (s.objects[i]?).bind fun x =>
    if x.done then none else some (s.put i { x with done := true })
  | .closeQueue i => (s.objects[i]?).bind fun x =>
    if !x.done then none else some (s.put i { x with send := [] })
  | .closeFragments i => (s.objects[i]?).bind fun x =>
    if !x.done then none else some (s.put i { x with dataFragments := x.dataFragments.close })

def exit (fxpUDPAEAD : String → Context → Cipher) (cfg : Config) : Steps Exit Act :=
  Steps.ofFn (step fxpUDPAEAD cfg)

def datagram (p : Packet) : Int × UInt64 × UInt64 :=
  (p.context.ruleID, p.context.sessionID, p.sequence)

/-- The datagrams written to the targets, of each session object in order. -/
def Exit.written (s : Exit) : List (Int × UInt64 × UInt64) :=
  s.objects.flatMap (fun x => x.written.map datagram)

def AtMostOnce (s : Exit) : Prop := s.written.Nodup

/-- A datagram that a session object has accepted is admitted to no other one: the
replays of a datagram arrive from its own source address while its session lives. -/
def OneWindow (s : Exit) : Act → Prop
  | .accept _ _ => ∀ i packet, s.reader = .admitted i packet → ∀ j y, s.objects[j]? = some y →
      y.dataOpener.context = packet.context → packet.sequence ∈ y.accepted → i = j
  | _ => True

/-! ## The invariant -/

/-- A session's window holds what it has accepted, and the datagrams it has written
or still queues are accepted ones of its context, each once. -/
structure SessionOk (cfg : Config) (x : Session) : Prop where
  holds : Holds x.dataReplay x.accepted
  packetType : x.dataOpener.context.packetType = fxpUDPTypeData
  tunnelID : x.dataOpener.context.tunnelID = cfg.tunnelID
  nodup : ((x.written ++ x.send).map Packet.sequence).Nodup
  owned : ∀ p ∈ x.written ++ x.send, p.sequence ∈ x.accepted ∧ p.context = x.dataOpener.context

/-- The packet in the reading loop's hands belongs to its session, and once accepted
it is in no queue yet. -/
def ReaderOk (s : Exit) : Prop :=
  match s.reader with
  | .absent _ _ key _ => s.sessions.lookup key = none
  | .admitted i packet => ∃ x, s.objects[i]? = some x ∧ packet.context = x.dataOpener.context
  | .accepted i packet => ∃ x, s.objects[i]? = some x ∧ packet.context = x.dataOpener.context ∧
      packet.sequence ∈ x.accepted ∧ ∀ p ∈ x.written ++ x.send, p.sequence ≠ packet.sequence
  | _ => True

structure Inv (cfg : Config) (s : Exit) : Prop where
  objects : ∀ x ∈ s.objects, SessionOk cfg x
  reader : ReaderOk s

/-- No two session objects of one context have accepted the same sequence. -/
def Apart (s : Exit) : Prop :=
  ∀ (i j : Nat) (x y : Session), s.objects[i]? = some x → s.objects[j]? = some y →
    x.dataOpener.context = y.dataOpener.context → ∀ n ∈ x.accepted, n ∈ y.accepted → i = j

theorem Inv.init (cfg : Config) : Inv cfg Exit.init where
  objects _ hx := nomatch hx
  reader := trivial

variable {cfg : Config} {x : Session} {s : Exit} {i : Nat}

theorem Inv.get (h : Inv cfg s) (hx : s.objects[i]? = some x) : SessionOk cfg x :=
  h.objects x (List.mem_of_getElem? hx)

theorem SessionOk.new {codec : Codec} {key : SessionKey} {target : Target}
    (ht : codec.context.packetType = fxpUDPTypeData) (hc : codec.context.tunnelID = cfg.tunnelID) :
    SessionOk cfg (newSession codec key target) where
  holds := Holds.new
  packetType := ht
  tunnelID := hc
  nodup := List.nodup_nil
  owned _ hp := nomatch hp

/-! ## Steps that take nothing new in -/

/-- A session becomes another without accepting anything: its queue only moves on
to the target or is dropped. -/
structure Drains (x x' : Session) : Prop where
  dataOpener : x'.dataOpener = x.dataOpener
  dataReplay : x'.dataReplay = x.dataReplay
  accepted : x'.accepted = x.accepted
  queued : (x'.written ++ x'.send).Sublist (x.written ++ x.send)

theorem SessionOk.drains {x x' : Session} (h : SessionOk cfg x) (hd : Drains x x') : SessionOk cfg x' where
  holds := by
    rw [hd.dataReplay, hd.accepted]
    exact h.holds
  packetType := by rw [hd.dataOpener]; exact h.packetType
  tunnelID := by rw [hd.dataOpener]; exact h.tunnelID
  nodup := (hd.queued.map Packet.sequence).nodup h.nodup
  owned p hp := by
    rw [hd.accepted, hd.dataOpener]
    exact h.owned p (hd.queued.subset hp)

theorem Inv.drains (h : Inv cfg s) {x x' : Session} (hx : s.objects[i]? = some x) (hd : Drains x x') :
    Inv cfg (s.put i x') where
  objects y hy := by
    rcases List.mem_or_eq_of_mem_set hy with hy | rfl
    · exact h.objects y hy
    · exact (h.get hx).drains hd
  reader := by
    have hi : i < s.objects.length := (List.getElem?_eq_some_iff.mp hx).1
    have hget : ∀ (j : Nat) (y : Session), s.objects[j]? = some y →
        ∃ y', (s.objects.set i x')[j]? = some y' ∧ (y' = y ∨ Drains y y') := by
      intro j y hy
      by_cases hij : i = j
      · subst hij
        obtain rfl : x = y := Option.some.inj (hx ▸ hy)
        exact ⟨x', List.getElem?_set_self hi, .inr hd⟩
      · exact ⟨y, by rw [List.getElem?_set_ne hij]; exact hy, .inl rfl⟩
    have hr := h.reader
    unfold ReaderOk Exit.put at *
    cases hreader : s.reader with
    | idle => trivial
    | stopped => trivial
    | found => trivial
    | absent raw header key allow =>
      simp only [hreader] at hr ⊢
      exact hr
    | admitted j packet =>
      simp only [hreader] at hr ⊢
      obtain ⟨y, hy, hctx⟩ := hr
      obtain ⟨y', hy', rfl | hdy⟩ := hget j y hy
      · exact ⟨y', hy', hctx⟩
      · exact ⟨y', hy', by rw [hdy.dataOpener]; exact hctx⟩
    | accepted j packet =>
      simp only [hreader] at hr ⊢
      obtain ⟨y, hy, hctx, hmem, hnew⟩ := hr
      obtain ⟨y', hy', rfl | hdy⟩ := hget j y hy
      · exact ⟨y', hy', hctx, hmem, hnew⟩
      · refine ⟨y', hy', by rw [hdy.dataOpener]; exact hctx, by rw [hdy.accepted]; exact hmem, ?_⟩
        exact fun p hp => hnew p (hdy.queued.subset hp)

theorem Apart.drains (h : Apart s) {x x' : Session} (hx : s.objects[i]? = some x) (hd : Drains x x') :
    Apart (s.put i x') := by
  intro j k y z hy hz hctx n hny hnz
  obtain ⟨y₀, hy₀, heq⟩ := getElem?_set_map (fun x => (x.dataOpener.context, x.accepted)) hx hy
    (by rw [hd.dataOpener, hd.accepted])
  obtain ⟨z₀, hz₀, heq'⟩ := getElem?_set_map (fun x => (x.dataOpener.context, x.accepted)) hx hz
    (by rw [hd.dataOpener, hd.accepted])
  simp only [Prod.mk.injEq] at heq heq'
  exact h j k y₀ z₀ hy₀ hz₀ (by rw [heq.1, heq'.1]; exact hctx) n (heq.2 ▸ hny) (heq'.2 ▸ hnz)

theorem lookup_detachSession {sessions : List (SessionKey × Nat)} {key key' : SessionKey}
    (h : sessions.lookup key = none) : (detachSession sessions key' i).lookup key = none := by
  unfold detachSession
  split
  · rw [List.lookup_eq_none_iff] at h ⊢
    exact fun e he => h e (List.mem_of_mem_filter he)
  · exact h

/-- The steps of the sweeper, the sending loops and `close`: they leave the reading
loop where it is, only delete from the map, and only drain sessions. -/
inductive Quiet (s : Exit) : Exit → Prop
  | same : Quiet s s
  | detach (key : SessionKey) (i : Nat) :
      Quiet s { s with sessions := detachSession s.sessions key i }
  | drains {i : Nat} {x x' : Session} :
      s.objects[i]? = some x → Drains x x' → Quiet s (s.put i x')

def Act.ofReader : Act → Bool
  | .receive _ _ | .process _ _ | .accept _ _ | .forward _ _ | .stop => true
  | _ => false

variable {cfg : Config} {x : Session} {i : Nat} {fxpUDPAEAD : String → Context → Cipher} {s s' : Exit} {a : Act}

theorem step_quiet (ha : a.ofReader = false) (h : step fxpUDPAEAD cfg s a = some s') : Quiet s s' := by
  cases a with
  | receive => cases ha
  | process => cases ha
  | accept => cases ha
  | forward => cases ha
  | stop => cases ha
  | detach i =>
    simp only [step] at h
    obtain ⟨x, -, rfl⟩ := Option.map_eq_some_iff.mp h
    exact .detach x.key i
  | expire i now =>
    simp only [step] at h
    obtain ⟨x, hx, h⟩ := Option.map_eq_some_iff.mp h
    split at h
    · subst h
      exact .same
    · subst h
      exact .drains hx ⟨rfl, rfl, rfl, List.Sublist.refl _⟩
  | write i superseded =>
    simp only [step] at h
    obtain ⟨x, hx, h⟩ := Option.bind_eq_some_iff.mp h
    split at h
    · cases h
    · rename_i packet rest hsend
      simp only [Option.some.injEq] at h
      subst h
      refine .drains hx ⟨rfl, rfl, rfl, ?_⟩
      rw [hsend]
      cases superseded with
      | true => exact (List.sublist_cons_self packet rest).append_left x.written
      | false => simp
  | close i =>
    simp only [step] at h
    obtain ⟨x, hx, h⟩ := Option.bind_eq_some_iff.mp h
    split at h
    · cases h
    · simp only [Option.some.injEq] at h
      subst h
      exact .drains hx ⟨rfl, rfl, rfl, List.Sublist.refl _⟩
  | closeQueue i =>
    simp only [step] at h
    obtain ⟨x, hx, h⟩ := Option.bind_eq_some_iff.mp h
    split at h
    · cases h
    · simp only [Option.some.injEq] at h
      subst h
      exact .drains hx ⟨rfl, rfl, rfl, (List.nil_sublist x.send).append_left x.written⟩
  | closeFragments i =>
    simp only [step] at h
    obtain ⟨x, hx, h⟩ := Option.bind_eq_some_iff.mp h
    split at h
    · cases h
    · simp only [Option.some.injEq] at h
      subst h
      exact .drains hx ⟨rfl, rfl, rfl, List.Sublist.refl _⟩

theorem Inv.quiet (h : Inv cfg s) (hq : Quiet s s') : Inv cfg s' := by
  cases hq with
  | same => exact h
  | detach key i =>
    refine ⟨h.objects, ?_⟩
    have hr := h.reader
    unfold ReaderOk at *
    cases hreader : s.reader with
    | absent => simp only [hreader] at hr ⊢; exact lookup_detachSession hr
    | idle => trivial
    | stopped => trivial
    | found => trivial
    | admitted => simp only [hreader] at hr ⊢; exact hr
    | accepted => simp only [hreader] at hr ⊢; exact hr
  | drains hx hd => exact h.drains hx hd

theorem Apart.quiet (h : Apart s) (hq : Quiet s s') : Apart s' := by
  cases hq with
  | same => exact h
  | detach => exact h
  | drains hx hd => exact h.drains hx hd

/-! ## The reading loop -/

/-- Moving the reading loop to a place with no packet in hand keeps the invariant. -/
theorem Inv.idle (h : Inv cfg s) : Inv cfg { s with reader := .idle } :=
  ⟨h.objects, trivial⟩

theorem Inv.receive (h : Inv cfg s) (addr : UDPAddr) (raw : Bytes) : Inv cfg (receive cfg s addr raw) := by
  unfold ExitDirect.receive
  split
  · exact h
  split
  · exact h
  dsimp only
  split
  · exact ⟨h.objects, trivial⟩
  · rename_i hlookup
    exact ⟨h.objects, hlookup⟩

theorem openParsedPacket_context {codec : Codec} {raw : Bytes} {header packet : Packet}
    (h : codec.openParsedPacket raw header = .ok packet) : packet.context = codec.context := by
  unfold Codec.openParsedPacket at h
  split at h
  · cases h
  · rename_i hm
    split at h
    · cases h
    · cases h
      simpa [Codec.matches] using hm

variable {packet : Packet}

theorem openFXPUDPPacket_context {raw : Bytes} {header : Packet} {key : String} {codec : Codec}
    (h : openFXPUDPPacket fxpUDPAEAD raw header key = .ok (codec, packet)) : packet.context = codec.context := by
  unfold openFXPUDPPacket at h
  cases hc : newFXPUDPCodec fxpUDPAEAD key header.context with
  | error e => simp [hc, bind, Except.bind] at h
  | ok codec' =>
    cases hp : codec'.openParsedPacket raw header with
    | error e => simp [hc, hp, bind, Except.bind] at h
    | ok packet' =>
      simp [hc, hp, bind, Except.bind, pure, Except.pure] at h
      obtain ⟨rfl, rfl⟩ := h
      exact openParsedPacket_context hp

theorem packetMatchesConfig_tunnel (h : packetMatchesConfig packet cfg = true) :
    packet.context.tunnelID = cfg.tunnelID := by
  simp only [packetMatchesConfig, Bool.and_eq_true, decide_eq_true_eq] at h
  exact h.1

theorem Inv.processFound (h : Inv cfg s) (raw : Bytes) (header : Packet) (key : SessionKey)
    (hx : s.objects[i]? = some x) (target : Option Target) :
    Inv cfg (processFound cfg s raw header key i x target) := by
  unfold ExitDirect.processFound
  dsimp only
  split
  · exact h.idle
  · exact h.idle
  · rename_i packet target hopen
    split
    · exact h.idle
    split
    · exact h.idle
    split
    · exact h.idle
    · exact ⟨h.objects, x, hx, openParsedPacket_context hopen⟩

/-- A datagram without a session gets a new one: the map had no entry at the lookup,
and only this loop adds entries. -/
theorem Inv.processAbsent (h : Inv cfg s) (raw : Bytes) (header : Packet) {key : SessionKey}
    (hkey : s.sessions.lookup key = none) (allow : Bool) (target : Option Target) (created : Bool) :
    Inv cfg (processAbsent fxpUDPAEAD cfg s raw header key allow target created) := by
  unfold ExitDirect.processAbsent
  dsimp only
  split
  · exact h.idle
  split
  · exact h.idle
  · exact h.idle
  · rename_i codec packet target hopen
    have hctx := openFXPUDPPacket_context hopen
    split
    · exact h.idle
    rename_i hmatch
    split
    · exact h.idle
    rw [hkey]
    dsimp only
    split
    · exact h.idle
    · simp only [not_or, not_not, Bool.not_eq_true', Bool.not_eq_false] at hmatch
      refine ⟨?_, newSession codec key target, List.getElem?_concat_length, hctx⟩
      intro y hy
      rcases List.mem_append.mp hy with hy | hy
      · exact h.objects y hy
      · rw [List.mem_singleton.mp hy]
        refine SessionOk.new ?_ ?_
        · rw [← hctx]
          exact hmatch.1
        · rw [← hctx]
          exact packetMatchesConfig_tunnel hmatch.2

/-- The session's `accept`: the window decides, and what it accepts is in no queue. -/
theorem Inv.accept (h : Inv cfg s) (hx : s.objects[i]? = some x) (hctx : packet.context = x.dataOpener.context)
    (now : Int) (reserved : Bool) : Inv cfg (acceptPacket s i x packet now reserved) := by
  have hok := h.get hx
  have hi : i < s.objects.length := (List.getElem?_eq_some_iff.mp hx).1
  unfold acceptPacket
  dsimp only
  rcases accept_spec hok.holds x.dataFragments packet now reserved with
    ⟨hnone, hreplay⟩ | ⟨hsome, hnew, hholds⟩
  · have hd : Drains x { x with
        dataFragments := (x.dataFragments.accept packet x.dataReplay now reserved).reassembler
        dataReplay := (x.dataFragments.accept packet x.dataReplay now reserved).replay } :=
      ⟨rfl, hreplay, rfl, List.Sublist.refl _⟩
    rw [hnone]
    exact (h.drains hx hd).idle
  · obtain ⟨payload, hpayload⟩ := Option.isSome_iff_exists.mp hsome
    rw [hpayload]
    refine ⟨?_, _, List.getElem?_set_self hi, hctx, List.mem_cons_self, ?_⟩
    · intro y hy
      rcases List.mem_or_eq_of_mem_set hy with hy | rfl
      · exact h.objects y hy
      · exact ⟨hholds, hok.packetType, hok.tunnelID, hok.nodup,
          fun p hp => ⟨List.mem_cons_of_mem _ (hok.owned p hp).1, (hok.owned p hp).2⟩⟩
    · intro p hp heq
      exact hnew (heq ▸ (hok.owned p hp).1)

/-- Under one window a sequence is accepted where no other session has accepted it. -/
theorem Apart.accept (h : Apart s) (hx : s.objects[i]? = some x) (hctx : packet.context = x.dataOpener.context)
    (hone : ∀ (j : Nat) (y : Session), s.objects[j]? = some y →
      y.dataOpener.context = packet.context → packet.sequence ∈ y.accepted → i = j) (now : Int) (reserved : Bool) :
    Apart (acceptPacket s i x packet now reserved) := by
  -- whatever the outcome, one session object has changed, and only it may have accepted
  suffices hset : ∀ x' : Session, x'.dataOpener = x.dataOpener →
      (∀ n ∈ x'.accepted, n = packet.sequence ∨ n ∈ x.accepted) → Apart (s.put i x') by
    unfold acceptPacket
    dsimp only
    split
    · exact hset _ rfl (fun n hn => .inr hn)
    · exact hset _ rfl (fun n hn => List.mem_cons.mp hn)
  intro x' hopener haccepted j k y z hy hz hsame n hny hnz
  rcases getElem?_set_cases hy with ⟨rfl, rfl⟩ | ⟨hj, hy₀⟩
  · rcases getElem?_set_cases hz with ⟨rfl, rfl⟩ | ⟨hk, hz₀⟩
    · rfl
    · rw [hopener] at hsame
      rcases haccepted n hny with rfl | hn
      · exact hone k z hz₀ (hsame.symm.trans hctx.symm) hnz
      · exact h j k x z hx hz₀ hsame n hn hnz
  · rcases getElem?_set_cases hz with ⟨rfl, rfl⟩ | ⟨hk, hz₀⟩
    · rw [hopener] at hsame
      rcases haccepted n hnz with rfl | hn
      · exact (hone j y hy₀ (hsame.trans hctx.symm) hny).symm
      · exact h j k y x hy₀ hx hsame n hny hn
    · exact h j k y z hy₀ hz₀ hsame n hny hnz

theorem Inv.forward (h : Inv cfg s) (hx : s.objects[i]? = some x) (hctx : packet.context = x.dataOpener.context)
    (hmem : packet.sequence ∈ x.accepted) (hnew : ∀ p ∈ x.written ++ x.send, p.sequence ≠ packet.sequence) (drop : Nat)
    (queued : Bool) : Inv cfg (forwardToTarget s i x packet drop queued) := by
  unfold forwardToTarget
  split
  · exact h.idle
  · refine ⟨fun y hy => ?_, trivial⟩
    rcases List.mem_or_eq_of_mem_set hy with hy | rfl
    · exact h.objects y hy
    · have hok := h.get hx
      have hsub : (x.written ++ x.send.drop drop).Sublist (x.written ++ x.send) :=
        (List.drop_sublist drop x.send).append_left x.written
      refine ⟨hok.holds, hok.packetType, hok.tunnelID, ?_, ?_⟩
      · dsimp only
        rw [← List.append_assoc, List.map_append]
        refine List.Nodup.append ((hsub.map Packet.sequence).nodup hok.nodup)
          (List.nodup_singleton _) ?_
        intro n hn hn'
        obtain ⟨p, hp, rfl⟩ := List.mem_map.mp hn
        exact hnew p (hsub.subset hp) (List.mem_singleton.mp hn')
      · intro p hp
        dsimp only at hp
        rw [← List.append_assoc, List.mem_append] at hp
        rcases hp with hp | hp
        · exact hok.owned p (hsub.subset hp)
        · rw [List.mem_singleton.mp hp]
          exact ⟨hmem, hctx⟩

theorem Apart.forward (h : Apart s) (hx : s.objects[i]? = some x) (drop : Nat) (queued : Bool) :
    Apart (forwardToTarget s i x packet drop queued) := by
  unfold forwardToTarget
  split
  · exact h
  · intro j k y z hy hz hctx n hny hnz
    obtain ⟨y₀, hy₀, heq⟩ :=
      getElem?_set_map (fun x => (x.dataOpener.context, x.accepted)) hx hy rfl
    obtain ⟨z₀, hz₀, heq'⟩ :=
      getElem?_set_map (fun x => (x.dataOpener.context, x.accepted)) hx hz rfl
    simp only [Prod.mk.injEq] at heq heq'
    exact h j k y₀ z₀ hy₀ hz₀ (by rw [heq.1, heq'.1]; exact hctx) n (heq.2 ▸ hny) (heq'.2 ▸ hnz)

theorem Apart.create (h : Apart s) (hx : x.accepted = []) (hs : s'.objects = s.objects ++ [x]) : Apart s' := by
  intro j k y z hy hz hctx n hny hnz
  rw [hs] at hy hz
  rcases getElem?_concat_cases hy with ⟨rfl, rfl⟩ | ⟨hj, hy⟩
  · rw [hx] at hny
    cases hny
  rcases getElem?_concat_cases hz with ⟨rfl, rfl⟩ | ⟨hk, hz⟩
  · rw [hx] at hnz
    cases hnz
  · exact h j k y z hy hz hctx n hny hnz

/-! ## Whole runs -/

theorem Inv.step (h : Inv cfg s) (hstep : step fxpUDPAEAD cfg s a = some s') : Inv cfg s' := by
  cases ha : a.ofReader with
  | false => exact h.quiet (step_quiet ha hstep)
  | true =>
    have hr := h.reader
    cases a with
    | receive addr raw =>
      simp only [ExitDirect.step] at hstep
      split at hstep
      · simp only [Option.some.injEq] at hstep
        exact hstep ▸ h.receive addr raw
      · cases hstep
    | process target created =>
      simp only [ExitDirect.step] at hstep
      split at hstep
      · obtain ⟨x, hx, rfl⟩ := Option.map_eq_some_iff.mp hstep
        exact h.processFound _ _ _ hx target
      · rename_i raw header key allow hreader
        simp only [ReaderOk, hreader] at hr
        simp only [Option.some.injEq] at hstep
        exact hstep ▸ h.processAbsent raw header hr allow target created
      · cases hstep
    | accept now reserved =>
      simp only [ExitDirect.step] at hstep
      split at hstep
      · rename_i i packet hreader
        obtain ⟨x, hx, rfl⟩ := Option.map_eq_some_iff.mp hstep
        simp only [ReaderOk, hreader] at hr
        obtain ⟨y, hy, hctx⟩ := hr
        obtain rfl : x = y := Option.some.inj (hx ▸ hy)
        exact h.accept hx hctx now reserved
      · cases hstep
    | forward drop queued =>
      simp only [ExitDirect.step] at hstep
      split at hstep
      · rename_i i packet hreader
        obtain ⟨x, hx, rfl⟩ := Option.map_eq_some_iff.mp hstep
        simp only [ReaderOk, hreader] at hr
        obtain ⟨y, hy, hctx, hmem, hnew⟩ := hr
        obtain rfl : x = y := Option.some.inj (hx ▸ hy)
        exact h.forward hx hctx hmem hnew drop queued
      · cases hstep
    | stop =>
      simp only [ExitDirect.step] at hstep
      split at hstep
      · simp only [Option.some.injEq] at hstep
        exact hstep ▸ ⟨h.objects, trivial⟩
      · cases hstep
    | detach => cases ha
    | expire => cases ha
    | write => cases ha
    | close => cases ha
    | closeQueue => cases ha
    | closeFragments => cases ha

/-- A step that gives a datagram one window keeps the session objects apart. -/
theorem Apart.step (h : Apart s) (hinv : Inv cfg s) (hone : OneWindow s a) (hstep : step fxpUDPAEAD cfg s a = some s') :
    Apart s' := by
  cases ha : a.ofReader with
  | false => exact h.quiet (step_quiet ha hstep)
  | true =>
    have hr := hinv.reader
    cases a with
    | receive addr raw =>
      simp only [ExitDirect.step] at hstep
      split at hstep
      · simp only [Option.some.injEq] at hstep
        subst hstep
        unfold ExitDirect.receive
        split
        · exact h
        split
        · exact h
        dsimp only
        split <;> exact h
      · cases hstep
    | process target created =>
      simp only [ExitDirect.step] at hstep
      split at hstep
      · obtain ⟨x, hx, rfl⟩ := Option.map_eq_some_iff.mp hstep
        unfold ExitDirect.processFound
        dsimp only
        repeat' split
        all_goals exact h
      · simp only [Option.some.injEq] at hstep
        subst hstep
        unfold ExitDirect.processAbsent
        dsimp only
        split
        · exact h
        split
        · exact h
        · exact h
        split
        · exact h
        split
        · exact h
        split
        · exact h
        split
        · exact h
        · exact h.create rfl rfl
      · cases hstep
    | accept now reserved =>
      simp only [ExitDirect.step] at hstep
      split at hstep
      · rename_i i packet hreader
        obtain ⟨x, hx, rfl⟩ := Option.map_eq_some_iff.mp hstep
        simp only [ReaderOk, hreader] at hr
        obtain ⟨y, hy, hctx⟩ := hr
        obtain rfl : x = y := Option.some.inj (hx ▸ hy)
        exact h.accept hx hctx (hone i packet hreader) now reserved
      · cases hstep
    | forward drop queued =>
      simp only [ExitDirect.step] at hstep
      split at hstep
      · obtain ⟨x, hx, rfl⟩ := Option.map_eq_some_iff.mp hstep
        exact h.forward hx drop queued
      · cases hstep
    | stop =>
      simp only [ExitDirect.step] at hstep
      split at hstep
      · simp only [Option.some.injEq] at hstep
        exact hstep ▸ h
      · cases hstep
    | detach => cases ha
    | expire => cases ha
    | write => cases ha
    | close => cases ha
    | closeQueue => cases ha
    | closeFragments => cases ha

/-- What one session has written is distinct: the sequences are, and the context is
one. -/
theorem SessionOk.written_nodup (h : SessionOk cfg x) : (x.written.map datagram).Nodup := by
  have hseq : (x.written.map Packet.sequence).Nodup :=
    ((List.sublist_append_left x.written x.send).map Packet.sequence).nodup h.nodup
  refine List.Nodup.of_map (fun d => d.2.2) ?_
  rw [List.map_map]
  exact hseq

/-- A datagram a session has written is one its window accepted, of its context. -/
theorem SessionOk.written_accepted (h : SessionOk cfg x) {d : Int × UInt64 × UInt64} (hd : d ∈ x.written.map datagram) :
    d.2.2 ∈ x.accepted ∧ d.1 = x.dataOpener.context.ruleID ∧
      d.2.1 = x.dataOpener.context.sessionID := by
  obtain ⟨p, hp, rfl⟩ := List.mem_map.mp hd
  obtain ⟨hmem, hctx⟩ := h.owned p (List.mem_append_left _ hp)
  exact ⟨hmem, congrArg Context.ruleID hctx, congrArg Context.sessionID hctx⟩

theorem atMostOnce_of_apart (h : Inv cfg s) (hapart : Apart s) : AtMostOnce s := by
  unfold AtMostOnce Exit.written
  rw [List.nodup_flatMap]
  refine ⟨fun x hx => (h.objects x hx).written_nodup, ?_⟩
  rw [List.pairwise_iff_getElem]
  intro i j hi hj hij d hd hd'
  have hx := List.getElem?_eq_getElem hi
  have hy := List.getElem?_eq_getElem hj
  have hox := h.get hx
  have hoy := h.get hy
  obtain ⟨hmem, hrule, hsession⟩ := hox.written_accepted hd
  obtain ⟨hmem', hrule', hsession'⟩ := hoy.written_accepted hd'
  have hctx : s.objects[i].dataOpener.context = s.objects[j].dataOpener.context := by
    -- the type and the tunnel are those of the exit, the rule and the session the datagram's
    have hcontext : ∀ c c' : Context, c.packetType = c'.packetType → c.tunnelID = c'.tunnelID →
        c.ruleID = c'.ruleID → c.sessionID = c'.sessionID → c = c' := by
      intro c c' h1 h2 h3 h4
      cases c
      cases c'
      simp_all
    exact hcontext _ _ (hox.packetType.trans hoy.packetType.symm)
      (hox.tunnelID.trans hoy.tunnelID.symm) (hrule.symm.trans hrule') (hsession.symm.trans hsession')
  have := hapart i j _ _ hx hy hctx d.2.2 hmem hmem'
  omega

/-- In every run in which a datagram meets one window only, it is written to its
target at most once. -/
theorem atMostOnce_of_oneWindow (fxpUDPAEAD : String → Context → Cipher) (cfg : Config)
    (as : List Act) (s : Exit)
    (hrun : Run (Guarded OneWindow (exit fxpUDPAEAD cfg)) Exit.init as s) : AtMostOnce s := by
  have hall : Inv cfg s ∧ Apart s := by
    induction hrun with
    | nil => exact ⟨Inv.init cfg, fun _ _ _ _ hx => nomatch hx⟩
    | snoc _ hstep ih =>
      obtain ⟨hinv, hapart⟩ := ih
      obtain ⟨hone, hstep⟩ := hstep
      exact ⟨hinv.step hstep, hapart.step hinv hone hstep⟩
  exact atMostOnce_of_apart hall.1 hall.2

/-! ## Replays of one datagram -/

def nullAEAD (_ : String) (_ : Context) : Cipher := .null

def dataContext : Context := ⟨fxpUDPTypeData, 41, 3, 9⟩
def exitConfig : Config := ⟨41, 0, "key"⟩
def exitTarget : Target := ⟨"127.0.0.1", 53⟩
def firstAddr : UDPAddr := ⟨[192, 0, 2, 1], 4000, []⟩
def secondAddr : UDPAddr := ⟨[192, 0, 2, 2], 4000, []⟩

/-- A datagram of session 9, sequence 5 and payload `[7]`, as it is recorded on the wire. -/
def recorded : Bytes :=
  [0x46, 0x58, 0x50, 0x55, 3, 1, 0, 0, 0, 0, 0, 41, 0, 0, 0, 3, 0, 0, 0, 0, 0, 0, 0, 9,
    0, 0, 0, 0, 0, 0, 0, 5, 7] ++ List.replicate 16 0

example : Codec.sealPacket ⟨dataContext, .null⟩ ⟨dataContext, 5, 0, 0, [7]⟩ = .ok recorded := rfl

/-- The session of an address once it has written the recorded datagram. -/
def servedSession (addr : UDPAddr) : Session :=
  ⟨⟨3, addr, 9⟩, ⟨dataContext, .null⟩, exitTarget, ⟨true, 5, 1⟩, ⟨[], false⟩, [], false, [5],
    [⟨dataContext, 5, 0, 0, [7]⟩]⟩

/-- The datagram resent from its own address is written once. -/
theorem atMostOnce_resent :
    ∃ s, Run (exit nullAEAD exitConfig) Exit.init
        [.receive firstAddr recorded, .process (some exitTarget) true, .accept 0 true,
          .forward 0 true, .write 0 false, .receive firstAddr recorded,
          .process (some exitTarget) true, .accept 1 true] s ∧
      s.written = [(3, 9, 5)] ∧ AtMostOnce s := by
  have hrun : Run (Guarded OneWindow (exit nullAEAD exitConfig)) Exit.init
      [.receive firstAddr recorded, .process (some exitTarget) true, .accept 0 true,
        .forward 0 true, .write 0 false, .receive firstAddr recorded,
        .process (some exitTarget) true, .accept 1 true]
      ⟨[servedSession firstAddr], [(⟨3, firstAddr, 9⟩, 0)], .idle⟩ := by
    refine Run.cons (t := ⟨[], [], .absent recorded ⟨dataContext, 5, 0, 0, []⟩ ⟨3, firstAddr, 9⟩ true⟩)
      ⟨trivial, ?_⟩ ?_
    · rfl
    refine Run.cons (t := ⟨[newSession ⟨dataContext, .null⟩ ⟨3, firstAddr, 9⟩ exitTarget],
      [(⟨3, firstAddr, 9⟩, 0)], .admitted 0 ⟨dataContext, 5, 0, 0, [7]⟩⟩) ⟨trivial, ?_⟩ ?_
    · rfl
    refine Run.cons (t := ⟨[{ servedSession firstAddr with written := [] }],
      [(⟨3, firstAddr, 9⟩, 0)], .accepted 0 ⟨dataContext, 5, 0, 0, [7]⟩⟩) ⟨?_, ?_⟩ ?_
    · intro i packet hr j y hy _ hmem
      cases hr
      obtain rfl := List.mem_singleton.mp (List.mem_of_getElem? hy)
      cases hmem
    · rfl
    refine Run.cons (t := ⟨[{ servedSession firstAddr with
      written := [], send := [⟨dataContext, 5, 0, 0, [7]⟩] }],
      [(⟨3, firstAddr, 9⟩, 0)], .idle⟩) ⟨trivial, ?_⟩ ?_
    · rfl
    refine Run.cons (t := ⟨[servedSession firstAddr], [(⟨3, firstAddr, 9⟩, 0)], .idle⟩)
      ⟨trivial, ?_⟩ ?_
    · rfl
    refine Run.cons (t := ⟨[servedSession firstAddr], [(⟨3, firstAddr, 9⟩, 0)],
      .found recorded ⟨dataContext, 5, 0, 0, []⟩ ⟨3, firstAddr, 9⟩ 0⟩) ⟨trivial, ?_⟩ ?_
    · rfl
    refine Run.cons (t := ⟨[servedSession firstAddr], [(⟨3, firstAddr, 9⟩, 0)],
      .admitted 0 ⟨dataContext, 5, 0, 0, [7]⟩⟩) ⟨trivial, ?_⟩ (Run.single ⟨?_, ?_⟩)
    · rfl
    · intro i packet hr j y hy _ _
      cases hr
      cases j with
      | zero => rfl
      | succ j => cases hy
    · rfl
  exact ⟨_, hrun.of_guarded, rfl, atMostOnce_of_oneWindow nullAEAD exitConfig _ _ hrun⟩

/-- The datagram resent from a second address is written twice. -/
theorem second_address_admits_again :
    ¬ ∀ (fxpUDPAEAD : String → Context → Cipher) (cfg : Config) (as : List Act) (s : Exit),
      Run (exit fxpUDPAEAD cfg) Exit.init as s → AtMostOnce s := by
  intro h
  have hrun : Run (exit nullAEAD exitConfig) Exit.init
      [.receive firstAddr recorded, .process (some exitTarget) true, .accept 0 true,
        .forward 0 true, .write 0 false, .receive secondAddr recorded,
        .process (some exitTarget) true, .accept 1 true, .forward 0 true, .write 1 false]
      ⟨[servedSession firstAddr, servedSession secondAddr],
        [(⟨3, secondAddr, 9⟩, 1), (⟨3, firstAddr, 9⟩, 0)], .idle⟩ := exec_run rfl
  have hnodup : ([(3, 9, 5), (3, 9, 5)] : List (Int × UInt64 × UInt64)).Nodup := h _ _ _ _ hrun
  exact absurd hnodup (by decide)

end ForwardX.Udp.ExitDirect
